import OrbiGateway.Invariants.RequestRows
import OrbiGateway.System.Bookings

/-!
# Lease exclusivity

A claim gives the request to one worker for the length of the lease.  Until the lease has
passed, the worker that holds it is the only one that can do anything with the row:
others find it neither queued nor assigned to them, and recovery takes only leases that
lie strictly in the past.
-/

namespace OrbiGateway

open Relational Transition

/-! ## Clocks -/

/-- The clock that the operation reads; an error report reads none. -/
def Op.clock : Op → Option Timestamp
  | .chat call => some call.readings.now
  | .claim _ _ now => some now
  | .submitResult _ _ now => some now
  | .submitError _ _ => none
  | .recover now => some now

def Event.clock : Event → Option Timestamp
  | .performed op _ _ => op.clock
  | .failed op _ => op.clock
  | .rescanned => none

/-- The clock readings of a history, newest first. -/
def clocks (history : List Event) : List Timestamp :=
  history.filterMap Event.clock

def ClocksNondecreasing (history : List Event) : Prop :=
  (clocks history).Pairwise fun newer older => older ≤ newer

instance (history : List Event) : Decidable (ClocksNondecreasing history) :=
  inferInstanceAs (Decidable (List.Pairwise _ _))

theorem ClocksNondecreasing.le_of_last {history : List Event} {bound : Timestamp}
    (h : ClocksNondecreasing history)
    (hlast : ∀ reading, (clocks history).head? = some reading → reading ≤ bound) :
    ∀ e ∈ history, ∀ reading, e.clock = some reading → reading ≤ bound := by
  intro e he reading hreading
  have hmem : reading ∈ clocks history := List.mem_filterMap.mpr ⟨e, he, hreading⟩
  unfold ClocksNondecreasing at h
  cases hclocks : clocks history with
  | nil =>
      rw [hclocks] at hmem
      cases hmem
  | cons last earlier =>
      rw [hclocks] at h hmem hlast
      have hle := hlast last rfl
      rcases List.mem_cons.mp hmem with rfl | hearlier
      · exact hle
      · exact (List.rel_of_pairwise_cons h hearlier).trans hle

/-! ## One step of a leased row -/

/-- The worker has reported a result or an error for the request, and it was accepted. -/
def Event.reports (workerId id : UUID) : Event → Bool
  | .performed (.submitResult worker payload _) (.resultAccepted true) _ =>
      worker.id == workerId && payload.requestId == id
  | .performed (.submitError worker payload) (.errorAccepted true) _ =>
      worker.id == workerId && payload.requestId == id
  | _ => false

/-- The row is assigned to this worker, with a lease up to this instant. -/
structure Leased (r : OrbiRequest) (workerId : UUID) (deadline : Timestamp) : Prop where
  status : r.status = .assigned
  assignedTo : r.assignedTo = some workerId
  leaseExpires : r.leaseExpires = some deadline

namespace Leased

variable {r r' : OrbiRequest} {workerId : UUID} {deadline now : Timestamp}

theorem of_claimed (r : OrbiRequest) (worker : Worker) (leaseSeconds : ℤ)
    (now : Timestamp) :
    Leased (r.claimed worker leaseSeconds now) worker.id (now + seconds leaseSeconds) :=
  ⟨rfl, rfl, rfl⟩

theorem not_isClaimable (h : Leased r workerId deadline) (worker : Worker)
    (now : Timestamp) : r.isClaimable worker now = false := by
  simp [OrbiRequest.isClaimable, h.status]

theorem not_isQueueExpired (h : Leased r workerId deadline) (now : Timestamp) :
    r.isQueueExpired now = false := by
  simp [OrbiRequest.isQueueExpired, h.status]

theorem not_leaseLapsed (h : Leased r workerId deadline) (hnow : now ≤ deadline) :
    r.leaseLapsed now = false := by
  have hbefore : r.leaseBefore now = false := by
    simp [OrbiRequest.leaseBefore, h.leaseExpires, hnow]
  simp [OrbiRequest.leaseLapsed, hbefore]

theorem eq_of_isHeldBy (h : Leased r workerId deadline) {requestId holder : UUID}
    (hheld : r.isHeldBy requestId holder = true) :
    requestId = r.id ∧ holder = workerId := by
  obtain ⟨hid, hassigned, -, -⟩ := OrbiRequest.isHeldBy_iff.mp hheld
  rw [h.assignedTo, Option.some.injEq] at hassigned
  exact ⟨hid.symm, hassigned.symm⟩

/-- Within the lease, an operation leaves the row alone or is an accepted report of the
worker that holds it. -/
theorem step {op : Op} {reply : Reply} (h : Leased r workerId deadline)
    (hstep : RowStep r op reply r')
    (hclock : ∀ reading, op.clock = some reading → reading ≤ deadline)
    (settled : List Settlement)
    (hreports : (Event.performed op reply settled).reports workerId r.id = false) :
    r' = r ∧ ¬TakesRequest r.id op reply := by
  cases hstep with
  | kept hother => exact ⟨rfl, hother⟩
  | claimed hclaimable =>
      rw [h.not_isClaimable] at hclaimable
      cases hclaimable
  | completed hheld =>
      obtain ⟨hid, hholder⟩ := h.eq_of_isHeldBy hheld
      simp [Event.reports, hid, hholder] at hreports
  | errorRequeued hheld hretry =>
      obtain ⟨hid, hholder⟩ := h.eq_of_isHeldBy hheld
      simp [Event.reports, hid, hholder] at hreports
  | errorFailed hheld hfinal =>
      obtain ⟨hid, hholder⟩ := h.eq_of_isHeldBy hheld
      simp [Event.reports, hid, hholder] at hreports
  | leaseRequeued hretry hqueue =>
      simp [OrbiRequest.isRetryable, h.not_leaseLapsed (hclock _ rfl)] at hretry
  | leaseExpired hretry hqueue =>
      simp [OrbiRequest.isRetryable, h.not_leaseLapsed (hclock _ rfl)] at hretry
  | leaseFailed hexhausted =>
      simp [OrbiRequest.isExhausted, h.not_leaseLapsed (hclock _ rfl)] at hexhausted
  | queueExpired hqueue =>
      rw [h.not_isQueueExpired] at hqueue
      cases hqueue

end Leased

/-! ## The whole lease -/

/-- The event is a claim of the request, or an accepted result or error for it. -/
def Event.Takes (id : UUID) : Event → Prop
  | .performed op reply _ => TakesRequest id op reply
  | _ => False

/-- Since the claim that left it as `r`, the row is unchanged and nobody has taken the
request. -/
structure LeaseKept (r : OrbiRequest) (newer : List Event) (db : Db) : Prop where
  row : r ∈ db.requests.rows
  untaken : ∀ e ∈ newer, ¬e.Takes r.id

theorem LeaseKept.step {r : OrbiRequest} {newer : List Event} {db db' : Db} {e : Event}
    {workerId : UUID} {deadline : Timestamp} (h : LeaseKept r newer db)
    (hleased : Leased r workerId deadline) (hstep : Step db e db')
    (hclock : ∀ reading, e.clock = some reading → reading ≤ deadline)
    (hreports : e.reports workerId r.id = false) : LeaseKept r (e :: newer) db' := by
  cases hstep with
  | @performed db' op reply hexec =>
      obtain ⟨hkept, huntaken⟩ :=
        hleased.step (exec_rowStep hexec h.row) hclock _ hreports
      refine ⟨?_, ?_⟩
      · rw [exec_requests hexec]
        apply List.mem_append_left
        exact List.mem_map.mpr ⟨r, h.row, hkept⟩
      · intro e he
        rcases List.mem_cons.mp he with rfl | he
        · exact huntaken
        · exact h.untaken e he
  | failed hexec =>
      refine ⟨h.row, ?_⟩
      intro e he
      rcases List.mem_cons.mp he with rfl | he
      · exact fun hno => hno
      · exact h.untaken e he
  | rescanned hperm =>
      refine ⟨hperm.mem_iff.mpr h.row, ?_⟩
      intro e he
      rcases List.mem_cons.mp he with rfl | he
      · exact fun hno => hno
      · exact h.untaken e he

/-- A lease is kept through every run whose clocks stay within it, up to the first
accepted report of its worker. -/
theorem leaseKept_of_history {mid db : Db} {newer : List Event} {r : OrbiRequest}
    {workerId : UUID} {deadline : Timestamp} (hrun : History mid newer db)
    (hr : r ∈ mid.requests.rows) (hleased : Leased r workerId deadline) :
    (∀ e ∈ newer, ∀ reading, e.clock = some reading → reading ≤ deadline) →
      (∀ e ∈ newer, e.reports workerId r.id = false) → LeaseKept r newer db := by
  apply Run.history_invariant (I := fun newer db =>
    (∀ e ∈ newer, ∀ reading, e.clock = some reading → reading ≤ deadline) →
      (∀ e ∈ newer, e.reports workerId r.id = false) → LeaseKept r newer db) hrun
  · intro _ _
    exact ⟨hr, fun e he => absurd he List.not_mem_nil⟩
  · intro newer before e after _ ih hlast hclock hreports
    have hkept := ih (fun e' he' => hclock e' (List.mem_cons_of_mem e he'))
      (fun e' he' => hreports e' (List.mem_cons_of_mem e he'))
    exact hkept.step hleased hlast (hclock e List.mem_cons_self)
      (hreports e List.mem_cons_self)

theorem Step.claimed_mem {db db' : Db} {worker : Worker} {leaseSeconds : ℤ}
    {now : Timestamp} {r : OrbiRequest} {settled : List Settlement}
    (hstep : Step db (.performed (.claim worker leaseSeconds now) (.claimed (some r))
      settled) db') :
    r ∈ db'.requests.rows ∧ Leased r worker.id (now + seconds leaseSeconds) := by
  cases hstep with
  | performed hexec =>
      rcases exec_claim_cases hexec with ⟨hno, -⟩ | ⟨old, hmem, -, hreply, rfl⟩
      · cases hno
      · cases hreply
        refine ⟨?_, .of_claimed old worker leaseSeconds now⟩
        rw [Table.rows_put]
        exact List.mem_map.mpr ⟨old, hmem, by simp [OrbiRequest.claimed]⟩

/-- A claim at `now` keeps the request for its worker up to and including the end of the
lease: until the worker itself has reported, the row stays as the claim has left it, and
nobody else is assigned the request or has a result or an error for it accepted. -/
theorem lease_exclusivity {db₀ db : Db} {older newer : List Event} {worker : Worker}
    {leaseSeconds : ℤ} {now : Timestamp} {r : OrbiRequest} {settled : List Settlement}
    (hrun : History db₀ (newer ++ .performed (.claim worker leaseSeconds now)
      (.claimed (some r)) settled :: older) db)
    (hclocks : ClocksNondecreasing (newer ++ .performed (.claim worker leaseSeconds now)
      (.claimed (some r)) settled :: older))
    (hwithin : ∀ reading, (clocks (newer ++ .performed (.claim worker leaseSeconds now)
      (.claimed (some r)) settled :: older)).head? = some reading →
        reading ≤ now + seconds leaseSeconds)
    (hreports : ∀ e ∈ newer, e.reports worker.id r.id = false) :
    Leased r worker.id (now + seconds leaseSeconds) ∧ LeaseKept r newer db := by
  obtain ⟨after, hmid, hnew⟩ := Run.split hrun
  obtain ⟨before, -, hclaim⟩ := Run.of_cons hmid
  obtain ⟨hmem, hleased⟩ := hclaim.claimed_mem
  refine ⟨hleased, leaseKept_of_history hnew hmem hleased ?_ hreports⟩
  intro e he
  exact hclocks.le_of_last hwithin e (List.mem_append_left _ he)

namespace Sample

/-- A claim for two minutes, then a recovery at the last instant of the lease. -/
def recoveredAtDeadline : List Op :=
  assigned ++ [.recover (1 + seconds 120)]

end Sample

/-- The recovery leaves the request to its worker. -/
theorem lease_exclusivity_at_deadline :
    ∃ r older, (runOps Sample.db Sample.recoveredAtDeadline).1 =
        [.performed (.recover (1 + seconds 120)) (.recovered 0) []] ++
          .performed (.claim Sample.worker 120 1) (.claimed (some r)) [] :: older ∧
      Leased r Sample.worker.id (1 + seconds 120) ∧
      LeaseKept r [.performed (.recover (1 + seconds 120)) (.recovered 0) []]
        (runOps Sample.db Sample.recoveredAtDeadline).2 := by
  refine ⟨_, _, rfl, lease_exclusivity
    (history_runOps Sample.db Sample.recoveredAtDeadline) (by decide) ?_ (by simp [Event.reports])⟩
  intro reading hreading
  cases hreading
  exact le_refl _

end OrbiGateway
