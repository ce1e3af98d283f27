import OrbiGateway.Invariants.RequestRows
import OrbiGateway.System.Bookings

/-!
# Error reports and attempts

Each successful claim of a request is one attempt.  `record_error` compares the
worker of a report with the assignee of the row and knows no attempt, so a report
is fenced from the attempts of other workers but not from a later attempt of the
worker that sent it.
-/

namespace OrbiGateway

open Relational Transition

/-- The number of attempts a request has had. -/
def attempts (id : UUID) (history : List Event) : ℕ :=
  (claimants id history).length

theorem claimants_append (id : UUID) (newer older : List Event) :
    claimants id (newer ++ older) = claimants id newer ++ claimants id older :=
  List.filterMap_append

/-- A report sent in the state `mid` by the worker that then held the request,
after the events `older`, and delivered after the events `between` as the step
from `before` to `after`. -/
structure Delivery (db₀ : Db) (worker : Worker) (payload : WorkerErrorRequest)
    (older between : List Event) (before after : Db) : Prop where
  sent : ∃ mid, History db₀ older mid ∧ History mid between before ∧
    ∃ r ∈ mid.requests.rows, r.isHeldBy payload.requestId worker.id = true
  delivered : ∃ reply settled,
    Step before (.performed (.submitError worker payload) reply settled) after

/-- Every delivered report that changes anything belongs to the attempt that is
current on delivery. -/
def ReportsFenced (db₀ : Db) : Prop :=
  ∀ worker payload older between before after,
    Delivery db₀ worker payload older between before after → after ≠ before →
      attempts payload.requestId (between ++ older) =
        attempts payload.requestId older

/-! ## Who holds an attempt -/

theorem lastClaimant_of_isHeldBy {db₀ db : Db} {history : List Event}
    {r : OrbiRequest} {id workerId : UUID} (hstart : db₀.requests.rows = [])
    (hrun : History db₀ history db) (hr : r ∈ db.requests.rows)
    (hheld : r.isHeldBy id workerId = true) :
    lastClaimant id history = some workerId := by
  obtain ⟨rfl, hassigned, -, hlive⟩ := OrbiRequest.isHeldBy_iff.mp hheld
  have hwell := rowWellFormed_of_history hstart hrun r hr
  obtain ⟨⟨holder, hholder, hclaimant⟩, -, -⟩ :=
    hwell.assigned (hwell.assigned_of_isLive hlive)
  rw [hclaimant, ← hholder, hassigned]

/-- A report that changes anything finds the request held by its worker. -/
theorem isHeldBy_of_report {before after : Db} {worker : Worker}
    {payload : WorkerErrorRequest} {reply : Reply} {settled : List Settlement}
    (hstep : Step before (.performed (.submitError worker payload) reply settled)
      after) (hchange : after ≠ before) :
    reply = .errorAccepted true ∧
      ∃ r ∈ before.requests.rows, r.isHeldBy payload.requestId worker.id = true := by
  cases hstep with
  | performed hexec =>
      rcases exec_submitError_cases hexec with
        ⟨-, hkeep, -⟩ | ⟨r, hmem, hreply, hheld, -⟩
      · exact absurd hkeep hchange
      · exact ⟨hreply, r, hmem, hheld⟩

/-! ## One report for each attempt -/

/-- A row that no worker holds is taken up again only by a claim. -/
theorem RowStep.not_isLive {r r' : OrbiRequest} {op : Op} {reply : Reply}
    (h : RowStep r op reply r') (hlive : r.isLive = false)
    (settled : List Settlement) :
    r'.isLive = false ∨ ((Event.performed op reply settled).claimantOf r.id).isSome := by
  cases h with
  | kept => exact Or.inl hlive
  | claimed =>
      right
      simp [Event.claimantOf, OrbiRequest.claimed]
  | completed => exact Or.inl rfl
  | errorRequeued => exact Or.inl rfl
  | errorFailed => exact Or.inl rfl
  | leaseRequeued => exact Or.inl rfl
  | leaseExpired => exact Or.inl rfl
  | leaseFailed => exact Or.inl rfl
  | queueExpired => exact Or.inl rfl

/-- A request that nobody holds stays so until the next claim. -/
theorem not_isLive_until_claim {mid db : Db} {between : List Event} {id : UUID}
    (hstart : ∀ r ∈ mid.requests.rows, r.id = id → r.isLive = false)
    (hrun : History mid between db) (hnone : claimants id between = []) :
    ∀ r ∈ db.requests.rows, r.id = id → r.isLive = false := by
  have hrow : ∀ r ∈ db.requests.rows, r.id = id → claimants id between = [] →
      r.isLive = false := by
    apply row_invariant
      (I := fun between r => r.id = id → claimants id between = [] →
        r.isLive = false) hrun
    · intro r hr hid _
      exact hstart r hr hid
    · intro between db call record project project' settled hnew _ _
      exact OrbiRequest.not_isLive_of_queued hnew.status
    · intro between r op reply r' settled ih hstep hid hnone
      have hsame : r.id = id := hstep.fixed.1.symm.trans hid
      have hevent : Event.claimantOf id (.performed op reply settled) = none := by
        rw [claimants, List.filterMap_eq_nil_iff] at hnone
        exact hnone _ List.mem_cons_self
      have holder : claimants id between = [] := by
        simpa [claimants, hevent] using hnone
      rcases hstep.not_isLive (ih hsame holder) settled with hno | hsome
      · exact hno
      · rw [hsame, hevent] at hsome
        cases hsome
    · intro between r op failure ih hid hnone
      exact ih hid hnone
    · intro between r ih hid hnone
      exact ih hid hnone
  intro r hr hid
  exact hrow r hr hid hnone

theorem Step.acceptsError_cases {db db' : Db} {e : Event} {id : UUID}
    (hstep : Step db e db') (haccepts : e.acceptsError id = true) :
    (∃ r ∈ db.requests.rows, r.id = id ∧ r.isLive = true) ∧
      ∀ r ∈ db'.requests.rows, r.id = id → r.isLive = false := by
  unfold Event.acceptsError at haccepts
  split at haccepts
  next worker payload settled =>
    have hid : payload.requestId = id := by simpa using haccepts
    subst hid
    cases hstep with
    | performed hexec =>
        rcases exec_submitError_cases hexec with
          ⟨hno, -⟩ | ⟨r, hmem, -, hheld, -⟩
        · cases hno
        · obtain ⟨hrid, -, -, hlive⟩ := OrbiRequest.isHeldBy_iff.mp hheld
          refine ⟨⟨r, hmem, hrid, hlive⟩, ?_⟩
          intro r' hr' hid
          have hrows := exec_requests hexec
          simp only [Reply.newRows, List.append_nil] at hrows
          rw [hrows] at hr'
          obtain ⟨row, hrow, rfl⟩ := List.mem_map.mp hr'
          have hrowId := (exec_rowStep hexec hrow).fixed.1
          have heq : row = r :=
            db.requests.eq_of_key_eq hrow hmem ((hrowId.symm.trans hid).trans hrid.symm)
          subst heq
          simp only [OrbiRequest.after, hheld, if_true]
          split
          · rfl
          · rfl
  next => cases haccepts

/-- Between two accepted reports of a request there is a claim. -/
theorem claim_between_reports {db₀ db : Db} {newer between older : List Event}
    {second first : Event} {id : UUID}
    (hrun : History db₀ (newer ++ second :: (between ++ first :: older)) db)
    (hfirst : first.acceptsError id = true)
    (hsecond : second.acceptsError id = true) : claimants id between ≠ [] := by
  obtain ⟨after, hmid, -⟩ := Run.split hrun
  obtain ⟨before, hearlier, hlast⟩ := Run.of_cons hmid
  obtain ⟨reported, hold, hbetween⟩ := Run.split hearlier
  obtain ⟨held, -, hreport⟩ := Run.of_cons hold
  intro hnone
  obtain ⟨-, hfree⟩ := hreport.acceptsError_cases hfirst
  obtain ⟨⟨r, hr, hid, hlive⟩, -⟩ := hlast.acceptsError_cases hsecond
  have hno := not_isLive_until_claim hfree hbetween hnone r hr hid
  rw [hlive] at hno
  cases hno

/-! ## One retry for each attempt -/

/-- The retries a request has used, with the attempt in progress, are at most its
attempts. -/
def RetriesWithinAttempts (history : List Event) (r : OrbiRequest) : Prop :=
  r.retryCount + (if r.isLive then 1 else 0) ≤ attempts r.id history

theorem RetriesWithinAttempts.of_not_isLive {history : List Event}
    {r : OrbiRequest} {e : Event} (hlive : r.isLive = false)
    (hle : r.retryCount ≤ attempts r.id history) :
    RetriesWithinAttempts (e :: history) r := by
  have hmono : attempts r.id history ≤ attempts r.id (e :: history) := by
    have happend := claimants_append r.id [e] history
    simp only [List.singleton_append] at happend
    simp [attempts, happend]
  simp only [RetriesWithinAttempts, hlive, Bool.false_eq_true, if_false]
  omega

theorem RetriesWithinAttempts.step {history : List Event} {r r' : OrbiRequest}
    {op : Op} {reply : Reply} {settled : List Settlement}
    (h : RetriesWithinAttempts history r) (hstep : RowStep r op reply r') :
    RetriesWithinAttempts (.performed op reply settled :: history) r' := by
  have hheld : r.isLive = true → r.retryCount + 1 ≤ attempts r.id history := by
    intro hlive
    simpa [RetriesWithinAttempts, hlive] using h
  have hle : r.retryCount ≤ attempts r.id history := by
    have hself := h
    unfold RetriesWithinAttempts at hself
    split at hself <;> omega
  cases hstep with
  | kept hno =>
      rw [RetriesWithinAttempts, attempts, claimants_of_not_takes hno]
      exact h
  | @claimed worker leaseSeconds now hclaimable =>
      have hid : (r.claimed worker leaseSeconds now).id = r.id := rfl
      have hlive : (r.claimed worker leaseSeconds now).isLive = true := rfl
      rw [RetriesWithinAttempts, attempts, claimants_claimed rfl, hlive]
      simp only [if_true, List.length_cons, Nat.cast_add, Nat.cast_one]
      exact Int.add_le_add_right hle 1
  | completed hguard => exact .of_not_isLive rfl hle
  | errorRequeued hguard hretry =>
      exact .of_not_isLive rfl (hheld (OrbiRequest.isHeldBy_iff.mp hguard).2.2.2)
  | errorFailed hguard hfinal => exact .of_not_isLive rfl hle
  | leaseRequeued hretry hqueue =>
      simp only [OrbiRequest.isRetryable, Bool.and_eq_true] at hretry
      exact .of_not_isLive rfl (hheld (OrbiRequest.isLive_of_leaseLapsed hretry.1))
  | leaseExpired hretry hqueue =>
      simp only [OrbiRequest.isRetryable, Bool.and_eq_true] at hretry
      exact .of_not_isLive rfl (hheld (OrbiRequest.isLive_of_leaseLapsed hretry.1))
  | leaseFailed hexhausted => exact .of_not_isLive rfl hle
  | queueExpired hqueue => exact .of_not_isLive rfl hle

theorem retriesWithinAttempts_of_history {db₀ db : Db} {history : List Event}
    (hstart : db₀.requests.rows = []) (hrun : History db₀ history db) :
    ∀ r ∈ db.requests.rows, RetriesWithinAttempts history r := by
  apply row_invariant (I := RetriesWithinAttempts) hrun
  · intro r hr
    rw [hstart] at hr
    cases hr
  · intro history db call record project project' settled hnew
    apply RetriesWithinAttempts.of_not_isLive
    · exact OrbiRequest.not_isLive_of_queued hnew.status
    · rw [hnew.retryCount]
      exact Int.natCast_nonneg _
  · intro history r op reply r' settled ih hstep
    exact ih.step hstep
  · intro history r op failure ih
    exact ih
  · intro history r ih
    exact ih

/-! ## A stale report -/

namespace Sample

/-- The lease lapses and the same worker claims the request again. -/
def reclaimed : List Op :=
  [.recover 121000000, .claim worker 120 121000001]

def reattempted : Db := (runOps assignedDb reclaimed).2

end Sample

/-- A report of the first attempt, delivered in the second attempt of the same
worker, puts the request back in the queue. -/
theorem reports_not_fenced : ¬ReportsFenced Sample.db := by
  intro hfenced
  have hok : (exec Sample.reattempted
      (.submitError Sample.worker (Sample.errorFor 100))).isOk = true := by decide
  obtain ⟨reply, settled, hstep⟩ := step_of_isOk hok
  have hsame := hfenced Sample.worker (Sample.errorFor 100)
    (runOps Sample.db Sample.assigned).1 (runOps Sample.assignedDb Sample.reclaimed).1
    Sample.reattempted _
    ⟨⟨Sample.assignedDb, history_runOps _ _, history_runOps _ _, by decide⟩,
      ⟨reply, settled, hstep⟩⟩ (by
      intro heq
      have hstatus := congrArg (fun db => db.requests.rows.map (·.status)) heq
      revert hstatus
      decide)
  revert hsame
  decide

/-- A delivered report changes the request only while its worker holds the current
attempt, so only in its own attempt unless that worker has claimed the request
again; between two accepted reports there is a claim; and a request never uses
more retries than it has had attempts. -/
theorem error_reports_fenced_by_worker {db₀ db : Db} {history : List Event}
    (hfresh : Fresh db₀) (hrun : History db₀ history db) :
    (∀ worker payload older between before after,
      Delivery db₀ worker payload older between before after → after ≠ before →
        lastClaimant payload.requestId (between ++ older) = some worker.id ∧
        (∃ r ∈ before.requests.rows,
          r.isHeldBy payload.requestId worker.id = true) ∧
        (worker.id ∉ claimants payload.requestId between →
          attempts payload.requestId (between ++ older) =
            attempts payload.requestId older)) ∧
    (∀ id newer second between first older,
      history = newer ++ second :: (between ++ first :: older) →
        first.acceptsError id = true → second.acceptsError id = true →
          attempts id (first :: older) < attempts id (between ++ first :: older)) ∧
    (∀ r ∈ db.requests.rows, r.retryCount ≤ attempts r.id history) := by
  refine ⟨?_, ?_, ?_⟩
  · intro worker payload older between before after hdelivery hchange
    obtain ⟨mid, hold, hbetween, -⟩ := hdelivery.sent
    obtain ⟨reply, settled, hstep⟩ := hdelivery.delivered
    obtain ⟨-, r, hr, hheld⟩ := isHeldBy_of_report hstep hchange
    have hlast := lastClaimant_of_isHeldBy hfresh.requests_empty
      (Run.append hold hbetween) hr hheld
    refine ⟨hlast, ⟨r, hr, hheld⟩, ?_⟩
    intro hno
    rw [lastClaimant, claimants_append] at hlast
    cases hclaimed : claimants payload.requestId between with
    | nil => simp [attempts, claimants_append, hclaimed]
    | cons claimant rest =>
        rw [hclaimed, List.cons_append, List.head?_cons, Option.some.injEq] at hlast
        rw [hclaimed, hlast] at hno
        exact absurd List.mem_cons_self hno
  · rintro id newer second between first older rfl hfirst hsecond
    have hclaim := claim_between_reports hrun hfirst hsecond
    have hpos := List.length_pos_iff.mpr hclaim
    simp only [attempts, claimants_append, List.length_append]
    omega
  · intro r hr
    have hrow := retriesWithinAttempts_of_history hfresh.requests_empty hrun r hr
    unfold RetriesWithinAttempts at hrow
    split at hrow <;> omega

/-- Two attempts and one retry. -/
theorem error_reports_fenced_by_worker_reattempted :
    (runOps Sample.db (Sample.assigned ++ Sample.reclaimed)).2.requests.rows.map
        (·.retryCount) = [1] ∧
      ∀ r ∈ (runOps Sample.db
          (Sample.assigned ++ Sample.reclaimed)).2.requests.rows,
        r.retryCount ≤ attempts r.id
          (runOps Sample.db (Sample.assigned ++ Sample.reclaimed)).1 :=
  ⟨by decide, (error_reports_fenced_by_worker Sample.fresh_db
    (history_runOps Sample.db (Sample.assigned ++ Sample.reclaimed))).2.2⟩

end OrbiGateway
