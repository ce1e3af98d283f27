import OrbiGateway.Invariants.AcceptedRows
import OrbiGateway.Invariants.BoundedDelivery
import OrbiGateway.Invariants.LeaseExclusivity

/-!
# Queue discipline

Requests under one alias are handed out in the order in which they were accepted, and
workers that poll often enough empty the queue in that order.
-/

namespace OrbiGateway

open Relational Transition

/-! ## First come, first served -/

/-- One poll of `pull_request` that goes on to claim. -/
structure Pull where
  worker : Worker
  leaseSeconds : ℤ
  now : Timestamp

def Pull.op (pull : Pull) : Op :=
  .claim pull.worker pull.leaseSeconds pull.now

/-- The row that a claim returned, if it did. -/
def Event.claimedRow : Event → Option OrbiRequest
  | .performed _ (.claimed reply) _ => reply
  | _ => none

/-- The rows that the claims of a history returned, first to last. -/
def claimedRows (history : List Event) : List OrbiRequest :=
  (history.filterMap Event.claimedRow).reverse

/-- Two workers that announce the same models and capabilities. -/
def Worker.ServesLike (worker worker' : Worker) : Prop :=
  worker.supportedModels = worker'.supportedModels ∧
    worker.capabilities = worker'.capabilities

theorem Worker.ServesLike.isClaimable_eq {worker worker' : Worker}
    (h : worker.ServesLike worker') (r : OrbiRequest) (now : Timestamp) :
    r.isClaimable worker now = r.isClaimable worker' now := by
  unfold OrbiRequest.isClaimable
  rw [h.1, h.2]

theorem OrbiRequest.isClaimable_of_le {r : OrbiRequest} {worker : Worker}
    {earlier now : Timestamp} (h : r.isClaimable worker now = true) (hle : earlier ≤ now) :
    r.isClaimable worker earlier = true := by
  simp only [isClaimable, Bool.and_eq_true, decide_eq_true_eq] at h ⊢
  exact ⟨⟨⟨h.1.1.1, lt_of_le_of_lt hle h.1.1.2⟩, h.1.2⟩, h.2⟩

/-- A poll takes `first` out of the queue of the workers that serve like `worker`. -/
structure ClaimsFirst (worker : Worker) (pull : Pull) (db : Db) (e : Event) (db' : Db)
    (first : OrbiRequest) : Prop where
  mem : first ∈ db.requests.rows
  claimable : first.isClaimable worker pull.now = true
  returned : e.claimedRow = some (first.claimed pull.worker pull.leaseSeconds pull.now)
  least : ∀ r ∈ db.requests.rows, r.isClaimable worker pull.now = true →
    first.claimOrder ≤ r.claimOrder
  filter : ∀ now, db'.requests.rows.filter (·.isClaimable worker now) =
    (db.requests.rows.filter (·.isClaimable worker now)).filter
      fun r => decide (r.id ≠ first.id)

/-- What one poll does. -/
inductive Polled (worker : Worker) (pull : Pull) (db : Db) (e : Event) (db' : Db) : Prop
  | idle (hnone : e.claimedRow = none) (hsame : db' = db)
      (hempty : ∀ r ∈ db.requests.rows, r.isClaimable worker pull.now = false)
  | claimed (first : OrbiRequest) (hfirst : ClaimsFirst worker pull db e db' first)

/-- A poll finds nothing to claim, or takes the first claimable row out of the queue. -/
theorem polled_perform (db : Db) {worker : Worker} {pull : Pull}
    (hserves : pull.worker.ServesLike worker) :
    Polled worker pull db (perform db pull.op).1 (perform db pull.op).2 := by
  have hexec : exec db pull.op = .ok (.claimed (QueueService.claimNext db pull.worker
      pull.leaseSeconds pull.now).1, (QueueService.claimNext db pull.worker
        pull.leaseSeconds pull.now).2) := rfl
  unfold perform
  rw [hexec]
  rcases exec_claim_selected hexec with ⟨hselect, hnone, hkeep⟩ | ⟨first, hselect, hsome, hput⟩
  · refine .idle (Reply.claimed.inj hnone) hkeep ?_
    intro r hr
    by_contra hyes
    rw [Bool.not_eq_false, ← hserves.isClaimable_eq] at hyes
    exact Bool.false_ne_true (QueueService.selectClaimable_none hselect r hr hyes)
  · obtain ⟨hfirst, hclaimable, -, hleast⟩ := QueueService.selectClaimable_spec hselect
    refine .claimed first ⟨hfirst, ?_, Reply.claimed.inj hsome, ?_, ?_⟩
    · rwa [← hserves.isClaimable_eq]
    · intro r hr hmay
      rw [← hserves.isClaimable_eq] at hmay
      exact hleast r hr hmay rfl
    · intro now
      have hrows : (QueueService.claimNext db pull.worker pull.leaseSeconds
          pull.now).2.requests.rows = db.requests.rows.map fun r =>
            if r.id = first.id then first.claimed pull.worker pull.leaseSeconds pull.now
            else r := by
        rw [hput]
        rfl
      rw [hrows, List.filter_map, List.filter_filter]
      have hside : db.requests.rows.filter ((·.isClaimable worker now) ∘ fun r =>
          if r.id = first.id then first.claimed pull.worker pull.leaseSeconds pull.now
          else r) =
            db.requests.rows.filter fun r =>
              decide (r.id ≠ first.id) && r.isClaimable worker now := by
        apply List.filter_congr
        intro r _
        by_cases hid : r.id = first.id
        · simp [hid, OrbiRequest.isClaimable, OrbiRequest.claimed]
        · simp [hid]
      rw [hside]
      calc
        _ = (db.requests.rows.filter fun r =>
              decide (r.id ≠ first.id) && r.isClaimable worker now).map id := by
          apply List.map_congr_left
          intro r hr
          have hother := (List.mem_filter.mp hr).2
          simp only [Bool.and_eq_true, decide_eq_true_eq] at hother
          exact if_neg hother.1
        _ = _ := List.map_id _

/-- What polls do to the queue of the workers that serve like `worker`. -/
structure QueueDrained (worker : Worker) (pulls : List Pull) (db : Db) (history : List Event)
    (db' : Db) : Prop where
  sorted : (claimedRows history).Pairwise fun r r' => r.claimOrder ≤ r'.claimOrder
  distinct : ((claimedRows history).map OrbiRequest.id).Nodup
  from_queue : ∀ r ∈ claimedRows history, ∃ old ∈ db.requests.rows, ∃ pull ∈ pulls,
    old.isClaimable worker pull.now = true ∧
      r = old.claimed pull.worker pull.leaseSeconds pull.now
  left_mem : ∀ left ∈ db'.requests.rows, ∀ now, left.isClaimable worker now = true →
    left ∈ db.requests.rows
  first : ∀ r ∈ claimedRows history, ∀ left ∈ db'.requests.rows, ∀ now,
    (∀ pull ∈ pulls, pull.now ≤ now) → left.isClaimable worker now = true →
      r.claimOrder ≤ left.claimOrder
  emptied : ∀ start now, start ≤ now →
    (∀ pull ∈ pulls, start ≤ pull.now ∧ pull.now ≤ now) →
    (db.requests.rows.filter (·.isClaimable worker start)).length ≤ pulls.length →
      ∀ left ∈ db'.requests.rows, left.isClaimable worker now = false

theorem claimedRows_append_singleton (newer : List Event) (e : Event) :
    claimedRows (newer ++ [e]) = e.claimedRow.toList ++ claimedRows newer := by
  unfold claimedRows
  rw [List.filterMap_append, List.reverse_append]
  cases h : e.claimedRow with
  | none => simp [h]
  | some r => simp [h]

section Drained

variable {worker : Worker} {pull : Pull} {pulls : List Pull} {db db₁ db' : Db} {e : Event}
  {newer : List Event}

theorem ClaimsFirst.mem_of_mem {first : OrbiRequest}
    (h : ClaimsFirst worker pull db e db₁ first) {r : OrbiRequest}
    (hr : r ∈ db₁.requests.rows) {now : Timestamp} (hmay : r.isClaimable worker now = true) :
    r ∈ db.requests.rows ∧ r.id ≠ first.id := by
  have hmem : r ∈ db₁.requests.rows.filter (·.isClaimable worker now) :=
    List.mem_filter.mpr ⟨hr, hmay⟩
  rw [h.filter now, List.mem_filter, List.mem_filter, decide_eq_true_eq] at hmem
  exact ⟨hmem.1.1, hmem.2⟩

theorem QueueDrained.nil (worker : Worker) (db : Db) : QueueDrained worker [] db [] db := by
  refine ⟨List.Pairwise.nil, List.nodup_nil, ?_, fun _ h _ _ => h, ?_, ?_⟩
  · intro r hr
    cases hr
  · intro r hr
    cases hr
  · intro start now hle _ hlength left hleft
    by_contra hyes
    rw [Bool.not_eq_false] at hyes
    have hmem : left ∈ db.requests.rows.filter (·.isClaimable worker start) :=
      List.mem_filter.mpr ⟨hleft, OrbiRequest.isClaimable_of_le hyes hle⟩
    have hpos := List.length_pos_of_mem hmem
    simp only [List.length_nil] at hlength
    omega

theorem QueueDrained.cons_idle (hrest : QueueDrained worker pulls db newer db')
    (hnone : e.claimedRow = none)
    (hempty : ∀ r ∈ db.requests.rows, r.isClaimable worker pull.now = false) :
    QueueDrained worker (pull :: pulls) db (newer ++ [e]) db' := by
  have hrows : claimedRows (newer ++ [e]) = claimedRows newer := by
    rw [claimedRows_append_singleton, hnone]
    rfl
  refine ⟨?_, ?_, ?_, hrest.left_mem, ?_, ?_⟩
  · rw [hrows]
    exact hrest.sorted
  · rw [hrows]
    exact hrest.distinct
  · rw [hrows]
    intro r hr
    obtain ⟨old, hold, later, hlaterMem, h⟩ := hrest.from_queue r hr
    exact ⟨old, hold, later, List.mem_cons_of_mem _ hlaterMem, h⟩
  · rw [hrows]
    intro r hr left hleft now hnow hmay
    exact hrest.first r hr left hleft now
      (fun later h => hnow later (List.mem_cons_of_mem _ h)) hmay
  · intro start now _ hbounds _ left hleft
    by_contra hyes
    rw [Bool.not_eq_false] at hyes
    have hold := hempty left (hrest.left_mem left hleft now hyes)
    rw [OrbiRequest.isClaimable_of_le hyes (hbounds pull List.mem_cons_self).2] at hold
    cases hold

/-- A poll that takes the first row comes before polls that are no earlier. -/
theorem QueueDrained.cons_claimed {first : OrbiRequest}
    (hrest : QueueDrained worker pulls db₁ newer db')
    (hafter : ∀ later ∈ pulls, pull.now ≤ later.now)
    (hfirst : ClaimsFirst worker pull db e db₁ first) :
    QueueDrained worker (pull :: pulls) db (newer ++ [e]) db' := by
  have hrows : claimedRows (newer ++ [e]) =
      first.claimed pull.worker pull.leaseSeconds pull.now :: claimedRows newer := by
    rw [claimedRows_append_singleton, hfirst.returned]
    rfl
  refine ⟨?_, ?_, ?_, ?_, ?_, ?_⟩
  · rw [hrows, List.pairwise_cons]
    refine ⟨?_, hrest.sorted⟩
    intro r hr
    obtain ⟨old, hold, later, hlaterMem, hmay, rfl⟩ := hrest.from_queue r hr
    exact hfirst.least old (hfirst.mem_of_mem hold hmay).1
      (OrbiRequest.isClaimable_of_le hmay (hafter later hlaterMem))
  · rw [hrows, List.map_cons, List.nodup_cons]
    refine ⟨?_, hrest.distinct⟩
    intro hmem
    obtain ⟨r, hr, hid⟩ := List.mem_map.mp hmem
    obtain ⟨old, hold, later, -, hmay, rfl⟩ := hrest.from_queue r hr
    exact (hfirst.mem_of_mem hold hmay).2 hid
  · rw [hrows]
    intro r hr
    rcases List.mem_cons.mp hr with rfl | hr
    · exact ⟨first, hfirst.mem, pull, List.mem_cons_self, hfirst.claimable, rfl⟩
    · obtain ⟨old, hold, later, hlaterMem, hmay, heq⟩ := hrest.from_queue r hr
      exact ⟨old, (hfirst.mem_of_mem hold hmay).1, later,
        List.mem_cons_of_mem _ hlaterMem, hmay, heq⟩
  · intro left hleft now hmay
    exact (hfirst.mem_of_mem (hrest.left_mem left hleft now hmay) hmay).1
  · rw [hrows]
    intro r hr left hleft now hnow hmay
    rcases List.mem_cons.mp hr with rfl | hr
    · have hleftOld := hfirst.mem_of_mem (hrest.left_mem left hleft now hmay) hmay
      exact hfirst.least left hleftOld.1
        (OrbiRequest.isClaimable_of_le hmay (hnow pull List.mem_cons_self))
    · exact hrest.first r hr left hleft now
        (fun later h => hnow later (List.mem_cons_of_mem _ h)) hmay
  · intro start now hle hbounds hlength left hleft
    refine hrest.emptied start now hle
      (fun later h => hbounds later (List.mem_cons_of_mem _ h)) ?_ left hleft
    have hfirstMem : first ∈ db.requests.rows.filter (·.isClaimable worker start) :=
      List.mem_filter.mpr ⟨hfirst.mem, OrbiRequest.isClaimable_of_le hfirst.claimable
        (hbounds pull List.mem_cons_self).1⟩
    have hlt : ((db.requests.rows.filter (·.isClaimable worker start)).filter
        fun r => decide (r.id ≠ first.id)).length <
          (db.requests.rows.filter (·.isClaimable worker start)).length :=
      List.length_filter_lt_length_iff_exists.mpr ⟨first, hfirstMem, by simp⟩
    rw [hfirst.filter start]
    simp only [List.length_cons] at hlength
    omega

theorem QueueDrained.cons (hpoll : Polled worker pull db e db₁)
    (hafter : ∀ later ∈ pulls, pull.now ≤ later.now)
    (hrest : QueueDrained worker pulls db₁ newer db') :
    QueueDrained worker (pull :: pulls) db (newer ++ [e]) db' := by
  cases hpoll with
  | idle hnone hsame hempty =>
      rw [hsame] at hrest
      exact hrest.cons_idle hnone hempty
  | claimed first hfirst => exact hrest.cons_claimed hafter hfirst

end Drained

/-- However many workers with the same models and capabilities poll, the polls return
different requests in the order of the queue, the ones that are left come behind them, and
as many polls as there are requests leave none. -/
theorem queue_drained (worker : Worker) : ∀ (pulls : List Pull) (db : Db),
    (∀ pull ∈ pulls, pull.worker.ServesLike worker) →
    (pulls.map Pull.now).Pairwise (· ≤ ·) →
    QueueDrained worker pulls db (runOps db (pulls.map Pull.op)).1
      (runOps db (pulls.map Pull.op)).2 := by
  intro pulls
  induction pulls with
  | nil =>
      intro db _ _
      exact QueueDrained.nil worker db
  | cons pull pulls ih =>
      intro db hserves hsorted
      obtain ⟨hlater, hsorted'⟩ := List.pairwise_cons.mp hsorted
      have hpoll := polled_perform db (hserves pull List.mem_cons_self)
      have hrest := ih (perform db pull.op).2
        (fun later h => hserves later (List.mem_cons_of_mem _ h)) hsorted'
      rw [List.map_cons, runOps_cons]
      exact hrest.cons hpoll fun later hmem => hlater later.now (List.mem_map_of_mem hmem)

/-- Two requests wait. -/
def Sample.twoQueuedDb : Db :=
  (runOps db [.chat (call 100 none 0), .chat (call 200 none 1)]).2

def Sample.twoPulls : List Pull :=
  [⟨worker, 120, 2⟩, ⟨worker, 120, 3⟩]

/-- Two polls return both and leave none. -/
theorem queue_drained_two_pulls :
    (claimedRows (runOps Sample.twoQueuedDb (Sample.twoPulls.map Pull.op)).1).map (·.id) =
        [100, 200] ∧
      ∀ left ∈ (runOps Sample.twoQueuedDb (Sample.twoPulls.map Pull.op)).2.requests.rows,
        left.isClaimable Sample.worker 3 = false := by
  refine ⟨by decide, ?_⟩
  have hserves : ∀ pull ∈ Sample.twoPulls, pull.worker.ServesLike Sample.worker := by
    intro pull hpull
    rcases List.mem_cons.mp hpull with rfl | hpull
    · exact ⟨rfl, rfl⟩
    · cases List.mem_singleton.mp hpull
      exact ⟨rfl, rfl⟩
  exact (queue_drained Sample.worker Sample.twoPulls Sample.twoQueuedDb hserves
    (by decide)).emptied 2 3 (by decide) (by decide) (by decide)

end OrbiGateway
