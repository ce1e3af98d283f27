import OrbiGateway.System.Histories

/-!
# Concurrent claims

`claim_next` as a transaction.  Its `SELECT .. FOR UPDATE SKIP LOCKED` reads the
committed rows, passes over those that another transaction has locked and locks
the first that is left; the assignment is published on commit and forgotten on
rollback.  The other operations commit between the steps of any number of open
claims, but wait for the rows that they write and a claim has locked.
-/

namespace OrbiGateway

open Relational Transition

/-- An open transaction of `claim_next`, with the row it has locked. -/
structure OpenClaim where
  worker : Worker
  leaseSeconds : ℤ
  now : Timestamp
  found : Option OrbiRequest

/-- The committed rows, the open claims and the locks on requests: `holder` for the
locks of open claims, `lockedElsewhere` for those of other transactions. -/
structure ClaimState (τ : Type*) where
  db : Db
  claims : τ → Option OpenClaim
  holder : UUID → Option τ
  lockedElsewhere : UUID → Bool

inductive ClaimEvent (τ : Type*)
  | selected (t : τ) (worker : Worker) (leaseSeconds : ℤ) (now : Timestamp)
      (found : Option OrbiRequest)
  | committed (t : τ) (found : Option OrbiRequest)
  | rolledBack (t : τ)
  | performed (op : Op) (requeued : List UUID)
  | locked (id : UUID)
  | unlocked (id : UUID)
  | rescanned

/-- The event puts the request back in the queue. -/
def ClaimEvent.Requeues {τ : Type*} (id : UUID) : ClaimEvent τ → Prop
  | .performed _ requeued => id ∈ requeued
  | _ => False

/-! ## Other operations -/

namespace Op

/-- The operation writes this request row. -/
def writes (request : OrbiRequest) : Op → Bool
  | .chat _ => false
  | .claim worker _ now => request.isClaimable worker now
  | .submitResult worker payload _ => request.isHeldBy payload.requestId worker.id
  | .submitError worker payload => request.isHeldBy payload.requestId worker.id
  | .recover now =>
      request.isRetryable now || request.isExhausted now || request.isQueueExpired now

/-- The operation puts this request row back in the queue. -/
def requeues (request : OrbiRequest) : Op → Bool
  | .submitError worker payload =>
      request.isHeldBy payload.requestId worker.id && request.mayRetry payload.retryable
  | .recover now =>
      request.isRetryable now && !request.leaseRequeued.isQueueExpired now
  | _ => false

def isClaim : Op → Bool
  | .claim _ _ _ => true
  | _ => false

end Op

/-- The requests that an operation puts back in the queue. -/
def requeuedIds (db : Db) (op : Op) : List UUID :=
  (db.requests.rows.filter fun request => op.requeues request).map OrbiRequest.id

section Operations

variable {db db' : Db} {op : Op} {reply : Reply} {request request' : OrbiRequest}

theorem after_of_not_writes (hother : op.isClaim = false)
    (h : op.writes request = false) : request.after op reply = request := by
  cases op with
  | chat call => rfl
  | claim worker leaseSeconds now => cases hother
  | submitResult worker payload now =>
      have hno : request.isHeldBy payload.requestId worker.id = false := h
      simp [OrbiRequest.after, hno]
  | submitError worker payload =>
      have hno : request.isHeldBy payload.requestId worker.id = false := h
      simp [OrbiRequest.after, hno]
  | recover now =>
      simp only [Op.writes, Bool.or_eq_false_iff] at h
      simp [OrbiRequest.after, h.1.1, h.1.2, h.2]

theorem mem_of_not_writes (hexec : exec db op = .ok (reply, db'))
    (hother : op.isClaim = false) (hmem : request ∈ db.requests.rows)
    (h : op.writes request = false) : request ∈ db'.requests.rows := by
  rw [exec_requests hexec, List.mem_append, List.mem_map]
  exact Or.inl ⟨request, hmem, after_of_not_writes hother h⟩

/-- Only a requeue brings a row back into the queue. -/
theorem RowStep.requeues_or_kept (h : RowStep request op reply request')
    (hother : op.isClaim = false) (hstatus : request.status ≠ .queued) :
    op.requeues request = true ∨ request'.status ≠ .queued := by
  cases h with
  | kept hno => exact Or.inr hstatus
  | claimed hclaimable => cases hother
  | completed hheld => exact Or.inr (by simp [OrbiRequest.completed])
  | errorRequeued hheld hretry => exact Or.inl (by simp [Op.requeues, hheld, hretry])
  | errorFailed hheld hfinal => exact Or.inr (by simp [OrbiRequest.failed])
  | leaseRequeued hretry hqueue => exact Or.inl (by simp [Op.requeues, hretry, hqueue])
  | leaseExpired hretry hqueue => exact Or.inr (by simp [OrbiRequest.queueExpired])
  | leaseFailed hexhausted => exact Or.inr (by simp [OrbiRequest.leaseFailed])
  | queueExpired hqueue => exact Or.inr (by simp [OrbiRequest.queueExpired])

theorem RowStep.unassigned (h : RowStep request op reply request')
    (hqueued : request.status = .queued → request.assignedTo = none)
    (hstatus : request'.status = .queued) : request'.assignedTo = none := by
  cases h with
  | kept hno => exact hqueued hstatus
  | claimed hclaimable => cases hstatus
  | completed hheld => cases hstatus
  | errorRequeued hheld hretry => rfl
  | errorFailed hheld hfinal => rfl
  | leaseRequeued hretry hqueue => rfl
  | leaseExpired hretry hqueue => rfl
  | leaseFailed hexhausted => rfl
  | queueExpired hqueue => cases hstatus

end Operations

/-! ## Publishing an assignment -/

/-- The database with the assignment of the claim. -/
def OpenClaim.publish (c : OpenClaim) (db : Db) : Db :=
  match c.found with
  | none => db
  | some request =>
      { db with requests :=
          db.requests.put (request.claimed c.worker c.leaseSeconds c.now) }

/-- The request is known and not in the queue. -/
def OutOfQueue (db : Db) (id : UUID) : Prop :=
  ∃ request ∈ db.requests.rows, request.id = id ∧ request.status ≠ .queued

/-- Every request in the queue is unassigned. -/
def QueuedUnassigned (db : Db) : Prop :=
  ∀ request ∈ db.requests.rows, request.status = .queued → request.assignedTo = none

section Publishing

variable {db : Db} {c : OpenClaim} {id : UUID}

theorem mem_publish {request' : OrbiRequest}
    (h : request' ∈ (c.publish db).requests.rows) :
    request' ∈ db.requests.rows ∨ request'.status = .assigned := by
  unfold OpenClaim.publish at h
  split at h
  · exact Or.inl h
  next found hfound =>
    simp only [Table.rows_put, List.mem_map] at h
    obtain ⟨request, hmem, rfl⟩ := h
    split
    · exact Or.inr rfl
    · exact Or.inl hmem

theorem mem_publish_of_ne {request : OrbiRequest} (hmem : request ∈ db.requests.rows)
    (hne : ∀ found, c.found = some found → found.id ≠ request.id) :
    request ∈ (c.publish db).requests.rows := by
  unfold OpenClaim.publish
  split
  · exact hmem
  next found hfound =>
    simp only [Table.rows_put, List.mem_map]
    refine ⟨request, hmem, ?_⟩
    rw [if_neg]
    exact Ne.symm (hne found hfound)

theorem OutOfQueue.publish (h : OutOfQueue db id) : OutOfQueue (c.publish db) id := by
  obtain ⟨request, hmem, hid, hstatus⟩ := h
  unfold OpenClaim.publish
  split
  · exact ⟨request, hmem, hid, hstatus⟩
  next found hfound =>
    simp only [OutOfQueue, Table.rows_put, List.mem_map]
    refine ⟨_, ⟨request, hmem, rfl⟩, ?_⟩
    split
    next hkey =>
      refine ⟨hkey.symm.trans hid, ?_⟩
      simp [OrbiRequest.claimed]
    · exact ⟨hid, hstatus⟩

theorem outOfQueue_publish {found : OrbiRequest} (hfound : c.found = some found)
    (hmem : found ∈ db.requests.rows) : OutOfQueue (c.publish db) found.id := by
  simp only [OutOfQueue, OpenClaim.publish, hfound, Table.rows_put, List.mem_map]
  refine ⟨_, ⟨found, hmem, rfl⟩, ?_⟩
  simp [OrbiRequest.claimed]

end Publishing


theorem status_of_isClaimable {request : OrbiRequest} {worker : Worker}
    {now : Timestamp} (h : request.isClaimable worker now = true) :
    request.status = .queued := by
  simp only [OrbiRequest.isClaimable, Bool.and_eq_true, beq_iff_eq] at h
  exact h.1.1.1

/-! ## Steps -/

section Steps

variable {τ : Type*}

namespace ClaimState

/-- No claim is open and no request is locked. -/
def start (db : Db) : ClaimState τ where
  db := db
  claims _ := none
  holder _ := none
  lockedElsewhere _ := false

def isLocked (s : ClaimState τ) (id : UUID) : Bool :=
  (s.holder id).isSome || s.lockedElsewhere id

/-- What the selection of a claim finds now. -/
def find (s : ClaimState τ) (worker : Worker) (now : Timestamp) : Option OrbiRequest :=
  QueueService.selectClaimable s.db worker now s.isLocked

/-- The open claim `t` of `c` has locked `request`. -/
structure Holds (s : ClaimState τ) (t : τ) (c : OpenClaim) (request : OrbiRequest) :
    Prop where
  open_eq : s.claims t = some c
  found_eq : c.found = some request

/-- The lock of an open claim is its own, and the committed version of the row is
still the one that it selected. -/
structure LocksHeld (s : ClaimState τ) : Prop where
  holder_eq : ∀ t c request, s.Holds t c request → s.holder request.id = some t
  holds_of_holder : ∀ id t, s.holder id = some t →
    ∃ c request, s.Holds t c request ∧ request.id = id
  mem : ∀ t c request, s.Holds t c request → request ∈ s.db.requests.rows
  claimable : ∀ t c request, s.Holds t c request →
    request.isClaimable c.worker c.now = true
  not_elsewhere : ∀ t c request, s.Holds t c request →
    s.lockedElsewhere request.id = false

theorem isLocked_eq_false_iff {s : ClaimState τ} {id : UUID} :
    s.isLocked id = false ↔ s.holder id = none ∧ s.lockedElsewhere id = false := by
  simp [isLocked]

/-- A claim that is alone is `claim_next` on the rows that nobody has locked. -/
theorem publish_find_eq_claimNext (s : ClaimState τ) (worker : Worker)
    (leaseSeconds : ℤ) (now : Timestamp) :
    OpenClaim.publish ⟨worker, leaseSeconds, now, s.find worker now⟩ s.db =
      (QueueService.claimNext s.db worker leaseSeconds now s.isLocked).2 := by
  simp only [OpenClaim.publish, find, QueueService.claimNext]
  cases QueueService.selectClaimable s.db worker now s.isLocked with
  | none => rfl
  | some request => rfl

/-- A step that leaves the claims and their locks alone keeps what is said of them,
if it keeps the rows that they have locked. -/
theorem LocksHeld.of_same {s s' : ClaimState τ} (h : s.LocksHeld)
    (hclaims : s'.claims = s.claims) (hholder : s'.holder = s.holder)
    (hmem : ∀ t c request, s.Holds t c request → request ∈ s'.db.requests.rows)
    (helse : ∀ t c request, s.Holds t c request →
      s'.lockedElsewhere request.id = false) : s'.LocksHeld := by
  have hback : ∀ {t : τ} {c : OpenClaim} {request : OrbiRequest},
      s'.Holds t c request → s.Holds t c request := by
    rintro t c request ⟨hopen, hfound⟩
    exact ⟨hclaims ▸ hopen, hfound⟩
  refine ⟨?_, ?_, ?_, ?_, ?_⟩
  · intro t c request hold
    rw [hholder]
    exact h.holder_eq t c request (hback hold)
  · intro id t hlocked
    rw [hholder] at hlocked
    obtain ⟨c, request, ⟨hopen, hfound⟩, hid⟩ := h.holds_of_holder id t hlocked
    exact ⟨c, request, ⟨hclaims ▸ hopen, hfound⟩, hid⟩
  · intro t c request hold
    exact hmem t c request (hback hold)
  · intro t c request hold
    exact h.claimable t c request (hback hold)
  · intro t c request hold
    exact helse t c request (hback hold)

theorem LocksHeld.unique {s : ClaimState τ} {t u : τ} {c c' : OpenClaim}
    {request request' : OrbiRequest} (h : s.LocksHeld) (hold : s.Holds t c request)
    (hold' : s.Holds u c' request') (hid : request.id = request'.id) : t = u := by
  have hholder := h.holder_eq t c request hold
  rw [hid, h.holder_eq u c' request' hold', Option.some.injEq] at hholder
  exact hholder.symm

end ClaimState

variable [DecidableEq τ]

namespace ClaimState

/-- Transaction `t` selects and locks a request. -/
def select (s : ClaimState τ) (t : τ) (worker : Worker) (leaseSeconds : ℤ)
    (now : Timestamp) : ClaimState τ :=
  let found := s.find worker now
  { s with
    claims := Function.update s.claims t (some ⟨worker, leaseSeconds, now, found⟩)
    holder := fun id =>
      if found.any fun request => request.id = id then some t else s.holder id }

/-- Transaction `t` ends and gives up its lock. -/
def close (s : ClaimState τ) (t : τ) : ClaimState τ :=
  { s with
    claims := Function.update s.claims t none
    holder := fun id => if s.holder id = some t then none else s.holder id }

end ClaimState

/-- One step of a claim, or of another transaction. -/
inductive ClaimStep : ClaimState τ → ClaimEvent τ → ClaimState τ → Prop
  | selected {s : ClaimState τ} {t : τ} {worker : Worker} {leaseSeconds : ℤ}
      {now : Timestamp} (hidle : s.claims t = none) :
      ClaimStep s (.selected t worker leaseSeconds now (s.find worker now))
        (s.select t worker leaseSeconds now)
  | committed {s : ClaimState τ} {t : τ} {c : OpenClaim}
      (hopen : s.claims t = some c) :
      ClaimStep s (.committed t c.found) { s.close t with db := c.publish s.db }
  | rolledBack {s : ClaimState τ} {t : τ} {c : OpenClaim}
      (hopen : s.claims t = some c) :
      ClaimStep s (.rolledBack t) (s.close t)
  | performed {s : ClaimState τ} {op : Op} {reply : Reply} {db : Db}
      (hother : op.isClaim = false)
      (hfree : ∀ request ∈ s.db.requests.rows, op.writes request = true →
        s.holder request.id = none)
      (hexec : exec s.db op = .ok (reply, db)) :
      ClaimStep s (.performed op (requeuedIds s.db op)) { s with db := db }
  | locked {s : ClaimState τ} {id : UUID} (hfree : s.holder id = none) :
      ClaimStep s (.locked id)
        { s with lockedElsewhere := Function.update s.lockedElsewhere id true }
  | unlocked {s : ClaimState τ} {id : UUID} :
      ClaimStep s (.unlocked id)
        { s with lockedElsewhere := Function.update s.lockedElsewhere id false }
  | rescanned {s : ClaimState τ} {requests : Table OrbiRequest}
      (hperm : requests.rows.Perm s.db.requests.rows) :
      ClaimStep s .rescanned { s with db := { s.db with requests := requests } }

/-- A run of claims and other transactions, interleaved in any way. -/
abbrev ClaimRun (db : Db) (history : List (ClaimEvent τ)) (s : ClaimState τ) : Prop :=
  Run ClaimStep (.start db) history s

/-! ## The locks of open claims -/

section Selection

variable {s : ClaimState τ} {t : τ} {worker : Worker} {leaseSeconds : ℤ}
  {now : Timestamp}

theorem holds_select {u : τ} {c : OpenClaim} {request : OrbiRequest}
    (h : (s.select t worker leaseSeconds now).Holds u c request) :
    (u = t ∧ c = ⟨worker, leaseSeconds, now, some request⟩ ∧
      s.find worker now = some request) ∨ (u ≠ t ∧ s.Holds u c request) := by
  have hopen := h.open_eq
  have hfound := h.found_eq
  by_cases hut : u = t
  · subst hut
    simp only [ClaimState.select, Function.update_self, Option.some.injEq] at hopen
    subst hopen
    have hfind : s.find worker now = some request := hfound
    exact Or.inl ⟨rfl, by rw [hfind], hfind⟩
  · simp only [ClaimState.select, Function.update_of_ne hut] at hopen
    exact Or.inr ⟨hut, hopen, hfound⟩

theorem holder_select_of_found {request : OrbiRequest}
    (h : s.find worker now = some request) (id : UUID) :
    (s.select t worker leaseSeconds now).holder id =
      if request.id = id then some t else s.holder id := by
  simp [ClaimState.select, h]

theorem holder_select_of_none (h : s.find worker now = none) (id : UUID) :
    (s.select t worker leaseSeconds now).holder id = s.holder id := by
  simp [ClaimState.select, h]

theorem ClaimState.LocksHeld.select (h : s.LocksHeld) (hidle : s.claims t = none) :
    (s.select t worker leaseSeconds now).LocksHeld := by
  have hkeep : ∀ {u : τ} {c : OpenClaim} {request : OrbiRequest},
      s.Holds u c request → (s.select t worker leaseSeconds now).Holds u c request := by
    intro u c request hold
    have hut : u ≠ t := by
      rintro rfl
      have hopen := hold.open_eq
      rw [hidle] at hopen
      cases hopen
    refine ⟨?_, hold.found_eq⟩
    simp only [ClaimState.select, Function.update_of_ne hut]
    exact hold.open_eq
  refine ⟨?_, ?_, ?_, ?_, ?_⟩
  · intro u c request hnew
    rcases holds_select hnew with ⟨rfl, -, hfind⟩ | ⟨-, hold⟩
    · rw [holder_select_of_found hfind, if_pos rfl]
    · have hholder := h.holder_eq u c request hold
      cases hfind : s.find worker now with
      | none => rw [holder_select_of_none hfind, hholder]
      | some found =>
          obtain ⟨-, -, hfree, -⟩ := QueueService.selectClaimable_spec hfind
          have hne : found.id ≠ request.id := by
            intro hid
            rw [hid, ClaimState.isLocked_eq_false_iff, hholder] at hfree
            cases hfree.1
          rw [holder_select_of_found hfind, if_neg hne, hholder]
  · intro id u hholder
    cases hfind : s.find worker now with
    | none =>
        rw [holder_select_of_none hfind] at hholder
        obtain ⟨c, request, hold, hid⟩ := h.holds_of_holder id u hholder
        exact ⟨c, request, hkeep hold, hid⟩
    | some found =>
        rw [holder_select_of_found hfind] at hholder
        by_cases hid : found.id = id
        · rw [if_pos hid] at hholder
          cases hholder
          refine ⟨⟨worker, leaseSeconds, now, some found⟩, found, ⟨?_, rfl⟩, hid⟩
          simp only [ClaimState.select, Function.update_self, hfind]
        · rw [if_neg hid] at hholder
          obtain ⟨c, request, hold, hid'⟩ := h.holds_of_holder id u hholder
          exact ⟨c, request, hkeep hold, hid'⟩
  · intro u c request hnew
    rcases holds_select hnew with ⟨-, -, hfind⟩ | ⟨-, hold⟩
    · exact (QueueService.selectClaimable_spec hfind).1
    · exact h.mem u c request hold
  · intro u c request hnew
    rcases holds_select hnew with ⟨-, rfl, hfind⟩ | ⟨-, hold⟩
    · exact (QueueService.selectClaimable_spec hfind).2.1
    · exact h.claimable u c request hold
  · intro u c request hnew
    rcases holds_select hnew with ⟨-, -, hfind⟩ | ⟨-, hold⟩
    · exact (ClaimState.isLocked_eq_false_iff.mp (QueueService.selectClaimable_spec hfind).2.2.1).2
    · exact h.not_elsewhere u c request hold

end Selection

section Closing

variable {s : ClaimState τ} {t u : τ} {c : OpenClaim} {request : OrbiRequest}

theorem holds_close_iff : (s.close t).Holds u c request ↔ u ≠ t ∧ s.Holds u c request := by
  constructor
  · rintro ⟨hopen, hfound⟩
    have hut : u ≠ t := by
      rintro rfl
      simp [ClaimState.close] at hopen
    simp only [ClaimState.close, Function.update_of_ne hut] at hopen
    exact ⟨hut, hopen, hfound⟩
  · rintro ⟨hut, hopen, hfound⟩
    refine ⟨?_, hfound⟩
    simp only [ClaimState.close, Function.update_of_ne hut]
    exact hopen

theorem ClaimState.LocksHeld.close (h : s.LocksHeld) (t : τ) : (s.close t).LocksHeld := by
  refine ⟨?_, ?_, ?_, ?_, ?_⟩
  · intro u c request hnew
    obtain ⟨hut, hold⟩ := holds_close_iff.mp hnew
    have hholder := h.holder_eq u c request hold
    simp [ClaimState.close, hholder, hut]
  · intro id u hholder
    have hboth : s.holder id ≠ some t ∧ s.holder id = some u := by
      simpa [ClaimState.close] using hholder
    obtain ⟨hne, hmine⟩ := hboth
    have hut : u ≠ t := by
      rintro rfl
      exact hne hmine
    obtain ⟨c, request, hold, hid⟩ := h.holds_of_holder id u hmine
    exact ⟨c, request, holds_close_iff.mpr ⟨hut, hold⟩, hid⟩
  · intro u c request hnew
    exact h.mem u c request (holds_close_iff.mp hnew).2
  · intro u c request hnew
    exact h.claimable u c request (holds_close_iff.mp hnew).2
  · intro u c request hnew
    exact h.not_elsewhere u c request (holds_close_iff.mp hnew).2

end Closing

/-! ## Steps and runs -/

section Invariants

variable {s s' : ClaimState τ} {e : ClaimEvent τ} {db : Db}
  {history : List (ClaimEvent τ)}

theorem ClaimState.LocksHeld.committed {t : τ} {c : OpenClaim} (h : s.LocksHeld)
    (hopen : s.claims t = some c) :
    ({ s.close t with db := c.publish s.db } : ClaimState τ).LocksHeld := by
  refine (h.close t).of_same rfl rfl ?_ (h.close t).not_elsewhere
  intro u c' request hnew
  obtain ⟨hut, hold⟩ := holds_close_iff.mp hnew
  apply mem_publish_of_ne (h.mem u c' request hold)
  intro found hfound hid
  exact hut (h.unique ⟨hopen, hfound⟩ hold hid).symm

theorem ClaimState.LocksHeld.step (h : s.LocksHeld) (hstep : ClaimStep s e s') :
    s'.LocksHeld := by
  cases hstep with
  | selected hidle => exact h.select hidle
  | committed hopen => exact h.committed hopen
  | rolledBack hopen => exact h.close _
  | performed hother hfree hexec =>
      refine h.of_same rfl rfl ?_ h.not_elsewhere
      intro t c request hold
      have hmem := h.mem t c request hold
      apply mem_of_not_writes hexec hother hmem
      by_contra hwrites
      have hholder := hfree request hmem (by simpa using hwrites)
      rw [h.holder_eq t c request hold] at hholder
      cases hholder
  | @locked id hfree =>
      refine h.of_same rfl rfl h.mem ?_
      intro t c request hold
      have hne : request.id ≠ id := by
        intro hid
        have hholder := h.holder_eq t c request hold
        rw [hid, hfree] at hholder
        cases hholder
      simp only [Function.update_of_ne hne]
      exact h.not_elsewhere t c request hold
  | @unlocked id =>
      refine h.of_same rfl rfl h.mem ?_
      intro t c request hold
      by_cases hid : request.id = id
      · simp [hid]
      · simp only [Function.update_of_ne hid]
        exact h.not_elsewhere t c request hold
  | rescanned hperm =>
      refine h.of_same rfl rfl ?_ h.not_elsewhere
      intro t c request hold
      exact hperm.mem_iff.mpr (h.mem t c request hold)

theorem locksHeld_of_run (hrun : ClaimRun db history s) : s.LocksHeld := by
  apply Run.invariant (I := fun s => s.LocksHeld) hrun
  · refine ⟨?_, ?_, ?_, ?_, ?_⟩
    · intro t c request hold
      cases hold.open_eq
    · intro id t hholder
      cases hholder
    · intro t c request hold
      cases hold.open_eq
    · intro t c request hold
      cases hold.open_eq
    · intro t c request hold
      cases hold.open_eq
  · intro s e s' h hstep
    exact h.step hstep

/-! ## Between two claims -/

theorem ClaimStep.of_selected {t : τ} {worker : Worker} {leaseSeconds : ℤ}
    {now : Timestamp} {found : Option OrbiRequest}
    (h : ClaimStep s (.selected t worker leaseSeconds now found) s') :
    s.claims t = none ∧ s.find worker now = found := by
  cases h with
  | selected hidle => exact ⟨hidle, rfl⟩

theorem ClaimStep.of_committed {t : τ} {found : Option OrbiRequest}
    (h : ClaimStep s (.committed t found) s') :
    ∃ c, s.claims t = some c ∧ c.found = found ∧
      s' = { s.close t with db := c.publish s.db } := by
  cases h with
  | committed hopen => exact ⟨_, hopen, rfl, rfl⟩

theorem OutOfQueue.step {id : UUID} (h : OutOfQueue s.db id) (hstep : ClaimStep s e s') :
    e.Requeues id ∨ OutOfQueue s'.db id := by
  cases hstep with
  | selected hidle => exact Or.inr h
  | committed hopen => exact Or.inr h.publish
  | rolledBack hopen => exact Or.inr h
  | @performed op reply db hother hfree hexec =>
      obtain ⟨request, hmem, hid, hstatus⟩ := h
      have hrow := exec_rowStep hexec hmem
      rcases hrow.requeues_or_kept hother hstatus with hrequeues | hkept
      · left
        have hrequeued : request.id ∈ requeuedIds s.db op :=
          List.mem_map_of_mem (List.mem_filter.mpr ⟨hmem, hrequeues⟩)
        rw [hid] at hrequeued
        exact hrequeued
      · right
        refine ⟨request.after op reply, ?_, hrow.fixed.1.trans hid, hkept⟩
        rw [exec_requests hexec]
        exact List.mem_append_left _ (List.mem_map_of_mem hmem)
  | locked hfree => exact Or.inr h
  | unlocked => exact Or.inr h
  | rescanned hperm =>
      obtain ⟨request, hmem, hid, hstatus⟩ := h
      exact Or.inr ⟨request, hperm.mem_iff.mpr hmem, hid, hstatus⟩

/-- A request that a committed claim has assigned must be put back in the queue
before another claim commits it. -/
theorem requeue_between_commits {newer between older : List (ClaimEvent τ)} {t u : τ}
    {request request' : OrbiRequest}
    (hrun : ClaimRun db (newer ++ .committed u (some request') ::
      (between ++ .committed t (some request) :: older)) s)
    (hid : request.id = request'.id) : ∃ e ∈ between, e.Requeues request.id := by
  obtain ⟨second, hsecond, -⟩ := Run.split hrun
  obtain ⟨before, hbefore, hlast⟩ := Run.of_cons hsecond
  obtain ⟨first, hfirst, hbetween⟩ := Run.split hbefore
  obtain ⟨opened, hopened, hcommit⟩ := Run.of_cons hfirst
  obtain ⟨c, hopen, hfound, rfl⟩ := hcommit.of_committed
  obtain ⟨c', hopen', hfound', -⟩ := hlast.of_committed
  have hmem := (locksHeld_of_run hopened).mem t c request ⟨hopen, hfound⟩
  have hassigned : OutOfQueue (c.publish opened.db) request.id :=
    outOfQueue_publish hfound hmem
  rcases Run.kept_or_mem (P := fun s => OutOfQueue s.db request.id) hbetween hassigned
    (fun s e s' h hstep => h.step hstep) with hrequeue | hout
  · exact hrequeue
  · obtain ⟨row, hrow, hrowId, hstatus⟩ := hout
    have hlocks := locksHeld_of_run hbefore
    have hmem' := hlocks.mem u c' request' ⟨hopen', hfound'⟩
    have heq : row = request' :=
      before.db.requests.eq_of_key_eq hrow hmem' (hrowId.trans hid)
    have hclaimable := hlocks.claimable u c' request' ⟨hopen', hfound'⟩
    rw [heq] at hstatus
    exact absurd (status_of_isClaimable hclaimable) hstatus

theorem QueuedUnassigned.step (h : QueuedUnassigned s.db) (hstep : ClaimStep s e s') :
    QueuedUnassigned s'.db := by
  cases hstep with
  | selected hidle => exact h
  | committed hopen =>
      intro request' hmem hstatus
      rcases mem_publish hmem with hbefore | hassigned
      · exact h request' hbefore hstatus
      · rw [hassigned] at hstatus
        cases hstatus
  | rolledBack hopen => exact h
  | @performed op reply db hother hfree hexec =>
      intro request' hmem hstatus
      rw [exec_requests hexec, List.mem_append, List.mem_map] at hmem
      rcases hmem with ⟨request, hmem, rfl⟩ | hnew
      · exact (exec_rowStep hexec hmem).unassigned (h request hmem) hstatus
      · obtain ⟨call, project, project', -, -, hrecord, -⟩ := exec_newRow hexec hnew
        exact hrecord.assignedTo
  | locked hfree => exact h
  | unlocked => exact h
  | rescanned hperm =>
      intro request hmem hstatus
      exact h request (hperm.mem_iff.mp hmem) hstatus

theorem queuedUnassigned_of_run (hrun : ClaimRun db history s)
    (hstart : QueuedUnassigned db) : QueuedUnassigned s.db :=
  Run.invariant (I := fun s => QueuedUnassigned s.db) hrun hstart
    fun _ _ _ h hstep => h.step hstep

end Invariants

/-! ## The guarantees -/

/-- The row precedes the other in the order of the queue. -/
def OrbiRequest.Precedes (request other : OrbiRequest) : Prop :=
  request.priority < other.priority ∨
    request.priority = other.priority ∧ request.createdAt < other.createdAt

theorem OrbiRequest.not_precedes_of_le {request other : OrbiRequest}
    (h : request.claimOrder ≤ other.claimOrder) : ¬other.Precedes request := by
  rcases claimOrder_le_iff.mp h with hlt | ⟨heq, hle⟩
  · rintro (hno | ⟨hno, -⟩) <;> omega
  · rintro (hno | ⟨-, hno⟩)
    · omega
    · exact not_lt_of_ge hle hno

/-- What the claims of a run guarantee in its last state. -/
structure ClaimGuarantees (db : Db) (history : List (ClaimEvent τ)) (s : ClaimState τ) :
    Prop where
  /-- No request is held by two open claims. -/
  exclusive : ∀ t u c c' request request', s.Holds t c request →
    s.Holds u c' request' → request.id = request'.id → t = u
  /-- Between two committed claims of one request it was put back in the queue. -/
  requeued : ∀ newer between older t u request request',
    history = newer ++ .committed u (some request') ::
      (between ++ .committed t (some request) :: older) →
    request.id = request'.id → ∃ e ∈ between, e.Requeues request.id
  /-- A claim finds nothing only if every eligible request is locked by another open
  transaction. -/
  locked_of_none : ∀ t worker leaseSeconds now s',
    ClaimStep s (.selected t worker leaseSeconds now none) s' →
    ∀ request ∈ s.db.requests.rows, request.isClaimable worker now = true →
      (∃ u c held, u ≠ t ∧ s.Holds u c held ∧ held.id = request.id) ∨
        s.lockedElsewhere request.id = true
  /-- What a claim finds is eligible, and no eligible unlocked request precedes it. -/
  first : ∀ t worker leaseSeconds now request s',
    ClaimStep s (.selected t worker leaseSeconds now (some request)) s' →
      request ∈ s.db.requests.rows ∧ s.isLocked request.id = false ∧
      request.status = .queued ∧ request.expiresAt > now ∧
      request.requiredCapabilities.containedIn worker.capabilities = true ∧
      (request.resolvedModel ∈ worker.supportedModels ∨
        request.modelAlias ∈ worker.supportedModels) ∧
      ∀ other ∈ s.db.requests.rows, other.isClaimable worker now = true →
        s.isLocked other.id = false → ¬other.Precedes request
  /-- While a claim is open, the row it found is the committed one and eligible. -/
  kept : ∀ t c request, s.Holds t c request →
    request ∈ s.db.requests.rows ∧ request.isClaimable c.worker c.now = true
  /-- A commit assigns that row to the worker of the claim. -/
  assigned : ∀ t c request s', ClaimStep s (.committed t (some request)) s' →
    s.claims t = some c →
      request.claimed c.worker c.leaseSeconds c.now ∈ s'.db.requests.rows
  /-- A rollback leaves that row claimable, unlocked and unassigned. -/
  restored : ∀ t s', ClaimStep s (.rolledBack t) s' → s'.db = s.db ∧
    ∀ c request, s.Holds t c request →
      request.isClaimable c.worker c.now = true ∧ request ∈ s'.db.requests.rows ∧
      s'.isLocked request.id = false ∧
      (QueuedUnassigned db → request.assignedTo = none)

/-- Concurrent claims are exclusive and in order, in every state of every run. -/
theorem concurrent_claims {db : Db} {history : List (ClaimEvent τ)} {s : ClaimState τ}
    (hrun : ClaimRun db history s) : ClaimGuarantees db history s := by
  have hlocks := locksHeld_of_run hrun
  refine ⟨?_, ?_, ?_, ?_, ?_, ?_, ?_⟩
  · intro t u c c' request request' hold hold' hid
    exact hlocks.unique hold hold' hid
  · intro newer between older t u request request' hhistory hid
    rw [hhistory] at hrun
    exact requeue_between_commits hrun hid
  · intro t worker leaseSeconds now s' hstep request hmem hclaimable
    obtain ⟨hidle, hfind⟩ := hstep.of_selected
    have hlocked := QueueService.selectClaimable_none hfind request hmem hclaimable
    rw [ClaimState.isLocked, Bool.or_eq_true, Option.isSome_iff_exists] at hlocked
    rcases hlocked with ⟨u, hholder⟩ | helse
    · obtain ⟨c, held, hold, hid⟩ := hlocks.holds_of_holder request.id u hholder
      have hut : u ≠ t := by
        rintro rfl
        have hopen := hold.open_eq
        rw [hidle] at hopen
        cases hopen
      exact Or.inl ⟨u, c, held, hut, hold, hid⟩
    · exact Or.inr helse
  · intro t worker leaseSeconds now request s' hstep
    obtain ⟨-, hfind⟩ := hstep.of_selected
    obtain ⟨hmem, hclaimable, hfree, hfirst⟩ := QueueService.selectClaimable_spec hfind
    simp only [OrbiRequest.isClaimable, Bool.and_eq_true, Bool.or_eq_true, beq_iff_eq,
      decide_eq_true_eq, List.contains_iff_mem] at hclaimable
    obtain ⟨⟨⟨hstatus, hexpires⟩, hcapabilities⟩, hmodels⟩ := hclaimable
    refine ⟨hmem, hfree, hstatus, hexpires, hcapabilities, hmodels, ?_⟩
    intro other hother hclaimable' hfree'
    exact OrbiRequest.not_precedes_of_le (hfirst other hother hclaimable' hfree')
  · intro t c request hold
    exact ⟨hlocks.mem t c request hold, hlocks.claimable t c request hold⟩
  · intro t c request s' hstep hopen
    obtain ⟨c', hopen', hfound, rfl⟩ := hstep.of_committed
    rw [hopen, Option.some.injEq] at hopen'
    subst hopen'
    have hmem := hlocks.mem t c request ⟨hopen, hfound⟩
    simp only [OpenClaim.publish, hfound, Table.rows_put, List.mem_map]
    refine ⟨request, hmem, ?_⟩
    rw [if_pos]
    rfl
  · intro t s' hstep
    cases hstep with
    | rolledBack hopen =>
        refine ⟨rfl, ?_⟩
        intro c request hold
        have hmem := hlocks.mem t c request hold
        have hclaimable := hlocks.claimable t c request hold
        refine ⟨hclaimable, hmem, ?_, ?_⟩
        · rw [ClaimState.isLocked_eq_false_iff]
          have hholder := hlocks.holder_eq t c request hold
          exact ⟨by simp [ClaimState.close, hholder], hlocks.not_elsewhere t c request hold⟩
        · intro hstart
          exact queuedUnassigned_of_run hrun hstart request hmem
            (status_of_isClaimable hclaimable)

end Steps

/-! ## Two rival claims -/

namespace Sample

/-- Two queued requests. -/
def queuedDb : Db := (runOps db [.chat (call 100 none 0), .chat (call 101 none 1)]).2

def opened : ClaimState ℕ := .start queuedDb

/-- The first claim has the older request, the second the other one. -/
def rivals : ClaimState ℕ :=
  (opened.select 1 worker 120 2).select 2 worker 120 3

/-- The first claim. -/
def firstClaim : OpenClaim := (rivals.claims 1).get (by decide)

/-- The first claim has committed and the second has rolled back. -/
def settled : ClaimState ℕ :=
  ({ rivals.close 1 with db := firstClaim.publish rivals.db } : ClaimState ℕ).close 2

/-- The events that lead there, newest first. -/
def rivalry : List (ClaimEvent ℕ) :=
  [.rolledBack 2, .committed 1 firstClaim.found,
    .selected 2 worker 120 3 ((opened.select 1 worker 120 2).find worker 3),
    .selected 1 worker 120 2 (opened.find worker 2)]

theorem run_rivalry : ClaimRun queuedDb rivalry settled := by
  have hfirst : ClaimRun queuedDb _ (opened.select 1 worker 120 2) :=
    Run.start.next (.selected rfl)
  have hboth : ClaimRun queuedDb _ rivals := hfirst.next (.selected rfl)
  have hopen : rivals.claims 1 = some firstClaim := (Option.some_get _).symm
  have hcommit := hboth.next (.committed hopen)
  exact hcommit.next (.rolledBack (t := 2) rfl)

end Sample

/-- The two claims found different requests, and the second request can be claimed
again. -/
theorem concurrent_claims_rivalry :
    Sample.firstClaim.found.map (·.id) = some 100 ∧
      (Sample.rivals.holder 101).isSome ∧
      (Sample.settled.find Sample.worker 4).map (·.id) = some 101 ∧
      ClaimGuarantees Sample.queuedDb Sample.rivalry Sample.settled :=
  ⟨by decide, by decide, by decide, concurrent_claims Sample.run_rivalry⟩

end OrbiGateway
