import OrbiGateway.Library.LockWaits
import OrbiGateway.System.Histories

/-!
# Row locks and deadlocks

The row locks of the four blocking transactions, in the order in which the code
takes them.  A chat call goes from the API key to the project, a result from the
project to the API key, and a recovery takes its requests and its projects in scan
order; these are the only ways into a deadlock.
-/

namespace OrbiGateway

open Relational Relation Transition LockWaits

inductive RowLock
  | request (id : UUID)
  | project (id : UUID)
  | apiKey (id : UUID)
  deriving DecidableEq

/-- A transaction with the rows that decide which locks it takes. -/
inductive Transaction
  | chat (apiKey : APIKey)
  | commitResult (request : OrbiRequest)
  | recordError (request : OrbiRequest) (final : Bool)
  | recover (retryable terminal expired : List OrbiRequest)

namespace Transaction

/-- The row locks, first to last. -/
def rowLocks : Transaction → List RowLock
  -- `require_api_key`, then `reserve`
  | .chat apiKey => [.apiKey apiKey.id, .project apiKey.projectId]
  -- the guarded `UPDATE`, then `reconcile`, then the `UPDATE` of the key totals
  | .commitResult request =>
      [.request request.id, .project request.projectId, .apiKey request.apiKeyId]
  -- the guarded `SELECT`, then `release` on a final failure
  | .recordError request final =>
      if final then [.request request.id, .project request.projectId]
      else [.request request.id]
  -- the three `UPDATE`s, then `release` for each row of the last two
  | .recover retryable terminal expired =>
      (retryable ++ terminal ++ expired).map (fun row => .request row.id) ++
        (terminal ++ expired).map fun row => .project row.projectId

/-- The transaction of an operation on a committed state.  A claim skips locked
rows and never waits; a submission that finds no row locks none. -/
def ofOp (db : Db) : Op → Option Transaction
  | .chat call => (findActiveKey db call.key.keyId).map .chat
  | .claim _ _ _ => none
  | .submitResult worker payload _ =>
      (db.requests.rows.find? fun request =>
        request.isHeldBy payload.requestId worker.id).map .commitResult
  | .submitError worker payload =>
      (db.requests.rows.find? fun request =>
        request.isHeldBy payload.requestId worker.id).map fun request =>
          .recordError request !request.mayRetry payload.retryable
  | .recover now =>
      some (.recover (db.requests.rows.filter fun request => request.isRetryable now)
        (db.requests.rows.filter fun request => request.isExhausted now)
        (db.requests.rows.filter fun request => request.expiresInRecovery now))

end Transaction

variable {τ : Type*}

/-- Transactions in progress, each with the locks it has taken. -/
abbrev LockState (τ : Type*) := LockWaits.State τ Transaction

abbrev LockEvent (τ : Type*) := LockWaits.Event τ Transaction

/-- One lock step of the gateway. -/
abbrev LockStep [DecidableEq τ] (s : LockState τ) (e : LockEvent τ)
    (s' : LockState τ) : Prop :=
  LockWaits.Step Transaction.rowLocks s e s'

abbrev RowDeadlock (s : LockState τ) : Prop := Deadlock Transaction.rowLocks s

/-- No interleaving of transactions of operations on `db` reaches a deadlock. -/
def LockOrderSafe (db : Db) : Prop :=
  ∀ (τ : Type) [DecidableEq τ] (history : List (LockEvent τ)) (s : LockState τ),
    Run LockStep idle history s →
      (∀ t code, LockWaits.Event.start t code ∈ history →
        ∃ op, Transaction.ofOp db op = some code) → ¬RowDeadlock s

/-! ## The condition -/

/-- The transaction is a recovery in progress. -/
def IsRecovery (s : LockState τ) (t : τ) : Prop :=
  ∃ retryable terminal expired taken,
    s t = some ⟨.recover retryable terminal expired, taken⟩

/-- One recovery has still to take a row that another one holds. -/
structure RecoveryNeeds (s : LockState τ) (t u : τ) : Prop where
  needs : Needs Transaction.rowLocks s t u
  source : IsRecovery s t
  target : IsRecovery s u

/-- A chat call locks its key only while no result of the key is between its project
and its key; a result locks its project only while no chat call has its key; and a
recovery takes a row only if no recovery that it depends on, directly or through
others, has still to take that row. -/
def TakesInOrder (s : LockState τ) : LockEvent τ → Prop
  | .take t =>
      match s t with
      | some ⟨.chat apiKey, 0⟩ => ∀ u request,
          s u = some ⟨.commitResult request, 2⟩ → request.apiKeyId ≠ apiKey.id
      | some ⟨.commitResult request, 1⟩ => ∀ u apiKey taken,
          s u = some ⟨.chat apiKey, taken⟩ → 0 < taken → request.apiKeyId ≠ apiKey.id
      | some ⟨.recover _ _ _, _⟩ => ∀ u, TransGen (RecoveryNeeds s) t u →
          ∀ x, (todo Transaction.rowLocks s t).head? = some x →
            x ∉ todo Transaction.rowLocks s u
      | _ => True
  | _ => True

/-! ## Positions in a transaction -/

section Positions

variable {apiKey : APIKey} {request : OrbiRequest} {final : Bool}
  {retryable terminal expired : List OrbiRequest} {i : ℕ} {x : RowLock}

theorem chat_lock (h : (Transaction.chat apiKey).rowLocks[i]? = some x) :
    (i = 0 ∧ x = .apiKey apiKey.id) ∨ (i = 1 ∧ x = .project apiKey.projectId) := by
  match i with
  | 0 => exact Or.inl ⟨rfl, (Option.some.inj h).symm⟩
  | 1 => exact Or.inr ⟨rfl, (Option.some.inj h).symm⟩
  | _ + 2 => cases h

theorem commitResult_lock (h : (Transaction.commitResult request).rowLocks[i]? = some x) :
    (i = 0 ∧ x = .request request.id) ∨ (i = 1 ∧ x = .project request.projectId) ∨
      (i = 2 ∧ x = .apiKey request.apiKeyId) := by
  match i with
  | 0 => exact Or.inl ⟨rfl, (Option.some.inj h).symm⟩
  | 1 => exact Or.inr (Or.inl ⟨rfl, (Option.some.inj h).symm⟩)
  | 2 => exact Or.inr (Or.inr ⟨rfl, (Option.some.inj h).symm⟩)
  | _ + 3 => cases h

theorem recordError_lock
    (h : (Transaction.recordError request final).rowLocks[i]? = some x) :
    (i = 0 ∧ x = .request request.id) ∨ (i = 1 ∧ x = .project request.projectId) := by
  cases final with
  | true =>
      match i with
      | 0 => exact Or.inl ⟨rfl, (Option.some.inj h).symm⟩
      | 1 => exact Or.inr ⟨rfl, (Option.some.inj h).symm⟩
      | _ + 2 => cases h
  | false =>
      match i with
      | 0 => exact Or.inl ⟨rfl, (Option.some.inj h).symm⟩
      | _ + 1 => cases h

/-- A recovery takes requests up to some position and projects from there on. -/
theorem recover_lock
    (h : (Transaction.recover retryable terminal expired).rowLocks[i]? = some x) :
    (i < (retryable ++ terminal ++ expired).length ∧ ∃ id, x = .request id) ∨
      ((retryable ++ terminal ++ expired).length ≤ i ∧ ∃ id, x = .project id) := by
  simp only [Transaction.rowLocks, List.getElem?_append, List.length_map] at h
  split at h
  next hlt =>
    obtain ⟨row, -, rfl⟩ := List.mem_map.mp (List.mem_of_getElem? h)
    exact Or.inl ⟨hlt, row.id, rfl⟩
  next hge =>
    obtain ⟨row, -, rfl⟩ := List.mem_map.mp (List.mem_of_getElem? h)
    exact Or.inr ⟨by omega, row.projectId, rfl⟩

end Positions

/-! ## Cycles are made of recoveries -/

/-- No chat call holds the key of a result that is between its project and its
key. -/
def KeysKept (s : LockState τ) : Prop :=
  ∀ t u request apiKey taken, s t = some ⟨.commitResult request, 2⟩ →
    s u = some ⟨.chat apiKey, taken⟩ → 0 < taken → request.apiKeyId ≠ apiKey.id

section CycleEdges

variable {s : LockState τ} {t u : τ} {source target : Running Transaction}
  {x y : RowLock} {i : ℕ}

/-- Nobody on a cycle waits for a key. -/
theorem not_blocked_at_apiKey (hkeys : KeysKept s) {id : UUID}
    (h : Blocked Transaction.rowLocks s t u source target (.apiKey id) y i) : False := by
  obtain ⟨code, taken⟩ := source
  obtain ⟨code', taken'⟩ := target
  have hpos := h.source_holds
  have hlt := h.taken_lt
  have hnext := h.source_next
  have hholds := h.target_holds
  have hnext' := h.target_next
  dsimp only at hpos hlt hnext hholds hnext'
  cases code with
  | chat apiKey =>
      rcases chat_lock hnext with ⟨rfl, -⟩ | ⟨-, hx⟩
      · exact absurd hpos (lt_irrefl 0)
      · cases hx
  | commitResult request =>
      rcases commitResult_lock hnext with ⟨-, hx⟩ | ⟨-, hx⟩ | ⟨rfl, hx⟩
      · cases hx
      · cases hx
      · cases hx
        cases code' with
        | chat apiKey =>
            rcases chat_lock hholds with ⟨rfl, hkey⟩ | ⟨-, hkey⟩
            · have hid : request.apiKeyId = apiKey.id := RowLock.apiKey.inj hkey
              exact hkeys t u request apiKey taken' h.source_eq h.target_eq hlt hid
            · cases hkey
        | commitResult request' =>
            rcases commitResult_lock hholds with ⟨-, hkey⟩ | ⟨-, hkey⟩ | ⟨hi, -⟩
            · cases hkey
            · cases hkey
            · rcases commitResult_lock hnext' with ⟨hn, -⟩ | ⟨hn, -⟩ | ⟨hn, -⟩ <;> omega
        | recordError request' final =>
            rcases recordError_lock hholds with ⟨-, hkey⟩ | ⟨-, hkey⟩ <;> cases hkey
        | recover retryable terminal expired =>
            rcases recover_lock hholds with ⟨-, _, hkey⟩ | ⟨-, _, hkey⟩ <;> cases hkey
  | recordError request final =>
      rcases recordError_lock hnext with ⟨-, hx⟩ | ⟨-, hx⟩ <;> cases hx
  | recover retryable terminal expired =>
      rcases recover_lock hnext with ⟨-, _, hx⟩ | ⟨-, _, hx⟩ <;> cases hx

/-- On a cycle, whoever holds a project that is waited for is a recovery and waits
for a project itself. -/
theorem recovery_of_blocked_at_project (hkeys : KeysKept s)
    (hcycle : OnCycle (WaitsFor Transaction.rowLocks s) u) {id : UUID}
    (h : Blocked Transaction.rowLocks s t u source target (.project id) y i) :
    IsRecovery s u ∧ ∃ id', y = .project id' := by
  have hnoKey : ∀ id', y ≠ .apiKey id' := by
    rintro id' rfl
    obtain ⟨v, hedge⟩ := hcycle.successor
    obtain ⟨source', target', x', y', j, hblocked⟩ := blocked_of_cycleEdge hedge
    have hsame : target = source' :=
      Option.some.inj (h.target_eq.symm.trans hblocked.source_eq)
    subst hsame
    have hx : x' = .apiKey id' :=
      Option.some.inj (hblocked.source_next.symm.trans h.target_next)
    subst hx
    exact not_blocked_at_apiKey hkeys hblocked
  obtain ⟨code', taken'⟩ := target
  have hlt := h.taken_lt
  have hholds := h.target_holds
  have hnext' := h.target_next
  dsimp only at hlt hholds hnext'
  cases code' with
  | chat apiKey =>
      rcases chat_lock hholds with ⟨-, hx⟩ | ⟨hi, -⟩
      · cases hx
      · rcases chat_lock hnext' with ⟨hn, -⟩ | ⟨hn, -⟩ <;> omega
  | commitResult request =>
      rcases commitResult_lock hholds with ⟨-, hx⟩ | ⟨hi, -⟩ | ⟨-, hx⟩
      · cases hx
      · rcases commitResult_lock hnext' with ⟨hn, -⟩ | ⟨hn, -⟩ | ⟨-, hy⟩
        · omega
        · omega
        · exact absurd hy (hnoKey _)
      · cases hx
  | recordError request final =>
      rcases recordError_lock hholds with ⟨-, hx⟩ | ⟨hi, -⟩
      · cases hx
      · rcases recordError_lock hnext' with ⟨hn, -⟩ | ⟨hn, -⟩ <;> omega
  | recover retryable terminal expired =>
      refine ⟨⟨retryable, terminal, expired, taken', h.target_eq⟩, ?_⟩
      rcases recover_lock hholds with ⟨-, _, hx⟩ | ⟨hi, -⟩
      · cases hx
      · rcases recover_lock hnext' with ⟨hn, -⟩ | ⟨-, hy⟩
        · omega
        · exact hy

/-- On a cycle, whoever waits for a request is a recovery. -/
theorem recovery_of_blocked_at_request {id : UUID}
    (h : Blocked Transaction.rowLocks s t u source target (.request id) y i) :
    IsRecovery s t := by
  obtain ⟨code, taken⟩ := source
  have hpos := h.source_holds
  have hnext := h.source_next
  dsimp only at hpos hnext
  cases code with
  | chat apiKey =>
      rcases chat_lock hnext with ⟨-, hx⟩ | ⟨-, hx⟩ <;> cases hx
  | commitResult request =>
      rcases commitResult_lock hnext with ⟨rfl, -⟩ | ⟨-, hx⟩ | ⟨-, hx⟩
      · exact absurd hpos (lt_irrefl 0)
      · cases hx
      · cases hx
  | recordError request final =>
      rcases recordError_lock hnext with ⟨rfl, -⟩ | ⟨-, hx⟩
      · exact absurd hpos (lt_irrefl 0)
      · cases hx
  | recover retryable terminal expired =>
      exact ⟨retryable, terminal, expired, taken, h.source_eq⟩

/-- Everyone who is reached along a cycle from a transaction that waits for a
project is a recovery. -/
theorem recovery_of_path (hkeys : KeysKept s) {id : UUID}
    (hnext : (todo Transaction.rowLocks s t).head? = some (.project id))
    (hpath : TransGen (CycleEdge (WaitsFor Transaction.rowLocks s)) t u) :
    IsRecovery s u ∧ ∃ id', (todo Transaction.rowLocks s u).head? = some (.project id') := by
  have hstep : ∀ {v w : τ} {id : UUID}, CycleEdge (WaitsFor Transaction.rowLocks s) v w →
      (todo Transaction.rowLocks s v).head? = some (.project id) →
      IsRecovery s w ∧
        ∃ id', (todo Transaction.rowLocks s w).head? = some (.project id') := by
    intro v w id hedge hv
    obtain ⟨source, target, x, y, i, hblocked⟩ := blocked_of_cycleEdge hedge
    rw [head_todo hblocked.source_eq, hblocked.source_next, Option.some.injEq] at hv
    subst hv
    obtain ⟨hrecovery, id', rfl⟩ :=
      recovery_of_blocked_at_project hkeys hedge.target hblocked
    refine ⟨hrecovery, id', ?_⟩
    rw [head_todo hblocked.target_eq, hblocked.target_next]
  induction hpath with
  | single hedge => exact hstep hedge hnext
  | tail _ hedge ih =>
      obtain ⟨-, id', hnext'⟩ := ih
      exact hstep hedge hnext'

theorem recovery_of_onCycle (hkeys : KeysKept s)
    (hcycle : OnCycle (WaitsFor Transaction.rowLocks s) t) : IsRecovery s t := by
  obtain ⟨u, hedge⟩ := hcycle.successor
  obtain ⟨source, target, x, y, i, hblocked⟩ := blocked_of_cycleEdge hedge
  cases x with
  | request id => exact recovery_of_blocked_at_request hblocked
  | project id =>
      have hnext : (todo Transaction.rowLocks s t).head? = some (.project id) := by
        rw [head_todo hblocked.source_eq, hblocked.source_next]
      exact (recovery_of_path hkeys hnext hcycle.transGen_cycleEdge).1
  | apiKey id => exact (not_blocked_at_apiKey hkeys hblocked).elim

/-- There is no deadlock as long as the keys are kept and the recoveries do not need
each other in a circle. -/
theorem not_rowDeadlock (hkeys : KeysKept s) (hacyclic : Acyclic (RecoveryNeeds s)) :
    ¬RowDeadlock s := by
  rintro ⟨t, hcycle⟩
  have hwaits : Acyclic (WaitsFor Transaction.rowLocks s) := by
    apply hacyclic.of_cycleEdge
    intro a b hedge
    exact ⟨hedge.edge.needs, recovery_of_onCycle hkeys hedge.source,
      recovery_of_onCycle hkeys hedge.target⟩
  exact hwaits t hcycle

theorem IsRecovery.of_onCycle (h : OnCycle (RecoveryNeeds s) t) : IsRecovery s t := by
  obtain ⟨u, hedge⟩ := h.successor
  exact hedge.edge.source

end CycleEdges

/-! ## Steps in order -/

section InOrder

variable [DecidableEq τ] {s s' : LockState τ} {e : LockEvent τ}

theorem KeysKept.step (h : KeysKept s) (hstep : LockStep s e s')
    (horder : TakesInOrder s e) : KeysKept s' := by
  intro v w request apiKey taken hv hw hpos
  cases hstep with
  | @start t code hidle =>
      by_cases hvt : v = t
      · subst hvt
        rw [Function.update_self] at hv
        cases hv
      by_cases hwt : w = t
      · subst hwt
        rw [Function.update_self] at hw
        cases hw
        exact absurd hpos (lt_irrefl 0)
      rw [Function.update_of_ne hvt] at hv
      rw [Function.update_of_ne hwt] at hw
      exact h v w request apiKey taken hv hw hpos
  | @finish t =>
      by_cases hvt : v = t
      · subst hvt
        rw [Function.update_self] at hv
        cases hv
      by_cases hwt : w = t
      · subst hwt
        rw [Function.update_self] at hw
        cases hw
      rw [Function.update_of_ne hvt] at hv
      rw [Function.update_of_ne hwt] at hw
      exact h v w request apiKey taken hv hw hpos
  | @take t running x hrunning hnext hfree =>
      obtain ⟨code, n⟩ := running
      by_cases hvt : v = t
      · subst hvt
        rw [Function.update_self] at hv
        cases hv
        have hwv : w ≠ v := by
          rintro rfl
          rw [Function.update_self] at hw
          cases hw
        rw [Function.update_of_ne hwv] at hw
        simp only [TakesInOrder, hrunning] at horder
        exact horder w apiKey taken hw hpos
      · rw [Function.update_of_ne hvt] at hv
        by_cases hwt : w = t
        · subst hwt
          rw [Function.update_self] at hw
          cases hw
          cases n with
          | zero =>
              simp only [TakesInOrder, hrunning] at horder
              exact horder v request hv
          | succ n => exact h v w request apiKey (n + 1) hv hrunning (Nat.succ_pos n)
        · rw [Function.update_of_ne hwt] at hw
          exact h v w request apiKey taken hv hw hpos

theorem isRecovery_of_update {t u : τ} {value : Option (Running Transaction)}
    (hne : u ≠ t) (h : IsRecovery (Function.update s t value) u) : IsRecovery s u := by
  obtain ⟨retryable, terminal, expired, taken, hu⟩ := h
  rw [Function.update_of_ne hne] at hu
  exact ⟨retryable, terminal, expired, taken, hu⟩

theorem recoveryNeeds_of_update {t a b : τ} {value : Option (Running Transaction)}
    (ha : a ≠ t) (hb : b ≠ t) (h : RecoveryNeeds (Function.update s t value) a b) :
    RecoveryNeeds s a b := by
  obtain ⟨hother, x, htodo, hheld⟩ := h.needs
  rw [todo_update_of_ne _ ha] at htodo
  rw [held_update_of_ne _ hb] at hheld
  exact ⟨⟨hother, x, htodo, hheld⟩, isRecovery_of_update ha h.source,
    isRecovery_of_update hb h.target⟩

/-- A recovery takes a row that no recovery it depends on has still to take: the new
edges enter it from those that have still to take the row, and close no cycle. -/
theorem acyclic_take {t : τ} {running : Running Transaction} {x : RowLock}
    (h : Acyclic (RecoveryNeeds s)) (hrunning : s t = some running)
    (hnext : (todo Transaction.rowLocks s t).head? = some x)
    (hrecovery : IsRecovery s t)
    (horder : ∀ u, TransGen (RecoveryNeeds s) t u → x ∉ todo Transaction.rowLocks s u) :
    Acyclic (RecoveryNeeds (Function.update s t
      (some ⟨running.code, running.taken + 1⟩))) := by
  have hwas : ∀ a, IsRecovery (Function.update s t
      (some ⟨running.code, running.taken + 1⟩)) a → IsRecovery s a := by
    intro a ha
    by_cases hat : a = t
    · rw [hat]
      exact hrecovery
    · exact isRecovery_of_update hat ha
  have htodo : ∀ a y, y ∈ todo Transaction.rowLocks (Function.update s t
      (some ⟨running.code, running.taken + 1⟩)) a →
      y ∈ todo Transaction.rowLocks s a := by
    intro a y hy
    by_cases hat : a = t
    · subst hat
      rw [todo_update_take hrunning] at hy
      exact List.mem_of_mem_tail hy
    · rw [todo_update_of_ne _ hat] at hy
      exact hy
  refine @Acyclic.of_new_edges _ _ _ t (fun a => a ≠ t ∧ IsRecovery s a ∧
    x ∈ todo Transaction.rowLocks s a) h ?_ ?_
  · intro a b hedge
    obtain ⟨hother, y, hy, hheld⟩ := hedge.needs
    have hy' := htodo a y hy
    by_cases hbt : b = t
    · subst hbt
      rw [held_update_take hrunning hnext, List.mem_append, List.mem_singleton] at hheld
      rcases hheld with hheld | rfl
      · exact Or.inl ⟨⟨hother, y, hy', hheld⟩, hwas a hedge.source, hrecovery⟩
      · exact Or.inr ⟨rfl, hother, hwas a hedge.source, hy'⟩
    · rw [held_update_of_ne _ hbt] at hheld
      exact Or.inl ⟨⟨hother, y, hy', hheld⟩, hwas a hedge.source, hwas b hedge.target⟩
  · rintro u hpath ⟨hne, -, hx⟩
    rcases reflTransGen_iff_eq_or_transGen.mp hpath with rfl | hpath
    · exact hne rfl
    · exact horder u hpath hx

theorem acyclic_step (h : Acyclic (RecoveryNeeds s)) (hstep : LockStep s e s')
    (horder : TakesInOrder s e) : Acyclic (RecoveryNeeds s') := by
  have haway : ∀ {t : τ} {value : Option (Running Transaction)} (a b : τ), a ≠ t → b ≠ t →
      RecoveryNeeds (Function.update s t value) a b → RecoveryNeeds s a b :=
    fun a b ha hb hedge => recoveryNeeds_of_update ha hb hedge
  cases hstep with
  | @start t code hidle =>
      apply h.of_not_onCycle _ haway
      intro hcycle
      obtain ⟨a, hedge⟩ := hcycle.predecessor
      obtain ⟨-, x, -, hheld⟩ := hedge.edge.needs
      rw [held_eq (Function.update_self _ _ _)] at hheld
      cases hheld
  | @finish t =>
      apply h.of_not_onCycle _ haway
      intro hcycle
      obtain ⟨_, _, _, _, hnone⟩ := IsRecovery.of_onCycle hcycle
      rw [Function.update_self] at hnone
      cases hnone
  | @take t running x hrunning hnext hfree =>
      by_cases hrecovery : IsRecovery s t
      · apply acyclic_take h hrunning hnext hrecovery
        intro u hpath
        obtain ⟨retryable, terminal, expired, taken, hcode⟩ := hrecovery
        simp only [TakesInOrder, hcode] at horder
        exact horder u hpath x hnext
      · apply h.of_not_onCycle _ haway
        intro hcycle
        apply hrecovery
        obtain ⟨retryable, terminal, expired, taken, hself⟩ := IsRecovery.of_onCycle hcycle
        rw [Function.update_self, Option.some.injEq] at hself
        refine ⟨retryable, terminal, expired, running.taken, ?_⟩
        rw [hrunning]
        obtain ⟨code, n⟩ := running
        cases hself
        rfl

end InOrder

/-! ## A chat call against a result of the same key -/

namespace Sample

/-- The key row that a chat call locks while the worker holds the request. -/
def lockedKey : APIKey :=
  (findActiveKey assignedDb "Integration1").get (by decide)

/-- The request row that the worker's result locks. -/
def lockedRequest : OrbiRequest :=
  (assignedDb.requests.rows.find? fun request => request.isHeldBy 100 20).get
    (by decide)

/-- The chat call (`false`) has taken `m` locks and the result (`true`) `n`. -/
def crossed (m n : ℕ) : LockState Bool
  | false => some ⟨.chat lockedKey, m⟩
  | true => some ⟨.commitResult lockedRequest, n⟩

theorem start_crossed :
    Run LockStep idle [.start true (.commitResult lockedRequest),
      .start false (.chat lockedKey)] (crossed 0 0) := by
  have hstates : Function.update (Function.update idle false
      (some ⟨.chat lockedKey, 0⟩)) true (some ⟨.commitResult lockedRequest, 0⟩) =
        crossed 0 0 := by
    funext t
    cases t <;> rfl
  rw [← hstates]
  exact (Run.start.next (.start rfl)).next (.start rfl)

theorem take_chat {m n : ℕ} {x : RowLock}
    (hnext : (todo Transaction.rowLocks (crossed m n) false).head? = some x)
    (hfree : x ∉ held Transaction.rowLocks (crossed m n) true) :
    LockStep (crossed m n) (.take false) (crossed (m + 1) n) := by
  have hstates : Function.update (crossed m n) false (some ⟨.chat lockedKey, m + 1⟩) =
      crossed (m + 1) n := by
    funext t
    cases t <;> rfl
  rw [← hstates]
  refine LockWaits.Step.take (show crossed m n false = some ⟨.chat lockedKey, m⟩ from rfl)
    hnext ?_
  intro u hu
  cases u with
  | false => exact absurd rfl hu
  | true => exact hfree

theorem take_result {m n : ℕ} {x : RowLock}
    (hnext : (todo Transaction.rowLocks (crossed m n) true).head? = some x)
    (hfree : x ∉ held Transaction.rowLocks (crossed m n) false) :
    LockStep (crossed m n) (.take true) (crossed m (n + 1)) := by
  have hstates : Function.update (crossed m n) true
      (some ⟨.commitResult lockedRequest, n + 1⟩) = crossed m (n + 1) := by
    funext t
    cases t <;> rfl
  rw [← hstates]
  refine LockWaits.Step.take
    (show crossed m n true = some ⟨.commitResult lockedRequest, n⟩ from rfl) hnext ?_
  intro u hu
  cases u with
  | false => exact hfree
  | true => exact absurd rfl hu

/-- The chat call has its key, then the result takes its request and its project. -/
theorem run_crossed :
    Run LockStep idle [.take true, .take true, .take false,
      .start true (.commitResult lockedRequest), .start false (.chat lockedKey)]
      (crossed 1 2) := by
  have hkey := start_crossed.next
    (take_chat (x := .apiKey 10) (by decide) (by decide))
  have hrequest := hkey.next (take_result (x := .request 100) (by decide) (by decide))
  exact hrequest.next (take_result (x := .project 1) (by decide) (by decide))

end Sample

/-- The chat call waits for the project, the result for the key. -/
theorem lock_order_crossed : ¬LockOrderSafe Sample.assignedDb := by
  intro hsafe
  apply hsafe Bool _ (Sample.crossed 1 2) Sample.run_crossed
  · intro t code hstart
    simp only [List.mem_cons, List.not_mem_nil, or_false, reduceCtorEq, false_or,
      LockWaits.Event.start.injEq] at hstart
    rcases hstart with ⟨-, rfl⟩ | ⟨-, rfl⟩
    · exact ⟨.submitResult Sample.worker
        (Sample.resultFor 100 2 5 (by decide) (by decide)) 6, rfl⟩
    · exact ⟨.chat (Sample.call 101 none 5), rfl⟩
  · have hchat : WaitsFor Transaction.rowLocks (Sample.crossed 1 2) false true :=
      ⟨by decide, .project 1, by decide, by decide⟩
    have hresult : WaitsFor Transaction.rowLocks (Sample.crossed 1 2) true false :=
      ⟨by decide, .apiKey 10, by decide, by decide⟩
    exact ⟨false, (TransGen.single hchat).tail hresult⟩

/-- A lock step that meets the condition. -/
def OrderedStep [DecidableEq τ] (s : LockState τ) (e : LockEvent τ)
    (s' : LockState τ) : Prop :=
  LockStep s e s' ∧ TakesInOrder s e

/-- In every run whose steps take their locks in order, no state has a deadlock. -/
theorem no_deadlock_in_order {τ : Type} [DecidableEq τ] {history : List (LockEvent τ)}
    {s : LockState τ} (hrun : Run OrderedStep idle history s) : ¬RowDeadlock s := by
  have hinvariant : KeysKept s ∧ Acyclic (RecoveryNeeds s) := by
    apply Run.invariant (I := fun s => KeysKept s ∧ Acyclic (RecoveryNeeds s)) hrun
    · constructor
      · intro v w request apiKey taken hv
        cases hv
      · intro a hcycle
        obtain ⟨b, hedge⟩ := hcycle.successor
        obtain ⟨_, _, _, _, hnone⟩ := hedge.edge.source
        cases hnone
    · rintro s e s' ⟨hkeys, hacyclic⟩ ⟨hstep, horder⟩
      exact ⟨hkeys.step hstep horder, acyclic_step hacyclic hstep horder⟩
  exact not_rowDeadlock hinvariant.1 hinvariant.2

/-- The chat call takes both its locks beside a result that has its request. -/
theorem no_deadlock_in_order_crossed : ¬RowDeadlock (Sample.crossed 2 1) := by
  have hstart : Run OrderedStep idle [.start true (.commitResult Sample.lockedRequest),
      .start false (.chat Sample.lockedKey)] (Sample.crossed 0 0) := by
    obtain ⟨s, hfirst, hlast⟩ := Run.of_cons Sample.start_crossed
    obtain ⟨s', hbegin, hfirst'⟩ := Run.of_cons hfirst
    cases hbegin
    exact (Run.start.next ⟨hfirst', trivial⟩).next ⟨hlast, trivial⟩
  have hkey := hstart.next ⟨Sample.take_chat (x := .apiKey 10) (by decide) (by decide),
    by
      intro u request hu
      cases u <;> cases hu⟩
  have hrequest := hkey.next
    ⟨Sample.take_result (x := .request 100) (by decide) (by decide), trivial⟩
  have hproject := hrequest.next
    ⟨Sample.take_chat (x := .project 1) (by decide) (by decide), trivial⟩
  exact no_deadlock_in_order hproject

end OrbiGateway
