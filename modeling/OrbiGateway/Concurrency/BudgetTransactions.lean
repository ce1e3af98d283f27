import OrbiGateway.Library.RowLocks
import OrbiGateway.System.Histories

/-!
# Concurrent budget transactions

The calls of the budget service as calls on locked project rows.  `reserve` and
`reconcile` select the project row `FOR UPDATE`, so a transaction works on its own
version of the row from its first call to its commit.  A reservation that exceeds
the budget has already restarted the periods of that version; the exception then
rolls the transaction back.
-/

namespace OrbiGateway

open Relational Transition

/-- A call of `BudgetService` on a project row. -/
inductive BudgetCall
  | reserve (requestedTokens : ℤ) (today : Date)
  | reconcile (reservedTokens actualTokens : ℤ) (budgetDay budgetMonth : Date)

namespace BudgetCall

/-- The call on the row of its transaction: the version it leaves, and whether it
returned. -/
def run : BudgetCall → Option Project → Option Project × Bool
  | _, none => (none, false)
  | .reserve requestedTokens today, some project =>
      match project.reserve requestedTokens today with
      | .ok reserved => (some reserved, true)
      | .error _ => (some (project.resetPeriods today), false)
  | .reconcile reservedTokens actualTokens budgetDay budgetMonth, some project =>
      (some (project.reconcile reservedTokens actualTokens budgetDay budgetMonth), true)

/-- The call on the database, as the service makes it. -/
def exec (db : Db) (projectId : UUID) : BudgetCall → Except Failure Db
  | .reserve requestedTokens today => do
      let (_, db) ← BudgetService.reserve db projectId requestedTokens today
      return db
  | .reconcile reservedTokens actualTokens budgetDay budgetMonth =>
      BudgetService.reconcile db projectId reservedTokens actualTokens budgetDay
        budgetMonth

variable {db db' : Db} {projectId : UUID}

theorem find_put_project {project new : Project}
    (hfind : db.projects.find projectId = some project) (hid : new.id = project.id) :
    (db.projects.put new).find projectId = some new ∧
      ∀ other, other ≠ projectId →
        (db.projects.put new).find other = db.projects.find other := by
  have hkey : new.id = projectId := hid.trans (Table.key_of_find hfind)
  constructor
  · rw [Table.find_put, key_project, if_pos hkey, hfind]
    rfl
  · intro other hother
    apply Table.find_put_of_ne
    rw [key_project, hkey]
    exact Ne.symm hother

/-- A call that returns does to the row what `run` says, and nothing to the other
rows. -/
theorem run_of_exec_ok {call : BudgetCall} (h : call.exec db projectId = .ok db') :
    call.run (db.projects.find projectId) = (db'.projects.find projectId, true) ∧
      ∀ other, other ≠ projectId →
        db'.projects.find other = db.projects.find other := by
  cases call with
  | reserve requestedTokens today =>
      obtain ⟨⟨result, final⟩, hreserve, hpure⟩ := Except.bind_eq_ok_iff.mp h
      rw [Except.pure_eq_ok_iff] at hpure
      subst hpure
      obtain ⟨project, reserved, hfind, hproject, -, rfl⟩ :=
        BudgetService.reserve_spec hreserve
      obtain ⟨hself, hothers⟩ :=
        find_put_project hfind (Project.reserve_spec hproject).id_eq
      refine ⟨?_, hothers⟩
      simp only [hself, hfind, run, hproject]
  | reconcile reservedTokens actualTokens budgetDay budgetMonth =>
      simp only [exec, BudgetService.reconcile] at h
      split at h
      · cases h
      next project hfind =>
        cases h
        obtain ⟨hself, hothers⟩ := find_put_project hfind
          (Project.id_reconcile project reservedTokens actualTokens budgetDay
            budgetMonth)
        refine ⟨?_, hothers⟩
        simp only [hself, hfind, run]

theorem run_of_exec_error {call : BudgetCall} {failure : Failure}
    (h : call.exec db projectId = .error failure) :
    (call.run (db.projects.find projectId)).2 = false := by
  cases hfind : db.projects.find projectId with
  | none =>
      cases call with
      | reserve requestedTokens today => rfl
      | reconcile reservedTokens actualTokens budgetDay budgetMonth => rfl
  | some project =>
      cases call with
      | reserve requestedTokens today =>
          cases hproject : project.reserve requestedTokens today with
          | error failure' => simp only [run, hproject]
          | ok reserved =>
              simp [exec, BudgetService.reserve, hfind, hproject, bind, Except.bind,
                pure, Except.pure] at h
      | reconcile reservedTokens actualTokens budgetDay budgetMonth =>
          simp [exec, BudgetService.reconcile, hfind] at h

/-- The release loop of recovery is a sequence of such calls. -/
theorem releaseAll_eq_exec (rows : List OrbiRequest) :
    QueueService.releaseAll db rows = rows.foldlM (fun db row =>
      exec db row.projectId
        (.reconcile row.reservedTokens 0 row.budgetDay row.budgetMonth)) db := rfl

end BudgetCall

/-! ## Schedules of budget transactions -/

section Schedules

variable {τ : Type*} [DecidableEq τ]

/-- A run of any number of budget transactions, interleaved in any way, from the
committed rows of `db`. -/
abbrev BudgetSchedule (db : Db) (history : List (RowLocks.Event τ UUID BudgetCall))
    (s : RowLocks.Store τ UUID (Option Project)) : Prop :=
  RowLocks.Schedule BudgetCall.run (.idle db.projects.find) history s

/-- The committed row of a project after the committed transactions alone, each run
from beginning to end in the order in which they locked the project. -/
def serialProject (db : Db) (history : List (RowLocks.Event τ UUID BudgetCall))
    (projectId : UUID) : Option (Option Project) :=
  RowLocks.serial BudgetCall.run history projectId (db.projects.find projectId)

/-- Every committed project row is that of the serial run, in which every call
returns.  A transaction that locks the project reads this row, and an open
transaction whose calls have returned has changed it by its own calls only. -/
theorem project_counters_serial {db : Db}
    {history : List (RowLocks.Event τ UUID BudgetCall)}
    {s : RowLocks.Store τ UUID (Option Project)}
    (hrun : BudgetSchedule db history s) :
    (∀ projectId, serialProject db history projectId = some (s.committed projectId)) ∧
    (∀ t projectId s', RowLocks.step BudgetCall.run s (.lock t projectId) = some s' →
      ∃ version, s'.locked projectId = some (t, version) ∧
        serialProject db history projectId = some version) ∧
    (∀ t projectId version, s.locked projectId = some (t, version) →
      s.doomed t = false →
        (serialProject db history projectId).bind
          (RowLocks.runCalls BudgetCall.run (RowLocks.calls t projectId history)) =
            some version) := by
  have hconsistent := RowLocks.consistent_of_schedule hrun
  refine ⟨hconsistent.committed_eq, ?_, ?_⟩
  · intro t projectId s' hstep
    obtain ⟨-, -, rfl⟩ := RowLocks.lock_spec hstep
    refine ⟨s.committed projectId, Function.update_self _ _ _, ?_⟩
    exact hconsistent.committed_eq projectId
  · intro t projectId version hlocked halive
    have hserial : serialProject db history projectId = some (s.committed projectId) :=
      hconsistent.committed_eq projectId
    rw [hserial, Option.bind_some]
    exact hconsistent.version_eq projectId t version hlocked halive

end Schedules

namespace Sample

/-- Three transactions on one project, newest event first: a reservation that is
rolled back, one that exceeds the daily limit, and one that commits. -/
def contention : List (RowLocks.Event ℕ UUID BudgetCall) :=
  [.commit 3, .call 3 1 (.reserve 20 day), .lock 3 1,
    .rollback 2, .call 2 1 (.reserve 101 day), .lock 2 1,
    .rollback 1, .call 1 1 (.reserve 10 day), .lock 1 1]

def contended : RowLocks.Store ℕ UUID (Option Project) :=
  (replay (RowLocks.step BudgetCall.run) (.idle db.projects.find) contention).get
    (by decide)

end Sample

/-- Only the committed reservation is left. -/
theorem project_counters_serial_contention :
    (Sample.contended.committed 1).map (·.dailyTokensUsed) = some 20 ∧
      ∀ projectId, serialProject Sample.db Sample.contention projectId =
        some (Sample.contended.committed projectId) :=
  ⟨by decide, (project_counters_serial (run_of_replay (Option.some_get _).symm)).1⟩

end OrbiGateway
