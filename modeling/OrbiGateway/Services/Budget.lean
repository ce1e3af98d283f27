import OrbiGateway.Library.Outcome
import OrbiGateway.Models.Entities

/-!
# The budget service

`BudgetService` keeps two counters on every project row, one for the current
UTC day and one for the current month.  The row-level functions compute the new
version of a locked row; the service functions read the row, apply them and
store the result.  The last section restates them once for both counters.
-/

namespace OrbiGateway

open Relational

structure BudgetSnapshot where
  dailyLimit : ℤ
  dailyUsed : ℤ
  monthlyLimit : ℤ
  monthlyUsed : ℤ

/-- Reject a request whose reserved token ceiling exceeds either limit. -/
def enforceBudget (snapshot : BudgetSnapshot) (requestedTokens : ℤ) :
    Except Failure Unit :=
  if requestedTokens < 1 then
    .error (.valueError "requested_tokens must be positive")
  else if snapshot.dailyUsed + requestedTokens > snapshot.dailyLimit then
    .error (.budgetExceeded "daily token limit would be exceeded")
  else if snapshot.monthlyUsed + requestedTokens > snapshot.monthlyLimit then
    .error (.budgetExceeded "monthly token limit would be exceeded")
  else
    .ok ()

/-- The admission test: at least one token, and both counters stay within their
limits. -/
theorem enforceBudget_eq_ok_iff {snapshot : BudgetSnapshot} {tokens : ℤ} :
    enforceBudget snapshot tokens = .ok () ↔
      1 ≤ tokens ∧ snapshot.dailyUsed + tokens ≤ snapshot.dailyLimit ∧
        snapshot.monthlyUsed + tokens ≤ snapshot.monthlyLimit := by
  unfold enforceBudget
  split
  · simp only [reduceCtorEq, false_iff]
    omega
  split
  · simp only [reduceCtorEq, false_iff]
    omega
  split
  · simp only [reduceCtorEq, false_iff]
    omega
  · simp only [true_iff]
    omega

namespace Project

def snapshot (project : Project) : BudgetSnapshot where
  dailyLimit := project.dailyTokenLimit
  dailyUsed := project.dailyTokensUsed
  monthlyLimit := project.monthlyTokenLimit
  monthlyUsed := project.monthlyTokensUsed

/-- The first half of `reserve`: restart each counter whose stored period is
not the current one. -/
def resetPeriods (project : Project) (today : Date) : Project :=
  let month := today.replaceDayOne
  let project :=
    if project.dailyUsageDate ≠ today then
      { project with dailyUsageDate := today, dailyTokensUsed := 0 }
    else project
  if project.monthlyUsageMonth ≠ month then
    { project with monthlyUsageMonth := month, monthlyTokensUsed := 0 }
  else project

/-- `reserve` on a locked project row. -/
def reserve (project : Project) (requestedTokens : ℤ) (today : Date) :
    Except Failure Project := do
  let project := project.resetPeriods today
  enforceBudget project.snapshot requestedTokens
  return { project with
    dailyTokensUsed := project.dailyTokensUsed + requestedTokens
    monthlyTokensUsed := project.monthlyTokensUsed + requestedTokens }

/-- `reconcile` on a locked project row. -/
def reconcile (project : Project) (reservedTokens actualTokens : ℤ)
    (budgetDay budgetMonth : Date) : Project :=
  let delta := actualTokens - reservedTokens
  let project :=
    if project.dailyUsageDate = budgetDay then
      { project with dailyTokensUsed := max 0 (project.dailyTokensUsed + delta) }
    else project
  if project.monthlyUsageMonth = budgetMonth then
    { project with
      monthlyTokensUsed := max 0 (project.monthlyTokensUsed + delta) }
  else project

end Project

namespace BudgetService

/-- Lock a project row, reset its usage periods when needed and reserve tokens.
`today` is the UTC date the call reads. -/
def reserve (db : Db) (projectId : UUID) (requestedTokens : ℤ) (today : Date) :
    Except Failure ((Project × Date × Date) × Db) :=
  match db.projects.find projectId with
  | none => .error .noResultFound
  | some project => do
      let project ← project.reserve requestedTokens today
      return ((project, today, today.replaceDayOne),
        { db with projects := db.projects.put project })

/-- Replace a reservation by the actual usage in the periods it was made in. -/
def reconcile (db : Db) (projectId : UUID) (reservedTokens actualTokens : ℤ)
    (budgetDay budgetMonth : Date) : Except Failure Db :=
  match db.projects.find projectId with
  | none => .error .noResultFound
  | some project =>
      .ok { db with
        projects := db.projects.put
          (project.reconcile reservedTokens actualTokens budgetDay budgetMonth) }

/-- Give back the reservation of a request that ended without a result. -/
def release (db : Db) (projectId : UUID) (reservedTokens : ℤ)
    (budgetDay budgetMonth : Date) : Except Failure Db :=
  reconcile db projectId reservedTokens 0 budgetDay budgetMonth

/-- A reservation that returns has stored the row that `Project.reserve` computes. -/
theorem reserve_spec {db db' : Db} {projectId : UUID} {tokens : ℤ} {today : Date}
    {result : Project × Date × Date}
    (h : reserve db projectId tokens today = .ok (result, db')) :
    ∃ project project', db.projects.find projectId = some project ∧
      project.reserve tokens today = .ok project' ∧
      result = (project', today, today.replaceDayOne) ∧
      db' = { db with projects := db.projects.put project' } := by
  unfold reserve at h
  split at h
  · cases h
  next project hfind =>
    obtain ⟨project', hproject, hpure⟩ := Except.bind_eq_ok_iff.mp h
    rw [Except.pure_eq_ok_iff] at hpure
    cases hpure
    exact ⟨project, project', hfind, hproject, rfl, rfl⟩

end BudgetService

/-! ## Both counters at once -/

/-- The two accounting periods of a project. -/
inductive Period
  | daily
  | monthly
  deriving DecidableEq

namespace Period

/-- The counter of a period. -/
def used : Period → Project → ℤ
  | .daily, project => project.dailyTokensUsed
  | .monthly, project => project.monthlyTokensUsed

/-- The date stored with the counter. -/
def stamp : Period → Project → Date
  | .daily, project => project.dailyUsageDate
  | .monthly, project => project.monthlyUsageMonth

def limit : Period → Project → ℤ
  | .daily, project => project.dailyTokenLimit
  | .monthly, project => project.monthlyTokenLimit

/-- The date that stands for the period of a day. -/
def start : Period → Date → Date
  | .daily, today => today
  | .monthly, today => today.replaceDayOne

theorem start_mono (period : Period) {a b : Date} (h : a ≤ b) :
    period.start a ≤ period.start b := by
  cases period with
  | daily => exact h
  | monthly => exact Date.replaceDayOne_mono h

end Period

namespace Project

@[simp] theorem id_resetPeriods (project : Project) (today : Date) :
    (project.resetPeriods today).id = project.id := by
  simp only [resetPeriods]
  split <;> split <;> rfl

@[simp] theorem stamp_resetPeriods (project : Project) (today : Date)
    (period : Period) :
    period.stamp (project.resetPeriods today) = period.start today := by
  cases period
  · simp only [resetPeriods, Period.stamp, Period.start]
    split <;> split <;> simp_all
  · simp only [resetPeriods, Period.stamp, Period.start]
    split <;> split <;> simp_all

theorem used_resetPeriods (project : Project) (today : Date) (period : Period) :
    period.used (project.resetPeriods today) =
      if period.stamp project = period.start today then period.used project
      else 0 := by
  cases period
  · simp only [resetPeriods, Period.used, Period.stamp, Period.start]
    split <;> split <;> simp_all
  · simp only [resetPeriods, Period.used, Period.stamp, Period.start]
    split <;> split <;> simp_all

@[simp] theorem limit_resetPeriods (project : Project) (today : Date)
    (period : Period) :
    period.limit (project.resetPeriods today) = period.limit project := by
  cases period
  · simp only [resetPeriods, Period.limit]
    split <;> split <;> rfl
  · simp only [resetPeriods, Period.limit]
    split <;> split <;> rfl

theorem isActive_resetPeriods (project : Project) (today : Date) :
    (project.resetPeriods today).isActive = project.isActive := by
  simp only [resetPeriods]
  split <;> split <;> rfl

/-- What a successful reservation does to the row. -/
structure Reserved (project project' : Project) (tokens : ℤ) (today : Date) :
    Prop where
  id_eq : project'.id = project.id
  tokens_pos : 1 ≤ tokens
  stamp_eq : ∀ period : Period, period.stamp project' = period.start today
  used_eq : ∀ period : Period, period.used project' =
    (if period.stamp project = period.start today then period.used project
      else 0) + tokens
  limit_eq : ∀ period : Period, period.limit project' = period.limit project
  used_le : ∀ period : Period, period.used project' ≤ period.limit project'

theorem reserve_spec {project project' : Project} {tokens : ℤ} {today : Date}
    (h : project.reserve tokens today = .ok project') :
    Reserved project project' tokens today := by
  unfold reserve at h
  cases hfits : enforceBudget (project.resetPeriods today).snapshot tokens with
  | error failure => simp [hfits, bind, Except.bind] at h
  | ok _ =>
      simp only [hfits, bind, Except.bind, pure, Except.pure,
        Except.ok.injEq] at h
      subst h
      obtain ⟨hpos, hday, hmonth⟩ := enforceBudget_eq_ok_iff.mp hfits
      refine ⟨?_, hpos, ?_, ?_, ?_, ?_⟩
      · exact id_resetPeriods project today
      · intro period
        rw [← stamp_resetPeriods project today period]
        cases period <;> rfl
      · intro period
        rw [← used_resetPeriods]
        cases period <;> rfl
      · intro period
        rw [← limit_resetPeriods project today period]
        cases period <;> rfl
      · intro period
        cases period
        · exact hday
        · exact hmonth

theorem isActive_reserve {project project' : Project} {tokens : ℤ} {today : Date}
    (h : project.reserve tokens today = .ok project') :
    project'.isActive = project.isActive := by
  unfold reserve at h
  cases hfits : enforceBudget (project.resetPeriods today).snapshot tokens with
  | error failure => simp [hfits, bind, Except.bind] at h
  | ok _ =>
      simp only [hfits, bind, Except.bind, pure, Except.pure, Except.ok.injEq] at h
      subst h
      exact isActive_resetPeriods project today

@[simp] theorem id_reconcile (project : Project) (reserved actual : ℤ)
    (day month : Date) :
    (project.reconcile reserved actual day month).id = project.id := by
  simp only [reconcile]
  split <;> split <;> rfl

@[simp] theorem isActive_reconcile (project : Project) (reserved actual : ℤ)
    (day month : Date) :
    (project.reconcile reserved actual day month).isActive = project.isActive := by
  simp only [reconcile]
  split <;> split <;> rfl

@[simp] theorem stamp_reconcile (project : Project) (reserved actual : ℤ)
    (day month : Date) (period : Period) :
    period.stamp (project.reconcile reserved actual day month) =
      period.stamp project := by
  simp only [reconcile]
  cases period <;> split <;> split <;> rfl

@[simp] theorem limit_reconcile (project : Project) (reserved actual : ℤ)
    (day month : Date) (period : Period) :
    period.limit (project.reconcile reserved actual day month) =
      period.limit project := by
  simp only [reconcile]
  cases period <;> split <;> split <;> rfl

/-- Settling moves the counter of a period exactly when the reservation was
made in the period the counter stands for. -/
theorem used_reconcile (project : Project) (reserved actual : ℤ)
    (budgetDate : Period → Date) (period : Period) :
    period.used (project.reconcile reserved actual (budgetDate .daily)
        (budgetDate .monthly)) =
      if period.stamp project = budgetDate period then
        max 0 (period.used project + (actual - reserved))
      else period.used project := by
  cases period
  · by_cases hday : project.dailyUsageDate = budgetDate .daily
    · simp only [reconcile, Period.used, Period.stamp, hday, if_true]
      split <;> rfl
    · simp only [reconcile, Period.used, Period.stamp, hday, if_false]
      split <;> rfl
  · by_cases hmonth : project.monthlyUsageMonth = budgetDate .monthly
    · simp only [reconcile, Period.used, Period.stamp, hmonth, if_true]
      split <;> simp_all
    · simp only [reconcile, Period.used, Period.stamp, hmonth, if_false]
      split <;> simp_all

end Project

end OrbiGateway
