import OrbiGateway.Services.Budget

/-!
# Declared integer columns

The integer columns of the mapped classes with their declared types.  PostgreSQL stores
in a column of such a type the integers of its two's complement range and refuses every
statement that would store another one.
-/

namespace OrbiGateway

open Relational

/-! ## Integer types -/

/-- `SmallInteger`, `Integer` and `BigInteger`. -/
inductive IntegerType
  | smallInteger
  | integer
  | bigInteger

namespace IntegerType

/-- The largest integer of the type. -/
def maxValue : IntegerType → ℤ
  | .smallInteger => 32767
  | .integer => 2147483647
  | .bigInteger => 9223372036854775807

/-- The integer can be stored in a column of the type. -/
def Holds (type : IntegerType) (n : ℤ) : Prop :=
  -type.maxValue - 1 ≤ n ∧ n ≤ type.maxValue

instance (type : IntegerType) (n : ℤ) : Decidable (type.Holds n) :=
  inferInstanceAs (Decidable (_ ∧ _))

theorem integer_holds_iff {n : ℤ} :
    integer.Holds n ↔ -2147483648 ≤ n ∧ n ≤ 2147483647 := Iff.rfl

theorem bigInteger_holds_iff {n : ℤ} :
    bigInteger.Holds n ↔ -9223372036854775808 ≤ n ∧ n ≤ 9223372036854775807 := Iff.rfl

theorem holds_iff_of_nonneg {type : IntegerType} {n : ℤ} (h : 0 ≤ n) :
    type.Holds n ↔ n ≤ type.maxValue := by
  cases type <;> simp only [Holds, maxValue] <;> omega

end IntegerType

/-- An integer for a column of the given type. -/
structure IntegerCell where
  type : IntegerType
  value : ℤ

def IntegerCell.InRange (cell : IntegerCell) : Prop :=
  cell.type.Holds cell.value

instance (cell : IntegerCell) : Decidable cell.InRange :=
  inferInstanceAs (Decidable (cell.type.Holds cell.value))

/-! ## The columns of each table -/

/-- The integer columns of a mapped class. -/
class HasCells (ρ : Type*) where
  cells : ρ → List IntegerCell

instance : HasCells Project where
  cells project := [
    ⟨.bigInteger, project.monthlyTokenLimit⟩, ⟨.bigInteger, project.monthlyTokensUsed⟩,
    ⟨.bigInteger, project.dailyTokenLimit⟩, ⟨.bigInteger, project.dailyTokensUsed⟩]

instance : HasCells APIKey where
  cells record := [
    ⟨.bigInteger, record.totalRequests⟩, ⟨.bigInteger, record.totalTokens⟩,
    ⟨.integer, record.rpmLimit⟩, ⟨.integer, record.dailyReqLimit⟩,
    ⟨.integer, record.dailyRequestsUsed⟩]

instance : HasCells Worker where
  cells worker := [⟨.integer, worker.currentQueueDepth⟩]

/-- Nulls take no space. -/
instance : HasCells OrbiRequest where
  cells request := [
    ⟨.smallInteger, request.priority⟩, ⟨.integer, request.retryCount⟩,
    ⟨.integer, request.maxRetries⟩, ⟨.integer, request.reservedTokens⟩] ++
      (request.inputTokens.toList ++ request.outputTokens.toList).map (⟨.integer, ·⟩)

instance : HasCells UsageRecord where
  cells record := [⟨.integer, record.inputTokens⟩, ⟨.integer, record.outputTokens⟩] ++
    record.latencyMs.toList.map (⟨.integer, ·⟩)

/-- Every integer of the row is in the range of its column. -/
def RowInRange {ρ : Type*} [HasCells ρ] (row : ρ) : Prop :=
  ∀ cell ∈ HasCells.cells row, cell.InRange

instance {ρ : Type*} [HasCells ρ] (row : ρ) : Decidable (RowInRange row) :=
  inferInstanceAs (Decidable (∀ cell ∈ HasCells.cells row, cell.InRange))

theorem Project.rowInRange_iff {project : Project} :
    RowInRange project ↔ ∀ period : Period,
      IntegerType.bigInteger.Holds (period.limit project) ∧
        IntegerType.bigInteger.Holds (period.used project) := by
  simp only [RowInRange, HasCells.cells, List.forall_mem_cons, List.not_mem_nil,
    false_implies, implies_true, and_true, IntegerCell.InRange]
  constructor
  · rintro ⟨hmonthLimit, hmonth, hdayLimit, hday⟩ period
    cases period with
    | daily => exact ⟨hdayLimit, hday⟩
    | monthly => exact ⟨hmonthLimit, hmonth⟩
  · intro h
    exact ⟨(h .monthly).1, (h .monthly).2, (h .daily).1, (h .daily).2⟩

theorem APIKey.rowInRange_iff {record : APIKey} :
    RowInRange record ↔ IntegerType.bigInteger.Holds record.totalRequests ∧
      IntegerType.bigInteger.Holds record.totalTokens ∧
      IntegerType.integer.Holds record.rpmLimit ∧
      IntegerType.integer.Holds record.dailyReqLimit ∧
      IntegerType.integer.Holds record.dailyRequestsUsed := by
  simp only [RowInRange, HasCells.cells, List.forall_mem_cons, List.not_mem_nil,
    false_implies, implies_true, and_true, IntegerCell.InRange]

theorem OrbiRequest.rowInRange_iff {request : OrbiRequest} :
    RowInRange request ↔ IntegerType.smallInteger.Holds request.priority ∧
      IntegerType.integer.Holds request.retryCount ∧
      IntegerType.integer.Holds request.maxRetries ∧
      IntegerType.integer.Holds request.reservedTokens ∧
      (∀ n ∈ request.inputTokens, IntegerType.integer.Holds n) ∧
      ∀ n ∈ request.outputTokens, IntegerType.integer.Holds n := by
  simp only [RowInRange, HasCells.cells, List.forall_mem_append, List.forall_mem_cons,
    List.not_mem_nil, false_implies, implies_true, and_true, and_assoc, List.forall_mem_map,
    Option.mem_toList, Option.mem_def, IntegerCell.InRange]

theorem UsageRecord.rowInRange_iff {record : UsageRecord} :
    RowInRange record ↔ IntegerType.integer.Holds record.inputTokens ∧
      IntegerType.integer.Holds record.outputTokens ∧
      ∀ n ∈ record.latencyMs, IntegerType.integer.Holds n := by
  simp only [RowInRange, HasCells.cells, List.forall_mem_append, List.forall_mem_cons,
    List.not_mem_nil, false_implies, implies_true, and_true, and_assoc, List.forall_mem_map,
    Option.mem_toList, Option.mem_def, IntegerCell.InRange]

/-! ## The database -/

/-- Every integer of the database is in the range of its column. -/
structure Db.InColumns (db : Db) : Prop where
  projects : ∀ project ∈ db.projects.rows, RowInRange project
  apiKeys : ∀ record ∈ db.apiKeys.rows, RowInRange record
  workers : ∀ worker ∈ db.workers.rows, RowInRange worker
  requests : ∀ request ∈ db.requests.rows, RowInRange request
  usageRecords : ∀ record ∈ db.usageRecords.rows, RowInRange record

instance (db : Db) : Decidable db.InColumns :=
  decidable_of_iff
    ((∀ project ∈ db.projects.rows, RowInRange project) ∧
      (∀ record ∈ db.apiKeys.rows, RowInRange record) ∧
      (∀ worker ∈ db.workers.rows, RowInRange worker) ∧
      (∀ request ∈ db.requests.rows, RowInRange request) ∧
      ∀ record ∈ db.usageRecords.rows, RowInRange record)
    ⟨fun ⟨hprojects, hkeys, hworkers, hrequests, husage⟩ =>
        ⟨hprojects, hkeys, hworkers, hrequests, husage⟩,
      fun h => ⟨h.projects, h.apiKeys, h.workers, h.requests, h.usageRecords⟩⟩

end OrbiGateway
