import OrbiGateway.Library.Constrained
import OrbiGateway.Models.Columns
import OrbiGateway.Routes.Projects
import OrbiGateway.System.Operations

/-!
# Calls on the declared columns

The committed operations compute with unbounded integers.  Here they run, together with
the creation of projects, against the declared columns: a call that hands over or would
leave an integer outside its column is refused and rolled back.
-/

namespace OrbiGateway

open Relational Transition Constrained

/-! ## Calls -/

/-- A committed operation, or the creation of a project. -/
inductive GatewayCall
  | perform (op : Op)
  | createProject (payload : ProjectCreateRequest) (readings : ProjectReadings)

inductive GatewayReply
  | performed (reply : Reply)
  | created (response : ProjectResponse)

namespace GatewayCall

/-- Run one call on unbounded integers. -/
def run (db : NamedDb) : GatewayCall → Except Failure (GatewayReply × NamedDb)
  | perform op => do
      let (reply, next) ← exec db.toDb op
      return (.performed reply, { db with toDb := next })
  | createProject payload readings => do
      let (response, next) ← OrbiGateway.createProject db payload readings
      return (.created response, next)

/-- The integers that a call binds to its first statement, which are encoded for their
columns even when the statement then meets no row or a conflict: the report in the
`UPDATE` of `commit_result`, and the limits in the `INSERT` of `create_project`. -/
def parameters : GatewayCall → List IntegerCell
  | perform (.submitResult _ payload _) =>
      [⟨.integer, payload.inputTokens⟩, ⟨.integer, payload.outputTokens⟩]
  | createProject payload _ =>
      [⟨.bigInteger, payload.dailyTokenLimit⟩, ⟨.bigInteger, payload.monthlyTokenLimit⟩]
  | _ => []

def ParametersInRange (call : GatewayCall) : Prop :=
  ∀ cell ∈ call.parameters, cell.InRange

instance : DecidablePred ParametersInRange := fun call =>
  inferInstanceAs (Decidable (∀ cell ∈ call.parameters, cell.InRange))

/-- Every integer that the call stores is in the range of its column: its parameters, and
the rows as it leaves them. -/
structure StoresInRange (db : NamedDb) (call : GatewayCall) : Prop where
  parameters : call.ParametersInRange
  rows : ∀ reply next, run db call = .ok (reply, next) → next.InColumns

theorem run_perform_eq_ok_iff {db next : NamedDb} {op : Op} {reply : GatewayReply} :
    run db (perform op) = .ok (reply, next) ↔
      ∃ answer mid, exec db.toDb op = .ok (answer, mid) ∧ reply = .performed answer ∧
        next = { db with toDb := mid } := by
  simp only [run]
  constructor
  · intro h
    obtain ⟨⟨answer, mid⟩, hexec, hpure⟩ := Except.bind_eq_ok_iff.mp h
    cases hpure
    exact ⟨answer, mid, hexec, rfl, rfl⟩
  · rintro ⟨answer, mid, hexec, rfl, rfl⟩
    exact Except.bind_eq_ok_iff.mpr ⟨(answer, mid), hexec, rfl⟩

theorem run_createProject_spec {db next : NamedDb} {payload : ProjectCreateRequest}
    {readings : ProjectReadings} {reply : GatewayReply}
    (h : run db (createProject payload readings) = .ok (reply, next)) :
    ∃ projects projectNames,
      db.projects.insert (newProject payload readings) = some projects ∧
      next = { db with projects := projects, projectNames := projectNames } := by
  obtain ⟨⟨response, created⟩, hcreate, hpure⟩ := Except.bind_eq_ok_iff.mp h
  cases hpure
  obtain ⟨projects, projectNames, hprojects, -, rfl⟩ := createProject_spec hcreate
  exact ⟨projects, projectNames, hprojects, rfl⟩

end GatewayCall

/-! ## The store -/

/-- The committed rows, every integer in the range of its column. -/
abbrev StoredDb := { db : NamedDb // db.InColumns }

/-- Run one call against the declared columns.  A violation is PostgreSQL's out-of-range
error. -/
def store (db : StoredDb) (call : GatewayCall) :
    Except (Refusal Failure) (GatewayReply × StoredDb) :=
  guarded GatewayCall.run GatewayCall.ParametersInRange (fun db => db.InColumns) db call

/-- The store refuses a call for its integers exactly if one of them is out of range. -/
theorem store_ne_violation_iff {db : StoredDb} {call : GatewayCall} :
    store db call ≠ .error .violation ↔ call.StoresInRange db :=
  guarded_ne_violation_iff.trans
    ⟨fun h => ⟨h.1, h.2⟩, fun h => ⟨h.parameters, h.rows⟩⟩

/-! ## Runs -/

/-- An entry of the history of the store. -/
inductive StoredEvent
  | performed (call : GatewayCall) (reply : GatewayReply)
  | refused (call : GatewayCall) (refusal : Refusal Failure)
  | rescanned

def StoredEvent.call : StoredEvent → Option GatewayCall
  | performed call _ => some call
  | refused call _ => some call
  | rescanned => none

/-- One call that the store lets through or refuses, or a change of the scan order. -/
inductive StoredStep : StoredDb → StoredEvent → StoredDb → Prop
  | performed {db db' : StoredDb} {call : GatewayCall} {reply : GatewayReply}
      (hstore : store db call = .ok (reply, db')) :
      StoredStep db (.performed call reply) db'
  | refused {db : StoredDb} {call : GatewayCall} {refusal : Refusal Failure}
      (hstore : store db call = .error refusal) :
      StoredStep db (.refused call refusal) db
  | rescanned {db db' : StoredDb}
      (hperm : db'.val.requests.rows.Perm db.val.requests.rows)
      (hrest : db'.val = { db.val with requests := db'.val.requests }) :
      StoredStep db .rescanned db'

/-- A run of the gateway on its declared columns. -/
abbrev StoredHistory (db₀ : StoredDb) (history : List StoredEvent) (db : StoredDb) : Prop :=
  Run StoredStep db₀ history db

/-- One call as a step of a run. -/
def StoredDb.perform (db : StoredDb) (call : GatewayCall) : StoredEvent × StoredDb :=
  match store db call with
  | .ok (reply, next) => (.performed call reply, next)
  | .error refusal => (.refused call refusal, db)

theorem step_storedPerform (db : StoredDb) (call : GatewayCall) :
    StoredStep db (StoredDb.perform db call).1 (StoredDb.perform db call).2 := by
  unfold StoredDb.perform
  split
  next hstore => exact .performed hstore
  next hstore => exact .refused hstore

/-- An event of the store on unbounded integers. -/
inductive CallStep : NamedDb → StoredEvent → NamedDb → Prop
  | performed {db db' : NamedDb} {call : GatewayCall} {reply : GatewayReply}
      (hrun : call.run db = .ok (reply, db')) :
      CallStep db (.performed call reply) db'
  | failed {db : NamedDb} {call : GatewayCall} {failure : Failure}
      (hrun : call.run db = .error failure) :
      CallStep db (.refused call (.raised failure)) db
  | rescanned {db : NamedDb} {requests : Table OrbiRequest}
      (hperm : requests.rows.Perm db.requests.rows) :
      CallStep db .rescanned { db with requests := requests }

end OrbiGateway
