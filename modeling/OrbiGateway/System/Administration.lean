import Mathlib.Data.List.ReduceOption
import OrbiGateway.Concurrency.WorkerRevocation
import OrbiGateway.Invariants.TenantIsolation
import OrbiGateway.Invariants.UsageLedger

/-!
# Operations under administration

The operations on requests do not run alone.  Projects, keys, aliases and workers are added
while they run, keys and workers are revoked, and workers report their health.  None of this
touches a request, a usage record or what has been used of a budget or of a key, and nothing
is ever removed, so whatever a row refers to stays.
-/

namespace OrbiGateway

open Relational Transition

/-! ## Administration -/

/-- How a key is found and what it has used. -/
def APIKey.accountColumns (record : APIKey) : (UUID × String × UUID) × ℤ × ℤ :=
  (record.lookupColumns, record.totalRequests, record.totalTokens)

/-- A change between two operations. -/
structure Administers (db db' : Db) : Prop where
  requests : db'.requests = db.requests
  usageRecords : db'.usageRecords = db.usageRecords
  projects : ∃ added, db'.projects.rows = db.projects.rows ++ added ∧
    ∀ project ∈ added, project.isActive = true ∧ ∀ period : Period, period.used project = 0
  apiKeys : ∃ added : List APIKey, db'.apiKeys.rows.map APIKey.accountColumns =
      (db.apiKeys.rows ++ added).map APIKey.accountColumns ∧
    ∀ record ∈ added, (record.totalRequests = 0 ∧ record.totalTokens = 0) ∧
      ∃ project ∈ db.projects.rows, project.id = record.projectId
  modelAliases : db.modelAliases.rows ⊆ db'.modelAliases.rows
  workers : db.workers.rows.map Worker.id ⊆ db'.workers.rows.map Worker.id

namespace Administers

variable {db db' : Db}

theorem of_workers {workers : Table Worker}
    (hids : db.workers.rows.map Worker.id ⊆ workers.rows.map Worker.id) :
    Administers db { db with workers := workers } where
  requests := rfl
  usageRecords := rfl
  projects := ⟨[], (List.append_nil _).symm, by simp⟩
  apiKeys := ⟨[], by rw [List.append_nil], by simp⟩
  modelAliases := List.Subset.refl _
  workers := hids

theorem of_update_workers (p : Worker → Bool) (u : Table.RowUpdate Worker) :
    Administers db { db with workers := db.workers.updateWhere p u } := by
  apply of_workers
  rw [Table.rows_updateWhere, List.map_map]
  intro id hid
  obtain ⟨worker, hworker, rfl⟩ := List.mem_map.mp hid
  refine List.mem_map.mpr ⟨worker, hworker, ?_⟩
  exact (u.onRows p).key_set worker

theorem refl (db : Db) : Administers db db :=
  of_workers (List.Subset.refl _)

theorem of_put_apiKey {record record' : APIKey} (hmem : record ∈ db.apiKeys.rows)
    (hcolumns : record'.accountColumns = record.accountColumns) :
    Administers db { db with apiKeys := db.apiKeys.put record' } where
  requests := rfl
  usageRecords := rfl
  projects := ⟨[], (List.append_nil _).symm, by simp⟩
  apiKeys := by
    refine ⟨[], ?_, by simp⟩
    rw [List.append_nil]
    apply Table.map_put
    intro other hother hid
    have hid' : record'.id = record.id := congrArg (fun columns => columns.1.1) hcolumns
    have heq : other = record := db.apiKeys.eq_of_key_eq hother hmem (hid.trans hid')
    rw [heq, hcolumns]
  modelAliases := List.Subset.refl _
  workers := List.Subset.refl _

theorem of_insert_apiKey {apiKeys : Table APIKey} {record : APIKey}
    (hinsert : db.apiKeys.insert record = some apiKeys)
    (hunused : record.totalRequests = 0 ∧ record.totalTokens = 0)
    (hproject : ∃ project ∈ db.projects.rows, project.id = record.projectId) :
    Administers db { db with apiKeys := apiKeys } where
  requests := rfl
  usageRecords := rfl
  projects := ⟨[], (List.append_nil _).symm, by simp⟩
  apiKeys := by
    refine ⟨[record], ?_, ?_⟩
    · rw [(Table.insert_eq_some_iff.mp hinsert).2]
    · intro added hadded
      cases List.mem_singleton.mp hadded
      exact ⟨hunused, hproject⟩
  modelAliases := List.Subset.refl _
  workers := List.Subset.refl _

theorem of_insert_project {projects : Table Project} {project : Project}
    (hinsert : db.projects.insert project = some projects)
    (hnew : project.isActive = true ∧ ∀ period : Period, period.used project = 0) :
    Administers db { db with projects := projects } where
  requests := rfl
  usageRecords := rfl
  projects := by
    refine ⟨[project], (Table.insert_eq_some_iff.mp hinsert).2, ?_⟩
    intro added hadded
    cases List.mem_singleton.mp hadded
    exact hnew
  apiKeys := ⟨[], by rw [List.append_nil], by simp⟩
  modelAliases := List.Subset.refl _
  workers := List.Subset.refl _

theorem of_insert_modelAlias {modelAliases : Table ModelAlias} {modelAlias : ModelAlias}
    (hinsert : db.modelAliases.insert modelAlias = some modelAliases) :
    Administers db { db with modelAliases := modelAliases } where
  requests := rfl
  usageRecords := rfl
  projects := ⟨[], (List.append_nil _).symm, by simp⟩
  apiKeys := ⟨[], by rw [List.append_nil], by simp⟩
  modelAliases := by
    change db.modelAliases.rows ⊆ modelAliases.rows
    rw [(Table.insert_eq_some_iff.mp hinsert).2]
    exact List.subset_append_left _ _
  workers := List.Subset.refl _

/-- A project is kept as it is, or it is new, active and unused. -/
theorem project_cases (h : Administers db db') {project : Project}
    (hproject : project ∈ db'.projects.rows) :
    project ∈ db.projects.rows ∨
      (∀ old ∈ db.projects.rows, old.id ≠ project.id) ∧ project.isActive = true ∧
        ∀ period : Period, period.used project = 0 := by
  obtain ⟨added, hrows, hunused⟩ := h.projects
  have hnodup := db'.projects.keysNodup
  rw [hrows, List.map_append] at hnodup
  rw [hrows, List.mem_append] at hproject
  rcases hproject with hold | hnew
  · exact .inl hold
  · refine .inr ⟨?_, hunused project hnew⟩
    intro old hmem hid
    exact (List.nodup_append.mp hnodup).2.2 _ (List.mem_map_of_mem hmem) _
      (List.mem_map_of_mem hnew) hid

theorem project_mem (h : Administers db db') {project : Project}
    (hproject : project ∈ db.projects.rows) : project ∈ db'.projects.rows := by
  obtain ⟨added, hrows, -⟩ := h.projects
  rw [hrows]
  exact List.mem_append_left _ hproject

/-- A key has the account that it had, or it is new and unused. -/
theorem apiKey_cases (h : Administers db db') {record' : APIKey}
    (hrecord' : record' ∈ db'.apiKeys.rows) :
    (∃ record ∈ db.apiKeys.rows, record'.accountColumns = record.accountColumns) ∨
      (∀ old ∈ db.apiKeys.rows, old.id ≠ record'.id) ∧
        (record'.totalRequests = 0 ∧ record'.totalTokens = 0) ∧
          ∃ project ∈ db.projects.rows, project.id = record'.projectId := by
  obtain ⟨added, hrows, hunused⟩ := h.apiKeys
  have hids : db'.apiKeys.rows.map APIKey.id =
      (db.apiKeys.rows ++ added).map APIKey.id := by
    have hcolumns := congrArg (List.map fun columns => columns.1.1) hrows
    rw [List.map_map, List.map_map] at hcolumns
    exact hcolumns
  have hnodup : ((db.apiKeys.rows ++ added).map APIKey.id).Nodup :=
    hids ▸ db'.apiKeys.keysNodup
  have hmem : record'.accountColumns ∈
      (db.apiKeys.rows ++ added).map APIKey.accountColumns :=
    hrows ▸ List.mem_map_of_mem hrecord'
  obtain ⟨record, hrecord, hcolumns⟩ := List.mem_map.mp hmem
  rcases List.mem_append.mp hrecord with hold | hnew
  · exact .inl ⟨record, hold, hcolumns.symm⟩
  · simp only [APIKey.accountColumns, APIKey.lookupColumns, Prod.mk.injEq] at hcolumns
    obtain ⟨⟨hid, -, hproject⟩, hrequests, htokens⟩ := hcolumns
    obtain ⟨⟨hnone, hnone'⟩, hknown⟩ := hunused record hnew
    refine .inr ⟨?_, ⟨hrequests.symm.trans hnone, htokens.symm.trans hnone'⟩,
      hproject ▸ hknown⟩
    intro old hmemOld hsame
    rw [List.map_append] at hnodup
    exact (List.nodup_append.mp hnodup).2.2 _ (List.mem_map_of_mem hmemOld) _
      (List.mem_map_of_mem hnew) (hsame.trans hid.symm)

theorem apiKey_mem (h : Administers db db') {record : APIKey}
    (hrecord : record ∈ db.apiKeys.rows) :
    ∃ record' ∈ db'.apiKeys.rows, record'.accountColumns = record.accountColumns := by
  obtain ⟨added, hrows, -⟩ := h.apiKeys
  have hmem : record.accountColumns ∈ db'.apiKeys.rows.map APIKey.accountColumns := by
    rw [hrows]
    exact List.mem_map_of_mem (List.mem_append_left _ hrecord)
  exact List.mem_map.mp hmem

end Administers

/-! ## Steps -/

/-- The worker whose credentials the event's operation carries. -/
def Event.workerId : Event → Option UUID
  | .performed op _ _ => op.workerId
  | _ => none

/-- A worker with this id has been registered. -/
def WorkerKnown (db : Db) (id : UUID) : Prop :=
  id ∈ db.workers.rows.map Worker.id

/-- An operation of a registered worker or of nobody, or administration, which leaves no
event. -/
inductive CoreStep : Db → Option Event → Db → Prop
  | operated {db db' : Db} {e : Event} (hstep : Step db e db')
      (hworker : ∀ id, e.workerId = some id → WorkerKnown db id) :
      CoreStep db (some e) db'
  | administered {db db' : Db} (h : Administers db db') : CoreStep db none db'

/-- The operations of a run, newest first. -/
def operations (history : List (Option Event)) : List Event :=
  history.reduceOption

@[simp] theorem operations_none (history : List (Option Event)) :
    operations (none :: history) = operations history :=
  List.reduceOption_cons_of_none history

@[simp] theorem operations_some (e : Event) (history : List (Option Event)) :
    operations (some e :: history) = e :: operations history :=
  List.reduceOption_cons_of_some e history

theorem operations_append (newer older : List (Option Event)) :
    operations (newer ++ older) = operations newer ++ operations older :=
  List.reduceOption_append newer older

abbrev CoreRun (db₀ : Db) (history : List (Option Event)) (db : Db) : Prop :=
  Run CoreStep db₀ history db

/-- The induction behind an invariant that reads the operations: every operation keeps it,
and so does administration. -/
theorem coreRun_invariant {I : List Event → Db → Prop} {db₀ db : Db}
    {history : List (Option Event)} (hrun : CoreRun db₀ history db) (hstart : I [] db₀)
    (hoperated : ∀ history db e db', CoreRun db₀ history db → I (operations history) db →
      Step db e db' → (∀ id, e.workerId = some id → WorkerKnown db id) →
        I (e :: operations history) db')
    (hadministered : ∀ history db db', CoreRun db₀ history db → I (operations history) db →
      Administers db db' → I (operations history) db') :
    I (operations history) db := by
  apply Run.history_invariant (I := fun history db => I (operations history) db) hrun hstart
  intro history db e db' hprev h hstep
  cases hstep with
  | operated hstep hworker =>
      rw [operations_some]
      exact hoperated history db _ db' hprev h hstep hworker
  | administered hadmin =>
      rw [operations_none]
      exact hadministered history db db' hprev h hadmin

theorem workerKnown_of_coreRun {db₀ db : Db} {history : List (Option Event)}
    (hrun : CoreRun db₀ history db) {id : UUID} (h : WorkerKnown db₀ id) :
    WorkerKnown db id := by
  apply Run.invariant (I := fun db => WorkerKnown db id) hrun h
  intro db e db' h hstep
  cases hstep with
  | operated hstep _ =>
      cases hstep with
      | performed hexec =>
          rw [WorkerKnown, (exec_frame hexec).1]
          exact h
      | failed => exact h
      | rescanned => exact h
  | administered hadmin => exact hadmin.workers h

/-- The same for a property of every request row: administration changes no row. -/
theorem coreRun_rows {I : List Event → OrbiRequest → Prop} {db₀ db : Db}
    {history : List (Option Event)} (hrun : CoreRun db₀ history db)
    (hstart : db₀.requests.rows = [])
    (hnew : ∀ history db call record project project' settled,
      NewRow db call record project project' →
      I (.performed (.chat call) (.chat (.queued record)) settled :: history) record)
    (hstep : ∀ history r op reply r' settled, I history r → RowStep r op reply r' →
      I (.performed op reply settled :: history) r')
    (hfailed : ∀ history r op failure, I history r → I (.failed op failure :: history) r)
    (hscan : ∀ history r, I history r → I (.rescanned :: history) r) :
    ∀ r ∈ db.requests.rows, I (operations history) r := by
  apply coreRun_invariant (I := fun history db => ∀ r ∈ db.requests.rows, I history r) hrun
  · intro r hr
    rw [hstart] at hr
    cases hr
  · intro history db e db' _ ih hlast _
    exact hlast.forall_rows hnew hstep hfailed hscan ih
  · intro history db db' _ ih hadmin r hr
    rw [hadmin.requests] at hr
    exact ih r hr

end OrbiGateway
