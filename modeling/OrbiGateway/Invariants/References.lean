import OrbiGateway.System.Administration

/-!
# References between rows

Every foreign key of a row is the key of a row, with the same owner on both sides: a request
is of an API key of its own project and was resolved by an alias that still says what it said
then, and its worker is registered.  Operations and administration keep all of it.
-/

namespace OrbiGateway

open Relational Transition

/-- The row stands for an alias of the database as it is. -/
def ResolvedBy (db : Db) (r : OrbiRequest) : Prop :=
  ∃ modelAlias ∈ db.modelAliases.rows, modelAlias.aliasName = r.modelAlias ∧
    modelAlias.modelId = r.resolvedModel ∧
    modelAlias.requiredCapabilities = r.requiredCapabilities

structure References (db : Db) : Prop where
  keys : ∀ record ∈ db.apiKeys.rows, ∃ project ∈ db.projects.rows,
    project.id = record.projectId
  owners : ∀ r ∈ db.requests.rows, ∃ record ∈ db.apiKeys.rows,
    record.id = r.apiKeyId ∧ record.projectId = r.projectId
  resolved : ∀ r ∈ db.requests.rows, ResolvedBy db r
  assignees : ∀ r ∈ db.requests.rows, ∀ id, r.assignedTo = some id → WorkerKnown db id
  usage : RecordsOwned db

namespace References

variable {db db' : Db}

theorem of_empty (hkeys : db.apiKeys.rows = []) (hrequests : db.requests.rows = [])
    (husage : db.usageRecords.rows = []) : References db where
  keys record hrecord := by
    rw [hkeys] at hrecord
    cases hrecord
  owners r hr := by
    rw [hrequests] at hr
    cases hr
  resolved r hr := by
    rw [hrequests] at hr
    cases hr
  assignees r hr := by
    rw [hrequests] at hr
    cases hr
  usage record hrecord := by
    rw [husage] at hrecord
    cases hrecord

theorem projectsKnown (h : References db) : ProjectsKnown db := by
  intro r hr
  obtain ⟨record, hrecord, -, hproject⟩ := h.owners r hr
  obtain ⟨project, hmem, hid⟩ := h.keys record hrecord
  exact ⟨project, hmem, hid.trans hproject⟩

theorem usage_rows (h : References db) {record : UsageRecord}
    (hrecord : record ∈ db.usageRecords.rows) :
    (∃ key ∈ db.apiKeys.rows, key.id = record.apiKeyId ∧ key.projectId = record.projectId) ∧
      ∀ id, record.workerId = some id → WorkerKnown db id := by
  obtain ⟨r, hr, hof⟩ := h.usage record hrecord
  obtain ⟨key, hkey, hid, hproject⟩ := h.owners r hr
  refine ⟨⟨key, hkey, hid.trans hof.apiKeyId.symm, hproject.trans hof.projectId.symm⟩, ?_⟩
  intro id hworker
  exact h.assignees r hr id (hof.workerId.symm.trans hworker)

/-! ## Operations -/

section Exec

variable {op : Op} {reply : Reply}

theorem exec_apiKey_cases (hexec : exec db op = .ok (reply, db')) {record' : APIKey}
    (hrecord' : record' ∈ db'.apiKeys.rows) :
    ∃ record ∈ db.apiKeys.rows, record.lookupColumns = record'.lookupColumns := by
  have hmem : record'.lookupColumns ∈ db.apiKeys.rows.map APIKey.lookupColumns := by
    rw [← exec_lookupColumns hexec]
    exact List.mem_map_of_mem hrecord'
  exact List.mem_map.mp hmem

theorem exec_apiKey_mem (hexec : exec db op = .ok (reply, db')) {record : APIKey}
    (hrecord : record ∈ db.apiKeys.rows) :
    ∃ record' ∈ db'.apiKeys.rows, record'.lookupColumns = record.lookupColumns := by
  have hmem : record.lookupColumns ∈ db'.apiKeys.rows.map APIKey.lookupColumns := by
    rw [exec_lookupColumns hexec]
    exact List.mem_map_of_mem hrecord
  exact List.mem_map.mp hmem

/-- The assignee of a row after a transition was its assignee before, or claims it. -/
theorem assignedTo_step {r r' : OrbiRequest} (hstep : RowStep r op reply r') {id : UUID}
    (hassigned : r'.assignedTo = some id) : r.assignedTo = some id ∨ op.workerId = some id := by
  cases hstep with
  | kept => exact .inl hassigned
  | claimed => exact .inr hassigned
  | completed => exact .inl hassigned
  | errorRequeued => cases hassigned
  | errorFailed => cases hassigned
  | leaseRequeued => cases hassigned
  | leaseExpired => cases hassigned
  | leaseFailed => cases hassigned
  | queueExpired => exact .inl hassigned

theorem exec (h : References db) (hexec : OrbiGateway.exec db op = .ok (reply, db'))
    (hworker : ∀ id, op.workerId = some id → WorkerKnown db id) : References db' := by
  obtain ⟨hworkers, haliases⟩ := exec_frame hexec
  -- a row is an old one in its next version, or the one that a chat call has written
  have hrows : ∀ r' ∈ db'.requests.rows,
      (∃ r ∈ db.requests.rows, RowStep r op reply r' ∧ r'.AcceptedAs r) ∨
        ∃ call, WrittenBy db call r' ∧ r'.assignedTo = none := by
    intro r' hr'
    rw [exec_requests hexec, List.mem_append, List.mem_map] at hr'
    rcases hr' with ⟨r, hr, rfl⟩ | hnew
    · have hstep := exec_rowStep hexec hr
      exact .inl ⟨r, hr, hstep, (OrbiRequest.AcceptedAs.refl r).step hstep⟩
    · obtain ⟨newCall, project, project', -, rfl, hrow, -⟩ := exec_newRow hexec hnew
      obtain ⟨call, -, hwritten⟩ := exec_accepted hexec
      exact .inr ⟨call, hwritten, hrow.assignedTo⟩
  refine ⟨?_, ?_, ?_, ?_, RecordsOwned.exec h.usage hexec⟩
  · intro record' hrecord'
    obtain ⟨record, hrecord, hcolumns⟩ := exec_apiKey_cases hexec hrecord'
    obtain ⟨project, hproject, hid⟩ := h.keys record hrecord
    obtain ⟨project', hproject', hid'⟩ := exec_project_ids hexec hproject
    exact ⟨project', hproject', hid'.trans
      (hid.trans (congrArg (fun columns => columns.2.2) hcolumns))⟩
  · intro r' hr'
    have hfound : ∃ record ∈ db.apiKeys.rows,
        record.id = r'.apiKeyId ∧ record.projectId = r'.projectId := by
      rcases hrows r' hr' with ⟨r, hr, -, hsame⟩ | ⟨call, hwritten, -⟩
      · rw [hsame.apiKeyId, hsame.projectId]
        exact h.owners r hr
      · obtain ⟨apiKey, -, -, project, hproject, ⟨old, hold, hcolumns⟩, -, rfl⟩ := hwritten
        exact ⟨old, hold, (congrArg Prod.fst hcolumns).symm,
          (congrArg (fun columns => columns.2.2) hcolumns).symm.trans hproject⟩
    obtain ⟨record, hrecord, hid, hproject⟩ := hfound
    obtain ⟨record', hrecord', hcolumns⟩ := exec_apiKey_mem hexec hrecord
    exact ⟨record', hrecord', (congrArg Prod.fst hcolumns).trans hid,
      (congrArg (fun columns => columns.2.2) hcolumns).trans hproject⟩
  · intro r' hr'
    rw [ResolvedBy, haliases]
    rcases hrows r' hr' with ⟨r, hr, -, hsame⟩ | ⟨call, hwritten, -⟩
    · rw [hsame.modelAlias, hsame.resolvedModel, hsame.requiredCapabilities]
      exact h.resolved r hr
    · obtain ⟨apiKey, modelAlias, hmem, project, -, -, -, rfl⟩ := hwritten
      exact ⟨modelAlias, hmem, rfl, rfl, rfl⟩
  · intro r' hr' id hassigned
    rw [WorkerKnown, hworkers]
    rcases hrows r' hr' with ⟨r, hr, hstep, -⟩ | ⟨call, -, hnone⟩
    · rcases assignedTo_step hstep hassigned with hold | hclaims
      · exact h.assignees r hr id hold
      · exact hworker id hclaims
    · rw [hnone] at hassigned
      cases hassigned

end Exec

theorem step {e : Event} (h : References db) (hstep : Step db e db')
    (hworker : ∀ id, e.workerId = some id → WorkerKnown db id) : References db' := by
  cases hstep with
  | performed hexec => exact h.exec hexec hworker
  | failed => exact h
  | rescanned hperm =>
      exact ⟨h.keys, fun r hr => h.owners r (hperm.mem_iff.mp hr),
        fun r hr => h.resolved r (hperm.mem_iff.mp hr),
        fun r hr => h.assignees r (hperm.mem_iff.mp hr), h.usage.rescan hperm⟩

/-! ## Administration -/

theorem administered (h : References db) (hadmin : Administers db db') : References db' where
  keys record' hrecord' := by
    have hfound : ∃ project ∈ db.projects.rows, project.id = record'.projectId := by
      rcases hadmin.apiKey_cases hrecord' with ⟨record, hrecord, hcolumns⟩ | ⟨-, -, hknown⟩
      · have hproject : record'.projectId = record.projectId :=
          congrArg (fun columns => columns.1.2.2) hcolumns
        rw [hproject]
        exact h.keys record hrecord
      · exact hknown
    obtain ⟨project, hproject, hid⟩ := hfound
    exact ⟨project, hadmin.project_mem hproject, hid⟩
  owners r hr := by
    rw [hadmin.requests] at hr
    obtain ⟨record, hrecord, hid, hproject⟩ := h.owners r hr
    obtain ⟨record', hrecord', hcolumns⟩ := hadmin.apiKey_mem hrecord
    exact ⟨record', hrecord', (congrArg (fun columns => columns.1.1) hcolumns).trans hid,
      (congrArg (fun columns => columns.1.2.2) hcolumns).trans hproject⟩
  resolved r hr := by
    rw [hadmin.requests] at hr
    obtain ⟨modelAlias, hmem, hsame⟩ := h.resolved r hr
    exact ⟨modelAlias, hadmin.modelAliases hmem, hsame⟩
  assignees r hr id hassigned := by
    rw [hadmin.requests] at hr
    exact hadmin.workers (h.assignees r hr id hassigned)
  usage record hrecord := by
    rw [hadmin.usageRecords] at hrecord
    rw [hadmin.requests]
    exact h.usage record hrecord

end References

theorem references_of_coreRun {db₀ db : Db} {history : List (Option Event)}
    (hstart : References db₀) (hrun : CoreRun db₀ history db) : References db := by
  apply coreRun_invariant (I := fun _ db => References db) hrun hstart
  · intro history db e db' _ h hstep hworker
    exact h.step hstep hworker
  · intro history db db' _ h hadmin
    exact h.administered hadmin

end OrbiGateway
