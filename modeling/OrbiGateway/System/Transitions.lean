import OrbiGateway.Library.Outcome
import OrbiGateway.System.Operations

/-!
# What an operation does

One statement for each operation saying everything it can do to the database:
which rows it takes, how it leaves them, and which settlements it makes.
-/

namespace OrbiGateway

open Relational

/-! ## Settling project rows -/

/-- A settlement acting on one project row. -/
def Settlement.apply (settlement : Settlement) (project : Project) : Project :=
  if project.id = settlement.projectId then
    project.reconcile settlement.reservedTokens settlement.actualTokens
      settlement.budgetDay settlement.budgetMonth
  else project

@[simp] theorem Settlement.id_apply (settlement : Settlement) (project : Project) :
    (settlement.apply project).id = project.id := by
  unfold Settlement.apply
  split
  · exact Project.id_reconcile _ _ _ _ _
  · rfl

theorem Settlement.isActive_apply (settlement : Settlement) (project : Project) :
    (settlement.apply project).isActive = project.isActive := by
  unfold Settlement.apply
  split
  · exact Project.isActive_reconcile _ _ _ _ _
  · rfl

/-- A list of settlements acting on one project row, first to last. -/
def settleProject (settled : List Settlement) (project : Project) : Project :=
  settled.foldl (fun project settlement => settlement.apply project) project

@[simp] theorem id_settleProject (settled : List Settlement) :
    ∀ project : Project, (settleProject settled project).id = project.id := by
  induction settled with
  | nil =>
      intro project
      rfl
  | cons settlement settled ih =>
      intro project
      exact (ih _).trans (settlement.id_apply project)

theorem isActive_settleProject (settled : List Settlement) :
    ∀ project : Project, (settleProject settled project).isActive = project.isActive := by
  induction settled with
  | nil =>
      intro project
      rfl
  | cons settlement settled ih =>
      intro project
      exact (ih _).trans (settlement.isActive_apply project)

/-- A list of settlements acting on the project table. -/
def settleAll (settled : List Settlement) (projects : Table Project) :
    Table Project :=
  projects.mapRows ⟨settleProject settled, id_settleProject settled⟩

theorem settleAll_nil (projects : Table Project) : settleAll [] projects = projects := by
  apply Table.ext
  exact List.map_id _

theorem settleAll_settleAll (first second : List Settlement)
    (projects : Table Project) :
    settleAll second (settleAll first projects) =
      settleAll (first ++ second) projects := by
  unfold settleAll
  rw [Table.mapRows_mapRows]
  apply Table.ext
  simp [settleProject, List.foldl_append, Table.RowUpdate.andThen]

/-- `reconcile` changes the project table by one settlement. -/
theorem reconcile_spec {db db' : Db} (request : OrbiRequest) {actual : ℤ}
    (h : BudgetService.reconcile db request.projectId request.reservedTokens
      actual request.budgetDay request.budgetMonth = .ok db') :
    db' = { db with projects := settleAll [request.settledBy actual] db.projects } := by
  unfold BudgetService.reconcile at h
  split at h
  · cases h
  next project hfind =>
    cases h
    congr 1
    apply Table.ext
    simp only [Table.rows_put, settleAll, Table.rows_mapRows]
    apply List.map_congr_left
    intro row hrow
    have hid : project.id = request.projectId := Table.key_of_find hfind
    by_cases hkey : row.id = project.id
    · have heq : row = project :=
        db.projects.eq_of_key_eq hrow (Table.mem_of_find hfind) hkey
      subst heq
      simp [settleProject, Settlement.apply, OrbiRequest.settledBy, hid]
    · have hne : row.id ≠ request.projectId := by
        rwa [← hid]
      simp [settleProject, Settlement.apply, OrbiRequest.settledBy, hkey, hne]

theorem reconcile_of_known {db : Db} (request : OrbiRequest) (actual : ℤ)
    (hknown : ∃ project ∈ db.projects.rows, project.id = request.projectId) :
    BudgetService.reconcile db request.projectId request.reservedTokens actual
        request.budgetDay request.budgetMonth =
      .ok { db with projects := settleAll [request.settledBy actual] db.projects } := by
  obtain ⟨project, hmem, hid⟩ := hknown
  have hfind : db.projects.find request.projectId = some project :=
    Table.find_eq_some_iff.mpr ⟨hmem, hid⟩
  have hok : BudgetService.reconcile db request.projectId request.reservedTokens actual
      request.budgetDay request.budgetMonth = .ok { db with
        projects := db.projects.put (project.reconcile request.reservedTokens actual
          request.budgetDay request.budgetMonth) } := by
    simp only [BudgetService.reconcile, hfind]
  rw [hok, reconcile_spec request hok]

/-- The release loop settles its rows at nothing, in order. -/
theorem releaseAll_spec (rows : List OrbiRequest) :
    ∀ {db db' : Db}, QueueService.releaseAll db rows = .ok db' →
      db' = { db with
        projects := settleAll (rows.map fun row => row.settledBy 0) db.projects } := by
  induction rows with
  | nil =>
      intro db db' h
      cases h
      simp [settleAll_nil]
  | cons row rows ih =>
      intro db db' h
      simp only [QueueService.releaseAll, List.foldlM_cons] at h
      obtain ⟨mid, hrow, hrest⟩ := Except.bind_eq_ok_iff.mp h
      have hmid := reconcile_spec row hrow
      have hdb := ih hrest
      subst hmid
      simp only [hdb, settleAll_settleAll]
      rfl

theorem releaseAll_of_known (rows : List OrbiRequest) :
    ∀ {db : Db}, (∀ row ∈ rows, ∃ project ∈ db.projects.rows, project.id = row.projectId) →
      ∃ db', QueueService.releaseAll db rows = .ok db' := by
  induction rows with
  | nil =>
      intro db _
      exact ⟨db, rfl⟩
  | cons row rows ih =>
      intro db hknown
      have hrow := reconcile_of_known row 0 (hknown row List.mem_cons_self)
      obtain ⟨db', hrest⟩ := @ih
        { db with projects := settleAll [row.settledBy 0] db.projects } (by
          intro row' hrow'
          obtain ⟨project, hproject, hid⟩ := hknown row' (List.mem_cons_of_mem _ hrow')
          exact ⟨_, List.mem_map_of_mem hproject,
            (id_settleProject [row.settledBy 0] project).trans hid⟩)
      refine ⟨db', ?_⟩
      simp only [QueueService.releaseAll, List.foldlM_cons]
      exact Except.bind_eq_ok_iff.mpr ⟨_, hrow, hrest⟩

/-! ## Request rows -/

/-- The version of a request row after a committed operation. -/
def OrbiRequest.after (request : OrbiRequest) : Op → Reply → OrbiRequest
  | .claim worker leaseSeconds now, .claimed (some winner) =>
      if request.id = winner.id then request.claimed worker leaseSeconds now
      else request
  | .submitResult worker payload now, _ =>
      if request.isHeldBy payload.requestId worker.id then
        request.completed (.obj payload.result) payload.inputTokens
          payload.outputTokens now
      else request
  | .submitError worker payload, _ =>
      if request.isHeldBy payload.requestId worker.id then
        if request.mayRetry payload.retryable then
          (request.withError payload.errorCode payload.message).requeued
        else (request.withError payload.errorCode payload.message).failed
      else request
  | .recover now, _ =>
      if request.isRetryable now then
        if request.leaseRequeued.isQueueExpired now then
          request.leaseRequeued.queueExpired
        else request.leaseRequeued
      else if request.isExhausted now then request.leaseFailed
      else if request.isQueueExpired now then request.queueExpired
      else request
  | _, _ => request

/-- The rows an operation adds. -/
def Reply.newRows : Reply → List OrbiRequest
  | .chat (.queued record) => [record]
  | _ => []

theorem OrbiRequest.isHeldBy_iff {request : OrbiRequest} {requestId workerId : UUID} :
    request.isHeldBy requestId workerId = true ↔
      request.id = requestId ∧ request.assignedTo = some workerId ∧
        request.result = none ∧ request.isLive = true := by
  simp [isHeldBy, and_assoc]

theorem filter_isHeldBy {db : Db} {request : OrbiRequest} {requestId workerId : UUID}
    (hmem : request ∈ db.requests.rows)
    (hheld : request.isHeldBy requestId workerId = true) :
    (db.requests.rows.filter fun r => r.isHeldBy requestId workerId) = [request] := by
  apply Table.filter_eq_singleton hmem hheld
  intro r _ hr
  have hid := (OrbiRequest.isHeldBy_iff.mp hheld).1
  have hid' := (OrbiRequest.isHeldBy_iff.mp hr).1
  exact hid'.trans hid.symm

theorem filter_isHeldBy_and {db : Db} {request : OrbiRequest}
    {requestId workerId : UUID} (hmem : request ∈ db.requests.rows)
    (hheld : request.isHeldBy requestId workerId = true) (q : OrbiRequest → Bool) :
    (db.requests.rows.filter fun r => r.isHeldBy requestId workerId && q r) =
      if q request then [request] else [] := by
  calc
    (db.requests.rows.filter fun r => r.isHeldBy requestId workerId && q r) =
        (db.requests.rows.filter fun r => r.isHeldBy requestId workerId).filter q := by
      rw [List.filter_filter]
      congr 1
      funext r
      exact Bool.and_comm _ _
    _ = if q request then [request] else [] := by
      rw [filter_isHeldBy hmem hheld, List.filter_singleton, cond_eq_ite]

theorem settlements_of_not_held {db : Db} {requestId workerId : UUID}
    (hno : ∀ r ∈ db.requests.rows, r.isHeldBy requestId workerId = false)
    (q : OrbiRequest → Bool) (f : OrbiRequest → Settlement) :
    (db.requests.rows.filter fun r => r.isHeldBy requestId workerId && q r).map f = [] := by
  rw [List.map_eq_nil_iff, List.filter_eq_nil_iff]
  intro r hr
  simp [hno r hr]

theorem settlements_submitResult {db : Db} {request : OrbiRequest} {worker : Worker}
    {payload : WorkerResultRequest} (hmem : request ∈ db.requests.rows)
    (hheld : request.isHeldBy payload.requestId worker.id = true) (now : Timestamp) :
    settlements db (.submitResult worker payload now) =
      [request.settledBy (payload.inputTokens + payload.outputTokens)] := by
  simp only [settlements]
  exact congrArg (List.map _) (filter_isHeldBy hmem hheld)

theorem settlements_submitResult_of_not_held {db : Db} {worker : Worker}
    {payload : WorkerResultRequest}
    (hno : ∀ r ∈ db.requests.rows, r.isHeldBy payload.requestId worker.id = false)
    (now : Timestamp) : settlements db (.submitResult worker payload now) = [] := by
  simpa [settlements] using settlements_of_not_held hno (fun _ => true)
    fun r => r.settledBy (payload.inputTokens + payload.outputTokens)

theorem rows_put_of_isHeldBy {db : Db} {request new : OrbiRequest}
    {requestId workerId : UUID} (hmem : request ∈ db.requests.rows)
    (hheld : request.isHeldBy requestId workerId = true)
    (hid : new.id = request.id) (f : OrbiRequest → OrbiRequest)
    (hf : f request = new)
    (hkeep : ∀ r : OrbiRequest, r.isHeldBy requestId workerId = false → f r = r) :
    (db.requests.put new).rows = db.requests.rows.map f := by
  rw [Table.rows_put]
  apply List.map_congr_left
  intro r hr
  by_cases hkey : r.id = request.id
  · have heq : r = request := db.requests.eq_of_key_eq hr hmem hkey
    subst heq
    simp [hid, hf]
  · have hno : r.isHeldBy requestId workerId = false := by
      by_contra hyes
      have hr' := (OrbiRequest.isHeldBy_iff.mp (by simpa using hyes)).1
      exact hkey (hr'.trans (OrbiRequest.isHeldBy_iff.mp hheld).1.symm)
    simp [hid, hkey, hkeep r hno]

/-! ## One statement for each operation -/

namespace QueueService

/-- A selected request is claimable, free and first in the claim order. -/
theorem selectClaimable_spec {db : Db} {worker : Worker} {now : Timestamp}
    {locked : UUID → Bool} {request : OrbiRequest}
    (h : selectClaimable db worker now locked = some request) :
    request ∈ db.requests.rows ∧ request.isClaimable worker now = true ∧
      locked request.id = false ∧
      ∀ other ∈ db.requests.rows, other.isClaimable worker now = true →
        locked other.id = false → request.claimOrder ≤ other.claimOrder := by
  have hmem := List.mem_filter.mp (List.argmin_mem h)
  simp only [Bool.and_eq_true, Bool.not_eq_true'] at hmem
  refine ⟨hmem.1, hmem.2.1, hmem.2.2, ?_⟩
  intro other hother hclaimable hfree
  apply List.le_of_mem_argmin _ h
  rw [List.mem_filter]
  exact ⟨hother, by simp [hclaimable, hfree]⟩

theorem selectClaimable_none {db : Db} {worker : Worker} {now : Timestamp}
    {locked : UUID → Bool} (h : selectClaimable db worker now locked = none) :
    ∀ request ∈ db.requests.rows, request.isClaimable worker now = true →
      locked request.id = true := by
  intro request hmem hclaimable
  have hempty := List.argmin_eq_none.mp h
  have hno := List.filter_eq_nil_iff.mp hempty request hmem
  simpa [hclaimable] using hno

/-- A claim assigns the selected request, or finds none and changes nothing. -/
theorem claimNext_cases {db db' : Db} {worker : Worker} {leaseSeconds : ℤ}
    {now : Timestamp} {locked : UUID → Bool} {reply : Option OrbiRequest}
    (h : claimNext db worker leaseSeconds now locked = (reply, db')) :
    (selectClaimable db worker now locked = none ∧ reply = none ∧ db' = db) ∨
      ∃ request, selectClaimable db worker now locked = some request ∧
        reply = some (request.claimed worker leaseSeconds now) ∧
        db' = { db with requests :=
          db.requests.put (request.claimed worker leaseSeconds now) } := by
  unfold claimNext at h
  split at h
  next hnone =>
    cases h
    exact Or.inl ⟨hnone, rfl, rfl⟩
  next request hsome =>
    cases h
    exact Or.inr ⟨request, hsome, rfl, rfl⟩

/-- The usage record of an accepted result. -/
def usageRecordOf (request : OrbiRequest) (worker : Worker)
    (inputTokens outputTokens latencyMs : ℤ) : UsageRecord where
  requestId := request.id
  projectId := request.projectId
  apiKeyId := request.apiKeyId
  workerId := some worker.id
  providerType := some worker.providerType
  modelId := request.resolvedModel
  inputTokens := inputTokens
  outputTokens := outputTokens
  latencyMs := some latencyMs

/-- The key totals after an accepted result. -/
def countUse (request : OrbiRequest) (totalTokens : ℤ) (apiKeys : Table APIKey) :
    Table APIKey :=
  apiKeys.updateWhere (fun record => record.id == request.apiKeyId)
    ⟨fun record => record.countUse totalTokens, fun _ => rfl⟩

/-- A result submission is refused and changes nothing, or it completes the one
held row, settles its reservation, counts the key's use and adds the record. -/
theorem commitResult_cases {db db' : Db} {requestId : UUID} {worker : Worker}
    {result : Json} {inputTokens outputTokens latencyMs : ℤ} {now : Timestamp}
    {accepted : Bool}
    (h : commitResult db requestId worker result inputTokens outputTokens
      latencyMs now = .ok (accepted, db')) :
    (accepted = false ∧ db' = db ∧
      ∀ r ∈ db.requests.rows, r.isHeldBy requestId worker.id = false) ∨
      ∃ request ∈ db.requests.rows, ∃ usageRecords,
        accepted = true ∧ request.isHeldBy requestId worker.id = true ∧
        db.usageRecords.insert (usageRecordOf request worker inputTokens
          outputTokens latencyMs) = some usageRecords ∧
        db' = { db with
          requests := db.requests.updateWhere
            (fun r => r.isHeldBy requestId worker.id)
            ⟨fun r => r.completed result inputTokens outputTokens now, fun _ => rfl⟩
          projects := settleAll [request.settledBy (inputTokens + outputTokens)]
            db.projects
          apiKeys := countUse request (inputTokens + outputTokens) db.apiKeys
          usageRecords := usageRecords } := by
  unfold commitResult at h
  simp only at h
  split at h
  next hnone =>
    cases h
    refine Or.inl ⟨rfl, rfl, ?_⟩
    intro r hr
    have hempty := List.map_eq_nil_iff.mp hnone
    simpa using List.filter_eq_nil_iff.mp hempty r hr
  next row rest hrows =>
    have hrow := List.mem_cons_self (a := row) (l := rest)
    rw [← hrows] at hrow
    obtain ⟨request, hmem, hheld, rfl⟩ := Table.mem_returning.mp hrow
    obtain ⟨mid, hsettle, hrest⟩ := Except.bind_eq_ok_iff.mp h
    have hmid := reconcile_spec
      (request.completed result inputTokens outputTokens now) hsettle
    subst hmid
    have hid := (OrbiRequest.isHeldBy_iff.mp hheld).1
    subst hid
    split at hrest
    · cases hrest
    next usageRecords hinsert =>
      cases hrest
      exact Or.inr ⟨request, hmem, usageRecords, rfl, hheld, hinsert, rfl⟩

/-- Conversely, the result of a held row of a known project is accepted, if the request
has no usage record yet. -/
theorem commitResult_of_isHeldBy {db : Db} {requestId : UUID} {worker : Worker}
    {inputTokens outputTokens latencyMs : ℤ} {request : OrbiRequest}
    {usageRecords : Table UsageRecord} (result : Json) (now : Timestamp)
    (hmem : request ∈ db.requests.rows)
    (hheld : request.isHeldBy requestId worker.id = true)
    (hknown : ∃ project ∈ db.projects.rows, project.id = request.projectId)
    (hinsert : db.usageRecords.insert (usageRecordOf request worker inputTokens
      outputTokens latencyMs) = some usageRecords) :
    ∃ db', commitResult db requestId worker result inputTokens outputTokens latencyMs now =
      .ok (true, db') := by
  have hid := (OrbiRequest.isHeldBy_iff.mp hheld).1
  subst hid
  have hrows : db.requests.returning (fun r => r.isHeldBy request.id worker.id)
      ⟨fun r => r.completed result inputTokens outputTokens now, fun _ => rfl⟩ =
      [request.completed result inputTokens outputTokens now] := by
    rw [Table.returning, filter_isHeldBy hmem hheld]
    rfl
  have hsettle : ∀ requests, BudgetService.reconcile { db with requests := requests }
      request.projectId request.reservedTokens (inputTokens + outputTokens)
      request.budgetDay request.budgetMonth =
      .ok { db with
        requests := requests
        projects := settleAll [request.settledBy (inputTokens + outputTokens)] db.projects } :=
    fun requests => @reconcile_of_known { db with requests := requests } request
      (inputTokens + outputTokens) hknown
  unfold commitResult
  simp only [hrows]
  have hinsert' := hinsert
  simp only [usageRecordOf] at hinsert'
  simp only [bind, Except.bind, OrbiRequest.completed, hsettle, hinsert']
  exact ⟨_, rfl⟩

/-- An error report is refused and changes nothing, or it requeues the held row,
or it fails the held row and releases its reservation. -/
theorem recordError_cases {db db' : Db} {requestId : UUID} {worker : Worker}
    {retryable : Bool} {errorCode message : String} {accepted : Bool}
    (h : recordError db requestId worker retryable errorCode message =
      .ok (accepted, db')) :
    (accepted = false ∧ db' = db ∧
      ∀ r ∈ db.requests.rows, r.isHeldBy requestId worker.id = false) ∨
      ∃ request ∈ db.requests.rows, accepted = true ∧
        request.isHeldBy requestId worker.id = true ∧
        ((request.mayRetry retryable = true ∧
          db' = { db with requests :=
            db.requests.put (request.withError errorCode message).requeued }) ∨
        (request.mayRetry retryable = false ∧
          db' = { db with
            requests := db.requests.put (request.withError errorCode message).failed
            projects := settleAll [request.settledBy 0] db.projects })) := by
  unfold recordError at h
  split at h
  next hnone =>
    cases h
    refine Or.inl ⟨rfl, rfl, ?_⟩
    intro r hr
    simpa using List.find?_eq_none.mp hnone r hr
  next request hfind =>
    have hmem := List.mem_of_find?_eq_some hfind
    have hheld : request.isHeldBy requestId worker.id = true := by
      simpa using List.find?_some hfind
    refine Or.inr ⟨request, hmem, ?_⟩
    simp only at h
    split at h
    next hretry =>
      cases h
      exact ⟨rfl, hheld, Or.inl ⟨hretry, rfl⟩⟩
    next hfinal =>
      obtain ⟨mid, hsettle, hrest⟩ := Except.bind_eq_ok_iff.mp h
      have hmid := reconcile_spec (request.withError errorCode message).failed hsettle
      cases hrest
      exact ⟨rfl, hheld, Or.inr ⟨Bool.eq_false_of_not_eq_true hfinal, hmid⟩⟩

theorem recordError_of_isHeldBy {db : Db} {requestId : UUID} {worker : Worker}
    {retryable : Bool} {request : OrbiRequest} (errorCode message : String)
    (hmem : request ∈ db.requests.rows)
    (hheld : request.isHeldBy requestId worker.id = true)
    (hfinal : request.mayRetry retryable = false)
    (hknown : ∃ project ∈ db.projects.rows, project.id = request.projectId) :
    ∃ db', recordError db requestId worker retryable errorCode message =
      .ok (true, db') := by
  have hfind : db.requests.rows.find? (fun r => r.isHeldBy requestId worker.id) =
      some request := by
    rw [← List.head?_filter, filter_isHeldBy hmem hheld]
    rfl
  have hfinal' : (request.withError errorCode message).mayRetry retryable = false := hfinal
  have hsettle := @reconcile_of_known
    { db with requests := db.requests.put (request.withError errorCode message).failed }
    (request.withError errorCode message).failed 0 hknown
  unfold recordError
  simp only [hfind, hfinal', Bool.false_eq_true, if_false, BudgetService.release, hsettle]
  exact ⟨_, rfl⟩

end QueueService

/-! ## Lease recovery -/

namespace OrbiRequest

@[simp] theorem isExhausted_leaseRequeued (request : OrbiRequest)
    (now : Timestamp) : request.leaseRequeued.isExhausted now = false := rfl

@[simp] theorem isQueueExpired_leaseFailed (request : OrbiRequest)
    (now : Timestamp) : request.leaseFailed.isQueueExpired now = false := rfl

theorem isExhausted_of_isRetryable {request : OrbiRequest} {now : Timestamp}
    (h : request.isRetryable now = true) : request.isExhausted now = false := by
  simp only [isRetryable, isExhausted, Bool.and_eq_true, decide_eq_true_eq] at h ⊢
  simp [h.1, h.2]

theorem isLive_of_leaseLapsed {request : OrbiRequest} {now : Timestamp}
    (h : request.leaseLapsed now = true) : request.isLive = true := by
  simp only [leaseLapsed, Bool.and_eq_true] at h
  exact h.1.1

theorem status_of_isQueueExpired {request : OrbiRequest} {now : Timestamp}
    (h : request.isQueueExpired now = true) : request.status = .queued := by
  simp only [isQueueExpired, Bool.and_eq_true, beq_iff_eq] at h
  exact h.1.1

theorem not_isLive_of_queued {request : OrbiRequest}
    (h : request.status = .queued) : request.isLive = false := by
  simp [isLive, liveStatuses, h]

theorem isQueueExpired_of_isExhausted {request : OrbiRequest} {now : Timestamp}
    (h : request.isExhausted now = true) : request.isQueueExpired now = false := by
  by_contra hyes
  have hqueued := status_of_isQueueExpired (by simpa using hyes)
  simp only [isExhausted, Bool.and_eq_true] at h
  have hlive := isLive_of_leaseLapsed h.1
  rw [not_isLive_of_queued hqueued] at hlive
  cases hlive

/-- The first `UPDATE` of recovery on one row. -/
def afterRetry (request : OrbiRequest) (now : Timestamp) : OrbiRequest :=
  if request.isRetryable now then request.leaseRequeued else request

/-- The first two on one row. -/
def afterExhaustion (request : OrbiRequest) (now : Timestamp) : OrbiRequest :=
  if (request.afterRetry now).isExhausted now then
    (request.afterRetry now).leaseFailed
  else request.afterRetry now

theorem isExhausted_afterRetry (request : OrbiRequest) (now : Timestamp) :
    (request.afterRetry now).isExhausted now = request.isExhausted now := by
  unfold afterRetry
  split
  next h => rw [isExhausted_leaseRequeued, isExhausted_of_isRetryable h]
  · rfl

theorem isQueueExpired_afterExhaustion (request : OrbiRequest) (now : Timestamp) :
    (request.afterExhaustion now).isQueueExpired now =
      request.expiresInRecovery now := by
  rw [afterExhaustion, isExhausted_afterRetry]
  by_cases hretry : request.isRetryable now
  · simp [isExhausted_of_isRetryable hretry, afterRetry, expiresInRecovery, hretry]
  · by_cases hexhausted : request.isExhausted now
    · simp [hexhausted, expiresInRecovery, hretry,
        isQueueExpired_of_isExhausted hexhausted]
    · simp [hexhausted, expiresInRecovery, hretry, afterRetry]

theorem after_recover (request : OrbiRequest) (now : Timestamp) (reply : Reply) :
    (if (request.afterExhaustion now).isQueueExpired now then
        (request.afterExhaustion now).queueExpired
      else request.afterExhaustion now) = request.after (.recover now) reply := by
  rw [isQueueExpired_afterExhaustion, afterExhaustion, isExhausted_afterRetry]
  by_cases hretry : request.isRetryable now
  · simp [isExhausted_of_isRetryable hretry, afterRetry, expiresInRecovery, hretry,
      after]
  · by_cases hexhausted : request.isExhausted now
    · simp [hexhausted, expiresInRecovery, hretry, afterRetry, after,
        isQueueExpired_of_isExhausted hexhausted]
    · simp [hexhausted, expiresInRecovery, hretry, afterRetry, after]

theorem settledBy_afterRetry (request : OrbiRequest) (now : Timestamp) :
    (request.afterRetry now).settledBy 0 = request.settledBy 0 := by
  unfold afterRetry
  split <;> rfl

theorem settledBy_afterExhaustion (request : OrbiRequest) (now : Timestamp) :
    (request.afterExhaustion now).settledBy 0 = request.settledBy 0 := by
  rw [afterExhaustion, ← settledBy_afterRetry request now]
  split <;> rfl

end OrbiRequest

namespace QueueService

/-- The request table after the first update of recovery, and after the second. -/
def afterRetry (requests : Table OrbiRequest) (now : Timestamp) : Table OrbiRequest :=
  requests.updateWhere (·.isRetryable now) requeueUpdate

def afterExhaustion (requests : Table OrbiRequest) (now : Timestamp) :
    Table OrbiRequest :=
  (afterRetry requests now).updateWhere (·.isExhausted now) failUpdate

theorem rows_afterRetry (requests : Table OrbiRequest) (now : Timestamp) :
    (afterRetry requests now).rows =
      requests.rows.map fun r => r.afterRetry now := rfl

theorem rows_afterExhaustion (requests : Table OrbiRequest) (now : Timestamp) :
    (afterExhaustion requests now).rows =
      requests.rows.map fun r => r.afterExhaustion now := by
  rw [afterExhaustion, Table.rows_updateWhere, rows_afterRetry, List.map_map]
  rfl

theorem rows_after_recover (requests : Table OrbiRequest) (now : Timestamp)
    (reply : Reply) :
    ((afterExhaustion requests now).updateWhere (·.isQueueExpired now)
      expireUpdate).rows = requests.rows.map fun r => r.after (.recover now) reply := by
  rw [Table.rows_updateWhere, rows_afterExhaustion, List.map_map]
  apply List.map_congr_left
  intro r _
  exact r.after_recover now reply

theorem settledBy_recovered (db : Db) (now : Timestamp) :
    ((afterRetry db.requests now).returning (·.isExhausted now) failUpdate ++
        (afterExhaustion db.requests now).returning (·.isQueueExpired now)
          expireUpdate).map (fun row => row.settledBy 0) =
      settlements db (.recover now) := by
  simp only [Table.returning, rows_afterRetry, rows_afterExhaustion,
    List.filter_map, List.map_append, List.map_map, Function.comp_def, settlements,
    OrbiRequest.isExhausted_afterRetry, OrbiRequest.isQueueExpired_afterExhaustion]
  congr 1
  · apply List.map_congr_left
    intro r _
    exact r.settledBy_afterRetry now
  · apply List.map_congr_left
    intro r _
    exact r.settledBy_afterExhaustion now

/-- Recovery maps every row to its `after` and settles the ended rows at nothing,
the exhausted ones first. -/
theorem recoverExpiredLeases_spec {db db' : Db} {now : Timestamp} {count : ℕ}
    (h : recoverExpiredLeases db now = .ok (count, db')) :
    ∃ requests : Table OrbiRequest,
      requests.rows = db.requests.rows.map
        (fun r => r.after (.recover now) (.recovered count)) ∧
      db' = { db with
        requests := requests
        projects := settleAll (settlements db (.recover now)) db.projects } := by
  obtain ⟨mid, hrelease, hpure⟩ := Except.bind_eq_ok_iff.mp h
  have hmid := releaseAll_spec _ hrelease
  rw [Except.pure_eq_ok_iff] at hpure
  cases hpure
  refine ⟨_, rows_after_recover db.requests now _, ?_⟩
  rw [hmid, ← settledBy_recovered]
  rfl

theorem recoverExpiredLeases_count {db db' : Db} {now : Timestamp} {count : ℕ}
    (h : recoverExpiredLeases db now = .ok (count, db')) :
    count = (db.requests.rows.filter (·.isRetryable now)).length := by
  obtain ⟨mid, -, hpure⟩ := Except.bind_eq_ok_iff.mp h
  rw [Except.pure_eq_ok_iff] at hpure
  cases hpure
  exact List.length_map _

theorem recoverExpiredLeases_of_known {db : Db} (now : Timestamp)
    (hknown : ∀ r ∈ db.requests.rows, ∃ project ∈ db.projects.rows,
      project.id = r.projectId) :
    ∃ count db', recoverExpiredLeases db now = .ok (count, db') := by
  have hreleased : ∀ row ∈ (afterRetry db.requests now).returning (·.isExhausted now)
        failUpdate ++
      (afterExhaustion db.requests now).returning (·.isQueueExpired now) expireUpdate,
      ∃ project ∈ db.projects.rows, project.id = row.projectId := by
    intro row hrow
    rcases List.mem_append.mp hrow with hrow | hrow
    · obtain ⟨r', hr', -, rfl⟩ := Table.mem_returning.mp hrow
      rw [rows_afterRetry] at hr'
      obtain ⟨r, hr, rfl⟩ := List.mem_map.mp hr'
      obtain ⟨project, hproject, hid⟩ := hknown r hr
      exact ⟨project, hproject, hid.trans
        (congrArg Settlement.projectId (r.settledBy_afterRetry now)).symm⟩
    · obtain ⟨r', hr', -, rfl⟩ := Table.mem_returning.mp hrow
      rw [rows_afterExhaustion] at hr'
      obtain ⟨r, hr, rfl⟩ := List.mem_map.mp hr'
      obtain ⟨project, hproject, hid⟩ := hknown r hr
      exact ⟨project, hproject, hid.trans
        (congrArg Settlement.projectId (r.settledBy_afterExhaustion now)).symm⟩
  obtain ⟨db', hrelease⟩ := @releaseAll_of_known _
    { db with requests :=
      (afterExhaustion db.requests now).updateWhere (·.isQueueExpired now) expireUpdate }
    hreleased
  exact ⟨_, db', Except.bind_eq_ok_iff.mpr ⟨db', hrelease, rfl⟩⟩

end QueueService

/-! ## Chat acceptance -/

/-- A reservation for a chat call locks the key's project and stores the row that
`Project.reserve` computes. -/
theorem reserveForChat_spec {db db' : Db} {projectId : UUID} {tokens : ℤ}
    {today : Date} {project' : Project} {budgetDay budgetMonth : Date}
    (h : reserveForChat db projectId tokens today =
      .ok ((project', budgetDay, budgetMonth), db')) :
    ∃ project, db.projects.find projectId = some project ∧
      project.reserve tokens today = .ok project' ∧
      budgetDay = today ∧ budgetMonth = today.replaceDayOne ∧
      db' = { db with projects := db.projects.put project' } := by
  have hreserve : BudgetService.reserve db projectId tokens today =
      .ok ((project', budgetDay, budgetMonth), db') := by
    unfold reserveForChat at h
    split at h
    · cases h
    · exact h
  obtain ⟨project, reserved, hfind, hproject, hresult, rfl⟩ :=
    BudgetService.reserve_spec hreserve
  cases hresult
  exact ⟨project, hfind, hproject, rfl, rfl, rfl⟩

theorem reserveForChat_of_reserve {db : Db} {projectId : UUID} {tokens : ℤ} {today : Date}
    {project project' : Project} (hfind : db.projects.find projectId = some project)
    (hreserve : project.reserve tokens today = .ok project') :
    reserveForChat db projectId tokens today =
      .ok ((project', today, today.replaceDayOne),
        { db with projects := db.projects.put project' }) := by
  simp only [reserveForChat, BudgetService.reserve, hfind, hreserve, bind, Except.bind, pure,
    Except.pure]

theorem insertRequest_spec {db db' : Db} {record : OrbiRequest}
    (h : insertRequest db record = .ok db') :
    pairTaken db record = false ∧ ∃ requests,
      db.requests.insert record = some requests ∧
      db' = { db with requests := requests } := by
  unfold insertRequest at h
  split at h
  · cases h
  next hpair =>
    split at h
    · cases h
    next requests hinsert =>
      cases h
      exact ⟨Bool.eq_false_of_not_eq_true hpair, requests, hinsert, rfl⟩

/-- The part of an accepted call after authentication: `record` is the row it
queues, `project` and `project'` the key's project before and after. -/
structure Queues (db db' : Db) (apiKey : APIKey) (call : ChatCall)
    (record : OrbiRequest) (project project' : Project) : Prop where
  noExisting : findExisting db apiKey.id call.idempotencyKey = none
  findProject : db.projects.find apiKey.projectId = some project
  reserve : project.reserve (reservedTokensOf call.payload) call.readings.today =
    .ok project'
  record_eq : ∃ modelAlias, findAlias db call.payload.model = some modelAlias ∧
    record = newRequest call apiKey modelAlias project' call.readings.today
      call.readings.today.replaceDayOne
  insert : db.requests.insert record = some db'.requests
  db_eq : db' = { db with
    projects := db.projects.put project'
    requests := db'.requests }

/-- A chat call that commits answers from the table and leaves it alone, or queues
one new request on one reservation. -/
theorem createChatCompletion_cases {db db' : Db} {apiKey : APIKey}
    {call : ChatCall} {reply : ChatReply}
    (h : createChatCompletion db apiKey call = .ok (reply, db')) :
    checkChatCall call = .ok () ∧
      ((∃ existing, findExisting db apiKey.id call.idempotencyKey = some existing ∧
        reply = existingReply existing ∧ db' = db) ∨
      ∃ record project project', reply = .queued record ∧
        Queues db db' apiKey call record project project') := by
  unfold createChatCompletion at h
  obtain ⟨⟨⟩, hcheck, h⟩ := Except.bind_eq_ok_iff.mp h
  refine ⟨hcheck, ?_⟩
  split at h
  next existing hexisting =>
    rw [Except.pure_eq_ok_iff] at h
    cases h
    exact Or.inl ⟨existing, hexisting, rfl, rfl⟩
  next hnone =>
    split at h
    · cases h
    next modelAlias halias =>
      obtain ⟨⟨⟨project', budgetDay, budgetMonth⟩, mid⟩, hreserve, h⟩ :=
        Except.bind_eq_ok_iff.mp h
      obtain ⟨final, hinsert, h⟩ := Except.bind_eq_ok_iff.mp h
      rw [Except.pure_eq_ok_iff] at h
      cases h
      obtain ⟨project, hfind, hproject, rfl, rfl, rfl⟩ :=
        reserveForChat_spec hreserve
      obtain ⟨-, requests, hrequests, rfl⟩ := insertRequest_spec hinsert
      exact Or.inr ⟨_, project, project', rfl, hnone, hfind, hproject,
        ⟨modelAlias, halias, rfl⟩, hrequests, rfl⟩

theorem createChatCompletion_of_insert {db : Db} {apiKey : APIKey} {call : ChatCall}
    {modelAlias : ModelAlias} {project : Project} {budgetDay budgetMonth : Date}
    {requests : Table OrbiRequest} (hcheck : checkChatCall call = .ok ())
    (hnone : findExisting db apiKey.id call.idempotencyKey = none)
    (halias : findAlias db call.payload.model = some modelAlias)
    (hreserve : reserveForChat db apiKey.projectId (reservedTokensOf call.payload)
        call.readings.today =
      .ok ((project, budgetDay, budgetMonth),
        { db with projects := db.projects.put project }))
    (hinsert : db.requests.insert
      (newRequest call apiKey modelAlias project budgetDay budgetMonth) = some requests) :
    createChatCompletion db apiKey call =
      .ok (.queued (newRequest call apiKey modelAlias project budgetDay budgetMonth),
        { db with
          projects := db.projects.put project
          requests := requests }) := by
  have htaken : pairTaken { db with projects := db.projects.put project }
      (newRequest call apiKey modelAlias project budgetDay budgetMonth) = false :=
    congrArg Option.isSome hnone
  have hinsert' : ({ db with projects := db.projects.put project } : Db).requests.insert
      (newRequest call apiKey modelAlias project budgetDay budgetMonth) = some requests :=
    hinsert
  simp only [createChatCompletion, hcheck, hnone, halias, hreserve, insertRequest,
    htaken, hinsert', bind, Except.bind, pure, Except.pure, Bool.false_eq_true, if_false]

/-- The same for a call from authentication to commit: the key row is written as
well, and nothing else changes. -/
theorem acceptChat_cases {db db' : Db} {call : ChatCall} {reply : ChatReply}
    (h : acceptChat db call = .ok (reply, db')) :
    ∃ apiKey mid, requireApiKey db call.key call.keyReadings = .ok (apiKey, mid) ∧
      requireApiScope "chat" apiKey = .ok () ∧
      mid = { db with apiKeys := db.apiKeys.put apiKey } ∧
      ((∃ existing, findExisting mid apiKey.id call.idempotencyKey = some existing ∧
        reply = existingReply existing ∧ db' = mid) ∨
      ∃ record project project', reply = .queued record ∧
        Queues mid db' apiKey call record project project') := by
  unfold acceptChat at h
  obtain ⟨⟨apiKey, mid⟩, hkey, h⟩ := Except.bind_eq_ok_iff.mp h
  obtain ⟨⟨⟩, hscope, h⟩ := Except.bind_eq_ok_iff.mp h
  obtain ⟨-, -, -, -, -, hmid⟩ := requireApiKey_spec hkey
  exact ⟨apiKey, mid, hkey, hscope, hmid, (createChatCompletion_cases h).2⟩

end OrbiGateway
