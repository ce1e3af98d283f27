import OrbiGateway.System.Transitions

/-!
# The effect of a committed operation on each table

Every request row becomes its `after`, which is one of the transitions of
`RowStep`; new rows come from accepted chat calls only; and the project rows
change by the listed settlements or by one reservation.
-/

namespace OrbiGateway

open Relational

/-- The row that an accepted chat call queues, as far as the queue and the budget
read it. -/
structure NewRow (db : Db) (call : ChatCall) (record : OrbiRequest)
    (project project' : Project) : Prop where
  fresh : ∀ r ∈ db.requests.rows, r.id ≠ record.id
  status : record.status = .queued
  assignedTo : record.assignedTo = none
  leaseExpires : record.leaseExpires = none
  retryCount : record.retryCount = 0
  maxRetries : record.maxRetries = 3
  result : record.result = none
  inputTokens : record.inputTokens = none
  outputTokens : record.outputTokens = none
  budgetDay : record.budgetDay = call.readings.today
  budgetMonth : record.budgetMonth = call.readings.today.replaceDayOne
  findProject : db.projects.find record.projectId = some project
  reserve : project.reserve record.reservedTokens record.budgetDay = .ok project'

theorem Queues.newRow {db db' : Db} {apiKey : APIKey} {call : ChatCall}
    {record : OrbiRequest} {project project' : Project}
    (h : Queues db db' apiKey call record project project') :
    NewRow db call record project project' := by
  obtain ⟨modelAlias, -, rfl⟩ := h.record_eq
  have hid : project'.id = apiKey.projectId := by
    rw [(Project.reserve_spec h.reserve).id_eq]
    exact Table.key_of_find h.findProject
  refine ⟨(Table.insert_eq_some_iff.mp h.insert).1, rfl, rfl, rfl, rfl, rfl, rfl,
    rfl, rfl, rfl, rfl, ?_, h.reserve⟩
  simpa [newRequest, hid] using h.findProject

/-- The operation answered that it took the request with this id: it claimed it,
or it accepted a result or an error for it. -/
def TakesRequest (id : UUID) : Op → Reply → Prop
  | .claim _ _ _, .claimed (some winner) => winner.id = id
  | .submitResult _ payload _, .resultAccepted true => payload.requestId = id
  | .submitError _ payload, .errorAccepted true => payload.requestId = id
  | _, _ => False

/-- One request row under one committed operation. -/
inductive RowStep (r : OrbiRequest) : Op → Reply → OrbiRequest → Prop
  | kept {op : Op} {reply : Reply} (hother : ¬TakesRequest r.id op reply) :
      RowStep r op reply r
  | claimed {worker : Worker} {leaseSeconds : ℤ} {now : Timestamp}
      (hclaimable : r.isClaimable worker now = true) :
      RowStep r (.claim worker leaseSeconds now)
        (.claimed (some (r.claimed worker leaseSeconds now)))
        (r.claimed worker leaseSeconds now)
  | completed {worker : Worker} {payload : WorkerResultRequest} {now : Timestamp}
      (hheld : r.isHeldBy payload.requestId worker.id = true) :
      RowStep r (.submitResult worker payload now) (.resultAccepted true)
        (r.completed (.obj payload.result) payload.inputTokens payload.outputTokens
          now)
  | errorRequeued {worker : Worker} {payload : WorkerErrorRequest}
      (hheld : r.isHeldBy payload.requestId worker.id = true)
      (hretry : r.mayRetry payload.retryable = true) :
      RowStep r (.submitError worker payload) (.errorAccepted true)
        (r.withError payload.errorCode payload.message).requeued
  | errorFailed {worker : Worker} {payload : WorkerErrorRequest}
      (hheld : r.isHeldBy payload.requestId worker.id = true)
      (hfinal : r.mayRetry payload.retryable = false) :
      RowStep r (.submitError worker payload) (.errorAccepted true)
        (r.withError payload.errorCode payload.message).failed
  | leaseRequeued {now : Timestamp} {count : ℕ} (hretry : r.isRetryable now = true)
      (hqueue : r.leaseRequeued.isQueueExpired now = false) :
      RowStep r (.recover now) (.recovered count) r.leaseRequeued
  | leaseExpired {now : Timestamp} {count : ℕ} (hretry : r.isRetryable now = true)
      (hqueue : r.leaseRequeued.isQueueExpired now = true) :
      RowStep r (.recover now) (.recovered count) r.leaseRequeued.queueExpired
  | leaseFailed {now : Timestamp} {count : ℕ} (hexhausted : r.isExhausted now = true) :
      RowStep r (.recover now) (.recovered count) r.leaseFailed
  | queueExpired {now : Timestamp} {count : ℕ}
      (hqueue : r.isQueueExpired now = true) :
      RowStep r (.recover now) (.recovered count) r.queueExpired

/-- No operation changes the columns fixed at acceptance. -/
theorem RowStep.fixed {r r' : OrbiRequest} {op : Op} {reply : Reply}
    (h : RowStep r op reply r') :
    r'.id = r.id ∧ r'.projectId = r.projectId ∧ r'.apiKeyId = r.apiKeyId ∧
      r'.idempotencyKey = r.idempotencyKey ∧ r'.maxRetries = r.maxRetries ∧
      r'.reservedTokens = r.reservedTokens ∧ r'.budgetDay = r.budgetDay ∧
      r'.budgetMonth = r.budgetMonth ∧ r'.resolvedModel = r.resolvedModel := by
  cases h <;> exact ⟨rfl, rfl, rfl, rfl, rfl, rfl, rfl, rfl, rfl⟩

section Effects

variable {db db' : Db} {op : Op} {reply : Reply}

/-! ## Replies -/

/-- A claim finds nothing to do, or answers with the first claimable row. -/
theorem exec_claim_selected {worker : Worker} {leaseSeconds : ℤ} {now : Timestamp}
    (h : exec db (.claim worker leaseSeconds now) = .ok (reply, db')) :
    (QueueService.selectClaimable db worker now (fun _ => false) = none ∧
        reply = .claimed none ∧ db' = db) ∨
      ∃ r, QueueService.selectClaimable db worker now (fun _ => false) = some r ∧
        reply = .claimed (some (r.claimed worker leaseSeconds now)) ∧
        db' = { db with requests :=
          db.requests.put (r.claimed worker leaseSeconds now) } := by
  have hpair : QueueService.claimNext db worker leaseSeconds now =
      ((QueueService.claimNext db worker leaseSeconds now).1,
        (QueueService.claimNext db worker leaseSeconds now).2) := rfl
  simp only [exec, Except.ok.injEq, Prod.mk.injEq] at h
  obtain ⟨rfl, rfl⟩ := h
  rcases QueueService.claimNext_cases hpair with
    ⟨hselect, hnone, hkeep⟩ | ⟨r, hselect, hsome, hput⟩
  · exact Or.inl ⟨hselect, by rw [hnone], hkeep⟩
  · exact Or.inr ⟨r, hselect, by rw [hsome], hput⟩

/-- A claim answers with the row it assigned, or changes nothing. -/
theorem exec_claim_cases {worker : Worker} {leaseSeconds : ℤ} {now : Timestamp}
    (h : exec db (.claim worker leaseSeconds now) = .ok (reply, db')) :
    (reply = .claimed none ∧ db' = db) ∨
      ∃ r ∈ db.requests.rows, r.isClaimable worker now = true ∧
        reply = .claimed (some (r.claimed worker leaseSeconds now)) ∧
        db' = { db with requests :=
          db.requests.put (r.claimed worker leaseSeconds now) } := by
  rcases exec_claim_selected h with ⟨-, hnone, hkeep⟩ | ⟨r, hselect, hsome, hput⟩
  · exact Or.inl ⟨hnone, hkeep⟩
  · obtain ⟨hmem, hclaimable, -, -⟩ := QueueService.selectClaimable_spec hselect
    exact Or.inr ⟨r, hmem, hclaimable, hsome, hput⟩

/-- A result submission is refused and changes nothing, or one row was held. -/
theorem exec_submitResult_cases {worker : Worker} {payload : WorkerResultRequest}
    {now : Timestamp}
    (h : exec db (.submitResult worker payload now) = .ok (reply, db')) :
    (reply = .resultAccepted false ∧ db' = db ∧
      ∀ r ∈ db.requests.rows, r.isHeldBy payload.requestId worker.id = false) ∨
      ∃ r ∈ db.requests.rows, ∃ usageRecords,
        reply = .resultAccepted true ∧
        r.isHeldBy payload.requestId worker.id = true ∧
        db.usageRecords.insert (QueueService.usageRecordOf r worker
          payload.inputTokens payload.outputTokens payload.latencyMs) =
            some usageRecords ∧
        db' = { db with
          requests := db.requests.updateWhere
            (fun r => r.isHeldBy payload.requestId worker.id)
            ⟨fun r => r.completed (.obj payload.result) payload.inputTokens
              payload.outputTokens now, fun _ => rfl⟩
          projects := settleAll
            [r.settledBy (payload.inputTokens + payload.outputTokens)] db.projects
          apiKeys := QueueService.countUse r
            (payload.inputTokens + payload.outputTokens) db.apiKeys
          usageRecords := usageRecords } := by
  obtain ⟨⟨accepted, final⟩, hcommit, hpure⟩ := Except.bind_eq_ok_iff.mp h
  rw [Except.pure_eq_ok_iff] at hpure
  cases hpure
  rcases QueueService.commitResult_cases hcommit with
    ⟨rfl, hkeep, hno⟩ | ⟨r, hmem, usageRecords, rfl, hheld, hinsert, hdb⟩
  · exact Or.inl ⟨rfl, hkeep, hno⟩
  · exact Or.inr ⟨r, hmem, usageRecords, rfl, hheld, hinsert, hdb⟩

/-- An error report is refused and changes nothing, or one row was held. -/
theorem exec_submitError_cases {worker : Worker} {payload : WorkerErrorRequest}
    (h : exec db (.submitError worker payload) = .ok (reply, db')) :
    (reply = .errorAccepted false ∧ db' = db ∧
      ∀ r ∈ db.requests.rows, r.isHeldBy payload.requestId worker.id = false) ∨
      ∃ r ∈ db.requests.rows, reply = .errorAccepted true ∧
        r.isHeldBy payload.requestId worker.id = true ∧
        ((r.mayRetry payload.retryable = true ∧
          db' = { db with
            requests := db.requests.put
              (r.withError payload.errorCode payload.message).requeued }) ∨
        (r.mayRetry payload.retryable = false ∧
          db' = { db with
            requests := db.requests.put
              (r.withError payload.errorCode payload.message).failed
            projects := settleAll [r.settledBy 0] db.projects })) := by
  obtain ⟨⟨accepted, final⟩, hrecord, hpure⟩ := Except.bind_eq_ok_iff.mp h
  rw [Except.pure_eq_ok_iff] at hpure
  cases hpure
  rcases QueueService.recordError_cases hrecord with
    ⟨rfl, hkeep, hno⟩ | ⟨r, hmem, rfl, hheld, houtcome⟩
  · exact Or.inl ⟨rfl, hkeep, hno⟩
  · exact Or.inr ⟨r, hmem, rfl, hheld, houtcome⟩

theorem exec_recover_spec {now : Timestamp}
    (h : exec db (.recover now) = .ok (reply, db')) :
    ∃ count, reply = .recovered count ∧ ∃ requests : Table OrbiRequest,
      requests.rows = db.requests.rows.map (fun r => r.after (.recover now) reply) ∧
      db' = { db with
        requests := requests
        projects := settleAll (settlements db (.recover now)) db.projects } := by
  obtain ⟨⟨count, final⟩, hrecover, hpure⟩ := Except.bind_eq_ok_iff.mp h
  rw [Except.pure_eq_ok_iff] at hpure
  cases hpure
  exact ⟨count, rfl, QueueService.recoverExpiredLeases_spec hrecover⟩

/-- A chat call answers from the table, or queues one row. -/
theorem exec_chat_cases {call : ChatCall}
    (h : exec db (.chat call) = .ok (reply, db')) :
    ∃ apiKey, requireApiKey db call.key call.keyReadings =
        .ok (apiKey, { db with apiKeys := db.apiKeys.put apiKey }) ∧
      ((∃ existing, findExisting db apiKey.id call.idempotencyKey = some existing ∧
        reply = .chat (existingReply existing) ∧
        db' = { db with apiKeys := db.apiKeys.put apiKey }) ∨
      ∃ record project project', reply = .chat (.queued record) ∧
        Queues { db with apiKeys := db.apiKeys.put apiKey } db' apiKey call record
          project project') := by
  obtain ⟨⟨answer, final⟩, haccept, hpure⟩ := Except.bind_eq_ok_iff.mp h
  rw [Except.pure_eq_ok_iff] at hpure
  cases hpure
  obtain ⟨apiKey, mid, hkey, -, rfl, houtcome⟩ := acceptChat_cases haccept
  refine ⟨apiKey, hkey, ?_⟩
  rcases houtcome with ⟨existing, hfind, rfl, rfl⟩ |
    ⟨record, project, project', rfl, hqueues⟩
  · exact Or.inl ⟨existing, hfind, rfl, rfl⟩
  · exact Or.inr ⟨record, project, project', rfl, hqueues⟩

theorem newRows_existingReply (existing : OrbiRequest) :
    (Reply.chat (existingReply existing)).newRows = [] := by
  unfold existingReply
  split <;> rfl

/-! ## Request rows -/

/-- The request table after a committed operation: every row in its new version,
then the new rows. -/
theorem exec_requests (h : exec db op = .ok (reply, db')) :
    db'.requests.rows =
      db.requests.rows.map (fun r => r.after op reply) ++ reply.newRows := by
  cases op with
  | chat call =>
      have hkeep : db.requests.rows.map (fun r => r.after (.chat call) reply) =
          db.requests.rows := List.map_id _
      rw [hkeep]
      obtain ⟨apiKey, -, hcases⟩ := exec_chat_cases h
      rcases hcases with ⟨existing, -, rfl, rfl⟩ |
        ⟨record, project, project', rfl, hqueues⟩
      · rw [newRows_existingReply, List.append_nil]
      · exact (Table.insert_eq_some_iff.mp hqueues.insert).2
  | claim worker leaseSeconds now =>
      rcases exec_claim_cases h with ⟨rfl, rfl⟩ | ⟨r, hmem, -, rfl, rfl⟩
      · simp [OrbiRequest.after, Reply.newRows]
      · simp only [Reply.newRows, List.append_nil, Table.rows_put]
        apply List.map_congr_left
        intro row hrow
        by_cases hid : row.id = r.id
        · have heq : row = r := db.requests.eq_of_key_eq hrow hmem hid
          subst heq
          simp [OrbiRequest.after, OrbiRequest.claimed]
        · simp [OrbiRequest.after, OrbiRequest.claimed, hid]
  | submitResult worker payload now =>
      rcases exec_submitResult_cases h with
        ⟨rfl, rfl, hno⟩ | ⟨r, hmem, usageRecords, rfl, hheld, -, rfl⟩
      · simp only [Reply.newRows, List.append_nil]
        symm
        calc
          db'.requests.rows.map (fun r =>
              r.after (.submitResult worker payload now) (.resultAccepted false)) =
              db'.requests.rows.map id := by
            apply List.map_congr_left
            intro r hr
            simp [OrbiRequest.after, hno r hr]
          _ = db'.requests.rows := List.map_id _
      · simp only [Reply.newRows, List.append_nil, Table.rows_updateWhere]
        rfl
  | submitError worker payload =>
      rcases exec_submitError_cases h with
        ⟨rfl, rfl, hno⟩ | ⟨r, hmem, rfl, hheld, ⟨hretry, rfl⟩ | ⟨hfinal, rfl⟩⟩
      · simp only [Reply.newRows, List.append_nil]
        symm
        calc
          db'.requests.rows.map (fun r =>
              r.after (.submitError worker payload) (.errorAccepted false)) =
              db'.requests.rows.map id := by
            apply List.map_congr_left
            intro r hr
            simp [OrbiRequest.after, hno r hr]
          _ = db'.requests.rows := List.map_id _
      · simp only [Reply.newRows, List.append_nil]
        refine rows_put_of_isHeldBy hmem hheld ?_ _ ?_ ?_
        · rfl
        · simp [OrbiRequest.after, hheld, hretry]
        · intro row hno
          simp [OrbiRequest.after, hno]
      · simp only [Reply.newRows, List.append_nil]
        refine rows_put_of_isHeldBy hmem hheld ?_ _ ?_ ?_
        · rfl
        · simp [OrbiRequest.after, hheld, hfinal]
        · intro row hno
          simp [OrbiRequest.after, hno]
  | recover now =>
      obtain ⟨count, rfl, requests, hrows, rfl⟩ := exec_recover_spec h
      simpa [Reply.newRows] using hrows

theorem not_held_of_ne {requestId workerId : UUID} {r winner : OrbiRequest}
    (hr : r ∈ db.requests.rows) (hwinner : winner ∈ db.requests.rows)
    (hheld : winner.isHeldBy requestId workerId = true)
    (hno : ¬r.isHeldBy requestId workerId = true) : requestId ≠ r.id := by
  intro hid
  have hwid := (OrbiRequest.isHeldBy_iff.mp hheld).1
  have heq : r = winner :=
    db.requests.eq_of_key_eq hr hwinner (hid.symm.trans hwid.symm)
  subst heq
  exact hno hheld

/-- Each old row makes one of the transitions of `RowStep`. -/
theorem exec_rowStep (h : exec db op = .ok (reply, db')) {r : OrbiRequest}
    (hr : r ∈ db.requests.rows) : RowStep r op reply (r.after op reply) := by
  cases op with
  | chat call => exact .kept (fun hno => hno)
  | claim worker leaseSeconds now =>
      rcases exec_claim_cases h with ⟨rfl, -⟩ | ⟨winner, hmem, hclaimable, rfl, -⟩
      · exact .kept (fun hno => hno)
      · by_cases hid : r.id = winner.id
        · have heq : r = winner := db.requests.eq_of_key_eq hr hmem hid
          subst heq
          have hafter : r.after (.claim worker leaseSeconds now)
              (.claimed (some (r.claimed worker leaseSeconds now))) =
              r.claimed worker leaseSeconds now := by
            simp [OrbiRequest.after, OrbiRequest.claimed]
          rw [hafter]
          exact .claimed hclaimable
        · have hafter : r.after (.claim worker leaseSeconds now) (.claimed
              (some (winner.claimed worker leaseSeconds now))) = r := by
            simp [OrbiRequest.after, OrbiRequest.claimed, hid]
          rw [hafter]
          exact .kept (Ne.symm hid)
  | submitResult worker payload now =>
      by_cases hheld : r.isHeldBy payload.requestId worker.id = true
      · rcases exec_submitResult_cases h with
          ⟨-, -, hno⟩ | ⟨winner, -, usageRecords, rfl, -, -, -⟩
        · rw [hno r hr] at hheld
          cases hheld
        · simpa [OrbiRequest.after, hheld] using RowStep.completed hheld
      · have hafter : r.after (.submitResult worker payload now) reply = r := by
          simp [OrbiRequest.after, hheld]
        rw [hafter]
        rcases exec_submitResult_cases h with
          ⟨rfl, -, -⟩ | ⟨winner, hmem, usageRecords, rfl, hwinner, -, -⟩
        · exact .kept (fun hno => hno)
        · exact .kept (not_held_of_ne hr hmem hwinner hheld)
  | submitError worker payload =>
      by_cases hheld : r.isHeldBy payload.requestId worker.id = true
      · rcases exec_submitError_cases h with
          ⟨-, -, hno⟩ | ⟨winner, -, rfl, -, -⟩
        · rw [hno r hr] at hheld
          cases hheld
        · cases hretry : r.mayRetry payload.retryable with
          | true =>
              simpa [OrbiRequest.after, hheld, hretry] using
                RowStep.errorRequeued hheld hretry
          | false =>
              simpa [OrbiRequest.after, hheld, hretry] using
                RowStep.errorFailed hheld hretry
      · have hafter : r.after (.submitError worker payload) reply = r := by
          simp [OrbiRequest.after, hheld]
        rw [hafter]
        rcases exec_submitError_cases h with
          ⟨rfl, -, -⟩ | ⟨winner, hmem, rfl, hwinner, -⟩
        · exact .kept (fun hno => hno)
        · exact .kept (not_held_of_ne hr hmem hwinner hheld)
  | recover now =>
      obtain ⟨count, rfl, -⟩ := exec_recover_spec h
      by_cases hretry : r.isRetryable now = true
      · cases hqueue : r.leaseRequeued.isQueueExpired now with
        | true =>
            simpa [OrbiRequest.after, hretry, hqueue] using
              RowStep.leaseExpired hretry hqueue
        | false =>
            simpa [OrbiRequest.after, hretry, hqueue] using
              RowStep.leaseRequeued hretry hqueue
      · by_cases hexhausted : r.isExhausted now = true
        · simpa [OrbiRequest.after, hretry, hexhausted] using
            RowStep.leaseFailed hexhausted
        · by_cases hqueue : r.isQueueExpired now = true
          · simpa [OrbiRequest.after, hretry, hexhausted, hqueue] using
              RowStep.queueExpired hqueue
          · have hafter : r.after (.recover now) (.recovered count) = r := by
              simp [OrbiRequest.after, hretry, hexhausted, hqueue]
            rw [hafter]
            exact .kept (fun hno => hno)

/-- Only accepted chat calls add rows, and they reserve for them. -/
theorem exec_newRow (h : exec db op = .ok (reply, db')) {record : OrbiRequest}
    (hrecord : record ∈ reply.newRows) :
    ∃ call project project', op = .chat call ∧ reply = .chat (.queued record) ∧
      NewRow db call record project project' ∧
      db'.projects = db.projects.put project' := by
  cases op with
  | chat call =>
      obtain ⟨apiKey, -, hcases⟩ := exec_chat_cases h
      rcases hcases with ⟨existing, -, rfl, -⟩ |
        ⟨queued, project, project', rfl, hqueues⟩
      · rw [newRows_existingReply] at hrecord
        cases hrecord
      · cases List.mem_singleton.mp hrecord
        refine ⟨call, project, project', rfl, rfl, ?_, by rw [hqueues.db_eq]⟩
        have hnew := hqueues.newRow
        exact ⟨hnew.fresh, hnew.status, hnew.assignedTo, hnew.leaseExpires,
          hnew.retryCount, hnew.maxRetries, hnew.result, hnew.inputTokens,
          hnew.outputTokens, hnew.budgetDay, hnew.budgetMonth, hnew.findProject,
          hnew.reserve⟩
  | claim worker leaseSeconds now =>
      rcases exec_claim_cases h with ⟨rfl, -⟩ | ⟨r, -, -, rfl, -⟩ <;> cases hrecord
  | submitResult worker payload now =>
      rcases exec_submitResult_cases h with
        ⟨rfl, -⟩ | ⟨r, -, usageRecords, rfl, -⟩ <;> cases hrecord
  | submitError worker payload =>
      rcases exec_submitError_cases h with ⟨rfl, -⟩ | ⟨r, -, rfl, -⟩ <;>
        cases hrecord
  | recover now =>
      obtain ⟨count, rfl, -⟩ := exec_recover_spec h
      cases hrecord

/-! ## Project rows -/

/-- An operation that adds no row changes the project table by its settlements. -/
theorem exec_projects (h : exec db op = .ok (reply, db'))
    (hnone : reply.newRows = []) :
    db'.projects = settleAll (settlements db op) db.projects := by
  cases op with
  | chat call =>
      obtain ⟨apiKey, -, hcases⟩ := exec_chat_cases h
      rcases hcases with ⟨existing, -, -, rfl⟩ |
        ⟨queued, project, project', rfl, -⟩
      · exact (settleAll_nil _).symm
      · cases hnone
  | claim worker leaseSeconds now =>
      rcases exec_claim_cases h with ⟨-, rfl⟩ | ⟨r, -, -, -, rfl⟩ <;>
        exact (settleAll_nil _).symm
  | submitResult worker payload now =>
      rcases exec_submitResult_cases h with
        ⟨-, rfl, hno⟩ | ⟨r, hmem, usageRecords, -, hheld, -, rfl⟩
      · rw [settlements_submitResult_of_not_held hno, settleAll_nil]
      · rw [settlements_submitResult hmem hheld]
  | submitError worker payload =>
      rcases exec_submitError_cases h with
        ⟨-, rfl, hno⟩ | ⟨r, hmem, -, hheld, ⟨hretry, rfl⟩ | ⟨hfinal, rfl⟩⟩
      · have hempty : settlements db' (.submitError worker payload) = [] :=
          settlements_of_not_held hno _ _
        rw [hempty, settleAll_nil]
      · simp [settlements, filter_isHeldBy_and hmem hheld, hretry, settleAll_nil]
      · simp [settlements, filter_isHeldBy_and hmem hheld, hfinal]
  | recover now =>
      obtain ⟨count, -, requests, -, rfl⟩ := exec_recover_spec h
      rfl

/-- A project row after a committed operation: an old row with the settlements of the
operation, the row on which a new request was reserved, or an old row beside that. -/
theorem exec_project_cases (h : exec db op = .ok (reply, db')) {project' : Project}
    (hproject' : project' ∈ db'.projects.rows) :
    (reply.newRows = [] ∧ ∃ project ∈ db.projects.rows,
      project' = settleProject (settlements db op) project) ∨
      ∃ call record, op = .chat call ∧ reply = .chat (.queued record) ∧
        ((∃ project, NewRow db call record project project') ∨
          project' ∈ db.projects.rows ∧ project'.id ≠ record.projectId) := by
  cases hnew : reply.newRows with
  | nil =>
      rw [exec_projects h hnew] at hproject'
      obtain ⟨project, hproject, rfl⟩ := List.mem_map.mp hproject'
      exact Or.inl ⟨rfl, project, hproject, rfl⟩
  | cons record rest =>
      have hmem : record ∈ reply.newRows := by simp [hnew]
      obtain ⟨call, project, reserved, hop, hreply, hrow, hput⟩ := exec_newRow h hmem
      rw [hput] at hproject'
      refine Or.inr ⟨call, record, hop, hreply, ?_⟩
      rcases Table.mem_put hproject' with rfl | ⟨hold, hne⟩
      · exact Or.inl ⟨project, hrow⟩
      · have hid : reserved.id = record.projectId :=
          (Project.reserve_spec hrow.reserve).id_eq.trans
            (Table.key_of_find hrow.findProject)
        exact Or.inr ⟨hold, fun hsame => hne (hsame.trans hid.symm)⟩

/-! ## Keys and usage records -/

/-- What a committed operation writes to the keys and the usage records: a chat call
counts itself on its key, an accepted result counts the use of its request's key and adds
one record, and the other operations write neither. -/
inductive LedgerStep (db db' : Db) : Op → Reply → Prop
  | counted {call : ChatCall} {reply : ChatReply} {apiKey : APIKey}
      (hkey : requireApiKey db call.key call.keyReadings =
        .ok (apiKey, { db with apiKeys := db.apiKeys.put apiKey }))
      (hkeys : db'.apiKeys = db.apiKeys.put apiKey)
      (husage : db'.usageRecords = db.usageRecords) :
      LedgerStep db db' (.chat call) (.chat reply)
  | used {worker : Worker} {payload : WorkerResultRequest} {now : Timestamp}
      {r : OrbiRequest} (hmem : r ∈ db.requests.rows)
      (hheld : r.isHeldBy payload.requestId worker.id = true)
      (hkeys : db'.apiKeys = QueueService.countUse r
        (payload.inputTokens + payload.outputTokens) db.apiKeys)
      (husage : db.usageRecords.insert (QueueService.usageRecordOf r worker
        payload.inputTokens payload.outputTokens payload.latencyMs) =
          some db'.usageRecords) :
      LedgerStep db db' (.submitResult worker payload now) (.resultAccepted true)
  | kept {op : Op} {reply : Reply} (hchat : ∀ call, op ≠ .chat call)
      (hkeys : db'.apiKeys = db.apiKeys) (husage : db'.usageRecords = db.usageRecords)
      (hrefused : reply ≠ .resultAccepted true) : LedgerStep db db' op reply

theorem exec_ledgerStep (h : exec db op = .ok (reply, db')) :
    LedgerStep db db' op reply := by
  cases op with
  | chat call =>
      obtain ⟨apiKey, hkey, ⟨existing, -, rfl, rfl⟩ |
        ⟨record, project, project', rfl, hqueues⟩⟩ := exec_chat_cases h
      · exact .counted hkey rfl rfl
      · rw [hqueues.db_eq]
        exact .counted hkey rfl rfl
  | claim worker leaseSeconds now =>
      rcases exec_claim_cases h with ⟨rfl, rfl⟩ | ⟨r, -, -, rfl, rfl⟩
      · exact .kept (by simp) rfl rfl (by simp)
      · exact .kept (by simp) rfl rfl (by simp)
  | submitResult worker payload now =>
      rcases exec_submitResult_cases h with
        ⟨rfl, rfl, -⟩ | ⟨r, hmem, usageRecords, rfl, hheld, hinsert, rfl⟩
      · exact .kept (by simp) rfl rfl (by simp)
      · exact .used hmem hheld rfl hinsert
  | submitError worker payload =>
      rcases exec_submitError_cases h with
        ⟨rfl, rfl, -⟩ | ⟨r, -, rfl, -, ⟨-, rfl⟩ | ⟨-, rfl⟩⟩
      · exact .kept (by simp) rfl rfl (by simp)
      · exact .kept (by simp) rfl rfl (by simp)
      · exact .kept (by simp) rfl rfl (by simp)
  | recover now =>
      obtain ⟨count, rfl, requests, -, rfl⟩ := exec_recover_spec h
      exact .kept (by simp) rfl rfl (by simp)

theorem find_countUse (r : OrbiRequest) (tokens : ℤ) (apiKeys : Table APIKey) (id : UUID) :
    (QueueService.countUse r tokens apiKeys).find id =
      (apiKeys.find id).map fun record =>
        if record.id == r.apiKeyId then record.countUse tokens else record := by
  rw [QueueService.countUse, Table.updateWhere, Table.find_mapRows]
  rfl

/-! ## Tables left alone -/

/-- No operation writes a worker or an alias. -/
theorem exec_frame (h : exec db op = .ok (reply, db')) :
    db'.workers = db.workers ∧ db'.modelAliases = db.modelAliases := by
  cases op with
  | chat call =>
      obtain ⟨apiKey, -, hcases⟩ := exec_chat_cases h
      rcases hcases with ⟨existing, -, -, rfl⟩ | ⟨record, project, project', -, hqueues⟩
      · exact ⟨rfl, rfl⟩
      · rw [hqueues.db_eq]
        exact ⟨rfl, rfl⟩
  | claim worker leaseSeconds now =>
      rcases exec_claim_cases h with ⟨-, rfl⟩ | ⟨r, -, -, -, rfl⟩
      · exact ⟨rfl, rfl⟩
      · exact ⟨rfl, rfl⟩
  | submitResult worker payload now =>
      rcases exec_submitResult_cases h with ⟨-, rfl, -⟩ | ⟨r, -, usageRecords, -, -, -, rfl⟩
      · exact ⟨rfl, rfl⟩
      · exact ⟨rfl, rfl⟩
  | submitError worker payload =>
      rcases exec_submitError_cases h with
        ⟨-, rfl, -⟩ | ⟨r, -, -, -, ⟨-, rfl⟩ | ⟨-, rfl⟩⟩
      · exact ⟨rfl, rfl⟩
      · exact ⟨rfl, rfl⟩
      · exact ⟨rfl, rfl⟩
  | recover now =>
      obtain ⟨count, -, requests, -, rfl⟩ := exec_recover_spec h
      exact ⟨rfl, rfl⟩

end Effects

/-! ## Invariants of single rows -/

/-- A property of rows that new rows have, that every transition keeps and that events
which change no row keep is a property of all rows after a step. -/
theorem Step.forall_rows {I : List Event → OrbiRequest → Prop} {db db' : Db} {e : Event}
    {history : List Event} (hlast : Step db e db')
    (hnew : ∀ history db call record project project' settled,
      NewRow db call record project project' →
      I (.performed (.chat call) (.chat (.queued record)) settled :: history) record)
    (hstep : ∀ history r op reply r' settled, I history r → RowStep r op reply r' →
      I (.performed op reply settled :: history) r')
    (hfailed : ∀ history r op failure, I history r → I (.failed op failure :: history) r)
    (hscan : ∀ history r, I history r → I (.rescanned :: history) r)
    (ih : ∀ r ∈ db.requests.rows, I history r) :
    ∀ r ∈ db'.requests.rows, I (e :: history) r := by
  intro r' hr'
  cases hlast with
  | performed hexec =>
      rw [exec_requests hexec, List.mem_append, List.mem_map] at hr'
      rcases hr' with ⟨r, hr, rfl⟩ | hnewRow
      · exact hstep _ _ _ _ _ _ (ih r hr) (exec_rowStep hexec hr)
      · obtain ⟨call, project, project', rfl, rfl, hrecord, -⟩ :=
          exec_newRow hexec hnewRow
        exact hnew _ _ _ _ _ _ _ hrecord
  | failed hexec => exact hfailed _ _ _ _ (ih r' hr')
  | rescanned hperm => exact hscan _ _ (ih r' (hperm.mem_iff.mp hr'))

/-- The induction behind every per-row invariant: it holds of new rows, every
transition keeps it, and events that change no row keep it. -/
theorem row_invariant {I : List Event → OrbiRequest → Prop} {db₀ db : Db}
    {history : List Event} (hrun : History db₀ history db)
    (hstart : ∀ r ∈ db₀.requests.rows, I [] r)
    (hnew : ∀ history db call record project project' settled,
      NewRow db call record project project' →
      I (.performed (.chat call) (.chat (.queued record)) settled :: history) record)
    (hstep : ∀ history r op reply r' settled, I history r → RowStep r op reply r' →
      I (.performed op reply settled :: history) r')
    (hfailed : ∀ history r op failure, I history r → I (.failed op failure :: history) r)
    (hscan : ∀ history r, I history r → I (.rescanned :: history) r) :
    ∀ r ∈ db.requests.rows, I history r := by
  apply Transition.Run.history_invariant
    (I := fun history db => ∀ r ∈ db.requests.rows, I history r) hrun hstart
  intro history db e db' _ ih hlast
  exact hlast.forall_rows hnew hstep hfailed hscan ih

end OrbiGateway
