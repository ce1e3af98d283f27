import OrbiGateway.Invariants.RequestRows
import OrbiGateway.System.Bookings

/-!
# The usage ledger

An accepted result is written three times: in the request row, as a usage record and in
the totals of the API key.  The three agree in every reachable state, whatever
submissions are refused, repeated or late and however often a key is used to
authenticate.
-/

namespace OrbiGateway

open Relational Transition

/-- The record is of this completed request. -/
structure RecordOf (r : OrbiRequest) (record : UsageRecord) : Prop where
  status : r.status = .completed
  requestId : record.requestId = r.id
  projectId : record.projectId = r.projectId
  apiKeyId : record.apiKeyId = r.apiKeyId
  modelId : record.modelId = r.resolvedModel
  inputTokens : r.inputTokens = some record.inputTokens
  outputTokens : r.outputTokens = some record.outputTokens
  workerId : record.workerId = r.assignedTo

/-- The tokens of a usage record. -/
def UsageRecord.totalTokens (record : UsageRecord) : ℤ :=
  record.inputTokens + record.outputTokens

/-- The usage records of one API key. -/
def usageOfKey (id : UUID) (db : Db) : List UsageRecord :=
  db.usageRecords.rows.filter fun record => record.apiKeyId == id

/-- The totals of the key are those of its usage records. -/
structure TotalsAgree (db : Db) (record : APIKey) : Prop where
  requests : record.totalRequests = (usageOfKey record.id db).length
  tokens : record.totalTokens =
    ((usageOfKey record.id db).map UsageRecord.totalTokens).sum

/-- Every usage record is of a completed request. -/
def RecordsOwned (db : Db) : Prop :=
  ∀ record ∈ db.usageRecords.rows, ∃ r ∈ db.requests.rows, RecordOf r record

/-- The three ledgers agree. -/
structure LedgersAgree (db : Db) : Prop where
  of_record : ∀ record ∈ db.usageRecords.rows, ∃ r ∈ db.requests.rows, RecordOf r record
  of_completed : ∀ r ∈ db.requests.rows, r.status = .completed →
    ∃ record ∈ db.usageRecords.rows, RecordOf r record
  totals : ∀ record ∈ db.apiKeys.rows, TotalsAgree db record

/-- No key has been used, as `create_api_key` leaves it. -/
def KeysUnused (db : Db) : Prop :=
  ∀ record ∈ db.apiKeys.rows, record.totalRequests = 0 ∧ record.totalTokens = 0

/-! ## Completed rows under a step -/

theorem OrbiRequest.isOpen_of_completed {r : OrbiRequest} (h : r.status = .completed) :
    r.isOpen = false := by
  simp [isOpen, isLive, liveStatuses, h]

theorem RowStep.completed_cases {r r' : OrbiRequest} {op : Op} {reply : Reply}
    (h : RowStep r op reply r') (hcompleted : r'.status = .completed) :
    (r.status = .completed ∧ r' = r) ∨ ∃ worker payload now,
      op = .submitResult worker payload now ∧ reply = .resultAccepted true ∧
        r.isHeldBy payload.requestId worker.id = true ∧
        r' = r.completed (.obj payload.result) payload.inputTokens payload.outputTokens
          now := by
  cases h with
  | kept => exact Or.inl ⟨hcompleted, rfl⟩
  | completed hheld => exact Or.inr ⟨_, _, _, rfl, rfl, hheld, rfl⟩
  | _ => cases hcompleted

theorem OrbiRequest.after_of_completed {db db' : Db} {op : Op} {reply : Reply}
    {r : OrbiRequest} (hexec : exec db op = .ok (reply, db')) (hr : r ∈ db.requests.rows)
    (hcompleted : r.status = .completed) : r.after op reply = r := by
  rcases (exec_rowStep hexec hr).kept_or_isOpen with hkept | hopen
  · exact hkept
  · rw [isOpen_of_completed hcompleted] at hopen
    cases hopen

theorem mem_of_completed {db db' : Db} {op : Op} {reply : Reply} {r : OrbiRequest}
    (hexec : exec db op = .ok (reply, db')) (hr : r ∈ db.requests.rows)
    (hcompleted : r.status = .completed) : r ∈ db'.requests.rows := by
  rw [exec_requests hexec]
  apply List.mem_append_left
  exact List.mem_map.mpr ⟨r, hr, OrbiRequest.after_of_completed hexec hr hcompleted⟩

/-- The completed rows after an operation are those from before and the held row of an
accepted result. -/
theorem completed_cases {db db' : Db} {op : Op} {reply : Reply} {r' : OrbiRequest}
    (hexec : exec db op = .ok (reply, db')) (hr' : r' ∈ db'.requests.rows)
    (hcompleted : r'.status = .completed) :
    r' ∈ db.requests.rows ∨ ∃ worker payload now, ∃ r ∈ db.requests.rows,
      op = .submitResult worker payload now ∧ reply = .resultAccepted true ∧
        r.isHeldBy payload.requestId worker.id = true ∧
        r' = r.completed (.obj payload.result) payload.inputTokens payload.outputTokens
          now := by
  rw [exec_requests hexec, List.mem_append, List.mem_map] at hr'
  rcases hr' with ⟨r, hr, rfl⟩ | hnew
  · rcases (exec_rowStep hexec hr).completed_cases hcompleted with
      ⟨-, hkept⟩ | ⟨worker, payload, now, hop, hreply, hheld, heq⟩
    · rw [hkept]
      exact Or.inl hr
    · exact Or.inr ⟨worker, payload, now, r, hr, hop, hreply, hheld, heq⟩
  · obtain ⟨call, project, project', -, -, hrow, -⟩ := exec_newRow hexec hnew
    rw [hrow.status] at hcompleted
    cases hcompleted

/-! ## Records and rows -/

/-- The record of an accepted result is of the row that it completes. -/
theorem RecordOf.usageRecordOf {r : OrbiRequest} {worker : Worker} {requestId : UUID}
    (hheld : r.isHeldBy requestId worker.id = true) (result : Json)
    (inputTokens outputTokens latencyMs : ℤ) (now : Timestamp) :
    RecordOf (r.completed result inputTokens outputTokens now)
      (QueueService.usageRecordOf r worker inputTokens outputTokens latencyMs) :=
  ⟨rfl, rfl, rfl, rfl, rfl, rfl, rfl, (OrbiRequest.isHeldBy_iff.mp hheld).2.1.symm⟩

section Step

variable {db db' : Db} {op : Op} {reply : Reply}

theorem RecordsOwned.exec (h : RecordsOwned db) (hexec : exec db op = .ok (reply, db')) :
    RecordsOwned db' := by
  have hkept : ∀ record ∈ db.usageRecords.rows,
      ∃ r ∈ db'.requests.rows, RecordOf r record := by
    intro record hrecord
    obtain ⟨r, hr, hof⟩ := h record hrecord
    exact ⟨r, mem_of_completed hexec hr hof.status, hof⟩
  intro record hrecord
  cases exec_ledgerStep hexec with
  | counted hkey hkeys husage =>
      rw [husage] at hrecord
      exact hkept record hrecord
  | kept hchat hkeys husage hrefused =>
      rw [husage] at hrecord
      exact hkept record hrecord
  | @used worker payload now r hmem hheld hkeys husage =>
      rcases (Table.mem_of_insert husage).mp hrecord with hold | rfl
      · exact hkept record hold
      · refine ⟨_, ?_, .usageRecordOf hheld (.obj payload.result) _ _ _ now⟩
        rw [exec_requests hexec]
        apply List.mem_append_left
        exact List.mem_map.mpr ⟨r, hmem, by simp [OrbiRequest.after, hheld]⟩

theorem LedgersAgree.of_completed_exec (h : LedgersAgree db)
    (hexec : exec db op = .ok (reply, db')) :
    ∀ r ∈ db'.requests.rows, r.status = .completed →
      ∃ record ∈ db'.usageRecords.rows, RecordOf r record := by
  intro r' hr' hcompleted
  have hstep := exec_ledgerStep hexec
  rcases completed_cases hexec hr' hcompleted with
    hold | ⟨worker, payload, now, r, hr, rfl, rfl, hheld, rfl⟩
  · obtain ⟨record, hrecord, hof⟩ := h.of_completed r' hold hcompleted
    refine ⟨record, ?_, hof⟩
    cases hstep with
    | counted hkey hkeys husage => rw [husage]; exact hrecord
    | kept hchat hkeys husage hrefused => rw [husage]; exact hrecord
    | used hmem hheld hkeys husage =>
        rw [(Table.insert_eq_some_iff.mp husage).2]
        exact List.mem_append_left _ hrecord
  · cases hstep with
    | kept hchat hkeys husage hrefused => exact absurd rfl hrefused
    | @used _ _ _ winner hmem hwinner hkeys husage =>
        -- the row whose record was added is the one that was held
        have hsame : winner = r := by
          apply db.requests.eq_of_key_eq hmem hr
          exact (OrbiRequest.isHeldBy_iff.mp hwinner).1.trans
            (OrbiRequest.isHeldBy_iff.mp hheld).1.symm
        subst hsame
        refine ⟨_, ?_, .usageRecordOf hheld _ _ _ payload.latencyMs _⟩
        rw [(Table.insert_eq_some_iff.mp husage).2]
        exact List.mem_append_right _ (List.mem_singleton_self _)

/-! ## Key totals -/

theorem APIKey.totals_countCall {record record' : APIKey} {readings : KeyReadings}
    (h : record.countCall readings = .ok record') :
    record'.totalRequests = record.totalRequests ∧
      record'.totalTokens = record.totalTokens := by
  have hreset : ∀ today, (record.resetDay today).totalRequests = record.totalRequests ∧
      (record.resetDay today).totalTokens = record.totalTokens := by
    intro today
    unfold resetDay
    split
    · exact ⟨rfl, rfl⟩
    · exact ⟨rfl, rfl⟩
  unfold countCall at h
  dsimp only at h
  split at h
  · cases h
  split at h
  · cases h
  cases h
  exact hreset readings.today

theorem TotalsAgree.congr {record record' : APIKey} (h : TotalsAgree db record)
    (hid : record'.id = record.id)
    (htotals : record'.totalRequests = record.totalRequests ∧
      record'.totalTokens = record.totalTokens)
    (husage : usageOfKey record.id db' = usageOfKey record.id db) :
    TotalsAgree db' record' := by
  refine ⟨?_, ?_⟩
  · rw [htotals.1, hid, husage]
    exact h.requests
  · rw [htotals.2, hid, husage]
    exact h.tokens

/-- A new record moves the totals of its own key only, by its own tokens. -/
theorem TotalsAgree.used {record : APIKey} (h : TotalsAgree db record) {r : OrbiRequest}
    {added : UsageRecord} (hkey : added.apiKeyId = r.apiKeyId)
    (husage : db.usageRecords.insert added = some db'.usageRecords) :
    TotalsAgree db' (if record.id == r.apiKeyId then record.countUse added.totalTokens
      else record) := by
  have hrows := (Table.insert_eq_some_iff.mp husage).2
  by_cases hid : record.id = r.apiKeyId
  · have husage' : usageOfKey record.id db' = usageOfKey record.id db ++ [added] := by
      simp [usageOfKey, hrows, List.filter_append, hkey, hid]
    rw [if_pos (by simp [hid])]
    refine ⟨?_, ?_⟩
    · simp only [APIKey.countUse, husage', List.length_append, List.length_singleton,
        h.requests, Nat.cast_add, Nat.cast_one]
    · simp only [APIKey.countUse, husage', List.map_append, List.sum_append, h.tokens,
        List.map_singleton, List.sum_singleton]
  · rw [if_neg (by simp [hid])]
    refine h.congr rfl ⟨rfl, rfl⟩ ?_
    have hother : ¬added.apiKeyId = record.id := by
      rw [hkey]
      exact Ne.symm hid
    simp [usageOfKey, hrows, List.filter_append, hother]

theorem LedgersAgree.totals_exec (h : LedgersAgree db)
    (hexec : exec db op = .ok (reply, db')) :
    ∀ record ∈ db'.apiKeys.rows, TotalsAgree db' record := by
  intro record' hrecord'
  cases exec_ledgerStep hexec with
  | @counted call reply apiKey hkey hkeys husage =>
      have hsame : ∀ id, usageOfKey id db' = usageOfKey id db := by
        intro id
        rw [usageOfKey, husage, usageOfKey]
      obtain ⟨found, hfound, -, -, hcount, -⟩ := requireApiKey_spec hkey
      have hid : apiKey.id = found.id :=
        congrArg Prod.fst (APIKey.lookupColumns_countCall hcount)
      rw [hkeys] at hrecord'
      rcases Table.mem_put hrecord' with rfl | ⟨hold, -⟩
      · exact (h.totals found hfound).congr hid (APIKey.totals_countCall hcount) (hsame _)
      · exact (h.totals record' hold).congr rfl ⟨rfl, rfl⟩ (hsame _)
  | kept hchat hkeys husage hrefused =>
      rw [hkeys] at hrecord'
      refine (h.totals record' hrecord').congr rfl ⟨rfl, rfl⟩ ?_
      rw [usageOfKey, husage, usageOfKey]
  | @used worker payload now r hmem hheld hkeys husage =>
      rw [hkeys, QueueService.countUse, Table.rows_updateWhere] at hrecord'
      obtain ⟨record, hrecord, rfl⟩ := List.mem_map.mp hrecord'
      exact (h.totals record hrecord).used rfl husage

end Step

/-! ## Every run -/

theorem RecordsOwned.rescan {db : Db} {requests : Table OrbiRequest} (h : RecordsOwned db)
    (hperm : requests.rows.Perm db.requests.rows) :
    RecordsOwned { db with requests := requests } := by
  intro record hrecord
  obtain ⟨r, hr, hof⟩ := h record hrecord
  exact ⟨r, hperm.mem_iff.mpr hr, hof⟩

theorem RecordsOwned.ne_of_isOpen {db : Db} (h : RecordsOwned db) {r : OrbiRequest}
    (hr : r ∈ db.requests.rows) (hopen : r.isOpen = true) :
    ∀ record ∈ db.usageRecords.rows, record.requestId ≠ r.id := by
  intro record hrecord hid
  obtain ⟨owner, howner, hof⟩ := h record hrecord
  have hsame : owner = r :=
    db.requests.eq_of_key_eq howner hr (hof.requestId.symm.trans hid)
  subst hsame
  rw [OrbiRequest.isOpen_of_completed hof.status] at hopen
  cases hopen

/-- The result of a held request of a known project is accepted. -/
theorem exec_submitResult_of_isHeldBy {db : Db} {r : OrbiRequest} {worker : Worker}
    {payload : WorkerResultRequest} (hknown : ProjectsKnown db) (howned : RecordsOwned db)
    (hr : r ∈ db.requests.rows) (hheld : r.isHeldBy payload.requestId worker.id = true)
    (now : Timestamp) :
    ∃ db', exec db (.submitResult worker payload now) = .ok (.resultAccepted true, db') := by
  have hunused := howned.ne_of_isOpen hr (OrbiRequest.isOpen_of_isHeldBy hheld)
  have hfree : ∃ usageRecords, db.usageRecords.insert (QueueService.usageRecordOf
      r worker payload.inputTokens payload.outputTokens payload.latencyMs) =
        some usageRecords :=
    Table.exists_insert hunused
  obtain ⟨usageRecords, hinsert⟩ := hfree
  obtain ⟨db', hcommit⟩ := QueueService.commitResult_of_isHeldBy (.obj payload.result) now
    hr hheld (hknown r hr) hinsert
  exact ⟨db', Except.bind_eq_ok_iff.mpr ⟨_, hcommit, rfl⟩⟩

theorem LedgersAgree.step {db db' : Db} {e : Event} (h : LedgersAgree db)
    (hstep : Step db e db') : LedgersAgree db' := by
  cases hstep with
  | performed hexec =>
      exact ⟨RecordsOwned.exec h.of_record hexec, h.of_completed_exec hexec,
        h.totals_exec hexec⟩
  | failed => exact h
  | rescanned hperm =>
      refine ⟨RecordsOwned.rescan h.of_record hperm, ?_,
        fun record hrecord => (h.totals record hrecord).congr rfl ⟨rfl, rfl⟩ rfl⟩
      · intro r hr hcompleted
        exact h.of_completed r (hperm.mem_iff.mp hr) hcompleted

theorem LedgersAgree.start {db : Db} (hfresh : Fresh db) (hkeys : KeysUnused db) :
    LedgersAgree db where
  of_record record hrecord := by
    rw [hfresh.usageRecords_empty] at hrecord
    cases hrecord
  of_completed r hr _ := by
    rw [hfresh.requests_empty] at hr
    cases hr
  totals record hrecord := by
    have hnone : usageOfKey record.id db = [] := by
      simp [usageOfKey, hfresh.usageRecords_empty]
    refine ⟨?_, ?_⟩
    · rw [(hkeys record hrecord).1, hnone]
      rfl
    · rw [(hkeys record hrecord).2, hnone]
      rfl

theorem ledgersAgree_of_history {db₀ db : Db} {history : List Event}
    (hfresh : Fresh db₀) (hkeys : KeysUnused db₀) (hrun : History db₀ history db) :
    LedgersAgree db := by
  apply Run.invariant (I := LedgersAgree) hrun
  · exact .start hfresh hkeys
  · intro db e db' h hstep
    exact h.step hstep

theorem LedgersAgree.ids_perm {db : Db} (h : LedgersAgree db) :
    (db.usageRecords.rows.map UsageRecord.requestId).Perm
      ((db.requests.rows.filter fun r => r.status == .completed).map OrbiRequest.id) := by
  have hrecords : (db.usageRecords.rows.map UsageRecord.requestId).Nodup :=
    db.usageRecords.keysNodup
  have hrequests : ((db.requests.rows.filter fun r => r.status == .completed).map
      OrbiRequest.id).Nodup :=
    db.requests.keysNodup.sublist (List.filter_sublist.map _)
  rw [List.perm_ext_iff_of_nodup hrecords hrequests]
  intro id
  simp only [List.mem_map, List.mem_filter, beq_iff_eq]
  constructor
  · rintro ⟨record, hrecord, rfl⟩
    obtain ⟨r, hr, hof⟩ := h.of_record record hrecord
    exact ⟨r, ⟨hr, hof.status⟩, hof.requestId.symm⟩
  · rintro ⟨r, ⟨hr, hcompleted⟩, rfl⟩
    obtain ⟨record, hrecord, hof⟩ := h.of_completed r hr hcompleted
    exact ⟨record, hrecord, hof.requestId⟩

/-- The record with the id of a completed request is of this request. -/
theorem LedgersAgree.recordOf {db : Db} (h : LedgersAgree db) {r : OrbiRequest}
    {record : UsageRecord} (hr : r ∈ db.requests.rows)
    (hrecord : record ∈ db.usageRecords.rows) (hid : record.requestId = r.id) :
    RecordOf r record := by
  obtain ⟨row, hrow, hof⟩ := h.of_record record hrecord
  have hsame : row = r :=
    db.requests.eq_of_key_eq hrow hr (hof.requestId.symm.trans hid)
  rw [← hsame]
  exact hof

/-- In every reachable state the usage records are those of the completed requests, one
for each, with the request's own data and the worker of its last claim, and the totals
of every API key are those of its records. -/
theorem ledger_agreement {db₀ db : Db} {history : List Event} (hfresh : Fresh db₀)
    (hkeys : KeysUnused db₀) (hrun : History db₀ history db) :
    (db.usageRecords.rows.map UsageRecord.requestId).Perm
        ((db.requests.rows.filter fun r => r.status == .completed).map OrbiRequest.id) ∧
      (∀ r ∈ db.requests.rows, ∀ record ∈ db.usageRecords.rows,
        record.requestId = r.id →
          RecordOf r record ∧ record.workerId = lastClaimant r.id history) ∧
      ∀ record ∈ db.apiKeys.rows, TotalsAgree db record := by
  have hagree := ledgersAgree_of_history hfresh hkeys hrun
  refine ⟨hagree.ids_perm, ?_, hagree.totals⟩
  intro r hr record hrecord hid
  have hof := hagree.recordOf hr hrecord hid
  refine ⟨hof, ?_⟩
  have hwell := rowWellFormed_of_history hfresh.requests_empty hrun r hr
  obtain ⟨-, -, -, -, ⟨workerId, hassigned, hclaimant⟩, -⟩ := hwell.completed hof.status
  rw [hof.workerId, hassigned, hclaimant]

/-- The ledgers after a request that was completed in its second attempt. -/
theorem ledger_agreement_lifecycle :
    (runOps Sample.db Sample.lifecycle).2.usageRecords.rows.map
        (fun record => (record.requestId, record.totalTokens)) = [(100, 7)] ∧
      ∀ record ∈ (runOps Sample.db Sample.lifecycle).2.apiKeys.rows,
        TotalsAgree (runOps Sample.db Sample.lifecycle).2 record :=
  ⟨by decide, (ledger_agreement Sample.fresh_db
    (by intro record hrecord; cases List.mem_singleton.mp hrecord; exact ⟨rfl, rfl⟩)
    (history_runOps Sample.db Sample.lifecycle)).2.2⟩

end OrbiGateway
