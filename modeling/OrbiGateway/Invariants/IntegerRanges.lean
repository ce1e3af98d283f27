import OrbiGateway.Invariants.HardLimit
import OrbiGateway.Invariants.UsageLedger
import OrbiGateway.System.ColumnStore

/-!
# Integers within their columns

The bounds of a chat request keep its reservation within 32 bits, and the limits keep the
counters that it raises within 64.  A worker's report and the limits of a new project
have no upper bound in their schemas, so the store refuses exactly the calls whose
integers, or whose sums with what is stored, leave the columns.
-/

namespace OrbiGateway

open Relational Transition Constrained

/-! ## Reservations -/

theorem utf8ByteSize_le (text : String) : text.utf8ByteSize ≤ 4 * text.length := by
  have hchars : ∀ cs : List Char, (String.ofList cs).utf8ByteSize ≤ 4 * cs.length := by
    intro cs
    induction cs with
    | nil => exact Nat.le_refl 0
    | cons c cs ih =>
        rw [String.ofList_cons, String.utf8ByteSize_append, String.utf8ByteSize_singleton,
          List.length_cons]
        have hchar := c.utf8Size_le_four
        omega
  have htext := hchars text.toList
  rwa [String.ofList_toList, String.length_toList] at htext

/-- 256 messages of 100000 characters of four bytes, and 4096 completion tokens. -/
theorem reservedTokensOf_le (payload : ChatCompletionRequest) :
    reservedTokensOf payload ≤ 102404096 := by
  have hmessage : ∀ n ∈ payload.messages.map
      (fun message => (message.content.utf8ByteSize : ℤ)), n ≤ 400000 := by
    intro n hn
    obtain ⟨message, -, rfl⟩ := List.mem_map.mp hn
    have hbytes := utf8ByteSize_le message.content
    have hlength := message.content_le
    omega
  have hsum := List.sum_le_card_nsmul _ _ hmessage
  have hcount := payload.messages_le
  have htokens := payload.maxTokens_le
  rw [List.length_map, nsmul_eq_mul] at hsum
  unfold reservedTokensOf
  omega

/-! ## Rows -/

section Rows

theorem newRequest_inRange {call : ChatCall} {apiKey : APIKey} {modelAlias : ModelAlias}
    {project : Project} {budgetDay budgetMonth : Date}
    (hpos : 1 ≤ reservedTokensOf call.payload) :
    RowInRange (newRequest call apiKey modelAlias project budgetDay budgetMonth) := by
  have hle := reservedTokensOf_le call.payload
  have hpriority : IntegerType.smallInteger.Holds 5 := by decide
  have hretries : IntegerType.integer.Holds 0 := by decide
  have hmax : IntegerType.integer.Holds 3 := by decide
  rw [OrbiRequest.rowInRange_iff]
  refine ⟨hpriority, hretries, hmax, ?_, ?_, ?_⟩
  · rw [IntegerType.integer_holds_iff]
    constructor
    · exact le_trans (by decide) hpos
    · exact le_trans hle (by decide)
  · intro n hn
    cases hn
  · intro n hn
    cases hn

/-- No transition of a request leaves its columns, if the report it may carry does not. -/
theorem RowStep.rowInRange {r r' : OrbiRequest} {op : Op} {reply : Reply}
    (h : RowStep r op reply r') (hr : RowInRange r)
    (hparameters : (GatewayCall.perform op).ParametersInRange) : RowInRange r' := by
  have hcolumns := OrbiRequest.rowInRange_iff.mp hr
  obtain ⟨hpriority, hretries, hmax, hreserved, hinput, houtput⟩ := hcolumns
  have hretry : r.retryCount < r.maxRetries →
      IntegerType.integer.Holds (r.retryCount + 1) := by
    intro hlt
    rw [IntegerType.integer_holds_iff] at hretries hmax ⊢
    omega
  cases h with
  | kept => exact hr
  | claimed => exact hr
  | @completed worker payload now hheld =>
      refine OrbiRequest.rowInRange_iff.mpr
        ⟨hpriority, hretries, hmax, hreserved, ?_, ?_⟩
      · rintro n ⟨⟩
        exact hparameters ⟨.integer, payload.inputTokens⟩ (by simp [GatewayCall.parameters])
      · rintro n ⟨⟩
        exact hparameters ⟨.integer, payload.outputTokens⟩ (by simp [GatewayCall.parameters])
  | errorRequeued hheld hmay =>
      have hlt := of_decide_eq_true (Bool.and_eq_true_iff.mp hmay).2
      exact OrbiRequest.rowInRange_iff.mpr
        ⟨hpriority, hretry hlt, hmax, hreserved, hinput, houtput⟩
  | errorFailed => exact hr
  | leaseRequeued hmay =>
      have hlt := of_decide_eq_true (Bool.and_eq_true_iff.mp hmay).2
      exact OrbiRequest.rowInRange_iff.mpr
        ⟨hpriority, hretry hlt, hmax, hreserved, hinput, houtput⟩
  | leaseExpired hmay =>
      have hlt := of_decide_eq_true (Bool.and_eq_true_iff.mp hmay).2
      exact OrbiRequest.rowInRange_iff.mpr
        ⟨hpriority, hretry hlt, hmax, hreserved, hinput, houtput⟩
  | leaseFailed => exact hr
  | queueExpired => exact hr

theorem Project.Reserved.rowInRange {project project' : Project} {tokens : ℤ} {today : Date}
    (h : Project.Reserved project project' tokens today) (hproject : RowInRange project) :
    RowInRange project' := by
  rw [Project.rowInRange_iff] at hproject ⊢
  intro period
  obtain ⟨hlimit, hused⟩ := hproject period
  have hle := h.used_le period
  have hpos := h.tokens_pos
  have heq := h.used_eq period
  rw [h.limit_eq] at hle ⊢
  refine ⟨hlimit, ?_⟩
  rw [IntegerType.bigInteger_holds_iff] at hlimit hused ⊢
  split at heq <;> omega

theorem settleProject_inRange {settled : List Settlement} {project : Project}
    (hle : ∀ s ∈ settled, s.actualTokens ≤ s.reservedTokens)
    (hnonneg : ∀ period : Period, 0 ≤ period.used project) (hproject : RowInRange project) :
    RowInRange (settleProject settled project) := by
  rw [Project.rowInRange_iff] at hproject ⊢
  intro period
  obtain ⟨hlimit, hused⟩ := hproject period
  rw [limit_settleProject]
  refine ⟨hlimit, ?_⟩
  rw [IntegerType.holds_iff_of_nonneg
    (used_settleProject_nonneg period settled project (hnonneg period))]
  exact used_settleProject_le (by decide) settled project hle hused.2

theorem APIKey.countCall_inRange {record record' : APIKey} {readings : KeyReadings}
    (h : record.countCall readings = .ok record') (hrecord : RowInRange record) :
    RowInRange record' := by
  have hzero : IntegerType.integer.Holds 0 := by decide
  have hreset : RowInRange (record.resetDay readings.today) := by
    unfold resetDay
    split
    · rw [rowInRange_iff] at hrecord ⊢
      obtain ⟨hrequests, htokens, hrpm, hdaily, -⟩ := hrecord
      exact ⟨hrequests, htokens, hrpm, hdaily, hzero⟩
    · exact hrecord
  unfold countCall at h
  dsimp only at h
  split at h
  · cases h
  next hbelow =>
    split at h
    · cases h
    cases h
    rw [rowInRange_iff] at hreset ⊢
    obtain ⟨hrequests, htokens, hrpm, hdaily, hused⟩ := hreset
    refine ⟨hrequests, htokens, hrpm, hdaily, ?_⟩
    rw [IntegerType.integer_holds_iff] at hdaily hused ⊢
    dsimp only
    omega

theorem APIKey.countUse_inRange_iff {record : APIKey} {totalTokens : ℤ}
    (hrecord : RowInRange record) (hnonneg : 0 ≤ totalTokens) :
    RowInRange (record.countUse totalTokens) ↔
      record.totalRequests + 1 ≤ IntegerType.bigInteger.maxValue ∧
        record.totalTokens + totalTokens ≤ IntegerType.bigInteger.maxValue := by
  rw [rowInRange_iff] at hrecord ⊢
  obtain ⟨hrequests, htokens, hrpm, hdaily, hused⟩ := hrecord
  constructor
  · intro h
    exact ⟨h.1.2, h.2.1.2⟩
  · rintro ⟨hrequests', htokens'⟩
    refine ⟨⟨?_, hrequests'⟩, ⟨?_, htokens'⟩, hrpm, hdaily, hused⟩
    · exact le_trans hrequests.1 (le_add_of_nonneg_right zero_le_one)
    · exact le_trans htokens.1 (le_add_of_nonneg_right hnonneg)

/-- One settlement moves the counters that hold its reservation. -/
theorem used_settleProject_settledBy (r : OrbiRequest) (actual : ℤ) (project : Project)
    (period : Period) :
    period.used (settleProject [r.settledBy actual] project) =
      if r.countsIn period project then
        max 0 (period.used project + (actual - r.reservedTokens))
      else period.used project := by
  change period.used ((r.settledBy actual).apply project) = _
  rw [Settlement.used_apply, countsIn_settledBy, Settlement.moves, countsIn_settledBy]
  split
  · rfl
  · rfl

theorem settledBy_inRange_iff {r : OrbiRequest} {actual : ℤ} {project : Project}
    (hproject : RowInRange project) :
    RowInRange (settleProject [r.settledBy actual] project) ↔
      ∀ period : Period, r.countsIn period project = true →
        period.used project + (actual - r.reservedTokens) ≤
          IntegerType.bigInteger.maxValue := by
  rw [Project.rowInRange_iff] at hproject ⊢
  constructor
  · intro h period hcounts
    have hused := (h period).2
    rw [used_settleProject_settledBy, if_pos hcounts] at hused
    exact (le_max_right _ _).trans hused.2
  · intro h period
    obtain ⟨hlimit, hused⟩ := hproject period
    rw [limit_settleProject, used_settleProject_settledBy]
    refine ⟨hlimit, ?_⟩
    split
    next hcounts =>
      rw [IntegerType.holds_iff_of_nonneg (le_max_left _ _)]
      exact max_le (by decide) (h period hcounts)
    next => exact hused

end Rows

/-! ## Sound states -/

/-- What the ranges rest on besides the columns: the rows that a settlement needs exist,
and neither counters nor reservations are negative. -/
structure LedgersSound (db : Db) : Prop where
  known : ProjectsKnown db
  owned : RecordsOwned db
  counters : CountersNonneg db
  reserved : ∀ r ∈ db.requests.rows, 1 ≤ r.reservedTokens

namespace LedgersSound

variable {db db' : Db}

theorem ofFresh (h : Fresh db) : LedgersSound db where
  known := by
    intro r hr
    rw [h.requests_empty] at hr
    cases hr
  owned := by
    intro record hrecord
    rw [h.usageRecords_empty] at hrecord
    cases hrecord
  counters := by
    intro project hproject period
    rw [h.counters_zero project hproject period]
  reserved := by
    intro r hr
    rw [h.requests_empty] at hr
    cases hr

theorem exec {op : Op} {reply : Reply} (h : LedgersSound db)
    (hexec : OrbiGateway.exec db op = .ok (reply, db')) : LedgersSound db' where
  known := h.known.exec hexec
  owned := h.owned.exec hexec
  counters := h.counters.exec hexec
  reserved := by
    intro r' hr'
    rw [exec_requests hexec, List.mem_append, List.mem_map] at hr'
    rcases hr' with ⟨r, hr, rfl⟩ | hnew
    · obtain ⟨-, -, -, -, -, hreserved, -⟩ := (exec_rowStep hexec hr).fixed
      rw [hreserved]
      exact h.reserved r hr
    · obtain ⟨call, project, project', -, -, hrow, -⟩ := exec_newRow hexec hnew
      exact (Project.reserve_spec hrow.reserve).tokens_pos

theorem createProject {payload : ProjectCreateRequest} {readings : ProjectReadings}
    {projects : Table Project} (h : LedgersSound db)
    (hinsert : db.projects.insert (newProject payload readings) = some projects) :
    LedgersSound { db with projects := projects } where
  known := by
    intro r hr
    obtain ⟨project, hproject, hid⟩ := h.known r hr
    exact ⟨project, (Table.mem_of_insert hinsert).mpr (Or.inl hproject), hid⟩
  owned := h.owned
  counters := by
    intro project hproject period
    rcases (Table.mem_of_insert hinsert).mp hproject with hold | rfl
    · exact h.counters project hold period
    · cases period with
      | daily => exact le_refl 0
      | monthly => exact le_refl 0
  reserved := h.reserved

theorem rescan {requests : Table OrbiRequest} (h : LedgersSound db)
    (hperm : requests.rows.Perm db.requests.rows) :
    LedgersSound { db with requests := requests } where
  known := fun r hr => h.known r (hperm.mem_iff.mp hr)
  owned := h.owned.rescan hperm
  counters := h.counters
  reserved := fun r hr => h.reserved r (hperm.mem_iff.mp hr)

end LedgersSound

/-! ## What an operation leaves in the columns -/

section Columns

variable {db db' : Db} {op : Op} {reply : Reply}

theorem newRow_inRange (hexec : exec db op = .ok (reply, db')) {record : OrbiRequest}
    (hrecord : record ∈ reply.newRows) : RowInRange record := by
  obtain ⟨call, -, -, rfl, rfl, -⟩ := exec_newRow hexec hrecord
  obtain ⟨apiKey, -, ⟨existing, -, hreply, -⟩ |
    ⟨queued, project, project', hreply, hqueues⟩⟩ := exec_chat_cases hexec
  · have hnone := newRows_existingReply existing
    rw [← hreply] at hnone
    cases hnone
  · cases hreply
    obtain ⟨modelAlias, -, rfl⟩ := hqueues.record_eq
    exact newRequest_inRange (Project.reserve_spec hqueues.reserve).tokens_pos

theorem requests_inRange (hin : db.InColumns) (hexec : exec db op = .ok (reply, db'))
    (hparameters : (GatewayCall.perform op).ParametersInRange) :
    ∀ r ∈ db'.requests.rows, RowInRange r := by
  intro r' hr'
  rw [exec_requests hexec, List.mem_append, List.mem_map] at hr'
  rcases hr' with ⟨r, hr, rfl⟩ | hnew
  · exact (exec_rowStep hexec hr).rowInRange (hin.requests r hr) hparameters
  · exact newRow_inRange hexec hnew

/-- Only an accepted result can raise a counter past its limit. -/
theorem projects_inRange (hin : db.InColumns) (hsound : LedgersSound db)
    (hexec : exec db op = .ok (reply, db'))
    (hop : ∀ worker payload now, op ≠ .submitResult worker payload now) :
    ∀ project ∈ db'.projects.rows, RowInRange project := by
  intro project' hproject'
  rcases exec_project_cases hexec hproject' with
    ⟨-, project, hproject, rfl⟩ | ⟨call, record, -, -, ⟨project, hrow⟩ | ⟨hold, -⟩⟩
  · exact settleProject_inRange (actual_le_reserved hsound.reserved hop)
      (hsound.counters project hproject) (hin.projects project hproject)
  · exact (Project.reserve_spec hrow.reserve).rowInRange
      (hin.projects project (Table.mem_of_find hrow.findProject))
  · exact hin.projects project' hold

/-- An operation that reports no usage stays in the columns. -/
theorem inColumns_exec (hin : db.InColumns) (hsound : LedgersSound db)
    (hexec : exec db op = .ok (reply, db'))
    (hop : ∀ worker payload now, op ≠ .submitResult worker payload now)
    (hparameters : (GatewayCall.perform op).ParametersInRange) : db'.InColumns := by
  have hworkers := (exec_frame hexec).1
  refine ⟨projects_inRange hin hsound hexec hop, ?_, by rw [hworkers]; exact hin.workers,
    requests_inRange hin hexec hparameters, ?_⟩
  · intro record' hrecord'
    cases exec_ledgerStep hexec with
    | @counted call reply apiKey hkey hkeys husage =>
        obtain ⟨found, hfound, -, -, hcount, -⟩ := requireApiKey_spec hkey
        rw [hkeys] at hrecord'
        rcases Table.mem_put hrecord' with rfl | ⟨hold, -⟩
        · exact APIKey.countCall_inRange hcount (hin.apiKeys found hfound)
        · exact hin.apiKeys record' hold
    | kept hchat hkeys husage hrefused =>
        rw [hkeys] at hrecord'
        exact hin.apiKeys record' hrecord'
    | used => exact absurd rfl (hop _ _ _)
  · intro record hrecord
    cases exec_ledgerStep hexec with
    | counted hkey hkeys husage =>
        rw [husage] at hrecord
        exact hin.usageRecords record hrecord
    | kept hchat hkeys husage hrefused =>
        rw [husage] at hrecord
        exact hin.usageRecords record hrecord
    | used => exact absurd rfl (hop _ _ _)

end Columns

/-! ## Reports -/

/-- The sums that the acceptance of a report would store fit their columns, and so does
the latency of its usage record. -/
structure RoomFor (db : Db) (r : OrbiRequest) (payload : WorkerResultRequest) : Prop where
  latency : payload.latencyMs ≤ IntegerType.integer.maxValue
  totals : ∀ record ∈ db.apiKeys.rows, record.id = r.apiKeyId →
    record.totalRequests + 1 ≤ IntegerType.bigInteger.maxValue ∧
      record.totalTokens + (payload.inputTokens + payload.outputTokens) ≤
        IntegerType.bigInteger.maxValue
  counters : ∀ project ∈ db.projects.rows, ∀ period : Period,
    r.countsIn period project = true →
      period.used project +
          (payload.inputTokens + payload.outputTokens - r.reservedTokens) ≤
        IntegerType.bigInteger.maxValue

section Tables

/-- A settlement stays in the columns exactly if no counter that it moves leaves its own. -/
theorem settleAll_inRange_iff (r : OrbiRequest) (actual : ℤ) {projects : Table Project}
    (hin : ∀ project ∈ projects.rows, RowInRange project) :
    (∀ project ∈ (settleAll [r.settledBy actual] projects).rows, RowInRange project) ↔
      ∀ project ∈ projects.rows, ∀ period : Period, r.countsIn period project = true →
        period.used project + (actual - r.reservedTokens) ≤
          IntegerType.bigInteger.maxValue := by
  rw [settleAll, Table.rows_mapRows, List.forall_mem_map]
  exact forall₂_congr fun project hproject => settledBy_inRange_iff (hin project hproject)

theorem keys_inRange_countUse_iff {r : OrbiRequest} {totalTokens : ℤ}
    {apiKeys : Table APIKey} (hin : ∀ record ∈ apiKeys.rows, RowInRange record)
    (hnonneg : 0 ≤ totalTokens) :
    (∀ record ∈ (QueueService.countUse r totalTokens apiKeys).rows, RowInRange record) ↔
      ∀ record ∈ apiKeys.rows, record.id = r.apiKeyId →
        record.totalRequests + 1 ≤ IntegerType.bigInteger.maxValue ∧
          record.totalTokens + totalTokens ≤ IntegerType.bigInteger.maxValue := by
  rw [QueueService.countUse, Table.rows_updateWhere, List.forall_mem_map]
  refine forall₂_congr fun record hrecord => ?_
  have hrow := hin record hrecord
  by_cases hid : record.id = r.apiKeyId
  · simpa [hid] using APIKey.countUse_inRange_iff hrow hnonneg
  · simpa [hid] using hrow

theorem insert_inRange_iff {ρ κ : Type*} [HasKey ρ κ] [DecidableEq κ] [HasCells ρ]
    {t t' : Table ρ} {new : ρ} (hin : ∀ row ∈ t.rows, RowInRange row)
    (hinsert : t.insert new = some t') :
    (∀ row ∈ t'.rows, RowInRange row) ↔ RowInRange new := by
  constructor
  · intro h
    exact h new ((Table.mem_of_insert hinsert).mpr (Or.inr rfl))
  · intro hnew row hrow
    rcases (Table.mem_of_insert hinsert).mp hrow with hold | rfl
    · exact hin row hold
    · exact hnew

end Tables

theorem usageRecordOf_inRange_iff {r : OrbiRequest} {worker : Worker}
    {payload : WorkerResultRequest}
    (hinput : IntegerType.integer.Holds payload.inputTokens)
    (houtput : IntegerType.integer.Holds payload.outputTokens) :
    RowInRange (QueueService.usageRecordOf r worker payload.inputTokens
        payload.outputTokens payload.latencyMs) ↔
      payload.latencyMs ≤ IntegerType.integer.maxValue := by
  rw [UsageRecord.rowInRange_iff]
  constructor
  · rintro ⟨-, -, hlatency⟩
    exact (hlatency payload.latencyMs rfl).2
  · intro hlatency
    refine ⟨hinput, houtput, ?_⟩
    rintro n ⟨⟩
    exact (IntegerType.holds_iff_of_nonneg payload.latencyMs_nonneg).mpr hlatency

/-- An accepted report with both token counts in range stays in the columns exactly if
there is room for it. -/
theorem inColumns_accepted_iff {db db' : Db} {worker : Worker}
    {payload : WorkerResultRequest} {now : Timestamp} {reply : Reply} {r : OrbiRequest}
    (hin : db.InColumns) (hr : r ∈ db.requests.rows)
    (hheld : r.isHeldBy payload.requestId worker.id = true)
    (hparameters : (GatewayCall.perform (.submitResult worker payload now)).ParametersInRange)
    (hexec : exec db (.submitResult worker payload now) = .ok (reply, db')) :
    db'.InColumns ↔ RoomFor db r payload := by
  have hrequests := requests_inRange hin hexec hparameters
  have hinput : IntegerType.integer.Holds payload.inputTokens :=
    hparameters ⟨.integer, payload.inputTokens⟩ (by simp [GatewayCall.parameters])
  have houtput : IntegerType.integer.Holds payload.outputTokens :=
    hparameters ⟨.integer, payload.outputTokens⟩ (by simp [GatewayCall.parameters])
  have hnonneg : 0 ≤ payload.inputTokens + payload.outputTokens :=
    Int.add_nonneg payload.inputTokens_nonneg payload.outputTokens_nonneg
  rcases exec_submitResult_cases hexec with
    ⟨-, -, hno⟩ | ⟨winner, hmem, usageRecords, -, hwinner, hinsert, rfl⟩
  · rw [hno r hr] at hheld
    cases hheld
  have hsame : winner = r := by
    apply db.requests.eq_of_key_eq hmem hr
    exact (OrbiRequest.isHeldBy_iff.mp hwinner).1.trans
      (OrbiRequest.isHeldBy_iff.mp hheld).1.symm
  subst hsame
  have hlatency := (insert_inRange_iff hin.usageRecords hinsert).trans
    (usageRecordOf_inRange_iff hinput houtput)
  have htotals := keys_inRange_countUse_iff (r := winner) hin.apiKeys hnonneg
  have hcounters := settleAll_inRange_iff winner
    (payload.inputTokens + payload.outputTokens) hin.projects
  constructor
  · intro h
    exact ⟨hlatency.mp h.usageRecords, htotals.mp h.apiKeys, hcounters.mp h.projects⟩
  · intro hroom
    exact ⟨hcounters.mpr hroom.counters, htotals.mpr hroom.totals, hin.workers, hrequests,
      hlatency.mpr hroom.latency⟩

/-! ## Calls -/

namespace GatewayCall

/-- What the schemas leave open: a report whose integers fit their columns and for whose
acceptance there is room, and limits that fit theirs.  The other calls always fit. -/
def Fits (db : Db) : GatewayCall → Prop
  | perform (.submitResult worker payload _) =>
      payload.inputTokens ≤ IntegerType.integer.maxValue ∧
        payload.outputTokens ≤ IntegerType.integer.maxValue ∧
        ∀ r ∈ db.requests.rows, r.isHeldBy payload.requestId worker.id = true →
          RoomFor db r payload
  | createProject payload _ =>
      payload.dailyTokenLimit ≤ IntegerType.bigInteger.maxValue ∧
        payload.monthlyTokenLimit ≤ IntegerType.bigInteger.maxValue
  | _ => True

theorem parametersInRange_submitResult_iff {worker : Worker} {payload : WorkerResultRequest}
    {now : Timestamp} :
    (perform (.submitResult worker payload now)).ParametersInRange ↔
      payload.inputTokens ≤ IntegerType.integer.maxValue ∧
        payload.outputTokens ≤ IntegerType.integer.maxValue := by
  simp only [ParametersInRange, parameters, List.forall_mem_cons, List.not_mem_nil,
    false_implies, implies_true, and_true, IntegerCell.InRange,
    IntegerType.holds_iff_of_nonneg payload.inputTokens_nonneg,
    IntegerType.holds_iff_of_nonneg payload.outputTokens_nonneg]

theorem parametersInRange_createProject_iff {payload : ProjectCreateRequest}
    {readings : ProjectReadings} :
    (createProject payload readings).ParametersInRange ↔
      payload.dailyTokenLimit ≤ IntegerType.bigInteger.maxValue ∧
        payload.monthlyTokenLimit ≤ IntegerType.bigInteger.maxValue := by
  simp only [ParametersInRange, parameters, List.forall_mem_cons, List.not_mem_nil,
    false_implies, implies_true, and_true, IntegerCell.InRange,
    IntegerType.holds_iff_of_nonneg (zero_le_one.trans payload.dailyTokenLimit_pos),
    IntegerType.holds_iff_of_nonneg (zero_le_one.trans payload.monthlyTokenLimit_pos)]

section Stores

variable {db : NamedDb}

theorem storesInRange_perform {op : Op} (hin : db.InColumns)
    (hsound : LedgersSound db.toDb)
    (hop : ∀ worker payload now, op ≠ .submitResult worker payload now) :
    (perform op).StoresInRange db := by
  have hparameters : (perform op).ParametersInRange := by
    intro cell hcell
    cases op with
    | submitResult worker payload now => exact absurd rfl (hop worker payload now)
    | _ => cases hcell
  refine ⟨hparameters, ?_⟩
  intro reply next hrun
  obtain ⟨answer, mid, hexec, -, rfl⟩ := run_perform_eq_ok_iff.mp hrun
  exact inColumns_exec hin hsound hexec hop hparameters

/-- A result submission stores integers in range exactly if it fits. -/
theorem storesInRange_submitResult_iff {worker : Worker} {payload : WorkerResultRequest}
    {now : Timestamp} (hin : db.InColumns) (hsound : LedgersSound db.toDb) :
    (perform (.submitResult worker payload now)).StoresInRange db ↔
      (perform (.submitResult worker payload now)).Fits db.toDb := by
  constructor
  · intro h
    obtain ⟨hinput, houtput⟩ := parametersInRange_submitResult_iff.mp h.parameters
    refine ⟨hinput, houtput, ?_⟩
    intro r hr hheld
    obtain ⟨mid, hexec⟩ :=
      exec_submitResult_of_isHeldBy hsound.known hsound.owned hr hheld now
    exact (inColumns_accepted_iff hin hr hheld h.parameters hexec).mp
      (h.rows _ _ (run_perform_eq_ok_iff.mpr ⟨_, mid, hexec, rfl, rfl⟩))
  · rintro ⟨hinput, houtput, hroom⟩
    have hparameters : (perform (.submitResult worker payload now)).ParametersInRange :=
      parametersInRange_submitResult_iff.mpr ⟨hinput, houtput⟩
    refine ⟨hparameters, ?_⟩
    intro reply next hrun
    obtain ⟨answer, mid, hexec, -, rfl⟩ := run_perform_eq_ok_iff.mp hrun
    rcases exec_submitResult_cases hexec with ⟨-, rfl, -⟩ | ⟨r, hr, -, -, hheld, -⟩
    · exact hin
    · exact (inColumns_accepted_iff hin hr hheld hparameters hexec).mpr (hroom r hr hheld)

theorem storesInRange_createProject_iff {payload : ProjectCreateRequest}
    {readings : ProjectReadings} (hin : db.InColumns) :
    (createProject payload readings).StoresInRange db ↔
      (createProject payload readings).Fits db.toDb := by
  constructor
  · intro h
    exact parametersInRange_createProject_iff.mp h.parameters
  · intro hfits
    refine ⟨parametersInRange_createProject_iff.mpr hfits, ?_⟩
    intro reply next hrun
    obtain ⟨projects, projectNames, hinsert, rfl⟩ := run_createProject_spec hrun
    have hzero : IntegerType.bigInteger.Holds 0 := by decide
    have hnew : RowInRange (newProject payload readings) := by
      rw [Project.rowInRange_iff]
      intro period
      cases period with
      | daily =>
          exact ⟨(IntegerType.holds_iff_of_nonneg
            (zero_le_one.trans payload.dailyTokenLimit_pos)).mpr hfits.1, hzero⟩
      | monthly =>
          exact ⟨(IntegerType.holds_iff_of_nonneg
            (zero_le_one.trans payload.monthlyTokenLimit_pos)).mpr hfits.2, hzero⟩
    exact ⟨(insert_inRange_iff hin.projects hinsert).mpr hnew, hin.apiKeys, hin.workers,
      hin.requests, hin.usageRecords⟩

theorem storesInRange_iff_fits {call : GatewayCall} (hin : db.InColumns)
    (hsound : LedgersSound db.toDb) : call.StoresInRange db ↔ call.Fits db.toDb := by
  cases call with
  | createProject payload readings => exact storesInRange_createProject_iff hin
  | perform op =>
      cases op with
      | submitResult worker payload now => exact storesInRange_submitResult_iff hin hsound
      | _ => exact iff_of_true (storesInRange_perform hin hsound (by simp)) trivial

end Stores

end GatewayCall

/-! ## Every run -/

theorem LedgersSound.storedStep {db db' : StoredDb} {e : StoredEvent}
    (h : LedgersSound db.val.toDb) (hstep : StoredStep db e db') :
    LedgersSound db'.val.toDb := by
  cases hstep with
  | @performed _ call reply hstore =>
      obtain ⟨-, hrun⟩ := guarded_eq_ok_iff.mp hstore
      cases call with
      | perform op =>
          obtain ⟨answer, mid, hexec, -, hnext⟩ :=
            GatewayCall.run_perform_eq_ok_iff.mp hrun
          rw [hnext]
          exact h.exec hexec
      | createProject payload readings =>
          obtain ⟨projects, projectNames, hinsert, hnext⟩ :=
            GatewayCall.run_createProject_spec hrun
          rw [hnext]
          exact h.createProject hinsert
  | refused => exact h
  | rescanned hperm hrest =>
      rw [hrest]
      exact h.rescan hperm

theorem ledgersSound_of_storedHistory {db₀ db : StoredDb} {history : List StoredEvent}
    (hfresh : Fresh db₀.val.toDb) (hrun : StoredHistory db₀ history db) :
    LedgersSound db.val.toDb :=
  hrun.invariant (I := fun s : StoredDb => LedgersSound s.val.toDb) (.ofFresh hfresh)
    fun _ _ _ h hstep => h.storedStep hstep

/-- The call stores integers in range only and is not refused for one. -/
def GatewayCall.StaysInRange (db : StoredDb) (call : GatewayCall) : Prop :=
  call.StoresInRange db.val ∧ store db call ≠ .error .violation

/-- No state that is reachable from this one meets an admitted payload whose integers
leave their columns. -/
def PayloadsInRange (db₀ : StoredDb) : Prop :=
  ∀ history db, StoredHistory db₀ history db →
    (∀ call, (GatewayCall.perform (.chat call)).StaysInRange db) ∧
    (∀ worker payload now,
      (GatewayCall.perform (.submitResult worker payload now)).StaysInRange db) ∧
    ∀ payload readings, (GatewayCall.createProject payload readings).StaysInRange db

/-- Every call of the run stays in range, and so none was refused for an integer. -/
structure IntegersInRange (db₀ : StoredDb) (history : List StoredEvent) (db : StoredDb) :
    Prop where
  stays : Along StoredStep
    (fun before e => ∀ call, e.call = some call → call.StaysInRange before) db₀ history db
  not_refused : ∀ call, StoredEvent.refused call .violation ∉ history

/-- Every call of the run fits the state in which it is made. -/
def CallsFit (db₀ : StoredDb) (history : List StoredEvent) (db : StoredDb) : Prop :=
  Along StoredStep
    (fun before e => ∀ call, e.call = some call → call.Fits before.val.toDb) db₀ history db

/-- In a sound state a call stays in range exactly if it fits. -/
theorem GatewayCall.staysInRange_iff_fits {db : StoredDb} {call : GatewayCall}
    (hsound : LedgersSound db.val.toDb) :
    call.StaysInRange db ↔ call.Fits db.val.toDb := by
  rw [StaysInRange, store_ne_violation_iff, and_self]
  exact storesInRange_iff_fits db.property hsound

theorem not_refused_of_stays {db₀ db : StoredDb} {history : List StoredEvent}
    (hrun : StoredHistory db₀ history db)
    (hstays : Along StoredStep
      (fun before e => ∀ call, e.call = some call → call.StaysInRange before)
      db₀ history db) :
    ∀ call, StoredEvent.refused call .violation ∉ history := by
  intro call hrefused
  obtain ⟨newer, older, before, after, hhistory, hold, hstep, hnew⟩ :=
    hrun.exists_step hrefused
  have hcall := hstays newer _ older before after hhistory hold hstep hnew call rfl
  cases hstep with
  | refused hstore => exact hcall.2 hstore

/-- Along a run all calls stay in range exactly if all of them fit. -/
theorem along_staysInRange_iff {db₀ db : StoredDb} {history : List StoredEvent}
    (hfresh : Fresh db₀.val.toDb) :
    Along StoredStep
        (fun before e => ∀ call, e.call = some call → call.StaysInRange before)
        db₀ history db ↔
      CallsFit db₀ history db := by
  apply along_congr (I := fun s : StoredDb => LedgersSound s.val.toDb)
  · exact .ofFresh hfresh
  · intro before e after h hstep
    exact h.storedStep hstep
  · intro before e after h hstep
    exact forall_congr' fun call => imp_congr_right fun _ =>
      GatewayCall.staysInRange_iff_fits h

namespace Sample

/-- The sample deployment with the name of its project. -/
def storedDb : StoredDb :=
  ⟨{ db with projectNames := ⟨[⟨1, "Sample", "sample", 30⟩], by decide⟩ }, by decide⟩

/-- One request, accepted and claimed, on the declared columns. -/
def storedAssigned : List StoredEvent × StoredDb :=
  performAll StoredDb.perform storedDb (assigned.map .perform)

/-- A report of 2 ^ 31 input tokens. -/
def oversizedReport : WorkerResultRequest :=
  resultFor 100 2147483648 5 (Int.natCast_nonneg 2147483648) (Int.natCast_nonneg 5)

/-- A project whose daily limit is 2 ^ 63. -/
def oversizedProject : ProjectCreateRequest where
  name := "Large"
  slug := "large"
  ownerId := 30
  dailyTokenLimit := 9223372036854775808
  name_nonempty := by decide
  name_le := by decide
  slug_ge := by decide
  slug_le := by decide
  slug_pattern := by decide
  dailyTokenLimit_pos := by decide
  monthlyTokenLimit_pos := by decide

end Sample

/-- The report of the worker that holds the request is refused for its token count, and the
creation of a project for its limit. -/
theorem payloads_leave_columns :
    Fresh Sample.storedDb.val.toDb ∧
      Sample.storedAssigned.2.val.requests.rows.map
        (fun r => r.isHeldBy Sample.oversizedReport.requestId Sample.worker.id) = [true] ∧
      store Sample.storedAssigned.2
        (.perform (.submitResult Sample.worker Sample.oversizedReport 2)) =
          .error .violation ∧
      store Sample.storedDb (.createProject Sample.oversizedProject ⟨2, Sample.day⟩) =
        .error .violation ∧
      ¬PayloadsInRange Sample.storedDb := by
  have hreport : store Sample.storedAssigned.2
      (.perform (.submitResult Sample.worker Sample.oversizedReport 2)) =
        .error .violation := rfl
  refine ⟨Sample.fresh_db, by decide, hreport, rfl, ?_⟩
  intro hclaimed
  obtain ⟨-, hresults, -⟩ := hclaimed _ _
    (run_performAll step_storedPerform Sample.storedDb (Sample.assigned.map .perform))
  exact (hresults Sample.worker Sample.oversizedReport 2).2 hreport

/-- In every reachable state exactly the calls that fit stay within the columns, and along
every run all integers do if and only if every call fits when it is made. -/
theorem integers_in_range_iff_calls_fit {db₀ db : StoredDb} {history : List StoredEvent}
    (hfresh : Fresh db₀.val.toDb) (hrun : StoredHistory db₀ history db) :
    (∀ call : GatewayCall, call.StaysInRange db ↔ call.Fits db.val.toDb) ∧
      (IntegersInRange db₀ history db ↔ CallsFit db₀ history db) := by
  have hsound := ledgersSound_of_storedHistory hfresh hrun
  refine ⟨fun call => GatewayCall.staysInRange_iff_fits hsound, ?_⟩
  constructor
  · intro h
    exact (along_staysInRange_iff hfresh).mp h.stays
  · intro hfits
    have hstays := (along_staysInRange_iff hfresh).mpr hfits
    exact ⟨hstays, not_refused_of_stays hrun hstays⟩

namespace Sample

def smallProject : ProjectCreateRequest where
  name := "Second"
  slug := "second-project"
  ownerId := 30
  name_nonempty := by decide
  name_le := by decide
  slug_ge := by decide
  slug_le := by decide
  slug_pattern := by decide
  dailyTokenLimit_pos := by decide
  monthlyTokenLimit_pos := by decide

/-- The life of one request, then a second project. -/
def storedLifecycle : List StoredEvent × StoredDb :=
  performAll StoredDb.perform storedDb
    (lifecycle.map .perform ++ [.createProject smallProject ⟨2, day⟩])

end Sample

theorem integers_in_range_iff_calls_fit_lifecycle :
    Sample.storedLifecycle.2.val.projects.rows.map (·.dailyTokensUsed) = [7, 0] ∧
      (∀ call : GatewayCall, call.StaysInRange Sample.storedLifecycle.2 ↔
        call.Fits Sample.storedLifecycle.2.val.toDb) ∧
      (IntegersInRange Sample.storedDb Sample.storedLifecycle.1 Sample.storedLifecycle.2 ↔
        CallsFit Sample.storedDb Sample.storedLifecycle.1 Sample.storedLifecycle.2) :=
  ⟨by decide, integers_in_range_iff_calls_fit Sample.fresh_db
    (run_performAll step_storedPerform Sample.storedDb _)⟩

end OrbiGateway
