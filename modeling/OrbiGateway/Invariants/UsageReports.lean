import OrbiGateway.Invariants.GatewayLedgers

/-!
# Usage reports

What `get_usage` answers is a count over the calls that came before it: the completed
requests and tokens of a key are those of the results that were accepted for requests queued
with it, and the tokens of a period are what the requests of the project hold or have used.
-/

namespace OrbiGateway

open Relational Transition

/-! ## Usage records and results -/

/-- The columns of a usage record that come from the submission. -/
def UsageRecord.submission (record : UsageRecord) : UUID × Option UUID × ℤ × ℤ :=
  (record.requestId, record.workerId, record.inputTokens, record.outputTokens)

/-- The same columns, as a worker submits them. -/
def submissionOf (entry : Worker × WorkerResultRequest) : UUID × Option UUID × ℤ × ℤ :=
  (entry.2.requestId, some entry.1.id, entry.2.inputTokens, entry.2.outputTokens)

theorem Event.acceptedResult_of_refused {op : Op} {reply : Reply} {settled : List Settlement}
    (h : reply ≠ .resultAccepted true) :
    (Event.performed op reply settled).acceptedResult = none := by
  unfold acceptedResult
  split
  next heq =>
    cases heq
    exact absurd rfl h
  · rfl

/-- The records are the accepted results, in the order of acceptance. -/
theorem submissions_of_coreRun {db₀ db : Db} {history : List (Option Event)}
    (hstart : db₀.usageRecords.rows = []) (hrun : CoreRun db₀ history db) :
    db.usageRecords.rows.map UsageRecord.submission =
      (((operations history).filterMap Event.acceptedResult).map submissionOf).reverse := by
  apply coreRun_invariant (I := fun history db =>
    db.usageRecords.rows.map UsageRecord.submission =
      ((history.filterMap Event.acceptedResult).map submissionOf).reverse) hrun
  · rw [hstart]
    rfl
  · intro history db e db' _ ih hstep _
    cases hstep with
    | @performed _ op reply hexec =>
        cases exec_ledgerStep hexec with
        | counted hkey hkeys husage =>
            rw [husage, ih]
            rfl
        | @used worker payload now r hmem hheld hkeys husage =>
            have hid : r.id = payload.requestId := (OrbiRequest.isHeldBy_iff.mp hheld).1
            rw [(Table.insert_eq_some_iff.mp husage).2, List.map_append, ih]
            simp [Event.acceptedResult, submissionOf, UsageRecord.submission,
              QueueService.usageRecordOf, hid]
        | kept hchat hkeys husage hrefused =>
            rw [husage, ih, List.filterMap_cons_none (Event.acceptedResult_of_refused hrefused)]
    | failed => exact ih
    | rescanned => exact ih
  · intro history db db' _ ih hadmin
    rw [hadmin.usageRecords]
    exact ih

/-- The results that were accepted for requests queued with a key. -/
def resultsOfKey (apiKeyId : UUID) (history : List GatewayEvent) :
    List (Worker × WorkerResultRequest) :=
  (acceptedResults history).filter fun entry =>
    (queuedRows history).any fun row =>
      row.id == entry.2.requestId && row.apiKeyId == apiKeyId

section Runs

variable {services : GatewayServices} {history : List GatewayEvent} {s : GatewayState}

theorem GatewayRun.apiKeyId_eq_iff (hrun : GatewayRun services history s)
    {record : UsageRecord} (hrecord : record ∈ s.db.usageRecords.rows) (apiKeyId : UUID) :
    record.apiKeyId = apiKeyId ↔
      ∃ row ∈ queuedRows history, row.id = record.requestId ∧ row.apiKeyId = apiKeyId := by
  obtain ⟨r, hr, hof⟩ := hrun.references.usage record hrecord
  obtain ⟨haccepted, hkept⟩ := hrun.rows_queued
  constructor
  · intro hid
    obtain ⟨row, hrow, hsame⟩ := haccepted r hr
    refine ⟨row, hrow, hsame.id.symm.trans hof.requestId.symm, ?_⟩
    rw [← hsame.apiKeyId, ← hof.apiKeyId, hid]
  · rintro ⟨row, hrow, hid, rfl⟩
    obtain ⟨r', hr', hsame⟩ := hkept row hrow
    have heq : r' = r :=
      s.db.requests.eq_of_key_eq hr' hr (hsame.id.trans (hid.trans hof.requestId))
    rw [hof.apiKeyId, ← heq, hsame.apiKeyId]

/-- The records of a key are the results accepted for its requests. -/
theorem GatewayRun.submissions_of_key (hrun : GatewayRun services history s)
    (apiKeyId : UUID) :
    (usageOfKey apiKeyId s.db.toDb).map UsageRecord.submission =
      ((resultsOfKey apiKeyId history).map submissionOf).reverse := by
  let isOfKey : UUID × Option UUID × ℤ × ℤ → Bool := fun submission =>
    (queuedRows history).any fun row =>
      row.id == submission.1 && row.apiKeyId == apiKeyId
  obtain ⟨owns, hmirrors, hcore⟩ := hrun.core
  have hall := submissions_of_coreRun rfl hcore
  rw [acceptedResults_mirrored hmirrors] at hall
  have hfilter : usageOfKey apiKeyId s.db.toDb =
      s.db.usageRecords.rows.filter (isOfKey ∘ UsageRecord.submission) := by
    apply List.filter_congr
    intro record hrecord
    rw [Bool.eq_iff_iff, beq_iff_eq, hrun.apiKeyId_eq_iff hrecord]
    simp [isOfKey, UsageRecord.submission]
  calc (usageOfKey apiKeyId s.db.toDb).map UsageRecord.submission
      = (s.db.usageRecords.rows.map UsageRecord.submission).filter isOfKey := by
        rw [hfilter, List.filter_map]
    _ = (((acceptedResults history).map submissionOf).filter isOfKey).reverse := by
        rw [hall, List.filter_reverse]
    _ = ((resultsOfKey apiKeyId history).map submissionOf).reverse := by
        rw [List.filter_map]
        rfl

theorem GatewayRun.totals_of_key (hrun : GatewayRun services history s) {record : APIKey}
    (hrecord : record ∈ s.db.apiKeys.rows) :
    record.totalRequests = (resultsOfKey record.id history).length ∧
      record.totalTokens = ((resultsOfKey record.id history).map fun entry =>
        entry.2.inputTokens + entry.2.outputTokens).sum := by
  have htotals := hrun.ledgersAgree.totals record hrecord
  have hsubmissions := hrun.submissions_of_key record.id
  have hlength := congrArg List.length hsubmissions
  have htokens := congrArg
    (fun submissions => (submissions.map fun entry => entry.2.2.1 + entry.2.2.2).sum)
    hsubmissions
  simp only [List.length_map, List.length_reverse] at hlength
  simp only [List.map_map, List.map_reverse, List.sum_reverse] at htokens
  refine ⟨?_, ?_⟩
  · rw [htotals.requests, hlength]
  · rw [htotals.tokens]
    exact htokens

end Runs

/-! ## The report -/

/-- What a report says about the history before it. -/
structure ReportOf (s : GatewayState) (history : List GatewayEvent) (record : APIKey)
    (report : UsageReport) : Prop where
  project : report.projectId = record.projectId
  requests : report.completedRequests = (resultsOfKey record.id history).length
  tokens : report.completedTokens = ((resultsOfKey record.id history).map fun entry =>
    entry.2.inputTokens + entry.2.outputTokens).sum
  daily : QueuedInOrder history → report.daily.tokensUsedOrReserved =
    datedLedger s.db.toDb .daily record.projectId report.daily.date
  monthly : QueuedInOrder history → report.monthly.tokensUsedOrReserved =
    datedLedger s.db.toDb .monthly record.projectId report.monthly.date

/-- Every usage report of every run counts the accepted results and the reservations of the
calls before it. -/
theorem usage_reports_count_results {services : GatewayServices}
    {history : List GatewayEvent} {s s' : GatewayState} {authorization : Option String}
    {clock : AuthClock} {report : UsageReport} (hrun : GatewayRun services history s)
    (hact : act services s (.client authorization clock .getUsage) =
      (.replied (.usage report), s')) :
    ∃ parsed record, (bearerKey authorization).bind APIKeyService.parse = some parsed ∧
      findActiveKey s.db.toDb parsed.keyId = some record ∧
      ReportOf s history record report := by
  cases (GatewayStep.acted hact).change with
  | @replied _ _ _ parsed _ db _ hparsed hserve =>
      obtain ⟨⟨counted, after⟩, hkey, hrest⟩ := Except.bind_eq_ok_iff.mp hserve
      obtain ⟨⟨⟩, -, hroute⟩ := Except.bind_eq_ok_iff.mp hrest
      obtain ⟨answer, husage, hpure⟩ := Except.bind_eq_ok_iff.mp hroute
      rw [Except.pure_eq_ok_iff] at hpure
      cases hpure
      obtain ⟨record, hrecord, hfind, -, hcount, rfl⟩ := requireApiKey_spec hkey
      refine ⟨parsed, record, hparsed, hfind, ?_⟩
      have hlookup := APIKey.lookupColumns_countCall hcount
      have hproject : counted.projectId = record.projectId :=
        congrArg (fun columns => columns.2.2) hlookup
      obtain ⟨hrequests, htokens⟩ := APIKey.totals_countCall hcount
      obtain ⟨hresults, hsum⟩ := hrun.totals_of_key hrecord
      unfold getUsage at husage
      split at husage
      · cases husage
      next project hfound =>
        cases husage
        have hid : project.id = record.projectId :=
          (Table.key_of_find hfound).trans hproject
        have hmem : project ∈ s.db.projects.rows := Table.mem_of_find hfound
        refine ⟨hid, hrequests.trans hresults, htokens.trans hsum, ?_, ?_⟩
        · intro hdates
          rw [← hid]
          exact hrun.budgetConserved hdates project hmem .daily
        · intro hdates
          rw [← hid]
          exact hrun.budgetConserved hdates project hmem .monthly

theorem usage_reports_count_results_answered :
    ∃ report record, ReportOf (runActions GatewaySample.services .initial GatewaySample.answered).2
      (runActions GatewaySample.services .initial GatewaySample.answered).1 record report := by
  obtain ⟨report, s', hact⟩ : ∃ report s', act GatewaySample.services
      (runActions GatewaySample.services .initial GatewaySample.answered).2
      (.client GatewaySample.clientHeader GatewaySample.clock .getUsage) =
        (.replied (.usage report), s') := ⟨_, _, rfl⟩
  obtain ⟨-, record, -, -, hreport⟩ := usage_reports_count_results
    (run_runActions GatewaySample.services GatewaySample.answered) hact
  exact ⟨report, record, hreport⟩

end OrbiGateway
