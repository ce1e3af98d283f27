import OrbiGateway.Concurrency.IdempotentAcceptance
import OrbiGateway.Invariants.UsageReports

/-!
# What chat calls answer

A client reads the result of its request while it waits, or when it repeats its call.  Either
way it reads the one submission that was accepted for the request, and a call that waits
reads it from the next poll on.
-/

namespace OrbiGateway

open Relational Transition

/-! ## Rows and results -/

/-- A completed row holds a result that was accepted for it. -/
theorem result_of_coreRun {db₀ db : Db} {history : List (Option Event)}
    (hstart : db₀.requests.rows = []) (hrun : CoreRun db₀ history db) :
    ∀ r ∈ db.requests.rows, r.status = .completed →
      ∃ entry ∈ (operations history).filterMap Event.acceptedResult,
        entry.2.requestId = r.id ∧ r.result = some (.obj entry.2.result) := by
  apply coreRun_rows (I := fun history r => r.status = .completed →
    ∃ entry ∈ history.filterMap Event.acceptedResult,
      entry.2.requestId = r.id ∧ r.result = some (.obj entry.2.result)) hrun hstart
  · intro history db call record project project' settled hnew hcompleted
    rw [hnew.status] at hcompleted
    cases hcompleted
  · intro history r op reply r' settled ih hstep hcompleted
    rcases hstep.completed_cases hcompleted with
      ⟨hold, rfl⟩ | ⟨worker, payload, now, rfl, rfl, hheld, rfl⟩
    · obtain ⟨entry, hentry, hsame⟩ := ih hold
      exact ⟨entry, ((List.sublist_cons_self _ history).filterMap _).subset hentry, hsame⟩
    · exact ⟨(worker, payload), List.mem_cons_self,
        (OrbiRequest.isHeldBy_iff.mp hheld).1.symm, rfl⟩
  · intro history r op failure ih
    exact ih
  · intro history r ih
    exact ih

section Runs

variable {services : GatewayServices} {history : List GatewayEvent} {s : GatewayState}

/-- At most one result is accepted for a request. -/
theorem GatewayRun.results_nodup (hrun : GatewayRun services history s) :
    ((acceptedResults history).map fun entry => entry.2.requestId).Nodup := by
  obtain ⟨owns, hmirrors, hcore⟩ := hrun.core
  have hsubmissions := congrArg (List.map Prod.fst) (submissions_of_coreRun rfl hcore)
  rw [acceptedResults_mirrored hmirrors, List.map_reverse, List.map_map, List.map_map]
    at hsubmissions
  have hkeys : (s.db.usageRecords.rows.map UsageRecord.requestId).Nodup :=
    s.db.usageRecords.keysNodup
  exact List.nodup_reverse.mp (hsubmissions ▸ hkeys)

theorem GatewayRun.row_of_result (hrun : GatewayRun services history s)
    {entry : Worker × WorkerResultRequest} (hentry : entry ∈ acceptedResults history) :
    ∃ r ∈ s.db.requests.rows, r.id = entry.2.requestId ∧ r.status = .completed ∧
      r.result = some (.obj entry.2.result) := by
  have hnodup := hrun.results_nodup
  have hrefs := hrun.references
  obtain ⟨owns, hmirrors, hcore⟩ := hrun.core
  have hsubmissions := submissions_of_coreRun rfl hcore
  have hresults := result_of_coreRun rfl hcore
  rw [acceptedResults_mirrored hmirrors] at hsubmissions hresults
  have hmem : submissionOf entry ∈
      s.db.usageRecords.rows.map UsageRecord.submission := by
    rw [hsubmissions, List.mem_reverse]
    exact List.mem_map_of_mem hentry
  obtain ⟨record, hrecord, hsame⟩ := List.mem_map.mp hmem
  obtain ⟨r, hr, hof⟩ := hrefs.usage record hrecord
  have hid : r.id = entry.2.requestId :=
    hof.requestId.symm.trans (congrArg Prod.fst hsame)
  obtain ⟨held, hheld, hheldId, hresult⟩ := hresults r hr hof.status
  have heq : held = entry :=
    List.inj_on_of_nodup_map hnodup hheld hentry (hheldId.trans hid)
  exact ⟨r, hr, hid, hof.status, heq ▸ hresult⟩

/-- A completed row holds the one result that was accepted for it. -/
theorem GatewayRun.result_of_row (hrun : GatewayRun services history s) {r : OrbiRequest}
    (hr : r ∈ s.db.requests.rows) (hcompleted : r.status = .completed) :
    ∃ entry ∈ acceptedResults history, entry.2.requestId = r.id ∧
      r.result = some (.obj entry.2.result) := by
  obtain ⟨owns, hmirrors, hcore⟩ := hrun.core
  have hresults := result_of_coreRun rfl hcore r hr hcompleted
  rw [acceptedResults_mirrored hmirrors] at hresults
  exact hresults

/-- A request without an accepted result is open, or it has failed. -/
theorem GatewayRun.pollRequest_of_no_result (hrun : GatewayRun services history s)
    {r : OrbiRequest} (hr : r ∈ s.db.requests.rows)
    (hnone : ∀ entry ∈ acceptedResults history, entry.2.requestId ≠ r.id) :
    pollRequest s.db.toDb r.id = .ok none ∨
      pollRequest s.db.toDb r.id = .error (.orbi inferenceFailed) := by
  obtain ⟨owns, -, hcore⟩ := hrun.core
  have hformed := rowWellFormed_of_coreRun rfl hcore r hr
  have hfind : s.db.requests.find r.id = some r := Table.find_eq_some_iff.mpr ⟨hr, rfl⟩
  have hopen : r.status ≠ .completed := by
    intro hcompleted
    obtain ⟨entry, hentry, hid, -⟩ := hrun.result_of_row hr hcompleted
    exact hnone entry hentry hid
  unfold pollRequest
  rw [hfind]
  dsimp only
  have hstatus := hformed.status_mem
  simp only [List.mem_cons, List.not_mem_nil, or_false] at hstatus
  rcases hstatus with hstatus | hstatus | hstatus | hstatus | hstatus
  · rw [hstatus]
    exact .inl rfl
  · rw [hstatus]
    exact .inl rfl
  · exact absurd hstatus hopen
  · rw [hstatus]
    exact .inr rfl
  · rw [hstatus]
    exact .inr rfl

end Runs

/-! ## Answers -/

/-- What the calls of a state read of the results that have been accepted. -/
structure AnswersAreResults (services : GatewayServices) (history : List GatewayEvent)
    (s : GatewayState) : Prop where
  once : ((acceptedResults history).map fun entry => entry.2.requestId).Nodup
  completed : ∀ requestId ∈ s.waiting, ∀ entry ∈ acceptedResults history,
    entry.2.requestId = requestId → act services s (.poll requestId) =
      (.completed (.obj entry.2.result), { s with waiting := s.waiting.erase requestId })
  unanswered : ∀ requestId ∈ s.waiting,
    (∀ entry ∈ acceptedResults history, entry.2.requestId ≠ requestId) →
      (act services s (.poll requestId)).1 = .waits ∨
        (act services s (.poll requestId)).1 = .failed (.orbi inferenceFailed)
  replayed : ∀ authorization clock key payload readings result s',
    act services s (.client authorization clock (.chat key payload readings)) =
        (.replied (.chat (.result result)), s') →
      ∃ parsed record, (bearerKey authorization).bind APIKeyService.parse = some parsed ∧
        findActiveKey s.db.toDb parsed.keyId = some record ∧
        ∃ row ∈ queuedRows history, row.apiKeyId = record.id ∧ key.isSome = true ∧
          row.idempotencyKey = key ∧ ∃ entry ∈ acceptedResults history,
            entry.2.requestId = row.id ∧ result = .obj entry.2.result

/-- A chat call whose pair is known and whose request is completed reads the row. -/
theorem serve_chat_result {db db' : Db} {call : ChatCall} {result : Json}
    (h : PublicCall.serve db (.chat call) = .ok (.chat (.result result), db')) :
    ∃ record, findActiveKey db call.key.keyId = some record ∧
      ∃ r ∈ db.requests.rows, r.apiKeyId = record.id ∧ call.idempotencyKey.isSome = true ∧
        r.idempotencyKey = call.idempotencyKey ∧ r.status = .completed ∧
        r.result = some result := by
  rw [serve_chat] at h
  obtain ⟨⟨reply, after⟩, haccept, hpure⟩ := Except.bind_eq_ok_iff.mp h
  rw [Except.pure_eq_ok_iff] at hpure
  cases hpure
  obtain ⟨apiKey, mid, hkey, -, rfl, hcases⟩ := acceptChat_cases haccept
  obtain ⟨record, -, hfind, -, hcount, -⟩ := requireApiKey_spec hkey
  have hid : apiKey.id = record.id := congrArg Prod.fst (APIKey.lookupColumns_countCall hcount)
  rcases hcases with ⟨existing, hexisting, hreply, -⟩ | ⟨row, project, project', hreply, -⟩
  · refine ⟨record, hfind, existing, ?_⟩
    obtain ⟨key, hidempotency, hmem, hhas⟩ := findExisting_spec hexisting
    obtain ⟨hapiKey, hpair⟩ := hasPair_iff.mp hhas
    unfold existingReply at hreply
    split at hreply
    next hstatus hresult =>
      cases hreply
      exact ⟨hmem, hapiKey.trans hid, by rw [hidempotency]; rfl, hpair.trans hidempotency.symm,
        hstatus, hresult⟩
    · cases hreply
  · cases hreply

/-- In every state of every run, a call that reads a result reads the one submission that
was accepted for its request, whether it waits or is repeated. -/
theorem answers_are_results {services : GatewayServices} {history : List GatewayEvent}
    {s : GatewayState} (hrun : GatewayRun services history s) :
    AnswersAreResults services history s where
  once := hrun.results_nodup
  completed := by
    rintro requestId hwaiting entry hentry rfl
    obtain ⟨r, hr, hid, hstatus, hresult⟩ := hrun.row_of_result hentry
    have hfind : s.db.requests.find entry.2.requestId = some r :=
      Table.find_eq_some_iff.mpr ⟨hr, hid⟩
    have hpoll : pollRequest s.db.toDb entry.2.requestId =
        .ok (some (.obj entry.2.result)) := by
      unfold pollRequest
      rw [hfind]
      dsimp only
      rw [hstatus, hresult]
    simp only [act, pollWaiting, hpoll, List.contains_iff_mem.mpr hwaiting, if_true]
  unanswered := by
    intro requestId hwaiting hnone
    obtain ⟨row, hrow, rfl⟩ := hrun.waiting_queued requestId hwaiting
    obtain ⟨r, hr, hsame⟩ := hrun.rows_queued.2 row hrow
    rw [← hsame.id] at hnone hwaiting ⊢
    have hcontains := List.contains_iff_mem.mpr hwaiting
    rcases hrun.pollRequest_of_no_result hr hnone with hpoll | hpoll
    · exact .inl (by simp only [act, pollWaiting, hpoll, hcontains, if_true])
    · exact .inr (by simp only [act, pollWaiting, hpoll, hcontains, if_true])
  replayed := by
    intro authorization clock key payload readings result s' hact
    cases (GatewayStep.acted hact).change with
    | @replied _ _ _ parsed _ db _ hparsed hserve =>
        obtain ⟨record, hfind, r, hr, hapiKey, hsome, hpair, hstatus, hresult⟩ :=
          serve_chat_result hserve
        obtain ⟨row, hrow, hsame⟩ := hrun.rows_queued.1 r hr
        obtain ⟨entry, hentry, hid, heq⟩ := hrun.result_of_row hr hstatus
        refine ⟨parsed, record, hparsed, hfind, row, hrow, ?_, hsome, ?_, entry, hentry, ?_, ?_⟩
        · exact hsame.apiKeyId.symm.trans hapiKey
        · exact hsame.idempotencyKey.symm.trans hpair
        · exact hid.trans hsame.id
        · exact Option.some.inj (hresult.symm.trans heq)

theorem answers_are_results_answered :
    AnswersAreResults GatewaySample.services
      (runActions GatewaySample.services .initial GatewaySample.answered).1
      (runActions GatewaySample.services .initial GatewaySample.answered).2 :=
  answers_are_results (run_runActions GatewaySample.services GatewaySample.answered)

end OrbiGateway
