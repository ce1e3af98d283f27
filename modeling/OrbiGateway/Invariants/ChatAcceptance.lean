import OrbiGateway.Invariants.DailyRequests
import OrbiGateway.Routes.ChatRoute

/-!
# All or nothing in chat acceptance

A chat call writes to its key row and to its project row before most of its checks.  The
session around it makes it one step all the same: either every check passes and the new
row is committed with the reservation and the count, or nothing is; and what happens
while the call waits for the result cannot take the request back.
-/

namespace OrbiGateway

open Relational

/-- The counter of a period as `reserve` takes it on a day: zero if the stored period is
not the current one. -/
def Project.usedOn (project : Project) (today : Date) (period : Period) : ℤ :=
  if period.stamp project = period.start today then period.used project else 0

/-- `^[A-Za-z0-9._:-]{8,128}$`. -/
def IdempotencyKeyValid (key : String) : Prop :=
  8 ≤ key.length ∧ key.length ≤ 128 ∧ key.toList.all isIdempotencyChar = true

/-- The conditions under which a call of the key is accepted. -/
structure Acceptable (db : Db) (apiKey : APIKey) (call : ChatCall) : Prop where
  not_streaming : call.payload.stream = false
  key_valid : ∀ key, call.idempotencyKey = some key → IdempotencyKeyValid key
  alias_active : ∃ modelAlias ∈ db.modelAliases.rows,
    modelAlias.aliasName = call.payload.model ∧ modelAlias.isActive = true
  fits : ∃ project ∈ db.projects.rows, project.id = apiKey.projectId ∧
    ∀ period : Period, project.usedOn call.readings.today period +
      reservedTokensOf call.payload ≤ period.limit project

/-- What an accepted call commits: the count on its key, the reservation on its project
and one row. -/
structure ChatAccepted (db db' : Db) (apiKey : APIKey) (call : ChatCall)
    (project project' : Project) (record : OrbiRequest) : Prop where
  db_eq : db' = { db with
    apiKeys := db.apiKeys.put apiKey
    projects := db.projects.put project'
    requests := db'.requests }
  requests : db'.requests.rows = db.requests.rows ++ [record]
  status : record.status = .queued
  id : record.id = call.readings.requestId
  apiKeyId : record.apiKeyId = apiKey.id
  projectId : record.projectId = project.id
  reservedTokens : record.reservedTokens = reservedTokensOf call.payload
  budgetDay : record.budgetDay = call.readings.today
  budgetMonth : record.budgetMonth = call.readings.today.replaceDayOne
  project_mem : project ∈ db.projects.rows
  project_id : project.id = apiKey.projectId
  id_eq : project'.id = project.id
  isActive_eq : project'.isActive = project.isActive
  stamp_eq : ∀ period : Period, period.stamp project' = period.start call.readings.today
  limit_eq : ∀ period : Period, period.limit project' = period.limit project
  used_eq : ∀ period : Period, period.used project' =
    project.usedOn call.readings.today period + reservedTokensOf call.payload

/-! ## The conditions -/

theorem checkChatCall_eq_ok_iff {call : ChatCall} :
    checkChatCall call = .ok () ↔ call.payload.stream = false ∧
      ∀ key, call.idempotencyKey = some key → IdempotencyKeyValid key := by
  unfold checkChatCall
  cases hstream : call.payload.stream with
  | true => simp
  | false =>
      simp only [Bool.false_eq_true, if_false, true_and]
      unfold validateIdempotencyKey
      cases call.idempotencyKey with
      | none => simp
      | some key =>
          by_cases hvalid : IdempotencyKeyValid key
          · have hvalid' := hvalid
            unfold IdempotencyKeyValid at hvalid'
            simp [hvalid, hvalid']
          · have hvalid' := hvalid
            unfold IdempotencyKeyValid at hvalid'
            simp only [if_neg hvalid']
            constructor
            · intro h
              cases h
            · intro h
              exact absurd (h key rfl) hvalid

theorem findAlias_isSome_iff {db : Db} {model : String} :
    (findAlias db model).isSome = true ↔ ∃ modelAlias ∈ db.modelAliases.rows,
      modelAlias.aliasName = model ∧ modelAlias.isActive = true := by
  unfold findAlias
  rw [List.find?_isSome]
  simp

/-- A call without a known pair and with a fresh id passes exactly if it is acceptable. -/
theorem chatPasses_iff_acceptable {db : Db} {apiKey : APIKey} {call : ChatCall}
    (hnone : findExisting db apiKey.id call.idempotencyKey = none)
    (hfresh : ∀ r ∈ db.requests.rows, r.id ≠ call.readings.requestId) :
    ChatPasses db apiKey call ↔ Acceptable db apiKey call := by
  unfold ChatPasses
  rw [checkChatCall_eq_ok_iff, findAlias_isSome_iff, hnone]
  simp only [Table.find_eq_some_iff, Option.isSome_none, Bool.false_eq_true, false_or]
  constructor
  · rintro ⟨⟨hstream, hkey⟩, halias, ⟨project, ⟨hmem, hid⟩, hroom⟩, -⟩
    exact ⟨hstream, hkey, halias, project, hmem, hid, hroom⟩
  · rintro ⟨hstream, hkey, halias, project, hmem, hid, hroom⟩
    exact ⟨⟨hstream, hkey⟩, halias, ⟨project, ⟨hmem, hid⟩, hroom⟩, hfresh⟩

theorem Queues.chatAccepted {db db' : Db} {apiKey : APIKey} {call : ChatCall}
    {record : OrbiRequest} {project project' : Project}
    (h : Queues { db with apiKeys := db.apiKeys.put apiKey } db' apiKey call record project
      project') : ChatAccepted db db' apiKey call project project' record := by
  have hreserved := Project.reserve_spec h.reserve
  obtain ⟨modelAlias, -, rfl⟩ := h.record_eq
  exact {
    db_eq := h.db_eq
    requests := (Table.insert_eq_some_iff.mp h.insert).2
    status := rfl
    id := rfl
    apiKeyId := rfl
    projectId := hreserved.id_eq
    reservedTokens := rfl
    budgetDay := rfl
    budgetMonth := rfl
    project_mem := Table.mem_of_find h.findProject
    project_id := Table.key_of_find h.findProject
    id_eq := hreserved.id_eq
    isActive_eq := Project.isActive_reserve h.reserve
    stamp_eq := hreserved.stamp_eq
    limit_eq := hreserved.limit_eq
    used_eq := hreserved.used_eq }

/-! ## The whole call -/

/-- An authenticated call of the right scope, with an id of its own and without a known
idempotency key, commits a new request exactly if it is acceptable.  Then it commits what
`ChatAccepted` says, whatever it answers after its wait; otherwise it answers with an
error and leaves every row as it was. -/
theorem chat_all_or_nothing {db mid : Db} {call : ChatCall} {apiKey : APIKey}
    (polls : List Db)
    (hkey : requireApiKey db call.key call.keyReadings = .ok (apiKey, mid))
    (hscope : requireApiScope "chat" apiKey = .ok ())
    (hnone : findExisting db apiKey.id call.idempotencyKey = none)
    (hfresh : ∀ r ∈ db.requests.rows, r.id ≠ call.readings.requestId) :
    ((∃ r ∈ ((chatRequest call polls).run db).2.requests.rows, r ∉ db.requests.rows) ↔
        Acceptable db apiKey call) ∧
      (Acceptable db apiKey call → ∃ project project' record,
        ChatAccepted db ((chatRequest call polls).run db).2 apiKey call project project'
            record ∧
          ((chatRequest call polls).run db).1 =
            (waitForResult record.id polls).map .result) ∧
      (¬Acceptable db apiKey call →
        ∃ failure, (chatRequest call polls).run db = (.error failure, db)) := by
  obtain ⟨-, -, -, -, -, rfl⟩ := requireApiKey_spec hkey
  have haccept : acceptChat db call =
      createChatCompletion { db with apiKeys := db.apiKeys.put apiKey } apiKey call := by
    simp only [acceptChat, hkey, hscope, bind, Except.bind]
  have hpasses : (∃ answer, acceptChat db call = .ok answer) ↔ Acceptable db apiKey call := by
    rw [haccept, createChatCompletion_isOk_iff]
    exact (chatPasses_iff_acceptable hnone hfresh).trans
      ⟨fun h => ⟨h.1, h.2, h.3, h.4⟩, fun h => ⟨h.1, h.2, h.3, h.4⟩⟩
  have hrun := run_chatRequest call polls db
  cases hanswer : acceptChat db call with
  | error failure =>
      rw [hanswer] at hrun hpasses
      have hno : ¬Acceptable db apiKey call := by
        rw [← hpasses]
        rintro ⟨answer, hsame⟩
        cases hsame
      rw [hrun]
      refine ⟨⟨?_, fun h => absurd h hno⟩, fun h => absurd h hno, fun _ => ⟨failure, rfl⟩⟩
      rintro ⟨r, hr, hnew⟩
      exact absurd hr hnew
  | ok answer =>
      obtain ⟨reply, db'⟩ := answer
      rw [hanswer] at hrun hpasses
      have hyes : Acceptable db apiKey call := hpasses.mp ⟨_, rfl⟩
      rw [haccept] at hanswer
      obtain ⟨-, ⟨existing, hexisting, -, -⟩ | ⟨record, project, project', rfl, hqueues⟩⟩ :=
        createChatCompletion_cases hanswer
      · have hknown : findExisting db apiKey.id call.idempotencyKey = some existing :=
          hexisting
        rw [hnone] at hknown
        cases hknown
      have haccepted := hqueues.chatAccepted
      rw [hrun]
      refine ⟨⟨fun _ => hyes, fun _ => ?_⟩, fun _ => ⟨project, project', record,
        haccepted, rfl⟩, fun h => absurd hyes h⟩
      refine ⟨record, ?_, ?_⟩
      · rw [haccepted.requests]
        exact List.mem_append_right _ (List.mem_singleton_self record)
      · intro hold
        exact hfresh record hold haccepted.id

namespace Sample

/-- The key after its first call. -/
def countedKey : APIKey := { apiKey with dailyRequestsUsed := 1, lastUsedAt := some 0 }

end Sample

/-- A call that is accepted and waits in vain. -/
theorem chat_all_or_nothing_timeout :
    ((chatRequest (Sample.call 100 none 0) []).run Sample.db).2.projects.rows.map
        (·.dailyTokensUsed) = [10] ∧
      ((∃ r ∈ ((chatRequest (Sample.call 100 none 0) []).run Sample.db).2.requests.rows,
          r ∉ Sample.db.requests.rows) ↔
        Acceptable Sample.db Sample.countedKey (Sample.call 100 none 0)) := by
  have hkey : requireApiKey Sample.db (Sample.call 100 none 0).key
      (Sample.call 100 none 0).keyReadings = .ok (Sample.countedKey,
        { Sample.db with apiKeys := Sample.db.apiKeys.put Sample.countedKey }) := rfl
  have hfresh : ∀ r ∈ Sample.db.requests.rows, r.id ≠ 100 := by
    intro r hr
    cases hr
  exact ⟨by decide, (chat_all_or_nothing [] hkey rfl rfl hfresh).1⟩

end OrbiGateway
