import OrbiGateway.Library.Sessions
import OrbiGateway.Routes.Chat

/-!
# The chat route on its session

`create_chat_completion` with its dependencies as a program on one database session.
Authentication, the period resets and the reservation write to locked rows of the session
before the checks that may still fail; one commit stands in the middle of the route, and
the wait for the result after it reads through sessions of its own.
-/

namespace OrbiGateway

open Relational SessionM

/-- A program on a session of the gateway's database. -/
abbrev DbSessionM := SessionM Db Failure

/-! ## Dependencies -/

/-- The limits of `require_api_key` and the use they count: the counter of a new day
starts again before the limits are checked. -/
def APIKey.countCallInSession (record : APIKey) (readings : KeyReadings) :
    DbSessionM APIKey := do
  let record := record.resetDay readings.today
  write (fun db => { db with apiKeys := db.apiKeys.put record })
  if record.dailyRequestsUsed ≥ record.dailyReqLimit then
    raise (.orbi dailyRequestLimitExceeded)
  else if !readings.allowMinute record.keyId record.rpmLimit then
    raise (.orbi rateLimitExceeded)
  else
    let record := { record with
      dailyRequestsUsed := record.dailyRequestsUsed + 1
      lastUsedAt := some readings.now }
    write (fun db => { db with apiKeys := db.apiKeys.put record })
    return record

/-- `require_api_key` after the bearer header has been parsed. -/
def requireApiKeyInSession (parsed : ParsedKey) (readings : KeyReadings) :
    DbSessionM APIKey := do
  match ← query (fun db => findActiveKey db parsed.keyId) with
  | none => raise (.orbi invalidApiKey)
  | some record =>
      if !record.isOpenedBy parsed readings then raise (.orbi invalidApiKey)
      else record.countCallInSession readings

/-! ## The budget -/

/-- `BudgetService.reserve`: the periods are reset before the limits are checked. -/
def reserveInSession (projectId : UUID) (requestedTokens : ℤ) (today : Date) :
    DbSessionM (Project × Date × Date) := do
  match ← query (fun db => db.projects.find projectId) with
  | none => raise .noResultFound
  | some project =>
      let project := project.resetPeriods today
      write (fun db => { db with projects := db.projects.put project })
      ofExcept (enforceBudget project.snapshot requestedTokens)
      let project := { project with
        dailyTokensUsed := project.dailyTokensUsed + requestedTokens
        monthlyTokensUsed := project.monthlyTokensUsed + requestedTokens }
      write (fun db => { db with projects := db.projects.put project })
      return (project, today, today.replaceDayOne)

/-- The budget error as the route raises it. -/
def budgetErrorOfChat : Failure → Failure
  | .budgetExceeded message => .orbi ⟨"token_budget_exceeded", message, 429⟩
  | failure => failure

/-! ## The route -/

/-- `session.flush()` with the new row. -/
def insertInSession (record : OrbiRequest) : DbSessionM PUnit := do
  match ← query (fun db => insertRequest db record) with
  | .ok db => write (fun _ => db)
  | .error failure => raise failure

/-- `create_chat_completion` up to its commit. -/
def createChatCompletionInSession (apiKey : APIKey) (call : ChatCall) :
    DbSessionM ChatReply := do
  ofExcept (checkChatCall call)
  match ← query (fun db => findExisting db apiKey.id call.idempotencyKey) with
  | some existing => return existingReply existing
  | none =>
      match ← query (fun db => findAlias db call.payload.model) with
      | none => raise (.orbi modelNotFound)
      | some modelAlias => do
          let (project, budgetDay, budgetMonth) ← mapError budgetErrorOfChat
            (reserveInSession apiKey.projectId (reservedTokensOf call.payload)
              call.readings.today)
          let record := newRequest call apiKey modelAlias project budgetDay budgetMonth
          insertInSession record
          return .queued record

/-- A call from authentication to the commit. -/
def acceptChatInSession (call : ChatCall) : DbSessionM ChatReply := do
  let apiKey ← requireApiKeyInSession call.key call.keyReadings
  ofExcept (requireApiScope "chat" apiKey)
  createChatCompletionInSession apiKey call

/-- `str()` of a UUID: 32 hexadecimal digits in five groups. -/
def UUID.str (id : UUID) : String :=
  let digits := Nat.toDigits 16 id
  let padded := List.replicate (32 - digits.length) '0' ++ digits
  String.ofList (padded.take 8 ++ '-' :: (padded.drop 8).take 4 ++
    '-' :: (padded.drop 12).take 4 ++ '-' :: (padded.drop 16).take 4 ++
    '-' :: padded.drop 20)

def inferenceTimeout (requestId : UUID) : OrbiError :=
  ⟨"inference_timeout",
    "Inference did not complete within the configured timeout. Request ID: " ++
      UUID.str requestId, 504⟩

/-- The wait for the result: `polls` are the committed states that it reads, one after the
other, until its deadline. -/
def waitForResult (requestId : UUID) : List Db → Except Failure Json
  | [] => .error (.orbi (inferenceTimeout requestId))
  | db :: polls => do
      match ← pollRequest db requestId with
      | some result => return result
      | none => waitForResult requestId polls

/-- The route from its commit on. -/
def finishChat (polls : List Db) : ChatReply → DbSessionM ChatReply
  | .queued record => do
      commit
      ofExcept ((waitForResult record.id polls).map .result)
  | reply => return reply

/-- A whole call on its session. -/
def chatRequest (call : ChatCall) (polls : List Db) : DbSessionM ChatReply := do
  let reply ← acceptChatInSession call
  finishChat polls reply

/-- What a call answers that has come to its commit. -/
def chatAnswer (polls : List Db) : ChatReply → Except Failure ChatReply
  | .queued record => (waitForResult record.id polls).map .result
  | reply => .ok reply

/-! ## What the programs compute -/

theorem computes_countCall (record : APIKey) (readings : KeyReadings) :
    Computes (record.countCallInSession readings) fun db => do
      let record ← record.countCall readings
      return (record, { db with apiKeys := db.apiKeys.put record }) := by
  intro db
  simp only [APIKey.countCallInSession, APIKey.countCall]
  apply EndsFrom.write_bind
  split
  · exact endsFrom_raise _ _
  split
  · exact endsFrom_raise _ _
  · apply EndsFrom.write_bind
    rw [Table.put_put]
    · exact endsFrom_pure _ _
    · rfl

theorem computes_requireApiKey (parsed : ParsedKey) (readings : KeyReadings) :
    Computes (requireApiKeyInSession parsed readings) fun db =>
      requireApiKey db parsed readings := by
  intro db
  simp only [requireApiKeyInSession, requireApiKey]
  apply EndsFrom.query_bind
  cases findActiveKey db parsed.keyId with
  | none => exact endsFrom_raise _ _
  | some record =>
      dsimp only
      split
      · exact endsFrom_raise _ _
      · exact computes_countCall record readings db

theorem computes_reserve (projectId : UUID) (tokens : ℤ) (today : Date) :
    Computes (reserveInSession projectId tokens today) fun db =>
      BudgetService.reserve db projectId tokens today := by
  intro db
  simp only [reserveInSession, BudgetService.reserve]
  apply EndsFrom.query_bind
  cases db.projects.find projectId with
  | none => exact endsFrom_raise _ _
  | some project =>
      apply EndsFrom.write_bind
      simp only [Project.reserve, bind_assoc]
      apply EndsFrom.ofExcept_bind
      intro _ _
      apply EndsFrom.write_bind
      rw [Table.put_put]
      · exact endsFrom_pure _ _
      · rfl

theorem computes_insert (record : OrbiRequest) :
    Computes (insertInSession record) fun db =>
      (insertRequest db record).map fun db => (.unit, db) := by
  intro db
  simp only [insertInSession]
  apply EndsFrom.query_bind
  cases insertRequest db record with
  | ok db' => exact endsFrom_write _ _
  | error failure => exact endsFrom_raise _ _

/-- The route maps the budget error and no other. -/
theorem mapError_reserve (db : Db) (projectId : UUID) (tokens : ℤ) (today : Date) :
    (BudgetService.reserve db projectId tokens today).mapError budgetErrorOfChat =
      reserveForChat db projectId tokens today := by
  unfold reserveForChat
  cases BudgetService.reserve db projectId tokens today with
  | ok result => rfl
  | error failure => cases failure <;> rfl

theorem endsFrom_insert (record : OrbiRequest) (db : Db) :
    EndsFrom (do insertInSession record; return ChatReply.queued record) db (do
      let db ← insertRequest db record
      return (ChatReply.queued record, db)) := by
  have hinsert := (computes_insert record db).bind (g := fun _ db =>
    .ok (ChatReply.queued record, db)) fun _ state => endsFrom_pure _ state
  dsimp only at hinsert
  cases hinserted : insertRequest db record with
  | ok db' =>
      rw [hinserted] at hinsert
      exact hinsert
  | error failure =>
      rw [hinserted] at hinsert
      exact hinsert

theorem computes_createChatCompletion (apiKey : APIKey) (call : ChatCall) :
    Computes (createChatCompletionInSession apiKey call) fun db =>
      createChatCompletion db apiKey call := by
  intro db
  simp only [createChatCompletionInSession, createChatCompletion]
  apply EndsFrom.ofExcept_bind
  intro _ _
  apply EndsFrom.query_bind
  cases findExisting db apiKey.id call.idempotencyKey with
  | some existing => exact endsFrom_pure _ _
  | none =>
      apply EndsFrom.query_bind
      cases findAlias db call.payload.model with
      | none => exact endsFrom_raise _ _
      | some modelAlias =>
          have hreserve := (computes_reserve apiKey.projectId
            (reservedTokensOf call.payload) call.readings.today db).mapError budgetErrorOfChat
          rw [mapError_reserve] at hreserve
          exact hreserve.bind (g := fun reserved db => do
            let db ← insertRequest db (newRequest call apiKey modelAlias reserved.1
              reserved.2.1 reserved.2.2)
            return (ChatReply.queued (newRequest call apiKey modelAlias reserved.1
              reserved.2.1 reserved.2.2), db)) fun _ db' => endsFrom_insert _ db'

/-- Up to the commit a call on its session computes `acceptChat`. -/
theorem computes_acceptChat (call : ChatCall) :
    Computes (acceptChatInSession call) fun db => acceptChat db call := by
  intro db
  have hkey := computes_requireApiKey call.key call.keyReadings db
  exact hkey.bind (g := fun apiKey db => do
    requireApiScope "chat" apiKey
    createChatCompletion db apiKey call) fun apiKey db' =>
      EndsFrom.ofExcept_bind fun _ _ => computes_createChatCompletion apiKey call db'

theorem close_finishChat (polls : List Db) (reply : ChatReply) {s : Session Db}
    (hs : s.Coherent) : close (finishChat polls reply s) = (chatAnswer polls reply, s.view) := by
  cases reply with
  | queued record => exact close_commit _ s
  | result result => exact close_pure _ hs
  | existing id status => exact close_pure _ hs

/-- A call that fails before its commit leaves the committed rows as they were; a queued
request is committed whatever its wait for the result ends in. -/
theorem run_chatRequest (call : ChatCall) (polls : List Db) (db : Db) :
    SessionM.run (chatRequest call polls) db =
      match acceptChat db call with
      | .ok (reply, db') => (chatAnswer polls reply, db')
      | .error failure => (.error failure, db) := by
  have hrun := (computes_acceptChat call).run_bind (k := finishChat polls)
    (fun reply _ hs => close_finishChat polls reply hs) db
  rw [chatRequest]
  refine hrun.trans ?_
  cases acceptChat db call with
  | ok answer => rfl
  | error failure => rfl

end OrbiGateway
