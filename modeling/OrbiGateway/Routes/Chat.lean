import OrbiGateway.Dependencies
import OrbiGateway.Schemas
import OrbiGateway.Services.Budget

/-!
# Chat acceptance

`create_chat_completion` up to its commit, cut at the statements between which
other transactions can run: the idempotency lookup, the alias lookup, the
reservation and the insert.  Waiting for the result is a sequence of polls of
the committed row.
-/

namespace OrbiGateway

open Relational

/-! ## Idempotency keys -/

/-- The characters of `^[A-Za-z0-9._:-]{8,128}$`. -/
def isIdempotencyChar (c : Char) : Bool :=
  ('A' ≤ c && c ≤ 'Z') || ('a' ≤ c && c ≤ 'z') || ('0' ≤ c && c ≤ '9') ||
    c == '.' || c == '_' || c == ':' || c == '-'

def validateIdempotencyKey (value : Option String) :
    Except Failure (Option String) :=
  match value with
  | none => .ok none
  | some key =>
      if 8 ≤ key.length ∧ key.length ≤ 128 ∧
          key.toList.all isIdempotencyChar = true then
        .ok (some key)
      else
        .error (.valueError "Idempotency-Key must be 8-128 URL-safe visible characters")

theorem validateIdempotencyKey_eq {value key : Option String}
    (h : validateIdempotencyKey value = .ok key) : key = value := by
  unfold validateIdempotencyKey at h
  split at h
  · cases h
    rfl
  · split at h
    · cases h
      rfl
    · cases h

/-! ## Errors of the route -/

def streamingNotAvailable : OrbiError :=
  ⟨"streaming_not_available", "Streaming is deferred to Phase 2.", 400⟩

def modelNotFound : OrbiError :=
  ⟨"model_not_found", "Requested model alias is unavailable.", 404⟩

def idempotencyConflict : OrbiError :=
  ⟨"idempotency_conflict", "An equivalent request already exists.", 409⟩

def inferenceFailed : OrbiError :=
  ⟨"inference_failed", "The inference request could not be completed.", 503⟩

def requestNotFound : OrbiError :=
  ⟨"request_not_found", "Request disappeared unexpectedly.", 500⟩

/-! ## Acceptance -/

/-- What `create_chat_completion` reads outside the database. -/
structure ChatReadings where
  /-- The generated id of the new row. -/
  requestId : UUID
  /-- The server's `now()` for `created_at`. -/
  createdAt : Timestamp
  /-- The UTC date read by `reserve`. -/
  today : Date
  /-- The clock read for `expires_at`. -/
  now : Timestamp

/-- A chat call: the parsed bearer key, the header and body it carries and its
readings. -/
structure ChatCall where
  key : ParsedKey
  keyReadings : KeyReadings
  idempotencyKey : Option String
  payload : ChatCompletionRequest
  readings : ChatReadings

/-- What a call answers from the request table, or the row it has queued. -/
inductive ChatReply
  | result (result : Json)
  | existing (id : UUID) (status : RequestStatus)
  | queued (record : OrbiRequest)

/-- The row carries this API key and idempotency key. -/
def OrbiRequest.hasPair (request : OrbiRequest) (apiKeyId : UUID)
    (idempotencyKey : String) : Bool :=
  request.apiKeyId == apiKeyId && request.idempotencyKey == some idempotencyKey

/-- The idempotency lookup; a call without a key does not look. -/
def findExisting (db : Db) (apiKeyId : UUID) (idempotencyKey : Option String) :
    Option OrbiRequest :=
  match idempotencyKey with
  | none => none
  | some key => db.requests.rows.find? fun request => request.hasPair apiKeyId key

/-- The answer to a duplicate. -/
def existingReply (existing : OrbiRequest) : ChatReply :=
  match existing.status, existing.result with
  | .completed, some result => .result result
  | status, _ => .existing existing.id status

/-- The active alias of a name. -/
def findAlias (db : Db) (model : String) : Option ModelAlias :=
  db.modelAliases.rows.find? fun modelAlias =>
    modelAlias.aliasName == model && modelAlias.isActive

/-- UTF-8 bytes of all contents plus the completion ceiling. -/
def reservedTokensOf (payload : ChatCompletionRequest) : ℤ :=
  (payload.messages.map fun message => (message.content.utf8ByteSize : ℤ)).sum +
    payload.maxTokens

/-- `reserve` as the route calls it, with the budget error it maps. -/
def reserveForChat (db : Db) (projectId : UUID) (reservedTokens : ℤ)
    (today : Date) : Except Failure ((Project × Date × Date) × Db) :=
  match BudgetService.reserve db projectId reservedTokens today with
  | .error (.budgetExceeded message) =>
      .error (.orbi ⟨"token_budget_exceeded", message, 429⟩)
  | outcome => outcome

/-- The row `create_chat_completion` builds. -/
def newRequest (call : ChatCall) (apiKey : APIKey) (modelAlias : ModelAlias)
    (project : Project) (budgetDay budgetMonth : Date) : OrbiRequest where
  id := call.readings.requestId
  idempotencyKey := call.idempotencyKey
  projectId := project.id
  apiKeyId := apiKey.id
  modelAlias := modelAlias.aliasName
  resolvedModel := modelAlias.modelId
  payload := call.payload.modelDump
  requiredCapabilities := modelAlias.requiredCapabilities
  priority := 5
  status := .queued
  assignedTo := none
  leaseExpires := none
  retryCount := 0
  maxRetries := 3
  createdAt := call.readings.createdAt
  expiresAt := call.readings.now + minutes 5
  completedAt := none
  result := none
  errorDetail := none
  inputTokens := none
  outputTokens := none
  reservedTokens := reservedTokensOf call.payload
  budgetDay := budgetDay
  budgetMonth := budgetMonth

/-- Another row has the pair of this one; null keys never collide. -/
def pairTaken (db : Db) (record : OrbiRequest) : Bool :=
  (findExisting db record.apiKeyId record.idempotencyKey).isSome

/-- The insert, under the primary key and the unique constraint on
`(api_key_id, idempotency_key)`. -/
def insertRequest (db : Db) (record : OrbiRequest) : Except Failure Db :=
  if pairTaken db record then
    .error (.orbi idempotencyConflict)
  else
    match db.requests.insert record with
    | none => .error (.orbi idempotencyConflict)
    | some requests => .ok { db with requests := requests }

/-- The checks before the first statement of the route. -/
def checkChatCall (call : ChatCall) : Except Failure Unit :=
  if call.payload.stream then
    .error (.orbi streamingNotAvailable)
  else
    match validateIdempotencyKey call.idempotencyKey with
    | .error (.valueError message) =>
        .error (.orbi ⟨"invalid_idempotency_key", message, 400⟩)
    | .error failure => .error failure
    | .ok _ => .ok ()

/-- `create_chat_completion` up to its commit, for the authenticated key. -/
def createChatCompletion (db : Db) (apiKey : APIKey) (call : ChatCall) :
    Except Failure (ChatReply × Db) := do
  checkChatCall call
  match findExisting db apiKey.id call.idempotencyKey with
  | some existing => return (existingReply existing, db)
  | none =>
      match findAlias db call.payload.model with
      | none => .error (.orbi modelNotFound)
      | some modelAlias => do
          let ((project, budgetDay, budgetMonth), db) ← reserveForChat db
            apiKey.projectId (reservedTokensOf call.payload) call.readings.today
          let record := newRequest call apiKey modelAlias project budgetDay budgetMonth
          let db ← insertRequest db record
          return (.queued record, db)

/-- A chat call from authentication to commit. -/
def acceptChat (db : Db) (call : ChatCall) : Except Failure (ChatReply × Db) := do
  let (apiKey, db) ← requireApiKey db call.key call.keyReadings
  requireApiScope "chat" apiKey
  createChatCompletion db apiKey call

/-- One poll of the waiting loop: `none` while the request is open. -/
def pollRequest (db : Db) (requestId : UUID) : Except Failure (Option Json) :=
  match db.requests.find requestId with
  | none => .error (.orbi requestNotFound)
  | some current =>
      match current.status, current.result with
      | .completed, some result => .ok (some result)
      | .failedFinal, _ | .cancelled, _ | .expired, _ =>
          .error (.orbi inferenceFailed)
      | _, _ => .ok none

end OrbiGateway
