import OrbiGateway.Authentication
import OrbiGateway.Concurrency.ChatTransactions
import OrbiGateway.Routes.Projects
import OrbiGateway.Routes.Registration

/-!
# Administration routes

`require_admin` and the routes behind it.  An administrator creates projects, API keys,
enrollment tokens and model aliases, and revokes keys and workers; no route deletes a row.
The raw text of a key or of an enrollment token is in the answer only.
-/

namespace OrbiGateway

open Relational

/-! ## The administrator -/

/-- `verify_admin` of the application, with its hash and its pepper. -/
structure AdminTokenVerifier where
  expectedHash : String
  pepper : String
  /-- Argon2id verification of a stored hash against a text. -/
  verify : String → String → Bool

def AdminTokenVerifier.verifyAdmin (verifier : AdminTokenVerifier) (token : String) : Bool :=
  verifier.verify verifier.expectedHash (token ++ ":" ++ verifier.pepper)

def adminAuthRequired : OrbiError :=
  ⟨"admin_auth_required", "Administrator authentication is required.", 401⟩

/-- `require_admin`. -/
def requireAdmin (verifier : AdminTokenVerifier) (authorization : Option String) :
    Except Failure Unit :=
  match bearerKey authorization with
  | none => .error (.orbi adminAuthRequired)
  | some token =>
      if verifier.verifyAdmin token then .ok ()
      else .error (.orbi adminAuthRequired)

/-! ## The database -/

/-- The committed rows of all tables that the gateway uses. -/
structure GatewayDb extends Db where
  projectNames : Table ProjectName
  enrollmentTokens : Table WorkerEnrollmentToken

def GatewayDb.named (db : GatewayDb) : NamedDb :=
  { db.toDb with projectNames := db.projectNames }

def GatewayDb.enrollment (db : GatewayDb) : EnrollmentDb :=
  { db.toDb with enrollmentTokens := db.enrollmentTokens }

/-! ## API keys -/

def projectNotFound : OrbiError :=
  ⟨"project_not_found", "Project does not exist.", 404⟩

def apiKeyNotFound : OrbiError :=
  ⟨"api_key_not_found", "API key does not exist.", 404⟩

/-- What `create_api_key` reads outside the database: the id that the new row draws, the
bytes and the hash of the generated key, and the `CURRENT_DATE` of the server default. -/
structure KeyDraw where
  apiKeyId : UUID
  hash : String → String
  idBytes : Vector UInt8 9
  secretBytes : Vector UInt8 32
  currentDate : Date

/-- The key id that a draw leads to. -/
def KeyDraw.keyId (draw : KeyDraw) : String :=
  String.ofList (Urlsafe.tokenUrlsafe draw.idBytes).chars

structure APIKeyCreatedResponse where
  id : UUID
  key : String
  displayPrefix : String
  deriving DecidableEq

/-- The row that `create_api_key` adds, with its defaults. -/
def newAPIKey (payload : APIKeyCreateRequest) (generated : GeneratedAPIKey) (draw : KeyDraw) :
    APIKey where
  id := draw.apiKeyId
  projectId := payload.projectId
  keyId := generated.keyId
  secretHash := generated.secretHash
  environment := generated.environment
  scopes := payload.scopes
  expiresAt := payload.expiresAt
  revokedAt := none
  lastUsedAt := none
  totalRequests := 0
  totalTokens := 0
  rpmLimit := payload.rpmLimit
  dailyReqLimit := payload.dailyReqLimit
  dailyRequestsUsed := 0
  dailyRequestsDate := draw.currentDate

/-- The insert, under the primary key and the unique `key_id`. -/
def insertAPIKey (db : Db) (record : APIKey) : Except Failure Db :=
  if db.apiKeys.rows.any fun row => row.keyId == record.keyId then
    .error .integrityError
  else
    match db.apiKeys.insert record with
    | none => .error .integrityError
    | some apiKeys => .ok { db with apiKeys := apiKeys }

/-- `create_api_key`. -/
def createAPIKey (service : APIKeyService) (db : Db) (payload : APIKeyCreateRequest)
    (draw : KeyDraw) : Except Failure (APIKeyCreatedResponse × Db) :=
  match db.projects.find payload.projectId with
  | none => .error (.orbi projectNotFound)
  | some _ => do
      let generated ← service.generate draw.hash payload.environment.text draw.idBytes
        draw.secretBytes
      let db ← insertAPIKey db (newAPIKey payload generated draw)
      return ({ id := draw.apiKeyId
                key := generated.rawKey
                displayPrefix := generated.displayPrefix }, db)

/-- `revoke_api_key`. -/
def revokeAPIKey (db : Db) (apiKeyId : UUID) (now : Timestamp) : Except Failure Db :=
  match db.apiKeys.find apiKeyId with
  | none => .error (.orbi apiKeyNotFound)
  | some record => .ok { db with apiKeys := db.apiKeys.put (record.revoked now) }

/-! ## Enrollment tokens -/

/-- What `create_worker_enrollment` reads outside the database. -/
structure EnrollmentDraw where
  hash : String → String
  idBytes : Vector UInt8 9
  secretBytes : Vector UInt8 32
  now : Timestamp

/-- The token id that a draw leads to. -/
def EnrollmentDraw.tokenId (draw : EnrollmentDraw) : String :=
  String.ofList (Urlsafe.tokenUrlsafe draw.idBytes).chars

structure WorkerEnrollmentCreatedResponse where
  enrollmentToken : String
  expiresAt : Timestamp
  deriving DecidableEq

def newEnrollmentToken (payload : WorkerEnrollmentCreateRequest)
    (generated : GeneratedEnrollmentToken) (now : Timestamp) : WorkerEnrollmentToken where
  tokenId := generated.tokenId
  secretHash := generated.secretHash
  expiresAt := now + seconds payload.expiresInSeconds
  consumedAt := none

/-- `create_worker_enrollment`; the unique `token_id` is checked when its session
commits. -/
def createWorkerEnrollment (service : WorkerEnrollmentService) (db : EnrollmentDb)
    (payload : WorkerEnrollmentCreateRequest) (draw : EnrollmentDraw) :
    Except Failure (WorkerEnrollmentCreatedResponse × EnrollmentDb) :=
  let generated := service.generate draw.hash draw.idBytes draw.secretBytes
  let record := newEnrollmentToken payload generated draw.now
  match db.enrollmentTokens.insert record with
  | none => .error .integrityError
  | some enrollmentTokens =>
      .ok ({ enrollmentToken := generated.rawToken, expiresAt := record.expiresAt },
        { db with enrollmentTokens := enrollmentTokens })

/-! ## Model aliases -/

def modelAliasConflict : OrbiError :=
  ⟨"model_alias_conflict", "Model alias already exists.", 409⟩

structure ModelAliasResponse where
  aliasName : String
  modelId : String
  deriving DecidableEq

/-- The row that `create_model_alias` adds, with its defaults. -/
def newModelAlias (payload : ModelAliasCreateRequest) : ModelAlias where
  aliasName := payload.aliasName
  modelId := payload.modelId
  isActive := true
  requiredCapabilities := .obj payload.requiredCapabilities

/-- `create_model_alias`. -/
def createModelAlias (db : Db) (payload : ModelAliasCreateRequest) :
    Except Failure (ModelAliasResponse × Db) :=
  match db.modelAliases.insert (newModelAlias payload) with
  | none => .error (.orbi modelAliasConflict)
  | some modelAliases =>
      .ok ({ aliasName := payload.aliasName, modelId := payload.modelId },
        { db with modelAliases := modelAliases })

end OrbiGateway
