import OrbiGateway.Library.Table
import OrbiGateway.Models.Values

/-!
# Persisted entities

One structure for each mapped class, with the columns that the modelled
operations read or write, and the database as one table for each entity.
Nullable columns are options, integer columns are integers.
-/

namespace OrbiGateway

open Relational

structure Project where
  id : UUID
  monthlyTokenLimit : ℤ
  monthlyTokensUsed : ℤ
  dailyTokenLimit : ℤ
  dailyTokensUsed : ℤ
  dailyUsageDate : Date
  monthlyUsageMonth : Date
  isActive : Bool
  deriving DecidableEq

structure APIKey where
  id : UUID
  projectId : UUID
  keyId : String
  secretHash : String
  environment : String
  scopes : List String
  expiresAt : Option Timestamp
  revokedAt : Option Timestamp
  lastUsedAt : Option Timestamp
  totalRequests : ℤ
  totalTokens : ℤ
  rpmLimit : ℤ
  dailyReqLimit : ℤ
  dailyRequestsUsed : ℤ
  dailyRequestsDate : Date
  deriving DecidableEq

structure ModelAlias where
  aliasName : String
  modelId : String
  isActive : Bool
  requiredCapabilities : Json

structure Worker where
  id : UUID
  providerType : String
  status : WorkerStatus
  supportedModels : List String
  capabilities : Json
  currentQueueDepth : ℤ
  tokenJti : Option String
  lastHeartbeat : Option Timestamp
  revokedAt : Option Timestamp

structure WorkerEnrollmentToken where
  tokenId : String
  secretHash : String
  expiresAt : Timestamp
  consumedAt : Option Timestamp
  deriving DecidableEq

structure OrbiRequest where
  id : UUID
  idempotencyKey : Option String
  projectId : UUID
  apiKeyId : UUID
  modelAlias : String
  resolvedModel : String
  payload : Json
  requiredCapabilities : Json
  priority : ℤ
  status : RequestStatus
  assignedTo : Option UUID
  leaseExpires : Option Timestamp
  retryCount : ℤ
  maxRetries : ℤ
  createdAt : Timestamp
  expiresAt : Timestamp
  completedAt : Option Timestamp
  result : Option Json
  errorDetail : Option Json
  inputTokens : Option ℤ
  outputTokens : Option ℤ
  reservedTokens : ℤ
  budgetDay : Date
  budgetMonth : Date

structure UsageRecord where
  requestId : UUID
  projectId : UUID
  apiKeyId : UUID
  workerId : Option UUID
  providerType : Option String
  modelId : String
  inputTokens : ℤ
  outputTokens : ℤ
  latencyMs : Option ℤ
  deriving DecidableEq

/-! ## Keys -/

instance : HasKey Project UUID := ⟨Project.id⟩

instance : HasKey APIKey UUID := ⟨APIKey.id⟩

instance : HasKey ModelAlias String := ⟨ModelAlias.aliasName⟩

instance : HasKey Worker UUID := ⟨Worker.id⟩

/-- Enrollment tokens are keyed by the unique `token_id` column. -/
instance : HasKey WorkerEnrollmentToken String := ⟨WorkerEnrollmentToken.tokenId⟩

instance : HasKey OrbiRequest UUID := ⟨OrbiRequest.id⟩

/-- Usage records are keyed by the unique `request_id` column. -/
instance : HasKey UsageRecord UUID := ⟨UsageRecord.requestId⟩

@[simp] theorem key_project (project : Project) :
    HasKey.key project = project.id := rfl

@[simp] theorem key_apiKey (record : APIKey) : HasKey.key record = record.id := rfl

@[simp] theorem key_worker (worker : Worker) : HasKey.key worker = worker.id := rfl

@[simp] theorem key_enrollmentToken (record : WorkerEnrollmentToken) :
    HasKey.key record = record.tokenId := rfl

@[simp] theorem key_request (request : OrbiRequest) :
    HasKey.key request = request.id := rfl

@[simp] theorem key_usageRecord (record : UsageRecord) :
    HasKey.key record = record.requestId := rfl

/-- The committed rows of the tables that serve requests. -/
structure Db where
  projects : Table Project
  apiKeys : Table APIKey
  modelAliases : Table ModelAlias
  workers : Table Worker
  requests : Table OrbiRequest
  usageRecords : Table UsageRecord

/-! ## Failures -/

/-- `OrbiError`: a public error code, message and HTTP status. -/
structure OrbiError where
  code : String
  message : String
  statusCode : ℕ
  deriving DecidableEq

/-- How an operation can end without committing. -/
inductive Failure
  | orbi (error : OrbiError)
  | budgetExceeded (message : String)
  | valueError (message : String)
  | noResultFound
  | integrityError
  deriving DecidableEq

end OrbiGateway
