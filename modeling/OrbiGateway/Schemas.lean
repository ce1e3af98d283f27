import Mathlib.Algebra.Order.Ring.Rat
import OrbiGateway.Models.Values

/-!
# Request schemas

The bodies that the public and the internal routes admit.  Each schema carries
the bounds of its fields, so a body outside them cannot be built.
-/

namespace OrbiGateway

inductive ChatRole
  | system
  | user
  | assistant
  deriving DecidableEq

def ChatRole.text : ChatRole → String
  | .system => "system"
  | .user => "user"
  | .assistant => "assistant"

structure ChatMessage where
  role : ChatRole
  content : String
  content_nonempty : 1 ≤ content.length
  content_le : content.length ≤ 100000

structure ChatCompletionRequest where
  model : String
  messages : List ChatMessage
  stream : Bool := false
  maxTokens : ℤ := 512
  temperature : ℚ := 7 / 10
  model_nonempty : 1 ≤ model.length
  model_le : model.length ≤ 64
  messages_nonempty : 1 ≤ messages.length
  messages_le : messages.length ≤ 256
  maxTokens_pos : 1 ≤ maxTokens
  maxTokens_le : maxTokens ≤ 4096
  temperature_nonneg : 0 ≤ temperature
  temperature_le : temperature ≤ 2

/-- `payload.model_dump(mode="json")`. -/
def ChatCompletionRequest.modelDump (payload : ChatCompletionRequest) : Json :=
  .obj [
    ("model", .str payload.model),
    ("messages", .arr (payload.messages.map fun message =>
      .obj [("role", .str message.role.text), ("content", .str message.content)])),
    ("stream", .bool payload.stream),
    ("max_tokens", .num payload.maxTokens),
    ("temperature", .num payload.temperature)]

structure WorkerResultRequest where
  requestId : UUID
  result : JsonObject
  inputTokens : ℤ
  outputTokens : ℤ
  latencyMs : ℤ
  inputTokens_nonneg : 0 ≤ inputTokens
  outputTokens_nonneg : 0 ≤ outputTokens
  latencyMs_nonneg : 0 ≤ latencyMs

/-- The characters of the pattern `^[a-z0-9_]+$`. -/
def isErrorCodeChar (c : Char) : Bool :=
  ('a' ≤ c && c ≤ 'z') || ('0' ≤ c && c ≤ '9') || c == '_'

structure WorkerErrorRequest where
  requestId : UUID
  retryable : Bool := true
  errorCode : String
  message : String
  errorCode_nonempty : 1 ≤ errorCode.length
  errorCode_le : errorCode.length ≤ 64
  errorCode_chars : errorCode.toList.all isErrorCodeChar = true
  message_nonempty : 1 ≤ message.length
  message_le : message.length ≤ 512

inductive ProviderType
  | colab
  | kaggle
  | localHost
  | docker
  | dedicated
  deriving DecidableEq

def ProviderType.text : ProviderType → String
  | .colab => "colab"
  | .kaggle => "kaggle"
  | .localHost => "local"
  | .docker => "docker"
  | .dedicated => "dedicated"

structure WorkerRegisterRequest where
  enrollmentToken : String
  providerType : ProviderType
  supportedModels : List String := []
  capabilities : JsonObject := []
  enrollmentToken_ge : 32 ≤ enrollmentToken.length
  enrollmentToken_le : enrollmentToken.length ≤ 512
  supportedModels_le : supportedModels.length ≤ 128

/-- The statuses a heartbeat may report. -/
inductive HeartbeatStatus
  | online
  | draining
  deriving DecidableEq

def HeartbeatStatus.toWorkerStatus : HeartbeatStatus → WorkerStatus
  | .online => .online
  | .draining => .draining

structure WorkerHeartbeatRequest where
  status : HeartbeatStatus
  currentQueueDepth : ℤ
  capabilities : JsonObject
  currentQueueDepth_nonneg : 0 ≤ currentQueueDepth
  currentQueueDepth_le : currentQueueDepth ≤ 100000

/-- The characters between the hyphens of a slug. -/
def isSlugChar (c : Char) : Bool :=
  ('a' ≤ c && c ≤ 'z') || ('0' ≤ c && c ≤ '9')

/-- `^[a-z0-9]+(?:-[a-z0-9]+)*$`: nonempty words with single hyphens between them. -/
def isSlug (slug : String) : Bool :=
  (slug.toList.splitOn '-').all fun word => !word.isEmpty && word.all isSlugChar

structure ProjectCreateRequest where
  name : String
  slug : String
  ownerId : UUID
  dailyTokenLimit : ℤ := 100000
  monthlyTokenLimit : ℤ := 1000000
  name_nonempty : 1 ≤ name.length
  name_le : name.length ≤ 128
  slug_ge : 3 ≤ slug.length
  slug_le : slug.length ≤ 64
  slug_pattern : isSlug slug = true
  dailyTokenLimit_pos : 1 ≤ dailyTokenLimit
  monthlyTokenLimit_pos : 1 ≤ monthlyTokenLimit

/-- The environments of an API key. -/
inductive KeyEnvironment
  | live
  | test
  deriving DecidableEq

def KeyEnvironment.text : KeyEnvironment → String
  | .live => "live"
  | .test => "test"

structure APIKeyCreateRequest where
  projectId : UUID
  environment : KeyEnvironment
  scopes : List String := ["chat", "models:read", "usage:read"]
  expiresAt : Option Timestamp := none
  rpmLimit : ℤ := 60
  dailyReqLimit : ℤ := 1000
  scopes_le : scopes.length ≤ 32
  rpmLimit_pos : 1 ≤ rpmLimit
  rpmLimit_le : rpmLimit ≤ 100000
  dailyReqLimit_pos : 1 ≤ dailyReqLimit
  dailyReqLimit_le : dailyReqLimit ≤ 10000000

structure WorkerEnrollmentCreateRequest where
  expiresInSeconds : ℤ := 900
  expiresInSeconds_ge : 60 ≤ expiresInSeconds
  expiresInSeconds_le : expiresInSeconds ≤ 86400

structure ModelAliasCreateRequest where
  aliasName : String
  modelId : String
  requiredCapabilities : JsonObject := []
  aliasName_nonempty : 1 ≤ aliasName.length
  aliasName_le : aliasName.length ≤ 64
  aliasName_pattern : isSlug aliasName = true
  modelId_nonempty : 1 ≤ modelId.length
  modelId_le : modelId.length ≤ 256

end OrbiGateway
