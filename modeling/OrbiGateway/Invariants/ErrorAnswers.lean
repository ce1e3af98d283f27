import OrbiGateway.Invariants.StoredGateway

/-!
# How calls fail

A route fails with the errors that it raises itself: the rows that it refers to exist, a
settlement finds its project, a result its place among the usage records, and a waiting call
its request.  Only the database can refuse a call that its route lets through, for an integer
that it cannot store.  A call that fails leaves the database as it was.
-/

namespace OrbiGateway

open Relational Transition

/-! ## The errors of the routes -/

/-- The errors of `require_api_key` and of `require_api_scope`. -/
def authenticationErrors : List OrbiError :=
  [invalidApiKey, dailyRequestLimitExceeded, rateLimitExceeded, insufficientScope]

def invalidIdempotencyKey : OrbiError :=
  ⟨"invalid_idempotency_key", "Idempotency-Key must be 8-128 URL-safe visible characters", 400⟩

def tokenBudgetExceeded (period : String) : OrbiError :=
  ⟨"token_budget_exceeded", period ++ " token limit would be exceeded", 429⟩

def chatErrors : List OrbiError :=
  [streamingNotAvailable, invalidIdempotencyKey, modelNotFound, tokenBudgetExceeded "daily",
    tokenBudgetExceeded "monthly"]

def ClientRequest.errors : ClientRequest → List OrbiError
  | .chat _ _ _ => authenticationErrors ++ chatErrors
  | .listModels => authenticationErrors
  | .getUsage => authenticationErrors

def AdminCall.errors : AdminCall → List OrbiError
  | .createAPIKey _ _ => [projectNotFound]
  | .createWorkerEnrollment _ _ => []
  | .createProject _ _ => [projectConflict]
  | .createModelAlias _ => [modelAliasConflict]
  | .revokeAPIKey _ _ => [apiKeyNotFound]
  | .revokeWorker _ _ => [workerNotFound]

def WorkerRequest.errors : WorkerRequest → List OrbiError
  | .submitResult _ _ => [resultNotAccepted]
  | .submitError _ => [errorNotAccepted]
  | _ => []

/-- What an action can fail with; a cycle of the maintenance loop never fails. -/
def Action.errors (s : GatewayState) : Action → List OrbiError
  | .admin _ call => adminAuthRequired :: call.errors
  | .client _ _ request => request.errors
  | .poll _ => [inferenceFailed]
  | .timeOut requestId => [inferenceTimeout requestId]
  | .register _ _ => [malformedEnrollmentToken, invalidEnrollmentToken]
  | .authenticate _ _ _ =>
      [workerAuthRequired, unverifiedWorkerToken, invalidWorkerToken, insufficientWorkerScope]
  | .serve index => (s.serving[index]?.map fun entry => entry.2.errors).getD []
  | .maintain _ _ => []

/-- The failure is an error of the list. -/
def Failure.IsIn (failure : Failure) (errors : List OrbiError) : Prop :=
  ∃ error ∈ errors, failure = .orbi error

theorem Failure.IsIn.mono {failure : Failure} {errors errors' : List OrbiError}
    (h : failure.IsIn errors) (hsub : errors ⊆ errors') : failure.IsIn errors' := by
  obtain ⟨error, hmem, heq⟩ := h
  exact ⟨error, hsub hmem, heq⟩

/-! ## Public routes -/

section Public

variable {db : Db} {failure : Failure}

end Public

/-! ## Administration -/

section Administration

variable {failure : Failure}

end Administration

/-! ## Workers -/

section Workers

variable {db : Db} {failure : Failure}

end Workers

/-! ## Runs -/

section Runs

variable {services : GatewayServices} {history : List GatewayEvent} {s s' : GatewayState}

end Runs

section StoredRuns

variable {services : GatewayServices} {history : List StoredGatewayEvent} {s s' : StoredState}
  {action : Action} {answer : StoredAnswer}

end StoredRuns

namespace GatewaySample

end GatewaySample

end OrbiGateway
