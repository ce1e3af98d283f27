import Mathlib.Data.List.MinMax
import Mathlib.Data.Prod.Lex
import OrbiGateway.Services.Budget

/-!
# The queue service

The four queue operations on committed rows: claiming, result commitment, error
reports and lease recovery.  Every `UPDATE .. WHERE` is a predicate on rows and
the new version of a row, under a name of its own, so that the predicates can
be read against the statements one by one.
-/

namespace OrbiGateway

open Relational

/-- Priorities with creation instants, compared lexicographically. -/
def ClaimOrder := ℤ ×ₗ Timestamp

instance : LinearOrder ClaimOrder :=
  @Prod.Lex.instLinearOrder ℤ ℤ Int.instLinearOrder Int.instLinearOrder

/-- The statuses of a request that a worker holds. -/
def liveStatuses : List RequestStatus :=
  [.assigned, .starting, .running, .streaming]

namespace OrbiRequest

def isLive (request : OrbiRequest) : Bool :=
  liveStatuses.contains request.status

/-- The guard shared by `commit_result` and `record_error`. -/
def isHeldBy (request : OrbiRequest) (requestId workerId : UUID) : Bool :=
  request.id == requestId && request.assignedTo == some workerId &&
    request.result.isNone && request.isLive

/-- `lease_expires < now`, which is not true of a null lease. -/
def leaseBefore (request : OrbiRequest) (now : Timestamp) : Bool :=
  match request.leaseExpires with
  | some leaseExpires => leaseExpires < now
  | none => false

/-! ## Claiming -/

/-- The `WHERE` clause of `claim_next`. -/
def isClaimable (request : OrbiRequest) (worker : Worker) (now : Timestamp) :
    Bool :=
  request.status == .queued && request.expiresAt > now &&
    request.requiredCapabilities.containedIn worker.capabilities &&
    (worker.supportedModels.contains request.resolvedModel ||
      worker.supportedModels.contains request.modelAlias)

/-- `ORDER BY priority ASC, created_at ASC`. -/
def claimOrder (request : OrbiRequest) : ClaimOrder :=
  toLex (request.priority, request.createdAt)

theorem claimOrder_le_iff {request other : OrbiRequest} :
    request.claimOrder ≤ other.claimOrder ↔
      request.priority < other.priority ∨
        request.priority = other.priority ∧ request.createdAt ≤ other.createdAt :=
  Prod.Lex.toLex_le_toLex

/-- The row as a claim leaves it. -/
def claimed (request : OrbiRequest) (worker : Worker) (leaseSeconds : ℤ)
    (now : Timestamp) : OrbiRequest :=
  { request with
    status := .assigned
    assignedTo := some worker.id
    leaseExpires := some (now + seconds leaseSeconds) }

/-! ## Results and errors -/

/-- The row as an accepted result leaves it. -/
def completed (request : OrbiRequest) (result : Json)
    (inputTokens outputTokens : ℤ) (now : Timestamp) : OrbiRequest :=
  { request with
    status := .completed
    result := some result
    inputTokens := some inputTokens
    outputTokens := some outputTokens
    completedAt := some now
    leaseExpires := none }

/-- The row as an accepted error report leaves it before the retry decision. -/
def withError (request : OrbiRequest) (errorCode message : String) : OrbiRequest :=
  { request with
    errorDetail := some (.obj [("code", .str errorCode), ("message", .str message)])
    assignedTo := none
    leaseExpires := none }

/-- The retry decision of an error report. -/
def mayRetry (request : OrbiRequest) (retryable : Bool) : Bool :=
  retryable && request.retryCount < request.maxRetries

def requeued (request : OrbiRequest) : OrbiRequest :=
  { request with
    retryCount := request.retryCount + 1
    status := .queued }

def failed (request : OrbiRequest) : OrbiRequest :=
  { request with status := .failedFinal }

/-! ## Lease recovery -/

def leaseLapsed (request : OrbiRequest) (now : Timestamp) : Bool :=
  request.isLive && request.leaseBefore now && request.result.isNone

/-- The first `UPDATE` of recovery takes these rows .. -/
def isRetryable (request : OrbiRequest) (now : Timestamp) : Bool :=
  request.leaseLapsed now && request.retryCount < request.maxRetries

/-- .. and leaves them so. -/
def leaseRequeued (request : OrbiRequest) : OrbiRequest :=
  { request with
    status := .queued
    assignedTo := none
    leaseExpires := none
    retryCount := request.retryCount + 1 }

/-- The second `UPDATE` takes these rows .. -/
def isExhausted (request : OrbiRequest) (now : Timestamp) : Bool :=
  request.leaseLapsed now && request.retryCount ≥ request.maxRetries

/-- .. and leaves them so. -/
def leaseFailed (request : OrbiRequest) : OrbiRequest :=
  { request with
    status := .failedFinal
    assignedTo := none
    leaseExpires := none
    errorDetail := some (.obj [("code", .str "retry_budget_exhausted")]) }

/-- The third `UPDATE` takes these rows .. -/
def isQueueExpired (request : OrbiRequest) (now : Timestamp) : Bool :=
  request.status == .queued && request.expiresAt < now && request.result.isNone

/-- .. and leaves them so. -/
def queueExpired (request : OrbiRequest) : OrbiRequest :=
  { request with
    status := .expired
    errorDetail := some (.obj [("code", .str "queue_ttl_expired")]) }

end OrbiRequest

/-- The key's totals with one more completed request. -/
def APIKey.countUse (record : APIKey) (totalTokens : ℤ) : APIKey :=
  { record with
    totalRequests := record.totalRequests + 1
    totalTokens := record.totalTokens + totalTokens }

namespace QueueService

/-- The `SELECT .. FOR UPDATE SKIP LOCKED LIMIT 1` of `claim_next`: the first
claimable request that no other open transaction has locked.  Among requests
equal in the order the scan decides. -/
def selectClaimable (db : Db) (worker : Worker) (now : Timestamp)
    (locked : UUID → Bool) : Option OrbiRequest :=
  (db.requests.rows.filter fun request =>
    request.isClaimable worker now && !locked request.id).argmin
      OrbiRequest.claimOrder

/-- Claim one compatible queued request, skipping the locked rows. -/
def claimNext (db : Db) (worker : Worker) (leaseSeconds : ℤ) (now : Timestamp)
    (locked : UUID → Bool := fun _ => false) : Option OrbiRequest × Db :=
  match selectClaimable db worker now locked with
  | none => (none, db)
  | some request =>
      let request := request.claimed worker leaseSeconds now
      (some request, { db with requests := db.requests.put request })

/-- Accept at most one result, from the worker the request is assigned to. -/
def commitResult (db : Db) (requestId : UUID) (worker : Worker) (result : Json)
    (inputTokens outputTokens latencyMs : ℤ) (now : Timestamp) :
    Except Failure (Bool × Db) :=
  let guard := fun request : OrbiRequest => request.isHeldBy requestId worker.id
  let set : Table.RowUpdate OrbiRequest :=
    ⟨fun request => request.completed result inputTokens outputTokens now,
      fun _ => rfl⟩
  match db.requests.returning guard set with
  | [] => .ok (false, db)
  | row :: _ => do
      let db := { db with requests := db.requests.updateWhere guard set }
      let totalTokens := inputTokens + outputTokens
      let db ← BudgetService.reconcile db row.projectId row.reservedTokens
        totalTokens row.budgetDay row.budgetMonth
      let db := { db with
        apiKeys := db.apiKeys.updateWhere (fun record => record.id == row.apiKeyId)
          ⟨fun record => record.countUse totalTokens, fun _ => rfl⟩ }
      match db.usageRecords.insert {
          requestId := requestId
          projectId := row.projectId
          apiKeyId := row.apiKeyId
          workerId := some worker.id
          providerType := some worker.providerType
          modelId := row.resolvedModel
          inputTokens := inputTokens
          outputTokens := outputTokens
          latencyMs := some latencyMs } with
      | none => .error .integrityError
      | some usageRecords => .ok (true, { db with usageRecords := usageRecords })

/-- Record a worker error: requeue within the retry budget, else fail and release
the reservation. -/
def recordError (db : Db) (requestId : UUID) (worker : Worker)
    (retryable : Bool) (errorCode message : String) :
    Except Failure (Bool × Db) :=
  match db.requests.rows.find?
      fun request => request.isHeldBy requestId worker.id with
  | none => .ok (false, db)
  | some request =>
      let request := request.withError errorCode message
      if request.mayRetry retryable then
        .ok (true, { db with requests := db.requests.put request.requeued })
      else do
        let request := request.failed
        let db := { db with requests := db.requests.put request }
        let db ← BudgetService.release db request.projectId
          request.reservedTokens request.budgetDay request.budgetMonth
        return (true, db)

/-- The loop that ends `recover_expired_leases`. -/
def releaseAll (db : Db) (rows : List OrbiRequest) : Except Failure Db :=
  rows.foldlM (fun db row => BudgetService.release db row.projectId
    row.reservedTokens row.budgetDay row.budgetMonth) db

/-- The `SET` clauses of the three updates of recovery. -/
def requeueUpdate : Table.RowUpdate OrbiRequest :=
  ⟨OrbiRequest.leaseRequeued, fun _ => rfl⟩

def failUpdate : Table.RowUpdate OrbiRequest :=
  ⟨OrbiRequest.leaseFailed, fun _ => rfl⟩

def expireUpdate : Table.RowUpdate OrbiRequest :=
  ⟨OrbiRequest.queueExpired, fun _ => rfl⟩

/-- Requeue the retryable expired leases, fail the exhausted ones, expire what is
queued for too long, and release the reservations of the terminated rows. -/
def recoverExpiredLeases (db : Db) (now : Timestamp) : Except Failure (ℕ × Db) := do
  let requests := db.requests
  let retryable := requests.returning (·.isRetryable now) requeueUpdate
  let requests := requests.updateWhere (·.isRetryable now) requeueUpdate
  let terminalRows := requests.returning (·.isExhausted now) failUpdate
  let requests := requests.updateWhere (·.isExhausted now) failUpdate
  let expiredRows := requests.returning (·.isQueueExpired now) expireUpdate
  let requests := requests.updateWhere (·.isQueueExpired now) expireUpdate
  let db ← releaseAll { db with requests := requests } (terminalRows ++ expiredRows)
  return (retryable.length, db)

end QueueService

end OrbiGateway
