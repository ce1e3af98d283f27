import OrbiGateway.Library.Runs
import OrbiGateway.Routes.Chat
import OrbiGateway.Services.Queue

/-!
# Committed operations

The gateway as a system of committed operations: chat acceptance, claims, result
and error submissions and lease recovery, each taking the database from one
committed state to the next or failing and leaving it alone.  Workers are
arbitrary values, so every submission may be late, repeated or sent by a worker
that holds nothing.

PostgreSQL does not fix the order in which a scan visits rows, so the rows of
the request table may change places between any two operations.
-/

namespace OrbiGateway

open Relational Transition

/-- One call of an operation with everything it reads outside the database. -/
inductive Op
  | chat (call : ChatCall)
  | claim (worker : Worker) (leaseSeconds : ℤ) (now : Timestamp)
  | submitResult (worker : Worker) (payload : WorkerResultRequest) (now : Timestamp)
  | submitError (worker : Worker) (payload : WorkerErrorRequest)
  | recover (now : Timestamp)

/-- What an operation that commits returns. -/
inductive Reply
  | chat (reply : ChatReply)
  | claimed (request : Option OrbiRequest)
  | resultAccepted (accepted : Bool)
  | errorAccepted (accepted : Bool)
  | recovered (count : ℕ)

/-- Run one operation on the committed state. -/
def exec (db : Db) : Op → Except Failure (Reply × Db)
  | .chat call => do
      let (reply, db) ← acceptChat db call
      return (.chat reply, db)
  | .claim worker leaseSeconds now =>
      let (request, db) := QueueService.claimNext db worker leaseSeconds now
      .ok (.claimed request, db)
  | .submitResult worker payload now => do
      let (accepted, db) ← QueueService.commitResult db payload.requestId worker
        (.obj payload.result) payload.inputTokens payload.outputTokens
        payload.latencyMs now
      return (.resultAccepted accepted, db)
  | .submitError worker payload => do
      let (accepted, db) ← QueueService.recordError db payload.requestId worker
        payload.retryable payload.errorCode payload.message
      return (.errorAccepted accepted, db)
  | .recover now => do
      let (count, db) ← QueueService.recoverExpiredLeases db now
      return (.recovered count, db)

/-! ## Settlements -/

/-- One settled reservation: the request, its reservation and the tokens that
replace it. -/
structure Settlement where
  requestId : UUID
  projectId : UUID
  reservedTokens : ℤ
  actualTokens : ℤ
  budgetDay : Date
  budgetMonth : Date

/-- The settlement of a row by the given tokens. -/
def OrbiRequest.settledBy (request : OrbiRequest) (actualTokens : ℤ) :
    Settlement where
  requestId := request.id
  projectId := request.projectId
  reservedTokens := request.reservedTokens
  actualTokens := actualTokens
  budgetDay := request.budgetDay
  budgetMonth := request.budgetMonth

/-- Recovery expires this row: it is queued, or put back in the queue by the same
call, past its expiry. -/
def OrbiRequest.expiresInRecovery (request : OrbiRequest) (now : Timestamp) :
    Bool :=
  if request.isRetryable now then request.leaseRequeued.isQueueExpired now
  else request.isQueueExpired now

/-- The reservations an operation settles, read off the state before it. -/
def settlements (db : Db) : Op → List Settlement
  | .chat _ => []
  | .claim _ _ _ => []
  | .submitResult worker payload _ =>
      (db.requests.rows.filter fun request =>
          request.isHeldBy payload.requestId worker.id).map fun request =>
        request.settledBy (payload.inputTokens + payload.outputTokens)
  | .submitError worker payload =>
      (db.requests.rows.filter fun request =>
          request.isHeldBy payload.requestId worker.id &&
            !request.mayRetry payload.retryable).map
        fun request => request.settledBy 0
  | .recover now =>
      ((db.requests.rows.filter fun request => request.isExhausted now) ++
        db.requests.rows.filter fun request => request.expiresInRecovery now).map
        fun request => request.settledBy 0

/-! ## Runs -/

/-- An entry of the history.  `settled` lists the reservations the operation
settled. -/
inductive Event
  | performed (op : Op) (reply : Reply) (settled : List Settlement)
  | failed (op : Op) (failure : Failure)
  | rescanned

/-- One committed operation, one operation that failed and was rolled back, or a
change of the scan order. -/
inductive Step : Db → Event → Db → Prop
  | performed {db db' : Db} {op : Op} {reply : Reply}
      (hexec : exec db op = .ok (reply, db')) :
      Step db (.performed op reply (settlements db op)) db'
  | failed {db : Db} {op : Op} {failure : Failure}
      (hexec : exec db op = .error failure) :
      Step db (.failed op failure) db
  | rescanned {db : Db} {requests : Table OrbiRequest}
      (hperm : requests.rows.Perm db.requests.rows) :
      Step db .rescanned { db with requests := requests }

/-- A run of the gateway from `db₀`. -/
abbrev History (db₀ : Db) (history : List Event) (db : Db) : Prop :=
  Run Step db₀ history db

/-- The start of a run: projects, keys, aliases and workers may exist, but no
request has been accepted and nothing has been used. -/
structure Fresh (db : Db) : Prop where
  requests_empty : db.requests.rows = []
  usageRecords_empty : db.usageRecords.rows = []
  counters_zero : ∀ project ∈ db.projects.rows, ∀ period : Period,
    period.used project = 0

end OrbiGateway
