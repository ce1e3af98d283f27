import OrbiGateway.Schemas
import OrbiGateway.Services.Queue

/-!
# Worker routes and revocation

What a worker's routes do with the row that `require_worker` has loaded, and the
revocation of a worker by an administrator.  A route assigns attributes of the
loaded object; the flush then writes the columns whose value has changed, whatever
the committed row contains by that time.
-/

namespace OrbiGateway

open Relational

/-! ## Writing a loaded row -/

/-- A column after a flush: the assigned value if it differs from the loaded one. -/
def flushColumn {α : Type*} [BEq α] (loaded new committed : α) : α :=
  if new == loaded then committed else new

/-- A flush leaves a committed value exactly if the assigned one is the loaded or the
committed one. -/
theorem flushColumn_eq_iff {α : Type*} [BEq α] [LawfulBEq α] {loaded new committed : α} :
    flushColumn loaded new committed = committed ↔ new = loaded ∨ new = committed := by
  unfold flushColumn
  by_cases heq : new = loaded
  · simp [heq]
  · simp [heq]

theorem flushColumn_loaded {α : Type*} [BEq α] [LawfulBEq α] (loaded new : α) :
    flushColumn loaded new loaded = new := by
  unfold flushColumn
  by_cases heq : new = loaded
  · simp [heq]
  · simp [heq]

theorem flushColumn_cases {α : Type*} [BEq α] (loaded new committed : α) :
    flushColumn loaded new committed = committed ∨
      flushColumn loaded new committed = new := by
  unfold flushColumn
  split
  · exact Or.inl rfl
  · exact Or.inr rfl

namespace Worker

/-- The committed row after the flush of an object that was loaded as `loaded` and
is now `new`. -/
def flush (loaded new committed : Worker) : Worker :=
  { committed with
    status := flushColumn loaded.status new.status committed.status
    currentQueueDepth := flushColumn loaded.currentQueueDepth new.currentQueueDepth
      committed.currentQueueDepth
    capabilities := flushColumn loaded.capabilities new.capabilities
      committed.capabilities
    tokenJti := flushColumn loaded.tokenJti new.tokenJti committed.tokenJti
    lastHeartbeat := flushColumn loaded.lastHeartbeat new.lastHeartbeat
      committed.lastHeartbeat
    revokedAt := flushColumn loaded.revokedAt new.revokedAt committed.revokedAt }

/-- The assignments of `heartbeat`. -/
def reported (worker : Worker) (payload : WorkerHeartbeatRequest) (now : Timestamp) :
    Worker :=
  { worker with
    status := payload.status.toWorkerStatus
    currentQueueDepth := payload.currentQueueDepth
    capabilities := .obj payload.capabilities
    lastHeartbeat := some now }

/-- The assignment of `renew_worker_token`, and of `register_worker` to its new row. -/
def renewed (worker : Worker) (jti : String) : Worker :=
  { worker with tokenJti := some jti }

/-- The assignments of `revoke_worker`. -/
def revoked (worker : Worker) (now : Timestamp) : Worker :=
  { worker with
    revokedAt := some (worker.revokedAt.getD now)
    status := .suspended
    tokenJti := none }

end Worker

/-- The `UPDATE` of a flushed worker. -/
def flushWorker (db : Db) (loaded new : Worker) : Db :=
  { db with
    workers := db.workers.updateWhere (fun row => row.id == loaded.id)
      ⟨fun row => loaded.flush new row, fun _ => rfl⟩ }

theorem find_flushWorker {db : Db} {loaded new : Worker} {workerId : UUID}
    (hid : loaded.id = workerId) :
    (flushWorker db loaded new).workers.find workerId =
      (db.workers.find workerId).map fun row => loaded.flush new row := by
  simp only [flushWorker, Table.updateWhere, Table.find_mapRows]
  cases hfind : db.workers.find workerId with
  | none => rfl
  | some row =>
      have hrow : row.id = loaded.id := (Table.key_of_find hfind).trans hid.symm
      simp [Table.RowUpdate.onRows, hrow]

/-! ## Routes -/

def resultNotAccepted : OrbiError :=
  ⟨"result_not_accepted",
    "The request is complete, unassigned, or assigned to another worker.", 409⟩

def errorNotAccepted : OrbiError :=
  ⟨"error_not_accepted",
    "The request is complete, unassigned, or assigned to another worker.", 409⟩

def workerNotFound : OrbiError :=
  ⟨"worker_not_found", "Worker does not exist.", 404⟩

/-- `heartbeat`. -/
def heartbeat (db : Db) (worker : Worker) (payload : WorkerHeartbeatRequest)
    (now : Timestamp) : Db :=
  flushWorker db worker (worker.reported payload now)

/-- `pull_request`: the status that was loaded decides. -/
def pullRequest (db : Db) (worker : Worker) (leaseSeconds : ℤ) (now : Timestamp)
    (locked : UUID → Bool) : Option OrbiRequest × Db :=
  if worker.status ≠ .online then (none, db)
  else QueueService.claimNext db worker leaseSeconds now locked

/-- `submit_result`. -/
def submitResult (db : Db) (worker : Worker) (payload : WorkerResultRequest)
    (now : Timestamp) : Except Failure Db := do
  let (accepted, db) ← QueueService.commitResult db payload.requestId worker
    (.obj payload.result) payload.inputTokens payload.outputTokens payload.latencyMs now
  if accepted then return db else .error (.orbi resultNotAccepted)

/-- `submit_error`. -/
def submitError (db : Db) (worker : Worker) (payload : WorkerErrorRequest) :
    Except Failure Db := do
  let (accepted, db) ← QueueService.recordError db payload.requestId worker
    payload.retryable payload.errorCode payload.message
  if accepted then return db else .error (.orbi errorNotAccepted)

/-- `renew_worker_token` with the `jti` of the token it issues. -/
def renewWorkerToken (db : Db) (worker : Worker) (jti : String) : Db :=
  flushWorker db worker (worker.renewed jti)

/-- `revoke_worker`. -/
def revokeWorker (db : Db) (workerId : UUID) (now : Timestamp) : Except Failure Db :=
  match db.workers.find workerId with
  | none => .error (.orbi workerNotFound)
  | some worker => .ok (flushWorker db worker (worker.revoked now))

end OrbiGateway
