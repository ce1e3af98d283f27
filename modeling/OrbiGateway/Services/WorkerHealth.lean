import OrbiGateway.Models.Entities

/-!
# Worker health

The maintenance loop marks the workers offline whose heartbeats have stopped.  Draining and
suspended workers keep their status.
-/

namespace OrbiGateway

open Relational

/-- `WorkerHealthService`, whose timeout is 90 seconds unless it is given one. -/
structure WorkerHealthService where
  timeoutSeconds : ℤ := 90
  timeout_ge : 30 ≤ timeoutSeconds

namespace Worker

/-- The `WHERE` clause of `mark_stale_workers_offline`. -/
def isStale (worker : Worker) (cutoff : Timestamp) : Bool :=
  worker.status == .online &&
    match worker.lastHeartbeat with
    | some lastHeartbeat => lastHeartbeat < cutoff
    | none => false

theorem isStale_iff {worker : Worker} {cutoff : Timestamp} :
    worker.isStale cutoff = true ↔ worker.status = .online ∧
      ∃ lastHeartbeat, worker.lastHeartbeat = some lastHeartbeat ∧ lastHeartbeat < cutoff := by
  unfold isStale
  cases worker.lastHeartbeat with
  | none => simp
  | some lastHeartbeat => simp

/-- The row as the update leaves it. -/
def markedOffline (worker : Worker) : Worker :=
  { worker with status := .offline }

end Worker

namespace WorkerHealthService

def offlineUpdate : Table.RowUpdate Worker :=
  ⟨Worker.markedOffline, fun _ => rfl⟩

/-- The heartbeats before this instant are too old. -/
def cutoff (service : WorkerHealthService) (now : Timestamp) : Timestamp :=
  now - seconds service.timeoutSeconds

/-- `mark_stale_workers_offline` with the number of rows that it updates. -/
def markStaleWorkersOffline (service : WorkerHealthService) (db : Db) (now : Timestamp) :
    ℕ × Db :=
  let stale := fun worker : Worker => worker.isStale (service.cutoff now)
  ((db.workers.returning stale offlineUpdate).length,
    { db with workers := db.workers.updateWhere stale offlineUpdate })

end WorkerHealthService

end OrbiGateway
