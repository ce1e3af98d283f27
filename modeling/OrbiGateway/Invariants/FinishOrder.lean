import OrbiGateway.Invariants.BudgetLedger
import OrbiGateway.Invariants.HardLimit
import OrbiGateway.Invariants.UsageLedger

/-!
# The order of final reports

Workers report on their requests in no particular order.  Every part of the state that
a final report writes is either a row of its own request, a new usage record or a
counter to which it adds, so the order would not matter but for the clamp of
`reconcile`: `max 0 (used + delta)` taken twice depends on which delta comes first.
In a reachable state each project counter covers the reservations that are still open,
the clamp is idle, and any order ends in the same state.
-/

namespace OrbiGateway

open Relational Transition

/-- What a worker reports about a request it will not work on any more. -/
inductive FinalReport
  | result (payload : WorkerResultRequest)
  | error (payload : WorkerErrorRequest)

/-- A request, a worker and the worker's report on it. -/
structure Finishing where
  request : OrbiRequest
  worker : Worker
  report : FinalReport

namespace Finishing

/-- The operation, when it is called at instant `now`. -/
def op (f : Finishing) (now : Timestamp) : Op :=
  match f.report with
  | .result payload => .submitResult f.worker payload now
  | .error payload => .submitError f.worker payload

/-- The answer `True`. -/
def reply (f : Finishing) : Reply :=
  match f.report with
  | .result _ => .resultAccepted true
  | .error _ => .errorAccepted true

/-- The id in the payload of the report. -/
def requestId (f : Finishing) : UUID :=
  match f.report with
  | .result payload => payload.requestId
  | .error payload => payload.requestId

/-- The tokens that replace the reservation. -/
def actualTokens (f : Finishing) : ℤ :=
  match f.report with
  | .result payload => payload.inputTokens + payload.outputTokens
  | .error _ => 0

def settlement (f : Finishing) : Settlement :=
  f.request.settledBy f.actualTokens

/-- The usage record that the report adds, if it adds one. -/
def usageRecords (f : Finishing) : List UsageRecord :=
  match f.report with
  | .result payload => [QueueService.usageRecordOf f.request f.worker payload.inputTokens
      payload.outputTokens payload.latencyMs]
  | .error _ => []

/-- What the report does to the key totals. -/
def countUse (f : Finishing) (apiKeys : Table APIKey) : Table APIKey :=
  match f.report with
  | .result _ => QueueService.countUse f.request f.actualTokens apiKeys
  | .error _ => apiKeys

/-- What the report does to a request row. -/
def onRow (f : Finishing) (now : Timestamp) (r : OrbiRequest) : OrbiRequest :=
  r.after (f.op now) f.reply

/-- The accepted report in a history. -/
def event (f : Finishing) (now : Timestamp) : Event :=
  .performed (f.op now) f.reply [f.settlement]

/-- The report ends a request in progress of this state: it comes from the worker that
the request is assigned to, and if it is an error the request is not tried again. -/
structure EndsIn (f : Finishing) (db : Db) : Prop where
  mem : f.request ∈ db.requests.rows
  held : f.request.isHeldBy f.requestId f.worker.id = true
  not_retried : ∀ payload, f.report = .error payload →
    f.request.mayRetry payload.retryable = false

end Finishing

/-- The state after a list of reports, table by table. -/
structure Finished (calls : List (Finishing × Timestamp)) (db db' : Db) : Prop where
  requests : db'.requests.rows =
    db.requests.rows.map fun r => calls.foldl (fun r call => call.1.onRow call.2 r) r
  projects : db'.projects =
    settleAll (calls.map fun call => call.1.settlement) db.projects
  apiKeys : db'.apiKeys =
    calls.foldl (fun apiKeys call => call.1.countUse apiKeys) db.apiKeys
  usageRecords : db'.usageRecords.rows =
    db.usageRecords.rows ++ calls.flatMap fun call => call.1.usageRecords

/-! ## One report -/

namespace Finishing

variable {f g : Finishing} {db db' : Db}

theorem EndsIn.id_eq (h : f.EndsIn db) : f.requestId = f.request.id :=
  (OrbiRequest.isHeldBy_iff.mp h.held).1.symm

theorem settlements_op (h : f.EndsIn db) (now : Timestamp) :
    settlements db (f.op now) = [f.settlement] := by
  obtain ⟨request, worker, report⟩ := f
  cases report with
  | result payload => exact settlements_submitResult h.mem h.held now
  | error payload =>
      have hheld : request.isHeldBy payload.requestId worker.id = true := h.held
      have hretry : request.mayRetry payload.retryable = false := h.not_retried payload rfl
      simp only [op, settlements]
      rw [filter_isHeldBy_and h.mem hheld]
      simp [hretry, settlement, actualTokens]

theorem exec_op (hknown : ProjectsKnown db) (howned : RecordsOwned db)
    (h : f.EndsIn db) (now : Timestamp) :
    ∃ db', exec db (f.op now) = .ok (f.reply, db') := by
  have hproject := hknown f.request h.mem
  obtain ⟨request, worker, report⟩ := f
  cases report with
  | result payload => exact exec_submitResult_of_isHeldBy hknown howned h.mem h.held now
  | error payload =>
      obtain ⟨db', hrecord⟩ := QueueService.recordError_of_isHeldBy payload.errorCode
        payload.message h.mem h.held (h.not_retried payload rfl) hproject
      exact ⟨db', Except.bind_eq_ok_iff.mpr ⟨_, hrecord, rfl⟩⟩

theorem newRows_reply (f : Finishing) : f.reply.newRows = [] := by
  unfold reply
  split
  · rfl
  · rfl

theorem finished_ledgers (h : f.EndsIn db) {now : Timestamp}
    (hexec : exec db (f.op now) = .ok (f.reply, db')) :
    db'.apiKeys = f.countUse db.apiKeys ∧
      db'.usageRecords.rows = db.usageRecords.rows ++ f.usageRecords := by
  have hstep := exec_ledgerStep hexec
  obtain ⟨request, worker, report⟩ := f
  cases report with
  | result payload =>
      cases hstep with
      | kept hchat hkeys husage hrefused => exact absurd rfl hrefused
      | @used _ _ _ r hmem hheld hkeys husage =>
          have hsame : r = request := by
            apply db.requests.eq_of_key_eq hmem h.mem
            exact (OrbiRequest.isHeldBy_iff.mp hheld).1.trans h.id_eq
          subst hsame
          exact ⟨hkeys, (Table.insert_eq_some_iff.mp husage).2⟩
  | error payload =>
      cases hstep with
      | kept hchat hkeys husage hrefused =>
          refine ⟨hkeys, ?_⟩
          rw [husage]
          exact (List.append_nil _).symm

theorem finished_op (h : f.EndsIn db) {now : Timestamp}
    (hexec : exec db (f.op now) = .ok (f.reply, db')) : Finished [(f, now)] db db' := by
  obtain ⟨hkeys, husage⟩ := finished_ledgers h hexec
  refine ⟨?_, ?_, hkeys, ?_⟩
  · rw [exec_requests hexec, f.newRows_reply, List.append_nil]
    rfl
  · rw [exec_projects hexec f.newRows_reply, settlements_op h]
    rfl
  · rw [husage]
    simp

theorem onRow_of_ne {now : Timestamp} {r : OrbiRequest} (hne : f.requestId ≠ r.id) :
    f.onRow now r = r := by
  obtain ⟨request, worker, report⟩ := f
  have hother : r.isHeldBy (requestId ⟨request, worker, report⟩) worker.id = false := by
    rw [← Bool.not_eq_true, OrbiRequest.isHeldBy_iff]
    rintro ⟨hid, -⟩
    exact hne hid.symm
  cases report with
  | result payload => simp_all [onRow, op, reply, OrbiRequest.after, requestId]
  | error payload => simp_all [onRow, op, reply, OrbiRequest.after, requestId]

theorem EndsIn.after_op (hg : g.EndsIn db) (hf : f.EndsIn db)
    (hne : f.request.id ≠ g.request.id) {now : Timestamp}
    (hexec : exec db (f.op now) = .ok (f.reply, db')) : g.EndsIn db' where
  mem := by
    rw [(finished_op hf hexec).requests]
    refine List.mem_map.mpr ⟨g.request, hg.mem, ?_⟩
    apply onRow_of_ne
    rw [hf.id_eq]
    exact hne
  held := hg.held
  not_retried := hg.not_retried

end Finishing

/-! ## A list of reports -/

theorem Finished.cons {call : Finishing × Timestamp} {calls : List (Finishing × Timestamp)}
    {db mid db' : Db} (hone : Finished [call] db mid) (hrest : Finished calls mid db') :
    Finished (call :: calls) db db' where
  requests := by
    rw [hrest.requests, hone.requests, List.map_map]
    rfl
  projects := by
    rw [hrest.projects, hone.projects, settleAll_settleAll]
    rfl
  apiKeys := by
    rw [hrest.apiKeys, hone.apiKeys]
    rfl
  usageRecords := by
    rw [hrest.usageRecords, hone.usageRecords]
    simp

/-- The reports end different requests of this state. -/
structure EndDistinct (finishings : List Finishing) (db : Db) : Prop where
  endsIn : ∀ f ∈ finishings, f.EndsIn db
  distinct : (finishings.map fun f => f.request.id).Nodup

namespace Finishing

end Finishing

end OrbiGateway
