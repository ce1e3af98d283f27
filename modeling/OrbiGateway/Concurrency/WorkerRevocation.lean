import OrbiGateway.Routes.Workers
import OrbiGateway.System.Histories

/-!
# Worker calls against a revocation

A worker's call reads its row without a lock and writes later; a revocation locks
the row, assigns and commits.  A call that has been authenticated can therefore
finish after the revocation, with what it loaded before.
-/

namespace OrbiGateway

open Relational Transition

/-! ## Calls -/

/-- A call of a worker route with everything it reads outside the database. -/
inductive WorkerCall
  | heartbeat (payload : WorkerHeartbeatRequest) (now : Timestamp)
  | pull (leaseSeconds : ℤ) (now : Timestamp) (locked : UUID → Bool)
  | submitResult (payload : WorkerResultRequest) (now : Timestamp)
  | submitError (payload : WorkerErrorRequest)
  | renew (jti : String)

inductive WorkerReply
  | healthRecorded
  | pulled (request : Option OrbiRequest)
  | resultAccepted
  | errorAccepted
  | renewed (jti : String)

namespace WorkerCall

/-- The route on the committed database, with the row that authentication loaded. -/
def run (db : Db) (loaded : Worker) : WorkerCall → Except Failure (WorkerReply × Db)
  | .heartbeat payload now => .ok (.healthRecorded, OrbiGateway.heartbeat db loaded payload now)
  | .pull leaseSeconds now locked =>
      let (request, db) := pullRequest db loaded leaseSeconds now locked
      .ok (.pulled request, db)
  | .submitResult payload now => do
      let db ← OrbiGateway.submitResult db loaded payload now
      return (.resultAccepted, db)
  | .submitError payload => do
      let db ← OrbiGateway.submitError db loaded payload
      return (.errorAccepted, db)
  | .renew jti => .ok (.renewed jti, renewWorkerToken db loaded jti)

/-- The call updates the worker's row and waits for its lock. -/
def updatesWorker : WorkerCall → Bool
  | .heartbeat _ _ => true
  | .renew _ => true
  | _ => false

end WorkerCall

/-- The worker whose credentials the operation carries. -/
def Op.workerId : Op → Option UUID
  | .claim worker _ _ => some worker.id
  | .submitResult worker _ _ => some worker.id
  | .submitError worker _ => some worker.id
  | _ => none

/-! ## States and steps -/

/-- How far the revocation of the worker has come: it holds the row lock from its
`SELECT .. FOR UPDATE` to its commit. -/
inductive Revocation
  | idle
  | locked (loaded : Worker)
  | written (loaded new : Worker)

/-- The row that it has locked is the committed one. -/
def Revocation.Current (w : UUID) (db : Db) : Revocation → Prop
  | .idle => True
  | .locked loaded => db.workers.find w = some loaded
  | .written loaded new =>
      db.workers.find w = some loaded ∧ ∃ now, new = loaded.revoked now

/-- The committed rows, the authenticated calls of the worker with the rows they
have loaded, and the revocation in progress. -/
structure WorkerState (τ : Type*) where
  db : Db
  calls : τ → Option (WorkerCall × Worker)
  revocation : Revocation

inductive WorkerEvent (τ : Type*)
  | authenticated (t : τ) (call : WorkerCall) (jti : String)
  | finished (t : τ) (reply : WorkerReply)
  | failed (t : τ)
  | revocationLocked
  | revocationWritten (now : Timestamp)
  | revocationCommitted
  | revocationRolledBack
  | performed (op : Op)

/-- The reply assigns a request to the worker or accepts a result from it. -/
def WorkerReply.Serves : WorkerReply → Prop
  | .pulled request => request.isSome = true
  | .resultAccepted => True
  | _ => False

def WorkerEvent.Serves {τ : Type*} : WorkerEvent τ → Prop
  | .finished _ reply => reply.Serves
  | _ => False

section Steps

variable {τ : Type*}

def WorkerState.start (db : Db) : WorkerState τ where
  db := db
  calls _ := none
  revocation := .idle

/-- One step of a call of worker `w`, of a revocation of `w` or of anyone else. -/
inductive WorkerStep [DecidableEq τ] (w : UUID) :
    WorkerState τ → WorkerEvent τ → WorkerState τ → Prop
  | authenticated {s : WorkerState τ} {t : τ} {call : WorkerCall} {jti : String}
      {loaded : Worker} (hidle : s.calls t = none)
      (hworker : requireWorker s.db w jti = .ok loaded) :
      WorkerStep w s (.authenticated t call jti)
        { s with calls := Function.update s.calls t (some (call, loaded)) }
  | finished {s : WorkerState τ} {t : τ} {call : WorkerCall} {loaded : Worker}
      {reply : WorkerReply} {db : Db} (hcall : s.calls t = some (call, loaded))
      (hfree : call.updatesWorker = true → s.revocation = .idle)
      (hrun : call.run s.db loaded = .ok (reply, db)) :
      WorkerStep w s (.finished t reply)
        { s with
          db := db
          calls := Function.update s.calls t none }
  | failed {s : WorkerState τ} {t : τ} :
      WorkerStep w s (.failed t) { s with calls := Function.update s.calls t none }
  | revocationLocked {s : WorkerState τ} {loaded : Worker}
      (hidle : s.revocation = .idle) (hfind : s.db.workers.find w = some loaded) :
      WorkerStep w s .revocationLocked { s with revocation := .locked loaded }
  | revocationWritten {s : WorkerState τ} {loaded : Worker} {now : Timestamp}
      (hlocked : s.revocation = .locked loaded) :
      WorkerStep w s (.revocationWritten now)
        { s with revocation := .written loaded (loaded.revoked now) }
  | revocationCommitted {s : WorkerState τ} {loaded new : Worker}
      (hwritten : s.revocation = .written loaded new) :
      WorkerStep w s .revocationCommitted
        { s with
          db := flushWorker s.db loaded new
          revocation := .idle }
  | revocationRolledBack {s : WorkerState τ} :
      WorkerStep w s .revocationRolledBack { s with revocation := .idle }
  | performed {s : WorkerState τ} {op : Op} {reply : Reply} {db : Db}
      (hother : op.workerId ≠ some w) (hexec : exec s.db op = .ok (reply, db)) :
      WorkerStep w s (.performed op) { s with db := db }

/-- A run of calls of `w`, revocations of `w` and operations of others. -/
abbrev WorkerRun [DecidableEq τ] (w : UUID) (db : Db) (history : List (WorkerEvent τ))
    (s : WorkerState τ) : Prop :=
  Run (WorkerStep w) (.start db) history s

end Steps

/-! ## The property and its condition -/

/-- The worker is suspended and has no token. -/
def Suspended (w : UUID) (db : Db) : Prop :=
  ∃ worker, db.workers.find w = some worker ∧ worker.status = .suspended ∧
    worker.tokenJti = none

/-- Whatever the interleaving, once the revocation has committed the worker stays
suspended without a token and is not served any more. -/
def RevocationSafe (w : UUID) (db : Db) : Prop :=
  ∀ (τ : Type) [DecidableEq τ] (newer older : List (WorkerEvent τ)) (s : WorkerState τ),
    WorkerRun w db (newer ++ .revocationCommitted :: older) s →
      Suspended w s.db ∧ ∀ e ∈ newer, ¬e.Serves

/-- Finishing the call now would give a suspended worker another status or a token,
or serve it: a heartbeat with a status other than the loaded one, a renewal, a pull
that has loaded `ONLINE` while a compatible request is free, or a result of a
request that the worker holds. -/
def WorkerCall.Defies (db : Db) (loaded : Worker) : WorkerCall → Prop
  | .heartbeat payload _ => payload.status.toWorkerStatus ≠ loaded.status
  | .pull _ now locked => loaded.status = .online ∧
      ∃ request ∈ db.requests.rows, request.isClaimable loaded now = true ∧
        locked request.id = false
  | .submitResult payload _ => ∃ request ∈ db.requests.rows,
      request.isHeldBy payload.requestId loaded.id = true
  | .submitError _ => False
  | .renew jti => some jti ≠ loaded.tokenJti

/-- The step finishes such a call. -/
def WorkerState.Defied {τ : Type*} (s : WorkerState τ) : WorkerEvent τ → Prop
  | .finished t _ => ∃ call loaded, s.calls t = some (call, loaded) ∧
      call.Defies s.db loaded
  | _ => False

/-! ## Worker rows -/

section Rows

variable {db db' : Db} {w : UUID} {loaded new : Worker}

theorem Suspended.of_workers_eq (h : Suspended w db) (hsame : db'.workers = db.workers) :
    Suspended w db' := by
  obtain ⟨worker, hfind, hsuspended⟩ := h
  exact ⟨worker, by rw [hsame, hfind], hsuspended⟩

/-- A flush over a suspended row leaves it suspended exactly if it assigns no other
status and no other token. -/
theorem suspended_flushWorker_iff (h : Suspended w db) (hid : loaded.id = w) :
    Suspended w (flushWorker db loaded new) ↔
      (new.status = loaded.status ∨ new.status = .suspended) ∧
        (new.tokenJti = loaded.tokenJti ∨ new.tokenJti = none) := by
  obtain ⟨worker, hfind, hstatus, htoken⟩ := h
  have hrow : (flushWorker db loaded new).workers.find w =
      some (loaded.flush new worker) := by
    rw [find_flushWorker hid, hfind, Option.map_some]
  have hiff : Suspended w (flushWorker db loaded new) ↔
      (loaded.flush new worker).status = .suspended ∧
        (loaded.flush new worker).tokenJti = none := by
    constructor
    · rintro ⟨row, hfind', hsuspended⟩
      rw [hrow, Option.some.injEq] at hfind'
      rw [hfind']
      exact hsuspended
    · intro hsuspended
      exact ⟨_, hrow, hsuspended⟩
  rw [hiff, Worker.flush, hstatus, htoken]
  exact and_congr flushColumn_eq_iff flushColumn_eq_iff

theorem suspended_revoked {now : Timestamp} (hfind : db.workers.find w = some loaded) :
    Suspended w (flushWorker db loaded (loaded.revoked now)) := by
  have hid : loaded.id = w := Table.key_of_find hfind
  refine ⟨loaded.flush (loaded.revoked now) loaded, ?_, ?_, ?_⟩
  · rw [find_flushWorker hid, hfind, Option.map_some]
  · exact flushColumn_loaded _ _
  · exact flushColumn_loaded _ _

end Rows

/-! ## Calls on a suspended row -/

section Calls

variable {db db' : Db} {w : UUID} {loaded : Worker} {call : WorkerCall}
  {reply : WorkerReply}

theorem toWorkerStatus_ne_suspended (status : HeartbeatStatus) :
    status.toWorkerStatus ≠ .suspended := by
  cases status with
  | online => decide
  | draining => decide

theorem pullRequest_workers (db : Db) (leaseSeconds : ℤ) (now : Timestamp)
    (locked : UUID → Bool) :
    (pullRequest db loaded leaseSeconds now locked).2.workers = db.workers := by
  unfold pullRequest QueueService.claimNext
  split
  · rfl
  · split <;> rfl

/-- A pull is served exactly if it has loaded `ONLINE` and a compatible request is
free. -/
theorem pullRequest_isSome_iff {leaseSeconds : ℤ} {now : Timestamp}
    {locked : UUID → Bool} :
    (pullRequest db loaded leaseSeconds now locked).1.isSome = true ↔
      (WorkerCall.pull leaseSeconds now locked).Defies db loaded := by
  by_cases honline : loaded.status = .online
  · have hclaim : pullRequest db loaded leaseSeconds now locked =
        QueueService.claimNext db loaded leaseSeconds now locked := by
      simp [pullRequest, honline]
    rw [hclaim, QueueService.claimNext]
    cases hselect : QueueService.selectClaimable db loaded now locked with
    | none =>
        have hlocked := QueueService.selectClaimable_none hselect
        constructor
        · intro hno
          cases hno
        · rintro ⟨-, request, hmem, hclaimable, hfree⟩
          rw [hlocked request hmem hclaimable] at hfree
          cases hfree
    | some request =>
        obtain ⟨hmem, hclaimable, hfree, -⟩ := QueueService.selectClaimable_spec hselect
        constructor
        · intro _
          exact ⟨honline, request, hmem, hclaimable, hfree⟩
        · intro _
          rfl
  · have hrefused : pullRequest db loaded leaseSeconds now locked = (none, db) := by
      simp [pullRequest, honline]
    rw [hrefused]
    constructor
    · intro hno
      cases hno
    · rintro ⟨hyes, -⟩
      exact absurd hyes honline

/-- A result that is accepted was one of a request that the worker held. -/
theorem submitResult_spec {payload : WorkerResultRequest} {now : Timestamp}
    (h : submitResult db loaded payload now = .ok db') :
    db'.workers = db.workers ∧
      (WorkerCall.submitResult payload now).Defies db loaded := by
  obtain ⟨⟨accepted, final⟩, hcommit, hrest⟩ := Except.bind_eq_ok_iff.mp h
  rcases QueueService.commitResult_cases hcommit with
    ⟨rfl, -, -⟩ | ⟨request, hmem, usageRecords, rfl, hheld, -, rfl⟩
  · cases hrest
  · cases hrest
    exact ⟨rfl, request, hmem, hheld⟩

theorem submitError_workers {payload : WorkerErrorRequest}
    (h : submitError db loaded payload = .ok db') : db'.workers = db.workers := by
  obtain ⟨⟨accepted, final⟩, hrecord, hrest⟩ := Except.bind_eq_ok_iff.mp h
  rcases QueueService.recordError_cases hrecord with
    ⟨rfl, -, -⟩ | ⟨request, -, rfl, -, ⟨-, rfl⟩ | ⟨-, rfl⟩⟩
  · cases hrest
  · cases hrest
    rfl
  · cases hrest
    rfl

/-- A call on a suspended row leaves it suspended and is not served exactly if it
does not defy the suspension. -/
theorem suspended_run_iff (h : Suspended w db) (hid : loaded.id = w)
    (hrun : call.run db loaded = .ok (reply, db')) :
    (Suspended w db' ∧ ¬reply.Serves) ↔ ¬call.Defies db loaded := by
  cases call with
  | heartbeat payload now =>
      cases hrun
      rw [heartbeat, suspended_flushWorker_iff h hid]
      constructor
      · rintro ⟨⟨hstatus, -⟩, -⟩ hdefies
        exact hstatus.elim hdefies (toWorkerStatus_ne_suspended _)
      · intro hkept
        exact ⟨⟨Or.inl (not_not.mp hkept), Or.inl rfl⟩, fun hno => hno⟩
  | pull leaseSeconds now locked =>
      simp only [WorkerCall.run, Except.ok.injEq, Prod.mk.injEq] at hrun
      obtain ⟨rfl, rfl⟩ := hrun
      rw [← pullRequest_isSome_iff]
      constructor
      · rintro ⟨-, hserves⟩
        exact hserves
      · intro hnone
        exact ⟨h.of_workers_eq (pullRequest_workers _ _ _ _), hnone⟩
  | submitResult payload now =>
      obtain ⟨final, hsubmit, hpure⟩ := Except.bind_eq_ok_iff.mp hrun
      rw [Except.pure_eq_ok_iff] at hpure
      cases hpure
      obtain ⟨-, hdefies⟩ := submitResult_spec hsubmit
      constructor
      · rintro ⟨-, hserves⟩
        exact absurd trivial hserves
      · intro hno
        exact absurd hdefies hno
  | submitError payload =>
      obtain ⟨final, hsubmit, hpure⟩ := Except.bind_eq_ok_iff.mp hrun
      rw [Except.pure_eq_ok_iff] at hpure
      cases hpure
      constructor
      · intro _ hno
        exact hno
      · intro _
        exact ⟨h.of_workers_eq (submitError_workers hsubmit), fun hno => hno⟩
  | renew jti =>
      cases hrun
      rw [renewWorkerToken, suspended_flushWorker_iff h hid]
      constructor
      · rintro ⟨⟨-, htoken⟩, -⟩ hdefies
        rcases htoken with htoken | hnone
        · exact hdefies htoken
        · cases hnone
      · intro hkept
        exact ⟨⟨Or.inl rfl, Or.inl (not_not.mp hkept)⟩, fun hno => hno⟩

end Calls

/-! ## Steps and runs -/

theorem run_workers {db db' : Db} {loaded : Worker} {call : WorkerCall}
    {reply : WorkerReply} (hrun : call.run db loaded = .ok (reply, db'))
    (hother : call.updatesWorker = false) : db'.workers = db.workers := by
  cases call with
  | heartbeat payload now => cases hother
  | pull leaseSeconds now locked =>
      simp only [WorkerCall.run, Except.ok.injEq, Prod.mk.injEq] at hrun
      rw [← hrun.2, pullRequest_workers]
  | submitResult payload now =>
      obtain ⟨final, hsubmit, hpure⟩ := Except.bind_eq_ok_iff.mp hrun
      rw [Except.pure_eq_ok_iff] at hpure
      cases hpure
      exact (submitResult_spec hsubmit).1
  | submitError payload =>
      obtain ⟨final, hsubmit, hpure⟩ := Except.bind_eq_ok_iff.mp hrun
      rw [Except.pure_eq_ok_iff] at hpure
      cases hpure
      exact submitError_workers hsubmit
  | renew jti => cases hother

section Runs

variable {τ : Type*} {w : UUID}

/-- Every call has loaded a row of the worker, and the row that a revocation has
locked is still the one that it loaded. -/
structure Loaded (w : UUID) (s : WorkerState τ) : Prop where
  id_eq : ∀ t call loaded, s.calls t = some (call, loaded) → loaded.id = w
  current : s.revocation.Current w s.db

theorem Revocation.Current.of_workers_eq {revocation : Revocation} {db db' : Db}
    (h : revocation.Current w db) (hsame : db'.workers = db.workers) :
    revocation.Current w db' := by
  cases revocation with
  | idle => trivial
  | locked loaded =>
      simp only [Revocation.Current, hsame]
      exact h
  | written loaded new =>
      simp only [Revocation.Current, hsame]
      exact h

theorem Loaded.suspended_of_written {s : WorkerState τ} (h : Loaded w s) {loaded new : Worker}
    (hwritten : s.revocation = .written loaded new) :
    Suspended w (flushWorker s.db loaded new) := by
  have hcurrent := h.current
  rw [hwritten] at hcurrent
  obtain ⟨hfind, now, rfl⟩ := hcurrent
  exact suspended_revoked hfind

variable [DecidableEq τ] {s s' : WorkerState τ} {e : WorkerEvent τ}

theorem Loaded.id_eq_of_ended (h : Loaded w s) {t u : τ} {call : WorkerCall}
    {loaded : Worker} (hcall : Function.update s.calls t none u = some (call, loaded)) :
    loaded.id = w := by
  have hut : u ≠ t := by
    rintro rfl
    simp at hcall
  rw [Function.update_of_ne hut] at hcall
  exact h.id_eq u call loaded hcall

theorem Loaded.step (h : Loaded w s) (hstep : WorkerStep w s e s') : Loaded w s' := by
  cases hstep with
  | @authenticated t call jti loaded hidle hworker =>
      refine ⟨?_, h.current⟩
      intro u call' loaded' hcall
      by_cases hut : u = t
      · simp only [hut, Function.update_self, Option.some.injEq, Prod.mk.injEq] at hcall
        rw [← hcall.2]
        exact Table.key_of_find (requireWorker_spec hworker).1
      · simp only [Function.update_of_ne hut] at hcall
        exact h.id_eq u call' loaded' hcall
  | @finished t call loaded reply db hcall hfree hrun =>
      refine ⟨fun _ _ _ hcall' => h.id_eq_of_ended hcall', ?_⟩
      -- a call that updates the row waits until no revocation has locked it
      cases hupdates : call.updatesWorker with
      | true =>
          simp only [hfree hupdates]
          trivial
      | false => exact h.current.of_workers_eq (run_workers hrun hupdates)
  | failed => exact ⟨fun _ _ _ hcall => h.id_eq_of_ended hcall, h.current⟩
  | revocationLocked hidle hfind => exact ⟨h.id_eq, hfind⟩
  | @revocationWritten loaded now hlocked =>
      have hcurrent := h.current
      rw [hlocked] at hcurrent
      exact ⟨h.id_eq, hcurrent, now, rfl⟩
  | revocationCommitted hwritten => exact ⟨h.id_eq, trivial⟩
  | revocationRolledBack => exact ⟨h.id_eq, trivial⟩
  | performed hother hexec =>
      exact ⟨h.id_eq, h.current.of_workers_eq (exec_frame hexec).1⟩

theorem loaded_of_run {db : Db} {history : List (WorkerEvent τ)}
    (hrun : WorkerRun w db history s) : Loaded w s := by
  apply Run.invariant (I := Loaded w) hrun
  · refine ⟨?_, trivial⟩
    intro t call loaded hcall
    cases hcall
  · intro s e s' h hstep
    exact h.step hstep

/-- A revocation that nobody disturbs is `revoke_worker`. -/
theorem run_of_revokeWorker {now : Timestamp} {db : Db} (hidle : s.revocation = .idle)
    (hrevoke : revokeWorker s.db w now = .ok db) :
    Run (WorkerStep w) s
      [.revocationCommitted, .revocationWritten now, .revocationLocked]
      { s with db := db } := by
  unfold revokeWorker at hrevoke
  split at hrevoke
  · cases hrevoke
  next loaded hfind =>
    cases hrevoke
    have hlocked := Run.start.next (WorkerStep.revocationLocked hidle hfind)
    have hwritten := hlocked.next (@WorkerStep.revocationWritten _ _ w _ loaded now rfl)
    have hcommitted := hwritten.next (.revocationCommitted rfl)
    rw [hidle]
    exact hcommitted

/-- A revocation that commits suspends the worker. -/
theorem Loaded.suspended (h : Loaded w s)
    (hcommit : WorkerStep w s .revocationCommitted s') : Suspended w s'.db := by
  cases hcommit with
  | revocationCommitted hwritten => exact h.suspended_of_written hwritten

/-- A step keeps a suspended worker suspended and unserved exactly if it does not
finish a call that defies the suspension. -/
theorem WorkerStep.suspended_iff (hstep : WorkerStep w s e s') (hloaded : Loaded w s)
    (h : Suspended w s.db) : (Suspended w s'.db ∧ ¬e.Serves) ↔ ¬s.Defied e := by
  have hneither : ∀ {db : Db}, Suspended w db →
      ((Suspended w db ∧ ¬False) ↔ ¬False) := by
    intro db hdb
    simp [hdb]
  cases hstep with
  | authenticated hidle hworker => exact hneither h
  | @finished t call loaded reply db hcall hfree hrun =>
      have hdefied : s.Defied (.finished t reply) ↔ call.Defies s.db loaded := by
        constructor
        · rintro ⟨call', loaded', hcall', hdefies⟩
          rw [hcall, Option.some.injEq, Prod.mk.injEq] at hcall'
          rw [hcall'.1, hcall'.2]
          exact hdefies
        · intro hdefies
          exact ⟨call, loaded, hcall, hdefies⟩
      rw [hdefied]
      exact suspended_run_iff h (hloaded.id_eq t call loaded hcall) hrun
  | failed => exact hneither h
  | revocationLocked hidle hfind => exact hneither h
  | revocationWritten hlocked => exact hneither h
  | revocationCommitted hwritten =>
      exact hneither (hloaded.suspended_of_written hwritten)
  | revocationRolledBack => exact hneither h
  | performed hother hexec => exact hneither (h.of_workers_eq (exec_frame hexec).1)

theorem Suspended.not_authenticated {t : τ} {call : WorkerCall} {jti : String}
    (h : Suspended w s.db) : ¬WorkerStep w s (.authenticated t call jti) s' := by
  intro hstep
  obtain ⟨worker, hfind, -, htoken⟩ := h
  cases hstep with
  | authenticated hidle hworker =>
      obtain ⟨hfind', -, htoken'⟩ := requireWorker_spec hworker
      rw [hfind, Option.some.injEq] at hfind'
      rw [← hfind', htoken] at htoken'
      cases htoken'

end Runs

/-! ## A heartbeat that overtakes the revocation -/

namespace Sample

def report (status : HeartbeatStatus) : WorkerHeartbeatRequest where
  status := status
  currentQueueDepth := 0
  capabilities := [("text_generation", .bool true)]
  currentQueueDepth_nonneg := by decide
  currentQueueDepth_le := by decide

/-- A heartbeat has been authenticated and the revocation is about to commit. -/
def revoking (status : HeartbeatStatus) : WorkerState Unit where
  db := db
  calls _ := some (.heartbeat (report status) 5, worker)
  revocation := .written worker (worker.revoked 4)

def revocation (status : HeartbeatStatus) : List (WorkerEvent Unit) :=
  [.revocationWritten 4, .revocationLocked,
    .authenticated () (.heartbeat (report status) 5) "jti"]

theorem run_revoking (status : HeartbeatStatus) :
    WorkerRun 20 db (revocation status) (revoking status) := by
  have hauthenticated : WorkerStep 20 (.start db)
      (.authenticated () (.heartbeat (report status) 5) "jti") _ :=
    .authenticated rfl (show requireWorker db 20 "jti" = .ok worker from rfl)
  have hlocked := (Run.start.next hauthenticated).next
    (.revocationLocked rfl (show db.workers.find 20 = some worker from rfl))
  have hwritten := hlocked.next (@WorkerStep.revocationWritten Unit _ 20 _ worker 4 rfl)
  exact hwritten

/-- The revocation has committed. -/
def revoked (status : HeartbeatStatus) : WorkerState Unit where
  db := flushWorker db worker (worker.revoked 4)
  calls _ := some (.heartbeat (report status) 5, worker)
  revocation := .idle

theorem commit_revoking (status : HeartbeatStatus) :
    WorkerStep 20 (revoking status) .revocationCommitted (revoked status) :=
  .revocationCommitted rfl

/-- The heartbeat finishes. -/
theorem finish_revoked (status : HeartbeatStatus) :
    ∃ s, WorkerStep 20 (revoked status) (.finished () .healthRecorded) s ∧
      s.db = heartbeat (revoked status).db worker (report status) 5 :=
  ⟨_, .finished rfl (fun _ => rfl) rfl, rfl⟩

end Sample

/-- A worker that has been revoked is `DRAINING`. -/
theorem revocation_overtaken : ¬RevocationSafe 20 Sample.db := by
  intro hsafe
  obtain ⟨s, hfinish, hdb⟩ := Sample.finish_revoked .draining
  have hrun := ((Sample.run_revoking .draining).next (Sample.commit_revoking .draining)).next
    hfinish
  obtain ⟨⟨worker, hfind, hstatus, -⟩, -⟩ :=
    hsafe Unit [.finished () .healthRecorded] _ s hrun
  have hdraining : (s.db.workers.find 20).map (·.status) = some .draining := by
    rw [hdb]
    decide
  rw [hfind, Option.map_some, hstatus] at hdraining
  cases hdraining

/-! ## When a revocation holds -/

section Main

variable {τ : Type*} [DecidableEq τ]

/-- A step that leaves the worker suspended and does not serve it. -/
def SuspendedStep (w : UUID) (s : WorkerState τ) (e : WorkerEvent τ)
    (s' : WorkerState τ) : Prop :=
  WorkerStep w s e s' ∧ Suspended w s'.db ∧ ¬e.Serves

/-- A step that does not finish a call that defies the suspension. -/
def UndefiedStep (w : UUID) (s : WorkerState τ) (e : WorkerEvent τ)
    (s' : WorkerState τ) : Prop :=
  WorkerStep w s e s' ∧ ¬s.Defied e

/-- When a revocation has committed the worker is suspended, and from then on it is
suspended in every state of a run and served by no step exactly if no step of the run
finishes a call that defies the suspension.  Until such a step no call of the worker
is authenticated any more. -/
theorem revocation_holds_iff {w : UUID} {db : Db} {older : List (WorkerEvent τ)}
    {before revoked : WorkerState τ} (hrun : WorkerRun w db older before)
    (hcommit : WorkerStep w before .revocationCommitted revoked) :
    Suspended w revoked.db ∧
      ∀ newer s, (Run (SuspendedStep w) revoked newer s ↔
          Run (UndefiedStep w) revoked newer s) ∧
        (Run (UndefiedStep w) revoked newer s →
          ∀ t call jti s', ¬WorkerStep w s (.authenticated t call jti) s') := by
  have hloaded := loaded_of_run hrun
  have hsuspended := hloaded.suspended hcommit
  refine ⟨hsuspended, ?_⟩
  intro newer s
  have hiff : Run (SuspendedStep w) revoked newer s ↔
      Run (UndefiedStep w) revoked newer s := by
    apply Run.congr_of_invariant (I := fun s => Loaded w s ∧ Suspended w s.db)
    · exact ⟨hloaded.step hcommit, hsuspended⟩
    · rintro s e s' ⟨hloaded, hsuspended⟩
      constructor
      · rintro ⟨hstep, hholds⟩
        exact ⟨hstep, (hstep.suspended_iff hloaded hsuspended).mp hholds⟩
      · rintro ⟨hstep, hundefied⟩
        exact ⟨hstep, (hstep.suspended_iff hloaded hsuspended).mpr hundefied⟩
    · rintro s e s' ⟨hloaded, -⟩ ⟨hstep, hholds, -⟩
      exact ⟨hloaded.step hstep, hholds⟩
  refine ⟨hiff, ?_⟩
  intro hundefied t call jti s'
  have hstill : Suspended w s.db := by
    apply Run.invariant (I := fun s => Suspended w s.db) (hiff.mpr hundefied) hsuspended
    intro s e s' _ hstep
    exact hstep.2.1
  exact hstill.not_authenticated

end Main

/-- A heartbeat that reports the status it has loaded may finish after the
revocation. -/
theorem revocation_holds_iff_heartbeat :
    ∃ s, Run (SuspendedStep 20) (Sample.revoked .online) [.finished () .healthRecorded] s ∧
      Suspended 20 (Sample.revoked .online).db := by
  obtain ⟨s, hfinish, -⟩ := Sample.finish_revoked .online
  obtain ⟨hsuspended, hholds⟩ :=
    revocation_holds_iff (Sample.run_revoking .online) (Sample.commit_revoking .online)
  refine ⟨s, (hholds _ s).1.mpr (Run.start.next ⟨hfinish, ?_⟩), hsuspended⟩
  rintro ⟨call, loaded, hcall, hdefies⟩
  cases hcall
  exact hdefies rfl

end OrbiGateway
