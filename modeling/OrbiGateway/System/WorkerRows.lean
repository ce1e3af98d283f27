import OrbiGateway.System.GatewayCore

/-!
# The rows of the workers

What a step of the gateway does to the table of the workers.  A registration adds a row, a
revocation writes over the row that it has locked, the maintenance loop marks rows, and
heartbeats and renewals flush the columns that they have changed since they loaded the row.
-/

namespace OrbiGateway

open Relational Transition

/-! ## What an event writes -/

/-- The token that an event issues. -/
def GatewayEvent.issuedToken (service : WorkerJWTService) : GatewayEvent → Option WorkerClaims
  | .acted _ (.registered response) => some response.accessToken
  | .acted _ (.served worker (.renewWorkerToken jti issuedAt) _) =>
      some (service.issue worker.id jti issuedAt)
  | _ => none

/-- The worker that reports in an event, and the time of the report. -/
def GatewayEvent.report : GatewayEvent → Option (UUID × Timestamp)
  | .acted (.register _ readings) (.registered _) => some (readings.workerId, readings.now)
  | .acted _ (.served worker (.heartbeat _ now) _) => some (worker.id, now)
  | _ => none

def revokedWorkerBy : Answer → Action → Option UUID
  | .administered .workerRevoked, .admin _ (.revokeWorker workerId _) => some workerId
  | _, _ => none

def GatewayEvent.revokedWorker : GatewayEvent → Option UUID
  | .acted action answer => revokedWorkerBy answer action
  | _ => none

/-- The event writes nothing by which a later call of the worker is judged. -/
structure GatewayEvent.LeavesWorkers (e : GatewayEvent) (service : WorkerJWTService) :
    Prop where
  issuedToken : e.issuedToken service = none
  report : e.report = none
  revokedWorker : e.revokedWorker = none

/-- How an event changes the rows of the workers. -/
inductive WorkerRowsChange (services : GatewayServices) (serving : List (Worker × WorkerRequest))
    (rows : List Worker) : GatewayEvent → List Worker → Prop
  | kept {e : GatewayEvent} (hleaves : e.LeavesWorkers services.registration.jwt) :
      WorkerRowsChange services serving rows e rows
  | registered {payload : WorkerRegisterRequest} {readings : RegistrationReadings}
      {response : WorkerTokenResponse}
      (htoken : response.accessToken =
        services.registration.jwt.issue readings.workerId readings.jti readings.issuedAt)
      (hunused : ∀ row ∈ rows, row.id ≠ readings.workerId) :
      WorkerRowsChange services serving rows
        (.acted (.register payload readings) (.registered response))
        (rows ++ [(newWorker payload readings.workerId readings.now).renewed readings.jti])
  | reported {index : ℕ} {worker : Worker} {payload : WorkerHeartbeatRequest}
      {now : Timestamp} {reply : WorkerReply}
      (hserving : (worker, .heartbeat payload now) ∈ serving) :
      WorkerRowsChange services serving rows
        (.acted (.serve index) (.served worker (.heartbeat payload now) reply))
        (rows.map fun row =>
          if row.id = worker.id then worker.flush (worker.reported payload now) row else row)
  | renewed {index : ℕ} {worker : Worker} {jti : String} {issuedAt : Timestamp}
      {reply : WorkerReply} (hserving : (worker, .renewWorkerToken jti issuedAt) ∈ serving) :
      WorkerRowsChange services serving rows
        (.acted (.serve index) (.served worker (.renewWorkerToken jti issuedAt) reply))
        (rows.map fun row =>
          if row.id = worker.id then worker.flush (worker.renewed jti) row else row)
  | revoked {authorization : Option String} {workerId : UUID} {now : Timestamp}
      (hknown : ∃ row ∈ rows, row.id = workerId) :
      WorkerRowsChange services serving rows
        (.acted (.admin authorization (.revokeWorker workerId now))
          (.administered .workerRevoked))
        (rows.map fun row =>
          if row.id = workerId then row.flush (row.revoked now) row else row)
  | marked {recoverNow staleNow : Timestamp} {recovered offline : ℕ} :
      WorkerRowsChange services serving rows
        (.acted (.maintain recoverNow staleNow) (.maintained recovered offline))
        (rows.map fun row =>
          if row.isStale (services.health.cutoff staleNow) then row.markedOffline else row)

/-! ## Calls -/

section Calls

variable {db db' : Db}

theorem rows_flushWorker (db : Db) (loaded new : Worker) :
    (flushWorker db loaded new).workers.rows = db.workers.rows.map fun row =>
      if row.id = loaded.id then loaded.flush new row else row := by
  simp only [flushWorker, Table.rows_updateWhere, beq_iff_eq]

theorem clientRequest_workers {request : ClientRequest} {parsed : ParsedKey}
    {readings : KeyReadings} {reply : PublicReply}
    (h : (request.call parsed readings).serve db = .ok (reply, db')) :
    db'.workers = db.workers := by
  have hcounted : ∀ {record}, requireApiKey db parsed readings = .ok (record, db') →
      db'.workers = db.workers := by
    intro record hkey
    obtain ⟨-, -, -, -, -, rfl⟩ := requireApiKey_spec hkey
    rfl
  cases clientRequest_effect h with
  | accepted hexec => exact (exec_frame hexec).1
  | listed hkey => exact hcounted hkey
  | reported hkey => exact hcounted hkey

theorem rows_revokeWorker {workerId : UUID} {now : Timestamp}
    (h : revokeWorker db workerId now = .ok db') :
    (∃ row ∈ db.workers.rows, row.id = workerId) ∧
      db'.workers.rows = db.workers.rows.map fun row =>
        if row.id = workerId then row.flush (row.revoked now) row else row := by
  unfold revokeWorker at h
  split at h
  · cases h
  next worker hfind =>
    cases h
    have hmem : worker ∈ db.workers.rows := Table.mem_of_find hfind
    have hid : worker.id = workerId := Table.key_of_find hfind
    refine ⟨⟨worker, hmem, hid⟩, ?_⟩
    rw [rows_flushWorker, hid]
    apply List.map_congr_left
    intro row hrow
    by_cases hsame : row.id = workerId
    · rw [if_pos hsame, if_pos hsame, db.workers.eq_of_key_eq hrow hmem (hsame.trans hid.symm)]
    · rw [if_neg hsame, if_neg hsame]

theorem rows_markStaleWorkersOffline (service : WorkerHealthService) (db : Db)
    (now : Timestamp) :
    (service.markStaleWorkersOffline db now).2.workers.rows = db.workers.rows.map fun row =>
      if row.isStale (service.cutoff now) then row.markedOffline else row :=
  Table.rows_updateWhere _ _ _

theorem rows_maintain {services : GatewayServices} {recoverNow staleNow : Timestamp}
    {counts : ℕ × ℕ} (h : maintain services db recoverNow staleNow = .ok (counts, db')) :
    db'.workers.rows = db.workers.rows.map fun row =>
      if row.isStale (services.health.cutoff staleNow) then row.markedOffline else row := by
  obtain ⟨mid, hexec, rfl⟩ := maintain_core h
  rw [rows_markStaleWorkersOffline, (exec_frame hexec).1]

theorem adminCall_workers {services : GatewayServices} {gdb gdb' : GatewayDb}
    {serving : List (Worker × WorkerRequest)} {authorization : Option String}
    {call : AdminCall} {reply : AdminReply}
    (h : call.route services gdb = .ok (reply, gdb')) :
    WorkerRowsChange services serving gdb.workers.rows
      (.acted (.admin authorization call) (.administered reply)) gdb'.workers.rows := by
  cases call with
  | createAPIKey payload draw =>
      obtain ⟨⟨response, core⟩, hcreate, hpure⟩ := Except.bind_eq_ok_iff.mp h
      rw [Except.pure_eq_ok_iff] at hpure
      cases hpure
      obtain ⟨_, _, _, _, _, _, _, rfl⟩ := createAPIKey_spec hcreate
      exact .kept ⟨rfl, rfl, rfl⟩
  | createWorkerEnrollment payload draw =>
      obtain ⟨⟨response, after⟩, -, hpure⟩ := Except.bind_eq_ok_iff.mp h
      rw [Except.pure_eq_ok_iff] at hpure
      cases hpure
      exact .kept ⟨rfl, rfl, rfl⟩
  | createProject payload readings =>
      obtain ⟨⟨response, after⟩, hcreate, hpure⟩ := Except.bind_eq_ok_iff.mp h
      rw [Except.pure_eq_ok_iff] at hpure
      cases hpure
      obtain ⟨projects, projectNames, -, -, rfl⟩ := createProject_spec hcreate
      exact .kept ⟨rfl, rfl, rfl⟩
  | createModelAlias payload =>
      obtain ⟨⟨response, core⟩, hcreate, hpure⟩ := Except.bind_eq_ok_iff.mp h
      rw [Except.pure_eq_ok_iff] at hpure
      cases hpure
      unfold createModelAlias at hcreate
      split at hcreate
      · cases hcreate
      · cases hcreate
        exact .kept ⟨rfl, rfl, rfl⟩
  | revokeAPIKey apiKeyId now =>
      obtain ⟨core, hrevoke, hpure⟩ := Except.bind_eq_ok_iff.mp h
      rw [Except.pure_eq_ok_iff] at hpure
      cases hpure
      unfold revokeAPIKey at hrevoke
      split at hrevoke
      · cases hrevoke
      · cases hrevoke
        exact .kept ⟨rfl, rfl, rfl⟩
  | revokeWorker workerId now =>
      obtain ⟨core, hrevoke, hpure⟩ := Except.bind_eq_ok_iff.mp h
      rw [Except.pure_eq_ok_iff] at hpure
      cases hpure
      obtain ⟨hknown, hrows⟩ := rows_revokeWorker hrevoke
      change WorkerRowsChange _ _ _ _ core.workers.rows
      rw [hrows]
      exact .revoked hknown

end Calls

/-! ## Steps -/

section Steps

variable {services : GatewayServices} {s s' : GatewayState} {e : GatewayEvent}

theorem GatewayStep.workerRows (h : GatewayStep services s e s') :
    WorkerRowsChange services s.serving s.db.workers.rows e s'.db.workers.rows := by
  have hkept : e.LeavesWorkers services.registration.jwt → s'.db.workers = s.db.workers →
      WorkerRowsChange services s.serving s.db.workers.rows e s'.db.workers.rows := by
    intro hleaves hsame
    rw [hsame]
    exact .kept hleaves
  cases h.change with
  | administered hadmin hroute => exact adminCall_workers hroute
  | replied hparsed hserve => exact hkept ⟨rfl, rfl, rfl⟩ (clientRequest_workers hserve)
  | @registered payload readings response after hregister =>
      obtain ⟨_, _, record, workers, _, _, _, htoken, hinsert, rfl⟩ :=
        registerWorker_spec hregister
      obtain ⟨hunused, hrows⟩ := Table.insert_eq_some_iff.mp hinsert
      have hadded : workers.rows = s.db.workers.rows ++
          [(newWorker payload readings.workerId readings.now).renewed readings.jti] := by
        rw [hrows, htoken]
        rfl
      change WorkerRowsChange _ _ _ _ workers.rows
      rw [hadded]
      exact .registered htoken hunused
  | @served index worker request reply db hentry hrun =>
      have hserving : (worker, request) ∈ s.serving := List.mem_of_getElem? hentry
      cases workerRequest_effect hrun with
      | @reported payload now =>
          change WorkerRowsChange _ _ _ _ (flushWorker s.db.toDb worker _).workers.rows
          rw [rows_flushWorker]
          exact .reported hserving
      | @renewed jti issuedAt =>
          change WorkerRowsChange _ _ _ _ (flushWorker s.db.toDb worker _).workers.rows
          rw [rows_flushWorker]
          exact .renewed hserving
      | idle => exact hkept ⟨rfl, rfl, rfl⟩ rfl
      | claimed hstatus hexec => exact hkept ⟨rfl, rfl, rfl⟩ (exec_frame hexec).1
      | completed hexec => exact hkept ⟨rfl, rfl, rfl⟩ (exec_frame hexec).1
      | rejected hexec => exact hkept ⟨rfl, rfl, rfl⟩ (exec_frame hexec).1
  | @maintained recoverNow staleNow recovered offline db hmaintain =>
      change WorkerRowsChange _ _ _ _ db.workers.rows
      rw [rows_maintain hmaintain]
      exact .marked
  | rescanned hperm => exact hkept ⟨rfl, rfl, rfl⟩ rfl
  | waits => exact hkept ⟨rfl, rfl, rfl⟩ rfl
  | completed => exact hkept ⟨rfl, rfl, rfl⟩ rfl
  | loaded => exact hkept ⟨rfl, rfl, rfl⟩ rfl
  | @failed action => exact hkept ⟨rfl, by cases action <;> rfl, rfl⟩ rfl
  | @ignored action => exact hkept ⟨rfl, by cases action <;> rfl, rfl⟩ rfl
  | evicted => exact hkept ⟨rfl, rfl, rfl⟩ rfl
  | abandoned => exact hkept ⟨rfl, rfl, rfl⟩ rfl

end Steps

end OrbiGateway
