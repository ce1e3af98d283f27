import OrbiGateway.Invariants.AdministeredLedgers
import OrbiGateway.System.Gateway

/-!
# The operations of the gateway

What the calls of the whole gateway do to the database is a run of operations on requests
with administration in between.  An event makes at most one operation, and every route that
makes none administers.
-/

namespace OrbiGateway

open Relational Transition

/-! ## Routes that administer -/

section Administering

variable {db db' : Db}

theorem createAPIKey_spec {service : APIKeyService} {payload : APIKeyCreateRequest}
    {draw : KeyDraw} {response : APIKeyCreatedResponse}
    (h : createAPIKey service db payload draw = .ok (response, db')) :
    ∃ generated apiKeys,
      (∃ project ∈ db.projects.rows, project.id = payload.projectId) ∧
      service.generate draw.hash payload.environment.text draw.idBytes draw.secretBytes =
        .ok generated ∧
      (∀ record ∈ db.apiKeys.rows, record.keyId ≠ generated.keyId) ∧
      db.apiKeys.insert (newAPIKey payload generated draw) = some apiKeys ∧
      response = ⟨draw.apiKeyId, generated.rawKey, generated.displayPrefix⟩ ∧
      db' = { db with apiKeys := apiKeys } := by
  unfold createAPIKey at h
  split at h
  · cases h
  next project hproject =>
    obtain ⟨generated, hgenerate, h⟩ := Except.bind_eq_ok_iff.mp h
    obtain ⟨after, hinsert, h⟩ := Except.bind_eq_ok_iff.mp h
    rw [Except.pure_eq_ok_iff] at h
    cases h
    unfold insertAPIKey at hinsert
    split at hinsert
    · cases hinsert
    next hunused =>
      split at hinsert
      · cases hinsert
      next apiKeys htable =>
        cases hinsert
        refine ⟨generated, apiKeys,
          ⟨project, Table.mem_of_find hproject, Table.key_of_find hproject⟩, hgenerate, ?_,
          htable, rfl, rfl⟩
        intro record hrecord hid
        exact hunused (List.any_eq_true.mpr ⟨record, hrecord, beq_iff_eq.mpr hid⟩)

theorem createAPIKey_administers {service : APIKeyService} {payload : APIKeyCreateRequest}
    {draw : KeyDraw} {response : APIKeyCreatedResponse}
    (h : createAPIKey service db payload draw = .ok (response, db')) : Administers db db' := by
  obtain ⟨generated, apiKeys, hproject, -, -, hinsert, -, rfl⟩ := createAPIKey_spec h
  exact .of_insert_apiKey hinsert ⟨rfl, rfl⟩ hproject

theorem APIKey.accountColumns_revoked (record : APIKey) (now : Timestamp) :
    (record.revoked now).accountColumns = record.accountColumns := by
  unfold APIKey.revoked
  split
  · rfl
  · rfl

theorem revokeAPIKey_administers {apiKeyId : UUID} {now : Timestamp}
    (h : revokeAPIKey db apiKeyId now = .ok db') : Administers db db' := by
  unfold revokeAPIKey at h
  split at h
  · cases h
  next record hfind =>
    cases h
    exact .of_put_apiKey (Table.mem_of_find hfind) (record.accountColumns_revoked now)

theorem createModelAlias_administers {payload : ModelAliasCreateRequest}
    {response : ModelAliasResponse}
    (h : createModelAlias db payload = .ok (response, db')) : Administers db db' := by
  unfold createModelAlias at h
  split at h
  · cases h
  next modelAliases hinsert =>
    cases h
    exact .of_insert_modelAlias hinsert

theorem flushWorker_administers (db : Db) (loaded new : Worker) :
    Administers db (flushWorker db loaded new) :=
  .of_update_workers _ _

theorem revokeWorker_administers {workerId : UUID} {now : Timestamp}
    (h : revokeWorker db workerId now = .ok db') : Administers db db' := by
  unfold revokeWorker at h
  split at h
  · cases h
  · cases h
    exact flushWorker_administers db _ _

theorem markStaleWorkersOffline_administers (service : WorkerHealthService) (db : Db)
    (now : Timestamp) : Administers db (service.markStaleWorkersOffline db now).2 :=
  .of_update_workers _ _

theorem requireApiKey_administers {parsed : ParsedKey} {readings : KeyReadings}
    {record : APIKey} (h : requireApiKey db parsed readings = .ok (record, db')) :
    Administers db db' := by
  obtain ⟨found, hmem, -, -, hcount, rfl⟩ := requireApiKey_spec h
  apply Administers.of_put_apiKey hmem
  obtain ⟨hrequests, htokens⟩ := APIKey.totals_countCall hcount
  unfold APIKey.accountColumns
  rw [APIKey.lookupColumns_countCall hcount, hrequests, htokens]

end Administering

/-! ## What an event does to the requests -/

/-- The worker and the submission of an accepted result. -/
def Event.acceptedResult : Event → Option (Worker × WorkerResultRequest)
  | .performed (.submitResult worker payload _) (.resultAccepted true) _ =>
      some (worker, payload)
  | _ => none

def GatewayEvent.acceptedResult : GatewayEvent → Option (Worker × WorkerResultRequest)
  | .acted _ (.served worker (.submitResult payload _) _) => some (worker, payload)
  | _ => none

/-- The request that a chat call has queued. -/
def GatewayEvent.queued : GatewayEvent → Option OrbiRequest
  | .acted _ (.replied (.chat (.queued record))) => some record
  | _ => none

/-- The worker that has pulled the request. -/
def GatewayEvent.pullerOf (id : UUID) : GatewayEvent → Option UUID
  | .acted _ (.served worker (.pullRequest _) (.pulled (some r))) =>
      if r.id = id then some worker.id else none
  | _ => none

/-- The operations of an event queue what it queues, accept the results it accepts and claim
the requests it pulls. -/
structure Mirrors (e : GatewayEvent) (own : List (Option Event)) : Prop where
  queued : (operations own).filterMap Event.reservation = e.queued.toList
  results : (operations own).filterMap Event.acceptedResult = e.acceptedResult.toList
  claims : ∀ id, (operations own).filterMap (Event.claimantOf id) = (e.pullerOf id).toList

section Core

variable {db db' : Db}

theorem CoreRun.operation {op : Op} {reply : Reply} (hexec : exec db op = .ok (reply, db'))
    (hworker : ∀ id, op.workerId = some id → WorkerKnown db id) :
    CoreRun db [some (.performed op reply (settlements db op))] db' :=
  Run.start.next (.operated (.performed hexec) hworker)

theorem CoreRun.administration (h : Administers db db') : CoreRun db [none] db' :=
  Run.start.next (.administered h)

theorem exec_claim_eq (db : Db) (worker : Worker) (leaseSeconds : ℤ) (now : Timestamp) :
    exec db (.claim worker leaseSeconds now) =
      .ok (.claimed (QueueService.claimNext db worker leaseSeconds now).1,
        (QueueService.claimNext db worker leaseSeconds now).2) := rfl

/-- What the route of a worker's call does: it writes the worker's row, or it performs one
operation on the requests, or it finds the worker not online. -/
inductive WorkerEffect (db : Db) (worker : Worker) (leaseSeconds : ℤ) :
    WorkerRequest → WorkerReply → Db → Prop
  | reported {payload : WorkerHeartbeatRequest} {now : Timestamp} :
      WorkerEffect db worker leaseSeconds (.heartbeat payload now) .healthRecorded
        (flushWorker db worker (worker.reported payload now))
  | renewed {jti : String} {issuedAt : Timestamp} :
      WorkerEffect db worker leaseSeconds (.renewWorkerToken jti issuedAt) (.renewed jti)
        (flushWorker db worker (worker.renewed jti))
  | idle {now : Timestamp} (hstatus : worker.status ≠ .online) :
      WorkerEffect db worker leaseSeconds (.pullRequest now) (.pulled none) db
  | claimed {now : Timestamp} {request : Option OrbiRequest} {db' : Db}
      (hstatus : worker.status = .online)
      (hexec : exec db (.claim worker leaseSeconds now) = .ok (.claimed request, db')) :
      WorkerEffect db worker leaseSeconds (.pullRequest now) (.pulled request) db'
  | completed {payload : WorkerResultRequest} {now : Timestamp} {db' : Db}
      (hexec : exec db (.submitResult worker payload now) = .ok (.resultAccepted true, db')) :
      WorkerEffect db worker leaseSeconds (.submitResult payload now) .resultAccepted db'
  | rejected {payload : WorkerErrorRequest} {db' : Db}
      (hexec : exec db (.submitError worker payload) = .ok (.errorAccepted true, db')) :
      WorkerEffect db worker leaseSeconds (.submitError payload) .errorAccepted db'

theorem workerRequest_effect {worker : Worker} {request : WorkerRequest}
    {reply : WorkerReply} {leaseSeconds : ℤ}
    (hrun : (request.call leaseSeconds).run db worker = .ok (reply, db')) :
    WorkerEffect db worker leaseSeconds request reply db' := by
  cases request with
  | heartbeat payload now =>
      cases hrun
      exact .reported
  | pullRequest now =>
      simp only [WorkerRequest.call, WorkerCall.run, Except.ok.injEq, Prod.mk.injEq] at hrun
      obtain ⟨rfl, rfl⟩ := hrun
      unfold pullRequest
      split
      next hstatus => exact .idle hstatus
      next hstatus =>
        exact .claimed (not_not.mp hstatus) (exec_claim_eq db worker leaseSeconds now)
  | submitResult payload now =>
      obtain ⟨after, hsubmit, hpure⟩ := Except.bind_eq_ok_iff.mp hrun
      rw [Except.pure_eq_ok_iff] at hpure
      cases hpure
      obtain ⟨⟨accepted, final⟩, hcommit, hrest⟩ := Except.bind_eq_ok_iff.mp hsubmit
      cases accepted with
      | false => cases hrest
      | true =>
          cases hrest
          exact .completed (Except.bind_eq_ok_iff.mpr ⟨_, hcommit, rfl⟩)
  | submitError payload =>
      obtain ⟨after, hsubmit, hpure⟩ := Except.bind_eq_ok_iff.mp hrun
      rw [Except.pure_eq_ok_iff] at hpure
      cases hpure
      obtain ⟨⟨accepted, final⟩, hrecord, hrest⟩ := Except.bind_eq_ok_iff.mp hsubmit
      cases accepted with
      | false => cases hrest
      | true =>
          cases hrest
          exact .rejected (Except.bind_eq_ok_iff.mpr ⟨_, hrecord, rfl⟩)
  | renewWorkerToken jti issuedAt =>
      cases hrun
      exact .renewed

theorem workerRequest_core {action : Action} {worker : Worker} {request : WorkerRequest}
    {reply : WorkerReply} {leaseSeconds : ℤ}
    (hrun : (request.call leaseSeconds).run db worker = .ok (reply, db'))
    (hknown : WorkerKnown db worker.id) :
    ∃ own, Mirrors (.acted action (.served worker request reply)) own ∧
      CoreRun db own db' := by
  have hworker : ∀ id, some worker.id = some id → WorkerKnown db id := by
    intro id hid
    cases hid
    exact hknown
  cases workerRequest_effect hrun with
  | reported =>
      exact ⟨[none], ⟨rfl, rfl, fun _ => rfl⟩, .administration (flushWorker_administers db _ _)⟩
  | renewed =>
      exact ⟨[none], ⟨rfl, rfl, fun _ => rfl⟩, .administration (flushWorker_administers db _ _)⟩
  | idle => exact ⟨[], ⟨rfl, rfl, fun _ => rfl⟩, .start⟩
  | @claimed now request _ hstatus hexec =>
      refine ⟨_, ⟨rfl, rfl, ?_⟩, .operation hexec hworker⟩
      intro id
      cases request with
      | none => rfl
      | some r =>
          by_cases hid : r.id = id
          · simp [operations, Event.claimantOf, GatewayEvent.pullerOf, hid]
          · simp [operations, Event.claimantOf, GatewayEvent.pullerOf, hid]
  | completed hexec => exact ⟨_, ⟨rfl, rfl, fun _ => rfl⟩, .operation hexec hworker⟩
  | rejected hexec => exact ⟨_, ⟨rfl, rfl, fun _ => rfl⟩, .operation hexec hworker⟩

/-- What a public call that is served does: it performs one operation on the requests, or it
counts itself on its key. -/
inductive ClientEffect (db : Db) (parsed : ParsedKey) (readings : KeyReadings) :
    ClientRequest → PublicReply → Db → Prop
  | accepted {idempotencyKey : Option String} {payload : ChatCompletionRequest}
      {chatReadings : ChatReadings} {answer : ChatReply} {db' : Db}
      (hexec : exec db (.chat ⟨parsed, readings, idempotencyKey, payload, chatReadings⟩) =
        .ok (.chat answer, db')) :
      ClientEffect db parsed readings (.chat idempotencyKey payload chatReadings)
        (.chat answer) db'
  | listed {record : APIKey} {models : List ModelAlias} {db' : Db}
      (hkey : requireApiKey db parsed readings = .ok (record, db')) :
      ClientEffect db parsed readings .listModels (.models models) db'
  | reported {record : APIKey} {report : UsageReport} {db' : Db}
      (hkey : requireApiKey db parsed readings = .ok (record, db')) :
      ClientEffect db parsed readings .getUsage (.usage report) db'

theorem clientRequest_effect {request : ClientRequest} {parsed : ParsedKey}
    {readings : KeyReadings} {reply : PublicReply}
    (hserve : (request.call parsed readings).serve db = .ok (reply, db')) :
    ClientEffect db parsed readings request reply db' := by
  cases request with
  | chat idempotencyKey payload chatReadings =>
      rw [ClientRequest.call, serve_chat] at hserve
      obtain ⟨⟨answer, after⟩, haccept, hpure⟩ := Except.bind_eq_ok_iff.mp hserve
      rw [Except.pure_eq_ok_iff] at hpure
      cases hpure
      exact .accepted (Except.bind_eq_ok_iff.mpr ⟨_, haccept, rfl⟩)
  | listModels =>
      obtain ⟨⟨apiKey, after⟩, hkey, hrest⟩ := Except.bind_eq_ok_iff.mp hserve
      obtain ⟨⟨⟩, -, hroute⟩ := Except.bind_eq_ok_iff.mp hrest
      cases hroute
      exact .listed hkey
  | getUsage =>
      obtain ⟨⟨apiKey, after⟩, hkey, hrest⟩ := Except.bind_eq_ok_iff.mp hserve
      obtain ⟨⟨⟩, -, hroute⟩ := Except.bind_eq_ok_iff.mp hrest
      obtain ⟨report, -, hpure⟩ := Except.bind_eq_ok_iff.mp hroute
      rw [Except.pure_eq_ok_iff] at hpure
      cases hpure
      exact .reported hkey

theorem clientRequest_core {action : Action} {request : ClientRequest} {parsed : ParsedKey}
    {readings : KeyReadings} {reply : PublicReply}
    (hserve : (request.call parsed readings).serve db = .ok (reply, db')) :
    ∃ own, Mirrors (.acted action (.replied reply)) own ∧ CoreRun db own db' := by
  cases clientRequest_effect hserve with
  | @accepted _ _ _ answer _ hexec =>
      refine ⟨_, ⟨?_, rfl, fun _ => rfl⟩, .operation hexec ?_⟩
      · cases answer with
        | result result => rfl
        | existing id status => rfl
        | queued record => rfl
      · intro id hid
        cases hid
  | listed hkey =>
      exact ⟨[none], ⟨rfl, rfl, fun _ => rfl⟩, .administration (requireApiKey_administers hkey)⟩
  | reported hkey =>
      exact ⟨[none], ⟨rfl, rfl, fun _ => rfl⟩, .administration (requireApiKey_administers hkey)⟩

theorem adminCall_core {services : GatewayServices} {gdb gdb' : GatewayDb} {call : AdminCall}
    {reply : AdminReply} (h : call.route services gdb = .ok (reply, gdb')) :
    Administers gdb.toDb gdb'.toDb := by
  cases call with
  | createAPIKey payload draw =>
      obtain ⟨⟨response, core⟩, hcreate, hpure⟩ := Except.bind_eq_ok_iff.mp h
      rw [Except.pure_eq_ok_iff] at hpure
      cases hpure
      exact createAPIKey_administers hcreate
  | createWorkerEnrollment payload draw =>
      obtain ⟨⟨response, after⟩, -, hpure⟩ := Except.bind_eq_ok_iff.mp h
      rw [Except.pure_eq_ok_iff] at hpure
      cases hpure
      exact .refl _
  | createProject payload readings =>
      obtain ⟨⟨response, after⟩, hcreate, hpure⟩ := Except.bind_eq_ok_iff.mp h
      rw [Except.pure_eq_ok_iff] at hpure
      cases hpure
      obtain ⟨projects, projectNames, hinsert, -, rfl⟩ := createProject_spec hcreate
      refine Administers.of_insert_project hinsert ⟨rfl, ?_⟩
      intro period
      cases period with
      | daily => rfl
      | monthly => rfl
  | createModelAlias payload =>
      obtain ⟨⟨response, core⟩, hcreate, hpure⟩ := Except.bind_eq_ok_iff.mp h
      rw [Except.pure_eq_ok_iff] at hpure
      cases hpure
      exact createModelAlias_administers hcreate
  | revokeAPIKey apiKeyId now =>
      obtain ⟨core, hrevoke, hpure⟩ := Except.bind_eq_ok_iff.mp h
      rw [Except.pure_eq_ok_iff] at hpure
      cases hpure
      exact revokeAPIKey_administers hrevoke
  | revokeWorker workerId now =>
      obtain ⟨core, hrevoke, hpure⟩ := Except.bind_eq_ok_iff.mp h
      rw [Except.pure_eq_ok_iff] at hpure
      cases hpure
      exact revokeWorker_administers hrevoke

/-- A cycle of the maintenance loop recovers the leases and then checks the workers. -/
theorem maintain_core {services : GatewayServices} {recoverNow staleNow : Timestamp}
    {counts : ℕ × ℕ} (h : maintain services db recoverNow staleNow = .ok (counts, db')) :
    ∃ mid, exec db (.recover recoverNow) = .ok (.recovered counts.1, mid) ∧
      db' = (services.health.markStaleWorkersOffline mid staleNow).2 := by
  obtain ⟨⟨recovered, mid⟩, hrecover, hpure⟩ := Except.bind_eq_ok_iff.mp h
  rw [Except.pure_eq_ok_iff] at hpure
  cases hpure
  exact ⟨mid, Except.bind_eq_ok_iff.mpr ⟨_, hrecover, rfl⟩, rfl⟩

end Core

/-! ## Runs -/

section Runs

variable {services : GatewayServices} {s s' : GatewayState} {e : GatewayEvent}

/-- The workers whose calls have been authenticated are registered. -/
def ServingKnown (s : GatewayState) : Prop :=
  ∀ entry ∈ s.serving, WorkerKnown s.db.toDb entry.1.id

theorem GatewayStep.core (h : GatewayStep services s e s') (hserving : ServingKnown s) :
    ∃ own, Mirrors e own ∧ CoreRun s.db.toDb own s'.db.toDb := by
  cases h.change with
  | administered hadmin hroute =>
      exact ⟨[none], ⟨rfl, rfl, fun _ => rfl⟩, .administration (adminCall_core hroute)⟩
  | replied hparsed hserve => exact clientRequest_core hserve
  | registered hregister =>
      obtain ⟨-, -, -, workers, -, -, -, -, hinsert, rfl⟩ := registerWorker_spec hregister
      have hids : s.db.workers.rows.map Worker.id ⊆ workers.rows.map Worker.id := by
        rw [(Table.insert_eq_some_iff.mp hinsert).2, List.map_append]
        exact List.subset_append_left _ _
      exact ⟨[none], ⟨rfl, rfl, fun _ => rfl⟩, .administration (.of_workers hids)⟩
  | served hentry hrun =>
      exact workerRequest_core hrun (hserving _ (List.mem_of_getElem? hentry))
  | maintained hmaintain =>
      obtain ⟨mid, hexec, rfl⟩ := maintain_core hmaintain
      have hrecovered := CoreRun.operation hexec (by simp [Op.workerId])
      exact ⟨_, ⟨rfl, rfl, fun _ => rfl⟩, hrecovered.next
        (.administered (markStaleWorkersOffline_administers _ _ _))⟩
  | rescanned hperm =>
      exact ⟨[some .rescanned], ⟨rfl, rfl, fun _ => rfl⟩,
        Run.start.next (.operated (.rescanned hperm) (by simp [Event.workerId]))⟩
  | waits => exact ⟨[], ⟨rfl, rfl, fun _ => rfl⟩, .start⟩
  | completed => exact ⟨[], ⟨rfl, rfl, fun _ => rfl⟩, .start⟩
  | loaded => exact ⟨[], ⟨rfl, rfl, fun _ => rfl⟩, .start⟩
  | failed => exact ⟨[], ⟨rfl, rfl, fun _ => rfl⟩, .start⟩
  | ignored => exact ⟨[], ⟨rfl, rfl, fun _ => rfl⟩, .start⟩
  | evicted => exact ⟨[], ⟨rfl, rfl, fun _ => rfl⟩, .start⟩
  | abandoned => exact ⟨[], ⟨rfl, rfl, fun _ => rfl⟩, .start⟩

theorem authenticateWorker_spec {service : WorkerJWTService} {library : JwtLibrary} {db : Db}
    {authorization : Option String} {now : Timestamp} {requiredScope : String}
    {worker : Worker}
    (h : authenticateWorker service library db authorization now requiredScope = .ok worker) :
    ∃ token claims, bearerKey authorization = some token ∧
      service.verify library token now = some claims ∧
      requireWorker db claims.sub claims.jti = .ok worker ∧
      requiredScope ∈ claims.scope := by
  obtain ⟨⟨claims, row⟩, hheader, hrest⟩ := Except.bind_eq_ok_iff.mp h
  obtain ⟨⟨⟩, hscope, hpure⟩ := Except.bind_eq_ok_iff.mp hrest
  rw [Except.pure_eq_ok_iff] at hpure
  cases hpure
  unfold requireWorkerHeader at hheader
  split at hheader
  · cases hheader
  next token htoken =>
    split at hheader
    · cases hheader
    next verified hverify =>
      obtain ⟨row, hrow, hpair⟩ := Except.bind_eq_ok_iff.mp hheader
      rw [Except.pure_eq_ok_iff] at hpair
      cases hpair
      refine ⟨token, claims, htoken, hverify, hrow, ?_⟩
      unfold requireWorkerScope at hscope
      split at hscope
      next hcontains => exact List.contains_iff_mem.mp hcontains
      · cases hscope

theorem ServingKnown.step (h : ServingKnown s) (hstep : GatewayStep services s e s') :
    ServingKnown s' := by
  obtain ⟨own, -, hrun⟩ := hstep.core h
  have hkept : ∀ entry ∈ s.serving, WorkerKnown s'.db.toDb entry.1.id :=
    fun entry hentry => workerKnown_of_coreRun hrun (h entry hentry)
  have hsublist : s'.serving.Sublist s.serving → ServingKnown s' :=
    fun hsub entry hentry => hkept entry (hsub.subset hentry)
  cases hstep.change with
  | @loaded authorization now request worker hworker =>
      obtain ⟨-, claims, -, -, hrow, -⟩ := authenticateWorker_spec hworker
      intro entry hentry
      rcases List.mem_cons.mp hentry with rfl | hold
      · exact List.mem_map_of_mem (Table.mem_of_find (requireWorker_spec hrow).1)
      · exact h entry hold
  | served => exact hsublist (List.eraseIdx_sublist _ _)
  | failed hfails hserving hwaiting => exact hsublist hserving
  | abandoned hserving hwaiting => exact hsublist hserving
  | _ => exact hkept

theorem servingKnown_of_run {history : List GatewayEvent}
    (hrun : GatewayRun services history s) : ServingKnown s := by
  apply Run.invariant (I := ServingKnown) hrun
  · intro entry hentry
    cases hentry
  · intro s e s' h hstep
    exact h.step hstep

/-- The empty tables. -/
abbrev emptyDb : Db := GatewayState.initial.db.toDb

/-- A run of the gateway is a run of operations and administration. -/
theorem GatewayRun.core {history : List GatewayEvent} (hrun : GatewayRun services history s) :
    ∃ owns, List.Forall₂ Mirrors history owns ∧ CoreRun emptyDb owns.flatten s.db.toDb := by
  apply Run.expanded (f := fun s : GatewayState => s.db.toDb) hrun
  intro history s e s' hprev hstep
  exact hstep.core (servingKnown_of_run hprev)

end Runs

end OrbiGateway
