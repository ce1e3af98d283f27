import OrbiGateway.Concurrency.WorkerRevocation
import OrbiGateway.Routes.Admin
import OrbiGateway.Routes.ChatRoute
import OrbiGateway.Routes.Public
import OrbiGateway.Services.WorkerHealth
import OrbiGateway.WorkerAuthentication

/-!
# The whole gateway

The application as one system: administrators, clients, workers and the maintenance loop
over one database and one Redis.  A call is served in one committed transaction, with two
exceptions that the routes make themselves.  A chat call commits its request and then waits,
polling the committed row; and a worker's call is authenticated by a read without a lock, so
that other calls can commit before its route runs with the row that it has loaded.
-/

namespace OrbiGateway

open Relational Transition

/-! ## The application -/

/-- The services and settings of the application. -/
structure GatewayServices where
  apiKeys : APIKeyService
  admin : AdminTokenVerifier
  registration : RegistrationServices
  jwtLibrary : JwtLibrary
  health : WorkerHealthService
  workerLeaseSeconds : ℤ
  workerLeaseSeconds_ge : 30 ≤ workerLeaseSeconds
  workerLeaseSeconds_le : workerLeaseSeconds ≤ 1800

/-! ## Administrators -/

inductive AdminCall
  | createAPIKey (payload : APIKeyCreateRequest) (draw : KeyDraw)
  | createWorkerEnrollment (payload : WorkerEnrollmentCreateRequest) (draw : EnrollmentDraw)
  | createProject (payload : ProjectCreateRequest) (readings : ProjectReadings)
  | createModelAlias (payload : ModelAliasCreateRequest)
  | revokeAPIKey (apiKeyId : UUID) (now : Timestamp)
  | revokeWorker (workerId : UUID) (now : Timestamp)

inductive AdminReply
  | keyCreated (response : APIKeyCreatedResponse)
  | enrollmentCreated (response : WorkerEnrollmentCreatedResponse)
  | projectCreated (response : ProjectResponse)
  | aliasCreated (response : ModelAliasResponse)
  | keyRevoked
  | workerRevoked

/-- The route behind `require_admin`. -/
def AdminCall.route (services : GatewayServices) (db : GatewayDb) :
    AdminCall → Except Failure (AdminReply × GatewayDb)
  | .createAPIKey payload draw => do
      let (response, core) ← OrbiGateway.createAPIKey services.apiKeys db.toDb payload draw
      return (.keyCreated response, { db with toDb := core })
  | .createWorkerEnrollment payload draw => do
      let (response, after) ← OrbiGateway.createWorkerEnrollment
        services.registration.enrollment db.enrollment payload draw
      return (.enrollmentCreated response,
        { db with enrollmentTokens := after.enrollmentTokens })
  | .createProject payload readings => do
      let (response, after) ← OrbiGateway.createProject db.named payload readings
      return (.projectCreated response,
        { db with toDb := after.toDb, projectNames := after.projectNames })
  | .createModelAlias payload => do
      let (response, core) ← OrbiGateway.createModelAlias db.toDb payload
      return (.aliasCreated response, { db with toDb := core })
  | .revokeAPIKey apiKeyId now => do
      let core ← OrbiGateway.revokeAPIKey db.toDb apiKeyId now
      return (.keyRevoked, { db with toDb := core })
  | .revokeWorker workerId now => do
      let core ← OrbiGateway.revokeWorker db.toDb workerId now
      return (.workerRevoked, { db with toDb := core })

def serveAdmin (services : GatewayServices) (db : GatewayDb) (authorization : Option String)
    (call : AdminCall) : Except Failure (AdminReply × GatewayDb) := do
  requireAdmin services.admin authorization
  call.route services db

/-! ## Clients -/

/-- A request to a public route, without its header. -/
inductive ClientRequest
  | chat (idempotencyKey : Option String) (payload : ChatCompletionRequest)
      (readings : ChatReadings)
  | listModels
  | getUsage

/-- The call that the request makes with the key of its header. -/
def ClientRequest.call (parsed : ParsedKey) (keyReadings : KeyReadings) :
    ClientRequest → PublicCall
  | .chat idempotencyKey payload readings =>
      .chat ⟨parsed, keyReadings, idempotencyKey, payload, readings⟩
  | .listModels => .listModels parsed keyReadings
  | .getUsage => .getUsage parsed keyReadings

/-- A public route from the header to its commit.  The session of a call that raises is
rolled back, and what `require_api_key` has written to Redis stays. -/
def serveClient (service : APIKeyService) (state : AuthState) (clock : AuthClock)
    (authorization : Option String) (request : ClientRequest) :
    Except Failure PublicReply × AuthState :=
  let counters := (requireApiKeyHeader service state clock authorization).2.counters
  match (bearerKey authorization).bind APIKeyService.parse with
  | none => (.error (.orbi invalidApiKey), ⟨state.db, counters⟩)
  | some parsed =>
      let call := request.call parsed (clock.readings service state.counters)
      match call.serve state.db with
      | .ok (reply, db) => (.ok reply, ⟨db, counters⟩)
      | .error failure => (.error failure, ⟨state.db, counters⟩)

/-! ## Workers -/

/-- A request to a worker route behind `require_worker_scope`, with what the route reads
outside the database. -/
inductive WorkerRequest
  | heartbeat (payload : WorkerHeartbeatRequest) (now : Timestamp)
  | pullRequest (now : Timestamp)
  | submitResult (payload : WorkerResultRequest) (now : Timestamp)
  | submitError (payload : WorkerErrorRequest)
  | renewWorkerToken (jti : String) (issuedAt : Timestamp)

namespace WorkerRequest

def requiredScope : WorkerRequest → String
  | .heartbeat _ _ => "worker:heartbeat"
  | .pullRequest _ => "worker:pull"
  | .submitResult _ _ => "worker:result"
  | .submitError _ => "worker:error"
  | .renewWorkerToken _ _ => "worker:renew"

/-- The route that serves the request; no other transaction holds a row of the queue. -/
def call (leaseSeconds : ℤ) : WorkerRequest → WorkerCall
  | .heartbeat payload now => .heartbeat payload now
  | .pullRequest now => .pull leaseSeconds now fun _ => false
  | .submitResult payload now => .submitResult payload now
  | .submitError payload => .submitError payload
  | .renewWorkerToken jti _ => .renew jti

end WorkerRequest

/-! ## Maintenance -/

/-- One cycle of `_lease_recovery_loop`, which is one transaction. -/
def maintain (services : GatewayServices) (db : Db) (recoverNow staleNow : Timestamp) :
    Except Failure ((ℕ × ℕ) × Db) := do
  let (recovered, db) ← QueueService.recoverExpiredLeases db recoverNow
  let (offline, db) := services.health.markStaleWorkersOffline db staleNow
  return ((recovered, offline), db)

/-! ## States and actions -/

/-- The committed rows, Redis, the worker calls that have been authenticated with the rows
they have loaded, and the requests whose chat calls wait for a result. -/
structure GatewayState where
  db : GatewayDb
  counters : Counters
  serving : List (Worker × WorkerRequest)
  waiting : List UUID

/-- Empty tables, as the migration leaves them. -/
def GatewayState.initial : GatewayState where
  db := {
    projects := .empty
    apiKeys := .empty
    modelAliases := .empty
    workers := .empty
    requests := .empty
    usageRecords := .empty
    projectNames := .empty
    enrollmentTokens := .empty }
  counters := Expiring.Store.empty
  serving := []
  waiting := []

/-- What can happen next, with everything that is read outside the database. -/
inductive Action
  | admin (authorization : Option String) (call : AdminCall)
  | client (authorization : Option String) (clock : AuthClock) (request : ClientRequest)
  | poll (requestId : UUID)
  | timeOut (requestId : UUID)
  | register (payload : WorkerRegisterRequest) (readings : RegistrationReadings)
  | authenticate (authorization : Option String) (now : Timestamp) (request : WorkerRequest)
  | serve (index : ℕ)
  | maintain (recoverNow staleNow : Timestamp)

/-- How the gateway answers.  A worker's call that has been authenticated, a chat call that
has queued its request and a poll of an open request are not finished yet. -/
inductive Answer
  | failed (failure : Failure)
  | administered (reply : AdminReply)
  | replied (reply : PublicReply)
  | waits
  | completed (result : Json)
  | registered (response : WorkerTokenResponse)
  | loaded (worker : Worker)
  | served (worker : Worker) (request : WorkerRequest) (reply : WorkerReply)
  | maintained (recovered offline : ℕ)
  | ignored

/-- The request on which a chat call goes on to wait. -/
def PublicReply.waitsFor : PublicReply → Option UUID
  | .chat (.queued record) => some record.id
  | _ => none

/-- One poll of a waiting chat call. -/
def pollWaiting (s : GatewayState) (requestId : UUID) : Answer × GatewayState :=
  if s.waiting.contains requestId then
    match pollRequest s.db.toDb requestId with
    | .ok none => (.waits, s)
    | .ok (some result) =>
        (.completed result, { s with waiting := s.waiting.erase requestId })
    | .error failure => (.failed failure, { s with waiting := s.waiting.erase requestId })
  else (.ignored, s)

/-- The route of an authenticated worker call. -/
def serveWorker (services : GatewayServices) (s : GatewayState) (index : ℕ) :
    Answer × GatewayState :=
  match s.serving[index]? with
  | none => (.ignored, s)
  | some (worker, request) =>
      let serving := s.serving.eraseIdx index
      match (request.call services.workerLeaseSeconds).run s.db.toDb worker with
      | .ok (reply, core) =>
          (.served worker request reply,
            { s with db := { s.db with toDb := core }, serving := serving })
      | .error failure => (.failed failure, { s with serving := serving })

/-- What an action does. -/
def act (services : GatewayServices) (s : GatewayState) : Action → Answer × GatewayState
  | .admin authorization call =>
      match serveAdmin services s.db authorization call with
      | .ok (reply, db) => (.administered reply, { s with db := db })
      | .error failure => (.failed failure, s)
  | .client authorization clock request =>
      match serveClient services.apiKeys ⟨s.db.toDb, s.counters⟩ clock authorization
          request with
      | (.ok reply, after) =>
          (.replied reply, { s with
            db := { s.db with toDb := after.db }
            counters := after.counters
            waiting := reply.waitsFor.toList ++ s.waiting })
      | (.error failure, after) => (.failed failure, { s with counters := after.counters })
  | .poll requestId => pollWaiting s requestId
  | .timeOut requestId =>
      if s.waiting.contains requestId then
        (.failed (.orbi (inferenceTimeout requestId)),
          { s with waiting := s.waiting.erase requestId })
      else (.ignored, s)
  | .register payload readings =>
      match registerWorker services.registration s.db.enrollment payload readings with
      | .ok (response, after) =>
          (.registered response, { s with
            db := { s.db with
              toDb := after.toDb
              enrollmentTokens := after.enrollmentTokens } })
      | .error failure => (.failed failure, s)
  | .authenticate authorization now request =>
      match authenticateWorker services.registration.jwt services.jwtLibrary s.db.toDb
          authorization now request.requiredScope with
      | .ok worker => (.loaded worker, { s with serving := (worker, request) :: s.serving })
      | .error failure => (.failed failure, s)
  | .serve index => serveWorker services s index
  | .maintain recoverNow staleNow =>
      match OrbiGateway.maintain services s.db.toDb recoverNow staleNow with
      | .ok ((recovered, offline), core) =>
          (.maintained recovered offline, { s with db := { s.db with toDb := core } })
      | .error failure => (.failed failure, s)

/-! ## Runs -/

inductive GatewayEvent
  | acted (action : Action) (answer : Answer)
  | rescanned
  | evicted (key : String)
  | abandoned

/-- An action, a change of the order in which a scan visits the requests, the removal of a
counter whose expiry has come, or the end of calls that are cancelled, or are lost with the
process that served them. -/
inductive GatewayStep (services : GatewayServices) :
    GatewayState → GatewayEvent → GatewayState → Prop
  | acted {s s' : GatewayState} {action : Action} {answer : Answer}
      (hact : act services s action = (answer, s')) :
      GatewayStep services s (.acted action answer) s'
  | rescanned {s : GatewayState} {requests : Table OrbiRequest}
      (hperm : requests.rows.Perm s.db.requests.rows) :
      GatewayStep services s .rescanned { s with db := { s.db with requests := requests } }
  | evicted {s : GatewayState} {key : String} {now : ℚ} (hdue : s.counters.IsDue key now) :
      GatewayStep services s (.evicted key) { s with counters := s.counters.remove key }
  | abandoned {s : GatewayState} {serving : List (Worker × WorkerRequest)}
      {waiting : List UUID} (hserving : serving.Sublist s.serving)
      (hwaiting : waiting.Sublist s.waiting) :
      GatewayStep services s .abandoned { s with serving := serving, waiting := waiting }

/-- A run of the gateway from the empty database. -/
abbrev GatewayRun (services : GatewayServices) (history : List GatewayEvent)
    (s : GatewayState) : Prop :=
  Run (GatewayStep services) .initial history s

/-! ## What a step can do -/

/-- The action fails, for the reason that its route has. -/
inductive Fails (services : GatewayServices) (s : GatewayState) : Action → Failure → Prop
  | admin {authorization : Option String} {call : AdminCall} {failure : Failure}
      (h : serveAdmin services s.db authorization call = .error failure) :
      Fails services s (.admin authorization call) failure
  | client {authorization : Option String} {clock : AuthClock} {request : ClientRequest}
      {failure : Failure}
      (h : (serveClient services.apiKeys ⟨s.db.toDb, s.counters⟩ clock authorization
        request).1 = .error failure) :
      Fails services s (.client authorization clock request) failure
  | poll {requestId : UUID} {failure : Failure} (hwaiting : requestId ∈ s.waiting)
      (h : pollRequest s.db.toDb requestId = .error failure) :
      Fails services s (.poll requestId) failure
  | timeOut {requestId : UUID} (hwaiting : requestId ∈ s.waiting) :
      Fails services s (.timeOut requestId) (.orbi (inferenceTimeout requestId))
  | register {payload : WorkerRegisterRequest} {readings : RegistrationReadings}
      {failure : Failure}
      (h : registerWorker services.registration s.db.enrollment payload readings =
        .error failure) :
      Fails services s (.register payload readings) failure
  | authenticate {authorization : Option String} {now : Timestamp} {request : WorkerRequest}
      {failure : Failure}
      (h : authenticateWorker services.registration.jwt services.jwtLibrary s.db.toDb
        authorization now request.requiredScope = .error failure) :
      Fails services s (.authenticate authorization now request) failure
  | serve {index : ℕ} {worker : Worker} {request : WorkerRequest} {failure : Failure}
      (hentry : s.serving[index]? = some (worker, request))
      (h : (request.call services.workerLeaseSeconds).run s.db.toDb worker =
        .error failure) :
      Fails services s (.serve index) failure
  | maintain {recoverNow staleNow : Timestamp} {failure : Failure}
      (h : OrbiGateway.maintain services s.db.toDb recoverNow staleNow = .error failure) :
      Fails services s (.maintain recoverNow staleNow) failure

/-- Everything that a step can do. -/
inductive GatewayChange (services : GatewayServices) (s : GatewayState) :
    GatewayEvent → GatewayState → Prop
  | administered {authorization : Option String} {call : AdminCall} {reply : AdminReply}
      {db : GatewayDb} (hadmin : requireAdmin services.admin authorization = .ok ())
      (hroute : call.route services s.db = .ok (reply, db)) :
      GatewayChange services s (.acted (.admin authorization call) (.administered reply))
        { s with db := db }
  | replied {authorization : Option String} {clock : AuthClock} {request : ClientRequest}
      {parsed : ParsedKey} {reply : PublicReply} {db : Db} {counters : Counters}
      (hparsed : (bearerKey authorization).bind APIKeyService.parse = some parsed)
      (hserve : (request.call parsed (clock.readings services.apiKeys s.counters)).serve
        s.db.toDb = .ok (reply, db)) :
      GatewayChange services s (.acted (.client authorization clock request) (.replied reply))
        { s with
          db := { s.db with toDb := db }
          counters := counters
          waiting := reply.waitsFor.toList ++ s.waiting }
  | waits {requestId : UUID} (hwaiting : requestId ∈ s.waiting)
      (hpoll : pollRequest s.db.toDb requestId = .ok none) :
      GatewayChange services s (.acted (.poll requestId) .waits) s
  | completed {requestId : UUID} {result : Json} (hwaiting : requestId ∈ s.waiting)
      (hpoll : pollRequest s.db.toDb requestId = .ok (some result)) :
      GatewayChange services s (.acted (.poll requestId) (.completed result))
        { s with waiting := s.waiting.erase requestId }
  | registered {payload : WorkerRegisterRequest} {readings : RegistrationReadings}
      {response : WorkerTokenResponse} {after : EnrollmentDb}
      (hregister : registerWorker services.registration s.db.enrollment payload readings =
        .ok (response, after)) :
      GatewayChange services s (.acted (.register payload readings) (.registered response))
        { s with db := { s.db with
            toDb := after.toDb
            enrollmentTokens := after.enrollmentTokens } }
  | loaded {authorization : Option String} {now : Timestamp} {request : WorkerRequest}
      {worker : Worker}
      (hworker : authenticateWorker services.registration.jwt services.jwtLibrary s.db.toDb
        authorization now request.requiredScope = .ok worker) :
      GatewayChange services s
        (.acted (.authenticate authorization now request) (.loaded worker))
        { s with serving := (worker, request) :: s.serving }
  | served {index : ℕ} {worker : Worker} {request : WorkerRequest} {reply : WorkerReply}
      {db : Db} (hentry : s.serving[index]? = some (worker, request))
      (hrun : (request.call services.workerLeaseSeconds).run s.db.toDb worker =
        .ok (reply, db)) :
      GatewayChange services s (.acted (.serve index) (.served worker request reply))
        { s with
          db := { s.db with toDb := db }
          serving := s.serving.eraseIdx index }
  | maintained {recoverNow staleNow : Timestamp} {recovered offline : ℕ} {db : Db}
      (hmaintain : OrbiGateway.maintain services s.db.toDb recoverNow staleNow =
        .ok ((recovered, offline), db)) :
      GatewayChange services s
        (.acted (.maintain recoverNow staleNow) (.maintained recovered offline))
        { s with db := { s.db with toDb := db } }
  | failed {action : Action} {failure : Failure} {counters : Counters}
      {serving : List (Worker × WorkerRequest)} {waiting : List UUID}
      (hfails : Fails services s action failure) (hserving : serving.Sublist s.serving)
      (hwaiting : waiting.Sublist s.waiting) :
      GatewayChange services s (.acted action (.failed failure))
        { s with counters := counters, serving := serving, waiting := waiting }
  | ignored {action : Action} : GatewayChange services s (.acted action .ignored) s
  | rescanned {requests : Table OrbiRequest}
      (hperm : requests.rows.Perm s.db.requests.rows) :
      GatewayChange services s .rescanned
        { s with db := { s.db with requests := requests } }
  | evicted {key : String} {counters : Counters} :
      GatewayChange services s (.evicted key) { s with counters := counters }
  | abandoned {serving : List (Worker × WorkerRequest)} {waiting : List UUID}
      (hserving : serving.Sublist s.serving) (hwaiting : waiting.Sublist s.waiting) :
      GatewayChange services s .abandoned { s with serving := serving, waiting := waiting }

section Changes

variable {services : GatewayServices} {s s' : GatewayState} {answer : Answer}

theorem pollWaiting_change {requestId : UUID}
    (h : pollWaiting s requestId = (answer, s')) :
    GatewayChange services s (.acted (.poll requestId) answer) s' := by
  unfold pollWaiting at h
  split at h
  next hcontains =>
    have hwaiting : requestId ∈ s.waiting := List.contains_iff_mem.mp hcontains
    split at h
    next hpoll =>
      cases h
      exact .waits hwaiting hpoll
    next result hpoll =>
      cases h
      exact .completed hwaiting hpoll
    next failure hpoll =>
      cases h
      exact .failed (.poll hwaiting hpoll) (List.Sublist.refl _) List.erase_sublist
  · cases h
    exact .ignored

theorem serveWorker_change {index : ℕ} (h : serveWorker services s index = (answer, s')) :
    GatewayChange services s (.acted (.serve index) answer) s' := by
  unfold serveWorker at h
  split at h
  · cases h
    exact .ignored
  next worker request hentry =>
    dsimp only at h
    split at h
    next reply core hrun =>
      cases h
      exact .served hentry hrun
    next failure hrun =>
      cases h
      exact .failed (.serve hentry hrun) (List.eraseIdx_sublist _ _) (List.Sublist.refl _)

theorem serveClient_change {authorization : Option String} {clock : AuthClock}
    {request : ClientRequest}
    (h : act services s (.client authorization clock request) = (answer, s')) :
    GatewayChange services s (.acted (.client authorization clock request) answer) s' := by
  simp only [act] at h
  split at h
  next reply after hserve =>
    cases h
    unfold serveClient at hserve
    dsimp only at hserve
    split at hserve
    · cases hserve
    next parsed hparsed =>
      split at hserve
      next reply' db' hcall =>
        cases hserve
        exact .replied hparsed hcall
      · cases hserve
  next failure after hserve =>
    cases h
    exact .failed (.client (congrArg Prod.fst hserve)) (List.Sublist.refl _)
      (List.Sublist.refl _)

theorem GatewayStep.change {e : GatewayEvent} (h : GatewayStep services s e s') :
    GatewayChange services s e s' := by
  have hsame : ∀ {action : Action} {failure : Failure}, Fails services s action failure →
      GatewayChange services s (.acted action (.failed failure)) s := by
    intro action failure hfails
    exact .failed hfails (List.Sublist.refl _) (List.Sublist.refl _)
  cases h with
  | @acted _ action answer hact =>
      cases action with
      | admin authorization call =>
          simp only [act] at hact
          split at hact
          next reply db hserve =>
            cases hact
            obtain ⟨⟨⟩, hadmin, hroute⟩ := Except.bind_eq_ok_iff.mp hserve
            exact .administered hadmin hroute
          next failure hserve =>
            cases hact
            exact hsame (.admin hserve)
      | client authorization clock request => exact serveClient_change hact
      | poll requestId => exact pollWaiting_change hact
      | timeOut requestId =>
          simp only [act] at hact
          split at hact
          next hcontains =>
            cases hact
            exact .failed (.timeOut (List.contains_iff_mem.mp hcontains))
              (List.Sublist.refl _) List.erase_sublist
          · cases hact
            exact .ignored
      | register payload readings =>
          simp only [act] at hact
          split at hact
          next response after hregister =>
            cases hact
            exact .registered hregister
          next failure hregister =>
            cases hact
            exact hsame (.register hregister)
      | authenticate authorization now request =>
          simp only [act] at hact
          split at hact
          next worker hworker =>
            cases hact
            exact .loaded hworker
          next failure hworker =>
            cases hact
            exact hsame (.authenticate hworker)
      | serve index => exact serveWorker_change hact
      | maintain recoverNow staleNow =>
          simp only [act] at hact
          split at hact
          next recovered offline core hmaintain =>
            cases hact
            exact .maintained hmaintain
          next failure hmaintain =>
            cases hact
            exact hsame (.maintain hmaintain)
  | rescanned hperm => exact .rescanned hperm
  | evicted => exact .evicted
  | abandoned hserving hwaiting => exact .abandoned hserving hwaiting

end Changes

/-! ## Running actions -/

/-- An action as a step of a run. -/
def performAction (services : GatewayServices) (s : GatewayState) (action : Action) :
    GatewayEvent × GatewayState :=
  (.acted action (act services s action).1, (act services s action).2)

/-- Perform actions in order; the history comes out newest first. -/
def runActions (services : GatewayServices) (s : GatewayState) (actions : List Action) :
    List GatewayEvent × GatewayState :=
  performAll (performAction services) s actions

theorem run_runActions (services : GatewayServices) (actions : List Action) :
    GatewayRun services (runActions services .initial actions).1
      (runActions services .initial actions).2 := by
  apply run_performAll
  intro s action
  exact GatewayStep.acted rfl

/-! ## A sample run

From the empty database to a served request: an administrator sets up a project with a key,
an alias and an enrollment token, and a worker registers, pulls the request of a chat call
and submits its result.  The hasher stores texts as they are, and the one token of the
sample stands for its claims. -/

namespace GatewaySample

open Sample

def pepper : String := "0123456789abcdef0123456789abcdef"

theorem pepper_ge : 32 ≤ pepper.utf8ByteSize := by decide

def jwt : WorkerJWTService := ⟨"orbi", "orbi-workers", 3600⟩

def jwtLibrary : JwtLibrary where
  encode claims := claims.jti
  decode token audience issuer now :=
    let claims := (jwt.issue 20 "jti" 0).truncated
    if token = claims.jti ∧ audience = claims.aud ∧ issuer = claims.iss ∧ claims.iat ≤ now ∧
        claims.nbf ≤ now ∧ now < claims.exp then
      some claims
    else none

theorem leaseSeconds_ge : (30 : ℤ) ≤ 120 := by decide

theorem leaseSeconds_le : (120 : ℤ) ≤ 1800 := by decide

theorem timeout_ge : (30 : ℤ) ≤ 90 := by decide

def services : GatewayServices where
  apiKeys := ⟨pepper, fun stored text => stored == text, pepper_ge⟩
  admin := ⟨"token:" ++ pepper, pepper, fun stored text => stored == text⟩
  registration := ⟨⟨pepper, fun stored text => stored == text, pepper_ge⟩, jwt⟩
  jwtLibrary := jwtLibrary
  health := ⟨90, timeout_ge⟩
  workerLeaseSeconds := 120
  workerLeaseSeconds_ge := leaseSeconds_ge
  workerLeaseSeconds_le := leaseSeconds_le

def adminHeader : Option String := some "Bearer token"

theorem isSlug_demo : isSlug "demo" = true := by decide

theorem isSlug_default : isSlug "orbi-default" = true := by decide

theorem default_ge : 1 ≤ "orbi-default".length := by decide

theorem default_le : "orbi-default".length ≤ 64 := by decide

theorem dailyLimit_ge : (1 : ℤ) ≤ 100000 := by decide

theorem monthlyLimit_ge : (1 : ℤ) ≤ 1000000 := by decide

theorem hour_lt : 0 < 24 := by decide

theorem minute_lt : 0 < 60 := by decide

def demoProject : ProjectCreateRequest where
  name := "demo"
  slug := "demo"
  ownerId := 1
  name_nonempty := by decide
  name_le := by decide
  slug_ge := by decide
  slug_le := by decide
  slug_pattern := isSlug_demo
  dailyTokenLimit_pos := dailyLimit_ge
  monthlyTokenLimit_pos := monthlyLimit_ge

def demoKey : APIKeyCreateRequest where
  projectId := 1
  environment := .test
  scopes_le := by decide
  rpmLimit_pos := by decide
  rpmLimit_le := by decide
  dailyReqLimit_pos := by decide
  dailyReqLimit_le := by decide

def keyDraw : KeyDraw := ⟨10, id, .replicate 9 0, .replicate 32 0, day⟩

/-- The header with the key that the draw leads to. -/
def clientHeader : Option String :=
  some "Bearer orbi_test_v1_AAAAAAAAAAAA_AAAAAAAAAAAAAAAAAAAAAAAAAAAAAAAAAAAAAAAAAAA"

def demoAlias : ModelAliasCreateRequest where
  aliasName := "orbi-default"
  modelId := "test/model"
  aliasName_nonempty := default_ge
  aliasName_le := default_le
  aliasName_pattern := isSlug_default
  modelId_nonempty := by decide
  modelId_le := by decide

def demoEnrollment : WorkerEnrollmentCreateRequest where
  expiresInSeconds_ge := by decide
  expiresInSeconds_le := by decide

def enrollmentDraw : EnrollmentDraw := ⟨id, .replicate 9 0, .replicate 32 0, 0⟩

def demoWorker : WorkerRegisterRequest where
  enrollmentToken := "orbi_node_v1_AAAAAAAAAAAA_AAAAAAAAAAAAAAAAAAAAAAAAAAAAAAAAAAAAAAAAAAA"
  providerType := .docker
  supportedModels := ["test/model"]
  enrollmentToken_ge := by decide
  enrollmentToken_le := by decide
  supportedModels_le := by decide

def clock : AuthClock where
  activeNow := 0
  now := 0
  today := day
  minute := ⟨day, 0, 0, hour_lt, minute_lt⟩
  redisNow := 0

def setUp : List Action :=
  [.admin adminHeader (.createProject demoProject ⟨1, day⟩),
    .admin adminHeader (.createAPIKey demoKey keyDraw),
    .admin adminHeader (.createModelAlias demoAlias),
    .admin adminHeader (.createWorkerEnrollment demoEnrollment enrollmentDraw),
    .register demoWorker ⟨0, 20, "jti", 0⟩]

/-- A chat call queues request 100, and the worker pulls it. -/
def pulled : List Action :=
  setUp ++ [.client clientHeader clock (.chat none payload ⟨100, 0, day, 0⟩),
    .authenticate (some "Bearer jti") 1 (.pullRequest 1), .serve 0]

/-- The worker submits the result. -/
def answered : List Action :=
  pulled ++ [.authenticate (some "Bearer jti") 2 (.submitResult answer 2), .serve 0]

end GatewaySample

example : (runActions GatewaySample.services .initial GatewaySample.answered).2.db.requests.rows.map
    (fun r => (r.status, r.inputTokens)) = [(.completed, some 2)] := by decide +kernel

end OrbiGateway
