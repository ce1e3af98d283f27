import OrbiGateway.Invariants.IssuedTokens

/-!
# Enrolled workers

Every worker has been registered with an enrollment token of its own that an administrator
has created, and every created token registers one worker until it expires.
-/

namespace OrbiGateway

open Relational Transition

/-! ## Creations and registrations -/

/-- An enrollment token that has been created: the request and the draw. -/
abbrev CreatedEnrollment := WorkerEnrollmentCreateRequest × EnrollmentDraw

/-- A worker that has been registered: the request and the readings. -/
abbrev RegisteredWorker := WorkerRegisterRequest × RegistrationReadings

def createdEnrollmentBy : Answer → Action → Option CreatedEnrollment
  | .administered (.enrollmentCreated _), .admin _ (.createWorkerEnrollment payload draw) =>
      some (payload, draw)
  | _, _ => none

def GatewayEvent.createdEnrollment : GatewayEvent → Option CreatedEnrollment
  | .acted action answer => createdEnrollmentBy answer action
  | _ => none

def registeredBy : Answer → Action → Option RegisteredWorker
  | .registered _, .register payload readings => some (payload, readings)
  | _, _ => none

def GatewayEvent.registration : GatewayEvent → Option RegisteredWorker
  | .acted action answer => registeredBy answer action
  | _ => none

/-- The enrollment tokens that have been created in a history, newest first. -/
def createdEnrollments (history : List GatewayEvent) : List CreatedEnrollment :=
  history.filterMap GatewayEvent.createdEnrollment

/-- The workers that have been registered in a history, newest first. -/
def registeredWorkers (history : List GatewayEvent) : List RegisteredWorker :=
  history.filterMap GatewayEvent.registration

/-- What the creation has generated. -/
def CreatedEnrollment.generated (service : WorkerEnrollmentService)
    (created : CreatedEnrollment) : GeneratedEnrollmentToken :=
  service.generate created.2.hash created.2.idBytes created.2.secretBytes

/-- The row that the creation has written. -/
def CreatedEnrollment.record (service : WorkerEnrollmentService)
    (created : CreatedEnrollment) : WorkerEnrollmentToken :=
  newEnrollmentToken created.1 (created.generated service) created.2.now

/-- The end of the token's lifetime. -/
def CreatedEnrollment.expiresAt (created : CreatedEnrollment) : Timestamp :=
  created.2.now + seconds created.1.expiresInSeconds

/-- The id of the token with which the worker has been registered. -/
def RegisteredWorker.tokenId (registration : RegisteredWorker) : Option String :=
  registrationTokenId registration.1.enrollmentToken

/-- The row of a token as it was created. -/
def WorkerEnrollmentToken.unconsumed (record : WorkerEnrollmentToken) :
    WorkerEnrollmentToken :=
  { record with consumedAt := none }

/-! ## What a step does to the tokens -/

/-- How an event changes the rows of the enrollment tokens. -/
inductive EnrollmentsChange (service : WorkerEnrollmentService)
    (tokens : List WorkerEnrollmentToken) :
    GatewayEvent → List WorkerEnrollmentToken → Prop
  | kept {e : GatewayEvent} (hcreated : e.createdEnrollment = none)
      (hregistration : e.registration = none) : EnrollmentsChange service tokens e tokens
  | created {authorization : Option String} {payload : WorkerEnrollmentCreateRequest}
      {draw : EnrollmentDraw} {response : WorkerEnrollmentCreatedResponse}
      (hunused : ∀ record ∈ tokens,
        record.tokenId ≠ (CreatedEnrollment.record service (payload, draw)).tokenId) :
      EnrollmentsChange service tokens
        (.acted (.admin authorization (.createWorkerEnrollment payload draw))
          (.administered (.enrollmentCreated response)))
        (tokens ++ [CreatedEnrollment.record service (payload, draw)])
  | registered {payload : WorkerRegisterRequest} {readings : RegistrationReadings}
      {response : WorkerTokenResponse} {record : WorkerEnrollmentToken}
      (hrecord : record ∈ tokens)
      (hlookup : registrationTokenId payload.enrollmentToken = some record.tokenId)
      (hconsumable :
        record.isConsumableBy service payload.enrollmentToken readings.now = true) :
      EnrollmentsChange service tokens
        (.acted (.register payload readings) (.registered response))
        (tokens.map fun row =>
          if row.tokenId = record.tokenId then row.consumed readings.now else row)

theorem adminCall_enrollments {services : GatewayServices} {gdb gdb' : GatewayDb}
    {authorization : Option String} {call : AdminCall} {reply : AdminReply}
    (h : call.route services gdb = .ok (reply, gdb')) :
    EnrollmentsChange services.registration.enrollment gdb.enrollmentTokens.rows
      (.acted (.admin authorization call) (.administered reply))
      gdb'.enrollmentTokens.rows := by
  cases call with
  | createWorkerEnrollment payload draw =>
      obtain ⟨⟨response, after⟩, hcreate, hpure⟩ := Except.bind_eq_ok_iff.mp h
      rw [Except.pure_eq_ok_iff] at hpure
      cases hpure
      unfold createWorkerEnrollment at hcreate
      dsimp only at hcreate
      split at hcreate
      · cases hcreate
      next enrollmentTokens hinsert =>
        cases hcreate
        obtain ⟨hunused, hrows⟩ := Table.insert_eq_some_iff.mp hinsert
        change EnrollmentsChange _ _ _ enrollmentTokens.rows
        rw [hrows]
        exact .created hunused
  | createAPIKey payload draw =>
      obtain ⟨answer, -, hpure⟩ := Except.bind_eq_ok_iff.mp h
      rw [Except.pure_eq_ok_iff] at hpure
      cases hpure
      exact .kept rfl rfl
  | createProject payload readings =>
      obtain ⟨answer, -, hpure⟩ := Except.bind_eq_ok_iff.mp h
      rw [Except.pure_eq_ok_iff] at hpure
      cases hpure
      exact .kept rfl rfl
  | createModelAlias payload =>
      obtain ⟨answer, -, hpure⟩ := Except.bind_eq_ok_iff.mp h
      rw [Except.pure_eq_ok_iff] at hpure
      cases hpure
      exact .kept rfl rfl
  | revokeAPIKey apiKeyId now =>
      obtain ⟨answer, -, hpure⟩ := Except.bind_eq_ok_iff.mp h
      rw [Except.pure_eq_ok_iff] at hpure
      cases hpure
      exact .kept rfl rfl
  | revokeWorker workerId now =>
      obtain ⟨answer, -, hpure⟩ := Except.bind_eq_ok_iff.mp h
      rw [Except.pure_eq_ok_iff] at hpure
      cases hpure
      exact .kept rfl rfl

theorem GatewayStep.enrollments {services : GatewayServices} {s s' : GatewayState}
    {e : GatewayEvent} (h : GatewayStep services s e s') :
    EnrollmentsChange services.registration.enrollment s.db.enrollmentTokens.rows e
      s'.db.enrollmentTokens.rows := by
  cases h.change with
  | administered hadmin hroute => exact adminCall_enrollments hroute
  | @registered payload readings response after hregister =>
      obtain ⟨tokenId, secret, record, workers, hsplit, hfind, hconsumable, -, -, rfl⟩ :=
        registerWorker_spec hregister
      have hrecord : record ∈ s.db.enrollmentTokens.rows := Table.mem_of_find hfind
      have hid : record.tokenId = tokenId := Table.key_of_find hfind
      have hlookup : registrationTokenId payload.enrollmentToken = some record.tokenId := by
        rw [registrationTokenId_eq, hsplit, hid]
        rfl
      have hrows : (s.db.enrollmentTokens.put (record.consumed readings.now)).rows =
          s.db.enrollmentTokens.rows.map fun row =>
            if row.tokenId = record.tokenId then row.consumed readings.now else row := by
        rw [Table.rows_put]
        apply List.map_congr_left
        intro row hrow
        by_cases hsame : row.tokenId = record.tokenId
        · have hleft : HasKey.key row = HasKey.key (record.consumed readings.now) := hsame
          rw [if_pos hleft, if_pos hsame,
            s.db.enrollmentTokens.eq_of_key_eq hrow hrecord hsame]
        · have hleft : ¬HasKey.key row = HasKey.key (record.consumed readings.now) := hsame
          rw [if_neg hleft, if_neg hsame]
      change EnrollmentsChange _ _ _
        (s.db.enrollmentTokens.put (record.consumed readings.now)).rows
      rw [hrows]
      exact .registered hrecord hlookup hconsumable
  | replied => exact .kept rfl rfl
  | waits => exact .kept rfl rfl
  | completed => exact .kept rfl rfl
  | loaded => exact .kept rfl rfl
  | served => exact .kept rfl rfl
  | maintained => exact .kept rfl rfl
  | @failed action => exact .kept (by cases action <;> rfl) (by cases action <;> rfl)
  | @ignored action => exact .kept (by cases action <;> rfl) (by cases action <;> rfl)
  | rescanned => exact .kept rfl rfl
  | evicted => exact .kept rfl rfl
  | abandoned => exact .kept rfl rfl

/-! ## Along a run -/

/-- The rows are those of the created tokens, consumed as the history says. -/
structure EnrollmentsIssued (service : WorkerEnrollmentService) (history : List GatewayEvent)
    (tokens : List WorkerEnrollmentToken) : Prop where
  issued : ∀ record ∈ tokens, ∃ created ∈ createdEnrollments history,
    record.unconsumed = created.record service
  kept : ∀ created ∈ createdEnrollments history, ∃ record ∈ tokens,
    record.unconsumed = created.record service
  consumed_iff : ∀ record ∈ tokens, record.consumedAt.isSome = true ↔
    ∃ registration ∈ registeredWorkers history, registration.tokenId = some record.tokenId
  known : ∀ registration ∈ registeredWorkers history, ∃ record ∈ tokens,
    registration.tokenId = some record.tokenId ∧
      registration.2.now < record.expiresAt ∧
      (service.parseAndVerify registration.1.enrollmentToken record.secretHash).isSome = true
  once : ((registeredWorkers history).map RegisteredWorker.tokenId).Nodup

namespace EnrollmentsIssued

variable {service : WorkerEnrollmentService} {history : List GatewayEvent}
  {tokens tokens' : List WorkerEnrollmentToken} {e : GatewayEvent}

theorem of_empty : EnrollmentsIssued service [] [] where
  issued record hrecord := by cases hrecord
  kept created hcreated := by cases hcreated
  consumed_iff record hrecord := by cases hrecord
  known registration hregistration := by cases hregistration
  once := List.nodup_nil

theorem created (h : EnrollmentsIssued service history tokens)
    {authorization : Option String} {payload : WorkerEnrollmentCreateRequest}
    {draw : EnrollmentDraw} {response : WorkerEnrollmentCreatedResponse}
    (hunused : ∀ record ∈ tokens,
      record.tokenId ≠ (CreatedEnrollment.record service (payload, draw)).tokenId) :
    EnrollmentsIssued service
      (.acted (.admin authorization (.createWorkerEnrollment payload draw))
        (.administered (.enrollmentCreated response)) :: history)
      (tokens ++ [CreatedEnrollment.record service (payload, draw)]) where
  issued := by
    intro record hrecord
    rcases List.mem_append.mp hrecord with hold | hnew
    · obtain ⟨created, hcreated, hsame⟩ := h.issued record hold
      exact ⟨created, List.mem_cons_of_mem _ hcreated, hsame⟩
    · cases List.mem_singleton.mp hnew
      exact ⟨_, List.mem_cons_self, rfl⟩
  kept := by
    intro created hcreated
    rcases List.mem_cons.mp hcreated with rfl | hold
    · exact ⟨_, List.mem_append_right _ (List.mem_singleton_self _), rfl⟩
    · obtain ⟨record, hrecord, hsame⟩ := h.kept created hold
      exact ⟨record, List.mem_append_left _ hrecord, hsame⟩
  consumed_iff := by
    intro record hrecord
    rcases List.mem_append.mp hrecord with hold | hnew
    · exact h.consumed_iff record hold
    · cases List.mem_singleton.mp hnew
      constructor
      · intro hsome
        cases hsome
      · rintro ⟨registration, hregistration, htokenId⟩
        obtain ⟨old, hold, hid, -⟩ := h.known registration hregistration
        exact absurd (Option.some.inj (hid.symm.trans htokenId)) (hunused old hold)
  known := by
    intro registration hregistration
    obtain ⟨record, hrecord, hsame⟩ := h.known registration hregistration
    exact ⟨record, List.mem_append_left _ hrecord, hsame⟩
  once := h.once

theorem registered (h : EnrollmentsIssued service history tokens)
    {payload : WorkerRegisterRequest} {readings : RegistrationReadings}
    {response : WorkerTokenResponse} {record : WorkerEnrollmentToken} (hrecord : record ∈ tokens)
    (hlookup : registrationTokenId payload.enrollmentToken = some record.tokenId)
    (hconsumable : record.isConsumableBy service payload.enrollmentToken readings.now = true) :
    EnrollmentsIssued service
      (.acted (.register payload readings) (.registered response) :: history)
      (tokens.map fun row =>
        if row.tokenId = record.tokenId then row.consumed readings.now else row) := by
  obtain ⟨hopen, hunexpired⟩ := WorkerEnrollmentToken.isConsumableBy_spec hconsumable
  have hverified : (service.parseAndVerify payload.enrollmentToken
      record.secretHash).isSome = true := by
    simp only [WorkerEnrollmentToken.isConsumableBy, Bool.and_eq_true] at hconsumable
    exact hconsumable.2
  have hcreation : ∀ row : WorkerEnrollmentToken,
      (if row.tokenId = record.tokenId then row.consumed readings.now else row).unconsumed =
        row.unconsumed := by
    intro row
    split
    · rfl
    · rfl
  have htokenId : ∀ row : WorkerEnrollmentToken,
      (if row.tokenId = record.tokenId then row.consumed readings.now else row).tokenId =
        row.tokenId := fun row => congrArg (fun row => row.tokenId) (hcreation row)
  refine ⟨?_, ?_, ?_, ?_, ?_⟩
  · intro row' hrow'
    obtain ⟨row, hrow, rfl⟩ := List.mem_map.mp hrow'
    rw [hcreation]
    exact h.issued row hrow
  · intro created hcreated
    obtain ⟨row, hrow, hsame⟩ := h.kept created hcreated
    exact ⟨_, List.mem_map_of_mem hrow, (hcreation row).trans hsame⟩
  · intro row' hrow'
    obtain ⟨row, hrow, rfl⟩ := List.mem_map.mp hrow'
    rw [htokenId]
    change _ ↔ ∃ registration ∈ (payload, readings) :: registeredWorkers history, _
    simp only [List.mem_cons, or_and_right, exists_or, exists_eq_left]
    rw [← h.consumed_iff row hrow]
    by_cases hsame : row.tokenId = record.tokenId
    · have hnew : RegisteredWorker.tokenId (payload, readings) = some row.tokenId :=
        hsame ▸ hlookup
      simp [hsame, WorkerEnrollmentToken.consumed, hnew]
    · have hother : RegisteredWorker.tokenId (payload, readings) ≠ some row.tokenId := by
        intro hequal
        exact hsame (Option.some.inj (hequal.symm.trans hlookup))
      simp [hsame, hother]
  · intro registration hregistration
    rcases List.mem_cons.mp hregistration with rfl | hold
    · refine ⟨_, List.mem_map_of_mem hrecord, ?_, ?_, ?_⟩
      · exact hlookup.trans (congrArg some (htokenId record).symm)
      · rw [if_pos rfl]
        exact hunexpired
      · rw [if_pos rfl]
        exact hverified
    · obtain ⟨row, hrow, hid, hbefore, hverify⟩ := h.known registration hold
      refine ⟨_, List.mem_map_of_mem hrow, hid.trans (congrArg some (htokenId row).symm), ?_, ?_⟩
      · have hexpires := congrArg (fun row => row.expiresAt) (hcreation row)
        exact hexpires ▸ hbefore
      · have hhash := congrArg (fun row => row.secretHash) (hcreation row)
        exact hhash ▸ hverify
  · change (registrationTokenId payload.enrollmentToken ::
      (registeredWorkers history).map RegisteredWorker.tokenId).Nodup
    rw [List.nodup_cons]
    refine ⟨?_, h.once⟩
    intro hmem
    obtain ⟨registration, hregistration, hid⟩ := List.mem_map.mp hmem
    have hconsumed := (h.consumed_iff record hrecord).mpr
      ⟨registration, hregistration, hid.trans hlookup⟩
    rw [hopen] at hconsumed
    cases hconsumed

theorem step (h : EnrollmentsIssued service history tokens)
    (hchange : EnrollmentsChange service tokens e tokens') :
    EnrollmentsIssued service (e :: history) tokens' := by
  cases hchange with
  | kept hcreated hregistration =>
      have hcreations : createdEnrollments (e :: history) = createdEnrollments history :=
        List.filterMap_cons_none hcreated
      have hregistrations : registeredWorkers (e :: history) = registeredWorkers history :=
        List.filterMap_cons_none hregistration
      refine ⟨?_, ?_, ?_, ?_, ?_⟩
      · rw [hcreations]
        exact h.issued
      · rw [hcreations]
        exact h.kept
      · rw [hregistrations]
        exact h.consumed_iff
      · rw [hregistrations]
        exact h.known
      · rw [hregistrations]
        exact h.once
  | created hunused => exact h.created hunused
  | registered hrecord hlookup hconsumable => exact h.registered hrecord hlookup hconsumable

end EnrollmentsIssued

theorem GatewayRun.enrollmentsIssued {services : GatewayServices} {history : List GatewayEvent}
    {s : GatewayState} (hrun : GatewayRun services history s) :
    EnrollmentsIssued services.registration.enrollment history
      s.db.enrollmentTokens.rows := by
  apply Run.history_invariant (I := fun history (s : GatewayState) =>
    EnrollmentsIssued services.registration.enrollment history s.db.enrollmentTokens.rows) hrun
  · exact .of_empty
  · intro history s e s' _ ih hstep
    exact ih.step hstep.enrollments

theorem WorkersChange.ids {service : WorkerJWTService}
    {serving : List (Worker × WorkerRequest)} {rows rows' : List WorkerCredentials}
    {e : GatewayEvent} (h : WorkersChange service serving rows e rows') :
    rows'.map WorkerCredentials.id = rows.map WorkerCredentials.id ++
      e.registration.toList.map fun registration => registration.2.workerId := by
  cases h with
  | kept hissued hrevoked =>
      have hnone : e.registration = none := by
        cases e with
        | acted action answer =>
            cases answer with
            | registered response => cases hissued
            | _ => rfl
        | _ => rfl
      rw [hnone]
      simp
  | registered htoken hunused => rw [List.map_append]; rfl
  | renewed hworker =>
      refine Eq.trans ?_ (List.append_nil _).symm
      rw [List.map_map]
      apply List.map_congr_left
      intro row _
      simp only [Function.comp_apply]
      split
      · rfl
      · rfl
  | revoked hknown =>
      refine Eq.trans ?_ (List.append_nil _).symm
      rw [List.map_map]
      apply List.map_congr_left
      intro row _
      simp only [Function.comp_apply]
      split
      · rfl
      · rfl

theorem GatewayRun.workers_registered {services : GatewayServices}
    {history : List GatewayEvent} {s : GatewayState} (hrun : GatewayRun services history s) :
    s.db.workers.rows.map Worker.id =
      ((registeredWorkers history).map fun registration => registration.2.workerId).reverse := by
  have hids : ∀ db : Db, db.workers.rows.map Worker.id =
      db.workerCredentials.map WorkerCredentials.id := by
    intro db
    rw [Db.workerCredentials, List.map_map]
    rfl
  apply Run.history_invariant (I := fun history (s : GatewayState) =>
    s.db.workers.rows.map Worker.id =
      ((registeredWorkers history).map fun registration => registration.2.workerId).reverse) hrun
  · rfl
  · intro history s e s' _ ih hstep
    rw [hids] at ih ⊢
    rw [hstep.workerCredentials.ids, ih]
    cases hregistration : e.registration with
    | none =>
        have hsame : registeredWorkers (e :: history) = registeredWorkers history :=
          List.filterMap_cons_none hregistration
        rw [hsame]
        exact List.append_nil _
    | some registration =>
        have hadded :
            registeredWorkers (e :: history) = registration :: registeredWorkers history :=
          List.filterMap_cons_some hregistration
        rw [hadded, List.map_cons, List.reverse_cons]
        rfl

/-! ## Enrollment -/

section Registering

variable {services : RegistrationServices} {db : EnrollmentDb} {payload : WorkerRegisterRequest}
  {readings : RegistrationReadings}

/-- A registration under a fresh id goes through exactly if the looked-up row is
consumable. -/
theorem exists_registerWorker_iff {record : WorkerEnrollmentToken}
    (hrecord : record ∈ db.enrollmentTokens.rows)
    (hlookup : registrationTokenId payload.enrollmentToken = some record.tokenId)
    (hfresh : ∀ worker ∈ db.workers.rows, worker.id ≠ readings.workerId) :
    (∃ response db', registerWorker services db payload readings = .ok (response, db')) ↔
      record.isConsumableBy services.enrollment payload.enrollmentToken readings.now =
        true := by
  have hfind : db.enrollmentTokens.find record.tokenId = some record :=
    Table.find_eq_some_iff.mpr ⟨hrecord, rfl⟩
  have hexists : ∃ workers, db.workers.insert
      ((newWorker payload readings.workerId readings.now).renewed
        (services.jwt.issue readings.workerId readings.jti readings.issuedAt).jti) =
          some workers := Table.exists_insert hfresh
  obtain ⟨workers, hinsert⟩ := hexists
  unfold registerWorker
  simp only [hlookup, hfind, hinsert]
  by_cases hconsumable : record.isConsumableBy services.enrollment payload.enrollmentToken
      readings.now = true
  · simp [hconsumable]
  · simp [hconsumable]

theorem registered_iff {services : GatewayServices} {s : GatewayState} :
    (∃ response s', act services s (.register payload readings) =
      (.registered response, s')) ↔
        ∃ response db', registerWorker services.registration s.db.enrollment payload readings =
          .ok (response, db') := by
  simp only [act]
  cases registerWorker services.registration s.db.enrollment payload readings with
  | error failure => simp
  | ok answer => exact ⟨fun _ => ⟨answer.1, answer.2, rfl⟩, fun _ => ⟨_, _, rfl⟩⟩

end Registering

/-- Who has been enrolled in a state, and which tokens enroll. -/
structure WorkersEnrolled (services : GatewayServices) (history : List GatewayEvent)
    (s : GatewayState) : Prop where
  workers : s.db.workers.rows.map Worker.id =
    ((registeredWorkers history).map fun registration => registration.2.workerId).reverse
  once : ((registeredWorkers history).map RegisteredWorker.tokenId).Nodup
  enrolled : ∀ registration ∈ registeredWorkers history, ∃ created ∈ createdEnrollments history,
    ∃ secret, registration.1.enrollmentToken =
        renderEnrollmentToken created.2.tokenId secret ∧
      registration.2.now < created.expiresAt ∧
      services.registration.enrollment.verify
        (created.generated services.registration.enrollment).secretHash
        (secret ++ ":" ++ services.registration.enrollment.pepper) = true
  enrolls_iff : ∀ created ∈ createdEnrollments history,
    (∀ text, services.registration.enrollment.verify (created.2.hash text) text = true) →
      ∀ (payload : WorkerRegisterRequest) (readings : RegistrationReadings),
        payload.enrollmentToken =
            (created.generated services.registration.enrollment).rawToken →
          (∀ worker ∈ s.db.workers.rows, worker.id ≠ readings.workerId) →
            ((∃ response s', act services s (.register payload readings) =
                (.registered response, s')) ↔
              (∀ registration ∈ registeredWorkers history,
                registration.tokenId ≠ some created.2.tokenId) ∧
              readings.now < created.expiresAt)

theorem CreatedEnrollment.split_rawToken (service : WorkerEnrollmentService)
    (created : CreatedEnrollment) :
    ∃ secret, splitEnrollmentToken (created.generated service).rawToken =
        some (created.2.tokenId, secret) ∧
      (created.generated service).secretHash =
        created.2.hash (secret ++ ":" ++ service.pepper) :=
  ⟨_, splitEnrollmentToken_render (Urlsafe.tokenUrlsafe created.2.idBytes)
    (Urlsafe.tokenUrlsafe created.2.secretBytes), rfl⟩

/-- In every state of every run, each worker has been registered with a token of its own that
an administrator created, and a created token registers a worker exactly until it has
registered one or has expired. -/
theorem workers_enrolled_once {services : GatewayServices} {history : List GatewayEvent}
    {s : GatewayState} (hrun : GatewayRun services history s) :
    WorkersEnrolled services history s where
  workers := hrun.workers_registered
  once := hrun.enrollmentsIssued.once
  enrolled := by
    intro registration hregistration
    have hissued := hrun.enrollmentsIssued
    obtain ⟨record, hrecord, hid, hbefore, hverified⟩ := hissued.known registration hregistration
    obtain ⟨created, hcreated, hsame⟩ := hissued.issued record hrecord
    obtain ⟨tokenId, hparsed⟩ := Option.isSome_iff_exists.mp hverified
    obtain ⟨secret, hsplit, hverify⟩ :=
      WorkerEnrollmentService.parseAndVerify_eq_some_iff.mp hparsed
    have htokenId : tokenId = created.2.tokenId := by
      have hsplitId : registration.tokenId = some tokenId := by
        rw [RegisteredWorker.tokenId, registrationTokenId_eq, hsplit]
        rfl
      have hrecordId : record.tokenId = created.2.tokenId :=
        congrArg WorkerEnrollmentToken.tokenId hsame
      exact (Option.some.inj (hsplitId.symm.trans hid)).trans hrecordId
    refine ⟨created, hcreated, secret, ?_, ?_, ?_⟩
    · rw [← htokenId]
      exact (splitEnrollmentToken_eq_some_iff.mp hsplit).1
    · have hexpires : record.expiresAt = created.expiresAt :=
        congrArg WorkerEnrollmentToken.expiresAt hsame
      rw [← hexpires]
      exact hbefore
    · have hhash : record.secretHash =
          (created.generated services.registration.enrollment).secretHash :=
        congrArg WorkerEnrollmentToken.secretHash hsame
      rw [← hhash]
      exact hverify
  enrolls_iff := by
    intro created hcreated hhash payload readings htoken hfresh
    have hissued := hrun.enrollmentsIssued
    obtain ⟨record, hrecord, hsame⟩ := hissued.kept created hcreated
    obtain ⟨secret, hsplit, hsecretHash⟩ :=
      created.split_rawToken services.registration.enrollment
    have hid : record.tokenId = created.2.tokenId :=
      congrArg WorkerEnrollmentToken.tokenId hsame
    have hlookup : registrationTokenId payload.enrollmentToken = some record.tokenId := by
      rw [htoken, registrationTokenId_eq, hsplit, hid]
      rfl
    have hverified : (services.registration.enrollment.parseAndVerify payload.enrollmentToken
        record.secretHash).isSome = true := by
      have hstored : record.secretHash =
          (created.generated services.registration.enrollment).secretHash :=
        congrArg WorkerEnrollmentToken.secretHash hsame
      rw [Option.isSome_iff_exists]
      refine ⟨created.2.tokenId, ?_⟩
      rw [WorkerEnrollmentService.parseAndVerify_eq_some_iff, htoken, hstored, hsecretHash]
      exact ⟨secret, hsplit, hhash _⟩
    have hexpires : record.expiresAt = created.expiresAt :=
      congrArg WorkerEnrollmentToken.expiresAt hsame
    have hopen : record.consumedAt = none ↔ ∀ registration ∈ registeredWorkers history,
        registration.tokenId ≠ some created.2.tokenId := by
      rw [← Option.not_isSome_iff_eq_none, hissued.consumed_iff record hrecord, hid]
      push Not
      rfl
    rw [registered_iff, exists_registerWorker_iff hrecord hlookup hfresh, ← hopen,
      ← hexpires]
    simp only [WorkerEnrollmentToken.isConsumableBy, hverified, Bool.and_true, Bool.and_eq_true,
      Bool.not_eq_true', decide_eq_false_iff_not, not_le, Option.isNone_iff_eq_none]

theorem workers_enrolled_once_setUp :
    WorkersEnrolled GatewaySample.services
      (runActions GatewaySample.services .initial GatewaySample.setUp).1
      (runActions GatewaySample.services .initial GatewaySample.setUp).2 :=
  workers_enrolled_once (run_runActions GatewaySample.services GatewaySample.setUp)

end OrbiGateway
