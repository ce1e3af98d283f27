import OrbiGateway.Concurrency.WorkerRevocation
import OrbiGateway.Library.RowLocks
import OrbiGateway.Routes.Registration

/-!
# Concurrent registrations

A registration locks its token row, reads the clock and checks the row, inserts its
worker, issues the JWT and commits.  Any number of them may present one token; each
may fail between any two of its statements, which rolls back what it has written.
Tokens are created and workers are served and revoked in between.
-/

namespace OrbiGateway

open Relational Transition

/-! ## Transactions -/

/-- What a registration has read and written: the token row that it has locked, its
clock and the worker that it has inserted. -/
structure Enrollment where
  record : WorkerEnrollmentToken
  now : Timestamp
  worker : Worker

/-- How far a registration has come. -/
inductive EnrollmentPhase
  | idle
  | locked (payload : WorkerRegisterRequest) (record : WorkerEnrollmentToken)
  | inserted (enrollment : Enrollment)
  | issued (enrollment : Enrollment)
  | ended

namespace EnrollmentPhase

/-- The registration that has passed its checks and not committed. -/
def enrollment : EnrollmentPhase → Option Enrollment
  | .inserted enrollment => some enrollment
  | .issued enrollment => some enrollment
  | _ => none

/-- The token row that the transaction has locked. -/
def record : EnrollmentPhase → Option WorkerEnrollmentToken
  | .locked _ record => some record
  | .inserted enrollment => some enrollment.record
  | .issued enrollment => some enrollment.record
  | _ => none

def tokenLock (phase : EnrollmentPhase) : Option String :=
  phase.record.map (·.tokenId)

theorem tokenLock_eq_some_iff {phase : EnrollmentPhase} {tokenId : String} :
    phase.tokenLock = some tokenId ↔
      ∃ record, phase.record = some record ∧ record.tokenId = tokenId :=
  Option.map_eq_some_iff

theorem record_of_enrollment {phase : EnrollmentPhase} {enrollment : Enrollment}
    (h : phase.enrollment = some enrollment) : phase.record = some enrollment.record := by
  cases phase with
  | inserted enrollment' => cases h; rfl
  | issued enrollment' => cases h; rfl
  | _ => cases h

end EnrollmentPhase

/-- The committed rows and the transactions. -/
structure EnrollmentState (τ : Type*) where
  db : EnrollmentDb
  calls : τ → EnrollmentPhase

/-- A committed registration. -/
structure Registration where
  tokenId : String
  now : Timestamp
  worker : Worker

/-- What the commit of a registration announces. -/
def Enrollment.registration (enrollment : Enrollment) : Registration where
  tokenId := enrollment.record.tokenId
  now := enrollment.now
  worker := enrollment.worker

/-- The registration uses an unconsumed token before it expires, by the clock that its
worker records. -/
def Registration.Consumes (registration : Registration) (record : WorkerEnrollmentToken) :
    Prop :=
  record.consumedAt = none ∧ registration.now < record.expiresAt ∧
    registration.worker.lastHeartbeat = some registration.now

inductive EnrollmentEvent (τ : Type*)
  | locked (t : τ) (tokenId : String)
  | inserted (t : τ)
  | issued (t : τ) (claims : WorkerClaims)
  | registered (t : τ) (registration : Registration)
  | stopped (t : τ)
  | created (record : WorkerEnrollmentToken)
  | served (call : WorkerCall)
  | revoked (workerId : UUID)
  | performed (op : Op)

namespace EnrollmentEvent

variable {τ : Type*}

/-- The transaction that makes the step. -/
def caller : EnrollmentEvent τ → Option τ
  | .locked t _ => some t
  | .inserted t => some t
  | .issued t _ => some t
  | .registered t _ => some t
  | .stopped t => some t
  | _ => none

def registration : EnrollmentEvent τ → Option Registration
  | .registered _ registration => some registration
  | _ => none

end EnrollmentEvent

section Registrations

variable {τ : Type*}

/-- The registrations that a history commits, last first. -/
def registrations (history : List (EnrollmentEvent τ)) : List Registration :=
  history.filterMap EnrollmentEvent.registration

/-- Those that consume the token. -/
def registrationsOf (tokenId : String) (history : List (EnrollmentEvent τ)) :
    List Registration :=
  (registrations history).filter fun registration => registration.tokenId == tokenId

theorem registrations_cons (e : EnrollmentEvent τ) (history : List (EnrollmentEvent τ)) :
    registrations (e :: history) = e.registration.toList ++ registrations history := by
  unfold registrations
  cases hregistration : e.registration with
  | none => simp [hregistration]
  | some registration => simp [hregistration]

theorem registrationsOf_cons_of_ne {e : EnrollmentEvent τ}
    {history : List (EnrollmentEvent τ)} {tokenId : String}
    (hother : ∀ registration, e.registration = some registration →
      registration.tokenId ≠ tokenId) :
    registrationsOf tokenId (e :: history) = registrationsOf tokenId history := by
  unfold registrationsOf
  rw [registrations_cons]
  cases hregistration : e.registration with
  | none => rfl
  | some registration =>
      simp [hother registration hregistration]

theorem registrationsOf_cons_self {e : EnrollmentEvent τ}
    {history : List (EnrollmentEvent τ)} {registration : Registration}
    (hregistration : e.registration = some registration) :
    registrationsOf registration.tokenId (e :: history) =
      registration :: registrationsOf registration.tokenId history := by
  unfold registrationsOf
  rw [registrations_cons, hregistration]
  simp

end Registrations

/-! ## Steps -/

section Steps

variable {τ : Type*}

def EnrollmentState.start (db : EnrollmentDb) : EnrollmentState τ where
  db := db
  calls _ := .idle

variable [DecidableEq τ]

/-- Transaction `t` moves on and leaves the committed rows alone. -/
def EnrollmentState.move (s : EnrollmentState τ) (t : τ) (phase : EnrollmentPhase) :
    EnrollmentState τ :=
  { s with calls := Function.update s.calls t phase }

/-- One step of a registration or of the rest of the gateway.  A registration that
raises, is refused or loses its connection stops and rolls back. -/
inductive EnrollmentStep (services : RegistrationServices) :
    EnrollmentState τ → EnrollmentEvent τ → EnrollmentState τ → Prop
  | locked {s : EnrollmentState τ} {t : τ} {payload : WorkerRegisterRequest}
      {tokenId secret : String} {record : WorkerEnrollmentToken}
      (hidle : s.calls t = .idle)
      (hsplit : splitEnrollmentToken payload.enrollmentToken = some (tokenId, secret))
      (hfind : s.db.enrollmentTokens.find tokenId = some record)
      (hfree : ∀ u, (s.calls u).tokenLock ≠ some tokenId) :
      EnrollmentStep services s (.locked t tokenId) (s.move t (.locked payload record))
  | inserted {s : EnrollmentState τ} {t : τ} {payload : WorkerRegisterRequest}
      {record : WorkerEnrollmentToken} {now : Timestamp} {workerId : UUID}
      (hphase : s.calls t = .locked payload record)
      (hconsumable : record.isConsumableBy services.enrollment payload.enrollmentToken
        now = true)
      (hfresh : ∀ row ∈ s.db.workers.rows, row.id ≠ workerId) :
      EnrollmentStep services s (.inserted t)
        (s.move t (.inserted ⟨record, now, newWorker payload workerId now⟩))
  | issued {s : EnrollmentState τ} {t : τ} {enrollment : Enrollment}
      {claims : WorkerClaims} {jti : String} {issuedAt : Timestamp}
      (hphase : s.calls t = .inserted enrollment)
      (hissue : claims = services.jwt.issue enrollment.worker.id jti issuedAt) :
      EnrollmentStep services s (.issued t claims)
        (s.move t (.issued { enrollment with
          worker := enrollment.worker.renewed claims.jti }))
  | registered {s : EnrollmentState τ} {t : τ} {enrollment : Enrollment}
      {workers : Table Worker} (hphase : s.calls t = .issued enrollment)
      (hinsert : s.db.workers.insert enrollment.worker = some workers) :
      EnrollmentStep services s
        (.registered t enrollment.registration)
        { db := { s.db with
            workers := workers
            enrollmentTokens := s.db.enrollmentTokens.put
              (enrollment.record.consumed enrollment.now) }
          calls := Function.update s.calls t .ended }
  | stopped {s : EnrollmentState τ} {t : τ} :
      EnrollmentStep services s (.stopped t) (s.move t .ended)
  | created {s : EnrollmentState τ} {record : WorkerEnrollmentToken}
      {tokens : Table WorkerEnrollmentToken} (hunconsumed : record.consumedAt = none)
      (hinsert : s.db.enrollmentTokens.insert record = some tokens) :
      EnrollmentStep services s (.created record)
        { s with db := { s.db with enrollmentTokens := tokens } }
  | served {s : EnrollmentState τ} {call : WorkerCall} {loaded : Worker}
      {reply : WorkerReply} {db : Db}
      (hrun : call.run s.db.toDb loaded = .ok (reply, db)) :
      EnrollmentStep services s (.served call) { s with db := { s.db with toDb := db } }
  | revoked {s : EnrollmentState τ} {workerId : UUID} {now : Timestamp} {db : Db}
      (hrevoke : revokeWorker s.db.toDb workerId now = .ok db) :
      EnrollmentStep services s (.revoked workerId)
        { s with db := { s.db with toDb := db } }
  | performed {s : EnrollmentState τ} {op : Op} {reply : Reply} {db : Db}
      (hexec : exec s.db.toDb op = .ok (reply, db)) :
      EnrollmentStep services s (.performed op) { s with db := { s.db with toDb := db } }

/-- A run of registrations and of the rest of the gateway, interleaved in any way. -/
abbrev EnrollmentRun (services : RegistrationServices) (db : EnrollmentDb)
    (history : List (EnrollmentEvent τ)) (s : EnrollmentState τ) : Prop :=
  Run (EnrollmentStep services) (.start db) history s

end Steps

/-! ## Worker ids -/

section WorkerIds

variable {db db' : Db}

/-- The ids of the committed workers, in the order of their registration. -/
def workerIds (db : Db) : List UUID :=
  db.workers.rows.map (·.id)

theorem workerIds_of_workers_eq (hsame : db'.workers = db.workers) :
    workerIds db' = workerIds db := by
  rw [workerIds, hsame, workerIds]

theorem workerIds_flushWorker (db : Db) (loaded new : Worker) :
    workerIds (flushWorker db loaded new) = workerIds db :=
  Table.keys_map_set db.workers.rows _

theorem workerIds_run {loaded : Worker} {call : WorkerCall} {reply : WorkerReply}
    (hrun : call.run db loaded = .ok (reply, db')) : workerIds db' = workerIds db := by
  cases hupdates : call.updatesWorker with
  | false => exact workerIds_of_workers_eq (run_workers hrun hupdates)
  | true =>
      cases call with
      | heartbeat payload now =>
          cases hrun
          exact workerIds_flushWorker _ _ _
      | renew jti =>
          cases hrun
          exact workerIds_flushWorker _ _ _
      | _ => cases hupdates

theorem workerIds_revokeWorker {workerId : UUID} {now : Timestamp}
    (hrevoke : revokeWorker db workerId now = .ok db') : workerIds db' = workerIds db := by
  unfold revokeWorker at hrevoke
  split at hrevoke
  · cases hrevoke
  · cases hrevoke
    exact workerIds_flushWorker _ _ _

end WorkerIds

/-! ## What a step can do -/

section Frames

variable {τ : Type*} [DecidableEq τ] {services : RegistrationServices}
  {s s' : EnrollmentState τ} {e : EnrollmentEvent τ}

theorem EnrollmentStep.calls_of_ne (h : EnrollmentStep services s e s') {u : τ}
    (hu : e.caller ≠ some u) : s'.calls u = s.calls u := by
  have hmove : ∀ {t : τ} {phase : EnrollmentPhase}, some t ≠ some u →
      Function.update s.calls t phase u = s.calls u := by
    intro t phase htu
    apply Function.update_of_ne
    rintro rfl
    exact htu rfl
  cases h with
  | created hunconsumed hinsert => rfl
  | served hrun => rfl
  | revoked hrevoke => rfl
  | performed hexec => rfl
  | _ => exact hmove hu

/-- Only a committed registration adds a worker, and it adds one. -/
theorem EnrollmentStep.workerIds_eq (h : EnrollmentStep services s e s') :
    workerIds s'.db.toDb =
      workerIds s.db.toDb ++ (e.registration.map (·.worker.id)).toList := by
  have hsame : workerIds s'.db.toDb = workerIds s.db.toDb → e.registration = none →
      workerIds s'.db.toDb =
        workerIds s.db.toDb ++ (e.registration.map (·.worker.id)).toList := by
    intro heq hnone
    simp [heq, hnone]
  cases h with
  | @registered t enrollment workers hphase hinsert =>
      have hrows := (Table.insert_eq_some_iff.mp hinsert).2
      simp only [workerIds, hrows, List.map_append, List.map_singleton,
        EnrollmentEvent.registration, Enrollment.registration, Option.map_some,
        Option.toList_some]
  | served hrun => exact hsame (workerIds_run hrun) rfl
  | revoked hrevoke => exact hsame (workerIds_revokeWorker hrevoke) rfl
  | performed hexec => exact hsame (workerIds_of_workers_eq (exec_frame hexec).1) rfl
  | _ => exact hsame rfl rfl

theorem EnrollmentStep.record_cases (h : EnrollmentStep services s e s') {t : τ}
    {record : WorkerEnrollmentToken} (hrecord : (s'.calls t).record = some record) :
    (s.calls t).record = some record ∨
      (e.caller = some t ∧
        s.db.enrollmentTokens.find record.tokenId = some record ∧
        ∀ u, (s.calls u).tokenLock ≠ some record.tokenId) := by
  by_cases hcaller : e.caller = some t
  · cases h with
    | locked hidle hsplit hfind hfree =>
        cases hcaller
        simp only [EnrollmentState.move, Function.update_self] at hrecord
        cases hrecord
        have hid := Table.key_of_find hfind
        rw [key_enrollmentToken] at hid
        subst hid
        exact Or.inr ⟨rfl, hfind, hfree⟩
    | inserted hphase | issued hphase =>
        cases hcaller
        simp only [EnrollmentState.move, Function.update_self] at hrecord
        exact Or.inl (by rw [hphase]; exact hrecord)
    | registered hphase hinsert =>
        cases hcaller
        simp only [Function.update_self] at hrecord
        cases hrecord
    | stopped =>
        cases hcaller
        simp only [EnrollmentState.move, Function.update_self] at hrecord
        cases hrecord
    | _ => cases hcaller
  · rw [h.calls_of_ne hcaller] at hrecord
    exact Or.inl hrecord

theorem EnrollmentStep.tokenLock_cases (h : EnrollmentStep services s e s') {t : τ}
    {tokenId : String} (hlock : (s'.calls t).tokenLock = some tokenId) :
    (s.calls t).tokenLock = some tokenId ∨
      (e.caller = some t ∧ ∀ u, (s.calls u).tokenLock ≠ some tokenId) := by
  obtain ⟨record, hrecord, rfl⟩ := EnrollmentPhase.tokenLock_eq_some_iff.mp hlock
  rcases h.record_cases hrecord with hold | ⟨hcaller, -, hfree⟩
  · exact Or.inl (EnrollmentPhase.tokenLock_eq_some_iff.mpr ⟨record, hold, rfl⟩)
  · exact Or.inr ⟨hcaller, hfree⟩

theorem EnrollmentStep.enrollment_cases (h : EnrollmentStep services s e s') {t : τ}
    {enrollment : Enrollment} (henrollment : (s'.calls t).enrollment = some enrollment) :
    (∃ enrollment' jti, (s.calls t).enrollment = some enrollment' ∧
      enrollment = { enrollment' with worker := enrollment'.worker.renewed jti }) ∨
    (s.calls t).enrollment = some enrollment ∨
    enrollment.registration.Consumes enrollment.record := by
  by_cases hcaller : e.caller = some t
  · cases h with
    | inserted hphase hconsumable hfresh =>
        cases hcaller
        simp only [EnrollmentState.move, Function.update_self] at henrollment
        cases henrollment
        obtain ⟨hunconsumed, hunexpired⟩ :=
          WorkerEnrollmentToken.isConsumableBy_spec hconsumable
        exact Or.inr (Or.inr ⟨hunconsumed, hunexpired, rfl⟩)
    | @issued _ enrollment' _ _ _ hphase hissue =>
        cases hcaller
        simp only [EnrollmentState.move, Function.update_self] at henrollment
        cases henrollment
        exact Or.inl ⟨enrollment', _, by rw [hphase]; rfl, rfl⟩
    | locked hidle hsplit hfind hfree =>
        cases hcaller
        simp only [EnrollmentState.move, Function.update_self] at henrollment
        cases henrollment
    | registered hphase hinsert =>
        cases hcaller
        simp only [Function.update_self] at henrollment
        cases henrollment
    | stopped =>
        cases hcaller
        simp only [EnrollmentState.move, Function.update_self] at henrollment
        cases henrollment
    | _ => cases hcaller
  · rw [h.calls_of_ne hcaller] at henrollment
    exact Or.inr (Or.inl henrollment)

theorem EnrollmentStep.registered_spec (h : EnrollmentStep services s e s')
    {registration : Registration} (hregistration : e.registration = some registration) :
    ∃ t enrollment, (s.calls t).enrollment = some enrollment ∧ s'.calls t = .ended ∧
      registration = enrollment.registration ∧
      s'.db.enrollmentTokens =
        s.db.enrollmentTokens.put (enrollment.record.consumed enrollment.now) := by
  cases h with
  | @registered t enrollment workers hphase hinsert =>
      cases hregistration
      refine ⟨t, enrollment, by rw [hphase]; rfl, ?_, rfl, rfl⟩
      exact Function.update_self _ _ _
  | _ => cases hregistration

/-- A token row stays as it is, unless the step commits a registration with it. -/
theorem EnrollmentStep.find_token (h : EnrollmentStep services s e s') {tokenId : String}
    {record : WorkerEnrollmentToken}
    (hfind : s.db.enrollmentTokens.find tokenId = some record)
    (hother : ∀ registration, e.registration = some registration →
      registration.tokenId ≠ tokenId) :
    s'.db.enrollmentTokens.find tokenId = some record := by
  cases h with
  | registered hphase hinsert =>
      have hid := hother _ rfl
      exact (Table.find_put_of_ne _ hid).trans hfind
  | created hunconsumed hinsert => exact Table.find_of_insert hinsert hfind
  | _ => exact hfind

end Frames

/-! ## Registrations in progress -/

section Runs

variable {τ : Type*}

/-- A registration holds its token row alone, has read the committed version of it, and
has checked what it is about to commit. -/
structure Enrolling (s : EnrollmentState τ) : Prop where
  exclusive : RowLocks.Exclusive fun t => (s.calls t).tokenLock
  current : ∀ t record, (s.calls t).record = some record →
    s.db.enrollmentTokens.find record.tokenId = some record
  checked : ∀ t enrollment, (s.calls t).enrollment = some enrollment →
    enrollment.registration.Consumes enrollment.record

variable [DecidableEq τ] {services : RegistrationServices} {db : EnrollmentDb}
  {history : List (EnrollmentEvent τ)} {s s' : EnrollmentState τ} {e : EnrollmentEvent τ}

theorem Enrolling.step (h : Enrolling s) (hstep : EnrollmentStep services s e s') :
    Enrolling s' := by
  refine ⟨?_, ?_, ?_⟩
  · exact RowLocks.Exclusive.step h.exclusive hstep.tokenLock_cases
  · intro t record hrecord
    have hfind : s.db.enrollmentTokens.find record.tokenId = some record := by
      rcases hstep.record_cases hrecord with hold | ⟨-, hfind, -⟩
      · exact h.current t record hold
      · exact hfind
    apply hstep.find_token hfind
    rintro registration hregistration htoken
    obtain ⟨u, enrollment, henrollment, hended, rfl, -⟩ :=
      hstep.registered_spec hregistration
    have hlock : (s.calls u).tokenLock = some record.tokenId :=
      EnrollmentPhase.tokenLock_eq_some_iff.mpr
        ⟨_, EnrollmentPhase.record_of_enrollment henrollment, htoken⟩
    rcases hstep.record_cases hrecord with hold | ⟨-, -, hfree⟩
    · have hlock' : (s.calls t).tokenLock = some record.tokenId :=
        EnrollmentPhase.tokenLock_eq_some_iff.mpr ⟨record, hold, rfl⟩
      rw [h.exclusive t u record.tokenId hlock' hlock, hended] at hrecord
      cases hrecord
    · exact hfree u hlock
  · intro t enrollment henrollment
    rcases hstep.enrollment_cases henrollment with
      ⟨enrollment', jti, hold, rfl⟩ | hold | hchecked
    · exact h.checked t enrollment' hold
    · exact h.checked t enrollment hold
    · exact hchecked

theorem enrolling_of_run (hrun : EnrollmentRun services db history s) : Enrolling s := by
  apply Run.invariant (I := Enrolling) hrun
  · refine ⟨?_, ?_, ?_⟩
    · intro t u tokenId hlock
      cases hlock
    · intro t record hrecord
      cases hrecord
    · intro t enrollment henrollment
      cases henrollment
  · intro s e s' h hstep
    exact h.step hstep

/-! ## What has been registered -/

/-- The token has not been used and its row is the one of the start, or it has been
used once and its row, unconsumed and unexpired until then, says so. -/
def EnrollmentOutcome (db : EnrollmentDb) (tokenId : String)
    (history : List (EnrollmentEvent τ)) (s : EnrollmentState τ) : Prop :=
  (registrationsOf tokenId history = [] ∧
    ∀ record, db.enrollmentTokens.find tokenId = some record →
      s.db.enrollmentTokens.find tokenId = some record) ∨
  ∃ registration record, registrationsOf tokenId history = [registration] ∧
    registration.Consumes record ∧
    (∀ original, db.enrollmentTokens.find tokenId = some original → original = record) ∧
    s.db.enrollmentTokens.find tokenId = some (record.consumed registration.now)

theorem EnrollmentOutcome.step {tokenId : String}
    (h : EnrollmentOutcome db tokenId history s) (henrolling : Enrolling s)
    (hstep : EnrollmentStep services s e s') :
    EnrollmentOutcome db tokenId (e :: history) s' := by
  by_cases hother : ∀ registration, e.registration = some registration →
      registration.tokenId ≠ tokenId
  · unfold EnrollmentOutcome
    rw [registrationsOf_cons_of_ne hother]
    rcases h with ⟨hnone, hkept⟩ | ⟨registration, record, hone, hconsumes, hstart, hfind⟩
    · refine Or.inl ⟨hnone, ?_⟩
      intro record hrecord
      exact hstep.find_token (hkept record hrecord) hother
    · exact Or.inr ⟨registration, record, hone, hconsumes, hstart,
        hstep.find_token hfind hother⟩
  · push Not at hother
    obtain ⟨registration, hregistration, rfl⟩ := hother
    obtain ⟨t, enrollment, henrollment, -, rfl, htokens⟩ :=
      hstep.registered_spec hregistration
    have hconsumes := henrolling.checked t enrollment henrollment
    have hfind : s.db.enrollmentTokens.find enrollment.record.tokenId =
        some enrollment.record :=
      henrolling.current t _ (EnrollmentPhase.record_of_enrollment henrollment)
    rcases h with ⟨hnone, hkept⟩ | ⟨registration, record, -, -, -, hfind'⟩
    · refine Or.inr ⟨enrollment.registration, enrollment.record, ?_, hconsumes, ?_, ?_⟩
      · exact (registrationsOf_cons_self hregistration).trans (congrArg _ hnone)
      · intro original horiginal
        have hsame := hkept original horiginal
        exact Option.some.inj (hsame.symm.trans hfind)
      · have hkey : HasKey.key (enrollment.record.consumed enrollment.now) =
            enrollment.record.tokenId := rfl
        change s'.db.enrollmentTokens.find enrollment.record.tokenId =
          some (enrollment.record.consumed enrollment.now)
        rw [htokens, Table.find_put, if_pos hkey, hfind, Option.map_some]
    -- the row was locked unconsumed, so no registration can have come before
    · have hunconsumed := hconsumes.1
      have hsame : record.consumed registration.now = enrollment.record :=
        Option.some.inj (hfind'.symm.trans hfind)
      rw [← hsame] at hunconsumed
      cases hunconsumed

theorem enrollmentOutcome_of_run (hrun : EnrollmentRun services db history s)
    (tokenId : String) : EnrollmentOutcome db tokenId history s := by
  apply Run.history_invariant (I := EnrollmentOutcome db tokenId) hrun
  · exact Or.inl ⟨rfl, fun _ hfind => hfind⟩
  · intro history s e s' hprev h hstep
    exact h.step (enrolling_of_run hprev) hstep

/-- The workers of a run are those of the start and those that it has registered. -/
theorem workerIds_of_run (hrun : EnrollmentRun services db history s) :
    workerIds s.db.toDb =
      workerIds db.toDb ++ (registrations history).reverse.map (·.worker.id) := by
  induction hrun with
  | start => simp [registrations, EnrollmentState.start]
  | @next history s s' e hprev hlast ih =>
      rw [hlast.workerIds_eq, ih, registrations_cons, List.append_assoc]
      cases e.registration with
      | none => simp
      | some registration => simp

end Runs

/-! ## A registration that nobody disturbs -/

section Uninterrupted

variable {τ : Type*} [DecidableEq τ] {services : RegistrationServices}

/-- It is `register_worker`. -/
theorem run_of_registerWorker {s : EnrollmentState τ} {t : τ} {db : EnrollmentDb}
    {payload : WorkerRegisterRequest} {readings : RegistrationReadings}
    {response : WorkerTokenResponse} (hidle : s.calls t = .idle)
    (hfree : ∀ u, (s.calls u).record = none)
    (hregister : registerWorker services s.db payload readings = .ok (response, db)) :
    ∃ registration, Run (EnrollmentStep services) s
      [.registered t registration, .issued t response.accessToken, .inserted t,
        .locked t registration.tokenId]
      { db := db, calls := Function.update s.calls t .ended } := by
  obtain ⟨tokenId, secret, record, workers, hsplit, hfind, hconsumable, hissue, hinsert,
    rfl⟩ := registerWorker_spec hregister
  obtain rfl : record.tokenId = tokenId := Table.key_of_find hfind
  have hfresh : ∀ row ∈ s.db.workers.rows, row.id ≠ readings.workerId :=
    (Table.insert_eq_some_iff.mp hinsert).1
  have hlocked := Run.start.next (@EnrollmentStep.locked _ _ services _ _ _ _ _ _ hidle
    hsplit hfind (fun u => by simp [EnrollmentPhase.tokenLock, hfree u]))
  have hinserted := hlocked.next
    (.inserted (Function.update_self _ _ _) hconsumable hfresh)
  have hissued := hinserted.next (.issued (Function.update_self _ _ _) hissue)
  have hregistered := hissued.next (.registered (Function.update_self _ _ _) hinsert)
  simp only [EnrollmentState.move, Function.update_idem] at hregistered
  exact ⟨_, hregistered⟩

end Uninterrupted

/-! ## One-time enrollment -/

section Main

variable {τ : Type*} [DecidableEq τ]

/-- However registrations interleave, each token is used at most once, and then before
it expires by the clock that its row and its worker record; the workers are those of the
start and one for each registration; a token that no registration has used is as it was;
and a registration that stops leaves every row as it was and its token free. -/
theorem one_time_enrollment {services : RegistrationServices} {db : EnrollmentDb}
    {history : List (EnrollmentEvent τ)} {s : EnrollmentState τ}
    (hrun : EnrollmentRun services db history s) :
    (∀ tokenId, (registrationsOf tokenId history).length ≤ 1) ∧
      (∀ registration ∈ registrations history, ∃ record,
        registration.Consumes record ∧
        (∀ original, db.enrollmentTokens.find registration.tokenId = some original →
          original = record) ∧
        s.db.enrollmentTokens.find registration.tokenId =
          some (record.consumed registration.now)) ∧
      workerIds s.db.toDb =
        workerIds db.toDb ++ (registrations history).reverse.map (·.worker.id) ∧
      (∀ tokenId record, db.enrollmentTokens.find tokenId = some record →
        registrationsOf tokenId history = [] →
          s.db.enrollmentTokens.find tokenId = some record) ∧
      (∀ e s', EnrollmentStep services s e s' → e.registration = none →
        workerIds s'.db.toDb = workerIds s.db.toDb ∧
          ∀ tokenId record, s.db.enrollmentTokens.find tokenId = some record →
            s'.db.enrollmentTokens.find tokenId = some record) ∧
      ∀ t s', EnrollmentStep services s (.stopped t) s' →
        s'.db = s.db ∧ ∀ tokenId, (s.calls t).tokenLock = some tokenId →
          ∀ u, (s'.calls u).tokenLock ≠ some tokenId := by
  refine ⟨?_, ?_, workerIds_of_run hrun, ?_, ?_, ?_⟩
  · intro tokenId
    rcases enrollmentOutcome_of_run hrun tokenId with ⟨hnone, -⟩ | ⟨_, _, hone, -⟩
    · simp [hnone]
    · simp [hone]
  · intro registration hmem
    have hof : registration ∈ registrationsOf registration.tokenId history :=
      List.mem_filter.mpr ⟨hmem, by simp⟩
    rcases enrollmentOutcome_of_run hrun registration.tokenId with
      ⟨hnone, -⟩ | ⟨registration', record, hone, hconsumes, hstart, hfind⟩
    · rw [hnone] at hof
      cases hof
    · rw [hone, List.mem_singleton] at hof
      subst hof
      exact ⟨record, hconsumes, hstart, hfind⟩
  · intro tokenId record hrecord hnone
    rcases enrollmentOutcome_of_run hrun tokenId with ⟨-, hkept⟩ | ⟨_, _, hone, -⟩
    · exact hkept record hrecord
    · rw [hnone] at hone
      cases hone
  · intro e s' hstep hnone
    refine ⟨?_, ?_⟩
    · rw [hstep.workerIds_eq, hnone, Option.map_none, Option.toList_none,
        List.append_nil]
    · intro tokenId record hfind
      apply hstep.find_token hfind
      intro registration hregistration
      rw [hnone] at hregistration
      cases hregistration
  · intro t s' hstep
    have hexclusive := (enrolling_of_run hrun).exclusive
    cases hstep with
    | stopped =>
        refine ⟨rfl, ?_⟩
        intro tokenId hlock u hlock'
        by_cases hut : u = t
        · simp only [EnrollmentState.move, hut, Function.update_self] at hlock'
          cases hlock'
        · simp only [EnrollmentState.move, Function.update_of_ne hut] at hlock'
          exact hut (hexclusive u t tokenId hlock' hlock)

end Main

namespace Sample

def enrollmentPepper : String := "orbi-node-pepper-of-32-characters"

/-- Its secret is stored as it is. -/
def enrollmentToken : WorkerEnrollmentToken where
  tokenId := "tokentoken12"
  secretHash := "abcdefghijabcdefghijabcdefghijabcdefghijabc:" ++ enrollmentPepper
  expiresAt := 100
  consumedAt := none

def enrollmentDb : EnrollmentDb where
  toDb := db
  enrollmentTokens := ⟨[enrollmentToken], List.nodup_singleton _⟩

def registration : WorkerRegisterRequest where
  enrollmentToken := "orbi_node_v1_tokentoken12_abcdefghijabcdefghijabcdefghijabcdefghijabc"
  providerType := .docker
  enrollmentToken_ge := by decide
  enrollmentToken_le := by decide
  supportedModels_le := by decide

def registrationServices : RegistrationServices where
  enrollment :=
    { pepper := enrollmentPepper
      verify := fun hash text => hash == text
      pepper_ge := by decide }
  jwt := { issuer := "orbi", audience := "orbi-worker", ttlSeconds := 900 }

def registrationReadings : RegistrationReadings where
  now := 99
  workerId := 21
  jti := "second"
  issuedAt := 99

/-- Three registrations with one token. -/
inductive Applicant
  | dropped
  | winner
  | loser
  deriving DecidableEq

def secret : String := "abcdefghijabcdefghijabcdefghijabcdefghijabc"

def enrolled (workerId : UUID) (jti : String) : Enrollment where
  record := enrollmentToken
  now := 99
  worker := (newWorker registration workerId 99).renewed jti

def claims (workerId : UUID) (jti : String) : WorkerClaims :=
  registrationServices.jwt.issue workerId jti 99

/-- The first registration loses its connection, and the second one holds the token;
newest event first. -/
def tokenContended : List (EnrollmentEvent Applicant) :=
  [.inserted .winner, .locked .winner "tokentoken12", .stopped .dropped, .inserted .dropped,
    .locked .dropped "tokentoken12"]

/-- The second one commits just before the token expires, and the third one finds it
consumed. -/
def tokenUsed : List (EnrollmentEvent Applicant) :=
  [.stopped .loser, .locked .loser "tokentoken12", .registered .winner
    (enrolled 21 "second").registration, .issued .winner (claims 21 "second")]

theorem run_tokenContended : ∃ s t : EnrollmentState Applicant,
    EnrollmentRun registrationServices enrollmentDb tokenContended s ∧
      (∀ next, ¬ EnrollmentStep registrationServices s (.locked .loser "tokentoken12") next) ∧
      Run (EnrollmentStep registrationServices) s tokenUsed t ∧
      workerIds t.db.toDb = [20, 21] := by
  have hfirst : EnrollmentRun registrationServices enrollmentDb
      [.locked Applicant.dropped "tokentoken12"] _ :=
    Run.start.next (@EnrollmentStep.locked Applicant _ _ _ .dropped registration
      "tokentoken12" secret enrollmentToken rfl rfl rfl nofun)
  have hinserted := hfirst.next (@EnrollmentStep.inserted Applicant _ _ _ .dropped
    registration enrollmentToken 99 22 rfl rfl (by decide))
  have hstopped := hinserted.next (@EnrollmentStep.stopped Applicant _ _ _ .dropped)
  have hlocked := hstopped.next (@EnrollmentStep.locked Applicant _ _ _ .winner
    registration "tokentoken12" secret enrollmentToken rfl rfl rfl
    (by intro u hlock; cases u <;> cases hlock))
  have hcontended := hlocked.next (@EnrollmentStep.inserted Applicant _ _ _ .winner
    registration enrollmentToken 99 21 rfl rfl (by decide))
  refine ⟨_, _, hcontended, ?_, (((Run.start.next (@EnrollmentStep.issued Applicant _ _ _
    .winner ⟨enrollmentToken, 99, newWorker registration 21 99⟩ _ "second" 99 rfl rfl)).next
    (@EnrollmentStep.registered Applicant _ _ _ .winner (enrolled 21 "second") _ rfl
      rfl)).next
    (@EnrollmentStep.locked Applicant _ _ _ .loser registration "tokentoken12" secret
      (enrollmentToken.consumed 99) rfl rfl rfl
      (by intro u hlock; cases u <;> cases hlock))).next
    (@EnrollmentStep.stopped Applicant _ _ _ .loser), rfl⟩
  intro next hstep
  cases hstep with
  | locked hidle hsplit hfind hfree => exact hfree .winner rfl

/-- The route answers with the claims of the second registration. -/
example : (registerWorker registrationServices enrollmentDb registration
    registrationReadings).toOption.map (·.1.accessToken) = some (claims 21 "second") := rfl

end Sample

/-- Three registrations contend for a token: one stops, one is committed, and one waits
for it and finds the token consumed. -/
theorem one_time_enrollment_sample :
    ∃ s t : EnrollmentState Sample.Applicant,
      EnrollmentRun Sample.registrationServices Sample.enrollmentDb Sample.tokenContended s ∧
      (∀ next, ¬ EnrollmentStep Sample.registrationServices s
        (.locked .loser "tokentoken12") next) ∧
      EnrollmentRun Sample.registrationServices Sample.enrollmentDb
        (Sample.tokenUsed ++ Sample.tokenContended) t ∧
      workerIds t.db.toDb = [20, 21] ∧
      ∀ tokenId,
        (registrationsOf tokenId (Sample.tokenUsed ++ Sample.tokenContended)).length ≤ 1 := by
  obtain ⟨s, t, hcontended, hwaits, hdecided, hids⟩ := Sample.run_tokenContended
  have hrun := hcontended.append hdecided
  exact ⟨s, t, hcontended, hwaits, hrun, hids, (one_time_enrollment hrun).1⟩

end OrbiGateway
