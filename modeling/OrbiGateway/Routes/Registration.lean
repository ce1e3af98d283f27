import OrbiGateway.Routes.Workers
import OrbiGateway.Services.WorkerTokens

/-!
# Worker registration

`register_worker` exchanges a one-time enrollment token for a worker row and its
first JWT.  The creation of a token by an administrator is the insertion of an
unconsumed row.
-/

namespace OrbiGateway

open Relational

/-- The committed rows with those of the enrollment tokens. -/
structure EnrollmentDb extends Db where
  enrollmentTokens : Table WorkerEnrollmentToken

def malformedEnrollmentToken : OrbiError :=
  ⟨"invalid_enrollment_token", "Enrollment token is invalid.", 401⟩

def invalidEnrollmentToken : OrbiError :=
  ⟨"invalid_enrollment_token", "Enrollment token is invalid or expired.", 401⟩

/-- The services of the application that registration uses. -/
structure RegistrationServices where
  enrollment : WorkerEnrollmentService
  jwt : WorkerJWTService

/-- What registration reads outside the database: its clock, the id that the new row
draws, and the `jti` of the JWT with the clock of its claims. -/
structure RegistrationReadings where
  now : Timestamp
  workerId : UUID
  jti : String
  issuedAt : Timestamp

/-- `WorkerTokenResponse`; the access token is described by its claims. -/
structure WorkerTokenResponse where
  workerId : UUID
  accessToken : WorkerClaims
  tokenType : String := "bearer"
  expiresIn : ℤ

/-- `str.removeprefix`: a text without the prefix stays as it is. -/
def removePrefix (marker text : List Char) : List Char :=
  if marker.isPrefixOf text then text.drop marker.length else text

/-- The token id that `register_worker` looks up.  The route slices the token itself, and
takes the marker off before it tests for it. -/
def registrationTokenId (enrollmentToken : String) : Option String :=
  let remainder := removePrefix enrollmentMarker enrollmentToken.toList
  if (!enrollmentMarker.isPrefixOf enrollmentToken.toList) ∨ remainder.length ≠ 56 ∨
      remainder[12]? ≠ some '_' then
    none
  else
    some (String.ofList (remainder.take 12))

/-- The route and the enrollment service cut every token alike. -/
theorem registrationTokenId_eq (enrollmentToken : String) :
    registrationTokenId enrollmentToken =
      (splitEnrollmentToken enrollmentToken).map Prod.fst := by
  unfold registrationTokenId splitEnrollmentToken removePrefix
  by_cases hbegin : enrollmentMarker.isPrefixOf enrollmentToken.toList = true
  · simp only [hbegin, Bool.not_true, Bool.false_eq_true, false_or, if_false, if_true]
    split
    · rfl
    · rfl
  · simp [hbegin]

/-- The checks of `register_worker` on the token row. -/
def WorkerEnrollmentToken.isConsumableBy (record : WorkerEnrollmentToken)
    (service : WorkerEnrollmentService) (rawToken : String) (now : Timestamp) : Bool :=
  record.consumedAt.isNone && !decide (record.expiresAt ≤ now) &&
    (service.parseAndVerify rawToken record.secretHash).isSome

theorem WorkerEnrollmentToken.isConsumableBy_spec {record : WorkerEnrollmentToken}
    {service : WorkerEnrollmentService} {rawToken : String} {now : Timestamp}
    (h : record.isConsumableBy service rawToken now = true) :
    record.consumedAt = none ∧ now < record.expiresAt := by
  simp only [isConsumableBy, Bool.and_eq_true, Option.isNone_iff_eq_none,
    Bool.not_eq_true', decide_eq_false_iff_not, not_le] at h
  exact h.1

theorem WorkerEnrollmentToken.isConsumableBy_verified {record : WorkerEnrollmentToken}
    {service : WorkerEnrollmentService} {rawToken : String} {now : Timestamp}
    (h : record.isConsumableBy service rawToken now = true) :
    ∃ tokenId secret, splitEnrollmentToken rawToken = some (tokenId, secret) ∧
      service.verify record.secretHash (secret ++ ":" ++ service.pepper) = true := by
  simp only [isConsumableBy, Bool.and_eq_true] at h
  obtain ⟨tokenId, hverified⟩ := Option.isSome_iff_exists.mp h.2
  obtain ⟨secret, hsplit, hverify⟩ :=
    WorkerEnrollmentService.parseAndVerify_eq_some_iff.mp hverified
  exact ⟨tokenId, secret, hsplit, hverify⟩

/-- The assignment of `register_worker` to the token row. -/
def WorkerEnrollmentToken.consumed (record : WorkerEnrollmentToken) (now : Timestamp) :
    WorkerEnrollmentToken :=
  { record with consumedAt := some now }

/-- The row that `register_worker` adds, before the JWT has been issued. -/
def newWorker (payload : WorkerRegisterRequest) (workerId : UUID) (now : Timestamp) :
    Worker where
  id := workerId
  providerType := payload.providerType.text
  status := .online
  supportedModels := payload.supportedModels
  capabilities := .obj payload.capabilities
  currentQueueDepth := 0
  tokenJti := none
  lastHeartbeat := some now
  revokedAt := none

/-- `register_worker`. -/
def registerWorker (services : RegistrationServices) (db : EnrollmentDb)
    (payload : WorkerRegisterRequest) (readings : RegistrationReadings) :
    Except Failure (WorkerTokenResponse × EnrollmentDb) :=
  match registrationTokenId payload.enrollmentToken with
  | none => .error (.orbi malformedEnrollmentToken)
  | some tokenId =>
      match db.enrollmentTokens.find tokenId with
      | none => .error (.orbi invalidEnrollmentToken)
      | some record =>
          if record.isConsumableBy services.enrollment payload.enrollmentToken
              readings.now then
            let claims := services.jwt.issue readings.workerId readings.jti
              readings.issuedAt
            let worker :=
              (newWorker payload readings.workerId readings.now).renewed claims.jti
            match db.workers.insert worker with
            | none => .error .integrityError
            | some workers =>
                .ok ({ workerId := worker.id
                       accessToken := claims
                       expiresIn := services.jwt.ttlSeconds },
                  { db with
                    workers := workers
                    enrollmentTokens :=
                      db.enrollmentTokens.put (record.consumed readings.now) })
          else .error (.orbi invalidEnrollmentToken)

/-- A registration consumes an unconsumed, unexpired token and adds one worker. -/
theorem registerWorker_spec {services : RegistrationServices} {db db' : EnrollmentDb}
    {payload : WorkerRegisterRequest} {readings : RegistrationReadings}
    {response : WorkerTokenResponse}
    (h : registerWorker services db payload readings = .ok (response, db')) :
    ∃ tokenId secret record workers,
      splitEnrollmentToken payload.enrollmentToken = some (tokenId, secret) ∧
      db.enrollmentTokens.find tokenId = some record ∧
      record.isConsumableBy services.enrollment payload.enrollmentToken readings.now =
        true ∧
      response.accessToken =
        services.jwt.issue readings.workerId readings.jti readings.issuedAt ∧
      db.workers.insert ((newWorker payload readings.workerId readings.now).renewed
        response.accessToken.jti) = some workers ∧
      db' = { db with
        workers := workers
        enrollmentTokens := db.enrollmentTokens.put (record.consumed readings.now) } := by
  unfold registerWorker at h
  split at h
  · cases h
  next tokenId hparsed =>
    rw [registrationTokenId_eq] at hparsed
    obtain ⟨⟨_, secret⟩, hsplit, rfl⟩ := Option.map_eq_some_iff.mp hparsed
    split at h
    · cases h
    next record hfind =>
      split at h
      next hconsumable =>
        dsimp only at h
        split at h
        · cases h
        next workers hinsert =>
          cases h
          exact ⟨_, secret, record, workers, hsplit, hfind, hconsumable, rfl,
            hinsert, rfl⟩
      · cases h

/-! ## One split for the route and the service -/

/-- The route and the enrollment service read every token alike, and what they accept is
exactly what they would render. -/
structure TokensReadAlike (services : RegistrationServices) : Prop where
  accepted_iff : ∀ rawToken, (registrationTokenId rawToken).isSome = true ↔
    (splitEnrollmentToken rawToken).isSome = true
  lookup_eq : ∀ rawToken tokenId secret,
    splitEnrollmentToken rawToken = some (tokenId, secret) →
      registrationTokenId rawToken = some tokenId ∧
      ∀ expectedHash, services.enrollment.parseAndVerify rawToken expectedHash =
        if services.enrollment.verify expectedHash
            (secret ++ ":" ++ services.enrollment.pepper) = true then some tokenId else none
  verified_eq : ∀ rawToken expectedHash tokenId,
    services.enrollment.parseAndVerify rawToken expectedHash = some tokenId →
      registrationTokenId rawToken = some tokenId
  rendered : ∀ (tokenId : Urlsafe.Token 12) (secret : Urlsafe.Token 43),
    let rawToken := renderEnrollmentToken (String.ofList tokenId.chars)
      (String.ofList secret.chars)
    splitEnrollmentToken rawToken =
        some (String.ofList tokenId.chars, String.ofList secret.chars) ∧
      registrationTokenId rawToken = some (String.ofList tokenId.chars)
  eq_render : ∀ rawToken tokenId secret,
    splitEnrollmentToken rawToken = some (tokenId, secret) →
      rawToken = renderEnrollmentToken tokenId secret ∧ tokenId.length = 12 ∧
        secret.length = 43
  generated : ∀ (hash : String → String) (idBytes : Vector UInt8 9)
      (secretBytes : Vector UInt8 32),
    let generated := services.enrollment.generate hash idBytes secretBytes
    registrationTokenId generated.rawToken = some generated.tokenId ∧
      ∃ secret, splitEnrollmentToken generated.rawToken = some (generated.tokenId, secret) ∧
        generated.secretHash = hash (secret ++ ":" ++ services.enrollment.pepper)
  registered : ∀ db payload readings response db',
    registerWorker services db payload readings = .ok (response, db') →
      ∃ tokenId secret record,
        payload.enrollmentToken = renderEnrollmentToken tokenId secret ∧
        registrationTokenId payload.enrollmentToken = some tokenId ∧
        db.enrollmentTokens.find tokenId = some record ∧ record.tokenId = tokenId ∧
        services.enrollment.verify record.secretHash
          (secret ++ ":" ++ services.enrollment.pepper) = true

/-- Tokens over the URL-safe alphabet are split into the parts they were rendered from. -/
theorem splitEnrollmentToken_render (tokenId : Urlsafe.Token 12)
    (secret : Urlsafe.Token 43) :
    splitEnrollmentToken (renderEnrollmentToken (String.ofList tokenId.chars)
        (String.ofList secret.chars)) =
      some (String.ofList tokenId.chars, String.ofList secret.chars) :=
  splitEnrollmentToken_eq_some_iff.mpr ⟨rfl, String.length_ofList.trans tokenId.length_eq,
    String.length_ofList.trans secret.length_eq⟩

/-- The two parsers of an enrollment token agree on every text and invert its rendering,
so a registration consumes the row of the id whose secret it has verified. -/
theorem enrollment_tokens_read_alike (services : RegistrationServices) :
    TokensReadAlike services where
  accepted_iff := by
    intro rawToken
    rw [registrationTokenId_eq, Option.isSome_map]
  lookup_eq := by
    intro rawToken tokenId secret hsplit
    refine ⟨by rw [registrationTokenId_eq, hsplit]; rfl, ?_⟩
    intro expectedHash
    simp only [WorkerEnrollmentService.parseAndVerify, hsplit]
  verified_eq := by
    intro rawToken expectedHash tokenId hverified
    obtain ⟨secret, hsplit, -⟩ :=
      WorkerEnrollmentService.parseAndVerify_eq_some_iff.mp hverified
    rw [registrationTokenId_eq, hsplit]
    rfl
  rendered := by
    intro tokenId secret
    have hsplit := splitEnrollmentToken_render tokenId secret
    refine ⟨hsplit, ?_⟩
    rw [registrationTokenId_eq, hsplit]
    rfl
  eq_render := by
    intro rawToken tokenId secret hsplit
    exact splitEnrollmentToken_eq_some_iff.mp hsplit
  generated := by
    intro hash idBytes secretBytes
    have hsplit := splitEnrollmentToken_render (Urlsafe.tokenUrlsafe idBytes)
      (Urlsafe.tokenUrlsafe secretBytes)
    refine ⟨?_, _, hsplit, rfl⟩
    rw [registrationTokenId_eq]
    exact congrArg (Option.map Prod.fst) hsplit
  registered := by
    intro db payload readings response db' h
    obtain ⟨tokenId, secret, record, workers, hsplit, hfind, hconsumable, -⟩ :=
      registerWorker_spec h
    obtain ⟨tokenId', secret', hsplit', hverify⟩ := WorkerEnrollmentToken.isConsumableBy_verified hconsumable
    obtain ⟨rfl, rfl⟩ : tokenId = tokenId' ∧ secret = secret' := by
      simpa using hsplit.symm.trans hsplit'
    refine ⟨tokenId, secret, record, (splitEnrollmentToken_eq_some_iff.mp hsplit).1, ?_,
      hfind, Relational.Table.key_of_find hfind, hverify⟩
    rw [registrationTokenId_eq, hsplit]
    rfl

example : splitEnrollmentToken
    "orbi_node_v1_abc_defghijk____________________________________________" =
      some ("abc_defghijk", "___________________________________________") := by decide

end OrbiGateway
