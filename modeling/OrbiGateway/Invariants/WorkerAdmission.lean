import Mathlib.Data.Nat.Digits.Defs
import Mathlib.Logic.Equiv.List
import OrbiGateway.Invariants.IssuedTokens

/-!
# Which worker tokens are admitted

The bearer token of a worker's call against the tokens that the gateway has issued.  A token
opens the worker routes while it is the newest one of its worker, until it expires or the
worker is revoked, whatever calls are being served.
-/

namespace OrbiGateway

open Relational Transition

/-! ## The dependencies on an issued token -/

/-- A token is written with base64url characters and dots. -/
def JwtLibrary.Compact (library : JwtLibrary) : Prop :=
  ∀ claims, ∀ c ∈ (library.encode claims).toList, Urlsafe.isUrlsafe c = true ∨ c = '.'

theorem JwtLibrary.Compact.bearerKey_encode {library : JwtLibrary} (h : library.Compact)
    (claims : WorkerClaims) :
    bearerKey (some ("Bearer " ++ library.encode claims)) = some (library.encode claims) := by
  apply bearerKey_of_no_space
  intro c hc
  rcases h claims c hc with hurlsafe | rfl
  · exact isSpace_of_isUrlsafe hurlsafe
  · rfl

theorem WorkerRequest.requiredScope_mem_issue (request : WorkerRequest)
    (service : WorkerJWTService) (workerId : UUID) (jti : String) (issuedAt : Timestamp) :
    request.requiredScope ∈ (service.issue workerId jti issuedAt).scope := by
  cases request <;> simp [requiredScope, WorkerJWTService.issue]

section Dependencies

variable {service : WorkerJWTService} {library : JwtLibrary} {db : Db}
  {authorization : Option String} {now : Timestamp} {requiredScope token : String}
  {worker : Worker}

theorem requireWorker_eq_ok_iff {workerId : UUID} {jti : String} :
    requireWorker db workerId jti = .ok worker ↔
      db.workers.find workerId = some worker ∧ worker.revokedAt = none ∧
        worker.tokenJti = some jti := by
  constructor
  · exact requireWorker_spec
  · rintro ⟨hfind, hrevoked, hjti⟩
    simp [requireWorker, hfind, workerTokenCurrent, hrevoked, hjti]

/-- The row decides on a token that verifies and has the scope. -/
theorem authenticateWorker_of_verified {claims : WorkerClaims}
    (htoken : bearerKey authorization = some token)
    (hverify : service.verify library token now = some claims)
    (hscope : requiredScope ∈ claims.scope) :
    authenticateWorker service library db authorization now requiredScope =
      requireWorker db claims.sub claims.jti := by
  unfold authenticateWorker requireWorkerHeader requireWorkerScope
  rw [htoken]
  simp only [hverify]
  cases requireWorker db claims.sub claims.jti with
  | error failure => rfl
  | ok worker => simp [bind, Except.bind, pure, Except.pure, hscope]

theorem authenticateWorker_of_unverified (htoken : bearerKey authorization = some token)
    (hverify : service.verify library token now = none) :
    authenticateWorker service library db authorization now requiredScope =
      .error (.orbi unverifiedWorkerToken) := by
  unfold authenticateWorker requireWorkerHeader
  rw [htoken]
  simp only [hverify]
  rfl

/-- A token of the library is admitted if its claims are valid and the row names it. -/
theorem authenticateWorker_encode_iff (hlibrary : library.Documented service)
    (hcompact : library.Compact) {claims : WorkerClaims} (hscope : requiredScope ∈ claims.scope) :
    authenticateWorker service library db (some ("Bearer " ++ library.encode claims)) now
        requiredScope = .ok worker ↔
      claims.ValidFor service.audience service.issuer now ∧
        db.workers.find claims.sub = some worker ∧ worker.revokedAt = none ∧
        worker.tokenJti = some claims.jti := by
  have htoken := hcompact.bearerKey_encode claims
  obtain ⟨hdecoded, hrefused⟩ := hlibrary claims now
  by_cases hvalid : claims.ValidFor service.audience service.issuer now
  · have hverify : service.verify library (library.encode claims) now =
        some claims.truncated := hdecoded hvalid
    rw [authenticateWorker_of_verified htoken hverify hscope]
    change requireWorker db claims.sub claims.jti = .ok worker ↔ _
    rw [requireWorker_eq_ok_iff]
    simp only [hvalid, true_and]
  · have hverify : service.verify library (library.encode claims) now = none :=
      hrefused hvalid
    rw [authenticateWorker_of_unverified htoken hverify]
    simp [hvalid]

end Dependencies

/-! ## A library

A concrete library, for which the claims of a token are its number. -/

namespace GatewaySample

/-- A text by the codes of its characters. -/
def codesOf (text : String) : List ℕ :=
  text.toList.map Char.toNat

def textOf (codes : List ℕ) : String :=
  String.ofList (codes.map Char.ofNat)

theorem textOf_codesOf (text : String) : textOf (codesOf text) = text := by
  have hchars : (text.toList.map Char.toNat).map Char.ofNat = text.toList := by
    rw [List.map_map]
    exact List.map_id'' Char.ofNat_toNat text.toList
  rw [textOf, codesOf, hchars, String.ofList_toList]

/-- The claims without texts. -/
abbrev ClaimCodes := ℕ × List ℕ × List (List ℕ) × ℤ × ℤ × ℤ × List ℕ × List ℕ

def codesOfClaims (claims : WorkerClaims) : ClaimCodes :=
  (claims.sub, codesOf claims.jti, claims.scope.map codesOf, claims.iat, claims.nbf, claims.exp,
    codesOf claims.iss, codesOf claims.aud)

def claimsOf (codes : ClaimCodes) : WorkerClaims :=
  let (sub, jti, scope, iat, nbf, exp, iss, aud) := codes
  { sub := sub
    jti := textOf jti
    scope := scope.map textOf
    iat := iat
    nbf := nbf
    exp := exp
    iss := textOf iss
    aud := textOf aud }

theorem claimsOf_codesOfClaims (claims : WorkerClaims) :
    claimsOf (codesOfClaims claims) = claims := by
  have hscope : (claims.scope.map codesOf).map textOf = claims.scope := by
    rw [List.map_map]
    exact List.map_id'' textOf_codesOf claims.scope
  simp only [claimsOf, codesOfClaims, textOf_codesOf, hscope]

def digitChar (digit : ℕ) : Char := Char.ofNat (digit + 48)

/-- The number of the claims in decimal digits, the last one first. -/
def sign (claims : WorkerClaims) : String :=
  String.ofList ((Nat.digits 10 (Encodable.encode (codesOfClaims claims))).map digitChar)

/-- The claims with a number. -/
def read (token : String) : Option WorkerClaims :=
  (Encodable.decode (Nat.ofDigits 10 (token.toList.map fun c => c.toNat - 48))).map claimsOf

theorem toNat_digitChar {digit : ℕ} (h : digit < 10) : (digitChar digit).toNat = digit + 48 := by
  have hall : ∀ digit < 10, (digitChar digit).toNat = digit + 48 := by decide
  exact hall digit h

theorem read_sign (claims : WorkerClaims) : read (sign claims) = some claims := by
  have hdigits : ∀ digits : List ℕ, (∀ digit ∈ digits, digit < 10) →
      (digits.map digitChar).map (fun c => c.toNat - 48) = digits := by
    intro digits hsmall
    rw [List.map_map]
    calc
      digits.map ((fun c => c.toNat - 48) ∘ digitChar) = digits.map id := by
        apply List.map_congr_left
        intro digit hdigit
        simp [toNat_digitChar (hsmall digit hdigit)]
      _ = digits := List.map_id digits
  unfold read sign
  rw [String.toList_ofList, hdigits _ fun _ hdigit => Nat.digits_lt_base (by decide) hdigit,
    Nat.ofDigits_digits, Encodable.encodek, Option.map_some, claimsOf_codesOfClaims]

/-- A library that signs nothing, and reads what it has written. -/
def readingLibrary : JwtLibrary where
  encode := sign
  decode token audience issuer now :=
    match read token with
    | none => none
    | some claims =>
        if claims.aud = audience ∧ claims.iss = issuer ∧ wholeSeconds claims.iat ≤ now ∧
            wholeSeconds claims.nbf ≤ now ∧ now < wholeSeconds claims.exp then
          some claims.truncated
        else none

/-- The application with this library. -/
def readingServices : GatewayServices :=
  { services with jwtLibrary := readingLibrary }

theorem documented_readingLibrary :
    readingServices.jwtLibrary.Documented readingServices.registration.jwt := by
  intro claims now
  simp only [readingServices, readingLibrary, read_sign]
  constructor
  · intro h
    exact if_pos ⟨h.aud, h.iss, h.iat, h.nbf, h.exp⟩
  · intro h
    apply if_neg
    rintro ⟨haud, hiss, hiat, hnbf, hexp⟩
    exact h ⟨haud, hiss, hiat, hnbf, hexp⟩

theorem compact_readingLibrary : readingServices.jwtLibrary.Compact := by
  have hall : ∀ digit < 10, Urlsafe.isUrlsafe (digitChar digit) = true := by decide
  intro claims c hc
  change c ∈ (sign claims).toList at hc
  rw [sign, String.toList_ofList] at hc
  obtain ⟨digit, hdigit, rfl⟩ := List.mem_map.mp hc
  exact .inl (hall digit (Nat.digits_lt_base (by decide) hdigit))

end GatewaySample

/-! ## Admission -/

/-- A call with the header is admitted as one of a worker that has not been revoked, by the
worker's newest token. -/
structure AdmittedBy (services : GatewayServices) (history : List GatewayEvent)
    (authorization : Option String) (now : Timestamp) (worker : Worker) : Prop where
  unrevoked : worker.id ∉ revokedWorkers history
  newest : ∃ token claims issued, bearerKey authorization = some token ∧
    services.registration.jwt.verify services.jwtLibrary token now = some claims ∧
    claims.sub = worker.id ∧
    newestToken services.registration.jwt history worker.id = some issued ∧
    claims.jti = issued.jti

/-- Which tokens the gateway admits in a state, by the history of issued tokens and revoked
workers. -/
structure AdmitsNewestTokens (services : GatewayServices) (history : List GatewayEvent)
    (s : GatewayState) : Prop where
  accepted_iff : ∀ claims ∈ issuedTokens services.registration.jwt history,
    ∀ (now : Timestamp) (request : WorkerRequest),
      (∃ worker, worker.id = claims.sub ∧
        authenticateWorker services.registration.jwt services.jwtLibrary s.db.toDb
          (some ("Bearer " ++ services.jwtLibrary.encode claims)) now
          request.requiredScope = .ok worker) ↔
        newestToken services.registration.jwt history claims.sub = some claims ∧
          claims.sub ∉ revokedWorkers history ∧ wholeSeconds claims.iat ≤ now ∧
          now < wholeSeconds claims.iat + seconds services.registration.jwt.ttlSeconds
  admitted : ∀ authorization now (request : WorkerRequest) worker,
    authenticateWorker services.registration.jwt services.jwtLibrary s.db.toDb authorization
        now request.requiredScope = .ok worker →
      AdmittedBy services history authorization now worker

section Runs

variable {services : GatewayServices} {history : List GatewayEvent} {s : GatewayState}

theorem newestToken_spec {service : WorkerJWTService} {workerId : UUID} {claims : WorkerClaims}
    (h : newestToken service history workerId = some claims) :
    claims ∈ issuedTokens service history ∧ claims.sub = workerId :=
  ⟨List.mem_of_find?_eq_some h, by simpa using List.find?_some h⟩

/-- The row of a worker names a token of its exactly if this is the newest one and the
worker has not been revoked. -/
theorem GatewayRun.row_names_iff (hrun : GatewayRun services history s)
    (hfresh : TokensFresh services.registration.jwt history) {claims : WorkerClaims}
    (hclaims : claims ∈ issuedTokens services.registration.jwt history) {worker : Worker}
    (hworker : worker ∈ s.db.workers.rows) (hid : worker.id = claims.sub) :
    worker.revokedAt = none ∧ worker.tokenJti = some claims.jti ↔
      newestToken services.registration.jwt history claims.sub = some claims ∧
        claims.sub ∉ revokedWorkers history := by
  have hissued := hrun.tokensIssued
  have hrow : worker.credentials ∈ s.db.workerCredentials := List.mem_map_of_mem hworker
  have hrevoked : worker.revokedAt.isSome = true ↔ claims.sub ∈ revokedWorkers history := by
    rw [← hid]
    exact hissued.revoked_iff worker.credentials hrow
  have hnewest : worker.revokedAt = none →
      ∃ newest, newestToken services.registration.jwt history claims.sub = some newest ∧
        worker.tokenJti = some newest.jti := by
    rw [← hid]
    exact hissued.current hfresh worker.credentials hrow
  have hunrevoked : worker.revokedAt = none ↔ claims.sub ∉ revokedWorkers history := by
    rw [← hrevoked, ← Option.not_isSome_iff_eq_none]
  constructor
  · rintro ⟨hnone, hjti⟩
    obtain ⟨newest, hfind, hnamed⟩ := hnewest hnone
    have hsame : newest.jti = claims.jti := Option.some.inj (hnamed.symm.trans hjti)
    have heq : newest = claims :=
      List.inj_on_of_nodup_map hfresh (newestToken_spec hfind).1 hclaims hsame
    exact ⟨heq ▸ hfind, hunrevoked.mp hnone⟩
  · rintro ⟨hfind, hnot⟩
    have hnone := hunrevoked.mpr hnot
    obtain ⟨newest, hfind', hnamed⟩ := hnewest hnone
    have heq : newest = claims := Option.some.inj (hfind'.symm.trans hfind)
    exact ⟨hnone, heq ▸ hnamed⟩

theorem GatewayRun.named_newest (hrun : GatewayRun services history s)
    (hfresh : TokensFresh services.registration.jwt history) {authorization : Option String}
    {now : Timestamp} {requiredScope : String} {worker : Worker}
    (hok : authenticateWorker services.registration.jwt services.jwtLibrary s.db.toDb
      authorization now requiredScope = .ok worker) :
    AdmittedBy services history authorization now worker := by
  obtain ⟨token, claims, htoken, hverify, hrow, -⟩ := authenticateWorker_spec hok
  obtain ⟨hfind, hnone, hjti⟩ := requireWorker_spec hrow
  have hmem : worker ∈ s.db.workers.rows := Table.mem_of_find hfind
  have hid : worker.id = claims.sub := Table.key_of_find hfind
  -- the row names a token that was issued, and being unrevoked it names the newest
  obtain ⟨newest, hnewest, hnamed⟩ := hrun.tokensIssued.current hfresh worker.credentials
    (List.mem_map_of_mem hmem) hnone
  obtain ⟨hissued, hsub⟩ := newestToken_spec hnewest
  obtain ⟨-, hnot⟩ := (hrun.row_names_iff hfresh hissued hmem hsub.symm).mp ⟨hnone, hnamed⟩
  refine ⟨fun hgone => hnot (hsub ▸ hgone), token, claims, newest, htoken, hverify, hid.symm,
    hnewest, ?_⟩
  exact Option.some.inj (hjti.symm.trans hnamed)

/-- In every state of every run that draws fresh `jti`s, a token that was issued is admitted
exactly in its lifetime, while it is its worker's newest and the worker is not revoked. -/
theorem worker_admission_by_newest_token
    (hlibrary : services.jwtLibrary.Documented services.registration.jwt)
    (hcompact : services.jwtLibrary.Compact) (hrun : GatewayRun services history s)
    (hfresh : TokensFresh services.registration.jwt history) :
    AdmitsNewestTokens services history s where
  accepted_iff := by
    intro claims hclaims now request
    have hissued := hrun.tokensIssued
    obtain ⟨workerId, jti, issuedAt, hsigned⟩ := hissued.signed claims hclaims
    have hscope : request.requiredScope ∈ claims.scope := by
      rw [hsigned]
      exact request.requiredScope_mem_issue _ _ _ _
    have hvalid : claims.ValidFor services.registration.jwt.audience
        services.registration.jwt.issuer now ↔ wholeSeconds claims.iat ≤ now ∧
          now < wholeSeconds claims.iat + seconds services.registration.jwt.ttlSeconds := by
      rw [hsigned]
      exact WorkerJWTService.validFor_issue_iff
    simp only [authenticateWorker_encode_iff hlibrary hcompact hscope]
    constructor
    · rintro ⟨worker, hid, hnow, hfind, hnamed⟩
      obtain ⟨hnewest, hnot⟩ :=
        (hrun.row_names_iff hfresh hclaims (Table.mem_of_find hfind) hid).mp hnamed
      exact ⟨hnewest, hnot, hvalid.mp hnow⟩
    · rintro ⟨hnewest, hnot, hnow⟩
      obtain ⟨row, hrow, hid⟩ := hissued.known claims hclaims
      obtain ⟨worker, hworker, rfl⟩ := List.mem_map.mp hrow
      refine ⟨worker, hid, hvalid.mpr hnow, Table.find_eq_some_iff.mpr ⟨hworker, hid⟩, ?_⟩
      exact (hrun.row_names_iff hfresh hclaims hworker hid).mpr ⟨hnewest, hnot⟩
  admitted := by
    intro authorization now request worker hok
    exact hrun.named_newest hfresh hok

end Runs

theorem act_authenticate {services : GatewayServices} {s : GatewayState}
    {authorization : Option String} {now : Timestamp} {request : WorkerRequest}
    {worker : Worker} (h : authenticateWorker services.registration.jwt services.jwtLibrary
      s.db.toDb authorization now request.requiredScope = .ok worker) :
    act services s (.authenticate authorization now request) =
      (.loaded worker, { s with serving := (worker, request) :: s.serving }) := by
  simp only [act, h]

namespace GatewaySample

/-- The first token of the worker, and the one that it gets for it a second later. -/
def older : WorkerClaims := jwt.issue 20 "jti" 0

def newer : WorkerClaims := jwt.issue 20 "renewed" 1000000

def header (claims : WorkerClaims) : Option String :=
  some ("Bearer " ++ readingServices.jwtLibrary.encode claims)

def registered : Worker := (newWorker demoWorker 20 0).renewed "jti"

def renewal : WorkerRequest := .renewWorkerToken "renewed" 1000000

def beforeRenewal : List GatewayEvent × GatewayState :=
  runActions readingServices .initial setUp

/-- The worker renews its token; newest event first. -/
def renewed : List GatewayEvent :=
  .acted (.serve 0) (.served registered renewal (.renewed "renewed")) ::
    .acted (.authenticate (header older) 1000000 renewal) (.loaded registered) ::
      beforeRenewal.1

/-- An administrator revokes the worker after that. -/
def revoked : List GatewayEvent :=
  .acted (.admin adminHeader (.revokeWorker 20 2000000)) (.administered .workerRevoked) ::
    renewed

theorem authenticate_older : authenticateWorker readingServices.registration.jwt
    readingServices.jwtLibrary beforeRenewal.2.db.toDb (header older) 1000000
      renewal.requiredScope = .ok registered := by
  have hvalid : older.ValidFor readingServices.registration.jwt.audience
      readingServices.registration.jwt.issuer 1000000 :=
    WorkerJWTService.validFor_issue_iff.mpr ⟨by decide, by decide⟩
  have hrow : beforeRenewal.2.db.toDb.workers.find older.sub = some registered := rfl
  have hscope : renewal.requiredScope ∈ older.scope := by decide
  have hiff := @authenticateWorker_encode_iff readingServices.registration.jwt
    readingServices.jwtLibrary beforeRenewal.2.db.toDb 1000000 renewal.requiredScope registered
    documented_readingLibrary compact_readingLibrary older hscope
  exact hiff.mpr ⟨hvalid, hrow, rfl, rfl⟩

theorem run_revoked : ∃ s s', GatewayRun readingServices renewed s ∧
    GatewayRun readingServices revoked s' := by
  have hloaded := (run_runActions readingServices setUp).next
    (.acted (act_authenticate authenticate_older))
  have hrenewed := hloaded.next (@GatewayStep.acted readingServices _ _ (.serve 0) _ rfl)
  have hrevoked := hrenewed.next (@GatewayStep.acted readingServices _ _
    (.admin adminHeader (.revokeWorker 20 2000000)) _ rfl)
  exact ⟨_, _, hrenewed, hrevoked⟩

/-- A pull under the token is admitted in the state. -/
def Admits (s : GatewayState) (claims : WorkerClaims) : Prop :=
  ∃ worker, worker.id = claims.sub ∧
    authenticateWorker readingServices.registration.jwt readingServices.jwtLibrary s.db.toDb
      (header claims) 3000000 (WorkerRequest.pullRequest 3000000).requiredScope = .ok worker

end GatewaySample

open GatewaySample in
/-- A renewal replaces the first token, and a revocation ends the second one. -/
theorem worker_admission_by_newest_token_renewed : ∃ s s',
    AdmitsNewestTokens readingServices renewed s ∧
      AdmitsNewestTokens readingServices revoked s' ∧
      Admits s newer ∧ ¬Admits s older ∧ ¬Admits s' newer := by
  obtain ⟨s, s', hrenewed, hrevoked⟩ := run_revoked
  have hissued : issuedTokens readingServices.registration.jwt renewed = [newer, older] := by
    decide +kernel
  have hissued' : issuedTokens readingServices.registration.jwt revoked = [newer, older] :=
    (issuedTokens_cons_none rfl).trans hissued
  have hadmits := worker_admission_by_newest_token documented_readingLibrary
    compact_readingLibrary hrenewed (by rw [TokensFresh, hissued]; decide)
  have hadmits' := worker_admission_by_newest_token documented_readingLibrary
    compact_readingLibrary hrevoked (by rw [TokensFresh, hissued']; decide)
  refine ⟨s, s', hadmits, hadmits', ?_, ?_, ?_⟩
  · refine (hadmits.accepted_iff newer (by simp [hissued]) 3000000
      (.pullRequest 3000000)).mpr ⟨?_, ?_, by decide, by decide⟩
    · rw [newestToken, hissued]
      rfl
    · decide +kernel
  · intro hadmitted
    obtain ⟨hnewest, -⟩ := (hadmits.accepted_iff older (by simp [hissued]) 3000000
      (.pullRequest 3000000)).mp hadmitted
    rw [newestToken, hissued] at hnewest
    exact absurd hnewest (by decide)
  · intro hadmitted
    obtain ⟨-, hunrevoked, -⟩ := (hadmits'.accepted_iff newer (by simp [hissued']) 3000000
      (.pullRequest 3000000)).mp hadmitted
    exact hunrevoked (by decide +kernel)

end OrbiGateway
