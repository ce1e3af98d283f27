import OrbiGateway.Authentication
import OrbiGateway.Services.WorkerTokens

/-!
# Worker authentication

`require_worker` and `require_worker_scope` from the header to the row.  The JWT library is
a parameter; what the gateway relies on is that it reads back what it has signed, as long as
the audience, the issuer and the clock agree.
-/

namespace OrbiGateway

/-! ## The JWT library -/

/-- `jwt.encode` with the private key and `jwt.decode` with the public key, the audience
and the issuer that it requires and the clock that it reads. -/
structure JwtLibrary where
  encode : WorkerClaims → String
  decode : String → String → String → Timestamp → Option WorkerClaims

/-- The whole seconds of an instant: JWTs carry no fractions. -/
def wholeSeconds (instant : Timestamp) : Timestamp :=
  instant / 1000000 * 1000000

theorem wholeSeconds_le (instant : Timestamp) : wholeSeconds instant ≤ instant :=
  Int.ediv_mul_le instant (by decide)

theorem wholeSeconds_add_seconds (instant : Timestamp) (n : ℤ) :
    wholeSeconds (instant + seconds n) = wholeSeconds instant + seconds n := by
  unfold wholeSeconds seconds
  rw [Int.add_mul_ediv_right instant n (by decide), Int.add_mul]

/-- The claims as they come back from a token. -/
def WorkerClaims.truncated (claims : WorkerClaims) : WorkerClaims :=
  { claims with
    iat := wholeSeconds claims.iat
    nbf := wholeSeconds claims.nbf
    exp := wholeSeconds claims.exp }

/-- The checks of `jwt.decode` behind the signature. -/
structure WorkerClaims.ValidFor (claims : WorkerClaims) (audience issuer : String)
    (now : Timestamp) : Prop where
  aud : claims.aud = audience
  iss : claims.iss = issuer
  iat : wholeSeconds claims.iat ≤ now
  nbf : wholeSeconds claims.nbf ≤ now
  exp : now < wholeSeconds claims.exp

/-- A token that the library has signed is decoded exactly if its claims are valid for the
audience and the issuer of the service. -/
def JwtLibrary.Documented (library : JwtLibrary) (service : WorkerJWTService) : Prop :=
  ∀ claims now, (claims.ValidFor service.audience service.issuer now →
      library.decode (library.encode claims) service.audience service.issuer now =
        some claims.truncated) ∧
    (¬claims.ValidFor service.audience service.issuer now →
      library.decode (library.encode claims) service.audience service.issuer now = none)

/-- `WorkerJWTService.verify`. -/
def WorkerJWTService.verify (service : WorkerJWTService) (library : JwtLibrary)
    (token : String) (now : Timestamp) : Option WorkerClaims :=
  library.decode token service.audience service.issuer now

/-- The claims of an issued token are valid from the second of its issue for its whole
lifetime. -/
theorem WorkerJWTService.validFor_issue_iff {service : WorkerJWTService} {workerId : UUID}
    {jti : String} {issuedAt now : Timestamp} :
    (service.issue workerId jti issuedAt).ValidFor service.audience service.issuer now ↔
      wholeSeconds issuedAt ≤ now ∧
        now < wholeSeconds issuedAt + seconds service.ttlSeconds := by
  have hexp : (service.issue workerId jti issuedAt).exp =
      issuedAt + seconds service.ttlSeconds := rfl
  constructor
  · intro h
    have hlast := h.exp
    rw [hexp, wholeSeconds_add_seconds] at hlast
    exact ⟨h.iat, hlast⟩
  · rintro ⟨hfirst, hlast⟩
    refine ⟨rfl, rfl, hfirst, hfirst, ?_⟩
    rw [hexp, wholeSeconds_add_seconds]
    exact hlast

/-! ## The dependencies -/

def workerAuthRequired : OrbiError :=
  ⟨"worker_auth_required", "Worker authentication is required.", 401⟩

def unverifiedWorkerToken : OrbiError :=
  ⟨"invalid_worker_token", "Worker token is invalid or expired.", 401⟩

def insufficientWorkerScope : OrbiError :=
  ⟨"insufficient_worker_scope", "Worker token lacks scope.", 403⟩

/-- `require_worker`: the claims of the token and the row that it loads. -/
def requireWorkerHeader (service : WorkerJWTService) (library : JwtLibrary) (db : Db)
    (authorization : Option String) (now : Timestamp) :
    Except Failure (WorkerClaims × Worker) :=
  match bearerKey authorization with
  | none => .error (.orbi workerAuthRequired)
  | some token =>
      match service.verify library token now with
      | none => .error (.orbi unverifiedWorkerToken)
      | some claims => do
          let worker ← requireWorker db claims.sub claims.jti
          return (claims, worker)

/-- `require_worker_scope`. -/
def requireWorkerScope (requiredScope : String) (claims : WorkerClaims) :
    Except Failure Unit :=
  if claims.scope.contains requiredScope then .ok ()
  else .error (.orbi insufficientWorkerScope)

/-- The dependency of a worker route: the row that it loads. -/
def authenticateWorker (service : WorkerJWTService) (library : JwtLibrary) (db : Db)
    (authorization : Option String) (now : Timestamp) (requiredScope : String) :
    Except Failure Worker := do
  let (claims, worker) ← requireWorkerHeader service library db authorization now
  requireWorkerScope requiredScope claims
  return worker

end OrbiGateway
