import OrbiGateway.Library.Urlsafe
import OrbiGateway.Models.Entities

/-!
# Worker tokens

Enrollment tokens are read once and carry a secret that is stored as a hash; a
worker's JWT is described by its claims.  The Argon2id verification is a parameter of
the enrollment service, and the signature of a JWT is left out.
-/

namespace OrbiGateway

/-! ## Enrollment tokens -/

/-- The text that every enrollment token begins with. -/
def enrollmentMarker : List Char := "orbi_node_v1_".toList

/-- The token id and the secret of a token that has the marker and 56 more characters
with an underscore behind the id. -/
def splitEnrollmentToken (rawToken : String) : Option (String × String) :=
  if !enrollmentMarker.isPrefixOf rawToken.toList then
    none
  else
    let remainder := rawToken.toList.drop enrollmentMarker.length
    if remainder.length ≠ 56 ∨ remainder[12]? ≠ some '_' then
      none
    else
      some (String.ofList (remainder.take 12), String.ofList (remainder.drop 13))

structure GeneratedEnrollmentToken where
  rawToken : String
  tokenId : String
  secretHash : String
  deriving DecidableEq

/-- `WorkerEnrollmentService` with its pepper and its hasher. -/
structure WorkerEnrollmentService where
  pepper : String
  /-- Argon2id verification of a stored hash against a text. -/
  verify : String → String → Bool
  pepper_ge : 32 ≤ pepper.utf8ByteSize

/-- `generate`, with the hash that the hasher computes and the bytes that the random
source gives. -/
def WorkerEnrollmentService.generate (service : WorkerEnrollmentService)
    (hash : String → String) (idBytes : Vector UInt8 9) (secretBytes : Vector UInt8 32) :
    GeneratedEnrollmentToken :=
  let tokenId := String.ofList (Urlsafe.tokenUrlsafe idBytes).chars
  let secret := String.ofList (Urlsafe.tokenUrlsafe secretBytes).chars
  { rawToken := "orbi_node_v1_" ++ tokenId ++ "_" ++ secret
    tokenId := tokenId
    secretHash := hash (secret ++ ":" ++ service.pepper) }

/-- `parse_and_verify`. -/
def WorkerEnrollmentService.parseAndVerify (service : WorkerEnrollmentService)
    (rawToken expectedHash : String) : Option String :=
  match splitEnrollmentToken rawToken with
  | none => none
  | some (tokenId, secret) =>
      if service.verify expectedHash (secret ++ ":" ++ service.pepper) then some tokenId
      else none

/-! ## The codec of enrollment tokens -/

/-- The text of an enrollment token. -/
def renderEnrollmentToken (tokenId secret : String) : String :=
  "orbi_node_v1_" ++ tokenId ++ "_" ++ secret

theorem toList_renderEnrollmentToken (tokenId secret : String) :
    (renderEnrollmentToken tokenId secret).toList =
      enrollmentMarker ++ (tokenId.toList ++ '_' :: secret.toList) := by
  have hseparator : "_".toList = ['_'] := rfl
  rw [renderEnrollmentToken, String.toList_append, String.toList_append,
    String.toList_append, hseparator, List.append_assoc, List.append_assoc]
  rfl

theorem eq_take_append_of_getElem? {α : Type*} {xs : List α} {n : ℕ} {x : α}
    (h : xs[n]? = some x) : xs = xs.take n ++ x :: xs.drop (n + 1) := by
  obtain ⟨hlt, hx⟩ := List.getElem?_eq_some_iff.mp h
  calc
    xs = xs.take n ++ xs.drop n := (List.take_append_drop n xs).symm
    _ = xs.take n ++ x :: xs.drop (n + 1) := by rw [List.drop_eq_getElem_cons hlt, hx]

/-- A token is split exactly if it is the rendering of an id of 12 characters and a secret
of 43, and then into these two. -/
theorem splitEnrollmentToken_eq_some_iff {rawToken tokenId secret : String} :
    splitEnrollmentToken rawToken = some (tokenId, secret) ↔
      rawToken = renderEnrollmentToken tokenId secret ∧ tokenId.length = 12 ∧
        secret.length = 43 := by
  constructor
  · intro h
    unfold splitEnrollmentToken at h
    split at h
    · cases h
    next hmarker =>
      dsimp only at h
      split at h
      · cases h
      next hshape =>
        rw [not_or, not_not, not_not] at hshape
        obtain ⟨hlength, hseparator⟩ := hshape
        have hbegin : enrollmentMarker.isPrefixOf rawToken.toList = true := by
          simpa using hmarker
        have hraw := List.prefix_iff_eq_append.mp (List.isPrefixOf_iff_prefix.mp hbegin)
        cases h
        refine ⟨?_, ?_, ?_⟩
        · apply String.toList_injective
          rw [toList_renderEnrollmentToken, String.toList_ofList, String.toList_ofList,
            ← eq_take_append_of_getElem? hseparator, hraw]
        · rw [String.length_ofList, List.length_take]
          omega
        · rw [String.length_ofList, List.length_drop]
          omega
  · rintro ⟨rfl, hid, hsecret⟩
    have hidLength : tokenId.toList.length = 12 := String.length_toList.trans hid
    have hsecretLength : secret.toList.length = 43 := String.length_toList.trans hsecret
    have hbegin : enrollmentMarker.isPrefixOf
        (enrollmentMarker ++ (tokenId.toList ++ '_' :: secret.toList)) = true :=
      List.isPrefixOf_iff_prefix.mpr (List.prefix_append _ _)
    have hlength : (tokenId.toList ++ '_' :: secret.toList).length = 56 := by
      rw [List.length_append, List.length_cons]
      omega
    have hseparator : (tokenId.toList ++ '_' :: secret.toList)[12]? = some '_' := by
      rw [List.getElem?_append_right (by omega), hidLength]
      rfl
    have htake : (tokenId.toList ++ '_' :: secret.toList).take 12 = tokenId.toList :=
      List.take_left' hidLength
    have hdrop : (tokenId.toList ++ '_' :: secret.toList).drop 13 = secret.toList := by
      rw [← List.drop_drop (i := 1) (j := 12), List.drop_left' hidLength]
      rfl
    simp only [splitEnrollmentToken, toList_renderEnrollmentToken, hbegin, List.drop_left,
      hlength, hseparator, htake, hdrop, String.ofList_toList, Bool.not_true,
      Bool.false_eq_true, if_false, ne_eq, not_true_eq_false, or_self]

/-- The parser of the service returns the id of the split when the secret verifies. -/
theorem WorkerEnrollmentService.parseAndVerify_eq_some_iff
    {service : WorkerEnrollmentService} {rawToken expectedHash tokenId : String} :
    service.parseAndVerify rawToken expectedHash = some tokenId ↔
      ∃ secret, splitEnrollmentToken rawToken = some (tokenId, secret) ∧
        service.verify expectedHash (secret ++ ":" ++ service.pepper) = true := by
  unfold parseAndVerify
  split
  next hsplit => simp [hsplit]
  next splitId secret hsplit =>
    simp only [hsplit, Option.ite_none_right_eq_some, Option.some.injEq, Prod.mk.injEq]
    constructor
    · rintro ⟨hverify, rfl⟩
      exact ⟨secret, ⟨rfl, rfl⟩, hverify⟩
    · rintro ⟨_, ⟨rfl, rfl⟩, hverify⟩
      exact ⟨hverify, rfl⟩

/-! ## Worker JWTs -/

/-- The claims of a worker's JWT. -/
structure WorkerClaims where
  sub : UUID
  jti : String
  scope : List String
  iat : Timestamp
  nbf : Timestamp
  exp : Timestamp
  iss : String
  aud : String
  deriving DecidableEq

structure WorkerJWTService where
  issuer : String
  audience : String
  ttlSeconds : ℤ

/-- `issue` with the clock it reads and the `jti` it draws. -/
def WorkerJWTService.issue (service : WorkerJWTService) (workerId : UUID)
    (jti : String) (now : Timestamp) : WorkerClaims where
  sub := workerId
  jti := jti
  scope := ["worker:heartbeat", "worker:pull", "worker:result", "worker:error",
    "worker:renew"]
  iat := now
  nbf := now
  exp := now + seconds service.ttlSeconds
  iss := service.issuer
  aud := service.audience

end OrbiGateway
