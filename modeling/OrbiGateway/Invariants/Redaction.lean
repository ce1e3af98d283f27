import OrbiGateway.Logging
import OrbiGateway.Services.ApiKeys
import OrbiGateway.Services.WorkerTokens

/-!
# Redaction of credentials

Redacting a text leaves nothing that the token pattern matches, a second redaction changes
nothing, and a credential is replaced as a whole wherever it stands.
-/

namespace OrbiGateway

open Pattern Urlsafe

/-- The administrator token of `bootstrap-dev.py`. -/
def bootstrapAdminToken (secretBytes : Vector UInt8 32) : String :=
  "orbi_admin_v1_" ++ String.ofList (tokenUrlsafe secretBytes).chars

/-- The forms of the credentials that are handed out. -/
inductive IsCredential : String → Prop
  | apiKey {parsed : ParsedKey} (hshape : parsed.WellShaped) : IsCredential parsed.render
  | enrollment (tokenId : Token 12) (secret : Token 43) :
      IsCredential ("orbi_node_v1_" ++ String.ofList tokenId.chars ++ "_" ++
        String.ofList secret.chars)
  | admin (secret : Token 43) :
      IsCredential ("orbi_admin_v1_" ++ String.ofList secret.chars)

theorem isCredential_rawKey {service : APIKeyService} {hash : String → String}
    {environment : String} {idBytes : Vector UInt8 9} {secretBytes : Vector UInt8 32}
    {generated : GeneratedAPIKey}
    (h : service.generate hash environment idBytes secretBytes = .ok generated) :
    IsCredential generated.rawKey := by
  obtain ⟨parsed, hshape, hraw, -⟩ := APIKeyService.generate_spec h
  rw [hraw]
  exact .apiKey hshape

theorem isCredential_rawToken (service : WorkerEnrollmentService) (hash : String → String)
    (idBytes : Vector UInt8 9) (secretBytes : Vector UInt8 32) :
    IsCredential (service.generate hash idBytes secretBytes).rawToken :=
  .enrollment (tokenUrlsafe idBytes) (tokenUrlsafe secretBytes)

theorem isCredential_bootstrapAdminToken (secretBytes : Vector UInt8 32) :
    IsCredential (bootstrapAdminToken secretBytes) :=
  .admin (tokenUrlsafe secretBytes)

theorem IsCredential.eq_append {credential : String} (h : IsCredential credential) :
    ∃ kind ∈ credentialKinds, ∃ c body, (∀ d ∈ c :: body, isUrlsafe d = true) ∧
      credential.toList = credentialPrefix kind ++ c :: body := by
  have hbody : ∀ text : List Char, text ≠ [] → (∀ d ∈ text, isUrlsafe d = true) →
      ∃ c body, (∀ d ∈ c :: body, isUrlsafe d = true) ∧ text = c :: body := by
    intro text hne hall
    obtain ⟨c, body, rfl⟩ := List.exists_cons_of_ne_nil hne
    exact ⟨c, body, hall, rfl⟩
  have hpair : ∀ id secret : List Char, (∀ d ∈ id, isUrlsafe d = true) →
      (∀ d ∈ secret, isUrlsafe d = true) → ∀ d ∈ id ++ '_' :: secret, isUrlsafe d = true := by
    intro id secret hid hsecret d hd
    rcases List.mem_append.mp hd with hd | hd
    · exact hid d hd
    · rcases List.mem_cons.mp hd with rfl | hd
      · decide
      · exact hsecret d hd
  cases h with
  | @apiKey parsed hshape =>
      obtain ⟨c, body, hall, htext⟩ := hbody
        (parsed.keyId.toList ++ '_' :: parsed.secret.toList) (by simp)
        (hpair _ _ hshape.keyId_urlsafe hshape.secret_urlsafe)
      refine ⟨parsed.environment, ?_, c, body, hall, ?_⟩
      · rcases hshape.environment with h | h
        · simp [credentialKinds, h]
        · simp [credentialKinds, h]
      · rw [← htext]
        simp [ParsedKey.render, credentialPrefix]
  | enrollment tokenId secret =>
      obtain ⟨c, body, hall, htext⟩ := hbody (tokenId.chars ++ '_' :: secret.chars) (by simp)
        (hpair _ _ tokenId.urlsafe secret.urlsafe)
      refine ⟨"node", by decide, c, body, hall, ?_⟩
      rw [← htext]
      simp [credentialPrefix]
  | admin secret =>
      have hne : secret.chars ≠ [] := by
        intro hnil
        have hlength := secret.length_eq
        rw [hnil] at hlength
        cases hlength
      obtain ⟨c, body, hall, htext⟩ := hbody secret.chars hne secret.urlsafe
      refine ⟨"admin", by decide, c, body, hall, ?_⟩
      rw [← htext]
      simp [credentialPrefix]

theorem IsCredential.isUrlsafe {credential : String} (h : IsCredential credential) :
    ∀ c ∈ credential.toList, Urlsafe.isUrlsafe c = true := by
  obtain ⟨kind, hkind, d, body, hall, hsplit⟩ := h.eq_append
  intro c hc
  rw [hsplit] at hc
  rcases List.mem_append.mp hc with hc | hc
  · exact isUrlsafe_of_mem_credentialPrefix hkind hc
  · exact hall c hc

/-- The pattern matches at a credential, whatever comes after it. -/
theorem IsCredential.exists_firstMatch {credential : String} (h : IsCredential credential)
    (flag : Bool) (post : List Char) :
    ∃ m, tokenPattern.firstMatch flag (credential.toList ++ post) = some m := by
  obtain ⟨kind, hkind, c, body, hall, hsplit⟩ := h.eq_append
  refine (matchesRuns_tokenPattern.firstMatch_iff _ _).mpr
    ⟨credentialPrefix kind ++ [c], ⟨kind, hkind, c, hall c List.mem_cons_self, rfl⟩,
      body ++ post, ?_⟩
  rw [hsplit]
  simp

/-! ## Redacted texts -/

theorem toList_redactText (s : String) : (redactText s).toList =
    (tokenPattern.pieces s.toList).flatMap (Piece.render redactionMarker.toList) := by
  rw [redactText, String.toList_ofList]
  rfl

theorem firstMatch_redactText (s : String) {before after : List Char}
    (h : (redactText s).toList = before ++ after) (flag : Bool) :
    tokenPattern.firstMatch flag after = none := by
  rw [toList_redactText] at h
  exact (Regex.scan_pieces tokenPattern s.toList).firstMatch_render matchesRuns_tokenPattern
    separates_redactionMarker before after h flag

theorem not_occurs_redactText (s : String) : ¬tokenPattern.Occurs (redactText s).toList := by
  rintro ⟨before, after, m, hsplit, hm⟩
  rw [firstMatch_redactText s hsplit] at hm
  cases hm

theorem redactText_redactText (s : String) : redactText (redactText s) = redactText s := by
  apply String.toList_injective
  rw [toList_redactText (redactText s)]
  exact (Regex.scan_pieces tokenPattern _).render_of_no_match
    fun before after hsplit flag => firstMatch_redactText s hsplit flag

/-- Redaction replaces the matches of the token pattern and nothing else, nothing is left to
replace, and one match takes a whole credential with what it can take around it. -/
theorem redaction_of_strings :
    (∀ s : String, ¬tokenPattern.Occurs (redactText s).toList) ∧
    (∀ s : String, redactText (redactText s) = redactText s) ∧
    (∀ s : String, Regex.Scan tokenPattern true s.toList (tokenPattern.pieces s.toList) ∧
      (tokenPattern.pieces s.toList).flatMap Piece.source = s.toList ∧
      (tokenPattern.pieces s.toList).flatMap (Piece.render redactionMarker.toList) =
        (redactText s).toList) ∧
    (∀ pre credential post : String, IsCredential credential →
      ∃ front left right back,
        tokenPattern.pieces (pre ++ credential ++ post).toList =
          front ++ .replaced (left ++ (credential.toList ++ right)) :: back ∧
        pre.toList = front.flatMap Piece.source ++ left ∧
        post.toList = right ++ back.flatMap Piece.source ∧
        (redactText (pre ++ credential ++ post)).toList =
          front.flatMap (Piece.render redactionMarker.toList) ++ (redactionMarker.toList ++
            back.flatMap (Piece.render redactionMarker.toList))) := by
  refine ⟨not_occurs_redactText, redactText_redactText, ?_, ?_⟩
  · intro s
    have hscan := Regex.scan_pieces tokenPattern s.toList
    exact ⟨hscan, hscan.source_eq, (toList_redactText s).symm⟩
  · intro pre credential post hcredential
    have hscan := Regex.scan_pieces tokenPattern (pre ++ credential ++ post).toList
    obtain ⟨front, left, right, back, hpieces, hpre, hpost⟩ :=
      hscan.covers matchesRuns_tokenPattern hcredential.isUrlsafe
        hcredential.exists_firstMatch pre.toList post.toList (by simp)
    refine ⟨front, left, right, back, hpieces, hpre, hpost, ?_⟩
    rw [toList_redactText, hpieces, List.flatMap_append, List.flatMap_cons]
    rfl

end OrbiGateway
