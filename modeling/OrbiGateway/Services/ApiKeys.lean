import Mathlib.Data.Set.Function
import OrbiGateway.Library.Regex
import OrbiGateway.Library.Urlsafe
import OrbiGateway.Models.Entities

/-!
# API keys

A key names its environment, a random id by which it is looked up and a random secret of
which only an Argon2id hash is stored.  The hasher is a parameter of the service.
-/

namespace OrbiGateway

open Pattern Urlsafe

/-- `APIKeyService.is_record_active`. -/
def isRecordActive (expiresAt revokedAt : Option Timestamp) (now : Timestamp) :
    Bool :=
  if revokedAt.isSome then
    false
  else
    match expiresAt with
    | none => true
    | some expiresAt => expiresAt > now

/-- The three parts of a structurally valid API key. -/
structure ParsedKey where
  environment : String
  keyId : String
  secret : String
  deriving DecidableEq

structure GeneratedAPIKey where
  rawKey : String
  keyId : String
  displayPrefix : String
  secretHash : String
  environment : String
  deriving DecidableEq

/-- `_KEY_RE`, which is
`^orbi_(live|test)_v1_([A-Za-z0-9_-]{12})_([A-Za-z0-9_-]{43})$`. -/
def keyPattern : Regex :=
  .seq .lineStart (.seq (.text "orbi_".toList) (.seq
    (.group 1 (.alt (.text "live".toList) (.text "test".toList)))
    (.seq (.text "_v1_".toList) (.seq (.group 2 (.times isUrlsafe 12))
      (.seq (.text "_".toList) (.seq (.group 3 (.times isUrlsafe 43)) .lineEnd))))))

/-- `APIKeyService` with its pepper and its hasher. -/
structure APIKeyService where
  pepper : String
  /-- Argon2id verification of a stored hash against a text. -/
  verify : String → String → Bool
  pepper_ge : 32 ≤ pepper.utf8ByteSize

namespace APIKeyService

def peppered (service : APIKeyService) (secret : String) : String :=
  secret ++ ":" ++ service.pepper

/-- `generate`, with the hash that the hasher computes and the bytes that the random
source gives. -/
def generate (service : APIKeyService) (hash : String → String) (environment : String)
    (idBytes : Vector UInt8 9) (secretBytes : Vector UInt8 32) :
    Except Failure GeneratedAPIKey :=
  if environment ≠ "live" ∧ environment ≠ "test" then
    .error (.valueError "environment must be 'live' or 'test'")
  else
    let keyId := String.ofList (tokenUrlsafe idBytes).chars
    let secret := String.ofList (tokenUrlsafe secretBytes).chars
    .ok {
      rawKey := "orbi_" ++ environment ++ "_v1_" ++ keyId ++ "_" ++ secret
      keyId := keyId
      displayPrefix := "orbi_" ++ environment ++ "_v1_" ++ keyId
      secretHash := hash (service.peppered secret)
      environment := environment }

/-- `parse`. -/
def parse (rawKey : String) : Option ParsedKey := do
  let m ← keyPattern.fullMatch rawKey.toList
  let environment ← m.group 1
  let keyId ← m.group 2
  let secret ← m.group 3
  return ⟨String.ofList environment, String.ofList keyId, String.ofList secret⟩

/-- `verify_secret`. -/
def verifySecret (service : APIKeyService) (secret storedHash : String) : Bool :=
  service.verify storedHash (service.peppered secret)

end APIKeyService

/-! ## The codec -/

/-- The text of a key. -/
def ParsedKey.render (parsed : ParsedKey) : String :=
  "orbi_" ++ parsed.environment ++ "_v1_" ++ parsed.keyId ++ "_" ++ parsed.secret

/-- The shape of the parts of a key. -/
structure ParsedKey.WellShaped (parsed : ParsedKey) : Prop where
  environment : parsed.environment = "live" ∨ parsed.environment = "test"
  keyId_length : parsed.keyId.length = 12
  keyId_urlsafe : ∀ c ∈ parsed.keyId.toList, isUrlsafe c = true
  secret_length : parsed.secret.length = 43
  secret_urlsafe : ∀ c ∈ parsed.secret.toList, isUrlsafe c = true

/-- What a key's pattern matches, when `rest` comes after it. -/
def ParsedKey.keyMatch (parsed : ParsedKey) (rest : List Char) : Match where
  text := parsed.render.toList
  rest := rest
  groups := [(1, parsed.environment.toList), (2, parsed.keyId.toList),
    (3, parsed.secret.toList)]

/-- The pattern matches only a rendered key of the right shape, and at most a line feed
comes after it. -/
theorem exists_of_mem_keyPattern {s : List Char} {m : Match}
    (h : m ∈ keyPattern.matchesOf true s) : ∃ (parsed : ParsedKey) (rest : List Char),
      parsed.WellShaped ∧ s = parsed.render.toList ++ rest ∧ m = parsed.keyMatch rest := by
  obtain ⟨m₁, hstart, m₂, h₂, rfl⟩ := Regex.mem_seq_iff.mp h
  obtain ⟨-, rfl⟩ := Regex.mem_lineStart_iff.mp hstart
  obtain ⟨m₃, hmarker, m₄, h₄, rfl⟩ := Regex.mem_seq_iff.mp h₂
  obtain ⟨rest₄, (rfl : s = _), rfl⟩ := Regex.mem_text_iff.mp hmarker
  obtain ⟨m₅, hkinds, m₆, h₆, rfl⟩ := Regex.mem_seq_iff.mp h₄
  obtain ⟨m', hkind, rfl⟩ := Regex.mem_group_iff.mp hkinds
  obtain ⟨environment, henvironment, rest₆, rfl, rfl⟩ :
      ∃ environment : String, (environment = "live" ∨ environment = "test") ∧
        ∃ rest, rest₄ = environment.toList ++ rest ∧
          m' = ⟨environment.toList, rest, []⟩ := by
    rcases Regex.mem_alt_iff.mp hkind with hlive | htest
    · exact ⟨"live", .inl rfl, Regex.mem_text_iff.mp hlive⟩
    · exact ⟨"test", .inr rfl, Regex.mem_text_iff.mp htest⟩
  obtain ⟨m₇, hversion, m₈, h₈, rfl⟩ := Regex.mem_seq_iff.mp h₆
  obtain ⟨rest₈, (rfl : rest₆ = _), rfl⟩ := Regex.mem_text_iff.mp hversion
  obtain ⟨m₉, hids, m₁₀, h₁₀, rfl⟩ := Regex.mem_seq_iff.mp h₈
  obtain ⟨m', hid, rfl⟩ := Regex.mem_group_iff.mp hids
  obtain ⟨keyId, rest₁₀, rfl, hidLength, hidUrlsafe, rfl⟩ := Regex.mem_times_iff.mp hid
  obtain ⟨m₁₁, hseparator, m₁₂, h₁₂, rfl⟩ := Regex.mem_seq_iff.mp h₁₀
  obtain ⟨rest₁₂, (rfl : rest₁₀ = _), rfl⟩ := Regex.mem_text_iff.mp hseparator
  obtain ⟨m₁₃, hsecrets, m₁₄, hlast, rfl⟩ := Regex.mem_seq_iff.mp h₁₂
  obtain ⟨m', hsecret, rfl⟩ := Regex.mem_group_iff.mp hsecrets
  obtain ⟨secret, rest, rfl, hsecretLength, hsecretUrlsafe, rfl⟩ :=
    Regex.mem_times_iff.mp hsecret
  obtain ⟨-, rfl⟩ := Regex.mem_lineEnd_iff.mp hlast
  refine ⟨⟨environment, String.ofList keyId, String.ofList secret⟩, rest,
    ⟨henvironment, ?_, ?_, ?_, ?_⟩, ?_, ?_⟩
  · simpa using hidLength
  · simpa using hidUrlsafe
  · simpa using hsecretLength
  · simpa using hsecretUrlsafe
  · simp [ParsedKey.render]
  · simp [ParsedKey.keyMatch, ParsedKey.render, Match.andThen, Match.inGroup]

theorem ParsedKey.WellShaped.keyMatch_mem {parsed : ParsedKey} (hshape : parsed.WellShaped) :
    parsed.keyMatch [] ∈ keyPattern.matchesOf true parsed.render.toList := by
  obtain ⟨environment, keyId, secret⟩ := parsed
  have hlast : ∀ flag, (⟨[], [], []⟩ : Match) ∈ Regex.lineEnd.matchesOf flag [] :=
    fun flag => Regex.mem_lineEnd_iff.mpr ⟨.inl rfl, rfl⟩
  have hsecret : ∀ flag, (⟨secret.toList, [], []⟩ : Match).inGroup 3 ∈
      (Regex.group 3 (.times isUrlsafe 43)).matchesOf flag (secret.toList ++ []) :=
    fun flag => Regex.mem_group_iff.mpr ⟨_, Regex.mem_times_iff.mpr
      ⟨secret.toList, [], rfl, String.length_toList.trans hshape.secret_length,
        hshape.secret_urlsafe, rfl⟩, rfl⟩
  have hid : ∀ flag rest, (⟨keyId.toList, rest, []⟩ : Match).inGroup 2 ∈
      (Regex.group 2 (.times isUrlsafe 12)).matchesOf flag (keyId.toList ++ rest) :=
    fun flag rest => Regex.mem_group_iff.mpr ⟨_, Regex.mem_times_iff.mpr
      ⟨keyId.toList, rest, rfl, String.length_toList.trans hshape.keyId_length,
        hshape.keyId_urlsafe, rfl⟩, rfl⟩
  have hkind : ∀ flag rest, (⟨environment.toList, rest, []⟩ : Match).inGroup 1 ∈
      (Regex.group 1 (.alt (.text "live".toList) (.text "test".toList))).matchesOf flag
        (environment.toList ++ rest) := by
    intro flag rest
    refine Regex.mem_group_iff.mpr ⟨_, Regex.mem_alt_iff.mpr ?_, rfl⟩
    rcases hshape.environment with rfl | rfl
    · exact .inl (Regex.mem_text_iff.mpr ⟨rest, rfl, rfl⟩)
    · exact .inr (Regex.mem_text_iff.mpr ⟨rest, rfl, rfl⟩)
  have htext : ∀ word flag rest, (⟨word, rest, []⟩ : Match) ∈
      (Regex.text word).matchesOf flag (word ++ rest) :=
    fun word flag rest => Regex.mem_text_iff.mpr ⟨rest, rfl, rfl⟩
  have hall := Regex.andThen_mem_seq
    (Regex.mem_lineStart_iff.mpr ⟨rfl, rfl⟩)
    (Regex.andThen_mem_seq (htext "orbi_".toList _ _)
      (Regex.andThen_mem_seq (hkind _ _)
        (Regex.andThen_mem_seq (htext "_v1_".toList _ _)
          (Regex.andThen_mem_seq (hid _ _)
            (Regex.andThen_mem_seq (htext "_".toList _ _)
              (Regex.andThen_mem_seq (hsecret _) (hlast _)))))))
  simpa [keyPattern, ParsedKey.keyMatch, ParsedKey.render, Match.andThen, Match.inGroup] using hall


/-- The parts of a key stand at fixed places. -/
theorem ParsedKey.WellShaped.eq_of_render_eq {parsed parsed' : ParsedKey}
    (hshape : parsed.WellShaped) (hshape' : parsed'.WellShaped)
    (h : parsed.render = parsed'.render) : parsed = parsed' := by
  have henvironment : ∀ {parsed : ParsedKey}, parsed.WellShaped →
      parsed.environment.toList.length = 4 := by
    intro parsed hshape
    rcases hshape.environment with h | h
    · rw [h]
      rfl
    · rw [h]
      rfl
  have hlists := congrArg String.toList h
  simp only [render, String.toList_append, List.append_assoc] at hlists
  have h₁ := List.append_cancel_left hlists
  obtain ⟨he, h₂⟩ := List.append_inj h₁
    ((henvironment hshape).trans (henvironment hshape').symm)
  have h₃ := List.append_cancel_left h₂
  obtain ⟨hid, h₄⟩ := List.append_inj h₃ (by
    rw [String.length_toList, String.length_toList, hshape.keyId_length,
      hshape'.keyId_length])
  have hsecret := List.append_cancel_left h₄
  obtain ⟨environment, keyId, secret⟩ := parsed
  obtain ⟨environment', keyId', secret'⟩ := parsed'
  exact congr (congr (congrArg ParsedKey.mk (String.toList_injective he))
    (String.toList_injective hid)) (String.toList_injective hsecret)

namespace APIKeyService

theorem parse_render {parsed : ParsedKey} (hshape : parsed.WellShaped) :
    parse parsed.render = some parsed := by
  have hfull : keyPattern.fullMatch parsed.render.toList = some (parsed.keyMatch []) := by
    refine Regex.fullMatch_eq_some hshape.keyMatch_mem rfl ?_
    intro m hm hrest
    obtain ⟨parsed', rest, hshape', hsplit, rfl⟩ := exists_of_mem_keyPattern hm
    change rest = [] at hrest
    subst hrest
    rw [List.append_nil] at hsplit
    rw [hshape.eq_of_render_eq hshape' (String.toList_injective hsplit)]
  simp [parse, hfull, ParsedKey.keyMatch, Match.group]

/-- A key is parsed exactly if it is the rendering of its parts. -/
theorem parse_eq_some_iff {rawKey : String} {parsed : ParsedKey} :
    parse rawKey = some parsed ↔ parsed.WellShaped ∧ rawKey = parsed.render := by
  constructor
  · intro h
    unfold parse at h
    obtain ⟨m, hm, -⟩ := Option.bind_eq_some_iff.mp h
    obtain ⟨hmem, hrest⟩ := Regex.mem_of_fullMatch hm
    obtain ⟨parsed', rest, hshape, hsplit, rfl⟩ := exists_of_mem_keyPattern hmem
    change rest = [] at hrest
    subst hrest
    rw [List.append_nil] at hsplit
    have hraw : rawKey = parsed'.render := String.toList_injective hsplit
    have hparse := parse_render hshape
    rw [← hraw] at hparse
    obtain rfl : parsed' = parsed := Option.some.inj (hparse.symm.trans h)
    exact ⟨hshape, hraw⟩
  · rintro ⟨hshape, rfl⟩
    exact parse_render hshape

/-- A generated key is the rendering of its id and of the secret that was hashed. -/
theorem generate_spec {service : APIKeyService} {hash : String → String}
    {environment : String} {idBytes : Vector UInt8 9} {secretBytes : Vector UInt8 32}
    {generated : GeneratedAPIKey}
    (h : service.generate hash environment idBytes secretBytes = .ok generated) :
    ∃ parsed : ParsedKey, parsed.WellShaped ∧ generated.rawKey = parsed.render ∧
      generated.environment = parsed.environment ∧ generated.keyId = parsed.keyId ∧
      generated.secretHash = hash (service.peppered parsed.secret) := by
  unfold generate at h
  split at h
  · cases h
  next henvironment =>
    cases h
    refine ⟨⟨environment, String.ofList (tokenUrlsafe idBytes).chars,
      String.ofList (tokenUrlsafe secretBytes).chars⟩, ⟨?_, ?_, ?_, ?_, ?_⟩, rfl, rfl, rfl,
      rfl⟩
    · by_cases hlive : environment = "live"
      · exact .inl hlive
      · exact .inr (not_not.mp fun htest => henvironment ⟨hlive, htest⟩)
    · exact String.length_ofList.trans (tokenUrlsafe idBytes).length_eq
    · rw [String.toList_ofList]
      exact (tokenUrlsafe idBytes).urlsafe
    · exact String.length_ofList.trans (tokenUrlsafe secretBytes).length_eq
    · rw [String.toList_ofList]
      exact (tokenUrlsafe secretBytes).urlsafe

end APIKeyService

/-- Parsing a key inverts rendering it: what is parsed is exactly the rendering of parts of
the right shape, which every generated key is. -/
theorem api_key_codec :
    (∀ parsed : ParsedKey, parsed.WellShaped →
      APIKeyService.parse parsed.render = some parsed) ∧
    (∀ (rawKey : String) (parsed : ParsedKey), APIKeyService.parse rawKey = some parsed →
      parsed.WellShaped ∧ rawKey = parsed.render) ∧
    Set.BijOn APIKeyService.parse {rawKey | (APIKeyService.parse rawKey).isSome}
      (some '' {parsed | parsed.WellShaped}) ∧
    (∀ (service : APIKeyService) (hash : String → String) (environment : String)
      (idBytes : Vector UInt8 9) (secretBytes : Vector UInt8 32)
      (generated : GeneratedAPIKey),
      service.generate hash environment idBytes secretBytes = .ok generated →
      ∃ secret, APIKeyService.parse generated.rawKey =
          some ⟨generated.environment, generated.keyId, secret⟩ ∧
        generated.secretHash = hash (service.peppered secret)) := by
  refine ⟨?_, ?_, ⟨?_, ?_, ?_⟩, ?_⟩
  · intro parsed hshape
    exact APIKeyService.parse_render hshape
  · intro rawKey parsed h
    exact APIKeyService.parse_eq_some_iff.mp h
  · intro rawKey h
    obtain ⟨parsed, hparsed⟩ := Option.isSome_iff_exists.mp h
    exact ⟨parsed, (APIKeyService.parse_eq_some_iff.mp hparsed).1, hparsed.symm⟩
  · intro rawKey h rawKey' h' heq
    obtain ⟨parsed, hparsed⟩ := Option.isSome_iff_exists.mp h
    have hraw := (APIKeyService.parse_eq_some_iff.mp hparsed).2
    have hraw' := (APIKeyService.parse_eq_some_iff.mp (heq.symm.trans hparsed)).2
    exact hraw.trans hraw'.symm
  · rintro _ ⟨parsed, hshape, rfl⟩
    have hparse := APIKeyService.parse_render hshape
    exact ⟨parsed.render, Option.isSome_of_eq_some hparse, hparse⟩
  · intro service hash environment idBytes secretBytes generated h
    obtain ⟨parsed, hshape, hraw, henvironment, hid, hhash⟩ :=
      APIKeyService.generate_spec h
    refine ⟨parsed.secret, ?_, hhash⟩
    rw [hraw, henvironment, hid]
    exact APIKeyService.parse_render hshape

theorem api_key_codec_underscores :
    APIKeyService.parse ("orbi_" ++ "test" ++ "_v1_" ++ "____________" ++ "_" ++
        "___________________________________________") =
      some ⟨"test", "____________", "___________________________________________"⟩ := by
  let parsed : ParsedKey :=
    ⟨"test", "____________", "___________________________________________"⟩
  have hshape : parsed.WellShaped := ⟨.inr rfl, by decide, List.all_eq_true.mp (by decide),
    by decide, List.all_eq_true.mp (by decide)⟩
  exact api_key_codec.1 parsed hshape

end OrbiGateway
