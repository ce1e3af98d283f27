import OrbiGateway.Library.JsonText
import OrbiGateway.Library.Regex
import OrbiGateway.Library.Urlsafe

/-!
# Structured logging

`redact_secrets` replaces credential-shaped text in the strings of a log event before the
event is rendered as a line of JSON.
-/

namespace OrbiGateway

open Pattern PyJson Urlsafe

/-- `orbi_(?:live|test|node|admin)_v1_[A-Za-z0-9_-]+(?:_[A-Za-z0-9_-]+)?`. -/
def tokenPattern : Regex :=
  .seq (.text "orbi_".toList) (.seq
    (.alt (.text "live".toList) (.alt (.text "test".toList) (.alt (.text "node".toList)
      (.text "admin".toList))))
    (.seq (.text "_v1_".toList) (.seq (.many isUrlsafe)
      (.opt (.seq (.text "_".toList) (.many isUrlsafe))))))

def redactionMarker : String := "[REDACTED_ORBI_TOKEN]"

/-- `_TOKEN_PATTERN.sub("[REDACTED_ORBI_TOKEN]", value)`. -/
def redactText (value : String) : String :=
  String.ofList (tokenPattern.sub redactionMarker.toList value.toList)

/-! ## Events -/

mutual

/-- `scrub`. -/
def scrub (value : Value) : Value :=
  match value with
  | .str text => .str (redactText text)
  | .dict entries => .dict (scrubEntries entries)
  | .list items => .list (scrubItems items)
  | other => other
termination_by structural value

def scrubItems (items : List Value) : List Value :=
  match items with
  | [] => []
  | item :: rest => scrub item :: scrubItems rest
termination_by structural items

def scrubEntries (entries : List (String × Value)) : List (String × Value) :=
  match entries with
  | [] => []
  | entry :: rest => scrubEntry entry :: scrubEntries rest
termination_by structural entries

def scrubEntry (entry : String × Value) : String × Value :=
  match entry with
  | (key, item) => (key, scrub item)
termination_by structural entry

end

/-- The fields of a log event, by their names. -/
abbrev LogEvent := List (String × Value)

def redactSecrets (event : LogEvent) : LogEvent :=
  event.map fun (key, value) => (key, scrub value)

/-- `structlog.processors.JSONRenderer`. -/
def jsonRenderer (event : LogEvent) : List Char :=
  dumps (.dict event)

theorem scrubItems_eq (items : List Value) : scrubItems items = items.map scrub := by
  induction items with
  | nil => rfl
  | cons item rest ih =>
      rw [scrubItems, ih]
      rfl

theorem scrubEntries_eq (event : LogEvent) : scrubEntries event = redactSecrets event := by
  induction event with
  | nil => rfl
  | cons entry rest ih =>
      obtain ⟨key, item⟩ := entry
      rw [scrubEntries, ih]
      rfl

/-! ## The pattern -/

def credentialKinds : List String := ["live", "test", "node", "admin"]

/-- The fixed part of a credential. -/
def credentialPrefix (kind : String) : List Char :=
  "orbi_".toList ++ (kind.toList ++ "_v1_".toList)

theorem credentialPrefix_append (kind : String) (rest : List Char) :
    credentialPrefix kind ++ rest =
      "orbi_".toList ++ (kind.toList ++ ("_v1_".toList ++ rest)) :=
  (List.append_assoc _ _ _).trans (congrArg _ (List.append_assoc _ _ _))

/-- The shortest texts that the pattern matches. -/
def TokenWord (word : List Char) : Prop :=
  ∃ kind ∈ credentialKinds, ∃ c, isUrlsafe c = true ∧ word = credentialPrefix kind ++ [c]

theorem isUrlsafe_of_mem_credentialPrefix {kind : String} (hkind : kind ∈ credentialKinds)
    {c : Char} (hc : c ∈ credentialPrefix kind) : isUrlsafe c = true := by
  have hall : (credentialKinds.all fun kind => (credentialPrefix kind).all isUrlsafe) = true := by
    decide
  exact List.all_eq_true.mp (List.all_eq_true.mp hall kind hkind) c hc

theorem firstMatch_kind {kind : String} (hkind : kind ∈ credentialKinds) (rest : List Char) :
    (Regex.alt (.text "live".toList) (.alt (.text "test".toList)
      (.alt (.text "node".toList) (.text "admin".toList)))).firstMatch false
        (kind.toList ++ rest) = some ⟨kind.toList, rest, []⟩ := by
  simp only [credentialKinds, List.mem_cons, List.not_mem_nil, or_false] at hkind
  rcases hkind with rfl | rfl | rfl | rfl
  · simp [Regex.firstMatch, Regex.matchesOf]
  · simp [Regex.firstMatch, Regex.matchesOf]
  · simp [Regex.firstMatch, Regex.matchesOf]
  · simp [Regex.firstMatch, Regex.matchesOf]

/-- The match of a credential takes everything up to the next character outside the
alphabet: nothing is left for the optional second part. -/
theorem firstMatch_token {kind : String} (hkind : kind ∈ credentialKinds)
    {word rest : List Char} (hword : word ≠ []) (hall : ∀ c ∈ word, isUrlsafe c = true)
    (hend : ∀ c cs, rest = c :: cs → isUrlsafe c = false) (atStart : Bool) :
    tokenPattern.firstMatch atStart (credentialPrefix kind ++ (word ++ rest)) =
      some ⟨credentialPrefix kind ++ word, rest, []⟩ := by
  have hsecond : ∀ flag, (Regex.seq (.text "_".toList) (.many isUrlsafe)).firstMatch flag
      rest = none := by
    intro flag
    rw [Regex.firstMatch_eq_none_iff]
    intro m hm
    obtain ⟨m', hm', -⟩ := Regex.mem_seq_iff.mp hm
    obtain ⟨tail, htail, -⟩ := Regex.mem_text_iff.mp hm'
    have hno := hend '_' tail htail
    exact absurd hno (by decide)
  have hrun : (Regex.seq (.many isUrlsafe) (.opt (.seq (.text "_".toList)
      (.many isUrlsafe)))).firstMatch false (word ++ rest) = some ⟨word, rest, []⟩ := by
    have hboth := Regex.firstMatch_seq (Regex.firstMatch_many hword hall hend false)
      (Regex.firstMatch_opt_none (hsecond _))
    exact hboth.trans (congrArg (fun text => some (Match.mk text rest [])) (List.append_nil word))
  have hversion := fun flag => Regex.firstMatch_seq
    (Regex.firstMatch_text "_v1_".toList (word ++ rest) flag) hrun
  have hkinds := Regex.firstMatch_seq
    (firstMatch_kind hkind ("_v1_".toList ++ (word ++ rest))) (hversion _)
  calc
    tokenPattern.firstMatch atStart (credentialPrefix kind ++ (word ++ rest)) =
        tokenPattern.firstMatch atStart
          ("orbi_".toList ++ (kind.toList ++ ("_v1_".toList ++ (word ++ rest)))) :=
      congrArg _ (credentialPrefix_append kind (word ++ rest))
    _ = some ⟨"orbi_".toList ++ (kind.toList ++ ("_v1_".toList ++ word)), rest, []⟩ :=
      Regex.firstMatch_seq (Regex.firstMatch_text "orbi_".toList _ atStart) hkinds
    _ = some ⟨credentialPrefix kind ++ word, rest, []⟩ :=
      congrArg (fun text => some (Match.mk text rest [])) (credentialPrefix_append kind word).symm

/-- The pattern matches exactly the texts that begin with a word of its shape. -/
theorem exists_word_of_mem_tokenPattern {atStart : Bool} {s : List Char} {m : Match}
    (h : m ∈ tokenPattern.matchesOf atStart s) : ∃ word, TokenWord word ∧ word <+: s := by
  obtain ⟨m₁, hmarker, m₂, h₂, rfl⟩ := Regex.mem_seq_iff.mp h
  obtain ⟨rest₂, (rfl : s = _), rfl⟩ := Regex.mem_text_iff.mp hmarker
  obtain ⟨m₃, hkinds, m₄, h₄, rfl⟩ := Regex.mem_seq_iff.mp h₂
  obtain ⟨kind, hkind, rest₄, rfl, rfl⟩ : ∃ kind ∈ credentialKinds,
      ∃ rest, rest₂ = kind.toList ++ rest ∧ m₃ = ⟨kind.toList, rest, []⟩ := by
    rcases Regex.mem_alt_iff.mp hkinds with hlive | hkinds
    · exact ⟨"live", by decide, Regex.mem_text_iff.mp hlive⟩
    rcases Regex.mem_alt_iff.mp hkinds with htest | hkinds
    · exact ⟨"test", by decide, Regex.mem_text_iff.mp htest⟩
    rcases Regex.mem_alt_iff.mp hkinds with hnode | hadmin
    · exact ⟨"node", by decide, Regex.mem_text_iff.mp hnode⟩
    · exact ⟨"admin", by decide, Regex.mem_text_iff.mp hadmin⟩
  obtain ⟨m₅, hversion, m₆, h₆, rfl⟩ := Regex.mem_seq_iff.mp h₄
  obtain ⟨rest₆, (rfl : rest₄ = _), rfl⟩ := Regex.mem_text_iff.mp hversion
  obtain ⟨m₇, hrun, -⟩ := Regex.mem_seq_iff.mp h₆
  obtain ⟨c, rest, (rfl : rest₆ = _), hc, -⟩ := Regex.exists_cons_of_mem_many hrun
  refine ⟨credentialPrefix kind ++ [c], ⟨kind, hkind, c, hc, rfl⟩, rest, ?_⟩
  simp [credentialPrefix]

/-- Where a word of the pattern's shape stands, the pattern matches it with all characters
of the alphabet that follow. -/
theorem firstMatch_of_prefix {word s : List Char} (hword : TokenWord word)
    (hbegin : word <+: s) (atStart : Bool) : ∃ kind run rest, run ≠ [] ∧
      (∀ c cs, rest = c :: cs → isUrlsafe c = false) ∧
      tokenPattern.firstMatch atStart s = some ⟨credentialPrefix kind ++ run, rest, []⟩ := by
  obtain ⟨kind, hkind, c, hc, rfl⟩ := hword
  obtain ⟨tail, rfl⟩ := hbegin
  have hrun : (c :: tail).takeWhile isUrlsafe = c :: tail.takeWhile isUrlsafe :=
    List.takeWhile_cons_of_pos hc
  have hend : ∀ d ds, (c :: tail).dropWhile isUrlsafe = d :: ds → isUrlsafe d = false := by
    intro d ds hdrop
    have hhead := List.head?_dropWhile_not isUrlsafe (c :: tail)
    rw [hdrop] at hhead
    exact hhead
  refine ⟨kind, (c :: tail).takeWhile isUrlsafe, (c :: tail).dropWhile isUrlsafe,
    hrun ▸ List.cons_ne_nil _ _, hend, ?_⟩
  have hmatch := firstMatch_token hkind (hrun ▸ List.cons_ne_nil _ _)
    (List.all_eq_true.mp List.all_takeWhile) hend atStart
  rw [List.takeWhile_append_dropWhile] at hmatch
  rw [List.append_assoc]
  exact hmatch

theorem matchesRuns_tokenPattern :
    Regex.MatchesRuns tokenPattern isUrlsafe TokenWord where
  firstMatch_iff := by
    intro atStart s
    constructor
    · rintro ⟨m, hm⟩
      exact exists_word_of_mem_tokenPattern (Regex.mem_of_firstMatch hm)
    · rintro ⟨word, hword, hbegin⟩
      obtain ⟨kind, run, rest, -, -, hmatch⟩ := firstMatch_of_prefix hword hbegin atStart
      exact ⟨_, hmatch⟩
  text_ne_nil := by
    intro atStart s m hm
    obtain ⟨word, hword, hbegin⟩ :=
      exists_word_of_mem_tokenPattern (Regex.mem_of_firstMatch hm)
    obtain ⟨kind, run, rest, hrun, -, hmatch⟩ := firstMatch_of_prefix hword hbegin atStart
    obtain rfl := Option.some.inj (hm.symm.trans hmatch)
    simp [hrun]
  word_class := by
    rintro _ ⟨kind, hkind, d, hd, rfl⟩ c hc
    rcases List.mem_append.mp hc with hc | hc
    · exact isUrlsafe_of_mem_credentialPrefix hkind hc
    · rw [List.mem_singleton.mp hc]
      exact hd
  rest_class := by
    intro atStart s m hm
    obtain ⟨word, hword, hbegin⟩ :=
      exists_word_of_mem_tokenPattern (Regex.mem_of_firstMatch hm)
    obtain ⟨kind, run, rest, -, hend, hmatch⟩ := firstMatch_of_prefix hword hbegin atStart
    obtain rfl := Option.some.inj (hm.symm.trans hmatch)
    exact hend

theorem separates_redactionMarker :
    Regex.Separates isUrlsafe TokenWord redactionMarker.toList where
  begins := ⟨'[', "REDACTED_ORBI_TOKEN]".toList, by decide, by decide⟩
  not_mem := by
    rintro _ ⟨kind, -, d, -, rfl⟩
    exact ⟨'o', _, rfl, by decide⟩

example : redactText "key=orbi_live_v1_abc_def, ok" = "key=[REDACTED_ORBI_TOKEN], ok" := by
  decide

end OrbiGateway
