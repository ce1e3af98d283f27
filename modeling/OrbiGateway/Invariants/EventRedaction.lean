import OrbiGateway.Invariants.Redaction

/-!
# Redaction of events

`redact_secrets` rewrites the strings that stand in the values of dicts and lists.  The
keys of dicts and everything inside a tuple reach the log line as they are.
-/

namespace OrbiGateway

open Pattern PyJson

/-! ## What is not rewritten -/

mutual

/-- The strings of a value that stand in no place that is scrubbed: the keys of its dicts
and the strings of its tuples. -/
def unscrubbed (value : Value) : List String :=
  match value with
  | .str _ => []
  | .int _ => []
  | .float _ => []
  | .bool _ => []
  | .none => []
  | .list items => unscrubbedOfItems items
  | .tuple items => stringsOfItems items
  | .dict entries => unscrubbedOfEntries entries
termination_by structural value

def unscrubbedOfItems (items : List Value) : List String :=
  match items with
  | [] => []
  | item :: rest => unscrubbed item ++ unscrubbedOfItems rest
termination_by structural items

def unscrubbedOfEntries (entries : List (String × Value)) : List String :=
  match entries with
  | [] => []
  | entry :: rest => unscrubbedOfEntry entry ++ unscrubbedOfEntries rest
termination_by structural entries

def unscrubbedOfEntry (entry : String × Value) : List String :=
  match entry with
  | (key, item) => key :: unscrubbed item
termination_by structural entry

end

theorem mem_unscrubbedOfItems_iff {s : String} {items : List Value} :
    s ∈ unscrubbedOfItems items ↔ ∃ item ∈ items, s ∈ unscrubbed item := by
  induction items with
  | nil => simp [unscrubbedOfItems]
  | cons item rest ih => simp [unscrubbedOfItems, ih]

theorem mem_unscrubbedOfEntries_iff {s : String} {entries : List (String × Value)} :
    s ∈ unscrubbedOfEntries entries ↔
      ∃ entry ∈ entries, s = entry.1 ∨ s ∈ unscrubbed entry.2 := by
  induction entries with
  | nil => simp [unscrubbedOfEntries]
  | cons entry rest ih =>
      obtain ⟨key, item⟩ := entry
      simp [unscrubbedOfEntries, unscrubbedOfEntry, ih, or_assoc]

/-- A string of the output is the redaction of some text or one of the strings that are not
rewritten. -/
theorem mem_strings_scrub {s : String} (v : Value) :
    s ∈ strings (scrub v) → (∃ text, s = redactText text) ∨ s ∈ unscrubbed v := by
  induction v with
  | str text =>
      intro h
      exact .inl ⟨text, List.mem_singleton.mp h⟩
  | int n =>
      intro h
      cases h
  | float x =>
      intro h
      cases h
  | bool b =>
      intro h
      cases h
  | none =>
      intro h
      cases h
  | list items ih =>
      intro h
      change s ∈ stringsOfItems (scrubItems items) at h
      rw [scrubItems_eq, mem_stringsOfItems_iff] at h
      obtain ⟨_, hscrubbed, hs⟩ := h
      obtain ⟨item, hitem, rfl⟩ := List.mem_map.mp hscrubbed
      refine (ih item hitem hs).imp_right fun hin => ?_
      exact mem_unscrubbedOfItems_iff.mpr ⟨item, hitem, hin⟩
  | tuple items ih =>
      intro h
      exact .inr h
  | dict entries ih =>
      intro h
      change s ∈ stringsOfEntries (scrubEntries entries) at h
      rw [scrubEntries_eq, mem_stringsOfEntries_iff] at h
      obtain ⟨_, hscrubbed, hs⟩ := h
      obtain ⟨entry, hentry, rfl⟩ := List.mem_map.mp hscrubbed
      rcases hs with hkey | hs
      · exact .inr (mem_unscrubbedOfEntries_iff.mpr ⟨entry, hentry, .inl hkey⟩)
      · refine (ih entry hentry hs).imp_right fun hin => ?_
        exact mem_unscrubbedOfEntries_iff.mpr ⟨entry, hentry, .inr hin⟩

theorem mem_strings_scrub_of_mem_unscrubbed {s : String} (v : Value) :
    s ∈ unscrubbed v → s ∈ strings (scrub v) := by
  induction v with
  | str text =>
      intro h
      cases h
  | int n =>
      intro h
      cases h
  | float x =>
      intro h
      cases h
  | bool b =>
      intro h
      cases h
  | none =>
      intro h
      cases h
  | list items ih =>
      intro h
      obtain ⟨item, hitem, hin⟩ := mem_unscrubbedOfItems_iff.mp h
      change s ∈ stringsOfItems (scrubItems items)
      rw [scrubItems_eq, mem_stringsOfItems_iff]
      exact ⟨scrub item, List.mem_map_of_mem hitem, ih item hitem hin⟩
  | tuple items ih =>
      intro h
      exact h
  | dict entries ih =>
      intro h
      obtain ⟨entry, hentry, hin⟩ := mem_unscrubbedOfEntries_iff.mp h
      change s ∈ stringsOfEntries (scrubEntries entries)
      rw [scrubEntries_eq, mem_stringsOfEntries_iff]
      exact ⟨(entry.1, scrub entry.2), List.mem_map_of_mem hentry,
        hin.imp_right (ih entry hentry)⟩

/-! ## The line -/

theorem isPlain_of_isUrlsafe {c : Char} (h : Urlsafe.isUrlsafe c = true) :
    isPlain c = true := by
  have hall : ∀ n < 123, Urlsafe.isUrlsafe (Char.ofNat n) = true →
      isPlain (Char.ofNat n) = true := by decide
  have hlt : c.toNat < 123 := Urlsafe.toNat_lt_of_isUrlsafe h
  have hchar := hall c.toNat hlt
  rw [Char.ofNat_toNat] at hchar
  exact hchar h

theorem TokenWord.stringWord {word : List Char} (h : TokenWord word) : StringWord word where
  plain := by
    intro c hc
    exact isPlain_of_isUrlsafe (matchesRuns_tokenPattern.word_class h c hc)
  begins := by
    obtain ⟨kind, -, c, -, rfl⟩ := h
    exact ⟨'o', _, rfl, by decide⟩

theorem occurs_iff {s : List Char} :
    tokenPattern.Occurs s ↔ ∃ word, TokenWord word ∧ word <:+: s :=
  matchesRuns_tokenPattern.occurs_iff

/-- Nothing in the strings of the output matches exactly if no key and no string of a tuple
matches, and then nothing in the line does. -/
theorem event_redaction_iff (event : LogEvent) :
    ((∀ s ∈ strings (.dict (redactSecrets event)), ¬tokenPattern.Occurs s.toList) ∧
      ¬tokenPattern.Occurs (jsonRenderer (redactSecrets event))) ↔
    ∀ s ∈ unscrubbed (.dict event), ¬tokenPattern.Occurs s.toList := by
  have hscrub : scrub (.dict event) = .dict (redactSecrets event) :=
    congrArg Value.dict (scrubEntries_eq event)
  rw [← hscrub]
  constructor
  · rintro ⟨hall, -⟩ s hs
    exact hall s (mem_strings_scrub_of_mem_unscrubbed _ hs)
  · intro h
    have hall : ∀ s ∈ strings (scrub (.dict event)), ¬tokenPattern.Occurs s.toList := by
      intro s hs
      rcases mem_strings_scrub _ hs with ⟨text, rfl⟩ | hin
      · exact not_occurs_redactText text
      · exact h s hin
    refine ⟨hall, ?_⟩
    intro hline
    obtain ⟨word, hword, hinfix⟩ := occurs_iff.mp hline
    unfold jsonRenderer at hinfix
    rw [← hscrub] at hinfix
    obtain ⟨s, hs, hin⟩ := hword.stringWord.exists_of_infix_dumps hinfix
    exact hall s hs (occurs_iff.mpr ⟨word, hword, hin⟩)

namespace Sample

def workerToken : String :=
  "orbi_node_v1_lookupId1234_secretValueSecretValueSecretValueSecretValue"

/-- A log call with a tuple of tokens. -/
def tupleEvent : LogEvent := [("event", .str "enrolled"), ("tokens", .tuple [.str workerToken])]

/-- A log call with a dict whose keys are tokens. -/
def keyEvent : LogEvent :=
  [("event", .str "enrolled"), ("tokens", .dict [(workerToken, .bool true)])]

theorem occurs_workerToken : tokenPattern.Occurs workerToken.toList :=
  occurs_iff.mpr ⟨"orbi_node_v1_l".toList, ⟨"node", by decide, 'l', by decide, by decide⟩,
    List.IsPrefix.isInfix (by decide)⟩

end Sample

/-- A tuple and a key carry a token into the output. -/
theorem not_event_redacted :
    (¬((∀ s ∈ strings (.dict (redactSecrets Sample.tupleEvent)),
          ¬tokenPattern.Occurs s.toList) ∧
        ¬tokenPattern.Occurs (jsonRenderer (redactSecrets Sample.tupleEvent)))) ∧
      ¬((∀ s ∈ strings (.dict (redactSecrets Sample.keyEvent)),
          ¬tokenPattern.Occurs s.toList) ∧
        ¬tokenPattern.Occurs (jsonRenderer (redactSecrets Sample.keyEvent))) := by
  constructor
  · rintro ⟨hall, -⟩
    refine hall Sample.workerToken (mem_stringsOfEntries_iff.mpr ?_) Sample.occurs_workerToken
    exact ⟨_, List.mem_cons_of_mem _ List.mem_cons_self, .inr (List.mem_singleton_self _)⟩
  · rintro ⟨hall, -⟩
    refine hall Sample.workerToken (mem_stringsOfEntries_iff.mpr ?_) Sample.occurs_workerToken
    exact ⟨_, List.mem_cons_of_mem _ List.mem_cons_self, .inr List.mem_cons_self⟩

end OrbiGateway
