import Mathlib.Data.List.Basic
import Mathlib.Data.Nat.Notation
import Mathlib.Data.Int.Notation

/-!
# Python values as JSON text

The text of a value as `json.dumps` writes it, and where a word can stand in it: a word of
plain characters that begins with a character of no literal, number or escape stands in the
text only if it stands in one of the strings of the value.
-/

namespace PyJson

/-- A float, by the parts of its `repr`. -/
inductive PyFloat
  | nan
  | infinity (negative : Bool)
  | finite (negative : Bool) (whole : ℕ) (fraction : List (Fin 10)) (exponent : Option ℤ)

/-- What `json.dumps` can write, with the entries of a dict in their order. -/
inductive Value
  | str (text : String)
  | int (n : ℤ)
  | float (x : PyFloat)
  | bool (b : Bool)
  | none
  | list (items : List Value)
  | tuple (items : List Value)
  | dict (entries : List (String × Value))

@[induction_eliminator]
theorem Value.induct {motive : Value → Prop} (str : ∀ text, motive (.str text))
    (int : ∀ n, motive (.int n)) (float : ∀ x, motive (.float x))
    (bool : ∀ b, motive (.bool b)) (none : motive .none)
    (list : ∀ items, (∀ v ∈ items, motive v) → motive (.list items))
    (tuple : ∀ items, (∀ v ∈ items, motive v) → motive (.tuple items))
    (dict : ∀ entries, (∀ e ∈ entries, motive e.2) → motive (.dict entries)) :
    ∀ v, motive v := fun v =>
  @Value.rec motive (fun items => ∀ v ∈ items, motive v)
    (fun entries => ∀ e ∈ entries, motive e.2) (fun e => motive e.2)
    str int float bool none list tuple dict
    (fun _ hv => absurd hv List.not_mem_nil)
    (fun _ _ hhead htail => List.forall_mem_cons.mpr ⟨hhead, htail⟩)
    (fun _ he => absurd he List.not_mem_nil)
    (fun _ _ hhead htail => List.forall_mem_cons.mpr ⟨hhead, htail⟩)
    (fun _ _ hvalue => hvalue) v

/-! ## Texts -/

/-- A character that is written as it is in a string. -/
def isPlain (c : Char) : Bool :=
  ' ' ≤ c && c ≤ '~' && c != '"' && c != '\\'

/-- Four hexadecimal digits. -/
def hex4 (n : ℕ) : List Char :=
  [(n / 4096 % 16).digitChar, (n / 256 % 16).digitChar, (n / 16 % 16).digitChar,
    (n % 16).digitChar]

/-- The escape of a code point, as a surrogate pair beyond the first plane. -/
def unicodeEscape (n : ℕ) : List Char :=
  if n < 65536 then '\\' :: 'u' :: hex4 n
  else
    '\\' :: 'u' :: hex4 (55296 + (n - 65536) / 1024 % 1024) ++
      '\\' :: 'u' :: hex4 (56320 + (n - 65536) % 1024)

def escape (c : Char) : List Char :=
  if isPlain c then [c]
  else if c = '"' then ['\\', '"']
  else if c = '\\' then ['\\', '\\']
  else if c = '\n' then ['\\', 'n']
  else if c = '\r' then ['\\', 'r']
  else if c = '\t' then ['\\', 't']
  else if c.toNat = 12 then ['\\', 'f']
  else if c.toNat = 8 then ['\\', 'b']
  else unicodeEscape c.toNat

def dumpString (text : List Char) : List Char :=
  '"' :: (text.flatMap escape ++ ['"'])

def dumpInt (n : ℤ) : List Char :=
  (if n < 0 then ['-'] else []) ++ Nat.toDigits 10 n.natAbs

/-- The exponent of a float has a sign and at least two digits. -/
def dumpExponent (n : ℤ) : List Char :=
  'e' :: (if n < 0 then '-' else '+') :: (if n.natAbs < 10 then ['0'] else []) ++
    Nat.toDigits 10 n.natAbs

def dumpFloat : PyFloat → List Char
  | .nan => "NaN".toList
  | .infinity negative => (if negative then ['-'] else []) ++ "Infinity".toList
  | .finite negative whole fraction exponent =>
      (if negative then ['-'] else []) ++ Nat.toDigits 10 whole ++
        (if fraction = [] then [] else '.' :: fraction.map fun d => d.val.digitChar) ++
        exponent.elim [] dumpExponent

/-- Texts with a separator between them. -/
def joined (separator : List Char) (texts : List (List Char)) : List Char :=
  separator.intercalate texts

mutual

/-- `json.dumps`. -/
def dumps (value : Value) : List Char :=
  match value with
  | .str text => dumpString text.toList
  | .int n => dumpInt n
  | .float x => dumpFloat x
  | .bool true => "true".toList
  | .bool false => "false".toList
  | .none => "null".toList
  | .list items => '[' :: (joined ", ".toList (dumpItems items) ++ [']'])
  | .tuple items => '[' :: (joined ", ".toList (dumpItems items) ++ [']'])
  | .dict entries =>
      '\x7b' :: (joined ", ".toList (dumpEntries entries) ++ ['\x7d'])
termination_by structural value

def dumpItems (items : List Value) : List (List Char) :=
  match items with
  | [] => []
  | v :: rest => dumps v :: dumpItems rest
termination_by structural items

def dumpEntries (entries : List (String × Value)) : List (List Char) :=
  match entries with
  | [] => []
  | e :: rest => dumpEntry e :: dumpEntries rest
termination_by structural entries

def dumpEntry (entry : String × Value) : List Char :=
  match entry with
  | (key, v) => dumpString key.toList ++ (": ".toList ++ dumps v)
termination_by structural entry

end

example : dumps (.dict [("a\n", .tuple [.none, .float (.finite true 1 [5] (some (-7)))])]) =
    "\x7b\"a\\n\": [null, -1.5e-07]\x7d".toList := by decide

theorem dumpItems_eq (items : List Value) : dumpItems items = items.map dumps := by
  induction items with
  | nil => rfl
  | cons v rest ih =>
      rw [dumpItems, ih]
      rfl

theorem dumpEntries_eq (entries : List (String × Value)) :
    dumpEntries entries = entries.map dumpEntry := by
  induction entries with
  | nil => rfl
  | cons e rest ih =>
      rw [dumpEntries, ih]
      rfl

/-! ## Strings -/

mutual

/-- The strings of a value, with the keys of its dicts. -/
def strings (value : Value) : List String :=
  match value with
  | .str text => [text]
  | .int _ => []
  | .float _ => []
  | .bool _ => []
  | .none => []
  | .list items => stringsOfItems items
  | .tuple items => stringsOfItems items
  | .dict entries => stringsOfEntries entries
termination_by structural value

def stringsOfItems (items : List Value) : List String :=
  match items with
  | [] => []
  | v :: rest => strings v ++ stringsOfItems rest
termination_by structural items

def stringsOfEntries (entries : List (String × Value)) : List String :=
  match entries with
  | [] => []
  | e :: rest => stringsOfEntry e ++ stringsOfEntries rest
termination_by structural entries

def stringsOfEntry (entry : String × Value) : List String :=
  match entry with
  | (key, v) => key :: strings v
termination_by structural entry

end

theorem mem_stringsOfItems_iff {s : String} {items : List Value} :
    s ∈ stringsOfItems items ↔ ∃ v ∈ items, s ∈ strings v := by
  induction items with
  | nil => simp [stringsOfItems]
  | cons v rest ih => simp [stringsOfItems, ih]

theorem mem_stringsOfEntries_iff {s : String} {entries : List (String × Value)} :
    s ∈ stringsOfEntries entries ↔ ∃ e ∈ entries, s = e.1 ∨ s ∈ strings e.2 := by
  induction entries with
  | nil => simp [stringsOfEntries]
  | cons e rest ih =>
      obtain ⟨key, v⟩ := e
      simp [stringsOfEntries, stringsOfEntry, ih, or_assoc]

/-! ## Words in the text -/

/-- The characters of brackets, literals, numbers and escapes. -/
def isStructural (c : Char) : Bool :=
  "\"\\[]\x7b\x7d,: +-.0123456789abcdefilnrstuyIN".toList.contains c

/-- A word that the text can hold only inside a string. -/
structure StringWord (word : List Char) : Prop where
  plain : ∀ c ∈ word, isPlain c = true
  begins : ∃ c cs, word = c :: cs ∧ isStructural c = false

/-- A text that brings no occurrence of the word to what comes after it. -/
def Inert (word text : List Char) : Prop :=
  ∀ after, ¬word <:+: after → ¬word <:+: text ++ after

section Words

variable {word : List Char}

theorem Inert.append {first second : List Char} (h : Inert word first)
    (h' : Inert word second) : Inert word (first ++ second) := by
  intro after hafter
  rw [List.append_assoc]
  exact h _ (h' after hafter)

theorem Inert.joined {separator : List Char} {texts : List (List Char)}
    (hseparator : Inert word separator) (h : ∀ text ∈ texts, Inert word text) :
    Inert word (joined separator texts) := by
  unfold PyJson.joined
  induction texts with
  | nil =>
      intro after hafter
      exact hafter
  | cons text rest ih =>
      have hrest := ih fun text' h' => h text' (List.mem_cons_of_mem _ h')
      have htext := h text List.mem_cons_self
      cases rest with
      | nil => simpa using htext
      | cons text' rest =>
          rw [List.intercalate_cons_cons]
          exact (htext.append hseparator).append hrest

/-- A word of strings begins in no structural text. -/
theorem StringWord.inert_of_structural (hword : StringWord word) {t : List Char}
    (h : ∀ c ∈ t, isStructural c = true) : Inert word t := by
  intro after hafter
  induction t with
  | nil => exact hafter
  | cons d t ih =>
      rw [List.cons_append, List.infix_cons_iff]
      rintro (hbegin | hinfix)
      · obtain ⟨c, cs, rfl, hc⟩ := hword.begins
        obtain ⟨rfl, -⟩ := List.cons_prefix_cons.mp hbegin
        rw [h c List.mem_cons_self] at hc
        cases hc
      · exact ih (fun c hc => h c (List.mem_cons_of_mem _ hc)) hinfix

theorem StringWord.inert_of_all (hword : StringWord word) {t : List Char}
    (h : t.all isStructural = true) : Inert word t :=
  hword.inert_of_structural (List.all_eq_true.mp h)

theorem StringWord.bracketed (hword : StringWord word) {opening closing : Char}
    {text : List Char} (hopening : isStructural opening = true)
    (hclosing : isStructural closing = true) (h : Inert word text) :
    Inert word (opening :: (text ++ [closing])) := by
  have hfirst := hword.inert_of_structural (t := [opening]) (by simpa using hopening)
  have hlast := hword.inert_of_structural (t := [closing]) (by simpa using hclosing)
  exact hfirst.append (h.append hlast)

theorem isStructural_digitChar {n : ℕ} (h : n < 16) :
    isStructural n.digitChar = true := by
  have hall : ∀ n < 16, isStructural n.digitChar = true := by decide
  exact hall n h

theorem isStructural_hex4 {n : ℕ} : ∀ c ∈ hex4 n, isStructural c = true := by
  intro c hc
  simp only [hex4, List.mem_cons, List.not_mem_nil, or_false] at hc
  rcases hc with rfl | rfl | rfl | rfl
  · exact isStructural_digitChar (Nat.mod_lt _ (by decide))
  · exact isStructural_digitChar (Nat.mod_lt _ (by decide))
  · exact isStructural_digitChar (Nat.mod_lt _ (by decide))
  · exact isStructural_digitChar (Nat.mod_lt _ (by decide))

theorem isStructural_unicodeEscape {n : ℕ} :
    ∀ c ∈ unicodeEscape n, isStructural c = true := by
  have hcode : ∀ n, ∀ c ∈ '\\' :: 'u' :: hex4 n, isStructural c = true := by
    intro n
    refine List.forall_mem_cons.mpr ⟨by decide, List.forall_mem_cons.mpr ⟨by decide, ?_⟩⟩
    exact isStructural_hex4
  unfold unicodeEscape
  split
  · exact hcode _
  · exact List.forall_mem_append.mpr ⟨hcode _, hcode _⟩

/-- An escape is a backslash and characters of no word. -/
theorem escape_of_not_plain {c : Char} (h : isPlain c = false) :
    (∃ rest, escape c = '\\' :: rest) ∧ ∀ d ∈ escape c, isStructural d = true := by
  have hpair : ∀ d, isStructural d = true → (∃ rest, ['\\', d] = '\\' :: rest) ∧
      ∀ e ∈ ['\\', d], isStructural e = true := by
    intro d hd
    refine ⟨⟨[d], rfl⟩, ?_⟩
    simp [hd, show isStructural '\\' = true by decide]
  unfold escape
  rw [h]
  simp only [Bool.false_eq_true, if_false]
  split
  · exact hpair _ (by decide)
  split
  · exact hpair _ (by decide)
  split
  · exact hpair _ (by decide)
  split
  · exact hpair _ (by decide)
  split
  · exact hpair _ (by decide)
  split
  · exact hpair _ (by decide)
  split
  · exact hpair _ (by decide)
  · refine ⟨?_, isStructural_unicodeEscape⟩
    unfold unicodeEscape
    split
    · exact ⟨_, rfl⟩
    · exact ⟨_, rfl⟩

theorem escape_of_plain {c : Char} (h : isPlain c = true) : escape c = [c] := by
  unfold escape
  rw [if_pos h]

/-- A plain word at the beginning of a written string is at the beginning of the string. -/
theorem prefix_of_prefix_escaped {after : List Char} :
    ∀ {word text : List Char}, (∀ c ∈ word, isPlain c = true) →
      word <+: text.flatMap escape ++ '"' :: after → word <+: text := by
  intro word text
  induction text generalizing word with
  | nil =>
      intro hplain hbegin
      cases word with
      | nil => exact List.nil_prefix
      | cons d word =>
          obtain ⟨rfl, -⟩ := List.cons_prefix_cons.mp hbegin
          exact absurd (hplain '"' List.mem_cons_self) (by decide)
  | cons c text ih =>
      intro hplain hbegin
      cases word with
      | nil => exact List.nil_prefix
      | cons d word =>
          rw [List.flatMap_cons] at hbegin
          cases hc : isPlain c with
          | true =>
              rw [escape_of_plain hc] at hbegin
              obtain ⟨rfl, htail⟩ := List.cons_prefix_cons.mp hbegin
              exact List.cons_prefix_cons.mpr
                ⟨rfl, ih (fun e he => hplain e (List.mem_cons_of_mem _ he)) htail⟩
          | false =>
              obtain ⟨⟨rest, hrest⟩, -⟩ := escape_of_not_plain hc
              rw [hrest] at hbegin
              obtain ⟨rfl, -⟩ := List.cons_prefix_cons.mp hbegin
              exact absurd (hplain '\\' List.mem_cons_self) (by decide)

theorem StringWord.inert_dumpString (hword : StringWord word) {text : List Char}
    (h : ¬word <:+: text) : Inert word (dumpString text) := by
  have hbody : ∀ after, ¬word <:+: after → ¬word <:+: text.flatMap escape ++ '"' :: after := by
    intro after hafter
    induction text with
    | nil => exact hword.inert_of_all (t := ['"']) (by decide) after hafter
    | cons c text ih =>
        have hrest := ih fun hinfix => h (List.infix_cons hinfix)
        rw [List.flatMap_cons, List.append_assoc]
        cases hc : isPlain c with
        | true =>
            rw [escape_of_plain hc, List.singleton_append, List.infix_cons_iff]
            rintro (hbegin | hinfix)
            · have hwhole : word <+: (c :: text).flatMap escape ++ '"' :: after := by
                rw [List.flatMap_cons, escape_of_plain hc]
                exact hbegin
              exact h (prefix_of_prefix_escaped hword.plain hwhole).isInfix
            · exact hrest hinfix
        | false =>
            exact hword.inert_of_structural (escape_of_not_plain hc).2 _ hrest
  intro after hafter
  have hquoted := hword.inert_of_all (t := ['"']) (by decide) _ (hbody after hafter)
  simpa [dumpString] using hquoted

theorem isStructural_toDigits (n : ℕ) : ∀ c ∈ Nat.toDigits 10 n, isStructural c = true := by
  have hall : ∀ n < 58, 48 ≤ n → isStructural (Char.ofNat n) = true := by decide
  intro c hc
  have hdigit := Nat.isDigit_of_mem_toDigits (by decide) (by decide) hc
  obtain ⟨hzero, hnine⟩ := Char.isDigit_iff_toNat.mp hdigit
  rw [← Char.ofNat_toNat c]
  exact hall c.toNat (Nat.lt_succ_of_le hnine) hzero

theorem StringWord.inert_dumpInt (hword : StringWord word) (n : ℤ) :
    Inert word (dumpInt n) := by
  apply hword.inert_of_structural
  refine List.forall_mem_append.mpr ⟨?_, isStructural_toDigits _⟩
  split
  · exact List.all_eq_true.mp (by decide)
  · exact List.all_eq_true.mp (by decide)

theorem StringWord.inert_dumpFloat (hword : StringWord word) (x : PyFloat) :
    Inert word (dumpFloat x) := by
  have hsign : ∀ negative : Bool, ∀ c ∈ (if negative then ['-'] else []),
      isStructural c = true := by
    intro negative
    cases negative
    · exact List.all_eq_true.mp (by decide)
    · exact List.all_eq_true.mp (by decide)
  have hfraction : ∀ digits : List (Fin 10), ∀ c ∈ digits.map fun d => d.val.digitChar,
      isStructural c = true := by
    intro digits
    refine List.forall_mem_map.mpr fun d _ => isStructural_digitChar ?_
    omega
  have hexponent : ∀ n : ℤ, ∀ c ∈ dumpExponent n, isStructural c = true := by
    intro n
    refine List.forall_mem_append.mpr ⟨?_, isStructural_toDigits _⟩
    refine List.forall_mem_cons.mpr ⟨by decide, List.forall_mem_cons.mpr ⟨?_, ?_⟩⟩
    · split
      · decide
      · decide
    · split
      · exact List.all_eq_true.mp (by decide)
      · exact List.all_eq_true.mp (by decide)
  apply hword.inert_of_structural
  cases x with
  | nan => exact List.all_eq_true.mp (by decide)
  | infinity negative =>
      exact List.forall_mem_append.mpr ⟨hsign negative, List.all_eq_true.mp (by decide)⟩
  | finite negative whole fraction exponent =>
      refine List.forall_mem_append.mpr ⟨List.forall_mem_append.mpr
        ⟨List.forall_mem_append.mpr ⟨hsign negative, isStructural_toDigits whole⟩, ?_⟩, ?_⟩
      · split
        · exact List.all_eq_true.mp (by decide)
        · exact List.forall_mem_cons.mpr ⟨by decide, hfraction fraction⟩
      · cases exponent with
        | none => exact List.all_eq_true.mp (by decide)
        | some n => exact hexponent n

/-- The word stands in no text of a value if it stands in no string of the value. -/
theorem StringWord.inert_dumps (hword : StringWord word) (v : Value) :
    (∀ s ∈ strings v, ¬word <:+: s.toList) → Inert word (dumps v) := by
  have hitems : ∀ items : List Value,
      (∀ v ∈ items, (∀ s ∈ strings v, ¬word <:+: s.toList) → Inert word (dumps v)) →
      (∀ s ∈ stringsOfItems items, ¬word <:+: s.toList) →
      Inert word ('[' :: (joined ", ".toList (dumpItems items) ++ [']'])) := by
    intro items ih h
    refine hword.bracketed (by decide) (by decide)
      (Inert.joined (hword.inert_of_all (by decide)) ?_)
    rw [dumpItems_eq]
    refine List.forall_mem_map.mpr fun v hv => ih v hv fun s hs => ?_
    exact h s (mem_stringsOfItems_iff.mpr ⟨v, hv, hs⟩)
  induction v with
  | str text =>
      intro h
      exact hword.inert_dumpString (h text (List.mem_singleton_self text))
  | int n =>
      intro _
      exact hword.inert_dumpInt n
  | float x =>
      intro _
      exact hword.inert_dumpFloat x
  | bool b =>
      intro _
      cases b
      · exact hword.inert_of_all (by decide)
      · exact hword.inert_of_all (by decide)
  | none =>
      intro _
      exact hword.inert_of_all (by decide)
  | list items ih =>
      intro h
      exact hitems items ih h
  | tuple items ih =>
      intro h
      exact hitems items ih h
  | dict entries ih =>
      intro h
      refine hword.bracketed (by decide) (by decide)
        (Inert.joined (hword.inert_of_all (by decide)) ?_)
      rw [dumpEntries_eq]
      refine List.forall_mem_map.mpr ?_
      rintro ⟨key, v⟩ he
      have hentry : ∀ s, s = key ∨ s ∈ strings v → ¬word <:+: s.toList :=
        fun s hs => h s (mem_stringsOfEntries_iff.mpr ⟨(key, v), he, hs⟩)
      have hkey := hword.inert_dumpString (hentry key (.inl rfl))
      have hvalue := ih (key, v) he fun s hs => hentry s (.inr hs)
      have hcolon : Inert word ": ".toList := hword.inert_of_all (by decide)
      exact hkey.append (hcolon.append hvalue)

/-- A word of strings in the text of a value stands in one of its strings. -/
theorem StringWord.exists_of_infix_dumps (hword : StringWord word) {v : Value}
    (h : word <:+: dumps v) : ∃ s ∈ strings v, word <:+: s.toList := by
  by_contra hnone
  push Not at hnone
  have hempty : ¬word <:+: [] := by
    obtain ⟨c, cs, rfl, -⟩ := hword.begins
    exact fun hinfix => absurd (List.infix_nil.mp hinfix) (List.cons_ne_nil c cs)
  have hno := hword.inert_dumps v hnone [] hempty
  rw [List.append_nil] at hno
  exact hno h

end Words

end PyJson
