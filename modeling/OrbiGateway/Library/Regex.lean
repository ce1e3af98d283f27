import Mathlib.Data.List.Basic
import Mathlib.Data.Nat.Notation

/-!
# Regular expressions

A matcher that lists the ways of matching the beginning of a text in the order in which a
backtracking engine tries them: greedy repetitions longest first, alternatives from left
to right.  The first of them is the match, the first one that leaves nothing is the full
match, and substitution cuts a text from left to right at the matches it finds.
-/

namespace Pattern

/-- One way of matching the beginning of a text, and what its groups have matched. -/
structure Match where
  text : List Char
  rest : List Char
  groups : List (ℕ × List Char)

namespace Match

/-- A match and one of what it has left. -/
def andThen (first second : Match) : Match where
  text := first.text ++ second.text
  rest := second.rest
  groups := first.groups ++ second.groups

/-- The match of a group, which it records before those of the groups in it. -/
def inGroup (m : Match) (index : ℕ) : Match :=
  { m with groups := (index, m.text) :: m.groups }

/-- What a group has matched last. -/
def group (m : Match) (index : ℕ) : Option (List Char) :=
  (m.groups.reverse.find? fun entry => entry.1 == index).map Prod.snd

end Match

/-- Regular expressions over classes of characters. -/
inductive Regex
  | text (word : List Char)
  | many (p : Char → Bool)
  | times (p : Char → Bool) (n : ℕ)
  | seq (first second : Regex)
  | alt (first second : Regex)
  | opt (r : Regex)
  | group (index : ℕ) (r : Regex)
  | lineStart
  | lineEnd

/-- The nonempty runs of a class at the beginning of a text, longest first. -/
def runs (p : Char → Bool) : List Char → List Match
  | [] => []
  | c :: cs =>
      if p c then
        ((runs p cs).map fun m => { m with text := c :: m.text }) ++ [⟨[c], cs, []⟩]
      else []

namespace Regex

/-- The ways of matching the beginning of a text, in the order of a backtracking engine.
`atStart` says that nothing stands before the text. -/
def matchesOf : Regex → Bool → List Char → List Match
  | .text word, _, s => if word.isPrefixOf s then [⟨word, s.drop word.length, []⟩] else []
  | .many p, _, s => runs p s
  | .times p n, _, s =>
      if n ≤ s.length ∧ (s.take n).all p then [⟨s.take n, s.drop n, []⟩] else []
  | .seq first second, atStart, s =>
      (first.matchesOf atStart s).flatMap fun m =>
        (second.matchesOf (m.text.isEmpty && atStart) m.rest).map m.andThen
  | .alt first second, atStart, s => first.matchesOf atStart s ++ second.matchesOf atStart s
  | .opt r, atStart, s => r.matchesOf atStart s ++ [⟨[], s, []⟩]
  | .group index r, atStart, s =>
      (r.matchesOf atStart s).map fun m => m.inGroup index
  | .lineStart, atStart, s => if atStart then [⟨[], s, []⟩] else []
  | .lineEnd, _, s => if s = [] ∨ s = ['\n'] then [⟨[], s, []⟩] else []

def firstMatch (r : Regex) (atStart : Bool) (s : List Char) : Option Match :=
  (r.matchesOf atStart s).head?

/-- The first way of matching that leaves nothing of the text. -/
def fullMatch (r : Regex) (s : List Char) : Option Match :=
  (r.matchesOf true s).find? fun m => m.rest.isEmpty

end Regex

/-- A part of a text that substitution keeps or replaces. -/
inductive Piece
  | kept (c : Char)
  | replaced (word : List Char)

namespace Piece

def source : Piece → List Char
  | .kept c => [c]
  | .replaced word => word

def render (marker : List Char) : Piece → List Char
  | .kept c => [c]
  | .replaced _ => marker

end Piece

namespace Regex

/-- Cut a text at the matches that are found from left to right, after skipping some
characters.  A match of nothing replaces nothing. -/
def piecesFrom (r : Regex) : Bool → List Char → ℕ → List Piece
  | _, [], _ => []
  | _, _ :: cs, skip + 1 => r.piecesFrom false cs skip
  | atStart, c :: cs, 0 =>
      match (r.firstMatch atStart (c :: cs)).map Match.text with
      | some (d :: word) => .replaced (d :: word) :: r.piecesFrom false cs word.length
      | _ => .kept c :: r.piecesFrom false cs 0

def pieces (r : Regex) (s : List Char) : List Piece :=
  r.piecesFrom true s 0

/-- Replace the matches by the marker. -/
def sub (r : Regex) (marker s : List Char) : List Char :=
  (r.pieces s).flatMap (Piece.render marker)

/-! ## Matches -/

section Membership

variable {atStart : Bool} {s : List Char} {m : Match}

theorem matchesOf_text (word : List Char) (atStart : Bool) (s : List Char) :
    (Regex.text word).matchesOf atStart s =
      if word.isPrefixOf s then [⟨word, s.drop word.length, []⟩] else [] := rfl

theorem matchesOf_times (p : Char → Bool) (n : ℕ) (atStart : Bool) (s : List Char) :
    (Regex.times p n).matchesOf atStart s =
      if n ≤ s.length ∧ (s.take n).all p then [⟨s.take n, s.drop n, []⟩] else [] := rfl

theorem matchesOf_seq (first second : Regex) (atStart : Bool) (s : List Char) :
    (first.seq second).matchesOf atStart s = (first.matchesOf atStart s).flatMap fun m =>
      (second.matchesOf (m.text.isEmpty && atStart) m.rest).map m.andThen := rfl

theorem matchesOf_lineStart (atStart : Bool) (s : List Char) :
    Regex.lineStart.matchesOf atStart s = if atStart then [⟨[], s, []⟩] else [] := rfl

theorem matchesOf_lineEnd (atStart : Bool) (s : List Char) :
    Regex.lineEnd.matchesOf atStart s =
      if s = [] ∨ s = ['\n'] then [⟨[], s, []⟩] else [] := rfl

theorem mem_text_iff {word : List Char} :
    m ∈ (Regex.text word).matchesOf atStart s ↔
      ∃ rest, s = word ++ rest ∧ m = ⟨word, rest, []⟩ := by
  rw [matchesOf_text]
  split
  next hbegin =>
    obtain ⟨rest, rfl⟩ := List.isPrefixOf_iff_prefix.mp hbegin
    simp
  next hno =>
    constructor
    · intro h
      cases h
    · rintro ⟨rest, rfl, -⟩
      exact absurd (List.isPrefixOf_iff_prefix.mpr (List.prefix_append word rest)) hno

theorem mem_times_iff {p : Char → Bool} {n : ℕ} :
    m ∈ (Regex.times p n).matchesOf atStart s ↔ ∃ word rest, s = word ++ rest ∧
      word.length = n ∧ (∀ c ∈ word, p c = true) ∧ m = ⟨word, rest, []⟩ := by
  rw [matchesOf_times]
  split
  next hn =>
    rw [List.all_eq_true] at hn
    rw [List.mem_singleton]
    constructor
    · intro h
      exact ⟨s.take n, s.drop n, (List.take_append_drop n s).symm,
        List.length_take_of_le hn.1, hn.2, h⟩
    · rintro ⟨word, rest, rfl, hlength, -, rfl⟩
      rw [List.take_left' hlength, List.drop_left' hlength]
  next hn =>
    constructor
    · intro h
      cases h
    · rintro ⟨word, rest, rfl, hlength, hall, -⟩
      refine absurd ⟨?_, ?_⟩ hn
      · rw [List.length_append]
        omega
      · rw [List.take_left' hlength, List.all_eq_true]
        exact hall

theorem mem_seq_iff {first second : Regex} :
    m ∈ (first.seq second).matchesOf atStart s ↔ ∃ m₁ ∈ first.matchesOf atStart s,
      ∃ m₂ ∈ second.matchesOf (m₁.text.isEmpty && atStart) m₁.rest, m₁.andThen m₂ = m := by
  simp only [matchesOf_seq, List.mem_flatMap, List.mem_map]

theorem andThen_mem_seq {first second : Regex} {m₂ : Match}
    (h : m ∈ first.matchesOf atStart s)
    (h₂ : m₂ ∈ second.matchesOf (m.text.isEmpty && atStart) m.rest) :
    m.andThen m₂ ∈ (first.seq second).matchesOf atStart s :=
  mem_seq_iff.mpr ⟨m, h, m₂, h₂, rfl⟩

theorem mem_alt_iff {first second : Regex} :
    m ∈ (first.alt second).matchesOf atStart s ↔
      m ∈ first.matchesOf atStart s ∨ m ∈ second.matchesOf atStart s :=
  List.mem_append

theorem mem_group_iff {index : ℕ} {r : Regex} :
    m ∈ (Regex.group index r).matchesOf atStart s ↔
      ∃ m' ∈ r.matchesOf atStart s, m'.inGroup index = m :=
  List.mem_map

theorem mem_lineStart_iff :
    m ∈ Regex.lineStart.matchesOf atStart s ↔ atStart = true ∧ m = ⟨[], s, []⟩ := by
  cases atStart
  · simp [matchesOf_lineStart]
  · simp [matchesOf_lineStart]

theorem mem_lineEnd_iff :
    m ∈ Regex.lineEnd.matchesOf atStart s ↔ (s = [] ∨ s = ['\n']) ∧ m = ⟨[], s, []⟩ := by
  rw [matchesOf_lineEnd]
  split
  next hend => simp [hend]
  next hno => simp [hno]

theorem exists_cons_of_mem_many {p : Char → Bool}
    (h : m ∈ (Regex.many p).matchesOf atStart s) :
    ∃ c cs, s = c :: cs ∧ p c = true ∧ m.text ++ m.rest = s := by
  change m ∈ runs p s at h
  induction s generalizing m with
  | nil => cases h
  | cons c cs ih =>
      simp only [runs] at h
      split at h
      next hc =>
        rcases List.mem_append.mp h with hlonger | hone
        · obtain ⟨m', hm', rfl⟩ := List.mem_map.mp hlonger
          obtain ⟨d, ds, -, -, hsplit⟩ := ih hm'
          exact ⟨c, cs, rfl, hc, congrArg (c :: ·) hsplit⟩
        · cases List.mem_singleton.mp hone
          exact ⟨c, cs, rfl, hc, rfl⟩
      next hc => cases h

end Membership

theorem text_append_rest {r : Regex} :
    ∀ {atStart : Bool} {s : List Char} {m : Match}, m ∈ r.matchesOf atStart s →
      m.text ++ m.rest = s := by
  induction r with
  | text word =>
      intro atStart s m hm
      obtain ⟨rest, rfl, rfl⟩ := mem_text_iff.mp hm
      rfl
  | many p =>
      intro atStart s m hm
      obtain ⟨c, cs, -, -, hsplit⟩ := exists_cons_of_mem_many hm
      exact hsplit
  | times p n =>
      intro atStart s m hm
      obtain ⟨word, rest, rfl, -, -, rfl⟩ := mem_times_iff.mp hm
      rfl
  | seq first second ihfirst ihsecond =>
      intro atStart s m hm
      obtain ⟨m₁, hm₁, m₂, hm₂, rfl⟩ := mem_seq_iff.mp hm
      calc
        m₁.text ++ m₂.text ++ m₂.rest = m₁.text ++ (m₂.text ++ m₂.rest) :=
          List.append_assoc _ _ _
        _ = m₁.text ++ m₁.rest := by rw [ihsecond hm₂]
        _ = s := ihfirst hm₁
  | alt first second ihfirst ihsecond =>
      intro atStart s m hm
      rcases mem_alt_iff.mp hm with hm | hm
      · exact ihfirst hm
      · exact ihsecond hm
  | opt r ih =>
      intro atStart s m hm
      rcases List.mem_append.mp hm with hm | hm
      · exact ih hm
      · cases List.mem_singleton.mp hm
        rfl
  | group index r ih =>
      intro atStart s m hm
      obtain ⟨m', hm', rfl⟩ := mem_group_iff.mp hm
      have hsplit := ih hm'
      exact hsplit
  | lineStart =>
      intro atStart s m hm
      obtain ⟨-, rfl⟩ := mem_lineStart_iff.mp hm
      rfl
  | lineEnd =>
      intro atStart s m hm
      obtain ⟨-, rfl⟩ := mem_lineEnd_iff.mp hm
      rfl

theorem mem_of_firstMatch {r : Regex} {atStart : Bool} {s : List Char} {m : Match}
    (h : r.firstMatch atStart s = some m) : m ∈ r.matchesOf atStart s :=
  List.mem_of_head? h

theorem firstMatch_eq_none_iff {r : Regex} {atStart : Bool} {s : List Char} :
    r.firstMatch atStart s = none ↔ ∀ m, m ∉ r.matchesOf atStart s := by
  unfold firstMatch
  rw [List.head?_eq_none_iff, List.eq_nil_iff_forall_not_mem]

theorem fullMatch_eq_some {r : Regex} {s : List Char} {m : Match}
    (hm : m ∈ r.matchesOf true s) (hrest : m.rest = [])
    (hunique : ∀ m' ∈ r.matchesOf true s, m'.rest = [] → m' = m) : r.fullMatch s = some m := by
  unfold fullMatch
  cases hfind : (r.matchesOf true s).find? fun m => m.rest.isEmpty with
  | none =>
      have hno := List.find?_eq_none.mp hfind m hm
      rw [hrest] at hno
      exact absurd rfl hno
  | some m' =>
      have hempty := List.find?_some hfind
      rw [hunique m' (List.mem_of_find?_eq_some hfind) (List.isEmpty_iff.mp hempty)]

theorem mem_of_fullMatch {r : Regex} {s : List Char} {m : Match}
    (h : r.fullMatch s = some m) : m ∈ r.matchesOf true s ∧ m.rest = [] := by
  unfold fullMatch at h
  have hempty := List.find?_some h
  exact ⟨List.mem_of_find?_eq_some h, List.isEmpty_iff.mp hempty⟩

/-- The first match of a sequence, when its beginning has one that the rest can follow. -/
theorem firstMatch_seq {first second : Regex} {atStart : Bool} {s : List Char}
    {m m' : Match} (hfirst : first.firstMatch atStart s = some m)
    (hsecond : second.firstMatch (m.text.isEmpty && atStart) m.rest = some m') :
    (first.seq second).firstMatch atStart s = some (m.andThen m') := by
  unfold firstMatch at hfirst hsecond ⊢
  obtain ⟨ms, hms⟩ := List.head?_eq_some_iff.mp hfirst
  obtain ⟨ms', hms'⟩ := List.head?_eq_some_iff.mp hsecond
  simp [matchesOf_seq, hms, hms']

theorem firstMatch_text (word rest : List Char) (atStart : Bool) :
    (Regex.text word).firstMatch atStart (word ++ rest) = some ⟨word, rest, []⟩ := by
  simp [firstMatch, matchesOf_text]

theorem firstMatch_many {p : Char → Bool} {word rest : List Char} (hword : word ≠ [])
    (hall : ∀ c ∈ word, p c = true) (hend : ∀ c cs, rest = c :: cs → p c = false)
    (atStart : Bool) :
    (Regex.many p).firstMatch atStart (word ++ rest) = some ⟨word, rest, []⟩ := by
  have hruns : ∀ word : List Char, word ≠ [] → (∀ c ∈ word, p c = true) →
      (runs p (word ++ rest)).head? = some ⟨word, rest, []⟩ := by
    intro word
    induction word with
    | nil =>
        intro hne
        exact absurd rfl hne
    | cons c word ih =>
        intro _ hall
        have hc : p c = true := hall c List.mem_cons_self
        cases word with
        | nil =>
            have hstop : runs p rest = [] := by
              cases rest with
              | nil => rfl
              | cons d ds => simp [runs, hend d ds rfl]
            simp [runs, hc, hstop]
        | cons d word =>
            have htail := ih (by simp) fun e he => hall e (List.mem_cons_of_mem c he)
            obtain ⟨ms, hms⟩ := List.head?_eq_some_iff.mp htail
            rw [List.cons_append, runs, if_pos hc, hms]
            rfl
  exact hruns word hword hall

theorem firstMatch_opt_none {r : Regex} {atStart : Bool} {s : List Char}
    (h : r.firstMatch atStart s = none) :
    (Regex.opt r).firstMatch atStart s = some ⟨[], s, []⟩ := by
  have hnone := List.head?_eq_none_iff.mp h
  simp [firstMatch, matchesOf, hnone]

/-- The expression matches somewhere in the text. -/
def Occurs (r : Regex) (s : List Char) : Prop :=
  ∃ before after m, s = before ++ after ∧ r.firstMatch before.isEmpty after = some m

/-! ## Scanning -/

/-- A text cut into pieces: every replaced piece is the first match where it stands, and
no kept character begins a match. -/
inductive Scan (r : Regex) : Bool → List Char → List Piece → Prop
  | done {atStart : Bool} : Scan r atStart [] []
  | kept {atStart : Bool} {c : Char} {cs : List Char} {ps : List Piece}
      (hnone : ∀ m, r.firstMatch atStart (c :: cs) = some m → m.text = [])
      (hrest : Scan r false cs ps) : Scan r atStart (c :: cs) (.kept c :: ps)
  | replaced {atStart : Bool} {s : List Char} {m : Match} {ps : List Piece}
      (hfirst : r.firstMatch atStart s = some m) (hne : m.text ≠ [])
      (hrest : Scan r false m.rest ps) : Scan r atStart s (.replaced m.text :: ps)

theorem piecesFrom_skip (r : Regex) (word rest : List Char) :
    r.piecesFrom false (word ++ rest) word.length = r.piecesFrom false rest 0 := by
  induction word with
  | nil => rfl
  | cons c word ih => exact ih

theorem scan_piecesFrom (r : Regex) (n : ℕ) :
    ∀ (atStart : Bool) (s : List Char), s.length ≤ n →
      Scan r atStart s (r.piecesFrom atStart s 0) := by
  induction n with
  | zero =>
      intro atStart s hlength
      rw [List.length_eq_zero_iff.mp (Nat.le_zero.mp hlength)]
      exact .done
  | succ n ih =>
      intro atStart s hlength
      cases s with
      | nil => exact .done
      | cons c cs =>
          simp only [List.length_cons, Nat.add_le_add_iff_right] at hlength
          unfold piecesFrom
          split
          next d word hmatch =>
            obtain ⟨m, hfirst, htext⟩ := Option.map_eq_some_iff.mp hmatch
            have hsplit := text_append_rest (mem_of_firstMatch hfirst)
            rw [htext, List.cons_append, List.cons.injEq] at hsplit
            have hrest : r.piecesFrom false cs word.length = r.piecesFrom false m.rest 0 := by
              rw [← hsplit.2]
              exact piecesFrom_skip r word m.rest
            have hshorter : m.rest.length ≤ n := by
              have hlen := congrArg List.length hsplit.2
              rw [List.length_append] at hlen
              omega
            rw [hrest, ← htext]
            exact .replaced hfirst (by simp [htext]) (ih false m.rest hshorter)
          next hother =>
            refine .kept ?_ (ih false cs hlength)
            intro m hfirst
            cases htext : m.text with
            | nil => rfl
            | cons d word =>
                exact absurd (by rw [hfirst, Option.map_some, htext]) (hother d word)

theorem scan_pieces (r : Regex) (s : List Char) : Scan r true s (r.pieces s) :=
  scan_piecesFrom r s.length true s (Nat.le_refl _)

/-- The pieces are the text, in order. -/
theorem Scan.source_eq {r : Regex} {atStart : Bool} {s : List Char} {ps : List Piece}
    (h : Scan r atStart s ps) : ps.flatMap Piece.source = s := by
  induction h with
  | done => rfl
  | kept hnone hrest ih => exact congrArg _ ih
  | replaced hfirst hne hrest ih =>
      rw [List.flatMap_cons, ih]
      exact text_append_rest (mem_of_firstMatch hfirst)

theorem Scan.render_of_no_match {r : Regex} {marker : List Char} {atStart : Bool}
    {s : List Char} {ps : List Piece} (h : Scan r atStart s ps)
    (hno : ∀ before after, s = before ++ after → ∀ flag, r.firstMatch flag after = none) :
    ps.flatMap (Piece.render marker) = s := by
  induction h with
  | done => rfl
  | @kept atStart c cs ps hnone hrest ih =>
      rw [List.flatMap_cons, ih]
      · rfl
      · intro before after hsplit
        exact hno (c :: before) after (congrArg (c :: ·) hsplit)
  | @replaced atStart s m ps hfirst hne hrest ih =>
      rw [hno [] s rfl] at hfirst
      cases hfirst

/-! ## Substitution -/

/-- What the lemmas on substitution need of an expression: a match begins with one of
some words over a class of characters, and it ends where the class ends. -/
structure MatchesRuns (r : Regex) (p : Char → Bool) (Word : List Char → Prop) : Prop where
  firstMatch_iff : ∀ atStart s, (∃ m, r.firstMatch atStart s = some m) ↔
    ∃ word, Word word ∧ word <+: s
  text_ne_nil : ∀ {atStart s m}, r.firstMatch atStart s = some m → m.text ≠ []
  word_class : ∀ {word}, Word word → ∀ c ∈ word, p c = true
  rest_class : ∀ {atStart s m}, r.firstMatch atStart s = some m →
    ∀ c cs, m.rest = c :: cs → p c = false

/-- The expression matches somewhere if one of the words stands somewhere. -/
theorem MatchesRuns.occurs_iff {r : Regex} {p : Char → Bool} {Word : List Char → Prop}
    (hr : MatchesRuns r p Word) {s : List Char} :
    r.Occurs s ↔ ∃ word, Word word ∧ word <:+: s := by
  constructor
  · rintro ⟨before, after, m, rfl, hm⟩
    obtain ⟨word, hword, rest, rfl⟩ := (hr.firstMatch_iff _ _).mp ⟨m, hm⟩
    exact ⟨word, hword, before, rest, List.append_assoc _ _ _⟩
  · rintro ⟨word, hword, before, rest, rfl⟩
    obtain ⟨m, hm⟩ := (hr.firstMatch_iff before.isEmpty (word ++ rest)).mpr
      ⟨word, hword, List.prefix_append _ _⟩
    exact ⟨before, word ++ rest, m, List.append_assoc _ _ _, hm⟩

section Substitution

variable {r : Regex} {p : Char → Bool} {Word : List Char → Prop} {marker : List Char}

/-- A marker that no word can touch: it begins outside the class, and no word begins with
one of its characters. -/
structure Separates (p : Char → Bool) (Word : List Char → Prop) (marker : List Char) :
    Prop where
  begins : ∃ c cs, marker = c :: cs ∧ p c = false
  not_mem : ∀ {word}, Word word → ∃ c cs, word = c :: cs ∧ c ∉ marker

theorem Scan.prefix_of_prefix_render (hmarker : Separates p Word marker) {atStart : Bool}
    {s : List Char} {ps : List Piece} (h : Scan r atStart s ps) :
    ∀ word : List Char, (∀ c ∈ word, p c = true) →
      word <+: ps.flatMap (Piece.render marker) → word <+: s := by
  induction h with
  | done =>
      intro word _ hbegin
      exact hbegin
  | @kept atStart c cs ps hnone hrest ih =>
      intro word hclass hbegin
      cases word with
      | nil => exact List.nil_prefix
      | cons d word =>
          rw [List.flatMap_cons] at hbegin
          obtain ⟨rfl, htail⟩ := List.cons_prefix_cons.mp hbegin
          exact List.cons_prefix_cons.mpr
            ⟨rfl, ih word (fun e he => hclass e (List.mem_cons_of_mem _ he)) htail⟩
  | @replaced atStart s m ps hfirst hne hrest ih =>
      intro word hclass hbegin
      obtain ⟨b, bs, rfl, hb⟩ := hmarker.begins
      cases word with
      | nil => exact List.nil_prefix
      | cons d word =>
          rw [List.flatMap_cons] at hbegin
          obtain ⟨rfl, -⟩ := List.cons_prefix_cons.mp hbegin
          rw [hclass d List.mem_cons_self] at hb
          cases hb

/-- Nothing in the output matches any more. -/
theorem Scan.firstMatch_render (hr : MatchesRuns r p Word)
    (hmarker : Separates p Word marker) {atStart : Bool} {s : List Char} {ps : List Piece}
    (h : Scan r atStart s ps) :
    ∀ before after, ps.flatMap (Piece.render marker) = before ++ after →
      ∀ flag, r.firstMatch flag after = none := by
  induction h with
  | done =>
      intro before after hsplit flag
      obtain ⟨rfl, rfl⟩ := List.append_eq_nil_iff.mp hsplit.symm
      rw [Option.eq_none_iff_forall_ne_some]
      intro m hm
      obtain ⟨word, hword, hbegin⟩ := (hr.firstMatch_iff flag []).mp ⟨m, hm⟩
      obtain ⟨c, cs, rfl, -⟩ := hmarker.not_mem hword
      exact absurd (List.prefix_nil.mp hbegin) (List.cons_ne_nil c cs)
  | @kept atStart c cs ps hnone hrest ih =>
      intro before after hsplit flag
      cases before with
      | nil =>
          rw [Option.eq_none_iff_forall_ne_some]
          intro m hm
          obtain ⟨word, hword, hbegin⟩ := (hr.firstMatch_iff flag after).mp ⟨m, hm⟩
          rw [List.nil_append] at hsplit
          rw [← hsplit] at hbegin
          have hkept : Scan r atStart (c :: cs) (.kept c :: ps) := .kept hnone hrest
          have hold := hkept.prefix_of_prefix_render hmarker word (hr.word_class hword) hbegin
          obtain ⟨m', hm'⟩ := (hr.firstMatch_iff atStart (c :: cs)).mpr ⟨word, hword, hold⟩
          exact hr.text_ne_nil hm' (hnone m' hm')
      | cons d before =>
          rw [List.flatMap_cons, List.cons_append] at hsplit
          exact ih before after (List.cons.inj hsplit).2 flag
  | @replaced atStart s m ps hfirst hne hrest ih =>
      intro before after hsplit flag
      rw [List.flatMap_cons] at hsplit
      rcases List.append_eq_append_iff.mp hsplit with
        ⟨before', rfl, hafter⟩ | ⟨inside, hinside, rfl⟩
      · exact ih before' after hafter flag
      · cases inside with
        | nil => exact ih [] _ rfl flag
        | cons d inside =>
            rw [Option.eq_none_iff_forall_ne_some]
            intro m' hm'
            obtain ⟨word, hword, hbegin⟩ := (hr.firstMatch_iff flag _).mp ⟨m', hm'⟩
            obtain ⟨c, cs, rfl, hc⟩ := hmarker.not_mem hword
            rw [List.cons_append] at hbegin
            obtain ⟨rfl, -⟩ := List.cons_prefix_cons.mp hbegin
            apply hc
            change marker = before ++ c :: inside at hinside
            rw [hinside]
            simp

/-- A word over the class at which the expression matches wherever it stands lies in one
replaced piece. -/
theorem Scan.covers (hr : MatchesRuns r p Word) {word : List Char}
    (hclass : ∀ c ∈ word, p c = true)
    (hmatch : ∀ flag post, ∃ m, r.firstMatch flag (word ++ post) = some m)
    {atStart : Bool} {s : List Char} {ps : List Piece} (h : Scan r atStart s ps) :
    ∀ before after, s = before ++ (word ++ after) →
      ∃ front left right back, ps = front ++ .replaced (left ++ (word ++ right)) :: back ∧
        before = front.flatMap Piece.source ++ left ∧
        after = right ++ back.flatMap Piece.source := by
  induction h with
  | done =>
      intro before after hsplit
      obtain ⟨m, hm⟩ := hmatch true after
      obtain ⟨-, hnil⟩ := List.append_eq_nil_iff.mp hsplit.symm
      rw [hnil] at hm
      have htext := text_append_rest (mem_of_firstMatch hm)
      exact absurd (List.append_eq_nil_iff.mp htext).1 (hr.text_ne_nil hm)
  | @kept atStart c cs ps hnone hrest ih =>
      intro before after hsplit
      cases before with
      | nil =>
          obtain ⟨m, hm⟩ := hmatch atStart after
          rw [List.nil_append] at hsplit
          rw [← hsplit] at hm
          exact absurd (hnone m hm) (hr.text_ne_nil hm)
      | cons d before =>
          rw [List.cons_append] at hsplit
          obtain ⟨rfl, htail⟩ := List.cons.inj hsplit
          obtain ⟨front, left, right, back, rfl, rfl, rfl⟩ := ih before after htail
          exact ⟨.kept c :: front, left, right, back, rfl, rfl, rfl⟩
  | @replaced atStart s m ps hfirst hne hrest ih =>
      intro before after hsplit
      have htext := text_append_rest (mem_of_firstMatch hfirst)
      rw [hsplit] at htext
      rcases List.append_eq_append_iff.mp htext with
        ⟨before', rfl, hafter⟩ | ⟨inside, hinside, hrestEq⟩
      · obtain ⟨front, left, right, back, rfl, rfl, rfl⟩ := ih before' after hafter
        refine ⟨.replaced m.text :: front, left, right, back, rfl, ?_, rfl⟩
        exact (List.append_assoc m.text (front.flatMap Piece.source) left).symm
      · -- the match reaches into the word, so it does not end before the word does
        have hword : ∃ right, inside = word ++ right ∧ after = right ++ m.rest := by
          rcases List.append_eq_append_iff.mp hrestEq with hover | ⟨left, hleft, hrest'⟩
          · exact hover
          · cases left with
            | nil =>
                rw [List.append_nil] at hleft
                exact ⟨[], by rw [hleft, List.append_nil], hrest'.symm⟩
            | cons c left =>
                have hin : p c = true := hclass c (by simp [hleft])
                have hout := hr.rest_class hfirst c (left ++ after) hrest'
                rw [hin] at hout
                cases hout
        obtain ⟨right, rfl, rfl⟩ := hword
        refine ⟨[], before, right, ps, ?_, rfl, ?_⟩
        · rw [hinside]
          rfl
        · rw [hrest.source_eq]

end Substitution

end Regex

end Pattern
