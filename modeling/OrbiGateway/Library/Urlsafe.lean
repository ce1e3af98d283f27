import Mathlib.Data.Nat.Notation

/-!
# Random URL-safe tokens

The base64 text of random bytes over the URL-safe alphabet, without its padding.
-/

namespace Urlsafe

/-- `[A-Za-z0-9_-]`. -/
def isUrlsafe (c : Char) : Bool :=
  ('A' ≤ c && c ≤ 'Z') || ('a' ≤ c && c ≤ 'z') || ('0' ≤ c && c ≤ '9') ||
    c == '_' || c == '-'

/-- The character of six bits. -/
def digit (n : ℕ) : Char :=
  if n < 26 then Char.ofNat (65 + n)
  else if n < 52 then Char.ofNat (71 + n)
  else if n < 62 then Char.ofNat (n - 4)
  else if n = 62 then '-'
  else '_'

/-- Three bytes give four characters, and a last group of one or two bytes the two or
three characters that its bits need. -/
def encode : List UInt8 → List Char
  | a :: b :: c :: rest =>
      digit (a.toNat / 4) :: digit (a.toNat % 4 * 16 + b.toNat / 16) ::
        digit (b.toNat % 16 * 4 + c.toNat / 64) :: digit (c.toNat % 64) :: encode rest
  | [a, b] =>
      [digit (a.toNat / 4), digit (a.toNat % 4 * 16 + b.toNat / 16),
        digit (b.toNat % 16 * 4)]
  | [a] => [digit (a.toNat / 4), digit (a.toNat % 4 * 16)]
  | [] => []

/-- A token of a given number of URL-safe characters. -/
@[ext] structure Token (length : ℕ) where
  chars : List Char
  length_eq : chars.length = length
  urlsafe : ∀ c ∈ chars, isUrlsafe c = true

theorem toNat_lt_of_isUrlsafe {c : Char} (h : isUrlsafe c = true) : c.toNat < 123 := by
  simp only [isUrlsafe, Bool.or_eq_true, Bool.and_eq_true, decide_eq_true_eq,
    beq_iff_eq] at h
  have hle : ∀ {d : Char}, c ≤ d → d.toNat < 123 → c.toNat < 123 :=
    fun hcd hd => Nat.lt_of_le_of_lt hcd hd
  rcases h with (((⟨-, h⟩ | ⟨-, h⟩) | ⟨-, h⟩) | rfl) | rfl
  · exact hle h (by decide)
  · exact hle h (by decide)
  · exact hle h (by decide)
  · decide
  · decide

theorem isUrlsafe_digit {n : ℕ} (h : n < 64) : isUrlsafe (digit n) = true := by
  have hall : ∀ n < 64, isUrlsafe (digit n) = true := by decide
  exact hall n h

theorem length_encode (bytes : List UInt8) :
    (encode bytes).length = (8 * bytes.length + 5) / 6 := by
  induction bytes using encode.induct with
  | case1 a b c rest ih =>
      simp only [encode, List.length_cons, ih]
      omega
  | case2 a b => simp [encode]
  | case3 a => simp [encode]
  | case4 => rfl

theorem isUrlsafe_of_mem_encode {bytes : List UInt8} :
    ∀ c ∈ encode bytes, isUrlsafe c = true := by
  have hbyte : ∀ b : UInt8, b.toNat < 256 := fun b => b.toNat_lt
  induction bytes using encode.induct with
  | case1 a b c rest ih =>
      have ha := hbyte a
      have hb := hbyte b
      have hc := hbyte c
      intro d hd
      simp only [encode, List.mem_cons] at hd
      rcases hd with rfl | rfl | rfl | rfl | hd
      · exact isUrlsafe_digit (by omega)
      · exact isUrlsafe_digit (by omega)
      · exact isUrlsafe_digit (by omega)
      · exact isUrlsafe_digit (by omega)
      · exact ih d hd
  | case2 a b =>
      have ha := hbyte a
      have hb := hbyte b
      intro d hd
      simp only [encode, List.mem_cons, List.not_mem_nil, or_false] at hd
      rcases hd with rfl | rfl | rfl
      · exact isUrlsafe_digit (by omega)
      · exact isUrlsafe_digit (by omega)
      · exact isUrlsafe_digit (by omega)
  | case3 a =>
      have ha := hbyte a
      intro d hd
      simp only [encode, List.mem_cons, List.not_mem_nil, or_false] at hd
      rcases hd with rfl | rfl
      · exact isUrlsafe_digit (by omega)
      · exact isUrlsafe_digit (by omega)
  | case4 =>
      intro d hd
      cases hd

/-- `secrets.token_urlsafe(n)` with the bytes it draws. -/
def tokenUrlsafe {n : ℕ} (bytes : Vector UInt8 n) : Token ((8 * n + 5) / 6) where
  chars := encode bytes.toList
  length_eq := by rw [length_encode, Vector.length_toList]
  urlsafe := isUrlsafe_of_mem_encode

example : String.ofList (encode [0xfb, 0xef, 0xff, 0x4d]) = "--__TQ" := by decide

end Urlsafe
