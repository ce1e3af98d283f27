import Mathlib.Algebra.Order.Ring.Rat
import OrbiGateway.Library.Expiring
import OrbiGateway.Models.Values

/-!
# Rate limits

The per-minute window of an API key is a Redis counter whose key names the key id and
the UTC minute of the clock that the call has read.  The call increments it, gives it an
expiry if it has just created it, and compares the count with the limit.
-/

namespace OrbiGateway

/-! ## Minutes -/

def daysBeforeYear (year : ℕ) : ℕ :=
  let past := year - 1
  past * 365 + past / 4 - past / 100 + past / 400

def daysBeforeMonth (year month : ℕ) : ℕ :=
  (List.range (month - 1)).foldl (fun days earlier => days + daysInMonth year (earlier + 1)) 0

/-- `date.toordinal()`: the first day of year 1 has number 1. -/
def Date.toordinal (date : Date) : ℕ :=
  daysBeforeYear date.year + daysBeforeMonth date.year date.month + date.day

example : Date.toordinal ⟨1970, 1, 1, by decide, by decide, by decide, by decide⟩ =
    719163 := by decide

/-- The minute of a UTC clock reading. -/
@[ext] structure ClockMinute where
  date : Date
  hour : ℕ
  minute : ℕ
  hour_lt : hour < 24
  minute_lt : minute < 60
  deriving DecidableEq

namespace ClockMinute

/-- The first instant of the minute, in seconds from the epoch. -/
def start (m : ClockMinute) : ℚ :=
  ((((m.date.toordinal : ℤ) - 719163) * 24 + m.hour) * 60 + m.minute) * 60

/-- The first instant after the minute. -/
def stop (m : ClockMinute) : ℚ :=
  m.start + 60

/-- A field of two decimal digits. -/
def twoDigits (n : ℕ) : List Char :=
  [(n / 10).digitChar, (n % 10).digitChar]

/-- `now.strftime("%Y%m%d%H%M")`. -/
def window (m : ClockMinute) : List Char :=
  Nat.toDigits 10 m.date.year ++ (twoDigits m.date.month ++ twoDigits m.date.day ++
    twoDigits m.hour ++ twoDigits m.minute)

theorem digitChar_injective : ∀ a < 10, ∀ b < 10, Nat.digitChar a = Nat.digitChar b → a = b := by
  decide

theorem twoDigits_injective {a b : ℕ} (ha : a < 100) (hb : b < 100)
    (h : twoDigits a = twoDigits b) : a = b := by
  simp only [twoDigits, List.cons.injEq, and_true] at h
  have htens := digitChar_injective (a / 10) (by omega) (b / 10) (by omega) h.1
  have hones := digitChar_injective (a % 10) (by omega) (b % 10) (by omega) h.2
  omega

theorem window_injective : Function.Injective window := by
  intro a b h
  obtain ⟨hyear, hrest⟩ := List.append_inj' h (by simp [twoDigits])
  obtain ⟨hrest, hminute⟩ := List.append_inj' hrest rfl
  obtain ⟨hrest, hhour⟩ := List.append_inj' hrest rfl
  obtain ⟨hmonth, hday⟩ := List.append_inj' hrest rfl
  have hyears : a.date.year = b.date.year := by
    rw [← Nat.ofDigitChars_ten_toDigits (n := a.date.year), hyear,
      Nat.ofDigitChars_ten_toDigits]
  have hmonths := twoDigits_injective (by have := a.date.month_le; omega)
    (by have := b.date.month_le; omega) hmonth
  have hdays := twoDigits_injective
    (by have := a.date.day_le.trans (daysInMonth_le _ _); omega)
    (by have := b.date.day_le.trans (daysInMonth_le _ _); omega) hday
  have hhours := twoDigits_injective (by have := a.hour_lt; omega)
    (by have := b.hour_lt; omega) hhour
  have hminutes := twoDigits_injective (by have := a.minute_lt; omega)
    (by have := b.minute_lt; omega) hminute
  have hdate : a.date = b.date := by
    apply Date.ordinal_injective
    rw [Date.ordinal, hyears, hmonths, hdays]
    rfl
  exact ClockMinute.ext hdate hhours hminutes

theorem isDigit_of_mem_window {m : ClockMinute} {c : Char} (h : c ∈ m.window) :
    c.isDigit = true := by
  have hfield : ∀ n < 100, c ∈ twoDigits n → c.isDigit = true := by
    intro n hn hmem
    simp only [twoDigits, List.mem_cons, List.not_mem_nil, or_false] at hmem
    rcases hmem with rfl | rfl
    · rw [Nat.isDigit_digitChar, decide_eq_true_iff]
      omega
    · rw [Nat.isDigit_digitChar, decide_eq_true_iff]
      omega
  have hdays := m.date.day_le.trans (daysInMonth_le _ _)
  have hmonths := m.date.month_le
  have hhours := m.hour_lt
  have hminutes := m.minute_lt
  simp only [window, List.mem_append] at h
  rcases h with hyear | (((hmonth | hday) | hhour) | hminute)
  · exact Nat.isDigit_of_mem_toDigits (by decide) (by decide) hyear
  · exact hfield _ (by omega) hmonth
  · exact hfield _ (by omega) hday
  · exact hfield _ (by omega) hhour
  · exact hfield _ (by omega) hminute

end ClockMinute

/-! ## Counters -/

/-- The counters that Redis has, by the text of their keys. -/
abbrev Counters := Expiring.Store String ℕ ℚ

namespace RateLimitService

/-- The key of a counter. -/
def counterKey (keyId : String) (m : ClockMinute) : String :=
  "orbi:ratelimit:" ++ keyId ++ ":" ++ String.ofList m.window

/-- The count under a key, 0 for a key that does not exist. -/
def stored (counters : Counters) (key : String) : ℕ :=
  (counters key).elim 0 Expiring.Entry.value

/-- `INCR`, with the new count. -/
def incr (counters : Counters) (key : String) : ℕ × Counters :=
  let count := stored counters key + 1
  (count, counters.write key count)

/-- `allow_minute`, with the minute of the clock it reads, at the instant `now` of
Redis. -/
def allowMinute (counters : Counters) (keyId : String) (rpmLimit : ℤ) (m : ClockMinute)
    (now : ℚ) : Bool × Counters :=
  let key := counterKey keyId m
  let (count, counters) := incr counters key
  let counters := if count = 1 then counters.expire key (now + 120) else counters
  (decide ((count : ℤ) ≤ rpmLimit), counters)

section Counts

variable {counters : Counters} {key key' : String}

theorem stored_write_self {count : ℕ} : stored (counters.write key count) key = count := by
  simp [stored]

theorem stored_write_of_ne {count : ℕ} (h : key' ≠ key) :
    stored (counters.write key count) key' = stored counters key' := by
  rw [stored, stored, Expiring.Store.write_of_ne h]

theorem stored_expire {instant : ℚ} :
    stored (counters.expire key instant) key' = stored counters key' := by
  by_cases hkey : key' = key
  · subst hkey
    rw [stored, stored, Expiring.Store.expire_self]
    cases counters key' with
    | none => rfl
    | some entry => rfl
  · rw [stored, stored, Expiring.Store.expire_of_ne hkey]

theorem stored_remove_of_ne (h : key' ≠ key) :
    stored (counters.remove key) key' = stored counters key' := by
  rw [stored, stored, Expiring.Store.remove_of_ne h]

end Counts

/-- Different keys and different minutes have different counters. -/
theorem counterKey_inj {keyId keyId' : String} {m m' : ClockMinute}
    (h : counterKey keyId m = counterKey keyId' m') : keyId = keyId' ∧ m = m' := by
  have htext : ∀ (keyId : String) (m : ClockMinute), (counterKey keyId m).toList =
      "orbi:ratelimit:".toList ++ (keyId.toList ++ (':' :: m.window)) := by
    intro keyId m
    change ("orbi:ratelimit:" ++ keyId ++ ":" ++ String.ofList m.window).toList = _
    simp only [String.toList_append, String.toList_ofList, List.append_assoc]
    rfl
  have hlists := List.append_cancel_left ((htext keyId m).symm.trans
    ((congrArg String.toList h).trans (htext keyId' m')))
  have hsplit : ∀ {a a' w w' : List Char}, ':' ∉ w → ':' ∉ w' →
      a ++ (':' :: w) = a' ++ (':' :: w') → a = a' ∧ w = w' := by
    intro a a' w w' hw hw' heq
    rcases List.append_eq_append_iff.mp heq with ⟨mid, rfl, hmid⟩ | ⟨mid, rfl, hmid⟩
    · cases mid with
      | nil => simpa using hmid
      | cons c mid =>
          rw [List.cons_append, List.cons.injEq] at hmid
          exact absurd (by simp [hmid.2]) hw
    · cases mid with
      | nil => simpa [eq_comm] using hmid
      | cons c mid =>
          rw [List.cons_append, List.cons.injEq] at hmid
          exact absurd (by simp [hmid.2]) hw'
  have hcolon : ∀ m : ClockMinute, ':' ∉ m.window := by
    intro m hmem
    have hdigit := ClockMinute.isDigit_of_mem_window hmem
    revert hdigit
    decide
  obtain ⟨hid, hwindow⟩ := hsplit (hcolon m) (hcolon m') hlists
  exact ⟨String.toList_inj.mp hid, ClockMinute.window_injective hwindow⟩

end RateLimitService

end OrbiGateway
