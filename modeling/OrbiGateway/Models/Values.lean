import Mathlib.Data.Rat.Defs
import Mathlib.Order.Lattice
import Mathlib.Order.Basic
import Mathlib.Order.Defs.LinearOrder

/-!
# Column values

Instants are integers counting microseconds from the epoch, UTC dates are civil
dates, and JSONB documents are trees compared by PostgreSQL's containment
operator.
-/

namespace OrbiGateway

/-- Primary and foreign keys. -/
abbrev UUID := ℕ

/-! ## Instants -/

/-- A `datetime` in UTC, in microseconds. -/
abbrev Timestamp := ℤ

/-- `timedelta(seconds=n)`. -/
def seconds (n : ℤ) : ℤ := n * 1000000

/-- `timedelta(minutes=n)`. -/
def minutes (n : ℤ) : ℤ := seconds (n * 60)

/-! ## Dates -/

def isLeapYear (year : ℕ) : Bool :=
  year % 4 == 0 && (year % 100 != 0 || year % 400 == 0)

/-- Number of days of a month of the Gregorian calendar. -/
def daysInMonth (year month : ℕ) : ℕ :=
  if month = 2 then
    if isLeapYear year then 29 else 28
  else if month = 4 ∨ month = 6 ∨ month = 9 ∨ month = 11 then
    30
  else
    31

theorem daysInMonth_pos (year month : ℕ) : 1 ≤ daysInMonth year month := by
  unfold daysInMonth
  split
  · split <;> omega
  · split <;> omega

theorem daysInMonth_le (year month : ℕ) : daysInMonth year month ≤ 31 := by
  unfold daysInMonth
  split
  · split <;> omega
  · split <;> omega

/-- A civil date of the proleptic Gregorian calendar, as `datetime.date`. -/
structure Date where
  year : ℕ
  month : ℕ
  day : ℕ
  month_pos : 1 ≤ month
  month_le : month ≤ 12
  day_pos : 1 ≤ day
  day_le : day ≤ daysInMonth year month
  deriving DecidableEq

namespace Date

/-- The first day of the date's month, `date.replace(day=1)`. -/
def replaceDayOne (date : Date) : Date where
  year := date.year
  month := date.month
  day := 1
  month_pos := date.month_pos
  month_le := date.month_le
  day_pos := le_refl 1
  day_le := daysInMonth_pos date.year date.month

/-- Position in calendar order; months and days each fit in five bits. -/
def ordinal (date : Date) : ℕ :=
  (date.year * 32 + date.month) * 32 + date.day

theorem ordinal_injective : Function.Injective ordinal := by
  intro a b h
  have ha := a.month_le
  have hb := b.month_le
  have hda := a.day_le.trans (daysInMonth_le a.year a.month)
  have hdb := b.day_le.trans (daysInMonth_le b.year b.month)
  simp only [ordinal] at h
  have hyear : a.year = b.year := by omega
  have hmonth : a.month = b.month := by omega
  have hday : a.day = b.day := by omega
  cases a
  cases b
  simp_all

/-- Calendar order. -/
instance : LinearOrder Date :=
  @LinearOrder.lift' Date ℕ Nat.instLinearOrder ordinal ordinal_injective

theorem le_iff_ordinal {a b : Date} : a ≤ b ↔ a.ordinal ≤ b.ordinal := Iff.rfl

theorem replaceDayOne_mono {a b : Date} (h : a ≤ b) :
    a.replaceDayOne ≤ b.replaceDayOne := by
  have hda := a.day_pos
  have hdb := b.day_le.trans (daysInMonth_le b.year b.month)
  rw [le_iff_ordinal] at h ⊢
  simp only [ordinal, replaceDayOne] at h ⊢
  omega

end Date

/-! ## JSON -/

/-- A JSON document.  Numbers are exact, as in PostgreSQL's `numeric`. -/
inductive Json
  | null
  | bool (value : Bool)
  | num (value : ℚ)
  | str (value : String)
  | arr (elements : List Json)
  | obj (fields : List (String × Json))
  deriving BEq

/-- A Python `dict[str, object]`: the fields of a JSON object. -/
abbrev JsonObject := List (String × Json)

mutual

/-- `inner <@ outer` on JSONB: equal scalars, arrays whose elements are all
contained in some element, objects whose fields are all contained in the field
of the same name.  PostgreSQL's exception for a bare scalar in a top-level
array does not arise, because both columns hold objects. -/
def Json.containedIn (inner outer : Json) : Bool :=
  match inner with
  | .null => match outer with
    | .null => true
    | _ => false
  | .bool a => match outer with
    | .bool b => a == b
    | _ => false
  | .num a => match outer with
    | .num b => a == b
    | _ => false
  | .str a => match outer with
    | .str b => a == b
    | _ => false
  | .arr inners => match outer with
    | .arr outers => Json.elementsContainedIn inners outers
    | _ => false
  | .obj inners => match outer with
    | .obj outers => Json.fieldsContainedIn inners outers
    | _ => false
termination_by structural inner

def Json.elementsContainedIn (inners outers : List Json) : Bool :=
  match inners with
  | [] => true
  | inner :: rest =>
      outers.any (fun outer => Json.containedIn inner outer) &&
        Json.elementsContainedIn rest outers
termination_by structural inners

def Json.fieldsContainedIn (inners outers : List (String × Json)) : Bool :=
  match inners with
  | [] => true
  | inner :: rest =>
      Json.fieldContainedIn inner outers && Json.fieldsContainedIn rest outers
termination_by structural inners

def Json.fieldContainedIn (inner : String × Json)
    (outers : List (String × Json)) : Bool :=
  match inner with
  | (name, value) => match outers.lookup name with
    | some outer => Json.containedIn value outer
    | none => false
termination_by structural inner

end

example :
    Json.containedIn (.obj [("vision", .bool true)])
      (.obj [("tools", .null), ("vision", .bool true)]) = true := by decide

/-! ## Statuses -/

/-- The values of `OrbiRequest.status` that the gateway reads or writes. -/
inductive RequestStatus
  | queued
  | assigned
  | starting
  | running
  | streaming
  | completed
  | failedFinal
  | expired
  | cancelled
  deriving DecidableEq

/-- The values of `Worker.status` that the gateway reads or writes. -/
inductive WorkerStatus
  | offline
  | online
  | draining
  | suspended
  deriving DecidableEq

end OrbiGateway
