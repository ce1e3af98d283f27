import Mathlib.Logic.Function.Basic

/-!
# Keys with an expiry

A store keeps a value under each key, and for some keys the instant at which the key
goes away.  Writing keeps the expiry of a key that exists; a key that does not exist
gets none, and stays until an expiry is set.
-/

namespace Expiring

/-- A stored value and the expiry of its key, if it has one. -/
structure Entry (ν T : Type*) where
  value : ν
  expiresAt : Option T

abbrev Store (κ ν T : Type*) := κ → Option (Entry ν T)

namespace Store

variable {κ ν T : Type*}

def empty : Store κ ν T := fun _ => none

/-- The key exists and nothing will remove it. -/
def Immortal (s : Store κ ν T) (k : κ) : Prop :=
  ∃ entry, s k = some entry ∧ entry.expiresAt = none

/-- The expiry of the key has come. -/
def IsDue [LE T] (s : Store κ ν T) (k : κ) (now : T) : Prop :=
  ∃ entry instant, s k = some entry ∧ entry.expiresAt = some instant ∧ instant ≤ now

theorem IsDue.not_immortal [LE T] {s : Store κ ν T} {k : κ} {now : T} (h : s.IsDue k now) :
    ¬s.Immortal k := by
  obtain ⟨entry, instant, hentry, hinstant, -⟩ := h
  rintro ⟨entry', hentry', hforever⟩
  rw [hentry, Option.some.injEq] at hentry'
  subst hentry'
  rw [hinstant] at hforever
  cases hforever

theorem not_immortal_empty {k : κ} : ¬(empty : Store κ ν T).Immortal k := by
  rintro ⟨entry, hentry, -⟩
  cases hentry

variable [DecidableEq κ]

/-- Write a value; the expiry stays as it is. -/
def write (s : Store κ ν T) (k : κ) (value : ν) : Store κ ν T :=
  Function.update s k (some ⟨value, (s k).bind Entry.expiresAt⟩)

/-- Set the expiry of a key that exists. -/
def expire (s : Store κ ν T) (k : κ) (instant : T) : Store κ ν T :=
  Function.update s k ((s k).map fun entry => { entry with expiresAt := some instant })

def remove (s : Store κ ν T) (k : κ) : Store κ ν T :=
  Function.update s k none

section Lemmas

variable {s : Store κ ν T} {k k' : κ} {value : ν} {instant : T}

@[simp] theorem write_self :
    s.write k value k = some ⟨value, (s k).bind Entry.expiresAt⟩ :=
  Function.update_self ..

theorem write_of_ne (h : k' ≠ k) : s.write k value k' = s k' :=
  Function.update_of_ne h ..

@[simp] theorem expire_self :
    s.expire k instant k =
      (s k).map fun entry => { entry with expiresAt := some instant } :=
  Function.update_self ..

theorem expire_of_ne (h : k' ≠ k) : s.expire k instant k' = s k' :=
  Function.update_of_ne h ..

@[simp] theorem remove_self : s.remove k k = none :=
  Function.update_self ..

theorem remove_of_ne (h : k' ≠ k) : s.remove k k' = s k' :=
  Function.update_of_ne h ..

/-- A write makes a key immortal only by creating it. -/
theorem immortal_write_iff :
    (s.write k value).Immortal k' ↔ s.Immortal k' ∨ k' = k ∧ s k = none := by
  by_cases hkey : k' = k
  · subst hkey
    cases hold : s k' with
    | none => simp [Immortal, write, hold]
    | some entry => simp [Immortal, write, hold]
  · simp [Immortal, write_of_ne hkey, hkey]

theorem immortal_expire_iff :
    (s.expire k instant).Immortal k' ↔ k' ≠ k ∧ s.Immortal k' := by
  by_cases hkey : k' = k
  · subst hkey
    simp [Immortal]
  · simp [Immortal, expire_of_ne hkey, hkey]

theorem immortal_remove_iff :
    (s.remove k).Immortal k' ↔ k' ≠ k ∧ s.Immortal k' := by
  by_cases hkey : k' = k
  · subst hkey
    simp [Immortal]
  · simp [Immortal, remove_of_ne hkey, hkey]

end Lemmas

end Store

end Expiring
