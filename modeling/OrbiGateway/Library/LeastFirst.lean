import Mathlib.Data.List.MinMax

/-!
# Taking the least first

`argmin` picks an element with the least key, the first one where several have it.
Restricting the list to elements among which the picked one still is does not change
the pick.
-/

namespace LeastFirst

variable {α β : Type*} [LinearOrder β] {f : α → β}

/-- The pick is the same among fewer elements that still contain it. -/
theorem argmin_filter {p : α → Bool} {m : α} (hm : p m = true) :
    ∀ {xs : List α}, xs.argmin f = some m → (xs.filter p).argmin f = some m := by
  intro xs
  induction xs generalizing m with
  | nil =>
      intro h
      cases h
  | cons x xs ih =>
      intro h
      rw [List.argmin_cons] at h
      cases hrest : xs.argmin f with
      | none =>
          rw [hrest] at h
          cases h
          have hempty : xs = [] := List.argmin_eq_none.mp hrest
          subst hempty
          rw [List.filter_singleton, hm]
          rfl
      | some c =>
          rw [hrest] at h
          change (if f c < f x then some c else some x) = some m at h
          by_cases hlt : f c < f x
          · rw [if_pos hlt] at h
            cases h
            have hthen := ih hm hrest
            by_cases hx : p x = true
            · rw [List.filter_cons_of_pos hx, List.argmin_cons, hthen]
              exact if_pos hlt
            · rw [List.filter_cons_of_neg hx]
              exact hthen
          · rw [if_neg hlt] at h
            cases h
            rw [List.filter_cons_of_pos hm, List.argmin_cons]
            cases hfiltered : (xs.filter p).argmin f with
            | none => rfl
            | some d =>
                have hd : d ∈ xs := (List.mem_filter.mp (List.argmin_mem hfiltered)).1
                have hcd : f c ≤ f d := List.le_of_mem_argmin hd hrest
                exact if_neg fun hlt' => hlt (hcd.trans_lt hlt')

end LeastFirst
