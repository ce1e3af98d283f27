import Mathlib.Logic.Basic

/-!
# Calls under a constraint

A store under a constraint keeps the outcome of a call only if the call hands it
admissible arguments and leaves the constraint standing; otherwise it refuses the call and
stays as it was.  The states of such a store carry the constraint with them.
-/

namespace Constrained

variable {σ ι ρ ε : Type*}

/-- How a call under a constraint ends without effect: it fails by itself, or the
constraint stands against it. -/
inductive Refusal (ε : Type*)
  | raised (failure : ε)
  | violation

/-- Run a call and keep its outcome if the constraint allows. -/
def guarded (call : σ → ι → Except ε (ρ × σ)) (admits : ι → Prop) [DecidablePred admits]
    (I : σ → Prop) [DecidablePred I] (s : { s // I s }) (i : ι) :
    Except (Refusal ε) (ρ × { s // I s }) :=
  if admits i then
    match call s i with
    | .error failure => .error (.raised failure)
    | .ok (reply, next) =>
        if hnext : I next then .ok (reply, ⟨next, hnext⟩) else .error .violation
  else
    .error .violation

section Outcomes

variable {call : σ → ι → Except ε (ρ × σ)} {admits : ι → Prop} [DecidablePred admits]
  {I : σ → Prop} [DecidablePred I] {s : { s // I s }} {i : ι}

/-- What the constraint lets through is the outcome of the call itself. -/
theorem guarded_eq_ok_iff {reply : ρ} {next : { s // I s }} :
    guarded call admits I s i = .ok (reply, next) ↔
      admits i ∧ call s i = .ok (reply, next.val) := by
  unfold guarded
  by_cases hadmits : admits i
  · rw [if_pos hadmits]
    cases hcall : call s i with
    | error failure => simp
    | ok outcome =>
        obtain ⟨reply', next'⟩ := outcome
        by_cases hnext : I next'
        · simp [hadmits, hnext, Subtype.ext_iff]
        · simp only [hnext, dite_false, reduceCtorEq, hadmits, true_and, false_iff,
            Except.ok.injEq, Prod.mk.injEq]
          rintro ⟨-, rfl⟩
          exact hnext next.property
  · simp [hadmits]

/-- An admitted call fails by itself exactly as it does without the constraint. -/
theorem guarded_eq_raised_iff {failure : ε} :
    guarded call admits I s i = .error (.raised failure) ↔
      admits i ∧ call s i = .error failure := by
  unfold guarded
  by_cases hadmits : admits i
  · rw [if_pos hadmits]
    cases hcall : call s i with
    | error failure' => simp [hadmits]
    | ok outcome =>
        obtain ⟨reply, next⟩ := outcome
        by_cases hnext : I next
        · simp [hnext]
        · simp [hnext]
  · simp [hadmits]

/-- A call is let through by the constraint, whatever else becomes of it, exactly if its
arguments are admitted and its outcome keeps the constraint. -/
theorem guarded_ne_violation_iff :
    guarded call admits I s i ≠ .error .violation ↔
      admits i ∧ ∀ reply next, call s i = .ok (reply, next) → I next := by
  unfold guarded
  by_cases hadmits : admits i
  · rw [if_pos hadmits]
    cases hcall : call s i with
    | error failure => simp [hadmits]
    | ok outcome =>
        obtain ⟨reply, next⟩ := outcome
        by_cases hnext : I next
        · simp [hadmits, hnext]
        · simp [hnext]
  · simp [hadmits]

end Outcomes

end Constrained
