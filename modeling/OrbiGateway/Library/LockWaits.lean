import Mathlib.Logic.Function.Basic
import Mathlib.Logic.Relation
import OrbiGateway.Library.Runs

/-!
# Waiting for locks

Each transaction takes the locks of its program one by one and keeps them until it
ends.  A deadlock is a cycle of transactions each waiting for a lock that the next
one holds.  The first section is about cycles of relations, the second about
transactions.
-/

namespace LockWaits

open Relation

/-! ## Cycles -/

section Cycles

variable {α : Type*} {r r' : α → α → Prop} {a b : α}

/-- The element lies on a cycle of the relation. -/
def OnCycle (r : α → α → Prop) (a : α) : Prop := TransGen r a a

def Acyclic (r : α → α → Prop) : Prop := ∀ a, ¬OnCycle r a

/-- An edge between elements that lie on cycles. -/
structure CycleEdge (r : α → α → Prop) (a b : α) : Prop where
  edge : r a b
  source : OnCycle r a
  target : OnCycle r b

theorem OnCycle.successor (h : OnCycle r a) : ∃ b, CycleEdge r a b := by
  obtain ⟨b, hedge, hback⟩ := TransGen.head'_iff.mp h
  exact ⟨b, hedge, h, TransGen.tail' hback hedge⟩

theorem OnCycle.predecessor (h : OnCycle r a) : ∃ b, CycleEdge r b a := by
  obtain ⟨b, hback, hedge⟩ := TransGen.tail'_iff.mp h
  exact ⟨b, hedge, TransGen.head' hedge hback, h⟩

/-- A path that can be closed to a cycle runs along cycle edges. -/
theorem transGen_cycleEdge_of_closed (hpath : TransGen r a b)
    (hback : ReflTransGen r b a) : TransGen (CycleEdge r) a b := by
  induction hpath with
  | single hedge =>
      exact .single ⟨hedge, TransGen.head' hedge hback, TransGen.tail' hback hedge⟩
  | @tail b c hpath hedge ih =>
      have hthrough : ReflTransGen r b a := ReflTransGen.head hedge hback
      have hcycle : OnCycle r b := TransGen.head' hedge (hback.trans hpath.to_reflTransGen)
      have hcycle' : OnCycle r c := TransGen.tail' (hback.trans hpath.to_reflTransGen) hedge
      exact (ih hthrough).tail ⟨hedge, hcycle, hcycle'⟩

theorem OnCycle.transGen_cycleEdge (h : OnCycle r a) : TransGen (CycleEdge r) a a :=
  transGen_cycleEdge_of_closed h .refl

/-- A relation is acyclic when its cycle edges are edges of an acyclic one. -/
theorem Acyclic.of_cycleEdge (h : Acyclic r)
    (hedge : ∀ a b, CycleEdge r' a b → r a b) : Acyclic r' := by
  intro a hcycle
  exact h a (TransGen.mono hedge _ _ hcycle.transGen_cycleEdge)

/-- Changing the edges of an element that lies on no cycle closes none. -/
theorem Acyclic.of_not_onCycle {t : α} (h : Acyclic r) (hoff : ¬OnCycle r' t)
    (hedge : ∀ a b, a ≠ t → b ≠ t → r' a b → r a b) : Acyclic r' := by
  apply h.of_cycleEdge
  intro a b hcycle
  have ha : a ≠ t := by
    rintro rfl
    exact hoff hcycle.source
  have hb : b ≠ t := by
    rintro rfl
    exact hoff hcycle.target
  exact hedge a b ha hb hcycle.edge

/-- Following a path up to its first new edge, all of which enter `t`. -/
theorem path_to_new_edge {t : α} {new : α → Prop}
    (hedge : ∀ a b, r' a b → r a b ∨ (b = t ∧ new a)) (hpath : TransGen r' a b) :
    TransGen r a b ∨ ∃ u, ReflTransGen r a u ∧ new u ∧ ReflTransGen r' t b := by
  induction hpath with
  | single hfirst =>
      rcases hedge _ _ hfirst with hold | ⟨rfl, hnew⟩
      · exact Or.inl (.single hold)
      · exact Or.inr ⟨_, .refl, hnew, .refl⟩
  | tail _ hlast ih =>
      rcases ih with hold | ⟨u, hu, hnew, hrest⟩
      · rcases hedge _ _ hlast with hlast' | ⟨rfl, hnew⟩
        · exact Or.inl (hold.tail hlast')
        · exact Or.inr ⟨_, hold.to_reflTransGen, hnew, .refl⟩
      · exact Or.inr ⟨u, hu, hnew, hrest.tail hlast⟩

/-- New edges into one element `t` close no cycle when none of them starts at `t` or
at an element that `t` reached before. -/
theorem Acyclic.of_new_edges {t : α} {new : α → Prop} (h : Acyclic r)
    (hedge : ∀ a b, r' a b → r a b ∨ (b = t ∧ new a))
    (hnew : ∀ u, ReflTransGen r t u → ¬new u) : Acyclic r' := by
  intro a hcycle
  rcases path_to_new_edge hedge hcycle with hold | ⟨u, hau, hu, hback⟩
  · exact h a hold
  · rcases reflTransGen_iff_eq_or_transGen.mp hback with heq | hpath
    · subst heq
      exact hnew u hau hu
    · rcases path_to_new_edge hedge hpath with hold | ⟨u', htu', hu', -⟩
      · exact hnew u (hold.to_reflTransGen.trans hau) hu
      · exact hnew u' htu' hu'

end Cycles

/-! ## Transactions -/

section Transactions

variable {τ α ρ : Type*}

/-- A transaction in progress: its program and how many locks it has taken. -/
structure Running (α : Type*) where
  code : α
  taken : ℕ

/-- The transactions in progress. -/
abbrev State (τ α : Type*) := τ → Option (Running α)

inductive Event (τ α : Type*)
  | start (t : τ) (code : α)
  | take (t : τ)
  | finish (t : τ)

/-- No transaction has begun. -/
def idle : State τ α := fun _ => none

variable (locks : α → List ρ)

/-- The locks a transaction holds. -/
def held (s : State τ α) (t : τ) : List ρ :=
  match s t with
  | some running => (locks running.code).take running.taken
  | none => []

/-- The locks it has still to take. -/
def todo (s : State τ α) (t : τ) : List ρ :=
  match s t with
  | some running => (locks running.code).drop running.taken
  | none => []

/-- One step: a transaction begins, takes its next lock when no other holds it, or
ends and gives up all its locks, by commit or rollback and at any point. -/
inductive Step [DecidableEq τ] : State τ α → Event τ α → State τ α → Prop
  | start {s : State τ α} {t : τ} {code : α} (hidle : s t = none) :
      Step s (.start t code) (Function.update s t (some ⟨code, 0⟩))
  | take {s : State τ α} {t : τ} {running : Running α} {x : ρ}
      (hrunning : s t = some running) (hnext : (todo locks s t).head? = some x)
      (hfree : ∀ u, u ≠ t → x ∉ held locks s u) :
      Step s (.take t) (Function.update s t (some ⟨running.code, running.taken + 1⟩))
  | finish {s : State τ α} {t : τ} :
      Step s (.finish t) (Function.update s t none)

/-- The next lock of `t` is held by `u`. -/
structure WaitsFor (s : State τ α) (t u : τ) : Prop where
  other : t ≠ u
  blocked : ∃ x, (todo locks s t).head? = some x ∧ x ∈ held locks s u

/-- Some transactions wait for each other in a cycle. -/
def Deadlock (s : State τ α) : Prop := ∃ t, OnCycle (WaitsFor locks s) t

/-- `t` has still to take a lock that `u` holds. -/
structure Needs (s : State τ α) (t u : τ) : Prop where
  other : t ≠ u
  blocked : ∃ x ∈ todo locks s t, x ∈ held locks s u

variable {locks}

theorem WaitsFor.needs {s : State τ α} {t u : τ} (h : WaitsFor locks s t u) :
    Needs locks s t u := by
  obtain ⟨x, hnext, hheld⟩ := h.blocked
  exact ⟨h.other, x, List.mem_of_mem_head? hnext, hheld⟩

theorem held_eq {s : State τ α} {t : τ} {running : Running α} (h : s t = some running) :
    held locks s t = (locks running.code).take running.taken := by
  simp only [held, h]

theorem todo_eq {s : State τ α} {t : τ} {running : Running α} (h : s t = some running) :
    todo locks s t = (locks running.code).drop running.taken := by
  simp only [todo, h]

theorem head_todo {s : State τ α} {t : τ} {running : Running α}
    (h : s t = some running) :
    (todo locks s t).head? = (locks running.code)[running.taken]? := by
  rw [todo_eq h, List.head?_drop]

theorem mem_held_iff {s : State τ α} {t : τ} {running : Running α} {x : ρ}
    (h : s t = some running) :
    x ∈ held locks s t ↔ ∃ i < running.taken, (locks running.code)[i]? = some x := by
  rw [held_eq h, List.mem_iff_getElem?]
  simp only [List.getElem?_take, Option.ite_none_right_eq_some]

/-- The two ends of a cycle edge: `t` waits at `x`, which is the `i`-th lock of `u`,
while `u` waits at `y` and `t` holds something itself. -/
structure Blocked (locks : α → List ρ) (s : State τ α) (t u : τ)
    (source target : Running α) (x y : ρ) (i : ℕ) : Prop where
  source_eq : s t = some source
  target_eq : s u = some target
  source_next : (locks source.code)[source.taken]? = some x
  target_holds : (locks target.code)[i]? = some x
  target_next : (locks target.code)[target.taken]? = some y
  taken_lt : i < target.taken
  source_holds : 0 < source.taken

theorem exists_running_of_todo {s : State τ α} {t : τ} {x : ρ}
    (h : (todo locks s t).head? = some x) :
    ∃ running, s t = some running ∧ (locks running.code)[running.taken]? = some x := by
  cases hrunning : s t with
  | none => simp [todo, hrunning] at h
  | some running => exact ⟨running, rfl, by rw [← head_todo hrunning, h]⟩

theorem exists_running_of_held {s : State τ α} {t : τ} {x : ρ}
    (h : x ∈ held locks s t) :
    ∃ running, s t = some running ∧
      ∃ i < running.taken, (locks running.code)[i]? = some x := by
  cases hrunning : s t with
  | none => simp [held, hrunning] at h
  | some running => exact ⟨running, rfl, (mem_held_iff hrunning).mp h⟩

/-- On a cycle everyone waits and everyone holds a lock. -/
theorem blocked_of_cycleEdge {s : State τ α} {t u : τ}
    (h : CycleEdge (WaitsFor locks s) t u) :
    ∃ source target x y i, Blocked locks s t u source target x y i := by
  obtain ⟨x, hnext, hheld⟩ := h.edge.blocked
  obtain ⟨source, hsource, hsourceNext⟩ := exists_running_of_todo hnext
  obtain ⟨target, htarget, i, hi, htargetHolds⟩ := exists_running_of_held hheld
  obtain ⟨after, hafter⟩ := h.target.successor
  obtain ⟨y, hnext', -⟩ := hafter.edge.blocked
  obtain ⟨target', htarget', htargetNext⟩ := exists_running_of_todo hnext'
  obtain ⟨before, hbefore⟩ := h.source.predecessor
  obtain ⟨z, -, hheld'⟩ := hbefore.edge.blocked
  obtain ⟨source', hsource', j, hj, -⟩ := exists_running_of_held hheld'
  rw [htarget] at htarget'
  rw [hsource] at hsource'
  cases htarget'
  cases hsource'
  exact ⟨source, target, x, y, i, hsource, htarget, hsourceNext, htargetHolds,
    htargetNext, hi, by omega⟩

section Updates

variable [DecidableEq τ] {s : State τ α} {t u : τ}

theorem held_update_of_ne (value : Option (Running α)) (h : u ≠ t) :
    held locks (Function.update s t value) u = held locks s u := by
  simp only [held, Function.update_of_ne h]

theorem todo_update_of_ne (value : Option (Running α)) (h : u ≠ t) :
    todo locks (Function.update s t value) u = todo locks s u := by
  simp only [todo, Function.update_of_ne h]

theorem held_update_take {running : Running α} {x : ρ} (hrunning : s t = some running)
    (hnext : (todo locks s t).head? = some x) :
    held locks (Function.update s t (some ⟨running.code, running.taken + 1⟩)) t =
      held locks s t ++ [x] := by
  have hget : (locks running.code)[running.taken]? = some x := by
    rw [todo_eq hrunning, List.head?_drop] at hnext
    exact hnext
  rw [held_eq hrunning, held_eq (Function.update_self _ _ _), List.take_add_one, hget]
  rfl

theorem todo_update_take {running : Running α} (hrunning : s t = some running) :
    todo locks (Function.update s t (some ⟨running.code, running.taken + 1⟩)) t =
      (todo locks s t).tail := by
  rw [todo_eq hrunning, todo_eq (Function.update_self _ _ _), List.tail_drop]

end Updates

end Transactions

end LockWaits
