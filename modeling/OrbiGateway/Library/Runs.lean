import Mathlib.Data.List.Basic
import Mathlib.Logic.Relation

/-!
# Runs of a labelled step relation

A run records the events that led from a start state to the current one, the
newest event first.  Safety of a system is then a statement about all runs, and
every invariant is proved by the two rules of this module: one for predicates
of the state, one for predicates of the history together with the state.
-/

namespace Transition

variable {σ τ ε : Type*}

/-- `Run step s₀ history s` holds when the events of `history`, read from the
last entry to the first, lead from `s₀` to `s`. -/
inductive Run (step : σ → ε → σ → Prop) (s₀ : σ) : List ε → σ → Prop
  | start : Run step s₀ [] s₀
  | next {history : List ε} {s s' : σ} {e : ε} :
      Run step s₀ history s → step s e s' → Run step s₀ (e :: history) s'

namespace Run

variable {step : σ → ε → σ → Prop} {s₀ s : σ} {history : List ε}

/-- A predicate of the state that holds at the start and is kept by every step
holds at the end of every run. -/
theorem invariant {I : σ → Prop} (hrun : Run step s₀ history s)
    (hstart : I s₀)
    (hstep : ∀ s e s', I s → step s e s' → I s') : I s := by
  induction hrun with
  | start => exact hstart
  | next _ hlast ih => exact hstep _ _ _ ih hlast

/-- The same rule for a predicate that also reads the history.  The step case
may use the run up to the step. -/
theorem history_invariant {I : List ε → σ → Prop}
    (hrun : Run step s₀ history s) (hstart : I [] s₀)
    (hstep : ∀ history s e s', Run step s₀ history s → I history s →
      step s e s' → I (e :: history) s') : I history s := by
  induction hrun with
  | start => exact hstart
  | next hprev hlast ih => exact hstep _ _ _ _ hprev ih hlast

/-- What every event outside `Q` keeps lasts to the end of the run, unless an event
of `Q` occurred. -/
theorem kept_or_mem {P : σ → Prop} {Q : ε → Prop} (hrun : Run step s₀ history s)
    (hstart : P s₀) (hstep : ∀ s e s', P s → step s e s' → Q e ∨ P s') :
    (∃ e ∈ history, Q e) ∨ P s := by
  induction hrun with
  | start => exact Or.inr hstart
  | next _ hlast ih =>
      rcases ih with ⟨e, he, hQ⟩ | hP
      · exact Or.inl ⟨e, List.mem_cons_of_mem _ he, hQ⟩
      · rcases hstep _ _ _ hP hlast with hQ | hP'
        · exact Or.inl ⟨_, List.mem_cons_self, hQ⟩
        · exact Or.inr hP'

theorem of_cons {e : ε} (hrun : Run step s₀ (e :: history) s) :
    ∃ mid, Run step s₀ history mid ∧ step mid e s := by
  cases hrun with
  | next hprev hlast => exact ⟨_, hprev, hlast⟩

/-- A run can be cut at any point of its history. -/
theorem split {older : List ε} :
    ∀ {newer : List ε} {s : σ}, Run step s₀ (newer ++ older) s →
      ∃ mid, Run step s₀ older mid ∧ Run step mid newer s := by
  intro newer
  induction newer with
  | nil =>
      intro s hrun
      exact ⟨s, hrun, .start⟩
  | cons e newer ih =>
      intro s hrun
      obtain ⟨before, hprev, hlast⟩ := of_cons hrun
      obtain ⟨mid, hold, hnew⟩ := ih hprev
      exact ⟨mid, hold, hnew.next hlast⟩

theorem append {older : List ε} {mid : σ} (hold : Run step s₀ older mid) :
    ∀ {newer : List ε} {s : σ}, Run step mid newer s →
      Run step s₀ (newer ++ older) s := by
  intro newer s hnew
  induction hnew with
  | start => exact hold
  | next _ hlast ih => exact ih.next hlast

/-- A run of a narrower step relation is a run of a wider one. -/
theorem mono {step' : σ → ε → σ → Prop} (hrun : Run step s₀ history s)
    (hstep : ∀ s e s', step s e s' → step' s e s') : Run step' s₀ history s := by
  induction hrun with
  | start => exact .start
  | next _ hlast ih => exact ih.next (hstep _ _ _ hlast)

/-- Forward simulation: when every step is matched by a step of another system, every
run is matched by a run of it. -/
theorem simulated {σ' ε' : Type*} {step' : σ' → ε' → σ' → Prop} {s₀' : σ'} {f : ε → ε'}
    {R : σ → σ' → Prop} (hrun : Run step s₀ history s) (hstart : R s₀ s₀')
    (hstep : ∀ s e s' t, R s t → step s e s' → ∃ t', step' t (f e) t' ∧ R s' t') :
    ∃ t, R s t ∧ Run step' s₀' (history.map f) t := by
  induction hrun with
  | start => exact ⟨s₀', hstart, .start⟩
  | next _ hlast ih =>
      obtain ⟨t, hrelated, hprev⟩ := ih
      obtain ⟨t', hmatched, hrelated'⟩ := hstep _ _ _ t hrelated hlast
      exact ⟨t', hrelated', hprev.next hmatched⟩

/-- When every step is matched by a run of another system on a part of the state, every run
is matched by the runs of its steps, one after the other. -/
theorem expanded {σ' ε' : Type*} {step' : σ' → ε' → σ' → Prop} {f : σ → σ'}
    {E : ε → List ε' → Prop} (hrun : Run step s₀ history s)
    (hstep : ∀ history s e s', Run step s₀ history s → step s e s' →
      ∃ own, E e own ∧ Run step' (f s) own (f s')) :
    ∃ owns, List.Forall₂ E history owns ∧ Run step' (f s₀) owns.flatten (f s) := by
  induction hrun with
  | start => exact ⟨[], .nil, .start⟩
  | next hprev hlast ih =>
      obtain ⟨owns, hsame, hold⟩ := ih
      obtain ⟨own, hown, hnew⟩ := hstep _ _ _ _ hprev hlast
      exact ⟨own :: owns, .cons hown hsame, hold.append hnew⟩

/-- Two step relations that agree wherever an invariant holds have the same runs. -/
theorem congr_of_invariant {I : σ → Prop} {step' : σ → ε → σ → Prop} (hstart : I s₀)
    (hiff : ∀ s e s', I s → (step s e s' ↔ step' s e s'))
    (hkeep : ∀ s e s', I s → step s e s' → I s') :
    Run step s₀ history s ↔ Run step' s₀ history s := by
  constructor
  · intro hrun
    have hboth : Run step' s₀ history s ∧ I s := by
      induction hrun with
      | start => exact ⟨.start, hstart⟩
      | next _ hlast ih =>
          exact ⟨ih.1.next ((hiff _ _ _ ih.2).mp hlast), hkeep _ _ _ ih.2 hlast⟩
    exact hboth.1
  · intro hrun
    have hboth : Run step s₀ history s ∧ I s := by
      induction hrun with
      | start => exact ⟨.start, hstart⟩
      | next _ hlast ih =>
          have hlast' := (hiff _ _ _ ih.2).mpr hlast
          exact ⟨ih.1.next hlast', hkeep _ _ _ ih.2 hlast'⟩
    exact hboth.1

theorem exists_step {e : ε} (hrun : Run step s₀ history s) (he : e ∈ history) :
    ∃ newer older before after, history = newer ++ e :: older ∧
      Run step s₀ older before ∧ step before e after ∧ Run step after newer s := by
  obtain ⟨newer, older, rfl⟩ := List.append_of_mem he
  obtain ⟨after, hold, hnew⟩ := split hrun
  obtain ⟨before, hprev, hstep⟩ := of_cons hold
  exact ⟨newer, older, before, after, rfl, hprev, hstep, hnew⟩

end Run

/-! ## Conditions on every step -/

/-- Every step of the run meets a condition on the state before it and the event. -/
def Along (step : σ → ε → σ → Prop) (P : σ → ε → Prop) (s₀ : σ) (history : List ε)
    (s : σ) : Prop :=
  ∀ newer e older before after, history = newer ++ e :: older →
    Run step s₀ older before → step before e after → Run step after newer s → P before e

theorem Along.of_cons {step : σ → ε → σ → Prop} {P : σ → ε → Prop} {s₀ s s' : σ}
    {history : List ε} {e : ε} (h : Along step P s₀ (e :: history) s')
    (hrun : Run step s₀ history s) (hlast : step s e s') :
    Along step P s₀ history s ∧ P s e := by
  refine ⟨?_, h [] e history s s' rfl hrun hlast .start⟩
  intro newer e' older before after hhistory hold hstep hnew
  exact h (e :: newer) e' older before after (congrArg (e :: ·) hhistory) hold hstep
    (hnew.next hlast)

/-- Two conditions that agree wherever an invariant holds are met by the same runs. -/
theorem along_congr {step : σ → ε → σ → Prop} {s₀ s : σ} {history : List ε} {I : σ → Prop}
    {P Q : σ → ε → Prop} (hstart : I s₀) (hkeep : ∀ s e s', I s → step s e s' → I s')
    (hiff : ∀ s e s', I s → step s e s' → (P s e ↔ Q s e)) :
    Along step P s₀ history s ↔ Along step Q s₀ history s := by
  constructor
  · intro h newer e older before after hhistory hold hstep hnew
    exact (hiff before e after (hold.invariant hstart hkeep) hstep).mp
      (h newer e older before after hhistory hold hstep hnew)
  · intro h newer e older before after hhistory hold hstep hnew
    exact (hiff before e after (hold.invariant hstart hkeep) hstep).mpr
      (h newer e older before after hhistory hold hstep hnew)

/-! ## What an observer sees -/

/-- The events that an observer sees.  Whether it sees one may depend on the events
before. -/
def seen (sees : List ε → ε → Bool) : List ε → List ε
  | [] => []
  | e :: older => if sees older e then e :: seen sees older else seen sees older

/-- If the observer's part of the state makes a step of another system with every event
that it sees and does not move with the others, then what it sees is a run of the other
system. -/
theorem Run.projected {σ' ε' : Type*} {step : σ → ε → σ → Prop} {step' : σ' → ε' → σ' → Prop}
    {s₀ s : σ} {history : List ε} {part : σ → σ'} {sees : List ε → ε → Bool}
    {E : ε → ε' → Prop} (hrun : Run step s₀ history s)
    (hstep : ∀ older e s s', e :: older <:+ history → Run step s₀ older s → step s e s' →
      (sees older e = false ∧ part s' = part s) ∨
        (sees older e = true ∧ ∃ e', E e e' ∧ step' (part s) e' (part s'))) :
    ∃ own, List.Forall₂ E (seen sees history) own ∧
      Run step' (part s₀) own (part s) := by
  induction hrun with
  | start => exact ⟨[], .nil, .start⟩
  | @next older s s' e hprev hlast ih =>
      obtain ⟨own, hsame, hown⟩ := ih fun older' e' s s' hsuffix =>
        hstep older' e' s s' (hsuffix.trans (List.suffix_cons e older))
      rcases hstep older e s s' List.suffix_rfl hprev hlast with
        ⟨hhidden, hpart⟩ | ⟨hseen, e', he', hstep'⟩
      · refine ⟨own, ?_, ?_⟩
        · rwa [seen, if_neg (Bool.eq_false_iff.mp hhidden)]
        · rwa [hpart]
      · refine ⟨e' :: own, ?_, hown.next hstep'⟩
        rw [seen, if_pos hseen]
        exact .cons he' hsame

/-! ## Executable steps -/

/-- Run inputs in order through a total step function; the history comes out newest
first. -/
def performAll {ι : Type*} (perform : σ → ι → ε × σ) (s : σ) (inputs : List ι) :
    List ε × σ :=
  inputs.foldl (fun run i => ((perform run.2 i).1 :: run.1, (perform run.2 i).2)) ([], s)

theorem run_performAll {ι : Type*} {step : σ → ε → σ → Prop} {perform : σ → ι → ε × σ}
    (hstep : ∀ s i, step s (perform s i).1 (perform s i).2) (s : σ) (inputs : List ι) :
    Run step s (performAll perform s inputs).1 (performAll perform s inputs).2 := by
  have hfold : ∀ (inputs : List ι) (run : List ε × σ), Run step s run.1 run.2 →
      Run step s (inputs.foldl (fun run i =>
        ((perform run.2 i).1 :: run.1, (perform run.2 i).2)) run).1
        (inputs.foldl (fun run i =>
          ((perform run.2 i).1 :: run.1, (perform run.2 i).2)) run).2 := by
    intro inputs
    induction inputs with
    | nil =>
        intro run hrun
        exact hrun
    | cons i inputs ih =>
        intro run hrun
        exact ih _ (hrun.next (hstep run.2 i))
  exact hfold inputs ([], s) .start

/-- The step relation of a partial step function. -/
def Follows (step : σ → ε → Option σ) (s : σ) (e : ε) (s' : σ) : Prop :=
  step s e = some s'

/-- Run a history, newest event first, through a partial step function. -/
def replay (step : σ → ε → Option σ) (s₀ : σ) : List ε → Option σ
  | [] => some s₀
  | e :: history => (replay step s₀ history).bind fun s => step s e

/-- What can be replayed is a run. -/
theorem run_of_replay {step : σ → ε → Option σ} {s₀ : σ} :
    ∀ {history : List ε} {s : σ}, replay step s₀ history = some s →
      Run (Follows step) s₀ history s := by
  intro history
  induction history with
  | nil =>
      intro s h
      cases h
      exact .start
  | cons e history ih =>
      intro s h
      obtain ⟨before, hbefore, hstep⟩ := Option.bind_eq_some_iff.mp h
      exact (ih hbefore).next hstep

end Transition
