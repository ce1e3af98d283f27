import Mathlib.Data.List.Nodup
import Mathlib.Data.List.Perm.Basic
import Mathlib.Logic.Function.Basic
import OrbiGateway.Library.Runs

/-!
# Linearization

Calls on a shared object overlap; a sequential object allows them one at a time.  A
log of calls explains a history when the sequential object allows it, when it gives
every call that has returned its answer, and when it keeps a call behind all those that
had returned before it was invoked.  A system that takes the effect of each of its calls
at one instant between the invocation and the answer has only histories with such a log.
-/

namespace Linearization

open Transition

/-! ## Histories and logs -/

/-- What a step of a concurrent object shows to its callers. -/
inductive Action (τ ω α : Type*)
  | invoked (t : τ) (call : ω)
  | returned (t : τ) (answer : α)
  | internal

/-- A call of a sequential run with its answer. -/
structure Entry (τ ω α : Type*) where
  caller : τ
  call : ω
  answer : α

section Histories

variable {τ ω α ν : Type*}

/-- The caller and the call of an invocation. -/
def Action.invocation : Action τ ω α → Option (τ × ω)
  | .invoked t call => some (t, call)
  | _ => none

/-- The invocations of a history, last first. -/
def invocations (history : List (Action τ ω α)) : List (τ × ω) :=
  history.filterMap Action.invocation

theorem mem_invocations_iff {history : List (Action τ ω α)} {t : τ} {call : ω} :
    (t, call) ∈ invocations history ↔ Action.invoked t call ∈ history := by
  unfold invocations
  rw [List.mem_filterMap]
  constructor
  · rintro ⟨action, hmem, hinvocation⟩
    cases action with
    | invoked t' call' =>
        cases hinvocation
        exact hmem
    | _ => cases hinvocation
  · intro hmem
    exact ⟨_, hmem, rfl⟩

/-- In the history, last action first, `t` had returned when `u` was invoked. -/
def Precedes (history : List (Action τ ω α)) (t u : τ) : Prop :=
  ∃ call answer, [Action.invoked u call, .returned t answer].Sublist history

theorem precedes_of_cons {history : List (Action τ ω α)} {action : Action τ ω α} {t u : τ}
    (h : Precedes (action :: history) t u)
    (hother : ∀ call, action ≠ .invoked u call) : Precedes history t u := by
  obtain ⟨call, answer, hsub⟩ := h
  cases hsub with
  | cons _ hold => exact ⟨call, answer, hold⟩
  | cons_cons _ hold => exact absurd rfl (hother call)

theorem returned_of_precedes {history : List (Action τ ω α)} {t u : τ}
    (h : Precedes history t u) : ∃ answer, Action.returned t answer ∈ history := by
  obtain ⟨call, answer, hsub⟩ := h
  exact ⟨answer, hsub.subset (by simp)⟩

/-- The log, last call first, explains the history and the final value of the object:
`allows` lists the calls, answers and effects of the sequential object. -/
structure Explains (allows : ν → ω → α → ν → Prop) (start : ν)
    (log : List (Entry τ ω α)) (history : List (Action τ ω α)) (value : ν) : Prop where
  sequential : Run (fun value (entry : Entry τ ω α) value' =>
    allows value entry.call entry.answer value') start log value
  callers_nodup : (log.map (·.caller)).Nodup
  invoked : ∀ entry ∈ log, Action.invoked entry.caller entry.call ∈ history
  returned : ∀ t answer, Action.returned t answer ∈ history →
    ∃ entry ∈ log, entry.caller = t ∧ entry.answer = answer
  ordered : ∀ t, ∀ entry ∈ log, Precedes history t entry.caller →
    [entry.caller, t].Sublist (log.map (·.caller))

/-- Some sequential run explains the history and the value. -/
def Linearizable (allows : ν → ω → α → ν → Prop) (start : ν)
    (history : List (Action τ ω α)) (value : ν) : Prop :=
  ∃ log, Explains allows start log history value

end Histories

/-! ## Taking effect at an instant -/

/-- How far a call has come: `answered` once it has taken effect. -/
inductive Status (ω α : Type*)
  | idle
  | pending (call : ω)
  | answered (call : ω) (answer : α)
  | returned (call : ω) (answer : α)

namespace Status

variable {ω α : Type*}

/-- The call that has been invoked. -/
def call : Status ω α → Option ω
  | .idle => none
  | .pending call => some call
  | .answered call _ => some call
  | .returned call _ => some call

/-- The call that has taken effect, with its answer. -/
def outcome : Status ω α → Option (ω × α)
  | .answered call answer => some (call, answer)
  | .returned call answer => some (call, answer)
  | _ => none

theorem call_of_outcome {status : Status ω α} {call : ω} {answer : α}
    (h : status.outcome = some (call, answer)) : status.call = some call := by
  cases status with
  | answered call' answer' => cases h; rfl
  | returned call' answer' => cases h; rfl
  | _ => cases h

end Status

structure State (τ ω α ν : Type*) where
  value : ν
  status : τ → Status ω α

section Steps

variable {τ ω α ν : Type*}

def State.start (value : ν) : State τ ω α ν where
  value := value
  status _ := .idle

/-! ## The log of a run -/

/-- The log holds the calls that have taken effect, in the order in which they did. -/
structure Consistent (allows : ν → ω → α → ν → Prop) (start : ν)
    (log : List (Entry τ ω α)) (history : List (Action τ ω α)) (s : State τ ω α ν) :
    Prop where
  sequential : Run (fun value (entry : Entry τ ω α) value' =>
    allows value entry.call entry.answer value') start log s.value
  callers_nodup : (log.map (·.caller)).Nodup
  invocations_nodup : ((invocations history).map Prod.fst).Nodup
  mem_log : ∀ t call answer,
    ⟨t, call, answer⟩ ∈ log ↔ (s.status t).outcome = some (call, answer)
  invoked : ∀ t call, Action.invoked t call ∈ history ↔ (s.status t).call = some call
  returned : ∀ t answer, Action.returned t answer ∈ history →
    ∃ call, s.status t = .returned call answer
  ordered : ∀ t, ∀ entry ∈ log, Precedes history t entry.caller →
    [entry.caller, t].Sublist (log.map (·.caller))

section Consistency

variable {allows : ν → ω → α → ν → Prop} {start : ν} {log : List (Entry τ ω α)}
  {history : List (Action τ ω α)} {s s' : State τ ω α ν} {action : Action τ ω α}

theorem Consistent.mem_callers (h : Consistent allows start log history s) {t : τ}
    {call : ω} {answer : α} (houtcome : (s.status t).outcome = some (call, answer)) :
    t ∈ log.map (·.caller) :=
  List.mem_map.mpr ⟨_, (h.mem_log t call answer).mpr houtcome, rfl⟩

theorem Consistent.not_mem_callers (h : Consistent allows start log history s) {t : τ}
    (hnone : (s.status t).outcome = none) : t ∉ log.map (·.caller) := by
  intro hmem
  obtain ⟨⟨t', call, answer⟩, hentry, rfl⟩ := List.mem_map.mp hmem
  rw [h.mem_log, hnone] at hentry
  cases hentry

theorem Consistent.explains (h : Consistent allows start log history s) :
    Explains allows start log history s.value := by
  refine ⟨h.sequential, h.callers_nodup, ?_, ?_, h.ordered⟩
  · rintro ⟨t, call, answer⟩ hmem
    exact (h.invoked t call).mpr (Status.call_of_outcome ((h.mem_log t call answer).mp hmem))
  · intro t answer hreturned
    obtain ⟨call, hstatus⟩ := h.returned t answer hreturned
    exact ⟨⟨t, call, answer⟩, (h.mem_log t call answer).mpr (by rw [hstatus]; rfl), rfl, rfl⟩

/-- Once no call is pending the log holds the invocations of the history. -/
theorem Consistent.perm_invocations (h : Consistent allows start log history s)
    (hnone : ∀ t call, s.status t ≠ .pending call) :
    (log.map fun entry => (entry.caller, entry.call)).Perm (invocations history) := by
  have hnodup : (log.map fun entry => (entry.caller, entry.call)).Nodup := by
    have hcallers := h.callers_nodup
    have hfst : log.map (·.caller) =
        (log.map fun entry => (entry.caller, entry.call)).map Prod.fst := by
      simp [List.map_map, Function.comp_def]
    rw [hfst] at hcallers
    exact hcallers.of_map
  rw [List.perm_ext_iff_of_nodup hnodup h.invocations_nodup.of_map]
  rintro ⟨t, call⟩
  rw [mem_invocations_iff, h.invoked, List.mem_map]
  constructor
  · rintro ⟨⟨t', call', answer⟩, hmem, heq⟩
    cases heq
    exact Status.call_of_outcome ((h.mem_log _ _ answer).mp hmem)
  · intro hcall
    have houtcome : ∃ answer, (s.status t).outcome = some (call, answer) := by
      cases hstatus : s.status t with
      | idle => rw [hstatus] at hcall; cases hcall
      | pending call' => exact absurd hstatus (hnone t call')
      | answered call' answer => rw [hstatus] at hcall; cases hcall; exact ⟨answer, rfl⟩
      | returned call' answer => rw [hstatus] at hcall; cases hcall; exact ⟨answer, rfl⟩
    obtain ⟨answer, houtcome⟩ := houtcome
    exact ⟨⟨t, call, answer⟩, (h.mem_log t call answer).mpr houtcome, rfl⟩

theorem Consistent.step_internal (h : Consistent allows start log history s) :
    Consistent allows start log (.internal :: history) s := by
  refine ⟨h.sequential, h.callers_nodup, h.invocations_nodup, h.mem_log, ?_, ?_, ?_⟩
  · intro t call
    rw [← h.invoked t call]
    simp
  · intro t answer hmem
    exact h.returned t answer (by simpa using hmem)
  · intro t entry hmem hprecedes
    exact h.ordered t entry hmem (precedes_of_cons hprecedes (by simp))

end Consistency

variable [DecidableEq τ]

/-! ## Steps -/

/-- One step of the calls: a pending call takes effect at once and out of sight. -/
inductive Step (allows : ν → ω → α → ν → Prop) :
    State τ ω α ν → Action τ ω α → State τ ω α ν → Prop
  | invoked {s : State τ ω α ν} {t : τ} {call : ω} (hidle : s.status t = .idle) :
      Step allows s (.invoked t call)
        { s with status := Function.update s.status t (.pending call) }
  | linearized {s : State τ ω α ν} {t : τ} {call : ω} {answer : α} {value : ν}
      (hpending : s.status t = .pending call)
      (hallows : allows s.value call answer value) :
      Step allows s .internal
        { value := value, status := Function.update s.status t (.answered call answer) }
  | returned {s : State τ ω α ν} {t : τ} {call : ω} {answer : α}
      (hanswered : s.status t = .answered call answer) :
      Step allows s (.returned t answer)
        { s with status := Function.update s.status t (.returned call answer) }
  | internal {s : State τ ω α ν} : Step allows s .internal s

section Runs

variable {allows : ν → ω → α → ν → Prop} {start : ν} {log : List (Entry τ ω α)}
  {history : List (Action τ ω α)} {s s' : State τ ω α ν} {action : Action τ ω α}

/-- The answers of a history are those of other calls than one that has not returned. -/
theorem Consistent.returned_update (h : Consistent allows start log history s) {t u : τ}
    {status : Status ω α} {answer : α}
    (hnot : ∀ call answer, s.status t ≠ .returned call answer)
    (hmem : Action.returned u answer ∈ history) :
    ∃ call, Function.update s.status t status u = .returned call answer := by
  obtain ⟨call, hstatus⟩ := h.returned u answer hmem
  have hut : u ≠ t := by
    rintro rfl
    exact hnot call answer hstatus
  exact ⟨call, (Function.update_of_ne hut _ _).trans hstatus⟩

theorem Consistent.step_invoked (h : Consistent allows start log history s) {t : τ}
    {call : ω} (hidle : s.status t = .idle) :
    Consistent allows start log (.invoked t call :: history)
      { s with status := Function.update s.status t (.pending call) } := by
  have houtcome : (s.status t).outcome = none := by rw [hidle]; rfl
  have hfresh : ∀ call', Action.invoked t call' ∉ history := by
    intro call' hmem
    rw [h.invoked, hidle] at hmem
    cases hmem
  refine ⟨h.sequential, h.callers_nodup, ?_, ?_, ?_, ?_, ?_⟩
  · refine List.nodup_cons.mpr ⟨?_, h.invocations_nodup⟩
    intro hmem
    obtain ⟨⟨t', call'⟩, hmem', rfl⟩ := List.mem_map.mp hmem
    exact hfresh call' (mem_invocations_iff.mp hmem')
  · refine (Function.forall_update_iff s.status fun u status => ∀ call' answer,
      ⟨u, call', answer⟩ ∈ log ↔ status.outcome = some (call', answer)).mpr ⟨?_, ?_⟩
    · intro call' answer
      rw [h.mem_log, houtcome]
      rfl
    · intro u _
      exact h.mem_log u
  · refine (Function.forall_update_iff s.status fun u status => ∀ call',
      Action.invoked u call' ∈ Action.invoked t call :: history ↔
        status.call = some call').mpr ⟨?_, ?_⟩
    · intro call'
      simp [hfresh call', Status.call, eq_comm]
    · intro u hut call'
      rw [← h.invoked u call']
      simp [hut]
  · intro u answer hmem
    have hold : Action.returned u answer ∈ history := by simpa using hmem
    exact h.returned_update (by simp [hidle]) hold
  · intro u entry hmem hprecedes
    apply h.ordered u entry hmem
    apply precedes_of_cons hprecedes
    rintro call' heq
    have ht : t = entry.caller := by
      cases heq
      rfl
    apply h.not_mem_callers houtcome
    rw [ht]
    exact List.mem_map_of_mem hmem

/-- A call that takes effect is put at the head of the log. -/
theorem Consistent.linearized (h : Consistent allows start log history s) {t : τ}
    {call : ω} {answer : α} {value : ν} (hpending : s.status t = .pending call)
    (hallows : allows s.value call answer value) :
    Consistent allows start (⟨t, call, answer⟩ :: log) history
      { value := value, status := Function.update s.status t (.answered call answer) } := by
  have hnone : (s.status t).outcome = none := by rw [hpending]; rfl
  have hnew := h.not_mem_callers hnone
  refine ⟨h.sequential.next hallows, List.nodup_cons.mpr ⟨hnew, h.callers_nodup⟩,
    h.invocations_nodup, ?_, ?_, ?_, ?_⟩
  · refine (Function.forall_update_iff s.status fun u status => ∀ call' answer',
      ⟨u, call', answer'⟩ ∈ ⟨t, call, answer⟩ :: log ↔
        status.outcome = some (call', answer')).mpr ⟨?_, ?_⟩
    · intro call' answer'
      have hold : ⟨t, call', answer'⟩ ∉ log := by
        rw [h.mem_log, hnone]
        simp
      simp [hold, Status.outcome, eq_comm]
    · intro u hut call' answer'
      rw [← h.mem_log u call' answer']
      simp [hut]
  · refine (Function.forall_update_iff s.status fun u status => ∀ call',
      Action.invoked u call' ∈ history ↔ status.call = some call').mpr ⟨?_, ?_⟩
    · intro call'
      rw [h.invoked, hpending]
      rfl
    · intro u _
      exact h.invoked u
  · intro u answer' hmem
    exact h.returned_update (by simp [hpending]) hmem
  · intro u entry hmem hprecedes
    rcases List.mem_cons.mp hmem with rfl | hold
    · obtain ⟨answer', hreturned⟩ := returned_of_precedes hprecedes
      obtain ⟨call', hstatus⟩ := h.returned u answer' hreturned
      have hin : u ∈ log.map (·.caller) := by
        have houtcome : (s.status u).outcome = some (call', answer') := by
          rw [hstatus]
          rfl
        exact h.mem_callers houtcome
      exact List.Sublist.cons_cons t (List.singleton_sublist.mpr hin)
    · exact (h.ordered u entry hold hprecedes).cons t

theorem Consistent.step_returned (h : Consistent allows start log history s) {t : τ}
    {call : ω} {answer : α} (hanswered : s.status t = .answered call answer) :
    Consistent allows start log (.returned t answer :: history)
      { s with status := Function.update s.status t (.returned call answer) } := by
  refine ⟨h.sequential, h.callers_nodup, h.invocations_nodup, ?_, ?_, ?_, ?_⟩
  · refine (Function.forall_update_iff s.status fun u status => ∀ call' answer',
      ⟨u, call', answer'⟩ ∈ log ↔ status.outcome = some (call', answer')).mpr ⟨?_, ?_⟩
    · intro call' answer'
      rw [h.mem_log, hanswered]
      rfl
    · intro u _
      exact h.mem_log u
  · refine (Function.forall_update_iff s.status fun u status => ∀ call',
      Action.invoked u call' ∈ Action.returned t answer :: history ↔
        status.call = some call').mpr ⟨?_, ?_⟩
    · intro call'
      have hcall := h.invoked t call'
      rw [hanswered] at hcall
      simpa [Status.call] using hcall
    · intro u _ call'
      rw [← h.invoked u call']
      simp
  · intro u answer' hmem
    rcases List.mem_cons.mp hmem with heq | hold
    · cases heq
      exact ⟨call, Function.update_self _ _ _⟩
    · exact h.returned_update (by simp [hanswered]) hold
  · intro u entry hmem hprecedes
    exact h.ordered u entry hmem (precedes_of_cons hprecedes (by simp))

/-- The log of a run grows at its head. -/
theorem Consistent.step (h : Consistent allows start log history s)
    (hstep : Step allows s action s') :
    ∃ log', Consistent allows start log' (action :: history) s' := by
  cases hstep with
  | invoked hidle => exact ⟨log, h.step_invoked hidle⟩
  | linearized hpending hallows =>
      exact ⟨_, (h.linearized hpending hallows).step_internal⟩
  | returned hanswered => exact ⟨log, h.step_returned hanswered⟩
  | internal => exact ⟨log, h.step_internal⟩

theorem exists_log (hrun : Run (Step allows) (.start start) history s) :
    ∃ log, Consistent allows start log history s := by
  apply Run.history_invariant (I := fun history (s : State τ ω α ν) =>
    ∃ log, Consistent allows start log history s) hrun
  · refine ⟨[], .start, List.nodup_nil, List.nodup_nil, ?_, ?_, ?_, ?_⟩
    · intro t call answer
      simp [State.start, Status.outcome]
    · intro t call
      simp [State.start, Status.call]
    · intro t answer hmem
      cases hmem
    · intro t entry hmem
      cases hmem
  · rintro history s e s' - ⟨log, h⟩ hstep
    exact h.step hstep

end Runs

end Steps

end Linearization
