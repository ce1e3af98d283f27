import Mathlib.Data.List.Nodup
import Mathlib.Data.List.Perm.Subperm
import Mathlib.Tactic.Linarith
import OrbiGateway.Library.Runs
import OrbiGateway.Services.RateLimit

/-!
# Concurrent calls of the rate limiter

`allow_minute` cut at its Redis commands.  The call that creates a counter gives it an
expiry with a second command, which may come late, and a call may stop for good before
any of its commands.  Redis removes a counter some time after its expiry has come.
-/

namespace OrbiGateway

open Transition RateLimitService

/-! ## Calls -/

/-- How far a call has come. -/
inductive LimiterPhase
  | idle
  | invoked (keyId : String) (m : ClockMinute)
  | created (keyId : String) (m : ClockMinute)
  | counted (keyId : String) (m : ClockMinute) (count : ℕ)
  | returned (keyId : String) (m : ClockMinute) (allowed : Bool)
  | stopped (keyId : String) (m : ClockMinute) (owesExpire : Bool)
  deriving DecidableEq

namespace LimiterPhase

/-- The counter of the call. -/
def counter : LimiterPhase → Option (String × ClockMinute)
  | .idle => none
  | .invoked keyId m => some (keyId, m)
  | .created keyId m => some (keyId, m)
  | .counted keyId m _ => some (keyId, m)
  | .returned keyId m _ => some (keyId, m)
  | .stopped keyId m _ => some (keyId, m)

/-- A call in progress after it has stopped. -/
def halt : LimiterPhase → Option LimiterPhase
  | .invoked keyId m => some (.stopped keyId m false)
  | .created keyId m => some (.stopped keyId m true)
  | .counted keyId m _ => some (.stopped keyId m false)
  | _ => none

/-- After its `INCR`, which has given this count. -/
def afterIncr (keyId : String) (m : ClockMinute) (count : ℕ) : LimiterPhase :=
  if count = 1 then .created keyId m else .counted keyId m count

@[simp] theorem counter_afterIncr {keyId : String} {m : ClockMinute} {count : ℕ} :
    (afterIncr keyId m count).counter = some (keyId, m) := by
  unfold afterIncr
  split
  · rfl
  · rfl

theorem counter_of_halt {phase phase' : LimiterPhase} (h : phase.halt = some phase') :
    phase'.counter = phase.counter := by
  cases phase with
  | idle => cases h
  | returned => cases h
  | stopped => cases h
  | invoked => cases h; rfl
  | created => cases h; rfl
  | counted => cases h; rfl

end LimiterPhase

/-! ## States and steps -/

/-- The time of Redis, its counters and the calls. -/
@[ext] structure LimiterSystem (τ : Type*) where
  clock : ℚ
  counters : Counters
  calls : τ → LimiterPhase

inductive LimiterEvent (τ : Type*)
  | ticked (now : ℚ)
  | invoked (t : τ) (keyId : String) (m : ClockMinute)
  | incremented (t : τ) (keyId : String) (m : ClockMinute) (count : ℕ)
  | expired (t : τ)
  | returned (t : τ) (keyId : String) (m : ClockMinute) (allowed : Bool)
  | stopped (t : τ)
  | lapsed (key : String)

section Steps

variable {τ : Type*}

def LimiterSystem.start (now : ℚ) : LimiterSystem τ where
  clock := now
  counters := Expiring.Store.empty
  calls _ := .idle

/-- No call is in progress. -/
def LimiterSystem.Quiescent (s : LimiterSystem τ) : Prop :=
  ∀ t, (s.calls t).halt = none

variable [DecidableEq τ]

/-- Call `t` moves on and leaves the counters alone. -/
def LimiterSystem.move (s : LimiterSystem τ) (t : τ) (phase : LimiterPhase) :
    LimiterSystem τ :=
  { s with calls := Function.update s.calls t phase }

/-- One command, invocation, answer or stop of a call, the removal of a counter, or the
passing of time. -/
inductive LimiterStep (limits : String → ℤ) :
    LimiterSystem τ → LimiterEvent τ → LimiterSystem τ → Prop
  | ticked {s : LimiterSystem τ} {now : ℚ} (hle : s.clock ≤ now) :
      LimiterStep limits s (.ticked now) { s with clock := now }
  | invoked {s : LimiterSystem τ} {t : τ} {keyId : String} {m : ClockMinute}
      (hidle : s.calls t = .idle) :
      LimiterStep limits s (.invoked t keyId m) (s.move t (.invoked keyId m))
  | incremented {s : LimiterSystem τ} {t : τ} {keyId : String} {m : ClockMinute}
      {count : ℕ} {counters : Counters} (hphase : s.calls t = .invoked keyId m)
      (hincr : incr s.counters (counterKey keyId m) = (count, counters)) :
      LimiterStep limits s (.incremented t keyId m count)
        { s with
          counters := counters
          calls := Function.update s.calls t (.afterIncr keyId m count) }
  | expired {s : LimiterSystem τ} {t : τ} {keyId : String} {m : ClockMinute}
      (hphase : s.calls t = .created keyId m) :
      LimiterStep limits s (.expired t)
        { s with
          counters := s.counters.expire (counterKey keyId m) (s.clock + 120)
          calls := Function.update s.calls t (.counted keyId m 1) }
  | returned {s : LimiterSystem τ} {t : τ} {keyId : String} {m : ClockMinute} {count : ℕ}
      {allowed : Bool} (hphase : s.calls t = .counted keyId m count)
      (hallowed : allowed = decide ((count : ℤ) ≤ limits keyId)) :
      LimiterStep limits s (.returned t keyId m allowed)
        (s.move t (.returned keyId m allowed))
  | stopped {s : LimiterSystem τ} {t : τ} {phase : LimiterPhase}
      (hhalt : (s.calls t).halt = some phase) :
      LimiterStep limits s (.stopped t) (s.move t phase)
  | lapsed {s : LimiterSystem τ} {key : String} (hdue : s.counters.IsDue key s.clock) :
      LimiterStep limits s (.lapsed key) { s with counters := s.counters.remove key }

/-- A call that nothing interrupts does what `allow_minute` does. -/
theorem run_allowMinute {limits : String → ℤ} {s : LimiterSystem τ} {t : τ}
    (keyId : String) (m : ClockMinute) (hidle : s.calls t = .idle) :
    ∃ history, Run (LimiterStep limits) s history
      { s with
        counters := (allowMinute s.counters keyId (limits keyId) m s.clock).2
        calls := Function.update s.calls t
          (.returned keyId m
            (allowMinute s.counters keyId (limits keyId) m s.clock).1) } := by
  set count := stored s.counters (counterKey keyId m) + 1 with hcount
  obtain ⟨history, hincr⟩ : ∃ history, Run (LimiterStep limits) s history
      { s with
        counters := s.counters.write (counterKey keyId m) count
        calls := Function.update s.calls t (.afterIncr keyId m count) } := by
    have hinvoked : Run (LimiterStep limits) s [.invoked t keyId m]
        (s.move t (.invoked keyId m)) := Run.start.next (.invoked hidle)
    have hincr := hinvoked.next (.incremented (Function.update_self ..) rfl)
    exact ⟨_, by simpa [LimiterSystem.move] using hincr⟩
  by_cases hfirst : count = 1
  · rw [LimiterPhase.afterIncr, if_pos hfirst] at hincr
    have hreturned := (hincr.next (.expired (Function.update_self ..))).next
      (.returned (Function.update_self ..) rfl)
    exact ⟨_, by
      simpa [LimiterSystem.move, allowMinute, incr, ← hcount, hfirst] using hreturned⟩
  · rw [LimiterPhase.afterIncr, if_neg hfirst] at hincr
    have hreturned := hincr.next (.returned (Function.update_self ..) rfl)
    exact ⟨_, by
      simpa [LimiterSystem.move, allowMinute, incr, ← hcount, hfirst] using hreturned⟩

/-- A step that sends no `INCR` outside the minute its call has read. -/
def TimelyStep (limits : String → ℤ) (s : LimiterSystem τ) (e : LimiterEvent τ)
    (s' : LimiterSystem τ) : Prop :=
  LimiterStep limits s e s' ∧
    ∀ t keyId m count, e = .incremented t keyId m count →
      m.start ≤ s.clock ∧ s.clock < m.stop

end Steps

/-! ## What a history says about a minute -/

namespace LimiterEvent

variable {τ : Type*} (keyId : String) (m : ClockMinute)

/-- The call that the event starts for this counter. -/
def callOf : LimiterEvent τ → Option τ
  | .invoked t keyId' m' => if keyId' = keyId ∧ m' = m then some t else none
  | _ => none

/-- The count that a call gets from this counter. -/
def countOf : LimiterEvent τ → Option (τ × ℕ)
  | .incremented t keyId' m' count =>
      if keyId' = keyId ∧ m' = m then some (t, count) else none
  | _ => none

/-- The answer of a call about this counter. -/
def answerOf : LimiterEvent τ → Option (τ × Bool)
  | .returned t keyId' m' allowed =>
      if keyId' = keyId ∧ m' = m then some (t, allowed) else none
  | _ => none

end LimiterEvent

/-- The calls of an API key in a minute, the newest first. -/
def callsOf {τ : Type*} (keyId : String) (m : ClockMinute)
    (history : List (LimiterEvent τ)) : List τ :=
  history.filterMap (LimiterEvent.callOf keyId m)

def countsOf {τ : Type*} (keyId : String) (m : ClockMinute)
    (history : List (LimiterEvent τ)) : List (τ × ℕ) :=
  history.filterMap (LimiterEvent.countOf keyId m)

def answersOf {τ : Type*} (keyId : String) (m : ClockMinute)
    (history : List (LimiterEvent τ)) : List (τ × Bool) :=
  history.filterMap (LimiterEvent.answerOf keyId m)

/-- The number of calls of a minute that have returned `True`. -/
def allowedOf {τ : Type*} (keyId : String) (m : ClockMinute)
    (history : List (LimiterEvent τ)) : ℕ :=
  (answersOf keyId m history).countP Prod.snd

/-- The answer to a count. -/
def answerTo {τ : Type*} (limit : ℤ) (call : τ × ℕ) : τ × Bool :=
  (call.1, decide ((call.2 : ℤ) ≤ limit))

theorem countP_answerTo {τ : Type*} (limit : ℤ) :
    ∀ {counts : List (τ × ℕ)},
      counts.map Prod.snd = (List.range' 1 counts.length).reverse →
        (counts.map (answerTo limit)).countP Prod.snd = min limit.toNat counts.length := by
  intro counts
  induction counts with
  | nil => simp
  | cons call counts ih =>
      intro h
      rw [List.length_cons, List.range'_1_concat, List.reverse_append, List.map_cons,
        List.reverse_singleton, List.singleton_append, List.cons.injEq] at h
      rw [List.map_cons, List.countP_cons, ih h.2, List.length_cons]
      simp only [answerTo, h.1, decide_eq_true_iff]
      split
      · omega
      · omega

/-! ## The calls of a run -/

/-- What is known of the count of a call from how far it has come. -/
def LimiterPhase.Gave (limit : ℤ) (count : ℕ) : LimiterPhase → Prop
  | .idle => False
  | .invoked _ _ => False
  | .created _ _ => count = 1
  | .counted _ _ count' => count = count'
  | .returned _ _ allowed => allowed = decide ((count : ℤ) ≤ limit)
  | .stopped _ _ _ => True

/-- The call has its count and has not stopped. -/
def LimiterPhase.hasCount : LimiterPhase → Bool
  | .created _ _ => true
  | .counted _ _ _ => true
  | .returned _ _ _ => true
  | _ => false

/-- The events of a minute are those of its calls, once each. -/
structure MinuteRecorded {τ : Type*} (limit : ℤ) (keyId : String) (m : ClockMinute)
    (history : List (LimiterEvent τ)) (s : LimiterSystem τ) : Prop where
  mem_calls : ∀ t, t ∈ callsOf keyId m history ↔ (s.calls t).counter = some (keyId, m)
  nodup_calls : (callsOf keyId m history).Nodup
  gave : ∀ t count, (t, count) ∈ countsOf keyId m history →
    (s.calls t).counter = some (keyId, m) ∧ (s.calls t).Gave limit count
  counted : ∀ t, (s.calls t).counter = some (keyId, m) → (s.calls t).hasCount = true →
    ∃ count, (t, count) ∈ countsOf keyId m history
  nodup_counts : ((countsOf keyId m history).map Prod.fst).Nodup
  mem_answers : ∀ t allowed, (t, allowed) ∈ answersOf keyId m history ↔
    s.calls t = .returned keyId m allowed
  nodup_answers : ((answersOf keyId m history).map Prod.fst).Nodup

section Recorded

variable {τ : Type*} {limit : ℤ} {keyId : String} {m : ClockMinute}
  {history : List (LimiterEvent τ)} {s s' : LimiterSystem τ} {e : LimiterEvent τ}

theorem minuteRecorded_start {now : ℚ} :
    MinuteRecorded limit keyId m ([] : List (LimiterEvent τ)) (.start now) where
  mem_calls t := by simp [callsOf, LimiterSystem.start, LimiterPhase.counter]
  nodup_calls := List.nodup_nil
  gave t count hmem := by cases hmem
  counted t hcounter := by cases hcounter
  nodup_counts := List.nodup_nil
  mem_answers t allowed := by simp [answersOf, LimiterSystem.start]
  nodup_answers := List.nodup_nil

theorem mem_callsOf_cons {u : τ} : u ∈ callsOf keyId m (e :: history) ↔
    e.callOf keyId m = some u ∨ u ∈ callsOf keyId m history := by
  simp [callsOf, List.mem_filterMap]

theorem mem_countsOf_cons {call : τ × ℕ} : call ∈ countsOf keyId m (e :: history) ↔
    e.countOf keyId m = some call ∨ call ∈ countsOf keyId m history := by
  simp [countsOf, List.mem_filterMap]

theorem mem_answersOf_cons {answer : τ × Bool} :
    answer ∈ answersOf keyId m (e :: history) ↔
      e.answerOf keyId m = some answer ∨ answer ∈ answersOf keyId m history := by
  simp [answersOf, List.mem_filterMap]

/-- The part of the record that is about one call. -/
structure CallRecorded (limit : ℤ) (keyId : String) (m : ClockMinute)
    (history : List (LimiterEvent τ)) (t : τ) (phase : LimiterPhase) : Prop where
  mem_calls : t ∈ callsOf keyId m history ↔ phase.counter = some (keyId, m)
  gave : ∀ count, (t, count) ∈ countsOf keyId m history →
    phase.counter = some (keyId, m) ∧ phase.Gave limit count
  counted : phase.counter = some (keyId, m) → phase.hasCount = true →
    ∃ count, (t, count) ∈ countsOf keyId m history
  mem_answers : ∀ allowed, (t, allowed) ∈ answersOf keyId m history ↔
    phase = .returned keyId m allowed

theorem MinuteRecorded.call (h : MinuteRecorded limit keyId m history s) (t : τ) :
    CallRecorded limit keyId m history t (s.calls t) :=
  ⟨h.mem_calls t, h.gave t, h.counted t, h.mem_answers t⟩

theorem CallRecorded.cons {t : τ} {phase : LimiterPhase}
    (h : CallRecorded limit keyId m history t phase) (hcall : e.callOf keyId m ≠ some t)
    (hcount : ∀ count, e.countOf keyId m ≠ some (t, count))
    (hanswer : ∀ allowed, e.answerOf keyId m ≠ some (t, allowed)) :
    CallRecorded limit keyId m (e :: history) t phase where
  mem_calls := by
    rw [mem_callsOf_cons, or_iff_right hcall]
    exact h.mem_calls
  gave := by
    intro count
    rw [mem_countsOf_cons, or_iff_right (hcount count)]
    exact h.gave count
  counted := by
    intro hcounter hhas
    obtain ⟨count, hmem⟩ := h.counted hcounter hhas
    exact ⟨count, mem_countsOf_cons.mpr (.inr hmem)⟩
  mem_answers := by
    intro allowed
    rw [mem_answersOf_cons, or_iff_right (hanswer allowed)]
    exact h.mem_answers allowed

theorem MinuteRecorded.of_calls_eq (h : MinuteRecorded limit keyId m history s)
    (hcalls : s'.calls = s.calls) (hcall : e.callOf keyId m = none)
    (hcount : e.countOf keyId m = none) (hanswer : e.answerOf keyId m = none) :
    MinuteRecorded limit keyId m (e :: history) s' := by
  have hall : ∀ t, CallRecorded limit keyId m (e :: history) t (s'.calls t) := by
    intro t
    rw [hcalls]
    exact (h.call t).cons (by simp [hcall]) (by simp [hcount]) (by simp [hanswer])
  refine ⟨fun t => (hall t).mem_calls, ?_, fun t => (hall t).gave, fun t => (hall t).counted,
    ?_, fun t => (hall t).mem_answers, ?_⟩
  · rw [callsOf, List.filterMap_cons_none hcall]
    exact h.nodup_calls
  · rw [countsOf, List.filterMap_cons_none hcount]
    exact h.nodup_counts
  · rw [answersOf, List.filterMap_cons_none hanswer]
    exact h.nodup_answers

/-- The answers of a minute are those to its counts. -/
theorem MinuteRecorded.answers_subperm
    (h : MinuteRecorded limit keyId m history s) :
    (answersOf keyId m history).Subperm
      ((countsOf keyId m history).map (answerTo limit)) := by
  apply List.subperm_of_subset (List.Nodup.of_map _ h.nodup_answers)
  rintro ⟨t, allowed⟩ hmem
  have hreturned := (h.mem_answers t allowed).mp hmem
  obtain ⟨count, hcount⟩ := h.counted t (by rw [hreturned]; rfl) (by rw [hreturned]; rfl)
  have hgave := (h.gave t count hcount).2
  rw [hreturned] at hgave
  exact List.mem_map.mpr ⟨(t, count), hcount, Prod.ext rfl (Eq.symm hgave)⟩

/-- When every call of the minute has returned, there is one answer to each count, and
one count for each call. -/
theorem MinuteRecorded.answers_perm
    (h : MinuteRecorded limit keyId m history s)
    (hdone : ∀ t ∈ callsOf keyId m history, ∃ allowed,
      s.calls t = .returned keyId m allowed) :
    (answersOf keyId m history).Perm ((countsOf keyId m history).map (answerTo limit)) ∧
      (countsOf keyId m history).length = (callsOf keyId m history).length := by
  constructor
  · apply List.Subperm.antisymm h.answers_subperm
    have hnodup : ((countsOf keyId m history).map (answerTo limit)).Nodup := by
      apply List.Nodup.of_map Prod.fst
      rw [List.map_map]
      exact h.nodup_counts
    apply List.subperm_of_subset hnodup
    intro answer hanswer
    obtain ⟨⟨t, count⟩, hcount, rfl⟩ := List.mem_map.mp hanswer
    obtain ⟨hcounter, hgave⟩ := h.gave t count hcount
    obtain ⟨allowed, hreturned⟩ := hdone t ((h.mem_calls t).mpr hcounter)
    rw [hreturned] at hgave
    rw [answerTo, ← show allowed = decide ((count : ℤ) ≤ limit) from hgave]
    exact (h.mem_answers t allowed).mpr hreturned
  · rw [← List.length_map Prod.fst]
    apply List.Perm.length_eq
    rw [List.perm_ext_iff_of_nodup h.nodup_counts h.nodup_calls]
    intro t
    rw [List.mem_map, h.mem_calls]
    constructor
    · rintro ⟨⟨u, count⟩, hmem, rfl⟩
      exact (h.gave u count hmem).1
    · intro hcounter
      obtain ⟨allowed, hreturned⟩ := hdone t ((h.mem_calls t).mpr hcounter)
      obtain ⟨count, hmem⟩ := h.counted t hcounter (by rw [hreturned]; rfl)
      exact ⟨(t, count), hmem, rfl⟩

variable [DecidableEq τ] {t : τ} {phase : LimiterPhase}

theorem MinuteRecorded.of_update (h : MinuteRecorded limit keyId m history s)
    (hcalls : s'.calls = Function.update s.calls t phase)
    (hcall : ∀ u, e.callOf keyId m = some u → u = t ∧ u ∉ callsOf keyId m history)
    (hcount : ∀ call, e.countOf keyId m = some call →
      call.1 = t ∧ ∀ count, (call.1, count) ∉ countsOf keyId m history)
    (hanswer : ∀ answer, e.answerOf keyId m = some answer →
      answer.1 = t ∧ ∀ allowed, (answer.1, allowed) ∉ answersOf keyId m history)
    (hmoved : CallRecorded limit keyId m (e :: history) t phase) :
    MinuteRecorded limit keyId m (e :: history) s' := by
  have hall : ∀ u, CallRecorded limit keyId m (e :: history) u (s'.calls u) := by
    intro u
    rw [hcalls]
    by_cases hut : u = t
    · subst hut
      rw [Function.update_self]
      exact hmoved
    · rw [Function.update_of_ne hut]
      exact (h.call u).cons (fun hu => hut (hcall u hu).1)
        (fun count hu => hut (hcount (u, count) hu).1)
        (fun allowed hu => hut (hanswer (u, allowed) hu).1)
  refine ⟨fun u => (hall u).mem_calls, ?_, fun u => (hall u).gave, fun u => (hall u).counted,
    ?_, fun u => (hall u).mem_answers, ?_⟩
  · rw [callsOf, List.filterMap_cons]
    cases hnew : e.callOf keyId m with
    | none => exact h.nodup_calls
    | some u => exact List.nodup_cons.mpr ⟨(hcall u hnew).2, h.nodup_calls⟩
  · rw [countsOf, List.filterMap_cons]
    cases hnew : e.countOf keyId m with
    | none => exact h.nodup_counts
    | some call =>
        refine List.nodup_cons.mpr ⟨?_, h.nodup_counts⟩
        intro hmem
        obtain ⟨⟨u, count⟩, hold, hu⟩ := List.mem_map.mp hmem
        exact (hcount call hnew).2 count (hu ▸ hold)
  · rw [answersOf, List.filterMap_cons]
    cases hnew : e.answerOf keyId m with
    | none => exact h.nodup_answers
    | some answer =>
        refine List.nodup_cons.mpr ⟨?_, h.nodup_answers⟩
        intro hmem
        obtain ⟨⟨u, allowed⟩, hold, hu⟩ := List.mem_map.mp hmem
        exact (hanswer answer hnew).2 allowed (hu ▸ hold)

theorem MinuteRecorded.of_move (h : MinuteRecorded limit keyId m history s)
    (hcalls : s'.calls = Function.update s.calls t phase)
    (hcall : e.callOf keyId m = none) (hcount : e.countOf keyId m = none)
    (hanswer : e.answerOf keyId m = none)
    (hcounter : phase.counter = some (keyId, m) ↔ (s.calls t).counter = some (keyId, m))
    (hmove : phase.counter = some (keyId, m) →
      (∀ count, (s.calls t).Gave limit count → phase.Gave limit count) ∧
        (phase.hasCount = true → (s.calls t).hasCount = true) ∧
        ∀ allowed, s.calls t = .returned keyId m allowed ↔
          phase = .returned keyId m allowed) :
    MinuteRecorded limit keyId m (e :: history) s' := by
  have hquiet : CallRecorded limit keyId m (e :: history) t (s.calls t) :=
    (h.call t).cons (by simp [hcall]) (by simp [hcount]) (by simp [hanswer])
  refine h.of_update hcalls (by simp [hcall]) (by simp [hcount]) (by simp [hanswer])
    ⟨hquiet.mem_calls.trans hcounter.symm, ?_, ?_, ?_⟩
  · intro count hmem
    obtain ⟨hold, hgave⟩ := hquiet.gave count hmem
    exact ⟨hcounter.mpr hold, (hmove (hcounter.mpr hold)).1 count hgave⟩
  · intro hnew hhas
    exact hquiet.counted (hcounter.mp hnew) ((hmove hnew).2.1 hhas)
  · intro allowed
    rw [hquiet.mem_answers]
    constructor
    · intro hreturned
      have hold : (s.calls t).counter = some (keyId, m) := by rw [hreturned]; rfl
      exact ((hmove (hcounter.mpr hold)).2.2 allowed).mp hreturned
    · intro hreturned
      have hnew : phase.counter = some (keyId, m) := by rw [hreturned]; rfl
      exact ((hmove hnew).2.2 allowed).mpr hreturned

theorem MinuteRecorded.of_invoked (h : MinuteRecorded limit keyId m history s)
    (hidle : s.calls t = .idle)
    (hcalls : s'.calls = Function.update s.calls t (.invoked keyId m)) :
    MinuteRecorded limit keyId m (.invoked t keyId m :: history) s' := by
  have hold := h.call t
  rw [hidle] at hold
  have hcallOf : (LimiterEvent.invoked t keyId m).callOf keyId m = some t := if_pos ⟨rfl, rfl⟩
  refine h.of_update hcalls ?_ nofun nofun ⟨?_, ?_, nofun, ?_⟩
  · intro u hu
    obtain rfl := Option.some.inj (hcallOf.symm.trans hu)
    exact ⟨rfl, fun hmem => absurd (hold.mem_calls.mp hmem) nofun⟩
  · exact iff_of_true (mem_callsOf_cons.mpr (.inl hcallOf)) rfl
  · intro count hmem
    exact absurd (hold.gave count hmem).1 nofun
  · intro allowed
    exact iff_of_false (fun hmem => absurd ((hold.mem_answers allowed).mp hmem) nofun) nofun

theorem MinuteRecorded.of_incremented (h : MinuteRecorded limit keyId m history s)
    {count : ℕ} (hphase : s.calls t = .invoked keyId m)
    (hcalls : s'.calls = Function.update s.calls t (.afterIncr keyId m count)) :
    MinuteRecorded limit keyId m (.incremented t keyId m count :: history) s' := by
  have hold := h.call t
  rw [hphase] at hold
  have hnone : ∀ count, (t, count) ∉ countsOf keyId m history :=
    fun count hmem => (hold.gave count hmem).2
  have hcountOf : (LimiterEvent.incremented t keyId m count).countOf keyId m =
      some (t, count) := if_pos ⟨rfl, rfl⟩
  have hafter : (LimiterPhase.afterIncr keyId m count).Gave limit count := by
    unfold LimiterPhase.afterIncr
    split
    · assumption
    · rfl
  refine h.of_update hcalls nofun ?_ nofun ⟨?_, ?_, ?_, ?_⟩
  · intro call hnew
    obtain rfl := Option.some.inj (hcountOf.symm.trans hnew)
    exact ⟨rfl, hnone⟩
  · rw [LimiterPhase.counter_afterIncr]
    exact hold.mem_calls
  · intro count' hmem
    rcases mem_countsOf_cons.mp hmem with hnew | hmem
    · obtain rfl := congrArg Prod.snd (Option.some.inj (hcountOf.symm.trans hnew))
      exact ⟨LimiterPhase.counter_afterIncr, hafter⟩
    · exact absurd hmem (hnone count')
  · intro _ _
    exact ⟨count, mem_countsOf_cons.mpr (.inl hcountOf)⟩
  · intro allowed
    refine iff_of_false (fun hmem => absurd ((hold.mem_answers allowed).mp hmem) nofun) ?_
    unfold LimiterPhase.afterIncr
    split
    · exact nofun
    · exact nofun

theorem MinuteRecorded.of_returned (h : MinuteRecorded limit keyId m history s)
    {count : ℕ} {allowed : Bool} (hphase : s.calls t = .counted keyId m count)
    (hallowed : allowed = decide ((count : ℤ) ≤ limit))
    (hcalls : s'.calls = Function.update s.calls t (.returned keyId m allowed)) :
    MinuteRecorded limit keyId m (.returned t keyId m allowed :: history) s' := by
  have hold := h.call t
  rw [hphase] at hold
  have hnone : ∀ allowed, (t, allowed) ∉ answersOf keyId m history :=
    fun allowed hmem => absurd ((hold.mem_answers allowed).mp hmem) nofun
  have hanswerOf : (LimiterEvent.returned t keyId m allowed).answerOf keyId m =
      some (t, allowed) := if_pos ⟨rfl, rfl⟩
  refine h.of_update hcalls nofun nofun ?_ ⟨hold.mem_calls, ?_, ?_, ?_⟩
  · intro answer hnew
    obtain rfl := Option.some.inj (hanswerOf.symm.trans hnew)
    exact ⟨rfl, hnone⟩
  · intro count' hmem
    have hgave : count' = count := (hold.gave count' hmem).2
    exact ⟨rfl, hallowed.trans (by rw [hgave])⟩
  · intro _ _
    exact hold.counted rfl rfl
  · intro allowed'
    rw [mem_answersOf_cons, hanswerOf, or_iff_left (hnone allowed'), Option.some.injEq,
      Prod.mk.injEq, LimiterPhase.returned.injEq]
    simp

/-- Every step keeps the record of every minute. -/
theorem MinuteRecorded.step {limits : String → ℤ}
    (h : MinuteRecorded (limits keyId) keyId m history s)
    (hstep : LimiterStep limits s e s') :
    MinuteRecorded (limits keyId) keyId m (e :: history) s' := by
  cases hstep with
  | ticked _ => exact h.of_calls_eq rfl rfl rfl rfl
  | lapsed _ => exact h.of_calls_eq rfl rfl rfl rfl
  | @invoked t keyId' m' hidle =>
      by_cases hsame : keyId' = keyId ∧ m' = m
      · obtain ⟨rfl, rfl⟩ := hsame
        exact h.of_invoked hidle rfl
      · have hother : (LimiterPhase.invoked keyId' m').counter ≠ some (keyId, m) := by
          simpa [LimiterPhase.counter] using hsame
        refine h.of_move rfl (if_neg hsame) rfl rfl ?_ fun hcounter => absurd hcounter hother
        rw [hidle]
        exact iff_of_false hother nofun
  | @incremented t keyId' m' count _ hphase _ =>
      by_cases hsame : keyId' = keyId ∧ m' = m
      · obtain ⟨rfl, rfl⟩ := hsame
        exact h.of_incremented hphase rfl
      · have hother : (LimiterPhase.afterIncr keyId' m' count).counter ≠
            some (keyId, m) := by
          simpa using hsame
        refine h.of_move rfl rfl (if_neg hsame) rfl ?_ fun hcounter => absurd hcounter hother
        rw [hphase, LimiterPhase.counter_afterIncr]
        rfl
  | @expired t keyId' m' hphase =>
      refine h.of_move rfl rfl rfl rfl (by rw [hphase]; rfl) fun _ => ?_
      rw [hphase]
      exact ⟨fun _ hgave => hgave, fun _ => rfl, fun _ => iff_of_false nofun nofun⟩
  | @returned t keyId' m' count allowed hphase hallowed =>
      by_cases hsame : keyId' = keyId ∧ m' = m
      · obtain ⟨rfl, rfl⟩ := hsame
        exact h.of_returned hphase hallowed rfl
      · have hother : (LimiterPhase.returned keyId' m' allowed).counter ≠
            some (keyId, m) := by
          simpa [LimiterPhase.counter] using hsame
        refine h.of_move rfl rfl rfl (if_neg hsame) ?_ fun hcounter => absurd hcounter hother
        rw [hphase]
        rfl
  | @stopped t phase hhalt =>
      refine h.of_move rfl rfl rfl rfl (by rw [LimiterPhase.counter_of_halt hhalt]) fun _ => ?_
      cases hold : s.calls t with
      | idle => rw [hold] at hhalt; cases hhalt
      | returned => rw [hold] at hhalt; cases hhalt
      | stopped => rw [hold] at hhalt; cases hhalt
      | invoked =>
          rw [hold] at hhalt
          cases hhalt
          exact ⟨fun _ hgave => hgave.elim, nofun, fun _ => iff_of_false nofun nofun⟩
      | created =>
          rw [hold] at hhalt
          cases hhalt
          exact ⟨fun _ _ => trivial, nofun, fun _ => iff_of_false nofun nofun⟩
      | counted =>
          rw [hold] at hhalt
          cases hhalt
          exact ⟨fun _ _ => trivial, nofun, fun _ => iff_of_false nofun nofun⟩

end Recorded

/-! ## The counter of a minute -/

section Counted

variable {τ : Type*}

/-- While a minute lasts its counter has counted its calls.  No counter expires before
the end of its minute. -/
structure MinutesCounted (history : List (LimiterEvent τ)) (s : LimiterSystem τ) :
    Prop where
  begun : ∀ t keyId m, s.calls t = .created keyId m → m.start ≤ s.clock
  lasting : ∀ keyId m entry, s.counters (counterKey keyId m) = some entry →
    ∀ instant ∈ entry.expiresAt, m.stop ≤ instant
  stored : ∀ keyId m, s.clock < m.stop →
    stored s.counters (counterKey keyId m) = (countsOf keyId m history).length
  counts : ∀ keyId m, (countsOf keyId m history).map Prod.snd =
    (List.range' 1 (countsOf keyId m history).length).reverse

theorem minutesCounted_start {now : ℚ} :
    MinutesCounted ([] : List (LimiterEvent τ)) (.start now) where
  begun t keyId m hphase := by cases hphase
  lasting keyId m entry hentry := by cases hentry
  stored keyId m _ := rfl
  counts keyId m := rfl

variable {history : List (LimiterEvent τ)} {s s' : LimiterSystem τ} {e : LimiterEvent τ}

theorem MinutesCounted.of_counters_eq (h : MinutesCounted history s)
    (hclock : s.clock ≤ s'.clock) (hcounters : s'.counters = s.counters)
    (hcount : ∀ keyId m, e.countOf keyId m = none)
    (hbegun : ∀ t keyId m, s'.calls t = .created keyId m → m.start ≤ s.clock) :
    MinutesCounted (e :: history) s' := by
  have hcountsOf : ∀ keyId m, countsOf keyId m (e :: history) = countsOf keyId m history :=
    fun keyId m => List.filterMap_cons_none (hcount keyId m)
  refine ⟨?_, ?_, ?_, ?_⟩
  · intro t keyId m hphase
    exact (hbegun t keyId m hphase).trans hclock
  · rw [hcounters]
    exact h.lasting
  · intro keyId m hlt
    rw [hcounters, hcountsOf]
    exact h.stored keyId m (hclock.trans_lt hlt)
  · intro keyId m
    rw [hcountsOf]
    exact h.counts keyId m

theorem MinutesCounted.of_lapsed (h : MinutesCounted history s) {key : String}
    (hdue : s.counters.IsDue key s.clock) :
    MinutesCounted (.lapsed key :: history)
      { s with counters := s.counters.remove key } := by
  refine ⟨h.begun, ?_, ?_, h.counts⟩
  · intro keyId m entry hentry instant hinstant
    dsimp only at hentry
    by_cases hkey : counterKey keyId m = key
    · rw [hkey, Expiring.Store.remove_self] at hentry
      cases hentry
    · rw [Expiring.Store.remove_of_ne hkey] at hentry
      exact h.lasting keyId m entry hentry instant hinstant
  · intro keyId m hlt
    by_cases hkey : counterKey keyId m = key
    · obtain ⟨entry, instant, hentry, hinstant, hle⟩ := hdue
      have hstop := h.lasting keyId m entry (hkey ▸ hentry) instant hinstant
      exact absurd hlt (not_lt.mpr (hstop.trans hle))
    · rw [stored_remove_of_ne hkey]
      exact h.stored keyId m hlt

variable [DecidableEq τ]

/-- A call that moves on does not become one that owes an expiry. -/
theorem MinutesCounted.begun_of_move (h : MinutesCounted history s) {t : τ}
    {phase : LimiterPhase} (hphase : ∀ keyId m, phase ≠ .created keyId m) :
    ∀ u keyId m, Function.update s.calls t phase u = .created keyId m →
      m.start ≤ s.clock := by
  intro u keyId m hcreated
  by_cases hut : u = t
  · subst hut
    rw [Function.update_self] at hcreated
    exact absurd hcreated (hphase keyId m)
  · rw [Function.update_of_ne hut] at hcreated
    exact h.begun u keyId m hcreated

theorem MinutesCounted.of_incremented (h : MinutesCounted history s) {t : τ}
    {keyId : String} {m : ClockMinute} {count : ℕ} {counters : Counters}
    (hincr : incr s.counters (counterKey keyId m) = (count, counters))
    (hstart : m.start ≤ s.clock) (hstop : s.clock < m.stop) :
    MinutesCounted (.incremented t keyId m count :: history)
      { s with
        counters := counters
        calls := Function.update s.calls t (.afterIncr keyId m count) } := by
  rw [incr, Prod.mk.injEq] at hincr
  obtain ⟨hcount, rfl⟩ := hincr
  rw [h.stored keyId m hstop] at hcount
  have hself : countsOf keyId m (.incremented t keyId m count :: history) =
      (t, count) :: countsOf keyId m history :=
    List.filterMap_cons_some (if_pos ⟨rfl, rfl⟩)
  have hother : ∀ {keyId' m'}, ¬(keyId = keyId' ∧ m = m') →
      countsOf keyId' m' (.incremented t keyId m count :: history) =
        countsOf keyId' m' history :=
    fun hne => List.filterMap_cons_none (if_neg hne)
  refine ⟨?_, ?_, ?_, ?_⟩
  · intro u keyId' m' hcreated
    dsimp only at hcreated
    by_cases hut : u = t
    · subst hut
      rw [Function.update_self, LimiterPhase.afterIncr] at hcreated
      split at hcreated
      · cases hcreated
        exact hstart
      · cases hcreated
    · rw [Function.update_of_ne hut] at hcreated
      exact h.begun u keyId' m' hcreated
  · intro keyId' m' entry hentry instant hinstant
    dsimp only at hentry
    by_cases hkey : counterKey keyId' m' = counterKey keyId m
    · rw [hkey, Expiring.Store.write_self, Option.some.injEq] at hentry
      subst hentry
      obtain ⟨old, hold, hexpires⟩ := Option.bind_eq_some_iff.mp hinstant
      exact h.lasting keyId' m' old (hkey ▸ hold) instant hexpires
    · rw [Expiring.Store.write_of_ne hkey] at hentry
      exact h.lasting keyId' m' entry hentry instant hinstant
  · intro keyId' m' hlt
    dsimp only
    by_cases hsame : keyId = keyId' ∧ m = m'
    · obtain ⟨rfl, rfl⟩ := hsame
      rw [stored_write_self, hself, List.length_cons, h.stored keyId m hstop]
    · have hkey : counterKey keyId' m' ≠ counterKey keyId m := by
        intro heq
        obtain ⟨hid, hminute⟩ := counterKey_inj heq
        exact hsame ⟨hid.symm, hminute.symm⟩
      rw [stored_write_of_ne hkey, hother hsame]
      exact h.stored keyId' m' hlt
  · intro keyId' m'
    by_cases hsame : keyId = keyId' ∧ m = m'
    · obtain ⟨rfl, rfl⟩ := hsame
      rw [hself, List.map_cons, h.counts keyId m, List.length_cons, List.range'_1_concat,
        List.reverse_append, List.reverse_singleton, List.singleton_append, ← hcount,
        Nat.add_comm]
    · rw [hother hsame]
      exact h.counts keyId' m'

theorem MinutesCounted.of_expired (h : MinutesCounted history s) {t : τ} {keyId : String}
    {m : ClockMinute} (hphase : s.calls t = .created keyId m) :
    MinutesCounted (.expired t :: history)
      { s with
        counters := s.counters.expire (counterKey keyId m) (s.clock + 120)
        calls := Function.update s.calls t (.counted keyId m 1) } := by
  refine ⟨h.begun_of_move nofun, ?_, ?_, h.counts⟩
  · intro keyId' m' entry hentry instant hinstant
    dsimp only at hentry
    by_cases hkey : counterKey keyId' m' = counterKey keyId m
    · obtain ⟨rfl, rfl⟩ := counterKey_inj hkey
      rw [Expiring.Store.expire_self, Option.map_eq_some_iff] at hentry
      obtain ⟨old, -, rfl⟩ := hentry
      cases hinstant
      have hstart := h.begun t keyId' m' hphase
      rw [ClockMinute.stop]
      linarith
    · rw [Expiring.Store.expire_of_ne hkey] at hentry
      exact h.lasting keyId' m' entry hentry instant hinstant
  · intro keyId' m' hlt
    rw [stored_expire]
    exact h.stored keyId' m' hlt

theorem MinutesCounted.step {limits : String → ℤ} (h : MinutesCounted history s)
    (hstep : TimelyStep limits s e s') : MinutesCounted (e :: history) s' := by
  obtain ⟨hstep, htimely⟩ := hstep
  cases hstep with
  | ticked hle => exact h.of_counters_eq hle rfl (fun _ _ => rfl) h.begun
  | invoked _ =>
      exact h.of_counters_eq le_rfl rfl (fun _ _ => rfl) (h.begun_of_move nofun)
  | incremented _ hincr =>
      obtain ⟨hstart, hstop⟩ := htimely _ _ _ _ rfl
      exact h.of_incremented hincr hstart hstop
  | expired hphase => exact h.of_expired hphase
  | returned _ _ =>
      exact h.of_counters_eq le_rfl rfl (fun _ _ => rfl) (h.begun_of_move nofun)
  | @stopped t phase hhalt =>
      refine h.of_counters_eq le_rfl rfl (fun _ _ => rfl) (h.begun_of_move ?_)
      rintro keyId m rfl
      revert hhalt
      cases s.calls t with
      | idle => exact nofun
      | invoked => exact nofun
      | created => exact nofun
      | counted => exact nofun
      | returned => exact nofun
      | stopped => exact nofun
  | lapsed hdue => exact h.of_lapsed hdue

/-! ## The limit -/

/-- The first minute of 1970. -/
def epochMinute : ClockMinute :=
  ⟨⟨1970, 1, 1, by decide, by decide, by decide, by decide⟩, 0, 0, by decide, by decide⟩

/-- A run of calls that send their `INCR` in time. -/
abbrev TimelyRun (limits : String → ℤ) (now : ℚ) (history : List (LimiterEvent τ))
    (s : LimiterSystem τ) : Prop :=
  Run (TimelyStep limits) (.start now) history s

theorem minutesCounted_of_run {limits : String → ℤ} {now : ℚ}
    (hrun : TimelyRun limits now history s) : MinutesCounted history s :=
  hrun.history_invariant minutesCounted_start fun _ _ _ _ _ h hstep => h.step hstep

theorem minuteRecorded_of_run {limits : String → ℤ} {now : ℚ}
    (hrun : TimelyRun limits now history s) (keyId : String) (m : ClockMinute) :
    MinuteRecorded (limits keyId) keyId m history s :=
  hrun.history_invariant (I := fun history s =>
    MinuteRecorded (limits keyId) keyId m history s) minuteRecorded_start
    fun _ _ _ _ _ h hstep => h.step hstep.1

/-- The calls of an API key that succeed in a minute are as many as its limit allows:
never more, and no fewer once all have returned.  While the minute lasts its counter
counts every one of its calls. -/
theorem allowed_eq_min_limit (limits : String → ℤ) {now : ℚ}
    (hrun : TimelyRun limits now history s) (keyId : String) (m : ClockMinute) :
    allowedOf keyId m history ≤ min (limits keyId).toNat (callsOf keyId m history).length ∧
      ((∀ t ∈ callsOf keyId m history, ∃ allowed, s.calls t = .returned keyId m allowed) →
        allowedOf keyId m history =
          min (limits keyId).toNat (callsOf keyId m history).length) ∧
      (s.clock < m.stop → stored s.counters (counterKey keyId m) =
        (countsOf keyId m history).length) := by
  have hrecorded := minuteRecorded_of_run hrun keyId m
  have hcounted := minutesCounted_of_run hrun
  have hallowed := countP_answerTo (limits keyId) (hcounted.counts keyId m)
  refine ⟨?_, ?_, hcounted.stored keyId m⟩
  · have hcalls : (countsOf keyId m history).length ≤ (callsOf keyId m history).length := by
      rw [← List.length_map Prod.fst]
      apply List.Subperm.length_le
      apply List.subperm_of_subset hrecorded.nodup_counts
      intro t hmem
      obtain ⟨⟨u, count⟩, hcount, rfl⟩ := List.mem_map.mp hmem
      exact (hrecorded.mem_calls u).mpr (hrecorded.gave u count hcount).1
    calc allowedOf keyId m history ≤
        ((countsOf keyId m history).map (answerTo (limits keyId))).countP Prod.snd :=
          hrecorded.answers_subperm.countP_le _
      _ = min (limits keyId).toNat (countsOf keyId m history).length := hallowed
      _ ≤ min (limits keyId).toNat (callsOf keyId m history).length :=
          min_le_min_left _ hcalls
  · intro hdone
    obtain ⟨hperm, hlength⟩ := hrecorded.answers_perm hdone
    rw [allowedOf, hperm.countP_eq, hallowed, hlength]

/-- Two calls with a limit of one. -/
theorem allowed_eq_min_limit_two_calls :
    ∃ (history : List (LimiterEvent Bool)) (s : LimiterSystem Bool),
      TimelyRun (fun _ => 1) 0 history s ∧ (callsOf "key" epochMinute history).length = 2 ∧
        allowedOf "key" epochMinute history = 1 := by
  have htime : epochMinute.start ≤ 0 ∧ 0 < epochMinute.stop := by
    have hordinal : epochMinute.date.toordinal = 719163 := by decide
    rw [ClockMinute.stop, ClockMinute.start, hordinal]
    norm_num [epochMinute]
  have hrun : TimelyRun (fun _ => 1) 0
      [LimiterEvent.returned true "key" epochMinute false,
        .incremented true "key" epochMinute 2, .invoked true "key" epochMinute,
        .returned false "key" epochMinute true, .expired false,
        .incremented false "key" epochMinute 1, .invoked false "key" epochMinute] _ :=
    ((((((Run.start.next
      ⟨.invoked rfl, by simp⟩).next
      ⟨.incremented rfl rfl, by rintro _ _ _ _ ⟨⟩; exact htime⟩).next
      ⟨.expired rfl, by simp⟩).next
      ⟨.returned rfl rfl, by simp⟩).next
      ⟨.invoked rfl, by simp⟩).next
      ⟨.incremented rfl rfl, by rintro _ _ _ _ ⟨⟩; exact htime⟩).next
      ⟨.returned (rfl : _ = LimiterPhase.counted "key" epochMinute 2) rfl, by simp⟩
  refine ⟨_, _, hrun, rfl, ?_⟩
  refine ((allowed_eq_min_limit _ hrun "key" epochMinute).2.1 ?_).trans rfl
  intro t _
  cases t with
  | false => exact ⟨true, rfl⟩
  | true => exact ⟨false, rfl⟩

end Counted

end OrbiGateway
