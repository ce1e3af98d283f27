import Mathlib.Algebra.Order.Ring.Rat
import Mathlib.Tactic.Linarith
import OrbiGateway.Concurrency.CircuitCalls

/-!
# The circuit breaker over time

Calls one after another at times that do not decrease.  Redis removes the hash three
cooldowns after the last `EXPIRE`, which every `record_failure` sends and a `get` only
when it writes `HALF_OPEN`.
-/

namespace OrbiGateway

open Transition

/-! ## Stored circuits -/

/-- A hash and the instant at which Redis removes it. -/
structure StoredCircuit where
  hash : CircuitHash
  expiresAt : ℚ
  deriving DecidableEq

/-- What Redis has not removed yet. -/
def liveCircuit (stored : Option StoredCircuit) (now : ℚ) : Option StoredCircuit :=
  stored.filter fun circuit => decide (now < circuit.expiresAt)

inductive CircuitMethod
  | get
  | recordFailure
  | recordSuccess
  deriving DecidableEq

/-- The call with the readings that it may make at this instant. -/
def CircuitMethod.call (method : CircuitMethod) (now : ℚ) : CircuitCall :=
  match method with
  | .get => .get (some now)
  | .recordFailure => .recordFailure (some now) (some now)
  | .recordSuccess => .recordSuccess

namespace CircuitBreakerService

variable (service : CircuitBreakerService)

/-- `EXPIRE` with three cooldowns. -/
def expire (hash : Option CircuitHash) (now : ℚ) : Option StoredCircuit :=
  hash.map fun raw => ⟨raw, now + service.cooldown * 3⟩

/-- A call at one instant.  The `EXPIRE` of a `record_failure` replaces the one of its
`get`. -/
def perform (stored : Option StoredCircuit) (method : CircuitMethod) (now : ℚ) :
    CircuitSnapshot × Option StoredCircuit :=
  let live := liveCircuit stored now
  let hash := live.map (·.hash)
  match method with
  | .get =>
      let (snapshot, hash') := service.get hash now
      if live.any fun circuit => service.isCooled circuit.hash now then
        (snapshot, service.expire hash' now)
      else (snapshot, live)
  | .recordFailure =>
      let (snapshot, hash') := service.recordFailure hash now now
      (snapshot, service.expire hash' now)
  | .recordSuccess => (CircuitBreakerService.recordSuccess.1, none)

end CircuitBreakerService

/-! ## Runs -/

/-- A call with its time and its answer. -/
structure TimedCall where
  method : CircuitMethod
  now : ℚ
  snapshot : CircuitSnapshot

/-- The stored circuit and the time of the last call. -/
structure TimedCircuit where
  stored : Option StoredCircuit
  clock : ℚ
  deriving DecidableEq

/-- A call that does not come before the last one. -/
def timedStep (service : CircuitBreakerService) (s : TimedCircuit) (call : TimedCall) :
    Option TimedCircuit :=
  if s.clock ≤ call.now ∧
      (service.perform s.stored call.method call.now).1 = call.snapshot then
    some ⟨(service.perform s.stored call.method call.now).2, call.now⟩
  else none

/-- A run of calls from an absent hash. -/
abbrev TimedRun (service : CircuitBreakerService) (start : ℚ) (history : List TimedCall)
    (s : TimedCircuit) : Prop :=
  Run (Follows (timedStep service)) ⟨none, start⟩ history s

/-- The time of the latest failure of a history, last call first. -/
def lastFailure : List TimedCall → Option ℚ
  | [] => none
  | call :: history =>
      match call.method with
      | .recordFailure => some call.now
      | _ => lastFailure history

/-- What a hash may contain when the latest failure came at `failedAt`. -/
inductive CircuitShape (service : CircuitBreakerService) (failedAt : Option ℚ) :
    Option CircuitHash → Prop
  | absent : CircuitShape service failedAt none
  | closed {failures : ℤ} (hpos : 1 ≤ failures) (hlt : failures < service.threshold) :
      CircuitShape service failedAt (some ⟨.closed, some failures, none⟩)
  | tripped {state : CircuitState} {failures : ℤ} {openedAt : ℚ}
      (hstate : state = .opened ∨ state = .halfOpen)
      (hge : service.threshold ≤ failures) (hlatest : failedAt = some openedAt) :
      CircuitShape service failedAt (some ⟨state, some failures, some openedAt⟩)

/-! ## What a call does -/

section Calls

variable {service : CircuitBreakerService} {stored : Option StoredCircuit} {now : ℚ}

theorem liveCircuit_eq_some_iff {circuit : StoredCircuit} :
    liveCircuit stored now = some circuit ↔
      stored = some circuit ∧ now < circuit.expiresAt := by
  rw [liveCircuit, Option.filter_eq_some_iff, decide_eq_true_iff]

theorem valid_live (h : service.Valid (stored.map (·.hash))) (now : ℚ) :
    service.Valid ((liveCircuit stored now).map (·.hash)) := by
  cases hlive : liveCircuit stored now with
  | none => exact CircuitBreakerService.valid_none
  | some circuit =>
      rw [(liveCircuit_eq_some_iff.mp hlive).1] at h
      exact h

theorem perform_get_none (hlive : liveCircuit stored now = none) :
    service.perform stored .get now = (.initial, none) := by
  simp [CircuitBreakerService.perform, hlive, CircuitBreakerService.get]

theorem perform_get_uncooled {circuit : StoredCircuit}
    (hlive : liveCircuit stored now = some circuit)
    (hcooled : service.isCooled circuit.hash now = false) :
    service.perform stored .get now = (circuit.hash.snapshot, some circuit) := by
  simp [CircuitBreakerService.perform, hlive, CircuitBreakerService.get, hcooled]

theorem perform_get_cooled {circuit : StoredCircuit}
    (hlive : liveCircuit stored now = some circuit)
    (hcooled : service.isCooled circuit.hash now = true) :
    service.perform stored .get now =
      ({ circuit.hash.snapshot with state := .halfOpen },
        some ⟨{ circuit.hash with state := .halfOpen }, now + service.cooldown * 3⟩) := by
  simp [CircuitBreakerService.perform, hlive, CircuitBreakerService.get, hcooled,
    CircuitBreakerService.expire, CircuitHash.hsetState]

theorem perform_recordFailure (h : service.Valid (stored.map (·.hash))) {failures : ℤ}
    (hfailures : failures =
      CircuitHash.failureCount ((liveCircuit stored now).map (·.hash)) + 1) :
    service.perform stored .recordFailure now =
      (service.counted failures now,
        some ⟨CircuitHash.hset none (service.counted failures now),
          now + service.cooldown * 3⟩) := by
  simp only [CircuitBreakerService.perform,
    CircuitBreakerService.recordFailure_eq (valid_live h now), hfailures]
  rfl

theorem perform_allows (method : CircuitMethod) :
    service.Allows ((liveCircuit stored now).map (·.hash)) (method.call now)
      (service.perform stored method now).1
      ((service.perform stored method now).2.map (·.hash)) := by
  have hreading : ∀ reading ∈ some now, reading = now := by
    intro reading hreading
    exact (Option.some.inj hreading).symm
  cases method with
  | get =>
      refine ⟨now, hreading, ?_⟩
      cases hlive : liveCircuit stored now with
      | none =>
          rw [perform_get_none hlive]
          rfl
      | some circuit =>
          cases hcooled : service.isCooled circuit.hash now with
          | false =>
              rw [perform_get_uncooled hlive hcooled]
              simp [CircuitBreakerService.get, hcooled]
          | true =>
              rw [perform_get_cooled hlive hcooled]
              simp [CircuitBreakerService.get, hcooled, CircuitHash.hsetState]
  | recordFailure => exact ⟨now, now, hreading, hreading, rfl⟩
  | recordSuccess => rfl

end Calls

/-! ## Steps -/

section Steps

variable {service : CircuitBreakerService} {history : List TimedCall}
  {s s' : TimedCircuit} {call : TimedCall}

theorem timedStep_spec (h : timedStep service s call = some s') :
    s.clock ≤ call.now ∧ s'.clock = call.now ∧
      service.perform s.stored call.method call.now = (call.snapshot, s'.stored) := by
  unfold timedStep at h
  split at h
  next hguard =>
    cases h
    exact ⟨hguard.1, rfl, Prod.ext hguard.2 rfl⟩
  · cases h

/-- The stored hash is valid and its `opened_at` is the time of the latest failure. -/
structure CircuitTimed (service : CircuitBreakerService) (history : List TimedCall)
    (s : TimedCircuit) : Prop where
  valid : service.Valid (s.stored.map (·.hash))
  latest : ∀ circuit openedAt, s.stored = some circuit →
    circuit.hash.openedAt = some openedAt → lastFailure history = some openedAt

theorem circuitTimed_of_absent (hstored : s.stored = none) :
    CircuitTimed service history s := by
  refine ⟨?_, ?_⟩
  · rw [hstored]
    exact CircuitBreakerService.valid_none
  · intro circuit openedAt hcircuit
    rw [hstored] at hcircuit
    cases hcircuit

theorem CircuitTimed.step (h : CircuitTimed service history s)
    (hstep : timedStep service s call = some s') :
    CircuitTimed service (call :: history) s' := by
  obtain ⟨-, -, hperform⟩ := timedStep_spec hstep
  cases hmethod : call.method with
  | get =>
      have hlatest : lastFailure (call :: history) = lastFailure history := by
        simp [lastFailure, hmethod]
      rw [hmethod] at hperform
      cases hlive : liveCircuit s.stored call.now with
      | none =>
          rw [perform_get_none hlive, Prod.mk.injEq] at hperform
          exact circuitTimed_of_absent hperform.2.symm
      | some circuit =>
          obtain ⟨hstored, -⟩ := liveCircuit_eq_some_iff.mp hlive
          have hvalid := h.valid
          rw [hstored] at hvalid
          cases hcooled : service.isCooled circuit.hash call.now with
          | false =>
              rw [perform_get_uncooled hlive hcooled, Prod.mk.injEq] at hperform
              rw [← hstored] at hperform
              refine ⟨?_, ?_⟩
              · rw [← hperform.2]
                exact h.valid
              · rw [hlatest, ← hperform.2]
                exact h.latest
          | true =>
              rw [perform_get_cooled hlive hcooled, Prod.mk.injEq] at hperform
              obtain ⟨hopen, openedAt, hopened, -⟩ :=
                CircuitBreakerService.isCooled_spec hcooled
              have hne : circuit.hash.openedAt ≠ none := by simp [hopened]
              have hhalf : CircuitState.halfOpen ≠ .closed := by simp
              refine ⟨?_, ?_⟩
              · rw [← hperform.2]
                exact hvalid.setState hne hhalf
              · intro circuit' openedAt' hstored' hopened'
                rw [← hperform.2, Option.some.injEq] at hstored'
                subst hstored'
                rw [hlatest]
                exact h.latest circuit openedAt' hstored hopened'
  | recordFailure =>
      rw [hmethod, perform_recordFailure h.valid rfl, Prod.mk.injEq] at hperform
      have hnonneg := (valid_live h.valid call.now).failureCount_nonneg
      refine ⟨?_, ?_⟩
      · rw [← hperform.2]
        exact CircuitBreakerService.valid_counted (by omega) call.now
      · intro circuit openedAt hstored hopened
        rw [← hperform.2, Option.some.injEq] at hstored
        subst hstored
        have hnow : openedAt = call.now := by
          simp only [CircuitHash.hset, CircuitBreakerService.counted] at hopened
          split at hopened
          · exact (Option.some.inj hopened).symm
          · cases hopened
        simp [lastFailure, hmethod, hnow]
  | recordSuccess =>
      rw [hmethod, CircuitBreakerService.perform, Prod.mk.injEq] at hperform
      exact circuitTimed_of_absent hperform.2.symm

theorem circuitTimed_of_run {start : ℚ} (hrun : TimedRun service start history s) :
    CircuitTimed service history s := by
  apply Run.history_invariant (I := CircuitTimed service) hrun
  · exact circuitTimed_of_absent rfl
  · intro history s call s' _ h hstep
    exact h.step hstep

theorem CircuitTimed.shape (h : CircuitTimed service history s) :
    CircuitShape service (lastFailure history) (s.stored.map (·.hash)) := by
  cases hstored : s.stored with
  | none => exact .absent
  | some circuit =>
      have hvalid := h.valid
      rw [hstored] at hvalid
      obtain ⟨failures, hfailures, hpos, hclosed, hnone⟩ := hvalid circuit.hash rfl
      have hhash : circuit.hash =
          ⟨circuit.hash.state, some failures, circuit.hash.openedAt⟩ := by
        rw [← hfailures]
      rw [Option.map_some, hhash]
      cases hopened : circuit.hash.openedAt with
      | none =>
          have hstate := hnone.mpr hopened
          rw [hstate]
          exact .closed hpos (hclosed.mp hstate)
      | some openedAt =>
          have hstate : circuit.hash.state ≠ .closed := by
            intro hno
            rw [hnone.mp hno] at hopened
            cases hopened
          refine .tripped ?_ ?_ (h.latest circuit openedAt hstored hopened)
          · cases hcases : circuit.hash.state with
            | closed => exact absurd hcases hstate
            | opened => exact Or.inl rfl
            | halfOpen => exact Or.inr rfl
          · exact not_lt.mp fun hlt => hstate (hclosed.mpr hlt)

end Steps

/-! ## After a failure that opens the circuit -/

section Tripped

variable {service : CircuitBreakerService} {s s' : TimedCircuit} {call : TimedCall}
  {failedAt : ℚ}

/-- The circuit has opened at `failedAt` and is kept for three cooldowns from there on;
it is `HALF_OPEN` only after one. -/
structure Tripped (service : CircuitBreakerService) (failedAt : ℚ) (s : TimedCircuit) :
    Prop where
  clock : failedAt ≤ s.clock
  kept : (∃ circuit, s.stored = some circuit ∧ circuit.hash.openedAt = some failedAt ∧
      (circuit.hash.state = .opened ∨
        circuit.hash.state = .halfOpen ∧ failedAt + service.cooldown ≤ s.clock) ∧
      failedAt + service.cooldown * 3 ≤ circuit.expiresAt) ∨
    failedAt + service.cooldown * 3 ≤ s.clock

/-- `OPEN` for one cooldown, then `HALF_OPEN` up to the end of the third. -/
def TimedCall.AnswersAfter (service : CircuitBreakerService) (failedAt : ℚ) (call : TimedCall) :
    Prop :=
  (call.now < failedAt + service.cooldown → call.snapshot.state = .opened) ∧
    (failedAt + service.cooldown ≤ call.now → call.now < failedAt + service.cooldown * 3 →
      call.snapshot.state = .halfOpen) ∧
    (call.now < failedAt + service.cooldown * 3 → call.snapshot.state ≠ .closed)

theorem answersAfter_of_opened (hbefore : call.now < failedAt + service.cooldown)
    (hstate : call.snapshot.state = .opened) : call.AnswersAfter service failedAt := by
  refine ⟨fun _ => hstate, ?_, ?_⟩
  · intro hafter
    exact absurd hbefore (not_lt.mpr hafter)
  · intro _
    simp [hstate]

theorem answersAfter_of_halfOpen (hafter : failedAt + service.cooldown ≤ call.now)
    (hstate : call.snapshot.state = .halfOpen) : call.AnswersAfter service failedAt := by
  refine ⟨?_, fun _ _ => hstate, ?_⟩
  · intro hbefore
    exact absurd hbefore (not_lt.mpr hafter)
  · intro _
    simp [hstate]

theorem answersAfter_of_past (hclock : failedAt ≤ call.now)
    (hpast : failedAt + service.cooldown * 3 ≤ call.now) :
    call.AnswersAfter service failedAt := by
  refine ⟨?_, ?_, ?_⟩
  · intro hbefore
    exfalso
    rcases le_total 0 (service.cooldown : ℚ) with hpos | hneg
    · linarith
    · linarith
  · intro _ hbefore
    exact absurd hbefore (not_lt.mpr hpast)
  · intro hbefore
    exact absurd hbefore (not_lt.mpr hpast)

theorem Tripped.get (h : Tripped service failedAt s) (hmethod : call.method = .get)
    (hstep : timedStep service s call = some s') :
    Tripped service failedAt s' ∧ call.AnswersAfter service failedAt := by
  obtain ⟨hmono, hclock', hperform⟩ := timedStep_spec hstep
  rw [hmethod] at hperform
  have hclock : failedAt ≤ call.now := h.clock.trans hmono
  by_cases hpast : failedAt + service.cooldown * 3 ≤ call.now
  · refine ⟨⟨?_, Or.inr ?_⟩, answersAfter_of_past hclock hpast⟩
    · rw [hclock']
      exact hclock
    · rw [hclock']
      exact hpast
  rcases h.kept with ⟨circuit, hstored, hopened, hstate, hexpires⟩ | hover
  · have hlive : liveCircuit s.stored call.now = some circuit :=
      liveCircuit_eq_some_iff.mpr ⟨hstored, lt_of_lt_of_le (not_le.mp hpast) hexpires⟩
    cases hcooled : service.isCooled circuit.hash call.now with
    | false =>
        rw [perform_get_uncooled hlive hcooled, Prod.mk.injEq] at hperform
        rcases hstate with hopen | ⟨hhalf, hafter⟩
        · have hbefore : call.now < failedAt + service.cooldown := by
            have hnot : ¬(service.cooldown : ℚ) ≤ call.now - failedAt := by
              simpa [CircuitBreakerService.isCooled, hopen, hopened] using hcooled
            linarith [not_le.mp hnot]
          refine ⟨⟨by rw [hclock']; exact hclock, Or.inl ⟨circuit, hperform.2.symm, hopened,
            Or.inl hopen, hexpires⟩⟩, answersAfter_of_opened hbefore ?_⟩
          rw [← hperform.1]
          exact hopen
        · have hafter' : failedAt + service.cooldown ≤ call.now := hafter.trans hmono
          refine ⟨⟨by rw [hclock']; exact hclock, Or.inl ⟨circuit, hperform.2.symm, hopened,
            Or.inr ⟨hhalf, by rw [hclock']; exact hafter'⟩, hexpires⟩⟩,
            answersAfter_of_halfOpen hafter' ?_⟩
          rw [← hperform.1]
          exact hhalf
    | true =>
        rw [perform_get_cooled hlive hcooled, Prod.mk.injEq] at hperform
        obtain ⟨-, openedAt, hopened', hcool⟩ := CircuitBreakerService.isCooled_spec hcooled
        obtain rfl : openedAt = failedAt := Option.some.inj (hopened'.symm.trans hopened)
        have hafter : openedAt + service.cooldown ≤ call.now := by linarith
        refine ⟨⟨by rw [hclock']; exact hclock, Or.inl ⟨_, hperform.2.symm, hopened,
          Or.inr ⟨rfl, by rw [hclock']; exact hafter⟩, ?_⟩⟩,
          answersAfter_of_halfOpen hafter ?_⟩
        · have hlater := add_le_add_left hclock (service.cooldown * 3 : ℚ)
          linarith
        · rw [← hperform.1]
  · exact absurd (hover.trans hmono) hpast

theorem tripped_of_failure {history : List TimedCall}
    (h : CircuitTimed service history s) (hmethod : call.method = .recordFailure)
    (hopened : call.snapshot.state = .opened)
    (hstep : timedStep service s call = some s') : Tripped service call.now s' := by
  obtain ⟨-, hclock', hperform⟩ := timedStep_spec hstep
  rw [hmethod, perform_recordFailure h.valid rfl, Prod.mk.injEq] at hperform
  refine ⟨hclock'.ge, Or.inl ⟨_, hperform.2.symm, ?_, Or.inl ?_, le_refl _⟩⟩
  · rw [← hperform.1] at hopened
    simp [CircuitHash.hset, CircuitBreakerService.counted_opened hopened]
  · rw [← hperform.1] at hopened
    exact hopened

end Tripped

/-! ## The state machine -/

section Main

variable {service : CircuitBreakerService} {history : List TimedCall} {s : TimedCircuit}

/-- What Redis has at any time has the shape of what was stored. -/
theorem CircuitTimed.shape_live (h : CircuitTimed service history s) (now : ℚ) :
    CircuitShape service (lastFailure history)
      ((liveCircuit s.stored now).map (·.hash)) := by
  cases hlive : liveCircuit s.stored now with
  | none => exact .absent
  | some circuit =>
      have hshape := h.shape
      rw [(liveCircuit_eq_some_iff.mp hlive).1] at hshape
      exact hshape

/-- A circuit that is `HALF_OPEN` has reached the threshold, so a failure opens it. -/
theorem CircuitTimed.failure_of_halfOpen (h : CircuitTimed service history s) {now : ℚ}
    (hhalf : (service.perform s.stored .get now).1.state = .halfOpen) :
    (service.perform s.stored .recordFailure now).1.state = .opened ∧
      (service.perform s.stored .recordFailure now).1.openedAt = some now := by
  have hopened : (service.perform s.stored .recordFailure now).1.state = .opened := by
    rw [perform_recordFailure h.valid rfl]
    cases hlive : liveCircuit s.stored now with
    | none =>
        rw [perform_get_none hlive] at hhalf
        cases hhalf
    | some circuit =>
        have hvalid := valid_live h.valid now
        rw [hlive] at hvalid
        obtain ⟨failures, hfailures, -, hclosed, -⟩ := hvalid circuit.hash rfl
        have hstate : circuit.hash.state ≠ .closed := by
          intro hno
          cases hcooled : service.isCooled circuit.hash now with
          | false =>
              rw [perform_get_uncooled hlive hcooled, CircuitHash.snapshot, hno] at hhalf
              cases hhalf
          | true =>
              have hopen := (CircuitBreakerService.isCooled_spec hcooled).1
              rw [hno] at hopen
              cases hopen
        have hreached : service.threshold ≤ failures + 1 := by
          have hge := not_lt.mp fun hlt => hstate (hclosed.mpr hlt)
          omega
        simp [CircuitHash.failureCount, hfailures, CircuitBreakerService.counted, hreached]
  refine ⟨hopened, ?_⟩
  rw [perform_recordFailure h.valid rfl] at hopened ⊢
  exact CircuitBreakerService.counted_opened hopened

/-- From an absent hash and at times that do not decrease: the hash is absent, `CLOSED`
below the threshold, or tripped by the latest failure; after a failure that leaves the
circuit `OPEN` every `get` answers `OPEN` for one cooldown and `HALF_OPEN` from there to
the end of the third; and a failure of a `HALF_OPEN` circuit opens it anew. -/
theorem circuit_state_machine {start : ℚ} (hrun : TimedRun service start history s) :
    (∀ now, CircuitShape service (lastFailure history)
        ((liveCircuit s.stored now).map (·.hash))) ∧
      (∀ failure opened, failure.method = .recordFailure →
        failure.snapshot.state = .opened → timedStep service s failure = some opened →
          ∀ gets later, Run (Follows (timedStep service)) opened gets later →
            (∀ call ∈ gets, call.method = .get) →
              ∀ call ∈ gets, call.AnswersAfter service failure.now) ∧
      (∀ now, (service.perform s.stored .get now).1.state = .halfOpen →
        (service.perform s.stored .recordFailure now).1.state = .opened ∧
          (service.perform s.stored .recordFailure now).1.openedAt = some now) := by
  have htimed := circuitTimed_of_run hrun
  refine ⟨htimed.shape_live, ?_, fun _ => htimed.failure_of_halfOpen⟩
  intro failure opened hmethod hopened hstep gets later hgets
  have htripped := tripped_of_failure htimed hmethod hopened hstep
  -- by induction on the calls of `get` that follow
  have hboth : (∀ call ∈ gets, call.method = .get) →
      Tripped service failure.now later ∧
        ∀ call ∈ gets, call.AnswersAfter service failure.now := by
    induction hgets with
    | start => exact fun _ => ⟨htripped, by simp⟩
    | @next gets s s' call _ hlast ih =>
        intro hall
        obtain ⟨hprev, hanswers⟩ := ih fun call' hmem => hall call' (List.mem_cons_of_mem _ hmem)
        obtain ⟨hnext, hanswer⟩ := hprev.get (hall call List.mem_cons_self) hlast
        refine ⟨hnext, ?_⟩
        intro call' hmem
        rcases List.mem_cons.mp hmem with rfl | hold
        · exact hanswer
        · exact hanswers call' hold
  exact fun hall => (hboth hall).2

end Main

namespace Sample

/-- A circuit that opens at its first failure. -/
def sensitiveBreaker : CircuitBreakerService where
  threshold := 1
  cooldown := 120

/-- It fails, answers, cools and fails again. -/
def breakerCalls : List TimedCall :=
  [⟨.recordFailure, 130, ⟨.opened, 2, some 130⟩⟩, ⟨.get, 125, ⟨.halfOpen, 1, some 5⟩⟩,
    ⟨.get, 124, ⟨.opened, 1, some 5⟩⟩, ⟨.recordFailure, 5, ⟨.opened, 1, some 5⟩⟩]

theorem run_breakerCalls : TimedRun sensitiveBreaker 0 breakerCalls
    ⟨some ⟨⟨.opened, some 2, some 130⟩, 490⟩, 130⟩ :=
  run_of_replay (by decide +kernel)

end Sample

/-- The circuit that has failed again is tripped by its last failure. -/
theorem circuit_state_machine_sample :
    CircuitShape Sample.sensitiveBreaker (some 130)
      (some ⟨.opened, some 2, some 130⟩) := by
  have hshape := (circuit_state_machine Sample.run_breakerCalls).1 130
  exact hshape

end OrbiGateway
