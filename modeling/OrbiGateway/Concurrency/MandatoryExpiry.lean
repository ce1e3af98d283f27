import OrbiGateway.Concurrency.CircuitCalls
import OrbiGateway.Concurrency.LimiterCalls

/-!
# Keys without an expiry

The rate limiter and the circuit breaker on one Redis, with calls that may stop between
two of their commands.  A circuit gets its expiry with every write.  A counter gets it
only from the call that created it, so a call that stops in between leaves a counter that
no later call gives an expiry.
-/

namespace OrbiGateway

open Transition RateLimitService

/-! ## States and steps -/

/-- The rate limiter, the circuits by their workers, and the calls about each worker. -/
@[ext] structure RedisSystem (τ : Type*) where
  limiter : LimiterSystem τ
  circuits : Expiring.Store String CircuitHash ℚ
  breakers : String → τ → CircuitPhase

inductive RedisEvent (τ : Type*)
  | limiter (e : LimiterEvent τ)
  | circuit (workerId : String) (e : CircuitEvent τ)
  | circuitStopped (workerId : String) (t : τ)
  | circuitLapsed (workerId : String)

/-- The call has begun and has neither answered nor stopped. -/
def CircuitPhase.InProgress : CircuitPhase → Prop
  | .idle => False
  | .returned _ _ => False
  | _ => True

/-- Some call stops. -/
def RedisEvent.IsStop {τ : Type*} : RedisEvent τ → Prop
  | .limiter (.stopped _) => True
  | .circuitStopped _ _ => True
  | _ => False

namespace RedisSystem

variable {τ : Type*}

def start (now : ℚ) : RedisSystem τ where
  limiter := .start now
  circuits := Expiring.Store.empty
  breakers _ _ := .idle

/-- The hash of a worker and the calls about it. -/
def circuit (s : RedisSystem τ) (workerId : String) : CircuitSystem τ where
  hash := (s.circuits workerId).map (·.value)
  calls := s.breakers workerId

/-- No call is in progress. -/
def Quiescent (s : RedisSystem τ) : Prop :=
  s.limiter.Quiescent ∧ ∀ workerId, (s.circuit workerId).Quiescent

/-- The stored hash of a worker after a command.  Only `EXPIRE` sets an expiry, and a
write keeps it. -/
def stored (s : RedisSystem τ) (service : CircuitBreakerService) (workerId : String)
    (e : CircuitEvent τ) (hash : Option CircuitHash) :
    Option (Expiring.Entry CircuitHash ℚ) :=
  hash.map fun raw =>
    { value := raw
      expiresAt :=
        match e with
        | .expire _ => some (s.limiter.clock + service.cooldown * 3)
        | _ => (s.circuits workerId).bind (·.expiresAt) }

end RedisSystem

section Steps

variable {τ : Type*} [DecidableEq τ]

/-- A step of the limiter, a step of a call about a worker, the stop of such a call, or
the removal of a circuit. -/
inductive RedisStep (limits : String → ℤ) (service : CircuitBreakerService) :
    RedisSystem τ → RedisEvent τ → RedisSystem τ → Prop
  | limiter {s : RedisSystem τ} {e : LimiterEvent τ} {next : LimiterSystem τ}
      (hstep : LimiterStep limits s.limiter e next) :
      RedisStep limits service s (.limiter e) { s with limiter := next }
  | circuit {s : RedisSystem τ} {workerId : String} {e : CircuitEvent τ}
      {next : CircuitSystem τ} (hstep : CircuitStep service (s.circuit workerId) e next) :
      RedisStep limits service s (.circuit workerId e)
        { s with
          circuits := Function.update s.circuits workerId
            (s.stored service workerId e next.hash)
          breakers := Function.update s.breakers workerId next.calls }
  | circuitStopped {s : RedisSystem τ} {workerId : String} {t : τ}
      (hprogress : (s.breakers workerId t).InProgress) :
      RedisStep limits service s (.circuitStopped workerId t)
        { s with
          breakers := Function.update s.breakers workerId
            (Function.update (s.breakers workerId) t .idle) }
  | circuitLapsed {s : RedisSystem τ} {workerId : String}
      (hdue : s.circuits.IsDue workerId s.limiter.clock) :
      RedisStep limits service s (.circuitLapsed workerId)
        { s with circuits := s.circuits.remove workerId }

abbrev RedisRun (limits : String → ℤ) (service : CircuitBreakerService) (now : ℚ)
    (history : List (RedisEvent τ)) (s : RedisSystem τ) : Prop :=
  Run (RedisStep limits service) (.start now) history s

end Steps

/-! ## Completed calls -/

section Property

variable {τ : Type*}

/-- Some `allow_minute` on the counter was started and completed. -/
def CompletedCount (keyId : String) (m : ClockMinute) (history : List (RedisEvent τ)) :
    Prop :=
  ∃ t allowed, .limiter (.invoked t keyId m) ∈ history ∧
    .limiter (.returned t keyId m allowed) ∈ history

/-- Some `record_failure` about the worker was started and completed. -/
def CompletedFailure (workerId : String) (history : List (RedisEvent τ)) : Prop :=
  ∃ t call snapshot, call.isFailure = true ∧
    .circuit workerId (.invoked t call) ∈ history ∧
      .circuit workerId (.returned t snapshot) ∈ history

end Property

/-- When no call is in progress, no key is without an expiry on which a call was started
and completed after the last stop. -/
def TtlsMandatory (limits : String → ℤ) (service : CircuitBreakerService) : Prop :=
  ∀ (τ : Type) [DecidableEq τ] (now : ℚ) (newer older : List (RedisEvent τ))
    (s : RedisSystem τ), RedisRun limits service now (newer ++ older) s → s.Quiescent →
      (∀ e ∈ newer, ¬e.IsStop) →
        (∀ keyId m, CompletedCount keyId m newer →
          ¬s.limiter.counters.Immortal (counterKey keyId m)) ∧
        ∀ workerId, CompletedFailure workerId newer → ¬s.circuits.Immortal workerId

/-! ## Circuits -/

namespace CircuitPhase

/-- The call has written the hash and not yet set its expiry. -/
def OwesExpire : CircuitPhase → Prop
  | .halfOpened _ _ => True
  | .recorded _ _ => True
  | _ => False

/-- The call is a `record_failure` that has not written its count. -/
def OwesCount : CircuitPhase → Prop
  | .invoked call => call.isFailure = true
  | .cooled call _ => call.isFailure = true
  | .halfOpened call _ => call.isFailure = true
  | .got _ _ => True
  | _ => False

theorem owesCount_afterGet {call : CircuitCall} {current : CircuitSnapshot}
    (h : call.isFailure = true) : (call.afterGet current).OwesCount := by
  cases call with
  | get => cases h
  | recordFailure => trivial
  | recordSuccess => cases h

theorem not_inProgress_of_quiescent {τ : Type*} {s : CircuitSystem τ} (h : s.Quiescent)
    (t : τ) : ¬(s.calls t).OwesCount ∧ ¬(s.calls t).OwesExpire := by
  rcases h t with hidle | ⟨call, snapshot, hreturned⟩
  · rw [hidle]
    exact ⟨id, id⟩
  · rw [hreturned]
    exact ⟨id, id⟩

end CircuitPhase

section Circuits

variable {τ : Type*} {limits : String → ℤ} {service : CircuitBreakerService}
  {s s' : RedisSystem τ} {e : RedisEvent τ} {workerId : String}

theorem RedisSystem.stored_self {e : CircuitEvent τ} (h : ∀ u, e ≠ .expire u) :
    s.stored service workerId e (s.circuit workerId).hash = s.circuits workerId := by
  unfold stored circuit
  cases hentry : s.circuits workerId with
  | none => rfl
  | some entry =>
      cases e with
      | expire u => exact absurd rfl (h u)
      | invoked => rfl
      | hgetall => rfl
      | hsetHalfOpen => rfl
      | hsetFailure => rfl
      | delete => rfl
      | returned => rfl

/-- The circuit of a worker has an expiry or is about to get one. -/
def CircuitExpiring (workerId : String) (s : RedisSystem τ) : Prop :=
  ¬s.circuits.Immortal workerId ∨ ∃ t, (s.breakers workerId t).OwesExpire

variable [DecidableEq τ]

/-- What a step of call `t` may do: leave the hash, write it and owe its expiry, set its
expiry, or delete it. -/
theorem CircuitStep.writes {c next : CircuitSystem τ} {e : CircuitEvent τ}
    (hstep : CircuitStep service c e next) :
    ∃ t phase, next.calls = Function.update c.calls t phase ∧
      ((next.hash = c.hash ∧ (∀ u, e ≠ .expire u) ∧ ¬(c.calls t).OwesExpire ∧
          ((c.calls t).OwesCount → phase.OwesCount)) ∨
        phase.OwesExpire ∨ (∃ u, e = .expire u) ∨ next.hash = none) := by
  cases hstep with
  | @invoked t call hidle =>
      refine ⟨t, _, rfl, Or.inl ⟨rfl, nofun, ?_, ?_⟩⟩
      · rw [hidle]
        exact id
      · rw [hidle]
        exact False.elim
  | @readAbsent t call hphase _ _ _ =>
      refine ⟨t, _, rfl, Or.inl ⟨rfl, nofun, ?_, ?_⟩⟩
      · rw [hphase]
        exact id
      · rw [hphase]
        exact CircuitPhase.owesCount_afterGet
  | @readHash t call raw now hphase _ _ _ =>
      refine ⟨t, _, rfl, Or.inl ⟨rfl, nofun, ?_, ?_⟩⟩
      · rw [hphase]
        exact id
      · rw [hphase]
        intro hfailure
        split
        · exact hfailure
        · exact CircuitPhase.owesCount_afterGet hfailure
  | hsetHalfOpen _ => exact ⟨_, _, rfl, Or.inr (Or.inl trivial)⟩
  | expireHalfOpen _ => exact ⟨_, _, rfl, Or.inr (Or.inr (Or.inl ⟨_, rfl⟩))⟩
  | hsetFailure _ _ _ => exact ⟨_, _, rfl, Or.inr (Or.inl trivial)⟩
  | expireFailure _ => exact ⟨_, _, rfl, Or.inr (Or.inr (Or.inl ⟨_, rfl⟩))⟩
  | delete _ => exact ⟨_, _, rfl, Or.inr (Or.inr (Or.inr rfl))⟩
  | @returned t call snapshot hphase =>
      refine ⟨t, _, rfl, Or.inl ⟨rfl, nofun, ?_, ?_⟩⟩
      · rw [hphase]
        exact id
      · rw [hphase]
        exact False.elim

theorem CircuitExpiring.circuit {e : CircuitEvent τ} {next : CircuitSystem τ} {t : τ}
    (h : (s.breakers workerId t).OwesCount ∨ CircuitExpiring workerId s)
    (hstep : CircuitStep service (s.circuit workerId) e next) :
    (next.calls t).OwesCount ∨
      ¬(∃ entry, s.stored service workerId e next.hash = some entry ∧
          entry.expiresAt = none) ∨
        ∃ u, (next.calls u).OwesExpire := by
  obtain ⟨u, phase, hcalls, ⟨hhash, hexpire, howes, hcount⟩ | howes | ⟨v, rfl⟩ | hnone⟩ :=
    hstep.writes
  · rw [hcalls, hhash, RedisSystem.stored_self hexpire]
    rcases h with hold | himmortal | ⟨v, hv⟩
    · left
      by_cases htu : t = u
      · subst htu
        rw [Function.update_self]
        exact hcount hold
      · rw [Function.update_of_ne htu]
        exact hold
    · exact Or.inr (Or.inl himmortal)
    · refine Or.inr (Or.inr ⟨v, ?_⟩)
      have hvu : v ≠ u := by
        rintro rfl
        exact howes hv
      rw [Function.update_of_ne hvu]
      exact hv
  · refine Or.inr (Or.inr ⟨u, ?_⟩)
    rw [hcalls, Function.update_self]
    exact howes
  · refine Or.inr (Or.inl ?_)
    rintro ⟨entry, hentry, hforever⟩
    obtain ⟨raw, -, rfl⟩ := Option.map_eq_some_iff.mp hentry
    cases hforever
  · refine Or.inr (Or.inl ?_)
    rintro ⟨entry, hentry, -⟩
    rw [hnone] at hentry
    cases hentry

/-- Until a `record_failure` has written its count it owes it, and from then on the
circuit has an expiry or is about to get one, unless some call stops. -/
theorem circuitExpiring_step {t : τ}
    (h : (s.breakers workerId t).OwesCount ∨ CircuitExpiring workerId s)
    (hstep : RedisStep limits service s e s') :
    e.IsStop ∨ (s'.breakers workerId t).OwesCount ∨ CircuitExpiring workerId s' := by
  cases hstep with
  | limiter _ => exact Or.inr h
  | circuitStopped _ => exact Or.inl trivial
  | @circuit workerId' e next hstep =>
      right
      by_cases hworker : workerId = workerId'
      · subst hworker
        have hnew := CircuitExpiring.circuit h hstep
        unfold CircuitExpiring Expiring.Store.Immortal
        simpa only [Function.update_self] using hnew
      · unfold CircuitExpiring Expiring.Store.Immortal at h ⊢
        simpa only [Function.update_of_ne hworker] using h
  | @circuitLapsed workerId' hdue =>
      right
      rcases h with hcount | himmortal | howes
      · exact Or.inl hcount
      · exact Or.inr (Or.inl fun h => himmortal (Expiring.Store.immortal_remove_iff.mp h).2)
      · exact Or.inr (Or.inr howes)

/-- After a completed `record_failure` and no stop since its start the circuit has an
expiry. -/
theorem not_immortal_of_completedFailure {now : ℚ} {newer older : List (RedisEvent τ)}
    (hrun : RedisRun limits service now (newer ++ older) s) (hquiet : s.Quiescent)
    (hstops : ∀ e ∈ newer, ¬e.IsStop) (hcompleted : CompletedFailure workerId newer) :
    ¬s.circuits.Immortal workerId := by
  obtain ⟨t, call, snapshot, hfailure, hinvoked, -⟩ := hcompleted
  obtain ⟨after, before, rfl⟩ := List.append_of_mem hinvoked
  rw [List.append_assoc] at hrun
  obtain ⟨mid, hbefore, hafter⟩ := hrun.split
  have hmid : (mid.breakers workerId t).OwesCount := by
    obtain ⟨prev, -, hstep⟩ := hbefore.of_cons
    cases hstep with
    | circuit hstep =>
        cases hstep with
        | invoked hidle =>
            simp only [Function.update_self, CircuitSystem.move]
            exact hfailure
  have hend := hafter.kept_or_mem (P := fun s =>
      (s.breakers workerId t).OwesCount ∨ CircuitExpiring workerId s)
    (Q := RedisEvent.IsStop) (Or.inl hmid) fun _ _ _ h hstep => circuitExpiring_step h hstep
  obtain ⟨hcount, howes⟩ : ¬(s.breakers workerId t).OwesCount ∧
      ∀ u, ¬(s.breakers workerId u).OwesExpire :=
    ⟨(CircuitPhase.not_inProgress_of_quiescent (hquiet.2 workerId) t).1,
      fun u => (CircuitPhase.not_inProgress_of_quiescent (hquiet.2 workerId) u).2⟩
  rcases hend with ⟨e, he, hstop⟩ | hold | himmortal | ⟨u, hu⟩
  · exact absurd hstop (hstops e (List.mem_append_left _ he))
  · exact absurd hold hcount
  · exact himmortal
  · exact absurd hu (howes u)

end Circuits

/-! ## Counters -/

/-- The call has created the counter and not given it its expiry. -/
def LimiterPhase.Owes (keyId : String) (m : ClockMinute) (phase : LimiterPhase) : Prop :=
  phase = .created keyId m ∨ phase = .stopped keyId m true

section Counters

variable {τ : Type*}

/-- The counters without an expiry are those that some call owes one, and no two calls
owe the same. -/
structure ExpiryOwed (s : LimiterSystem τ) : Prop where
  positive : ∀ key entry, s.counters key = some entry → 1 ≤ entry.value
  owed : ∀ keyId m, s.counters.Immortal (counterKey keyId m) ↔
    ∃ t, (s.calls t).Owes keyId m
  unique : ∀ t u keyId m, (s.calls t).Owes keyId m → (s.calls u).Owes keyId m → t = u

theorem expiryOwed_start {now : ℚ} : ExpiryOwed (.start now : LimiterSystem τ) where
  positive key entry hentry := by cases hentry
  owed keyId m := by
    refine iff_of_false Expiring.Store.not_immortal_empty ?_
    rintro ⟨t, hcreated | hstopped⟩
    · cases hcreated
    · cases hstopped
  unique t u keyId m howes _ := by
    rcases howes with hcreated | hstopped
    · cases hcreated
    · cases hstopped

variable {s s' : LimiterSystem τ} {e : LimiterEvent τ}

theorem ExpiryOwed.of_owes_iff (h : ExpiryOwed s)
    (hpositive : ∀ key entry, s'.counters key = some entry → 1 ≤ entry.value)
    (himmortal : ∀ keyId m, s'.counters.Immortal (counterKey keyId m) ↔
      s.counters.Immortal (counterKey keyId m))
    (howes : ∀ t keyId m, (s'.calls t).Owes keyId m ↔ (s.calls t).Owes keyId m) :
    ExpiryOwed s' where
  positive := hpositive
  owed keyId m := by
    rw [himmortal, h.owed]
    exact exists_congr fun t => (howes t keyId m).symm
  unique t u keyId m ht hu :=
    h.unique t u keyId m ((howes t keyId m).mp ht) ((howes u keyId m).mp hu)

theorem LimiterPhase.not_owes_invoked {keyId keyId' : String} {m m' : ClockMinute} :
    ¬(LimiterPhase.invoked keyId' m').Owes keyId m := by
  rintro (h | h)
  · cases h
  · cases h

theorem LimiterPhase.not_owes_counted {keyId keyId' : String} {m m' : ClockMinute}
    {count : ℕ} : ¬(LimiterPhase.counted keyId' m' count).Owes keyId m := by
  rintro (h | h)
  · cases h
  · cases h

theorem LimiterPhase.owes_created_iff {keyId keyId' : String} {m m' : ClockMinute} :
    (LimiterPhase.created keyId' m').Owes keyId m ↔ keyId' = keyId ∧ m' = m := by
  simp [LimiterPhase.Owes]

theorem LimiterPhase.owes_halt {phase phase' : LimiterPhase} {keyId : String}
    {m : ClockMinute} (h : phase.halt = some phase') :
    phase'.Owes keyId m ↔ phase.Owes keyId m := by
  cases phase with
  | idle => cases h
  | returned => cases h
  | stopped => cases h
  | invoked => cases h; simp [LimiterPhase.Owes]
  | created => cases h; simp [LimiterPhase.Owes]
  | counted => cases h; simp [LimiterPhase.Owes]

variable [DecidableEq τ] {t : τ}

theorem LimiterPhase.owes_update_iff {calls : τ → LimiterPhase} {phase : LimiterPhase}
    {u : τ} {keyId : String} {m : ClockMinute} (hquiet : ¬(calls t).Owes keyId m) :
    (Function.update calls t phase u).Owes keyId m ↔
      (u = t ∧ phase.Owes keyId m) ∨ (calls u).Owes keyId m := by
  by_cases hut : u = t
  · subst hut
    simp [hquiet]
  · simp [hut]

theorem ExpiryOwed.of_move (h : ExpiryOwed s) {phase : LimiterPhase}
    (howes : ∀ keyId m, phase.Owes keyId m ↔ (s.calls t).Owes keyId m) :
    ExpiryOwed (s.move t phase) := by
  refine h.of_owes_iff h.positive (fun _ _ => Iff.rfl) ?_
  intro u keyId m
  change (Function.update s.calls t phase u).Owes keyId m ↔ _
  by_cases hut : u = t
  · subst hut
    rw [Function.update_self, howes]
  · rw [Function.update_of_ne hut]

theorem ExpiryOwed.of_incremented (h : ExpiryOwed s) {keyId : String} {m : ClockMinute}
    {count : ℕ} {counters : Counters} (hphase : s.calls t = .invoked keyId m)
    (hincr : incr s.counters (counterKey keyId m) = (count, counters)) :
    ExpiryOwed { s with
      counters := counters
      calls := Function.update s.calls t (.afterIncr keyId m count) } := by
  rw [incr, Prod.mk.injEq] at hincr
  obtain ⟨hcount, rfl⟩ := hincr
  have hpositive : ∀ key entry,
      s.counters.write (counterKey keyId m) (stored s.counters (counterKey keyId m) + 1) key =
        some entry → 1 ≤ entry.value := by
    intro key entry hentry
    by_cases hkey : key = counterKey keyId m
    · rw [hkey, Expiring.Store.write_self, Option.some.injEq] at hentry
      rw [← hentry]
      exact Nat.le_add_left 1 _
    · rw [Expiring.Store.write_of_ne hkey] at hentry
      exact h.positive key entry hentry
  have hquiet : ∀ keyId' m', ¬(s.calls t).Owes keyId' m' := by
    intro keyId' m'
    rw [hphase]
    exact LimiterPhase.not_owes_invoked
  cases hold : s.counters (counterKey keyId m) with
  | none =>
      have hphase' : LimiterPhase.afterIncr keyId m count = .created keyId m := by
        rw [LimiterPhase.afterIncr, if_pos]
        rw [← hcount, stored, hold]
        rfl
      have hfree : ∀ u, ¬(s.calls u).Owes keyId m := by
        intro u hu
        obtain ⟨entry, hentry, -⟩ := (h.owed keyId m).mpr ⟨u, hu⟩
        rw [hold] at hentry
        cases hentry
      have howes : ∀ u keyId' m', (Function.update s.calls t (.afterIncr keyId m count) u).Owes
          keyId' m' ↔ (u = t ∧ keyId = keyId' ∧ m = m') ∨ (s.calls u).Owes keyId' m' := by
        intro u keyId' m'
        rw [LimiterPhase.owes_update_iff (hquiet keyId' m'), hphase',
          LimiterPhase.owes_created_iff]
      refine ⟨hpositive, ?_, ?_⟩
      · intro keyId' m'
        simp only [Expiring.Store.immortal_write_iff, h.owed, howes]
        constructor
        · rintro (⟨u, hu⟩ | ⟨hkey, -⟩)
          · exact ⟨u, .inr hu⟩
          · obtain ⟨rfl, rfl⟩ := counterKey_inj hkey
            exact ⟨t, .inl ⟨rfl, rfl, rfl⟩⟩
        · rintro ⟨u, ⟨-, rfl, rfl⟩ | hu⟩
          · exact .inr ⟨rfl, hold⟩
          · exact .inl ⟨u, hu⟩
      · intro u v keyId' m' hu hv
        rcases (howes u keyId' m').mp hu with ⟨rfl, rfl, rfl⟩ | hu
        · rcases (howes v keyId m).mp hv with ⟨rfl, -⟩ | hv
          · rfl
          · exact absurd hv (hfree v)
        · rcases (howes v keyId' m').mp hv with ⟨-, rfl, rfl⟩ | hv
          · exact absurd hu (hfree u)
          · exact h.unique u v keyId' m' hu hv
  | some entry =>
      have hphase' : LimiterPhase.afterIncr keyId m count = .counted keyId m count := by
        rw [LimiterPhase.afterIncr, if_neg]
        have hpos := h.positive _ entry hold
        rw [← hcount, stored, hold, Option.elim_some]
        omega
      refine h.of_owes_iff hpositive ?_ ?_
      · intro keyId' m'
        dsimp only
        rw [Expiring.Store.immortal_write_iff, hold]
        simp
      · intro u keyId' m'
        dsimp only
        rw [LimiterPhase.owes_update_iff (hquiet keyId' m'), hphase']
        exact or_iff_right fun hboth => LimiterPhase.not_owes_counted hboth.2

theorem ExpiryOwed.of_expired (h : ExpiryOwed s) {keyId : String} {m : ClockMinute}
    {instant : ℚ} (hphase : s.calls t = .created keyId m) :
    ExpiryOwed { s with
      counters := s.counters.expire (counterKey keyId m) instant
      calls := Function.update s.calls t (.counted keyId m 1) } := by
  have howed : (s.calls t).Owes keyId m := Or.inl hphase
  have hiff : ∀ u keyId' m', (Function.update s.calls t (.counted keyId m 1) u).Owes keyId' m' ↔
      u ≠ t ∧ (s.calls u).Owes keyId' m' := by
    intro u keyId' m'
    by_cases hut : u = t
    · subst hut
      rw [Function.update_self]
      exact iff_of_false LimiterPhase.not_owes_counted fun hboth => hboth.1 rfl
    · rw [Function.update_of_ne hut]
      exact (and_iff_right hut).symm
  refine ⟨?_, ?_, ?_⟩
  · intro key entry hentry
    dsimp only at hentry
    by_cases hkey : key = counterKey keyId m
    · rw [hkey, Expiring.Store.expire_self, Option.map_eq_some_iff] at hentry
      obtain ⟨old, hold, rfl⟩ := hentry
      exact h.positive _ old hold
    · rw [Expiring.Store.expire_of_ne hkey] at hentry
      exact h.positive key entry hentry
  · intro keyId' m'
    dsimp only
    simp only [Expiring.Store.immortal_expire_iff, h.owed, hiff]
    constructor
    · rintro ⟨hkey, u, hu⟩
      refine ⟨u, ?_, hu⟩
      rintro rfl
      rw [hphase, LimiterPhase.owes_created_iff] at hu
      exact hkey (by rw [hu.1, hu.2])
    · rintro ⟨u, hut, hu⟩
      refine ⟨?_, u, hu⟩
      intro hkey
      obtain ⟨rfl, rfl⟩ := counterKey_inj hkey
      exact hut (h.unique u t _ _ hu howed)
  · intro u v keyId' m' hu hv
    exact h.unique u v keyId' m' ((hiff u keyId' m').mp hu).2 ((hiff v keyId' m').mp hv).2

theorem ExpiryOwed.step {limits : String → ℤ} (h : ExpiryOwed s)
    (hstep : LimiterStep limits s e s') : ExpiryOwed s' := by
  cases hstep with
  | ticked _ => exact h.of_owes_iff h.positive (fun _ _ => Iff.rfl) fun _ _ _ => Iff.rfl
  | invoked hidle =>
      refine h.of_move fun keyId m => ?_
      rw [hidle]
      exact iff_of_false LimiterPhase.not_owes_invoked (by simp [LimiterPhase.Owes])
  | incremented hphase hincr => exact h.of_incremented hphase hincr
  | expired hphase => exact h.of_expired hphase
  | returned hphase _ =>
      refine h.of_move fun keyId m => ?_
      rw [hphase]
      exact iff_of_false (by simp [LimiterPhase.Owes]) LimiterPhase.not_owes_counted
  | stopped hhalt => exact h.of_move fun _ _ => LimiterPhase.owes_halt hhalt
  | lapsed hdue =>
      refine h.of_owes_iff ?_ ?_ fun _ _ _ => Iff.rfl
      · intro key entry hentry
        dsimp only at hentry
        rw [Expiring.Store.remove, Function.update_apply] at hentry
        split at hentry
        · cases hentry
        · exact h.positive key entry hentry
      · intro keyId m
        dsimp only
        rw [Expiring.Store.immortal_remove_iff, and_iff_right_iff_imp]
        rintro himmortal rfl
        exact hdue.not_immortal himmortal

end Counters

/-! ## Keys when no call is in progress -/

section Expiries

variable {τ : Type*} [DecidableEq τ] {limits : String → ℤ}
  {service : CircuitBreakerService} {now : ℚ} {s : RedisSystem τ}

theorem expiryOwed_of_run {history : List (RedisEvent τ)}
    (hrun : RedisRun limits service now history s) : ExpiryOwed s.limiter := by
  refine hrun.invariant (I := fun s => ExpiryOwed s.limiter) expiryOwed_start ?_
  intro s e s' h hstep
  cases hstep with
  | limiter hstep => exact h.step hstep
  | circuit _ => exact h
  | circuitStopped _ => exact h
  | circuitLapsed _ => exact h

/-- When no call is in progress, every circuit on which a `record_failure` was started
and completed after the last stop has an expiry.  A counter has one exactly when no call
has stopped between the `INCR` that created it and its `EXPIRE`. -/
theorem expiries_of_quiescent {newer older : List (RedisEvent τ)}
    (hrun : RedisRun limits service now (newer ++ older) s) (hquiet : s.Quiescent)
    (hstops : ∀ e ∈ newer, ¬e.IsStop) :
    (∀ workerId, CompletedFailure workerId newer → ¬s.circuits.Immortal workerId) ∧
      ∀ keyId m, ¬s.limiter.counters.Immortal (counterKey keyId m) ↔
        ∀ t, s.limiter.calls t ≠ .stopped keyId m true := by
  refine ⟨fun workerId => not_immortal_of_completedFailure hrun hquiet hstops, ?_⟩
  intro keyId m
  rw [(expiryOwed_of_run hrun).owed, not_exists]
  apply forall_congr'
  intro t
  have hnot : s.limiter.calls t ≠ .created keyId m := by
    intro hcreated
    have hhalt := hquiet.1 t
    rw [hcreated] at hhalt
    cases hhalt
  constructor
  · intro howes hstopped
    exact howes (Or.inr hstopped)
  · rintro hstopped (hcreated | howes)
    · exact hnot hcreated
    · exact hstopped howes

/-- A completed call on a counter and a completed failure of a worker. -/
theorem expiries_of_quiescent_two_calls :
    ∃ (history : List (RedisEvent Unit)) (s : RedisSystem Unit),
      RedisRun (fun _ => 60) ⟨3, 30⟩ 0 history s ∧
        (CompletedFailure "worker" history ∧ ¬s.circuits.Immortal "worker") ∧
        CompletedCount "key" epochMinute history ∧
        ¬s.limiter.counters.Immortal (counterKey "key" epochMinute) := by
  have hcount : RedisRun (fun _ => 60) ⟨3, 30⟩ 0
      [.limiter (.returned () "key" epochMinute true), .limiter (.expired ()),
        .limiter (.incremented () "key" epochMinute 1),
        .limiter (.invoked () "key" epochMinute)] _ :=
    (((Run.start.next
      (.limiter (.invoked rfl))).next
      (.limiter (.incremented rfl rfl))).next
      (.limiter (.expired rfl))).next
      (.limiter (.returned (rfl : _ = LimiterPhase.counted "key" epochMinute 1) rfl))
  have hrun : RedisRun (fun _ => 60) ⟨3, 30⟩ 0
      ([.circuit "worker" (.returned () ⟨.closed, 1, none⟩), .circuit "worker" (.expire ()),
        .circuit "worker" (.hsetFailure ()), .circuit "worker" (.hgetall ()),
        .circuit "worker" (.invoked () (.recordFailure none none)),
        .limiter (.returned () "key" epochMinute true), .limiter (.expired ()),
        .limiter (.incremented () "key" epochMinute 1),
        .limiter (.invoked () "key" epochMinute)] ++ []) _ :=
    ((((hcount.next
      (.circuit (.invoked rfl))).next
      (.circuit (.readAbsent rfl rfl rfl rfl))).next
      (.circuit (@CircuitStep.hsetFailure _ _ _ _ _ _ _ ⟨.closed, 1, none⟩ 0 rfl rfl rfl))).next
      (.circuit (.expireFailure rfl))).next
      (.circuit (.returned rfl))
  obtain ⟨s, hrun, hcalls, hbreakers⟩ : ∃ s, RedisRun _ _ _ _ s ∧
      s.limiter.calls () = .returned "key" epochMinute true ∧
      ∀ workerId, (s.circuit workerId).Quiescent := by
    refine ⟨_, hrun, rfl, ?_⟩
    intro workerId t
    by_cases hworker : workerId = "worker"
    · subst hworker
      exact Or.inr ⟨.recordFailure none none, ⟨.closed, 1, none⟩, rfl⟩
    · left
      simp only [RedisSystem.circuit, Function.update_of_ne hworker]
      rfl
  obtain ⟨hcircuits, hcounters⟩ := expiries_of_quiescent hrun
    ⟨fun t => by rw [hcalls]; rfl, hbreakers⟩ (by simp [RedisEvent.IsStop])
  refine ⟨_, s, hrun, ⟨?_, hcircuits "worker" ?_⟩, ?_, ?_⟩
  · exact ⟨(), .recordFailure none none, ⟨.closed, 1, none⟩, rfl, by simp, by simp⟩
  · exact ⟨(), .recordFailure none none, ⟨.closed, 1, none⟩, rfl, by simp, by simp⟩
  · exact ⟨(), true, by simp, by simp⟩
  · exact (hcounters "key" epochMinute).mpr fun t => by simp [hcalls]

/-- A first call stops before its `EXPIRE` and a second one completes. -/
theorem not_ttlsMandatory : ¬TtlsMandatory (fun _ => 60) ⟨3, 30⟩ := by
  intro h
  have hrun : RedisRun (fun _ => 60) ⟨3, 30⟩ 0
      ([.limiter (.returned true "key" epochMinute true),
          .limiter (.incremented true "key" epochMinute 2),
          .limiter (.invoked true "key" epochMinute)] ++
        [.limiter (.stopped false), .limiter (.incremented false "key" epochMinute 1),
          .limiter (.invoked false "key" epochMinute)]) _ :=
    (((((Run.start.next
      (.limiter (.invoked rfl))).next
      (.limiter (.incremented rfl rfl))).next
      (.limiter (.stopped rfl))).next
      (.limiter (.invoked rfl))).next
      (.limiter (.incremented rfl rfl))).next
      (.limiter (.returned (rfl : _ = LimiterPhase.counted "key" epochMinute 2) rfl))
  refine (h Bool 0 _ _ _ hrun ⟨?_, ?_⟩ ?_).1 "key" epochMinute ?_ ?_
  · intro t
    cases t with
    | false => rfl
    | true => rfl
  · exact fun _ _ => Or.inl rfl
  · simp [RedisEvent.IsStop]
  · exact ⟨true, true, by simp, by simp⟩
  · exact ((expiryOwed_of_run hrun).owed _ _).mpr ⟨false, Or.inr rfl⟩

end Expiries

end OrbiGateway
