import OrbiGateway.Library.Linearization
import OrbiGateway.Services.CircuitBreaker

/-!
# Concurrent calls of the circuit breaker

The calls for one worker, cut at their Redis commands.  `get` and `record_failure` read
the hash with one command and write it with later ones, and `record_success` deletes it,
so the commands of other calls may fall in between.  No key expires.
-/

namespace OrbiGateway

open Transition Linearization

/-! ## Calls -/

/-- A call with the clock readings that it makes. -/
inductive CircuitCall
  | get (checkedAt : Option ℚ)
  | recordFailure (checkedAt failedAt : Option ℚ)
  | recordSuccess
  deriving DecidableEq

namespace CircuitCall

/-- The reading that `get` makes. -/
def checkedAt : CircuitCall → Option ℚ
  | .get checkedAt => checkedAt
  | .recordFailure checkedAt _ => checkedAt
  | .recordSuccess => none

/-- The reading for `opened_at`. -/
def failedAt : CircuitCall → Option ℚ
  | .recordFailure _ failedAt => failedAt
  | _ => none

/-- The call begins with `HGETALL`. -/
def readsHash : CircuitCall → Bool
  | .recordSuccess => false
  | _ => true

def isFailure : CircuitCall → Bool
  | .recordFailure _ _ => true
  | _ => false

end CircuitCall

/-- What an uninterrupted call answers and leaves behind.  Where it has made no reading
the clock may show anything. -/
def CircuitBreakerService.Allows (service : CircuitBreakerService)
    (hash : Option CircuitHash) (call : CircuitCall) (snapshot : CircuitSnapshot)
    (hash' : Option CircuitHash) : Prop :=
  match call with
  | .get checkedAt => ∃ now, (∀ reading ∈ checkedAt, reading = now) ∧
      service.get hash now = (snapshot, hash')
  | .recordFailure checkedAt failedAt => ∃ now later,
      (∀ reading ∈ checkedAt, reading = now) ∧ (∀ reading ∈ failedAt, reading = later) ∧
        service.recordFailure hash now later = (snapshot, hash')
  | .recordSuccess => CircuitBreakerService.recordSuccess = (snapshot, hash')

/-! ## States and steps -/

/-- How far a call has come, with what it has read. -/
inductive CircuitPhase
  | idle
  | invoked (call : CircuitCall)
  | cooled (call : CircuitCall) (raw : CircuitHash)
  | halfOpened (call : CircuitCall) (raw : CircuitHash)
  | got (call : CircuitCall) (current : CircuitSnapshot)
  | recorded (call : CircuitCall) (snapshot : CircuitSnapshot)
  | finished (call : CircuitCall) (snapshot : CircuitSnapshot)
  | returned (call : CircuitCall) (snapshot : CircuitSnapshot)

/-- Where the call goes on when its `get` has this snapshot. -/
def CircuitCall.afterGet (call : CircuitCall) (current : CircuitSnapshot) :
    CircuitPhase :=
  match call with
  | .recordFailure _ _ => .got call current
  | _ => .finished call current

/-- The stored hash and the calls. -/
@[ext] structure CircuitSystem (τ : Type*) where
  hash : Option CircuitHash
  calls : τ → CircuitPhase

inductive CircuitEvent (τ : Type*)
  | invoked (t : τ) (call : CircuitCall)
  | hgetall (t : τ)
  | hsetHalfOpen (t : τ)
  | hsetFailure (t : τ)
  | expire (t : τ)
  | delete (t : τ)
  | returned (t : τ) (snapshot : CircuitSnapshot)

/-- What the caller sees of the step. -/
def CircuitEvent.shown {τ : Type*} :
    CircuitEvent τ → Action τ CircuitCall CircuitSnapshot
  | .invoked t call => .invoked t call
  | .returned t snapshot => .returned t snapshot
  | _ => .internal

section Steps

variable {τ : Type*}

def CircuitSystem.start : CircuitSystem τ where
  hash := none
  calls _ := .idle

variable [DecidableEq τ]

/-- Call `t` moves on and leaves the hash alone. -/
def CircuitSystem.move (s : CircuitSystem τ) (t : τ) (phase : CircuitPhase) :
    CircuitSystem τ :=
  { s with calls := Function.update s.calls t phase }

/-- One Redis command, invocation or answer of a call. -/
inductive CircuitStep (service : CircuitBreakerService) :
    CircuitSystem τ → CircuitEvent τ → CircuitSystem τ → Prop
  | invoked {s : CircuitSystem τ} {t : τ} {call : CircuitCall}
      (hidle : s.calls t = .idle) :
      CircuitStep service s (.invoked t call) (s.move t (.invoked call))
  | readAbsent {s : CircuitSystem τ} {t : τ} {call : CircuitCall}
      (hphase : s.calls t = .invoked call) (hreads : call.readsHash = true)
      (hhash : s.hash = none) (hclock : call.checkedAt = none) :
      CircuitStep service s (.hgetall t) (s.move t (call.afterGet .initial))
  | readHash {s : CircuitSystem τ} {t : τ} {call : CircuitCall} {raw : CircuitHash}
      {now : ℚ} (hphase : s.calls t = .invoked call) (hreads : call.readsHash = true)
      (hhash : s.hash = some raw)
      (hclock : call.checkedAt = if raw.readsClock then some now else none) :
      CircuitStep service s (.hgetall t)
        (s.move t (if service.isCooled raw now then .cooled call raw
          else call.afterGet raw.snapshot))
  | hsetHalfOpen {s : CircuitSystem τ} {t : τ} {call : CircuitCall} {raw : CircuitHash}
      (hphase : s.calls t = .cooled call raw) :
      CircuitStep service s (.hsetHalfOpen t)
        { hash := some (CircuitHash.hsetState s.hash .halfOpen)
          calls := Function.update s.calls t (.halfOpened call raw) }
  | expireHalfOpen {s : CircuitSystem τ} {t : τ} {call : CircuitCall} {raw : CircuitHash}
      (hphase : s.calls t = .halfOpened call raw) :
      CircuitStep service s (.expire t)
        (s.move t (call.afterGet { raw.snapshot with state := .halfOpen }))
  | hsetFailure {s : CircuitSystem τ} {t : τ} {call : CircuitCall}
      {current snapshot : CircuitSnapshot} {now : ℚ}
      (hphase : s.calls t = .got call current)
      (hsnapshot : snapshot = service.failed current now)
      (hclock : call.failedAt = if snapshot.state = .opened then some now else none) :
      CircuitStep service s (.hsetFailure t)
        { hash := some (CircuitHash.hset s.hash snapshot)
          calls := Function.update s.calls t (.recorded call snapshot) }
  | expireFailure {s : CircuitSystem τ} {t : τ} {call : CircuitCall}
      {snapshot : CircuitSnapshot} (hphase : s.calls t = .recorded call snapshot) :
      CircuitStep service s (.expire t) (s.move t (.finished call snapshot))
  | delete {s : CircuitSystem τ} {t : τ} (hphase : s.calls t = .invoked .recordSuccess) :
      CircuitStep service s (.delete t)
        { hash := none
          calls := Function.update s.calls t (.finished .recordSuccess .initial) }
  | returned {s : CircuitSystem τ} {t : τ} {call : CircuitCall}
      {snapshot : CircuitSnapshot} (hphase : s.calls t = .finished call snapshot) :
      CircuitStep service s (.returned t snapshot) (s.move t (.returned call snapshot))

/-- A run of calls that begins without a hash. -/
abbrev CircuitRun (service : CircuitBreakerService) (history : List (CircuitEvent τ))
    (s : CircuitSystem τ) : Prop :=
  Run (CircuitStep service) .start history s

end Steps

/-- No call is in progress. -/
def CircuitSystem.Quiescent {τ : Type*} (s : CircuitSystem τ) : Prop :=
  ∀ t, s.calls t = .idle ∨ ∃ call snapshot, s.calls t = .returned call snapshot

/-- Whatever the interleaving, what the calls have answered and left behind is what they
answer and leave behind one after another. -/
def CircuitLinearizable (service : CircuitBreakerService) : Prop :=
  ∀ (τ : Type) [DecidableEq τ] (history : List (CircuitEvent τ)) (s : CircuitSystem τ),
    CircuitRun service history s → s.Quiescent →
      Linearizable service.Allows none (history.map CircuitEvent.shown) s.hash

/-- What the step overwrites is what its call has read: an `HSET` of a failure count
finds the count that was read, and an `HSET` of `HALF_OPEN` the count and the
`opened_at` that were read. -/
def CircuitSystem.Current {τ : Type*} (s : CircuitSystem τ) : CircuitEvent τ → Prop
  | .hsetHalfOpen t => ∀ call raw, s.calls t = .cooled call raw →
      ∃ stored, s.hash = some stored ∧ stored.failures = raw.failures ∧
        stored.openedAt = raw.openedAt
  | .hsetFailure t => ∀ call current, s.calls t = .got call current →
      CircuitHash.failureCount s.hash = current.failures
  | _ => True

/-! ## Linearization points -/

namespace CircuitPhase

/-- A `get` takes effect with the command that decides its answer: `HGETALL`, or the
`HSET` of `HALF_OPEN`.  A `record_failure` takes effect with the `HSET` of its count. -/
def status : CircuitPhase → Status CircuitCall CircuitSnapshot
  | .idle => .idle
  | .invoked call => .pending call
  | .cooled call _ => .pending call
  | .halfOpened call raw =>
      if call.isFailure then .pending call
      else .answered call { raw.snapshot with state := .halfOpen }
  | .got call _ => .pending call
  | .recorded call snapshot => .answered call snapshot
  | .finished call snapshot => .answered call snapshot
  | .returned call snapshot => .returned call snapshot

/-- The call is a `record_failure` that has read the hash and is going to write a
count. -/
def Owes : CircuitPhase → Prop
  | .halfOpened call _ => call.isFailure = true
  | .got _ _ => True
  | _ => False

/-- What the call has read came from a valid hash. -/
def Ok (service : CircuitBreakerService) : CircuitPhase → Prop
  | .cooled call raw => service.Valid (some raw) ∧ call.readsHash = true ∧
      ∃ now, call.checkedAt = some now ∧ service.isCooled raw now = true
  | .halfOpened call raw => service.Valid (some raw) ∧ call.readsHash = true ∧
      raw.state = .opened
  | .got call current => call.isFailure = true ∧
      (current.failures < service.threshold →
        current.state = .closed ∧ current.openedAt = none)
  | _ => True

end CircuitPhase

section Simulation

variable {τ : Type*}

/-- The stored hash is `HALF_OPEN` where that of the sequential order is still
`OPEN`. -/
def CircuitHash.Lags (value stored : Option CircuitHash) : Prop :=
  ∃ raw : CircuitHash, raw.openedAt ≠ none ∧ value = some { raw with state := .opened } ∧
    stored = some { raw with state := .halfOpen }

/-- The hash of the sequential order is the stored one, but for a `HALF_OPEN` that a
`record_failure` in progress has written. -/
structure Simulates (service : CircuitBreakerService) (s : CircuitSystem τ)
    (l : State τ CircuitCall CircuitSnapshot (Option CircuitHash)) : Prop where
  status : ∀ t, l.status t = (s.calls t).status
  valid : service.Valid l.value
  phases : ∀ t, (s.calls t).Ok service
  hash : l.value = s.hash ∨ (CircuitHash.Lags l.value s.hash ∧ ∃ t, (s.calls t).Owes)

variable {service : CircuitBreakerService} {s : CircuitSystem τ}
  {l : State τ CircuitCall CircuitSnapshot (Option CircuitHash)}

theorem Simulates.value_of_stored (h : Simulates service s l) {stored : CircuitHash}
    (hhash : s.hash = some stored) :
    ∃ state, l.value = some { stored with state := state } ∧
      (state = stored.state ∨
        state = .opened ∧ stored.state = .halfOpen ∧ stored.openedAt ≠ none) := by
  rcases h.hash with heq | ⟨⟨raw, hopened, hvalue, hstored⟩, -⟩
  · exact ⟨stored.state, heq.trans hhash, Or.inl rfl⟩
  · rw [hhash, Option.some.injEq] at hstored
    subst hstored
    exact ⟨.opened, hvalue, Or.inr ⟨rfl, rfl, hopened⟩⟩

theorem Simulates.status_of_phase (h : Simulates service s l) {t : τ}
    {phase : CircuitPhase} (hphase : s.calls t = phase) : l.status t = phase.status := by
  rw [h.status, hphase]

theorem Simulates.valid_hash (h : Simulates service s l) : service.Valid s.hash := by
  cases hhash : s.hash with
  | none => exact CircuitBreakerService.valid_none
  | some stored =>
      obtain ⟨state, hvalue, hstate⟩ := h.value_of_stored hhash
      have hvalid := h.valid
      rw [hvalue] at hvalid
      rcases hstate with rfl | ⟨rfl, hhalf, hopened⟩
      · exact hvalid
      · have hnot : stored.state ≠ .closed := by simp [hhalf]
        exact hvalid.setState hopened hnot

theorem Simulates.value_of_opened (h : Simulates service s l) {stored : CircuitHash}
    (hhash : s.hash = some stored) (hopened : stored.openedAt ≠ none) :
    ∃ state, l.value = some { stored with state := state } ∧ state ≠ .closed := by
  obtain ⟨state, hvalue, hstate⟩ := h.value_of_stored hhash
  refine ⟨state, hvalue, ?_⟩
  rcases hstate with rfl | ⟨rfl, -⟩
  · obtain ⟨_, -, -, -, hnone⟩ := h.valid_hash stored hhash
    exact fun hclosed => hopened (hnone.mp hclosed)
  · simp

theorem Simulates.value_of_absent (h : Simulates service s l) (hhash : s.hash = none) :
    l.value = none := by
  rcases h.hash with heq | ⟨⟨raw, -, -, hstored⟩, -⟩
  · exact heq.trans hhash
  · rw [hhash] at hstored
    cases hstored

theorem Simulates.failureCount_eq (h : Simulates service s l) :
    CircuitHash.failureCount l.value = CircuitHash.failureCount s.hash := by
  rcases h.hash with heq | ⟨⟨raw, -, hvalue, hstored⟩, -⟩
  · rw [heq]
  · rw [hvalue, hstored]
    rfl

/-- What an uninterrupted `get` does on the hash of the sequential order when one on the
stored hash leaves it alone. -/
theorem Simulates.allows_get (h : Simulates service s l) {raw : CircuitHash}
    {checkedAt : Option ℚ} {now : ℚ} (hhash : s.hash = some raw)
    (hclock : checkedAt = if raw.readsClock then some now else none)
    (hcooled : ¬service.isCooled raw now = true) :
    service.Allows l.value (.get checkedAt) raw.snapshot (some raw) := by
  obtain ⟨state, hvalue, rfl | ⟨rfl, hhalf, hopened⟩⟩ := h.value_of_stored hhash
  · refine ⟨now, ?_, ?_⟩
    · intro reading hreading
      rw [hclock] at hreading
      split at hreading
      · exact (Option.some.inj hreading).symm
      · cases hreading
    · rw [hvalue]
      exact if_neg hcooled
  · obtain ⟨openedAt, hopenedAt⟩ := Option.ne_none_iff_exists'.mp hopened
    have hraw : { raw with state := .halfOpen } = raw := by rw [← hhalf]
    refine ⟨openedAt + service.cooldown, ?_, ?_⟩
    · intro reading hreading
      rw [hclock, CircuitHash.readsClock, hhalf] at hreading
      cases hreading
    · have hget := @CircuitBreakerService.get_of_not_closed service
        { raw with state := .opened } openedAt (openedAt + service.cooldown) (by simp)
        hopenedAt (by simp)
      rw [hvalue, hget]
      exact congrArg (fun raw : CircuitHash => (raw.snapshot, some raw)) hraw

variable [DecidableEq τ]

theorem Simulates.update (h : Simulates service s l) {t : τ} {phase : CircuitPhase}
    {value hash : Option CircuitHash} (hok : phase.Ok service)
    (hvalid : service.Valid value)
    (hhash : value = hash ∨ (CircuitHash.Lags value hash ∧
      ∃ u, (Function.update s.calls t phase u).Owes)) :
    Simulates service ⟨hash, Function.update s.calls t phase⟩
      ⟨value, Function.update l.status t phase.status⟩ := by
  refine ⟨?_, hvalid, ?_, hhash⟩
  · intro u
    by_cases hut : u = t
    · subst hut
      simp
    · simp [Function.update_of_ne hut, h.status u]
  · exact (Function.forall_update_iff s.calls fun _ phase => phase.Ok service).mpr
      ⟨hok, fun u _ => h.phases u⟩

theorem Simulates.update_silent (h : Simulates service s l) {t : τ} {phase : CircuitPhase}
    {hash : Option CircuitHash} (hok : phase.Ok service)
    (hhash : l.value = hash ∨ (CircuitHash.Lags l.value hash ∧
      ∃ u, (Function.update s.calls t phase u).Owes))
    (hstatus : phase.status = (s.calls t).status) :
    Simulates service ⟨hash, Function.update s.calls t phase⟩ l := by
  have hupdated := h.update hok h.valid hhash
  rw [hstatus, ← h.status t, Function.update_eq_self] at hupdated
  exact hupdated

theorem Simulates.move (h : Simulates service s l) {t : τ} {phase phase' : CircuitPhase}
    (hphase : s.calls t = phase) (hok : phase'.Ok service)
    (howes : phase.Owes → phase'.Owes) :
    Simulates service (s.move t phase')
      { l with status := Function.update l.status t phase'.status } := by
  apply h.update hok h.valid
  rcases h.hash with heq | ⟨hlags, u, hu⟩
  · exact Or.inl heq
  · refine Or.inr ⟨hlags, u, ?_⟩
    by_cases hut : u = t
    · subst hut
      rw [Function.update_self]
      rw [hphase] at hu
      exact howes hu
    · rw [Function.update_of_ne hut]
      exact hu

theorem Simulates.silent (h : Simulates service s l) {t : τ} {phase phase' : CircuitPhase}
    (hphase : s.calls t = phase) (hok : phase'.Ok service)
    (howes : phase.Owes → phase'.Owes) (hstatus : phase'.status = phase.status) :
    ∃ l', Step service.Allows l .internal l' ∧ Simulates service (s.move t phase') l' := by
  have hmoved := h.move hphase hok howes
  rw [hstatus, ← h.status_of_phase hphase, Function.update_eq_self] at hmoved
  exact ⟨l, .internal, hmoved⟩

theorem Simulates.readAbsent (h : Simulates service s l) {t : τ} {call : CircuitCall}
    (hphase : s.calls t = .invoked call) (hreads : call.readsHash = true)
    (hhash : s.hash = none) (hclock : call.checkedAt = none) :
    ∃ l', Step service.Allows l .internal l' ∧
      Simulates service (s.move t (call.afterGet .initial)) l' := by
  have hpending : l.status t = .pending call := h.status_of_phase hphase
  cases call with
  | get checkedAt =>
      have hallows : service.Allows l.value (.get checkedAt) .initial l.value := by
        refine ⟨0, ?_, ?_⟩
        · intro reading hreading
          cases (show checkedAt = none from hclock)
          cases hreading
        · rw [h.value_of_absent hhash]
          rfl
      exact ⟨_, .linearized hpending hallows, h.move hphase trivial False.elim⟩
  | recordFailure checkedAt failedAt =>
      exact h.silent hphase ⟨rfl, fun _ => ⟨rfl, rfl⟩⟩ False.elim rfl
  | recordSuccess => cases hreads

theorem Simulates.readHash (h : Simulates service s l) {t : τ} {call : CircuitCall}
    {raw : CircuitHash} {now : ℚ} (hphase : s.calls t = .invoked call)
    (hreads : call.readsHash = true) (hhash : s.hash = some raw)
    (hclock : call.checkedAt = if raw.readsClock then some now else none) :
    ∃ l', Step service.Allows l .internal l' ∧
      Simulates service (s.move t (if service.isCooled raw now then .cooled call raw
        else call.afterGet raw.snapshot)) l' := by
  have hpending : l.status t = .pending call := h.status_of_phase hphase
  have hvalid : service.Valid (some raw) := hhash ▸ h.valid_hash
  by_cases hcooled : service.isCooled raw now = true
  · rw [if_pos hcooled]
    obtain ⟨hstate, openedAt, hopened, -⟩ := CircuitBreakerService.isCooled_spec hcooled
    have hchecked : call.checkedAt = some now := by
      rw [hclock, CircuitHash.readsClock, hstate, hopened]
      rfl
    exact h.silent hphase ⟨hvalid, hreads, now, hchecked, hcooled⟩ False.elim rfl
  · rw [if_neg hcooled]
    cases call with
    | get checkedAt =>
        exact ⟨_, .linearized hpending (h.allows_get hhash hclock hcooled),
          h.update trivial hvalid (Or.inl hhash.symm)⟩
    | recordFailure checkedAt failedAt =>
        exact h.silent hphase ⟨rfl, hvalid.closed_of_lt⟩ False.elim rfl
    | recordSuccess => cases hreads

theorem Simulates.hsetHalfOpen (h : Simulates service s l) {t : τ} {call : CircuitCall}
    {raw : CircuitHash} (hphase : s.calls t = .cooled call raw)
    (hcurrent : s.Current (.hsetHalfOpen t)) :
    ∃ l', Step service.Allows l .internal l' ∧
      Simulates service
        { hash := some (CircuitHash.hsetState s.hash .halfOpen)
          calls := Function.update s.calls t (.halfOpened call raw) } l' := by
  have hpending : l.status t = .pending call := h.status_of_phase hphase
  obtain ⟨stored, hhash, hfailures, hopenedAt⟩ := hcurrent call raw hphase
  have hok := h.phases t
  rw [hphase] at hok
  obtain ⟨hvalid, hreads, now, hchecked, hcooled⟩ := hok
  obtain ⟨hopenState, openedAt, hopened, hpast⟩ :=
    CircuitBreakerService.isCooled_spec hcooled
  have hsome : stored.openedAt = some openedAt := hopenedAt.trans hopened
  have hne : stored.openedAt ≠ none := by simp [hsome]
  obtain ⟨state, hvalue, hnot⟩ := h.value_of_opened hhash hne
  have hset : CircuitHash.hsetState s.hash .halfOpen =
      { stored with state := .halfOpen } := by rw [hhash]; rfl
  rw [hset]
  cases call with
  | get checkedAt =>
      have hallows : service.Allows l.value (.get checkedAt)
          { raw.snapshot with state := .halfOpen }
          (some { stored with state := .halfOpen }) := by
        refine ⟨now, ?_, ?_⟩
        · intro reading hreading
          rw [show checkedAt = some now from hchecked] at hreading
          exact (Option.some.inj hreading).symm
        · have hget := @CircuitBreakerService.get_of_not_closed service
            { stored with state := state } openedAt now hnot hsome hpast
          rw [hvalue, hget]
          simp [CircuitHash.snapshot, hfailures, hopenedAt]
      have hvalid' : service.Valid (some { stored with state := .halfOpen }) := by
        have hv := h.valid
        rw [hvalue] at hv
        have hhalf : CircuitState.halfOpen ≠ .closed := by simp
        exact hv.setState hne hhalf
      exact ⟨_, .linearized hpending hallows,
        h.update ⟨hvalid, hreads, hopenState⟩ hvalid' (Or.inl rfl)⟩
  | recordFailure checkedAt failedAt =>
      refine ⟨l, .internal, h.update_silent ⟨hvalid, hreads, hopenState⟩ ?_ ?_⟩
      · cases state with
        | closed => exact absurd rfl hnot
        | halfOpen => exact Or.inl hvalue
        | opened =>
            refine Or.inr ⟨⟨stored, hne, hvalue, rfl⟩, t, ?_⟩
            rw [Function.update_self]
            rfl
      · rw [hphase]
        rfl
  | recordSuccess => cases hreads

theorem Simulates.hsetFailure (h : Simulates service s l) {t : τ} {call : CircuitCall}
    {current snapshot : CircuitSnapshot} {now : ℚ} (hphase : s.calls t = .got call current)
    (hsnapshot : snapshot = service.failed current now)
    (hclock : call.failedAt = if snapshot.state = .opened then some now else none)
    (hcurrent : s.Current (.hsetFailure t)) :
    ∃ l', Step service.Allows l .internal l' ∧
      Simulates service
        { hash := some (CircuitHash.hset s.hash snapshot)
          calls := Function.update s.calls t (.recorded call snapshot) } l' := by
  have hpending : l.status t = .pending call := h.status_of_phase hphase
  have hcount := hcurrent call current hphase
  have hok := h.phases t
  rw [hphase] at hok
  obtain ⟨hfailure, hclosed⟩ := hok
  have hcounted : snapshot = service.counted (current.failures + 1) now :=
    hsnapshot.trans (CircuitBreakerService.failed_eq_counted hclosed now)
  have hset : CircuitHash.hset s.hash snapshot = CircuitHash.hset none snapshot := by
    rw [hcounted]
    exact CircuitBreakerService.hset_counted h.valid_hash (by rw [hcount]) now
  rw [hset]
  cases call with
  | recordFailure checkedAt failedAt =>
      have hallows : service.Allows l.value (.recordFailure checkedAt failedAt) snapshot
          (some (CircuitHash.hset none snapshot)) := by
        refine ⟨checkedAt.getD 0, now, ?_, ?_, ?_⟩
        · rintro reading hreading
          rw [Option.mem_def] at hreading
          rw [hreading]
          rfl
        · intro reading hreading
          rw [show failedAt = _ from hclock] at hreading
          split at hreading
          · exact (Option.some.inj hreading).symm
          · cases hreading
        · rw [CircuitBreakerService.recordFailure_eq h.valid, h.failureCount_eq, hcount,
            ← hcounted]
      have hvalid : service.Valid (some (CircuitHash.hset none snapshot)) := by
        rw [hcounted]
        have hnonneg := h.valid_hash.failureCount_nonneg
        exact CircuitBreakerService.valid_counted (by omega) now
      exact ⟨_, .linearized hpending hallows, h.update trivial hvalid (Or.inl rfl)⟩
  | _ => cases hfailure

/-- Every step that overwrites only what its call has read is a step of calls that take
effect at one instant. -/
theorem Simulates.step {s' : CircuitSystem τ} {e : CircuitEvent τ}
    (h : Simulates service s l) (hstep : CircuitStep service s e s')
    (hcurrent : s.Current e) :
    ∃ l', Step service.Allows l e.shown l' ∧ Simulates service s' l' := by
  cases hstep with
  | @invoked t call hidle =>
      have hstatus : l.status t = .idle := h.status_of_phase hidle
      exact ⟨_, .invoked hstatus, h.move hidle trivial False.elim⟩
  | readAbsent hphase hreads hhash hclock => exact h.readAbsent hphase hreads hhash hclock
  | readHash hphase hreads hhash hclock => exact h.readHash hphase hreads hhash hclock
  | hsetHalfOpen hphase => exact h.hsetHalfOpen hphase hcurrent
  | @expireHalfOpen t call raw hphase =>
      have hok := h.phases t
      rw [hphase] at hok
      obtain ⟨hvalid, hreads, hopened⟩ := hok
      cases call with
      | get checkedAt => exact h.silent hphase trivial (fun howes => by cases howes) rfl
      | recordFailure checkedAt failedAt =>
          refine h.silent hphase ⟨rfl, ?_⟩ (fun _ => trivial) rfl
          intro hlt
          have hclosed := (hvalid.closed_of_lt hlt).1
          rw [CircuitHash.snapshot, hopened] at hclosed
          cases hclosed
      | recordSuccess => cases hreads
  | hsetFailure hphase hsnapshot hclock =>
      exact h.hsetFailure hphase hsnapshot hclock hcurrent
  | expireFailure hphase => exact h.silent hphase trivial False.elim rfl
  | @delete t hphase =>
      have hpending : l.status t = .pending .recordSuccess := h.status_of_phase hphase
      have hallows : service.Allows l.value .recordSuccess .initial none := rfl
      exact ⟨_, .linearized hpending hallows,
        h.update trivial CircuitBreakerService.valid_none (Or.inl rfl)⟩
  | @returned t call snapshot hphase =>
      have hanswered : l.status t = .answered call snapshot := h.status_of_phase hphase
      exact ⟨_, .returned hanswered, h.move hphase trivial False.elim⟩

end Simulation

/-! ## Counting in a sequential order -/

section Counting

variable {τ : Type*} {service : CircuitBreakerService}

/-- A call that is not a success leaves the count, or raises it by one if it is a
failure. -/
theorem CircuitBreakerService.Allows.count {hash hash' : Option CircuitHash}
    {call : CircuitCall} {snapshot : CircuitSnapshot}
    (h : service.Allows hash call snapshot hash') (hvalid : service.Valid hash)
    (hother : call ≠ .recordSuccess) :
    CircuitHash.failureCount hash' =
      CircuitHash.failureCount hash + if call.isFailure then 1 else 0 := by
  cases call with
  | get checkedAt =>
      obtain ⟨now, -, hget⟩ := h
      have hcount := (CircuitBreakerService.get_spec hvalid now).2.1
      rw [hget] at hcount
      simpa [CircuitCall.isFailure] using hcount
  | recordFailure checkedAt failedAt =>
      obtain ⟨now, later, -, -, hrecord⟩ := h
      rw [CircuitBreakerService.recordFailure_eq hvalid, Prod.mk.injEq] at hrecord
      rw [← hrecord.2, CircuitBreakerService.failureCount_hset,
        CircuitBreakerService.counted_failures]
      rfl
  | recordSuccess => exact absurd rfl hother

theorem CircuitBreakerService.Allows.valid {hash hash' : Option CircuitHash}
    {call : CircuitCall} {snapshot : CircuitSnapshot}
    (h : service.Allows hash call snapshot hash') (hvalid : service.Valid hash) :
    service.Valid hash' := by
  cases call with
  | get checkedAt =>
      obtain ⟨now, -, hget⟩ := h
      have hkept := (CircuitBreakerService.get_spec hvalid now).1
      rw [hget] at hkept
      exact hkept
  | recordFailure checkedAt failedAt =>
      obtain ⟨now, later, -, -, hrecord⟩ := h
      rw [CircuitBreakerService.recordFailure_eq hvalid, Prod.mk.injEq] at hrecord
      rw [← hrecord.2]
      have hnonneg := hvalid.failureCount_nonneg
      exact CircuitBreakerService.valid_counted (by omega) later
  | recordSuccess =>
      cases h
      exact CircuitBreakerService.valid_none

theorem valid_of_log {log : List (Entry τ CircuitCall CircuitSnapshot)}
    {value : Option CircuitHash}
    (hrun : Run (fun value (entry : Entry τ CircuitCall CircuitSnapshot) value' =>
      service.Allows value entry.call entry.answer value') none log value) :
    service.Valid value := by
  apply Run.invariant (I := service.Valid) hrun
  · exact CircuitBreakerService.valid_none
  · intro value entry value' hvalid hallows
    exact hallows.valid hvalid

/-- A sequential order without a success ends with the number of its failures. -/
theorem failureCount_of_log {log : List (Entry τ CircuitCall CircuitSnapshot)}
    {value : Option CircuitHash}
    (hrun : Run (fun value (entry : Entry τ CircuitCall CircuitSnapshot) value' =>
      service.Allows value entry.call entry.answer value') none log value)
    (hother : ∀ entry ∈ log, entry.call ≠ .recordSuccess) :
    CircuitHash.failureCount value = log.countP fun entry => entry.call.isFailure := by
  induction hrun with
  | start => rfl
  | @next log value value' entry hprev hallows ih =>
      have hcall := hother entry List.mem_cons_self
      have hlog := ih fun entry' hmem => hother entry' (List.mem_cons_of_mem _ hmem)
      rw [hallows.count (valid_of_log hprev) hcall, hlog, List.countP_cons]
      split
      · simp
      · simp

theorem opened_of_log {log : List (Entry τ CircuitCall CircuitSnapshot)}
    {value : Option CircuitHash}
    (hrun : Run (fun value (entry : Entry τ CircuitCall CircuitSnapshot) value' =>
      service.Allows value entry.call entry.answer value') none log value)
    (hfailures : ∀ entry ∈ log, entry.call.isFailure = true)
    (hreached : service.threshold ≤ CircuitHash.failureCount value) {raw : CircuitHash}
    (hvalue : value = some raw) : raw.state = .opened := by
  cases hrun with
  | start => cases hvalue
  | @next log prior _ entry hprev hallows =>
      have hfailure := hfailures entry List.mem_cons_self
      cases hcall : entry.call with
      | recordFailure checkedAt failedAt =>
          rw [hcall] at hallows
          obtain ⟨now, later, -, -, hrecord⟩ := hallows
          rw [CircuitBreakerService.recordFailure_eq (valid_of_log hprev),
            Prod.mk.injEq] at hrecord
          have hraw := hrecord.2.trans hvalue
          rw [hvalue, ← hraw, CircuitBreakerService.failureCount_hset,
            CircuitBreakerService.counted_failures] at hreached
          rw [← Option.some.inj hraw]
          simp [CircuitHash.hset, CircuitBreakerService.counted, hreached]
      | get checkedAt =>
          rw [hcall] at hfailure
          cases hfailure
      | recordSuccess =>
          rw [hcall] at hfailure
          cases hfailure

end Counting

/-! ## Two failures that count as one -/

namespace Sample

def circuitBreaker : CircuitBreakerService where
  threshold := 5
  cooldown := 120

/-- Below the threshold a failure does not read the clock. -/
def failure : CircuitCall := .recordFailure none none

/-- Both failures read the hash before either of them writes. -/
def overlappingFailures : List (CircuitEvent Bool) :=
  [.returned true ⟨.closed, 1, none⟩, .returned false ⟨.closed, 1, none⟩,
    .expire true, .expire false, .hsetFailure true, .hsetFailure false,
    .hgetall true, .hgetall false, .invoked true failure, .invoked false failure]

def failedOnce : CircuitSystem Bool where
  hash := some ⟨.closed, some 1, none⟩
  calls _ := .returned failure ⟨.closed, 1, none⟩

theorem run_overlappingFailures :
    CircuitRun circuitBreaker overlappingFailures failedOnce := by
  have hinvoked := (Run.start.next (@CircuitStep.invoked Bool _ circuitBreaker .start false
    failure rfl)).next (@CircuitStep.invoked _ _ _ _ true failure rfl)
  have hread := (hinvoked.next (@CircuitStep.readAbsent _ _ _ _ false failure rfl rfl rfl
    rfl)).next (@CircuitStep.readAbsent _ _ _ _ true failure rfl rfl rfl rfl)
  have hwritten := (hread.next (@CircuitStep.hsetFailure _ _ _ _ false failure .initial
    ⟨.closed, 1, none⟩ 0 rfl rfl rfl)).next (@CircuitStep.hsetFailure _ _ _ _ true failure
      .initial ⟨.closed, 1, none⟩ 0 rfl rfl rfl)
  have hexpired := (hwritten.next (@CircuitStep.expireFailure _ _ _ _ false failure
    ⟨.closed, 1, none⟩ rfl)).next (@CircuitStep.expireFailure _ _ _ _ true failure
      ⟨.closed, 1, none⟩ rfl)
  have hreturned := (hexpired.next (@CircuitStep.returned _ _ _ _ false failure
    ⟨.closed, 1, none⟩ rfl)).next (@CircuitStep.returned _ _ _ _ true failure
      ⟨.closed, 1, none⟩ rfl)
  have hsame : ∀ {s : CircuitSystem Bool}, CircuitRun circuitBreaker overlappingFailures s →
      s.hash = failedOnce.hash → (∀ t, s.calls t = failedOnce.calls t) →
        CircuitRun circuitBreaker overlappingFailures failedOnce := by
    intro s hrun hhash hcalls
    have hstate : s = failedOnce := CircuitSystem.ext hhash (funext hcalls)
    exact hstate ▸ hrun
  refine hsame hreturned rfl ?_
  intro t
  cases t with
  | false => rfl
  | true => rfl

end Sample

/-- Two failures that overlap leave a count of one. -/
theorem failures_lost : ¬CircuitLinearizable Sample.circuitBreaker := by
  intro hlinearizable
  obtain ⟨log, hexplains⟩ := hlinearizable Bool Sample.overlappingFailures
    Sample.failedOnce Sample.run_overlappingFailures (fun _ => Or.inr ⟨_, _, rfl⟩)
  have hcall : ∀ entry ∈ log, entry.call = Sample.failure := by
    intro entry hmem
    have hinvoked := hexplains.invoked entry hmem
    simp only [Sample.overlappingFailures, List.map_cons, List.map_nil, CircuitEvent.shown,
      List.mem_cons, reduceCtorEq, false_or, Action.invoked.injEq, List.not_mem_nil,
      or_false] at hinvoked
    rcases hinvoked with ⟨-, hcall⟩ | ⟨-, hcall⟩
    · exact hcall
    · exact hcall
  have hcount := failureCount_of_log hexplains.sequential (by
    intro entry hmem
    rw [hcall entry hmem]
    simp [Sample.failure])
  -- both calls have returned, so both are in the order
  have hcaller : ∀ t : Bool, t ∈ log.map (·.caller) := by
    intro t
    have hreturned : Action.returned t ⟨.closed, 1, none⟩ ∈
        Sample.overlappingFailures.map CircuitEvent.shown := by
      cases t with
      | false => simp [Sample.overlappingFailures, CircuitEvent.shown]
      | true => simp [Sample.overlappingFailures, CircuitEvent.shown]
    obtain ⟨entry, hmem, rfl, -⟩ := hexplains.returned t _ hreturned
    exact List.mem_map_of_mem hmem
  have htwo : [false, true].length ≤ (log.map (·.caller)).length := by
    apply List.Subperm.length_le
    apply List.subperm_of_subset (by decide)
    intro t _
    exact hcaller t
  have hall : (log.countP fun entry => entry.call.isFailure) = log.length := by
    rw [List.countP_eq_length]
    intro entry hmem
    rw [hcall entry hmem]
    rfl
  have hone : CircuitHash.failureCount Sample.failedOnce.hash = 1 := rfl
  rw [hone, hall] at hcount
  rw [List.length_map] at htwo
  simp only [List.length_cons, List.length_nil] at htwo
  omega

/-! ## When calls are linearizable -/

section Main

variable {τ : Type*} {service : CircuitBreakerService}

/-- A step that overwrites only what its call has read. -/
def CurrentStep [DecidableEq τ] (service : CircuitBreakerService) (s : CircuitSystem τ)
    (e : CircuitEvent τ) (s' : CircuitSystem τ) : Prop :=
  CircuitStep service s e s' ∧ s.Current e

/-- The failures that a history records. -/
def failuresOf (history : List (CircuitEvent τ)) : ℕ :=
  (invocations (history.map CircuitEvent.shown)).countP fun (_, call) => call.isFailure

theorem invoked_of_shown {history : List (CircuitEvent τ)} {t : τ} {call : CircuitCall}
    (h : Action.invoked t call ∈ history.map CircuitEvent.shown) :
    CircuitEvent.invoked t call ∈ history := by
  obtain ⟨e, hmem, hshown⟩ := List.mem_map.mp h
  cases e with
  | invoked t' call' =>
      cases hshown
      exact hmem
  | _ => cases hshown

theorem Simulates.of_quiescent {s : CircuitSystem τ}
    {l : State τ CircuitCall CircuitSnapshot (Option CircuitHash)}
    (h : Simulates service s l) (hquiescent : s.Quiescent) :
    l.value = s.hash ∧ ∀ t call, l.status t ≠ .pending call := by
  refine ⟨?_, ?_⟩
  · rcases h.hash with heq | ⟨-, t, howes⟩
    · exact heq
    · rcases hquiescent t with hidle | ⟨call, snapshot, hreturned⟩
      · rw [hidle] at howes
        exact howes.elim
      · rw [hreturned] at howes
        exact howes.elim
  · intro t call hpending
    rw [h.status] at hpending
    rcases hquiescent t with hidle | ⟨call', snapshot, hreturned⟩
    · rw [hidle] at hpending
      cases hpending
    · rw [hreturned] at hpending
      cases hpending

variable [DecidableEq τ]

/-- In a run whose writes each find what their call has read, the answers are at every
moment those of a sequential order; when no call is in progress that order also leaves
the stored hash, which without a success counts every failure and has left `CLOSED` from
the threshold on, and is `OPEN` if no `get` can have found it cooled. -/
theorem linearizable_of_current {history : List (CircuitEvent τ)} {s : CircuitSystem τ}
    (hrun : Run (CurrentStep service) .start history s) :
    (∃ value, Linearizable service.Allows none (history.map CircuitEvent.shown) value) ∧
      (s.Quiescent →
        Linearizable service.Allows none (history.map CircuitEvent.shown) s.hash) ∧
      (s.Quiescent → (∀ t, CircuitEvent.invoked t .recordSuccess ∉ history) →
        CircuitHash.failureCount s.hash = failuresOf history ∧
          (1 ≤ failuresOf history → service.threshold ≤ failuresOf history →
            ∃ raw, s.hash = some raw ∧ raw.state ≠ .closed ∧
              ((∀ t checkedAt, CircuitEvent.invoked t (.get checkedAt) ∉ history) →
                raw.state = .opened))) := by
  have hstart : Simulates service (.start : CircuitSystem τ) (.start none) :=
    ⟨fun _ => rfl, CircuitBreakerService.valid_none, fun _ => trivial, Or.inl rfl⟩
  obtain ⟨l, hsimulates, hlinear⟩ : ∃ l, Simulates service s l ∧
      Run (Step service.Allows) (.start none) (history.map CircuitEvent.shown) l :=
    Run.simulated hrun hstart fun s e s' l h hstep => h.step hstep.1 hstep.2
  obtain ⟨log, hconsistent⟩ := exists_log hlinear
  have hexplains := hconsistent.explains
  refine ⟨⟨_, log, hexplains⟩, ?_, ?_⟩
  · intro hquiescent
    rw [← (hsimulates.of_quiescent hquiescent).1]
    exact ⟨log, hexplains⟩
  · intro hquiescent hother
    obtain ⟨hvalue, hnone⟩ := hsimulates.of_quiescent hquiescent
    have hnotSuccess : ∀ entry ∈ log, entry.call ≠ .recordSuccess := by
      intro entry hmem hsuccess
      have hinvoked := invoked_of_shown (hexplains.invoked entry hmem)
      rw [hsuccess] at hinvoked
      exact hother _ hinvoked
    have hcount : CircuitHash.failureCount s.hash = failuresOf history := by
      have hperm := hconsistent.perm_invocations hnone
      rw [← hvalue, failureCount_of_log hexplains.sequential hnotSuccess, failuresOf,
        ← hperm.countP_eq, List.countP_map]
      rfl
    refine ⟨hcount, ?_⟩
    intro hsome hreached
    have hvalid := hsimulates.valid_hash
    cases hhash : s.hash with
    | none =>
        rw [hhash] at hcount
        have hzero : CircuitHash.failureCount none = 0 := rfl
        omega
    | some raw =>
        obtain ⟨failures, hfailures, -, hclosed, -⟩ := hvalid raw hhash
        refine ⟨raw, rfl, ?_, ?_⟩
        · rw [Ne, hclosed]
          have hstored : CircuitHash.failureCount s.hash = failures := by
            simp [hhash, CircuitHash.failureCount, hfailures]
          omega
        · intro hnoGet
          refine opened_of_log hexplains.sequential ?_ ?_ (hvalue.trans hhash)
          · intro entry hmem
            have hinvoked := invoked_of_shown (hexplains.invoked entry hmem)
            cases hcall : entry.call with
            | get checkedAt =>
                rw [hcall] at hinvoked
                exact absurd hinvoked (hnoGet _ _)
            | recordFailure checkedAt failedAt => rfl
            | recordSuccess => exact absurd hcall (hnotSuccess entry hmem)
          · rw [hvalue, hcount]
            exact hreached

end Main

namespace Sample

/-- Two failures are in progress at once, and the second one reads the hash after the first
one has written it. -/
def successiveFailures : List (CircuitEvent Bool) :=
  [.returned false ⟨.closed, 1, none⟩, .returned true ⟨.closed, 2, none⟩,
    .expire true, .hsetFailure true, .expire false, .hgetall true, .hsetFailure false,
    .hgetall false, .invoked true failure, .invoked false failure]

theorem run_successiveFailures : ∃ s,
    Run (CurrentStep circuitBreaker) .start successiveFailures s ∧ s.Quiescent ∧
      s.hash = some ⟨.closed, some 2, none⟩ := by
  have hinvoked : Run (CurrentStep circuitBreaker) .start
      [.invoked true failure, .invoked false failure] _ :=
    (Run.start.next ⟨.invoked rfl, trivial⟩).next ⟨.invoked rfl, trivial⟩
  have hfirst := (hinvoked.next ⟨@CircuitStep.readAbsent _ _ _ _ false failure rfl rfl rfl
    rfl, trivial⟩).next ⟨@CircuitStep.hsetFailure _ _ _ _ false failure .initial
      ⟨.closed, 1, none⟩ 0 rfl rfl rfl, fun call current hphase => by cases hphase; rfl⟩
  have hread := hfirst.next ⟨@CircuitStep.readHash _ _ _ _ true failure
    ⟨.closed, some 1, none⟩ 0 rfl rfl rfl rfl, trivial⟩
  have hexpired := hread.next ⟨@CircuitStep.expireFailure _ _ _ _ false failure
    ⟨.closed, 1, none⟩ rfl, trivial⟩
  have hsecond := (hexpired.next ⟨@CircuitStep.hsetFailure _ _ _ _ true failure
    ⟨.closed, 1, none⟩ ⟨.closed, 2, none⟩ 0 rfl rfl rfl, fun call current hphase => by
      cases hphase; rfl⟩).next ⟨@CircuitStep.expireFailure _ _ _ _ true failure
        ⟨.closed, 2, none⟩ rfl, trivial⟩
  have hreturned := (hsecond.next ⟨@CircuitStep.returned _ _ _ _ true failure
    ⟨.closed, 2, none⟩ rfl, trivial⟩).next ⟨@CircuitStep.returned _ _ _ _ false failure
      ⟨.closed, 1, none⟩ rfl, trivial⟩
  refine ⟨_, hreturned, ?_, rfl⟩
  intro t
  cases t with
  | false => exact Or.inr ⟨_, _, rfl⟩
  | true => exact Or.inr ⟨_, _, rfl⟩

end Sample

/-- Both failures count, though they overlap. -/
theorem linearizable_of_current_overlapping :
    ∃ s : CircuitSystem Bool, Run (CurrentStep Sample.circuitBreaker) .start
        Sample.successiveFailures s ∧ s.hash = some ⟨.closed, some 2, none⟩ ∧
      Linearizable Sample.circuitBreaker.Allows none
        (Sample.successiveFailures.map CircuitEvent.shown) s.hash := by
  obtain ⟨s, hrun, hquiescent, hhash⟩ := Sample.run_successiveFailures
  exact ⟨s, hrun, hhash, (linearizable_of_current hrun).2.1 hquiescent⟩

end OrbiGateway
