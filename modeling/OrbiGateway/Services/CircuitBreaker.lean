import Mathlib.Algebra.Order.Ring.Rat
import Mathlib.Data.Rat.Defs

/-!
# Circuit breaker

The three-state circuit breaker of a worker on its Redis hash.  The hash is the record
of the fields that the service writes; each call is a function of the hash, and what it
does between two Redis commands is a function of what it has read.  Clock readings are
exact: the differences the service takes of them are, in floating point too.
-/

namespace OrbiGateway

inductive CircuitState
  | closed
  | opened
  | halfOpen
  deriving DecidableEq

structure CircuitSnapshot where
  state : CircuitState
  failures : ℤ
  openedAt : Option ℚ
  deriving DecidableEq

/-- The fields of the stored hash.  Every write sets the state. -/
structure CircuitHash where
  state : CircuitState
  failures : Option ℤ
  openedAt : Option ℚ
  deriving DecidableEq

/-- `CircuitBreakerService` without its Redis client. -/
structure CircuitBreakerService where
  threshold : ℤ
  cooldown : ℤ

/-! ## Redis hashes -/

namespace CircuitHash

/-- What `get` reads in a hash that exists. -/
def snapshot (raw : CircuitHash) : CircuitSnapshot where
  state := raw.state
  failures := raw.failures.getD 0
  openedAt := raw.openedAt

/-- `get` reads the clock on this hash. -/
def readsClock (raw : CircuitHash) : Bool :=
  raw.state == .opened && raw.openedAt.isSome

/-- `HSET` of the state alone. -/
def hsetState (hash : Option CircuitHash) (state : CircuitState) : CircuitHash :=
  match hash with
  | none => ⟨state, none, none⟩
  | some raw => { raw with state := state }

/-- `HSET` of a mapping; it has an `opened_at` only if the snapshot has one. -/
def hset (hash : Option CircuitHash) (mapping : CircuitSnapshot) : CircuitHash where
  state := mapping.state
  failures := some mapping.failures
  openedAt := mapping.openedAt.or (hash.bind (·.openedAt))

/-- The stored failure count, 0 without a hash. -/
def failureCount (hash : Option CircuitHash) : ℤ :=
  (hash.bind (·.failures)).getD 0

end CircuitHash

/-- The snapshot of a hash that does not exist. -/
def CircuitSnapshot.initial : CircuitSnapshot where
  state := .closed
  failures := 0
  openedAt := none

namespace CircuitBreakerService

variable (service : CircuitBreakerService)

/-! ## What a call computes -/

/-- The circuit is `OPEN` and its cooldown has passed. -/
def isCooled (raw : CircuitHash) (now : ℚ) : Bool :=
  raw.state == .opened &&
    match raw.openedAt with
    | some openedAt => decide (service.cooldown ≤ now - openedAt)
    | none => false

/-- The snapshot that `record_failure` writes after it has read `current`. -/
def failed (current : CircuitSnapshot) (now : ℚ) : CircuitSnapshot :=
  let failures := current.failures + 1
  let state := if failures ≥ service.threshold then .opened else current.state
  { state := state
    failures := failures
    openedAt := if state = .opened then some now else current.openedAt }

/-! ## Uninterrupted calls -/

/-- `get` with the clock it reads. -/
def get (hash : Option CircuitHash) (now : ℚ) : CircuitSnapshot × Option CircuitHash :=
  match hash with
  | none => (.initial, none)
  | some raw =>
      if service.isCooled raw now then
        ({ raw.snapshot with state := .halfOpen },
          some (CircuitHash.hsetState (some raw) .halfOpen))
      else (raw.snapshot, some raw)

/-- `record_failure` with the clocks read by its `get` and for `opened_at`. -/
def recordFailure (hash : Option CircuitHash) (checkedAt failedAt : ℚ) :
    CircuitSnapshot × Option CircuitHash :=
  let (current, hash) := service.get hash checkedAt
  let snapshot := service.failed current failedAt
  (snapshot, some (CircuitHash.hset hash snapshot))

/-- `record_success`. -/
def recordSuccess : CircuitSnapshot × Option CircuitHash :=
  (.initial, none)

/-! ## Counted failures -/

/-- The snapshot of a circuit whose last failure, the `failures`-th, came at `now`. -/
def counted (failures : ℤ) (now : ℚ) : CircuitSnapshot :=
  if service.threshold ≤ failures then ⟨.opened, failures, some now⟩
  else ⟨.closed, failures, none⟩

/-- The hash counts failures, is `CLOSED` exactly below the threshold, and has an
`opened_at` exactly from there on. -/
def Valid (hash : Option CircuitHash) : Prop :=
  ∀ raw, hash = some raw → ∃ failures, raw.failures = some failures ∧ 1 ≤ failures ∧
    (raw.state = .closed ↔ failures < service.threshold) ∧
    (raw.state = .closed ↔ raw.openedAt = none)

variable {service} {hash : Option CircuitHash} {raw : CircuitHash}

theorem valid_none : service.Valid none := by
  intro raw hraw
  cases hraw

theorem Valid.closed_of_lt (h : service.Valid (some raw))
    (hlt : raw.snapshot.failures < service.threshold) :
    raw.snapshot.state = .closed ∧ raw.snapshot.openedAt = none := by
  obtain ⟨failures, hfailures, -, hclosed, hopened⟩ := h raw rfl
  have hstate : raw.state = .closed := by
    apply hclosed.mpr
    simpa [CircuitHash.snapshot, hfailures] using hlt
  exact ⟨hstate, hopened.mp hstate⟩

theorem Valid.setState (h : service.Valid (some raw)) {state : CircuitState}
    (hopened : raw.openedAt ≠ none) (hstate : state ≠ .closed) :
    service.Valid (some { raw with state := state }) := by
  intro raw' hraw'
  cases hraw'
  obtain ⟨failures, hfailures, hpos, hclosed, hnone⟩ := h raw rfl
  have hnot : raw.state ≠ .closed := fun hno => hopened (hnone.mp hno)
  refine ⟨failures, hfailures, hpos, ?_, ?_⟩
  · simp [hstate, ← hclosed, hnot]
  · simp [hstate, hopened]

theorem isCooled_spec {now : ℚ} (h : service.isCooled raw now = true) :
    raw.state = .opened ∧ ∃ openedAt, raw.openedAt = some openedAt ∧
      service.cooldown ≤ now - openedAt := by
  simp only [isCooled, Bool.and_eq_true, beq_iff_eq] at h
  obtain ⟨hstate, hcooled⟩ := h
  cases hopened : raw.openedAt with
  | none => simp [hopened] at hcooled
  | some openedAt =>
      rw [hopened] at hcooled
      exact ⟨hstate, openedAt, rfl, by simpa using hcooled⟩

/-- Past the cooldown `get` leaves a circuit that is not `CLOSED` `HALF_OPEN`. -/
theorem get_of_not_closed {openedAt now : ℚ} (hstate : raw.state ≠ .closed)
    (hopened : raw.openedAt = some openedAt)
    (hcooled : service.cooldown ≤ now - openedAt) :
    service.get (some raw) now =
      ({ raw.snapshot with state := .halfOpen }, some { raw with state := .halfOpen }) := by
  cases hraw : raw.state with
  | closed => exact absurd hraw hstate
  | opened =>
      have hyes : service.isCooled raw now = true := by
        simp [isCooled, hraw, hopened, hcooled]
      exact if_pos hyes
  | halfOpen =>
      have hno : service.isCooled raw now = false := by simp [isCooled, hraw]
      have hsame : { raw with state := .halfOpen } = raw := by
        rw [← hraw]
      rw [get, hno, hsame, ← hsame]
      rfl

/-- `get` keeps the hash valid and its count, and answers with the count. -/
theorem get_spec (h : service.Valid hash) (now : ℚ) :
    service.Valid (service.get hash now).2 ∧
      CircuitHash.failureCount (service.get hash now).2 = CircuitHash.failureCount hash ∧
      (service.get hash now).1.failures = CircuitHash.failureCount hash ∧
      ((service.get hash now).1.failures < service.threshold →
        (service.get hash now).1.state = .closed ∧
          (service.get hash now).1.openedAt = none) := by
  cases hash with
  | none => exact ⟨valid_none, rfl, rfl, fun _ => ⟨rfl, rfl⟩⟩
  | some raw =>
      by_cases hcooled : service.isCooled raw now = true
      · obtain ⟨hstate, openedAt, hopened, -⟩ := isCooled_spec hcooled
        have hget : service.get (some raw) now =
            ({ raw.snapshot with state := .halfOpen }, some { raw with state := .halfOpen }) :=
          if_pos hcooled
        rw [hget]
        refine ⟨h.setState (by simp [hopened]) (by simp), rfl, rfl, ?_⟩
        intro hlt
        have hclosed := (h.closed_of_lt hlt).1
        rw [CircuitHash.snapshot, hstate] at hclosed
        cases hclosed
      · have hget : service.get (some raw) now = (raw.snapshot, some raw) := if_neg hcooled
        rw [hget]
        exact ⟨h, rfl, rfl, h.closed_of_lt⟩

theorem failed_eq_counted {current : CircuitSnapshot}
    (hcurrent : current.failures < service.threshold →
      current.state = .closed ∧ current.openedAt = none) (now : ℚ) :
    service.failed current now = service.counted (current.failures + 1) now := by
  unfold failed counted
  by_cases hopens : service.threshold ≤ current.failures + 1
  · simp [hopens]
  · obtain ⟨hstate, hnone⟩ := hcurrent (by omega)
    simp [hopens, hstate, hnone]

theorem hset_counted (h : service.Valid hash) {failures : ℤ}
    (hcount : CircuitHash.failureCount hash + 1 = failures) (now : ℚ) :
    CircuitHash.hset hash (service.counted failures now) =
      CircuitHash.hset none (service.counted failures now) := by
  cases hash with
  | none => rfl
  | some raw =>
      unfold counted
      by_cases hopens : service.threshold ≤ failures
      · simp [CircuitHash.hset, hopens]
      · have hlt : raw.snapshot.failures < service.threshold := by
          simp only [CircuitHash.failureCount, Option.bind_some] at hcount
          simp only [CircuitHash.snapshot]
          omega
        have hnone : raw.openedAt = none := (h.closed_of_lt hlt).2
        simp [CircuitHash.hset, hopens, hnone]

/-- Whatever a valid hash contains, a failure counts one more. -/
theorem recordFailure_eq (h : service.Valid hash) (checkedAt failedAt : ℚ) :
    service.recordFailure hash checkedAt failedAt =
      (service.counted (CircuitHash.failureCount hash + 1) failedAt,
        some (CircuitHash.hset none
          (service.counted (CircuitHash.failureCount hash + 1) failedAt))) := by
  obtain ⟨hvalid, hcount, hfailures, hclosed⟩ := get_spec h checkedAt
  have hfailed : service.failed (service.get hash checkedAt).1 failedAt =
      service.counted (CircuitHash.failureCount hash + 1) failedAt := by
    rw [failed_eq_counted hclosed, hfailures]
  simp only [recordFailure, hfailed]
  rw [hset_counted hvalid (by rw [hcount])]

theorem failureCount_hset (mapping : CircuitSnapshot) :
    CircuitHash.failureCount (some (CircuitHash.hset hash mapping)) = mapping.failures :=
  rfl

@[simp] theorem counted_failures (failures : ℤ) (now : ℚ) :
    (service.counted failures now).failures = failures := by
  unfold counted
  split
  · rfl
  · rfl

theorem counted_opened {failures : ℤ} {now : ℚ}
    (h : (service.counted failures now).state = .opened) :
    (service.counted failures now).openedAt = some now := by
  unfold counted at h ⊢
  split
  · rfl
  next hbelow =>
    rw [if_neg hbelow] at h
    cases h

theorem valid_counted {failures : ℤ} (hpos : 1 ≤ failures) (now : ℚ) :
    service.Valid (some (CircuitHash.hset none (service.counted failures now))) := by
  intro raw hraw
  cases hraw
  refine ⟨failures, by simp [CircuitHash.hset], hpos, ?_, ?_⟩
  · by_cases hopens : service.threshold ≤ failures
    · simp [CircuitHash.hset, counted, hopens]
    · simp [CircuitHash.hset, counted, hopens, not_le.mp hopens]
  · by_cases hopens : service.threshold ≤ failures
    · simp [CircuitHash.hset, counted, hopens]
    · simp [CircuitHash.hset, counted, hopens]

theorem Valid.failureCount_nonneg (h : service.Valid hash) :
    0 ≤ CircuitHash.failureCount hash := by
  cases hash with
  | none => exact le_refl 0
  | some raw =>
      obtain ⟨failures, hfailures, hpos, -⟩ := h raw rfl
      simp only [CircuitHash.failureCount, Option.bind_some, hfailures, Option.getD_some]
      omega

end CircuitBreakerService

end OrbiGateway
