import OrbiGateway.Authentication
import OrbiGateway.System.Histories

/-!
# Failed authentication

A header that authenticates no key is answered alike in every state and leaves the database
and the counters as they are.
-/

namespace OrbiGateway

open Relational

/-- The header carries the id, the environment and the secret of a stored key of an active
project that is neither revoked nor expired. -/
structure Authenticates (service : APIKeyService) (state : AuthState) (clock : AuthClock)
    (authorization : Option String) (record : APIKey) : Prop where
  stored : record ∈ state.db.apiKeys.rows
  project : ∃ project, state.db.projects.find record.projectId = some project ∧
    project.isActive = true
  header : ∃ parsed, (bearerKey authorization).bind APIKeyService.parse = some parsed ∧
    record.keyId = parsed.keyId ∧ record.environment = parsed.environment ∧
    service.verifySecret parsed.secret record.secretHash = true
  active : isRecordActive record.expiresAt record.revokedAt clock.activeNow = true

/-- No stored key with the id of the header has a hash that its secret verifies against. -/
def LacksSecret (service : APIKeyService) (state : AuthState) (authorization : Option String) :
    Prop :=
  ∀ parsed, (bearerKey authorization).bind APIKeyService.parse = some parsed →
    ∀ record ∈ state.db.apiKeys.rows, record.keyId = parsed.keyId →
      service.verifySecret parsed.secret record.secretHash = false

section Failure

variable {service : APIKeyService} {state : AuthState} {clock : AuthClock}
  {authorization : Option String}

theorem findActiveKey_spec {db : Db} {keyId : String} {record : APIKey}
    (h : findActiveKey db keyId = some record) :
    record ∈ db.apiKeys.rows ∧ record.keyId = keyId ∧
      ∃ project, db.projects.find record.projectId = some project ∧ project.isActive = true := by
  have hfound := List.find?_some h
  rw [Bool.and_eq_true, beq_iff_eq] at hfound
  refine ⟨findActiveKey_mem h, hfound.1, ?_⟩
  cases hproject : db.projects.find record.projectId with
  | none =>
      have hactive := hfound.2
      rw [hproject] at hactive
      cases hactive
  | some project =>
      have hactive := hfound.2
      rw [hproject] at hactive
      exact ⟨project, rfl, hactive⟩

theorem requireApiKeyHeader_of_not_authenticates
    (h : ∀ record, ¬Authenticates service state clock authorization record) :
    requireApiKeyHeader service state clock authorization =
      (.error (.orbi invalidApiKey), state) := by
  cases hparsed : (bearerKey authorization).bind APIKeyService.parse with
  | none => exact requireApiKeyHeader_of_no_key hparsed
  | some parsed =>
      refine requireApiKeyHeader_of_closed hparsed ?_
      intro record hfind
      by_contra hopen
      obtain ⟨hstored, hid, hproject⟩ := findActiveKey_spec hfind
      obtain ⟨henvironment, hsecret, hactive⟩ :=
        isOpenedBy_readings_iff.mp (Bool.not_eq_false _ ▸ hopen)
      exact h record ⟨hstored, hproject, ⟨parsed, hparsed, hid, henvironment, hsecret⟩, hactive⟩

theorem LacksSecret.not_authenticates (h : LacksSecret service state authorization)
    (record : APIKey) : ¬Authenticates service state clock authorization record := by
  intro hrecord
  obtain ⟨parsed, hparsed, hid, -, hsecret⟩ := hrecord.header
  rw [h parsed hparsed record hrecord.stored hid] at hsecret
  cases hsecret

/-- Where key ids are unique, only such a header is answered with this error. -/
theorem not_authenticates_of_invalid
    (hunique : (state.db.apiKeys.rows.map APIKey.keyId).Nodup)
    (h : (requireApiKeyHeader service state clock authorization).1 =
      .error (.orbi invalidApiKey)) (record : APIKey) :
    ¬Authenticates service state clock authorization record := by
  intro hrecord
  obtain ⟨parsed, hparsed, hid, henvironment, hsecret⟩ := hrecord.header
  obtain ⟨project, hproject, hactive⟩ := hrecord.project
  have hfind : findActiveKey state.db parsed.keyId = some record := by
    cases hfound : findActiveKey state.db parsed.keyId with
    | none =>
        have hno := List.find?_eq_none.mp hfound record hrecord.stored
        simp [hid, hproject, hactive] at hno
    | some record' =>
        obtain ⟨hstored', hid', -⟩ := findActiveKey_spec hfound
        exact congrArg some (List.inj_on_of_nodup_map hunique hstored' hrecord.stored
          (hid'.trans hid.symm))
  have hopen : record.isOpenedBy parsed (clock.readings service state.counters) = true :=
    isOpenedBy_readings_iff.mpr ⟨henvironment, hsecret, hrecord.active⟩
  rw [(requireApiKeyHeader_of_key hparsed).1] at h
  simp only [requireApiKey, hfind, hopen] at h
  cases hcount : record.countCall (clock.readings service state.counters) with
  | ok counted => simp [hcount, bind, Except.bind, pure, Except.pure, Except.map] at h
  | error failure =>
      simp only [hcount, bind, Except.bind, Except.map, Bool.not_true, Bool.false_eq_true,
        if_false, Except.error.injEq] at h
      unfold APIKey.countCall at hcount
      dsimp only at hcount
      split at hcount
      · cases hcount
        simp [dailyRequestLimitExceeded, invalidApiKey] at h
      split at hcount
      · cases hcount
        simp [rateLimitExceeded, invalidApiKey] at h
      · cases hcount

end Failure

/-- Two calls with a header that authenticates no key get the same error, in whatever states
they are made, and change nothing; a caller without a key's secret has only such headers. -/
theorem failed_authentication (service : APIKeyService) (authorization : Option String) :
    (∀ (state state' : AuthState) (clock clock' : AuthClock),
      (∀ record, ¬Authenticates service state clock authorization record) →
      (∀ record, ¬Authenticates service state' clock' authorization record) →
      (requireApiKeyHeader service state clock authorization).1 =
          (requireApiKeyHeader service state' clock' authorization).1 ∧
        (requireApiKeyHeader service state clock authorization).1 =
          .error (.orbi invalidApiKey) ∧
        (requireApiKeyHeader service state clock authorization).2 = state ∧
        (requireApiKeyHeader service state' clock' authorization).2 = state') ∧
    (∀ (state state' : AuthState) (clock clock' : AuthClock),
      LacksSecret service state authorization → LacksSecret service state' authorization →
      (requireApiKeyHeader service state clock authorization).1 =
          (requireApiKeyHeader service state' clock' authorization).1 ∧
        (requireApiKeyHeader service state clock authorization).2 = state ∧
        (requireApiKeyHeader service state' clock' authorization).2 = state') := by
  constructor
  · intro state state' clock clock' h h'
    rw [requireApiKeyHeader_of_not_authenticates h, requireApiKeyHeader_of_not_authenticates h']
    exact ⟨rfl, rfl, rfl, rfl⟩
  · intro state state' clock clock' h h'
    rw [requireApiKeyHeader_of_not_authenticates h.not_authenticates,
      requireApiKeyHeader_of_not_authenticates h'.not_authenticates]
    exact ⟨rfl, rfl, rfl⟩

namespace Sample

/-- A service whose hashes are the texts themselves. -/
def plainKeyService : APIKeyService where
  pepper := "pppppppppppppppppppppppppppppppp"
  verify := fun storedHash text => storedHash == text
  pepper_ge := by decide

/-- A key that has been revoked and has used up its day. -/
def spentKey : APIKey :=
  { apiKey with
    secretHash := "___________________________________________" ++
      ":" ++ "pppppppppppppppppppppppppppppppp"
    revokedAt := some 0
    dailyRequestsUsed := 1000 }

def spentHeader : Option String :=
  some "Bearer orbi_test_v1_Integration1____________________________________________"

def spentState : AuthState := ⟨{ db with apiKeys := ⟨[spentKey], by decide⟩ }, .empty⟩

def emptyState : AuthState := ⟨{ db with apiKeys := .empty }, .empty⟩

def midnight : ClockMinute := ⟨day, 0, 0, Nat.succ_pos 23, Nat.succ_pos 59⟩

def authClock : AuthClock where
  activeNow := 1
  now := 1
  today := day
  minute := midnight
  redisNow := midnight.start

end Sample

/-- A revoked key is answered like one that does not exist. -/
theorem failed_authentication_revoked :
    (requireApiKeyHeader Sample.plainKeyService Sample.spentState Sample.authClock
        Sample.spentHeader).1 =
      (requireApiKeyHeader Sample.plainKeyService Sample.emptyState Sample.authClock
        Sample.spentHeader).1 := by
  refine ((failed_authentication Sample.plainKeyService _).1 _ _ _ _ ?_ ?_).1
  · intro record hrecord
    cases List.mem_singleton.mp hrecord.stored
    exact absurd hrecord.active (by decide)
  · intro record hrecord
    cases hrecord.stored

end OrbiGateway
