import OrbiGateway.Services.ApiKeys

/-!
# Authentication dependencies

The database part of the two authentication dependencies, run on the row that
the lookup returns: `require_api_key` under a lock of the key row, and
`require_worker` without a lock.  What a call reads outside the database (its
clocks, the verification of the Argon2id hash, the answer of the rate limiter)
is part of the call.
-/

namespace OrbiGateway

open Relational

/-- What `require_api_key` reads outside the database. -/
structure KeyReadings where
  /-- Argon2id verification of a secret against a stored hash. -/
  verifySecret : String → String → Bool
  /-- The answer of `allow_minute` for the key's id and limit. -/
  allowMinute : String → ℤ → Bool
  /-- The clock read by `is_record_active`. -/
  activeNow : Timestamp
  /-- The clock read for the daily counter. -/
  now : Timestamp
  /-- The UTC date of `now`. -/
  today : Date

def invalidApiKey : OrbiError :=
  ⟨"invalid_api_key", "A valid bearer API key is required.", 401⟩

def dailyRequestLimitExceeded : OrbiError :=
  ⟨"daily_request_limit_exceeded", "Daily request limit exceeded.", 429⟩

def rateLimitExceeded : OrbiError :=
  ⟨"rate_limit_exceeded", "Per-minute request limit exceeded.", 429⟩

def insufficientScope : OrbiError :=
  ⟨"insufficient_scope", "API key lacks the required scope.", 403⟩

/-- The lookup of `require_api_key`: the key with this id whose project is
active. -/
def findActiveKey (db : Db) (keyId : String) : Option APIKey :=
  db.apiKeys.rows.find? fun record =>
    record.keyId == keyId &&
      match db.projects.find record.projectId with
      | some project => project.isActive
      | none => false

namespace APIKey

/-- The checks of `require_api_key` that decide whether the secret opens the
key. -/
def isOpenedBy (record : APIKey) (parsed : ParsedKey) (readings : KeyReadings) :
    Bool :=
  record.environment == parsed.environment &&
    readings.verifySecret parsed.secret record.secretHash &&
    isRecordActive record.expiresAt record.revokedAt readings.activeNow

/-- Restart the daily request counter on a new day. -/
def resetDay (record : APIKey) (today : Date) : APIKey :=
  if record.dailyRequestsDate ≠ today then
    { record with dailyRequestsDate := today, dailyRequestsUsed := 0 }
  else record

/-- The limits of `require_api_key` and the use they count. -/
def countCall (record : APIKey) (readings : KeyReadings) : Except Failure APIKey :=
  let record := record.resetDay readings.today
  if record.dailyRequestsUsed ≥ record.dailyReqLimit then
    .error (.orbi dailyRequestLimitExceeded)
  else if !readings.allowMinute record.keyId record.rpmLimit then
    .error (.orbi rateLimitExceeded)
  else
    .ok { record with
      dailyRequestsUsed := record.dailyRequestsUsed + 1
      lastUsedAt := some readings.now }

/-- The columns of a key that its lookup reads. -/
def lookupColumns (record : APIKey) : UUID × String × UUID :=
  (record.id, record.keyId, record.projectId)

theorem lookupColumns_resetDay (record : APIKey) (today : Date) :
    (record.resetDay today).lookupColumns = record.lookupColumns := by
  unfold resetDay
  split
  · rfl
  · rfl

theorem lookupColumns_countCall {record record' : APIKey} {readings : KeyReadings}
    (h : record.countCall readings = .ok record') :
    record'.lookupColumns = record.lookupColumns := by
  unfold countCall at h
  dsimp only at h
  split at h
  · cases h
  split at h
  · cases h
  cases h
  exact lookupColumns_resetDay record readings.today

end APIKey

/-- `require_api_key` after the bearer header has been parsed. -/
def requireApiKey (db : Db) (parsed : ParsedKey) (readings : KeyReadings) :
    Except Failure (APIKey × Db) :=
  match findActiveKey db parsed.keyId with
  | none => .error (.orbi invalidApiKey)
  | some record =>
      if !record.isOpenedBy parsed readings then
        .error (.orbi invalidApiKey)
      else do
        let record ← record.countCall readings
        return (record, { db with apiKeys := db.apiKeys.put record })

/-- `require_api_scope`. -/
def requireApiScope (requiredScope : String) (record : APIKey) :
    Except Failure Unit :=
  if !record.scopes.contains requiredScope && !record.scopes.contains "*" then
    .error (.orbi insufficientScope)
  else
    .ok ()

theorem findActiveKey_mem {db : Db} {keyId : String} {record : APIKey}
    (h : findActiveKey db keyId = some record) : record ∈ db.apiKeys.rows :=
  List.mem_of_find?_eq_some h

/-- A successful authentication writes one row, the counted version of the key
it found. -/
theorem requireApiKey_spec {db db' : Db} {parsed : ParsedKey}
    {readings : KeyReadings} {record' : APIKey}
    (h : requireApiKey db parsed readings = .ok (record', db')) :
    ∃ record ∈ db.apiKeys.rows, findActiveKey db parsed.keyId = some record ∧
      record.isOpenedBy parsed readings = true ∧
      record.countCall readings = .ok record' ∧
      db' = { db with apiKeys := db.apiKeys.put record' } := by
  unfold requireApiKey at h
  split at h
  · cases h
  next record hfind =>
    split at h
    · cases h
    next hopen =>
      cases hcount : record.countCall readings with
      | error failure => simp [hcount, bind, Except.bind] at h
      | ok counted =>
          simp only [hcount, bind, Except.bind, pure, Except.pure,
            Except.ok.injEq, Prod.mk.injEq] at h
          obtain ⟨rfl, rfl⟩ := h
          exact ⟨record, findActiveKey_mem hfind, hfind,
            by simpa using hopen, hcount, rfl⟩

/-- The row checks of `require_worker`: a current, unrevoked token id. -/
def workerTokenCurrent (worker : Worker) (jti : String) : Bool :=
  worker.revokedAt.isNone && worker.tokenJti == some jti

def invalidWorkerToken : OrbiError :=
  ⟨"invalid_worker_token", "Worker token is invalid or revoked.", 401⟩

/-- `require_worker` after the JWT has been verified, for its subject and its `jti`.
The row is read without a lock. -/
def requireWorker (db : Db) (workerId : UUID) (jti : String) : Except Failure Worker :=
  match db.workers.find workerId with
  | none => .error (.orbi invalidWorkerToken)
  | some worker =>
      if workerTokenCurrent worker jti then .ok worker
      else .error (.orbi invalidWorkerToken)

theorem requireWorker_spec {db : Db} {workerId : UUID} {jti : String} {worker : Worker}
    (h : requireWorker db workerId jti = .ok worker) :
    db.workers.find workerId = some worker ∧ worker.revokedAt = none ∧
      worker.tokenJti = some jti := by
  unfold requireWorker at h
  split at h
  · cases h
  next row hfind =>
    split at h
    next hcurrent =>
      cases h
      simp only [workerTokenCurrent, Bool.and_eq_true, Option.isNone_iff_eq_none,
        beq_iff_eq] at hcurrent
      exact ⟨hfind, hcurrent.1, hcurrent.2⟩
    · cases h

end OrbiGateway
