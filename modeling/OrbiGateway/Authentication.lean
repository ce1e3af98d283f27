import OrbiGateway.Dependencies
import OrbiGateway.Services.RateLimit

/-!
# Bearer authentication

`require_api_key` from the header to the answer, on the database that its session sees and
on the counters of the rate limiter.  A call that raises rolls its session back, and what
it has written to Redis stays.
-/

namespace OrbiGateway

/-! ## The header -/

/-- `str.isspace` of one character. -/
def isSpace (c : Char) : Bool :=
  let n := c.toNat
  (9 ≤ n && n ≤ 13) || (28 ≤ n && n ≤ 32) || n == 133 || n == 160 || n == 5760 ||
    (8192 ≤ n && n ≤ 8202) || n == 8232 || n == 8233 || n == 8239 || n == 8287 || n == 12288

/-- `str.strip`. -/
def strip (text : List Char) : List Char :=
  ((text.dropWhile isSpace).reverse.dropWhile isSpace).reverse

/-- The key of an `Authorization` header: none without the header or its scheme. -/
def bearerKey (authorization : Option String) : Option String :=
  match authorization with
  | none => none
  | some header =>
      if !"Bearer ".toList.isPrefixOf header.toList then none
      else some (String.ofList (strip (header.toList.drop "Bearer ".toList.length)))

example : bearerKey (some "Bearer  a b\n") = some "a b" ∧ bearerKey (some "bearer a") = none := by
  decide

theorem isSpace_of_isUrlsafe {c : Char} (h : Urlsafe.isUrlsafe c = true) : isSpace c = false := by
  have hall : ∀ n < 123, Urlsafe.isUrlsafe (Char.ofNat n) = true →
      isSpace (Char.ofNat n) = false := by decide
  have hc := hall c.toNat (Urlsafe.toNat_lt_of_isUrlsafe h)
  rw [Char.ofNat_toNat] at hc
  exact hc h

theorem strip_of_no_space {text : List Char} (h : ∀ c ∈ text, isSpace c = false) :
    strip text = text := by
  have hdrop : ∀ text : List Char, (∀ c ∈ text, isSpace c = false) →
      text.dropWhile isSpace = text := by
    intro text htext
    cases text with
    | nil => rfl
    | cons c rest => simp [htext c List.mem_cons_self]
  unfold strip
  rw [hdrop text h, hdrop text.reverse fun c hc => h c (List.mem_reverse.mp hc),
    List.reverse_reverse]

/-- The text behind the scheme is read as it is, if it has no blanks. -/
theorem bearerKey_of_no_space {text : String} (h : ∀ c ∈ text.toList, isSpace c = false) :
    bearerKey (some ("Bearer " ++ text)) = some text := by
  have hbegin : "Bearer ".toList.isPrefixOf ("Bearer " ++ text).toList = true := by
    rw [String.toList_append]
    exact List.isPrefixOf_iff_prefix.mpr (List.prefix_append _ _)
  simp only [bearerKey, hbegin, Bool.not_true, Bool.false_eq_true, if_false]
  rw [String.toList_append, List.drop_left, strip_of_no_space h, String.ofList_toList]

/-! ## The call -/

/-- The database that the session of a call sees, and Redis. -/
structure AuthState where
  db : Db
  counters : Counters

/-- The clocks that a call reads, and the time of Redis. -/
structure AuthClock where
  /-- The clock read by `is_record_active`. -/
  activeNow : Timestamp
  /-- The clock read for the daily counter. -/
  now : Timestamp
  /-- The UTC date of `now`. -/
  today : Date
  /-- The minute of the clock that `allow_minute` reads. -/
  minute : ClockMinute
  redisNow : ℚ

/-- What the database part reads outside the database. -/
def AuthClock.readings (clock : AuthClock) (service : APIKeyService) (counters : Counters) :
    KeyReadings where
  verifySecret := service.verifySecret
  allowMinute := fun keyId rpmLimit =>
    (RateLimitService.allowMinute counters keyId rpmLimit clock.minute clock.redisNow).1
  activeNow := clock.activeNow
  now := clock.now
  today := clock.today

/-- `require_api_key`. -/
def requireApiKeyHeader (service : APIKeyService) (state : AuthState) (clock : AuthClock)
    (authorization : Option String) : Except Failure APIKey × AuthState :=
  match bearerKey authorization with
  | none => (.error (.orbi invalidApiKey), state)
  | some rawKey =>
    match APIKeyService.parse rawKey with
    | none => (.error (.orbi invalidApiKey), state)
    | some parsed =>
      match findActiveKey state.db parsed.keyId with
      | none => (.error (.orbi invalidApiKey), state)
      | some record =>
        if record.environment ≠ parsed.environment ∨
            !service.verifySecret parsed.secret record.secretHash ∨
            !isRecordActive record.expiresAt record.revokedAt clock.activeNow then
          (.error (.orbi invalidApiKey), state)
        else
          let record := record.resetDay clock.today
          if record.dailyRequestsUsed ≥ record.dailyReqLimit then
            (.error (.orbi dailyRequestLimitExceeded), state)
          else
            let (allowed, counters) := RateLimitService.allowMinute state.counters
              record.keyId record.rpmLimit clock.minute clock.redisNow
            if !allowed then
              (.error (.orbi rateLimitExceeded), { state with counters := counters })
            else
              let record := { record with
                dailyRequestsUsed := record.dailyRequestsUsed + 1
                lastUsedAt := some clock.now }
              (.ok record, ⟨{ state.db with apiKeys := state.db.apiKeys.put record }, counters⟩)

section Call

variable {service : APIKeyService} {state : AuthState} {clock : AuthClock}
  {authorization : Option String}

theorem requireApiKeyHeader_of_no_key
    (h : (bearerKey authorization).bind APIKeyService.parse = none) :
    requireApiKeyHeader service state clock authorization =
      (.error (.orbi invalidApiKey), state) := by
  unfold requireApiKeyHeader
  cases hbearer : bearerKey authorization with
  | none => rfl
  | some rawKey =>
      rw [hbearer] at h
      change APIKeyService.parse rawKey = none at h
      simp only [h]

theorem isOpenedBy_readings_iff {record : APIKey} {parsed : ParsedKey} :
    record.isOpenedBy parsed (clock.readings service state.counters) = true ↔
      record.environment = parsed.environment ∧
        service.verifySecret parsed.secret record.secretHash = true ∧
        isRecordActive record.expiresAt record.revokedAt clock.activeNow = true := by
  simp only [APIKey.isOpenedBy, AuthClock.readings, Bool.and_eq_true, beq_iff_eq, and_assoc]

theorem not_isOpenedBy_readings_iff {record : APIKey} {parsed : ParsedKey} :
    record.isOpenedBy parsed (clock.readings service state.counters) = false ↔
      record.environment ≠ parsed.environment ∨
        !service.verifySecret parsed.secret record.secretHash ∨
        !isRecordActive record.expiresAt record.revokedAt clock.activeNow := by
  simp only [APIKey.isOpenedBy, AuthClock.readings, Bool.and_eq_false_iff, beq_eq_false_iff_ne,
    Bool.not_eq_true', or_assoc]

theorem requireApiKeyHeader_of_closed {parsed : ParsedKey}
    (h : (bearerKey authorization).bind APIKeyService.parse = some parsed)
    (hclosed : ∀ record, findActiveKey state.db parsed.keyId = some record →
      record.isOpenedBy parsed (clock.readings service state.counters) = false) :
    requireApiKeyHeader service state clock authorization =
      (.error (.orbi invalidApiKey), state) := by
  obtain ⟨rawKey, hbearer, hparse⟩ := Option.bind_eq_some_iff.mp h
  unfold requireApiKeyHeader
  simp only [hbearer, hparse]
  cases hfind : findActiveKey state.db parsed.keyId with
  | none => rfl
  | some record => exact if_pos (not_isOpenedBy_readings_iff.mp (hclosed record hfind))

/-- With a key the answer is that of the database part. -/
theorem requireApiKeyHeader_of_key {parsed : ParsedKey}
    (h : (bearerKey authorization).bind APIKeyService.parse = some parsed) :
    (requireApiKeyHeader service state clock authorization).1 =
        (requireApiKey state.db parsed (clock.readings service state.counters)).map Prod.fst ∧
      (requireApiKeyHeader service state clock authorization).2.db =
        ((requireApiKey state.db parsed (clock.readings service state.counters)).map
          Prod.snd).toOption.getD state.db := by
  obtain ⟨rawKey, hbearer, hparse⟩ := Option.bind_eq_some_iff.mp h
  unfold requireApiKeyHeader requireApiKey
  simp only [hbearer, hparse]
  cases findActiveKey state.db parsed.keyId with
  | none => exact ⟨rfl, rfl⟩
  | some record =>
      dsimp only
      by_cases hclosed : record.environment ≠ parsed.environment ∨
          !service.verifySecret parsed.secret record.secretHash ∨
          !isRecordActive record.expiresAt record.revokedAt clock.activeNow
      · have hopen : record.isOpenedBy parsed (clock.readings service state.counters) = false :=
          not_isOpenedBy_readings_iff.mpr hclosed
        rw [if_pos hclosed, hopen]
        exact ⟨rfl, rfl⟩
      · have hopen : record.isOpenedBy parsed (clock.readings service state.counters) = true := by
          rw [← Bool.not_eq_false]
          exact fun hno => hclosed (not_isOpenedBy_readings_iff.mp hno)
        rw [if_neg hclosed, hopen]
        by_cases hdaily : (record.resetDay clock.today).dailyRequestsUsed ≥
            (record.resetDay clock.today).dailyReqLimit
        · have hcount : record.countCall (clock.readings service state.counters) =
              .error (.orbi dailyRequestLimitExceeded) := if_pos hdaily
          rw [if_pos hdaily, hcount]
          exact ⟨rfl, rfl⟩
        · rw [if_neg hdaily]
          by_cases hminute : (!(RateLimitService.allowMinute state.counters
              (record.resetDay clock.today).keyId (record.resetDay clock.today).rpmLimit
              clock.minute clock.redisNow).1) = true
          · have hcount : record.countCall (clock.readings service state.counters) =
                .error (.orbi rateLimitExceeded) := (if_neg hdaily).trans (if_pos hminute)
            rw [if_pos hminute, hcount]
            exact ⟨rfl, rfl⟩
          · have hcount : record.countCall (clock.readings service state.counters) =
                .ok { record.resetDay clock.today with
                  dailyRequestsUsed := (record.resetDay clock.today).dailyRequestsUsed + 1
                  lastUsedAt := some clock.now } := (if_neg hdaily).trans (if_neg hminute)
            rw [if_neg hminute, hcount]
            exact ⟨rfl, rfl⟩

end Call

end OrbiGateway
