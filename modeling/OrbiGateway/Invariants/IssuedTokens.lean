import OrbiGateway.System.WorkerRows

/-!
# Issued worker tokens

What `require_worker` checks in a worker's row is written by the registration that adds the
row, by renewals and by the revocation.  The row of a worker that has not been revoked names
the newest token that it was given, although a renewal writes with a row that it has loaded
before other calls have committed.
-/

namespace OrbiGateway

open Relational Transition

/-! ## Credentials -/

/-- The columns of a worker that decide on its tokens. -/
structure WorkerCredentials where
  id : UUID
  tokenJti : Option String
  revokedAt : Option Timestamp

def Worker.credentials (worker : Worker) : WorkerCredentials where
  id := worker.id
  tokenJti := worker.tokenJti
  revokedAt := worker.revokedAt

/-- The new `jti` is written if it differs from the one that has been loaded. -/
def WorkerCredentials.renewed (row : WorkerCredentials) (loaded : Option String)
    (jti : String) : WorkerCredentials :=
  { row with tokenJti := flushColumn loaded (some jti) row.tokenJti }

def WorkerCredentials.revoked (row : WorkerCredentials) (now : Timestamp) :
    WorkerCredentials :=
  { row with tokenJti := none, revokedAt := some (row.revokedAt.getD now) }

theorem Worker.credentials_flush_reported (loaded row : Worker)
    (payload : WorkerHeartbeatRequest) (now : Timestamp) :
    (loaded.flush (loaded.reported payload now) row).credentials = row.credentials := by
  simp [credentials, flush, reported, flushColumn]

theorem Worker.credentials_flush_renewed (loaded row : Worker) (jti : String) :
    (loaded.flush (loaded.renewed jti) row).credentials =
      row.credentials.renewed loaded.tokenJti jti := by
  simp [credentials, flush, renewed, flushColumn, WorkerCredentials.renewed]

theorem Worker.credentials_flush_revoked (row : Worker) (now : Timestamp) :
    (row.flush (row.revoked now) row).credentials = row.credentials.revoked now := by
  simp only [credentials, flush, flushColumn_loaded, revoked, WorkerCredentials.revoked]

/-- The credentials of all workers, in the order of their registration. -/
def Db.workerCredentials (db : Db) : List WorkerCredentials :=
  db.workers.rows.map Worker.credentials

/-! ## What a step does to the credentials -/

/-- How an event changes the credentials. -/
inductive WorkersChange (service : WorkerJWTService)
    (serving : List (Worker × WorkerRequest)) (rows : List WorkerCredentials) :
    GatewayEvent → List WorkerCredentials → Prop
  | kept {e : GatewayEvent} (hissued : e.issuedToken service = none)
      (hrevoked : e.revokedWorker = none) : WorkersChange service serving rows e rows
  | registered {payload : WorkerRegisterRequest} {readings : RegistrationReadings}
      {response : WorkerTokenResponse}
      (htoken : response.accessToken =
        service.issue readings.workerId readings.jti readings.issuedAt)
      (hunused : ∀ row ∈ rows, row.id ≠ readings.workerId) :
      WorkersChange service serving rows
        (.acted (.register payload readings) (.registered response))
        (rows ++ [⟨readings.workerId, some readings.jti, none⟩])
  | renewed {index : ℕ} {worker : Worker} {jti : String} {issuedAt : Timestamp}
      {reply : WorkerReply} (hserving : ∃ request, (worker, request) ∈ serving) :
      WorkersChange service serving rows
        (.acted (.serve index) (.served worker (.renewWorkerToken jti issuedAt) reply))
        (rows.map fun row =>
          if row.id = worker.id then row.renewed worker.tokenJti jti else row)
  | revoked {authorization : Option String} {workerId : UUID} {now : Timestamp}
      (hknown : ∃ row ∈ rows, row.id = workerId) :
      WorkersChange service serving rows
        (.acted (.admin authorization (.revokeWorker workerId now))
          (.administered .workerRevoked))
        (rows.map fun row => if row.id = workerId then row.revoked now else row)

section Changes

variable {services : GatewayServices} {serving : List (Worker × WorkerRequest)}
  {rows rows' : List Worker} {e : GatewayEvent}

theorem credentials_map {f : Worker → Worker} {g : WorkerCredentials → WorkerCredentials}
    {id : UUID} (h : ∀ row, (f row).credentials = g row.credentials) :
    (rows.map fun row => if row.id = id then f row else row).map Worker.credentials =
      (rows.map Worker.credentials).map fun row => if row.id = id then g row else row := by
  rw [List.map_map, List.map_map]
  apply List.map_congr_left
  intro row _
  have hcredentials : row.credentials.id = row.id := rfl
  by_cases hid : row.id = id
  · simp [hid, hcredentials, h row]
  · simp [hid, hcredentials]

theorem WorkerRowsChange.credentials (h : WorkerRowsChange services serving rows e rows') :
    WorkersChange services.registration.jwt serving (rows.map Worker.credentials) e
      (rows'.map Worker.credentials) := by
  cases h with
  | kept hleaves => exact .kept hleaves.issuedToken hleaves.revokedWorker
  | registered htoken hunused =>
      rw [List.map_append]
      apply WorkersChange.registered htoken
      intro row hrow
      obtain ⟨worker, hworker, rfl⟩ := List.mem_map.mp hrow
      exact hunused worker hworker
  | @reported index worker payload now reply hserving =>
      rw [credentials_map (g := id) fun row => worker.credentials_flush_reported row payload now]
      simp only [id_eq, ite_self, List.map_id']
      exact .kept rfl rfl
  | @renewed index worker jti issuedAt reply hserving =>
      rw [credentials_map (g := fun row => row.renewed worker.tokenJti jti) fun row =>
        worker.credentials_flush_renewed row jti]
      exact .renewed ⟨_, hserving⟩
  | @revoked authorization workerId now hknown =>
      rw [credentials_map (g := fun row => row.revoked now) fun row =>
        row.credentials_flush_revoked now]
      obtain ⟨row, hrow, hid⟩ := hknown
      exact .revoked ⟨row.credentials, List.mem_map_of_mem hrow, hid⟩
  | @marked recoverNow staleNow recovered offline =>
      have hsame : (rows.map fun row => if row.isStale (services.health.cutoff staleNow) then
          row.markedOffline else row).map Worker.credentials =
            rows.map Worker.credentials := by
        rw [List.map_map]
        apply List.map_congr_left
        intro row _
        simp only [Function.comp_apply]
        split
        · rfl
        · rfl
      rw [hsame]
      exact .kept rfl rfl

theorem GatewayStep.workerCredentials {s s' : GatewayState} (h : GatewayStep services s e s') :
    WorkersChange services.registration.jwt s.serving s.db.workerCredentials e
      s'.db.workerCredentials :=
  h.workerRows.credentials

end Changes

/-! ## Along a run -/

section Histories

variable (service : WorkerJWTService) (history : List GatewayEvent)

/-- The tokens that have been issued in a history, newest first. -/
def issuedTokens : List WorkerClaims :=
  history.filterMap (GatewayEvent.issuedToken service)

/-- The newest token of a worker. -/
def newestToken (workerId : UUID) : Option WorkerClaims :=
  (issuedTokens service history).find? fun claims => claims.sub == workerId

/-- The ids of the workers that have been revoked. -/
def revokedWorkers : List UUID :=
  history.filterMap GatewayEvent.revokedWorker

/-- Every issued token has a `jti` of its own. -/
def TokensFresh : Prop :=
  ((issuedTokens service history).map WorkerClaims.jti).Nodup

/-- The rows are those of the workers that were given tokens.  A row is marked as the history
says, and until then it names the newest token. -/
structure TokensIssued (rows : List WorkerCredentials) : Prop where
  signed : ∀ claims ∈ issuedTokens service history, ∃ workerId jti issuedAt,
    claims = service.issue workerId jti issuedAt
  known : ∀ claims ∈ issuedTokens service history, ∃ row ∈ rows, row.id = claims.sub
  held : ∀ row ∈ rows, ∀ jti, row.tokenJti = some jti →
    ∃ claims ∈ issuedTokens service history, claims.jti = jti
  revoked_iff : ∀ row ∈ rows, row.revokedAt.isSome = true ↔ row.id ∈ revokedWorkers history
  revoked_known : ∀ id ∈ revokedWorkers history, ∃ row ∈ rows, row.id = id
  current : TokensFresh service history → ∀ row ∈ rows, row.revokedAt = none →
    ∃ claims, newestToken service history row.id = some claims ∧
      row.tokenJti = some claims.jti

/-- The loaded row is of a worker that is there and names a token that was issued. -/
structure LoadedFrom (rows : List WorkerCredentials) (loaded : Worker) : Prop where
  known : ∃ row ∈ rows, row.id = loaded.id
  held : ∀ jti, loaded.tokenJti = some jti →
    ∃ claims ∈ issuedTokens service history, claims.jti = jti

end Histories

section Steps

variable {service : WorkerJWTService} {history : List GatewayEvent}
  {serving : List (Worker × WorkerRequest)} {rows rows' : List WorkerCredentials}
  {e : GatewayEvent}

theorem issuedTokens_cons_some {claims : WorkerClaims}
    (h : e.issuedToken service = some claims) :
    issuedTokens service (e :: history) = claims :: issuedTokens service history :=
  List.filterMap_cons_some h

theorem issuedTokens_cons_none (h : e.issuedToken service = none) :
    issuedTokens service (e :: history) = issuedTokens service history :=
  List.filterMap_cons_none h

theorem issuedTokens_subset_cons :
    issuedTokens service history ⊆ issuedTokens service (e :: history) :=
  ((List.sublist_cons_self e history).filterMap _).subset

theorem newestToken_cons_some {claims : WorkerClaims} {workerId : UUID}
    (h : e.issuedToken service = some claims) :
    newestToken service (e :: history) workerId =
      if claims.sub = workerId then some claims else newestToken service history workerId := by
  unfold newestToken
  rw [issuedTokens_cons_some h, List.find?_cons]
  by_cases hsub : claims.sub = workerId
  · simp [hsub]
  · have hno : (claims.sub == workerId) = false := beq_eq_false_iff_ne.mpr hsub
    rw [hno, if_neg hsub]

theorem newestToken_cons_none {workerId : UUID} (h : e.issuedToken service = none) :
    newestToken service (e :: history) workerId = newestToken service history workerId := by
  unfold newestToken
  rw [issuedTokens_cons_none h]

theorem TokensFresh.of_cons (h : TokensFresh service (e :: history)) :
    TokensFresh service history :=
  (((List.sublist_cons_self e history).filterMap _).map _).nodup h

/-- A `jti` that is drawn now has not been issued before. -/
theorem TokensFresh.jti_ne {claims claims' : WorkerClaims}
    (h : TokensFresh service (e :: history)) (hissued : e.issuedToken service = some claims)
    (hmem : claims' ∈ issuedTokens service history) : claims'.jti ≠ claims.jti := by
  unfold TokensFresh at h
  rw [issuedTokens_cons_some hissued, List.map_cons, List.nodup_cons] at h
  intro hsame
  exact h.1 (hsame ▸ List.mem_map_of_mem hmem)

namespace TokensIssued

theorem of_empty : TokensIssued service [] [] where
  signed claims hclaims := by cases hclaims
  known claims hclaims := by cases hclaims
  held row hrow := by cases hrow
  revoked_iff row hrow := by cases hrow
  revoked_known id hid := by cases hid
  current _ row hrow := by cases hrow

theorem registered (h : TokensIssued service history rows) {payload : WorkerRegisterRequest}
    {readings : RegistrationReadings} {response : WorkerTokenResponse}
    (htoken : response.accessToken =
      service.issue readings.workerId readings.jti readings.issuedAt)
    (hunused : ∀ row ∈ rows, row.id ≠ readings.workerId) :
    TokensIssued service (.acted (.register payload readings) (.registered response) :: history)
      (rows ++ [⟨readings.workerId, some readings.jti, none⟩]) := by
  have hissued : (GatewayEvent.acted (.register payload readings)
      (.registered response)).issuedToken service =
        some (service.issue readings.workerId readings.jti readings.issuedAt) :=
    congrArg some htoken
  have hrevoked : (GatewayEvent.acted (.register payload readings)
      (.registered response)).revokedWorker = none := rfl
  have hrevokedWorkers := List.filterMap_cons_none (l := history) hrevoked
  refine ⟨?_, ?_, ?_, ?_, ?_, ?_⟩
  · intro claims hclaims
    rw [issuedTokens_cons_some hissued] at hclaims
    rcases List.mem_cons.mp hclaims with rfl | hold
    · exact ⟨_, _, _, rfl⟩
    · exact h.signed claims hold
  · intro claims hclaims
    rw [issuedTokens_cons_some hissued] at hclaims
    rcases List.mem_cons.mp hclaims with rfl | hold
    · exact ⟨_, List.mem_append_right _ (List.mem_singleton_self _), rfl⟩
    · obtain ⟨row, hrow, hid⟩ := h.known claims hold
      exact ⟨row, List.mem_append_left _ hrow, hid⟩
  · intro row hrow jti hjti
    rw [issuedTokens_cons_some hissued]
    rcases List.mem_append.mp hrow with hold | hnew
    · obtain ⟨claims, hclaims, hsame⟩ := h.held row hold jti hjti
      exact ⟨claims, List.mem_cons_of_mem _ hclaims, hsame⟩
    · cases List.mem_singleton.mp hnew
      exact ⟨_, List.mem_cons_self, Option.some.inj hjti⟩
  · intro row hrow
    rw [revokedWorkers, hrevokedWorkers]
    rcases List.mem_append.mp hrow with hold | hnew
    · exact h.revoked_iff row hold
    · cases List.mem_singleton.mp hnew
      constructor
      · intro hsome
        cases hsome
      · intro hmem
        obtain ⟨old, hold, hid⟩ := h.revoked_known _ hmem
        exact absurd hid (hunused old hold)
  · intro id hid
    rw [revokedWorkers, hrevokedWorkers] at hid
    obtain ⟨row, hrow, hsame⟩ := h.revoked_known id hid
    exact ⟨row, List.mem_append_left _ hrow, hsame⟩
  · intro hfresh row hrow hunrevoked
    rw [newestToken_cons_some hissued]
    rcases List.mem_append.mp hrow with hold | hnew
    · rw [if_neg fun hsub => hunused row hold hsub.symm]
      exact h.current hfresh.of_cons row hold hunrevoked
    · cases List.mem_singleton.mp hnew
      exact ⟨_, if_pos rfl, rfl⟩

/-- A renewal writes its `jti` to an unrevoked row, since the one it has loaded is older. -/
theorem renewed (h : TokensIssued service history rows) {index : ℕ} {worker : Worker}
    {jti : String} {issuedAt : Timestamp} {reply : WorkerReply}
    (hloaded : LoadedFrom service history rows worker) :
    TokensIssued service
      (.acted (.serve index) (.served worker (.renewWorkerToken jti issuedAt) reply) :: history)
      (rows.map fun row =>
        if row.id = worker.id then row.renewed worker.tokenJti jti else row) := by
  have hissued : (GatewayEvent.acted (.serve index)
      (.served worker (.renewWorkerToken jti issuedAt) reply)).issuedToken service =
        some (service.issue worker.id jti issuedAt) := rfl
  have hid : ∀ row : WorkerCredentials,
      (if row.id = worker.id then row.renewed worker.tokenJti jti else row).id = row.id := by
    intro row
    split
    · rfl
    · rfl
  have hrevokedAt : ∀ row : WorkerCredentials,
      (if row.id = worker.id then row.renewed worker.tokenJti jti else row).revokedAt =
        row.revokedAt := by
    intro row
    split
    · rfl
    · rfl
  refine ⟨?_, ?_, ?_, ?_, ?_, ?_⟩
  · intro claims hclaims
    rw [issuedTokens_cons_some hissued] at hclaims
    rcases List.mem_cons.mp hclaims with rfl | hold
    · exact ⟨_, _, _, rfl⟩
    · exact h.signed claims hold
  · intro claims hclaims
    rw [issuedTokens_cons_some hissued] at hclaims
    have hknown : ∃ row ∈ rows, row.id = claims.sub := by
      rcases List.mem_cons.mp hclaims with rfl | hold
      · exact hloaded.known
      · exact h.known claims hold
    obtain ⟨row, hrow, hsame⟩ := hknown
    exact ⟨_, List.mem_map_of_mem hrow, (hid row).trans hsame⟩
  · intro row' hrow' jti' hjti
    rw [issuedTokens_cons_some hissued]
    obtain ⟨row, hrow, rfl⟩ := List.mem_map.mp hrow'
    have hold : row.tokenJti = some jti' → ∃ claims ∈ service.issue worker.id jti issuedAt ::
        issuedTokens service history, claims.jti = jti' := by
      intro hsame
      obtain ⟨claims, hclaims, heq⟩ := h.held row hrow jti' hsame
      exact ⟨claims, List.mem_cons_of_mem _ hclaims, heq⟩
    split at hjti
    · rcases flushColumn_cases worker.tokenJti (some jti) row.tokenJti with hkept | hnew
      · exact hold (hkept.symm.trans hjti)
      · exact ⟨_, List.mem_cons_self, Option.some.inj (hnew.symm.trans hjti)⟩
    · exact hold hjti
  · intro row' hrow'
    obtain ⟨row, hrow, rfl⟩ := List.mem_map.mp hrow'
    rw [hid, hrevokedAt]
    exact h.revoked_iff row hrow
  · intro id hmem
    obtain ⟨row, hrow, hsame⟩ := h.revoked_known id hmem
    exact ⟨_, List.mem_map_of_mem hrow, (hid row).trans hsame⟩
  · intro hfresh row' hrow' hunrevoked
    obtain ⟨row, hrow, rfl⟩ := List.mem_map.mp hrow'
    rw [hrevokedAt] at hunrevoked
    rw [hid, newestToken_cons_some hissued]
    by_cases hsame : row.id = worker.id
    · have hnew : some jti ≠ worker.tokenJti := by
        intro hequal
        obtain ⟨claims, hclaims, hjti⟩ := hloaded.held jti hequal.symm
        exact hfresh.jti_ne hissued hclaims hjti
      refine ⟨_, if_pos hsame.symm, ?_⟩
      have hno : (some jti == worker.tokenJti) = false := beq_eq_false_iff_ne.mpr hnew
      simp only [if_pos hsame, WorkerCredentials.renewed, flushColumn, hno, Bool.false_eq_true,
        if_false]
      rfl
    · rw [if_neg fun hsub => hsame hsub.symm, if_neg hsame]
      exact h.current hfresh.of_cons row hrow hunrevoked

theorem revoked (h : TokensIssued service history rows) {authorization : Option String}
    {workerId : UUID} {now : Timestamp} (hknown : ∃ row ∈ rows, row.id = workerId) :
    TokensIssued service
      (.acted (.admin authorization (.revokeWorker workerId now))
        (.administered .workerRevoked) :: history)
      (rows.map fun row => if row.id = workerId then row.revoked now else row) := by
  have hid : ∀ row : WorkerCredentials,
      (if row.id = workerId then row.revoked now else row).id = row.id := by
    intro row
    split
    · rfl
    · rfl
  refine ⟨h.signed, ?_, ?_, ?_, ?_, ?_⟩
  · intro claims hclaims
    obtain ⟨row, hrow, hsame⟩ := h.known claims hclaims
    exact ⟨_, List.mem_map_of_mem hrow, (hid row).trans hsame⟩
  · intro row' hrow' jti hjti
    obtain ⟨row, hrow, rfl⟩ := List.mem_map.mp hrow'
    split at hjti
    · cases hjti
    · exact h.held row hrow jti hjti
  · intro row' hrow'
    obtain ⟨row, hrow, rfl⟩ := List.mem_map.mp hrow'
    rw [hid]
    change _ ↔ row.id ∈ workerId :: revokedWorkers history
    rw [List.mem_cons, ← h.revoked_iff row hrow]
    by_cases hsame : row.id = workerId
    · simp [hsame, WorkerCredentials.revoked]
    · simp [hsame]
  · intro id hmem
    have hold : ∃ row ∈ rows, row.id = id := by
      rcases List.mem_cons.mp hmem with rfl | hold
      · exact hknown
      · exact h.revoked_known id hold
    obtain ⟨row, hrow, hsame⟩ := hold
    exact ⟨_, List.mem_map_of_mem hrow, (hid row).trans hsame⟩
  · intro hfresh row' hrow' hunrevoked
    obtain ⟨row, hrow, rfl⟩ := List.mem_map.mp hrow'
    by_cases hsame : row.id = workerId
    · rw [if_pos hsame] at hunrevoked
      cases hunrevoked
    · rw [if_neg hsame] at hunrevoked ⊢
      exact h.current hfresh.of_cons row hrow hunrevoked

theorem step (h : TokensIssued service history rows)
    (hserving : ∀ entry ∈ serving, LoadedFrom service history rows entry.1)
    (hchange : WorkersChange service serving rows e rows') :
    TokensIssued service (e :: history) rows' := by
  cases hchange with
  | kept hissued hrevoked =>
      have hrevokedWorkers : revokedWorkers (e :: history) = revokedWorkers history :=
        List.filterMap_cons_none hrevoked
      refine ⟨?_, ?_, ?_, ?_, ?_, ?_⟩
      · rw [issuedTokens_cons_none hissued]
        exact h.signed
      · rw [issuedTokens_cons_none hissued]
        exact h.known
      · rw [issuedTokens_cons_none hissued]
        exact h.held
      · rw [hrevokedWorkers]
        exact h.revoked_iff
      · rw [hrevokedWorkers]
        exact h.revoked_known
      · intro hfresh row hrow hunrevoked
        rw [newestToken_cons_none hissued]
        exact h.current hfresh.of_cons row hrow hunrevoked
  | registered htoken hunused => exact h.registered htoken hunused
  | renewed hworker =>
      obtain ⟨request, hentry⟩ := hworker
      exact h.renewed (hserving _ hentry)
  | revoked hknown => exact h.revoked hknown

end TokensIssued

end Steps

section Runs

variable {services : GatewayServices} {history : List GatewayEvent} {s : GatewayState}

/-- What the worker calls that are being served have loaded. -/
def ServingLoaded (services : GatewayServices) (history : List GatewayEvent)
    (s : GatewayState) : Prop :=
  ∀ entry ∈ s.serving, ∀ jti, entry.1.tokenJti = some jti →
    ∃ claims ∈ issuedTokens services.registration.jwt history, claims.jti = jti

theorem ServingLoaded.step {s' : GatewayState} {e : GatewayEvent}
    (h : ServingLoaded services history s)
    (hissued : TokensIssued services.registration.jwt history s.db.workerCredentials)
    (hstep : GatewayStep services s e s') : ServingLoaded services (e :: history) s' := by
  have hkept : ∀ entry ∈ s.serving, ∀ jti, entry.1.tokenJti = some jti →
      ∃ claims ∈ issuedTokens services.registration.jwt (e :: history), claims.jti = jti := by
    intro entry hentry jti hjti
    obtain ⟨claims, hclaims, hsame⟩ := h entry hentry jti hjti
    exact ⟨claims, issuedTokens_subset_cons hclaims, hsame⟩
  have hsublist : s'.serving.Sublist s.serving → ServingLoaded services (e :: history) s' :=
    fun hsub entry hentry => hkept entry (hsub.subset hentry)
  cases hstep.change with
  | @loaded authorization now request worker hworker =>
      obtain ⟨-, claims, -, -, hrow, -⟩ := authenticateWorker_spec hworker
      have hmem := Table.mem_of_find (requireWorker_spec hrow).1
      intro entry hentry jti hjti
      rcases List.mem_cons.mp hentry with rfl | hold
      · obtain ⟨claims, hclaims, hsame⟩ :=
          hissued.held worker.credentials (List.mem_map_of_mem hmem) jti hjti
        exact ⟨claims, issuedTokens_subset_cons hclaims, hsame⟩
      · exact hkept entry hold jti hjti
  | served => exact hsublist (List.eraseIdx_sublist _ _)
  | failed hfails hserving hwaiting => exact hsublist hserving
  | abandoned hserving hwaiting => exact hsublist hserving
  | _ => exact hkept

theorem GatewayRun.tokensIssued (hrun : GatewayRun services history s) :
    TokensIssued services.registration.jwt history s.db.workerCredentials := by
  have hboth : TokensIssued services.registration.jwt history s.db.workerCredentials ∧
      ServingLoaded services history s := by
    apply Run.history_invariant (I := fun history (s : GatewayState) =>
      TokensIssued services.registration.jwt history s.db.workerCredentials ∧
        ServingLoaded services history s) hrun
    · refine ⟨.of_empty, ?_⟩
      intro entry hentry
      cases hentry
    · intro history s e s' hprev ih hstep
      refine ⟨ih.1.step ?_ hstep.workerCredentials, ih.2.step ih.1 hstep⟩
      intro entry hentry
      obtain ⟨worker, hworker, hid⟩ := List.mem_map.mp (servingKnown_of_run hprev entry hentry)
      exact ⟨⟨worker.credentials, List.mem_map_of_mem hworker, hid⟩, ih.2 entry hentry⟩
  exact hboth.1

end Runs

end OrbiGateway
