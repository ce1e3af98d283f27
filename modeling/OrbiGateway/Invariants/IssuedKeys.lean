import OrbiGateway.Invariants.GatewayLedgers

/-!
# Issued API keys

The credentials of a key are written once, by the administrator's call that creates it, and
only a revocation changes them.  What the gateway admits is therefore settled by the history
of calls: the keys that were created, less those that were revoked or have expired.
-/

namespace OrbiGateway

open Relational Transition

/-! ## Credentials -/

/-- The columns of a key that its use does not write. -/
structure KeyCredentials where
  id : UUID
  projectId : UUID
  keyId : String
  secretHash : String
  environment : String
  scopes : List String
  expiresAt : Option Timestamp
  revokedAt : Option Timestamp
  rpmLimit : ℤ
  dailyReqLimit : ℤ

def APIKey.credentials (record : APIKey) : KeyCredentials where
  id := record.id
  projectId := record.projectId
  keyId := record.keyId
  secretHash := record.secretHash
  environment := record.environment
  scopes := record.scopes
  expiresAt := record.expiresAt
  revokedAt := record.revokedAt
  rpmLimit := record.rpmLimit
  dailyReqLimit := record.dailyReqLimit

/-- The first revocation is the one that counts. -/
def KeyCredentials.revoked (key : KeyCredentials) (now : Timestamp) : KeyCredentials :=
  { key with revokedAt := some (key.revokedAt.getD now) }

/-- The credentials as they were created. -/
def KeyCredentials.unrevoked (key : KeyCredentials) : KeyCredentials :=
  { key with revokedAt := none }

theorem APIKey.credentials_revoked (record : APIKey) (now : Timestamp) :
    (record.revoked now).credentials = record.credentials.revoked now := by
  unfold APIKey.revoked
  cases hrevoked : record.revokedAt with
  | none => simp [credentials, KeyCredentials.revoked, hrevoked]
  | some instant => simp [credentials, KeyCredentials.revoked, hrevoked]

theorem APIKey.credentials_countCall {record record' : APIKey} {readings : KeyReadings}
    (h : record.countCall readings = .ok record') :
    record'.credentials = record.credentials := by
  have hreset : (record.resetDay readings.today).credentials = record.credentials := by
    unfold resetDay
    split
    · rfl
    · rfl
  unfold countCall at h
  dsimp only at h
  split at h
  · cases h
  split at h
  · cases h
  cases h
  exact hreset

/-- The credentials of all keys, in the order of their creation. -/
def Db.credentials (db : Db) : List KeyCredentials :=
  db.apiKeys.rows.map APIKey.credentials

section Operations

variable {db db' : Db}

theorem credentials_requireApiKey {parsed : ParsedKey} {readings : KeyReadings}
    {record : APIKey} (h : requireApiKey db parsed readings = .ok (record, db')) :
    db'.credentials = db.credentials := by
  obtain ⟨found, hfound, -, -, hcount, rfl⟩ := requireApiKey_spec h
  apply Table.map_put
  intro r hr hid
  have hfoundId : record.id = found.id := congrArg Prod.fst (APIKey.lookupColumns_countCall hcount)
  have heq : r = found := db.apiKeys.eq_of_key_eq hr hfound (hid.trans hfoundId)
  rw [heq, APIKey.credentials_countCall hcount]

theorem exec_credentials {op : Op} {reply : Reply} (h : exec db op = .ok (reply, db')) :
    db'.credentials = db.credentials := by
  cases exec_ledgerStep h with
  | counted hkey hkeys husage =>
      have hsame := credentials_requireApiKey hkey
      unfold Db.credentials at hsame ⊢
      rw [hkeys]
      exact hsame
  | used hmem hheld hkeys husage =>
      unfold Db.credentials
      rw [hkeys, QueueService.countUse, Table.rows_updateWhere, List.map_map]
      apply List.map_congr_left
      intro record _
      simp only [Function.comp_apply]
      split
      · rfl
      · rfl
  | kept hchat hkeys husage hrefused =>
      unfold Db.credentials
      rw [hkeys]

theorem workerRequest_credentials {request : WorkerRequest} {worker : Worker}
    {reply : WorkerReply} {leaseSeconds : ℤ}
    (h : (request.call leaseSeconds).run db worker = .ok (reply, db')) :
    db'.credentials = db.credentials := by
  cases workerRequest_effect h with
  | reported => rfl
  | renewed => rfl
  | idle => rfl
  | claimed hstatus hexec => exact exec_credentials hexec
  | completed hexec => exact exec_credentials hexec
  | rejected hexec => exact exec_credentials hexec

theorem clientRequest_credentials {request : ClientRequest} {parsed : ParsedKey}
    {readings : KeyReadings} {reply : PublicReply}
    (h : (request.call parsed readings).serve db = .ok (reply, db')) :
    db'.credentials = db.credentials := by
  cases clientRequest_effect h with
  | accepted hexec => exact exec_credentials hexec
  | listed hkey => exact credentials_requireApiKey hkey
  | reported hkey => exact credentials_requireApiKey hkey

end Operations

/-! ## What a step does to the credentials -/

/-- A key that an administrator has created: the request, the draw and the answer. -/
abbrev CreatedKey := APIKeyCreateRequest × KeyDraw × APIKeyCreatedResponse

def createdBy : Answer → Action → Option CreatedKey
  | .administered (.keyCreated response), .admin _ (.createAPIKey payload draw) =>
      some (payload, draw, response)
  | _, _ => none

def GatewayEvent.createdKey : GatewayEvent → Option CreatedKey
  | .acted action answer => createdBy answer action
  | _ => none

def revokedBy : Answer → Action → Option UUID
  | .administered .keyRevoked, .admin _ (.revokeAPIKey apiKeyId _) => some apiKeyId
  | _, _ => none

def GatewayEvent.revokedKey : GatewayEvent → Option UUID
  | .acted action answer => revokedBy answer action
  | _ => none

/-- How an event changes the credentials. -/
inductive CredentialsChange (service : APIKeyService) (keys : List KeyCredentials) :
    GatewayEvent → List KeyCredentials → Prop
  | kept {e : GatewayEvent} (hcreated : e.createdKey = none) (hrevoked : e.revokedKey = none) :
      CredentialsChange service keys e keys
  | created {authorization : Option String} {payload : APIKeyCreateRequest} {draw : KeyDraw}
      {generated : GeneratedAPIKey}
      (hgenerate : service.generate draw.hash payload.environment.text draw.idBytes
        draw.secretBytes = .ok generated)
      (hunused : ∀ key ∈ keys, key.id ≠ draw.apiKeyId ∧ key.keyId ≠ generated.keyId) :
      CredentialsChange service keys
        (.acted (.admin authorization (.createAPIKey payload draw))
          (.administered (.keyCreated
            ⟨draw.apiKeyId, generated.rawKey, generated.displayPrefix⟩)))
        (keys ++ [(newAPIKey payload generated draw).credentials])
  | revoked {authorization : Option String} {apiKeyId : UUID} {now : Timestamp}
      (hknown : ∃ key ∈ keys, key.id = apiKeyId) :
      CredentialsChange service keys
        (.acted (.admin authorization (.revokeAPIKey apiKeyId now))
          (.administered .keyRevoked))
        (keys.map fun key => if key.id = apiKeyId then key.revoked now else key)

theorem adminCall_credentials {services : GatewayServices} {gdb gdb' : GatewayDb}
    {authorization : Option String} {call : AdminCall} {reply : AdminReply}
    (h : call.route services gdb = .ok (reply, gdb')) :
    CredentialsChange services.apiKeys gdb.credentials
      (.acted (.admin authorization call) (.administered reply)) gdb'.credentials := by
  cases call with
  | createAPIKey payload draw =>
      obtain ⟨⟨response, core⟩, hcreate, hpure⟩ := Except.bind_eq_ok_iff.mp h
      rw [Except.pure_eq_ok_iff] at hpure
      cases hpure
      obtain ⟨generated, apiKeys, -, hgenerate, hkeyIds, hinsert, rfl, rfl⟩ :=
        createAPIKey_spec hcreate
      obtain ⟨hids, hrows⟩ := Table.insert_eq_some_iff.mp hinsert
      have hcredentials : apiKeys.rows.map APIKey.credentials =
          gdb.credentials ++ [(newAPIKey payload generated draw).credentials] := by
        rw [hrows, List.map_append]
        rfl
      unfold Db.credentials
      rw [hcredentials]
      apply CredentialsChange.created hgenerate
      intro key hkey
      obtain ⟨record, hrecord, rfl⟩ := List.mem_map.mp hkey
      exact ⟨hids record hrecord, hkeyIds record hrecord⟩
  | createWorkerEnrollment payload draw =>
      obtain ⟨⟨response, after⟩, -, hpure⟩ := Except.bind_eq_ok_iff.mp h
      rw [Except.pure_eq_ok_iff] at hpure
      cases hpure
      exact .kept rfl rfl
  | createProject payload readings =>
      obtain ⟨⟨response, after⟩, hcreate, hpure⟩ := Except.bind_eq_ok_iff.mp h
      rw [Except.pure_eq_ok_iff] at hpure
      cases hpure
      obtain ⟨projects, projectNames, -, -, rfl⟩ := createProject_spec hcreate
      exact .kept rfl rfl
  | createModelAlias payload =>
      obtain ⟨⟨response, core⟩, hcreate, hpure⟩ := Except.bind_eq_ok_iff.mp h
      rw [Except.pure_eq_ok_iff] at hpure
      cases hpure
      unfold createModelAlias at hcreate
      split at hcreate
      · cases hcreate
      · cases hcreate
        exact .kept rfl rfl
  | revokeAPIKey apiKeyId now =>
      obtain ⟨core, hrevoke, hpure⟩ := Except.bind_eq_ok_iff.mp h
      rw [Except.pure_eq_ok_iff] at hpure
      cases hpure
      unfold revokeAPIKey at hrevoke
      split at hrevoke
      · cases hrevoke
      next record hfind =>
        cases hrevoke
        have hmem : record ∈ gdb.apiKeys.rows := Table.mem_of_find hfind
        have hid : record.id = apiKeyId := Table.key_of_find hfind
        have hcredentials : (gdb.apiKeys.put (record.revoked now)).rows.map
            APIKey.credentials = gdb.credentials.map fun key =>
              if key.id = apiKeyId then key.revoked now else key := by
          rw [Table.rows_put, Db.credentials, List.map_map, List.map_map]
          apply List.map_congr_left
          intro r hr
          by_cases hsame : r.id = apiKeyId
          · have heq : r = record := gdb.apiKeys.eq_of_key_eq hr hmem (hsame.trans hid.symm)
            have hput : r.id = (record.revoked now).id :=
              hsame.trans (hid.symm.trans (record.id_revoked now).symm)
            have hleft : HasKey.key r = HasKey.key (record.revoked now) := hput
            have hright : r.credentials.id = apiKeyId := hsame
            simp only [Function.comp_apply, if_pos hleft, if_pos hright]
            rw [APIKey.credentials_revoked, heq]
          · have hleft : ¬HasKey.key r = HasKey.key (record.revoked now) := by
              intro hkey
              have hkey' : r.id = (record.revoked now).id := hkey
              exact hsame (hkey'.trans ((record.id_revoked now).trans hid))
            have hright : ¬r.credentials.id = apiKeyId := hsame
            simp only [Function.comp_apply, if_neg hleft, if_neg hright]
        unfold Db.credentials
        rw [hcredentials]
        exact .revoked ⟨record.credentials, List.mem_map_of_mem hmem, hid⟩
  | revokeWorker workerId now =>
      obtain ⟨core, hrevoke, hpure⟩ := Except.bind_eq_ok_iff.mp h
      rw [Except.pure_eq_ok_iff] at hpure
      cases hpure
      unfold revokeWorker at hrevoke
      split at hrevoke
      · cases hrevoke
      · cases hrevoke
        exact .kept rfl rfl

theorem GatewayStep.credentials {services : GatewayServices} {s s' : GatewayState}
    {e : GatewayEvent} (h : GatewayStep services s e s') :
    CredentialsChange services.apiKeys s.db.credentials e s'.db.credentials := by
  have hkept : e.createdKey = none → e.revokedKey = none →
      s'.db.credentials = s.db.credentials →
        CredentialsChange services.apiKeys s.db.credentials e s'.db.credentials := by
    intro hcreated hrevoked hsame
    rw [hsame]
    exact .kept hcreated hrevoked
  cases h.change with
  | administered hadmin hroute => exact adminCall_credentials hroute
  | replied hparsed hserve => exact hkept rfl rfl (clientRequest_credentials hserve)
  | registered hregister =>
      obtain ⟨_, _, record, workers, _, _, _, _, _, rfl⟩ := registerWorker_spec hregister
      exact hkept rfl rfl rfl
  | served hentry hrun => exact hkept rfl rfl (workerRequest_credentials hrun)
  | maintained hmaintain =>
      obtain ⟨mid, hexec, rfl⟩ := maintain_core hmaintain
      have hsame : mid.credentials = s.db.credentials := exec_credentials hexec
      exact hkept rfl rfl hsame
  | rescanned hperm => exact hkept rfl rfl rfl
  | waits => exact hkept rfl rfl rfl
  | completed => exact hkept rfl rfl rfl
  | loaded => exact hkept rfl rfl rfl
  | failed => exact hkept rfl rfl rfl
  | ignored => exact hkept rfl rfl rfl
  | evicted => exact hkept rfl rfl rfl
  | abandoned => exact hkept rfl rfl rfl

/-! ## Along a run -/

/-- The keys that have been created in a history, newest first. -/
def createdKeys (history : List GatewayEvent) : List CreatedKey :=
  history.filterMap GatewayEvent.createdKey

/-- The ids of the keys that have been revoked. -/
def revokedKeys (history : List GatewayEvent) : List UUID :=
  history.filterMap GatewayEvent.revokedKey

/-- The credentials that a creation wrote, whether or not they have been revoked since. -/
structure KeyCredentials.IssuedAs (service : APIKeyService) (key : KeyCredentials)
    (created : CreatedKey) (generated : GeneratedAPIKey) : Prop where
  generate : service.generate created.2.1.hash created.1.environment.text created.2.1.idBytes
    created.2.1.secretBytes = .ok generated
  response : created.2.2 = ⟨created.2.1.apiKeyId, generated.rawKey, generated.displayPrefix⟩
  credentials : key.unrevoked = (newAPIKey created.1 generated created.2.1).credentials

/-- The credentials are those of the created keys, revoked as the history says. -/
structure KeysIssued (service : APIKeyService) (history : List GatewayEvent)
    (keys : List KeyCredentials) : Prop where
  keyIds_nodup : (keys.map KeyCredentials.keyId).Nodup
  issued : ∀ key ∈ keys, ∃ created ∈ createdKeys history, ∃ generated,
    key.IssuedAs service created generated
  kept : ∀ created ∈ createdKeys history, ∃ key ∈ keys, ∃ generated,
    key.IssuedAs service created generated
  revoked_iff : ∀ key ∈ keys, key.revokedAt.isSome = true ↔ key.id ∈ revokedKeys history
  revoked_known : ∀ id ∈ revokedKeys history, ∃ key ∈ keys, key.id = id

namespace KeysIssued

variable {service : APIKeyService} {history : List GatewayEvent} {keys keys' : List KeyCredentials}
  {e : GatewayEvent}

theorem of_empty : KeysIssued service [] [] where
  keyIds_nodup := List.nodup_nil
  issued key hkey := by cases hkey
  kept created hcreated := by cases hcreated
  revoked_iff key hkey := by cases hkey
  revoked_known id hid := by cases hid

theorem created (h : KeysIssued service history keys) {authorization : Option String}
    {payload : APIKeyCreateRequest} {draw : KeyDraw} {generated : GeneratedAPIKey}
    (hgenerate : service.generate draw.hash payload.environment.text draw.idBytes
      draw.secretBytes = .ok generated)
    (hunused : ∀ key ∈ keys, key.id ≠ draw.apiKeyId ∧ key.keyId ≠ generated.keyId) :
    KeysIssued service
      (.acted (.admin authorization (.createAPIKey payload draw))
        (.administered (.keyCreated
          ⟨draw.apiKeyId, generated.rawKey, generated.displayPrefix⟩)) :: history)
      (keys ++ [(newAPIKey payload generated draw).credentials]) where
  keyIds_nodup := by
    rw [List.map_append, List.nodup_append]
    refine ⟨h.keyIds_nodup, List.nodup_singleton _, ?_⟩
    intro keyId hkeyId keyId' hnew hsame
    obtain ⟨key, hkey, rfl⟩ := List.mem_map.mp hkeyId
    cases List.mem_singleton.mp hnew
    exact (hunused key hkey).2 hsame
  issued := by
    intro key hkey
    rcases List.mem_append.mp hkey with hold | hnew
    · obtain ⟨created, hcreated, hissued⟩ := h.issued key hold
      exact ⟨created, List.mem_cons_of_mem _ hcreated, hissued⟩
    · cases List.mem_singleton.mp hnew
      exact ⟨_, List.mem_cons_self, generated, hgenerate, rfl, rfl⟩
  kept := by
    intro created hcreated
    rcases List.mem_cons.mp hcreated with rfl | hold
    · exact ⟨_, List.mem_append_right _ (List.mem_singleton_self _), generated, hgenerate, rfl,
        rfl⟩
    · obtain ⟨key, hkey, hissued⟩ := h.kept created hold
      exact ⟨key, List.mem_append_left _ hkey, hissued⟩
  revoked_iff := by
    intro key hkey
    rcases List.mem_append.mp hkey with hold | hnew
    · exact h.revoked_iff key hold
    · cases List.mem_singleton.mp hnew
      constructor
      · intro hsome
        cases hsome
      · intro hmem
        obtain ⟨old, hold, hid⟩ := h.revoked_known _ hmem
        exact absurd hid (hunused old hold).1
  revoked_known := by
    intro id hid
    obtain ⟨key, hkey, hsame⟩ := h.revoked_known id hid
    exact ⟨key, List.mem_append_left _ hkey, hsame⟩

theorem revoked (h : KeysIssued service history keys) {authorization : Option String}
    {apiKeyId : UUID} {now : Timestamp} (hknown : ∃ key ∈ keys, key.id = apiKeyId) :
    KeysIssued service
      (.acted (.admin authorization (.revokeAPIKey apiKeyId now))
        (.administered .keyRevoked) :: history)
      (keys.map fun key => if key.id = apiKeyId then key.revoked now else key) := by
  have hrevoke : ∀ key : KeyCredentials,
      (if key.id = apiKeyId then key.revoked now else key).unrevoked = key.unrevoked := by
    intro key
    split
    · rfl
    · rfl
  have hids : ∀ key : KeyCredentials,
      (if key.id = apiKeyId then key.revoked now else key).id = key.id :=
    fun key => congrArg (fun key => key.unrevoked.id) (hrevoke key)
  have hissued : ∀ (key : KeyCredentials) created generated,
      key.IssuedAs service created generated →
        (if key.id = apiKeyId then key.revoked now else key).IssuedAs service created
          generated := by
    intro key created generated hissued
    exact ⟨hissued.generate, hissued.response, (hrevoke key).trans hissued.credentials⟩
  have hkeyIds : (keys.map fun key => if key.id = apiKeyId then key.revoked now else key).map
      KeyCredentials.keyId = keys.map KeyCredentials.keyId := by
    rw [List.map_map]
    apply List.map_congr_left
    intro key _
    exact congrArg (fun key => key.unrevoked.keyId) (hrevoke key)
  refine ⟨hkeyIds ▸ h.keyIds_nodup, ?_, ?_, ?_, ?_⟩
  · intro key' hkey'
    obtain ⟨key, hkey, rfl⟩ := List.mem_map.mp hkey'
    obtain ⟨created, hcreated, generated, hold⟩ := h.issued key hkey
    exact ⟨created, hcreated, generated, hissued key created generated hold⟩
  · intro created hcreated
    obtain ⟨key, hkey, generated, hold⟩ := h.kept created hcreated
    exact ⟨_, List.mem_map_of_mem hkey, generated, hissued key created generated hold⟩
  · intro key' hkey'
    obtain ⟨key, hkey, rfl⟩ := List.mem_map.mp hkey'
    rw [hids]
    change _ ↔ key.id ∈ apiKeyId :: revokedKeys history
    rw [List.mem_cons, ← h.revoked_iff key hkey]
    by_cases hid : key.id = apiKeyId
    · simp [hid, KeyCredentials.revoked]
    · simp [hid]
  · intro id hid
    have hold : ∃ key ∈ keys, key.id = id := by
      rcases List.mem_cons.mp hid with rfl | hold
      · exact hknown
      · exact h.revoked_known id hold
    obtain ⟨key, hkey, hsame⟩ := hold
    exact ⟨_, List.mem_map_of_mem hkey, (hids key).trans hsame⟩

theorem step (h : KeysIssued service history keys)
    (hchange : CredentialsChange service keys e keys') :
    KeysIssued service (e :: history) keys' := by
  cases hchange with
  | kept hcreated hrevoked =>
      have hcreatedKeys : createdKeys (e :: history) = createdKeys history :=
        List.filterMap_cons_none hcreated
      have hrevokedKeys : revokedKeys (e :: history) = revokedKeys history :=
        List.filterMap_cons_none hrevoked
      refine ⟨h.keyIds_nodup, ?_, ?_, ?_, ?_⟩
      · rw [hcreatedKeys]
        exact h.issued
      · rw [hcreatedKeys]
        exact h.kept
      · rw [hrevokedKeys]
        exact h.revoked_iff
      · rw [hrevokedKeys]
        exact h.revoked_known
  | created hgenerate hunused => exact h.created hgenerate hunused
  | revoked hknown => exact h.revoked hknown

end KeysIssued

theorem GatewayRun.keysIssued {services : GatewayServices} {history : List GatewayEvent}
    {s : GatewayState} (hrun : GatewayRun services history s) :
    KeysIssued services.apiKeys history s.db.credentials := by
  apply Run.history_invariant
    (I := fun history (s : GatewayState) => KeysIssued services.apiKeys history s.db.credentials)
    hrun
  · exact .of_empty
  · intro history s e s' _ ih hstep
    exact ih.step hstep.credentials

end OrbiGateway
