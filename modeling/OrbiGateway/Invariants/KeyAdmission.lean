import OrbiGateway.Invariants.IssuedKeys

/-!
# Who is admitted

The bearer key of a call against the keys that administrators have created.  A key that the
answer to its creation has shown opens the gateway until it is revoked or expires, and
nothing else does, up to what the hasher verifies.
-/

namespace OrbiGateway

open Relational Transition

/-! ## The header of a key -/

theorem ParsedKey.WellShaped.isUrlsafe_render {parsed : ParsedKey} (h : parsed.WellShaped) :
    ∀ c ∈ parsed.render.toList, Urlsafe.isUrlsafe c = true := by
  have hmarks : (["orbi_", "_v1_", "_", "live", "test"].all fun mark =>
      mark.toList.all Urlsafe.isUrlsafe) = true := by decide
  have hmark : ∀ mark ∈ ["orbi_", "_v1_", "_", "live", "test"], ∀ c ∈ mark.toList,
      Urlsafe.isUrlsafe c = true :=
    fun mark hmem => List.all_eq_true.mp (List.all_eq_true.mp hmarks mark hmem)
  intro c hc
  simp only [ParsedKey.render, String.toList_append, List.mem_append] at hc
  rcases hc with ((((hc | hc) | hc) | hc) | hc) | hc
  · exact hmark "orbi_" (by simp) c hc
  · rcases h.environment with hlive | htest
    · exact hmark "live" (by simp) c (hlive ▸ hc)
    · exact hmark "test" (by simp) c (htest ▸ hc)
  · exact hmark "_v1_" (by simp) c hc
  · exact h.keyId_urlsafe c hc
  · exact hmark "_" (by simp) c hc
  · exact h.secret_urlsafe c hc

theorem bearerKey_render {parsed : ParsedKey} (h : parsed.WellShaped) :
    (bearerKey (some ("Bearer " ++ parsed.render))).bind APIKeyService.parse =
      some parsed := by
  have hbearer : bearerKey (some ("Bearer " ++ parsed.render)) = some parsed.render :=
    bearerKey_of_no_space fun c hc => isSpace_of_isUrlsafe (h.isUrlsafe_render c hc)
  rw [hbearer, Option.bind_some]
  exact APIKeyService.parse_render h

/-! ## Projects stay active -/

theorem projectsActive_of_coreRun {db₀ db : Db} {history : List (Option Event)}
    (hstart : ∀ project ∈ db₀.projects.rows, project.isActive = true)
    (hrun : CoreRun db₀ history db) : ∀ project ∈ db.projects.rows, project.isActive = true := by
  apply coreRun_invariant
    (I := fun _ db => ∀ project ∈ db.projects.rows, project.isActive = true) hrun hstart
  · intro history db e db' _ h hstep _ project' hproject'
    cases hstep with
    | performed hexec =>
        rcases exec_project_cases hexec hproject' with ⟨-, project, hproject, rfl⟩ |
          ⟨call, record, -, -, ⟨project, hrow⟩ | ⟨hold, -⟩⟩
        · rw [isActive_settleProject]
          exact h project hproject
        · rw [Project.isActive_reserve hrow.reserve]
          exact h project (Table.mem_of_find hrow.findProject)
        · exact h project' hold
    | failed => exact h project' hproject'
    | rescanned => exact h project' hproject'
  · intro history db db' _ h hadmin project hproject
    rcases hadmin.project_cases hproject with hold | ⟨-, hactive, -⟩
    · exact h project hold
    · exact hactive

section Runs

variable {services : GatewayServices} {history : List GatewayEvent} {s : GatewayState}

/-- The lookup finds a key by its key id: nothing in a run makes a project inactive. -/
theorem GatewayRun.findActiveKey_of_mem (hrun : GatewayRun services history s)
    {record : APIKey} (hrecord : record ∈ s.db.apiKeys.rows) :
    findActiveKey s.db.toDb record.keyId = some record := by
  obtain ⟨owns, -, hcore⟩ := hrun.core
  have hnone : ∀ project ∈ emptyDb.projects.rows, project.isActive = true := by
    intro project hproject
    cases hproject
  have hactive := projectsActive_of_coreRun hnone hcore
  obtain ⟨project, hproject, hid⟩ := hrun.references.keys record hrecord
  have hfind : s.db.projects.find record.projectId = some project :=
    Table.find_eq_some_iff.mpr ⟨hproject, hid⟩
  cases hfound : findActiveKey s.db.toDb record.keyId with
  | none =>
      have hno := List.find?_eq_none.mp hfound record hrecord
      rw [hfind] at hno
      simp [hactive project hproject] at hno
  | some found =>
      have hkeyId : found.keyId = record.keyId := by
        have hspec := List.find?_some hfound
        simp only [Bool.and_eq_true, beq_iff_eq] at hspec
        exact hspec.1
      have hnodup : (s.db.apiKeys.rows.map APIKey.keyId).Nodup := by
        have hkeyIds := hrun.keysIssued.keyIds_nodup
        rw [Db.credentials, List.map_map] at hkeyIds
        exact hkeyIds
      rw [List.inj_on_of_nodup_map hnodup (findActiveKey_mem hfound) hrecord hkeyId]

end Runs

/-! ## Admission -/

/-- `require_api_key` refuses a key that it finds only for its secret, its environment or its
record; its limits answer otherwise. -/
theorem requireApiKey_invalid_iff {db : Db} {parsed : ParsedKey} {readings : KeyReadings}
    {record : APIKey} (hfind : findActiveKey db parsed.keyId = some record) :
    requireApiKey db parsed readings = .error (.orbi invalidApiKey) ↔
      record.isOpenedBy parsed readings = false := by
  unfold requireApiKey
  rw [hfind]
  dsimp only
  cases hopen : record.isOpenedBy parsed readings with
  | false => simp
  | true =>
      simp only [Bool.not_true, Bool.false_eq_true, if_false, Bool.true_eq_false, iff_false]
      intro h
      rcases Except.bind_eq_error_iff.mp h with hcount | ⟨counted, -, hpure⟩
      · unfold APIKey.countCall at hcount
        dsimp only at hcount
        split at hcount
        · exact absurd (Except.error.inj hcount) (by decide)
        split at hcount
        · exact absurd (Except.error.inj hcount) (by decide)
        · cases hcount
      · cases hpure

theorem isRecordActive_iff {expiresAt revokedAt : Option Timestamp} {now : Timestamp} :
    isRecordActive expiresAt revokedAt now = true ↔
      revokedAt.isSome = false ∧ ∀ instant, expiresAt = some instant → now < instant := by
  unfold isRecordActive
  cases revokedAt with
  | some revokedAt => simp
  | none =>
      cases expiresAt with
      | none => simp
      | some expiresAt => simp

/-- Whom the gateway admits in a state, by the history of created and revoked keys. -/
structure AdmitsIssued (services : GatewayServices) (history : List GatewayEvent)
    (s : GatewayState) : Prop where
  refused_iff : ∀ created ∈ createdKeys history,
    (∀ text, services.apiKeys.verify (created.2.1.hash text) text = true) →
      ∀ clock : AuthClock, (requireApiKeyHeader services.apiKeys ⟨s.db.toDb, s.counters⟩ clock
          (some ("Bearer " ++ created.2.2.key))).1 = .error (.orbi invalidApiKey) ↔
        created.2.2.id ∈ revokedKeys history ∨
          ∃ instant, created.1.expiresAt = some instant ∧ instant ≤ clock.activeNow
  admitted : ∀ (clock : AuthClock) (authorization : Option String) (apiKey : APIKey),
    (requireApiKeyHeader services.apiKeys ⟨s.db.toDb, s.counters⟩ clock authorization).1 =
        .ok apiKey →
      ∃ created ∈ createdKeys history, ∃ issued parsed : ParsedKey,
        created.2.2.id = apiKey.id ∧ created.2.2.key = issued.render ∧
        created.1.projectId = apiKey.projectId ∧ created.1.scopes = apiKey.scopes ∧
        created.2.2.id ∉ revokedKeys history ∧
        (∀ instant, created.1.expiresAt = some instant → clock.activeNow < instant) ∧
        (bearerKey authorization).bind APIKeyService.parse = some parsed ∧
        parsed.environment = issued.environment ∧ parsed.keyId = issued.keyId ∧
        services.apiKeys.verify
          (created.2.1.hash (services.apiKeys.peppered issued.secret))
          (services.apiKeys.peppered parsed.secret) = true

theorem KeyCredentials.IssuedAs.parsed {service : APIKeyService} {record : APIKey}
    {created : CreatedKey} {generated : GeneratedAPIKey}
    (h : record.credentials.IssuedAs service created generated) :
    ∃ parsed : ParsedKey, parsed.WellShaped ∧ created.2.2.key = parsed.render ∧
      created.2.2.id = record.id ∧ record.environment = parsed.environment ∧
      record.keyId = parsed.keyId ∧
      record.secretHash = created.2.1.hash (service.peppered parsed.secret) ∧
      record.projectId = created.1.projectId ∧ record.scopes = created.1.scopes ∧
      record.expiresAt = created.1.expiresAt := by
  obtain ⟨parsed, hshape, hraw, henvironment, hkeyId, hhash⟩ :=
    APIKeyService.generate_spec h.generate
  have hcolumns := h.credentials
  simp only [KeyCredentials.unrevoked, APIKey.credentials, newAPIKey,
    KeyCredentials.mk.injEq] at hcolumns
  obtain ⟨hid, hproject, hkey, hsecret, henv, hscopes, hexpires, -, -, -⟩ := hcolumns
  refine ⟨parsed, hshape, ?_, ?_, henv.trans henvironment, hkey.trans hkeyId,
    hsecret.trans hhash, hproject, hscopes, hexpires⟩
  · rw [h.response]
    exact hraw
  · rw [h.response]
    exact hid.symm

/-- In every state of every run, the gateway admits the keys that were created, until they
are revoked or expire, and no others. -/
theorem admission_by_issued_keys {services : GatewayServices} {history : List GatewayEvent}
    {s : GatewayState} (hrun : GatewayRun services history s) :
    AdmitsIssued services history s where
  refused_iff := by
    intro created hcreated hhash clock
    obtain ⟨key, hkey, generated, hissued⟩ := hrun.keysIssued.kept created hcreated
    have hrevoked := hrun.keysIssued.revoked_iff key hkey
    obtain ⟨record, hrecord, rfl⟩ := List.mem_map.mp hkey
    obtain ⟨parsed, hshape, hkeyText, hid, henvironment, hkeyId, hsecret, -, -, hexpires⟩ :=
      hissued.parsed
    have hfind : findActiveKey s.db.toDb parsed.keyId = some record := by
      rw [← hkeyId]
      exact hrun.findActiveKey_of_mem hrecord
    have hverified : services.apiKeys.verifySecret parsed.secret record.secretHash = true := by
      rw [hsecret]
      exact hhash _
    have hopen : ∀ counters, record.isOpenedBy parsed (clock.readings services.apiKeys counters) =
        isRecordActive record.expiresAt record.revokedAt clock.activeNow := by
      intro counters
      simp only [APIKey.isOpenedBy, AuthClock.readings, henvironment, hverified, beq_self_eq_true,
        Bool.true_and]
    rw [hkeyText, hid]
    have hanswer : (requireApiKeyHeader services.apiKeys ⟨s.db.toDb, s.counters⟩ clock
        (some ("Bearer " ++ parsed.render))).1 =
          (requireApiKey s.db.toDb parsed (clock.readings services.apiKeys s.counters)).map
            Prod.fst := (requireApiKeyHeader_of_key (bearerKey_render hshape)).1
    rw [hanswer, Except.map_eq_error_iff, requireApiKey_invalid_iff hfind, hopen,
      ← Bool.not_eq_true, isRecordActive_iff, hexpires]
    change _ ↔ record.credentials.id ∈ _ ∨ _
    rw [← hrevoked]
    change _ ↔ record.revokedAt.isSome = true ∨ _
    by_cases hsome : record.revokedAt.isSome = true
    · simp [hsome]
    · simp [hsome]
  admitted := by
    intro clock authorization apiKey hok
    cases hparsed : (bearerKey authorization).bind APIKeyService.parse with
    | none =>
        rw [requireApiKeyHeader_of_no_key hparsed] at hok
        cases hok
    | some parsed =>
        have hanswer := (requireApiKeyHeader_of_key hparsed).1.symm.trans hok
        obtain ⟨⟨counted, db'⟩, hkey, rfl⟩ := Except.map_eq_ok_iff.mp hanswer
        obtain ⟨record, hrecord, hfind, hopen, hcount, -⟩ := requireApiKey_spec hkey
        obtain ⟨henvironment, hverified, hactive⟩ := isOpenedBy_readings_iff.mp hopen
        have hlookup := APIKey.credentials_countCall hcount
        have hmem : record.credentials ∈ s.db.credentials := List.mem_map_of_mem hrecord
        obtain ⟨created, hcreated, generated, hissued⟩ :=
          hrun.keysIssued.issued record.credentials hmem
        obtain ⟨issued, hshape, hkeyText, hid, henv, hkeyId, hsecret, hproject, hscopes,
          hexpires⟩ := hissued.parsed
        obtain ⟨hrevoked, hunexpired⟩ := isRecordActive_iff.mp hactive
        have hsame : record.keyId = parsed.keyId := by
          have hspec := List.find?_some hfind
          simp only [Bool.and_eq_true, beq_iff_eq] at hspec
          exact hspec.1
        refine ⟨created, hcreated, issued, parsed, ?_, hkeyText, ?_, ?_, ?_, ?_, rfl, ?_, ?_, ?_⟩
        · exact hid.trans (congrArg KeyCredentials.id hlookup).symm
        · exact hproject.symm.trans (congrArg KeyCredentials.projectId hlookup).symm
        · exact hscopes.symm.trans (congrArg KeyCredentials.scopes hlookup).symm
        · intro hgone
          rw [hid] at hgone
          have hsome := (hrun.keysIssued.revoked_iff record.credentials hmem).mpr hgone
          change record.revokedAt.isSome = true at hsome
          rw [hrevoked] at hsome
          cases hsome
        · rw [← hexpires]
          exact hunexpired
        · exact henvironment.symm.trans henv
        · exact hsame.symm.trans hkeyId
        · rw [← hsecret]
          exact hverified

theorem admission_by_issued_keys_answered :
    AdmitsIssued GatewaySample.services
      (runActions GatewaySample.services .initial GatewaySample.answered).1
      (runActions GatewaySample.services .initial GatewaySample.answered).2 :=
  admission_by_issued_keys (run_runActions GatewaySample.services GatewaySample.answered)

end OrbiGateway
