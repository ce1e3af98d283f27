import Mathlib.Data.List.Find
import OrbiGateway.Library.LeastFirst
import OrbiGateway.System.Histories

/-!
# The share of one project

A project owns its row, its keys and the requests and usage records that carry its id;
aliases and workers serve every project.  The operations of the gateway, run on the
whole database and run on the share of one project, do the same to that share.
-/

namespace OrbiGateway

open Relational Transition

/-- The rows of project `id`, with the rows that serve every project. -/
def Db.ofProject (id : UUID) (db : Db) : Db where
  projects := db.projects.select fun project => project.id == id
  apiKeys := db.apiKeys.select fun record => record.projectId == id
  modelAliases := db.modelAliases
  workers := db.workers
  requests := db.requests.select fun r => r.projectId == id
  usageRecords := db.usageRecords.select fun record => record.projectId == id

/-! ## Lookups -/

section Lookups

variable {db : Db} {id : UUID}

theorem find_ofProject : (db.ofProject id).projects.find id = db.projects.find id := by
  apply Table.find_select_of_pos
  intro project _ hid
  exact beq_iff_eq.mpr hid

theorem findActiveKey_ofProject {keyId : String}
    (hkey : ∀ record ∈ db.apiKeys.rows, record.keyId = keyId → record.projectId = id) :
    findActiveKey (db.ofProject id) keyId = findActiveKey db keyId := by
  unfold findActiveKey Db.ofProject
  rw [Table.rows_select, List.find?_filter]
  apply List.find?_congr
  intro record hrecord
  by_cases hid : record.keyId = keyId
  · have hown := hkey record hrecord hid
    have hfind : (db.ofProject id).projects.find id = db.projects.find id := find_ofProject
    simp only [Db.ofProject] at hfind
    simp [hown, hfind, hid]
  · simp [hid]

theorem findExisting_ofProject {apiKeyId : UUID}
    (hown : ∀ r ∈ db.requests.rows, r.apiKeyId = apiKeyId → r.projectId = id)
    (idempotencyKey : Option String) :
    findExisting (db.ofProject id) apiKeyId idempotencyKey =
      findExisting db apiKeyId idempotencyKey := by
  cases idempotencyKey with
  | none => rfl
  | some key =>
      unfold findExisting Db.ofProject
      dsimp only
      rw [Table.rows_select, List.find?_filter]
      apply List.find?_congr
      intro r hr
      by_cases hpair : r.hasPair apiKeyId key = true
      · have hkeyId : r.apiKeyId = apiKeyId := by
          simp only [OrbiRequest.hasPair, Bool.and_eq_true, beq_iff_eq] at hpair
          exact hpair.1
        simp [hown r hr hkeyId]
      · simp [hpair]

end Lookups

/-! ## Chat calls -/

theorem ofProject_put_apiKey {db : Db} (id : UUID) {record record' : APIKey}
    (hmem : record ∈ db.apiKeys.rows) (hcolumns : record'.lookupColumns = record.lookupColumns) :
    (db.apiKeys.put record').select (fun record => record.projectId == id) =
      (db.ofProject id).apiKeys.put record' := by
  obtain ⟨hid, -, hproject⟩ : record'.id = record.id ∧ record'.keyId = record.keyId ∧
      record'.projectId = record.projectId := by
    simpa [APIKey.lookupColumns] using hcolumns
  apply Table.select_put
  intro other hother hkey
  have heq : other = record := db.apiKeys.eq_of_key_eq hother hmem (hkey.trans hid)
  rw [heq, hproject]

/-- A call with a key of the project is authenticated in its share alike. -/
theorem requireApiKey_ofProject {db : Db} {id : UUID} {parsed : ParsedKey}
    (hkey : ∀ record ∈ db.apiKeys.rows, record.keyId = parsed.keyId → record.projectId = id)
    (readings : KeyReadings) :
    requireApiKey (db.ofProject id) parsed readings =
      (requireApiKey db parsed readings).map fun outcome =>
        (outcome.1, outcome.2.ofProject id) := by
  unfold requireApiKey
  rw [findActiveKey_ofProject hkey]
  cases hfind : findActiveKey db parsed.keyId with
  | none => rfl
  | some record =>
      dsimp only
      split
      · rfl
      next hopen =>
        cases hcount : record.countCall readings with
        | error failure => rfl
        | ok record' =>
            have hput := ofProject_put_apiKey id (findActiveKey_mem hfind)
              (APIKey.lookupColumns_countCall hcount)
            simp only [bind, Except.bind, pure, Except.pure, Except.map, Db.ofProject, hput]

theorem reserveForChat_ofProject (db : Db) (id : UUID) (tokens : ℤ) (today : Date) :
    reserveForChat (db.ofProject id) id tokens today =
      (reserveForChat db id tokens today).map fun outcome =>
        (outcome.1, outcome.2.ofProject id) := by
  have hreserve : BudgetService.reserve (db.ofProject id) id tokens today =
      (BudgetService.reserve db id tokens today).map fun outcome =>
        (outcome.1, outcome.2.ofProject id) := by
    unfold BudgetService.reserve
    rw [find_ofProject]
    cases hfind : db.projects.find id with
    | none => rfl
    | some project =>
        dsimp only
        cases hproject : project.reserve tokens today with
        | error failure => rfl
        | ok project' =>
            have hid : project'.id = id :=
              (Project.reserve_spec hproject).id_eq.trans (Table.key_of_find hfind)
            have hput : (db.projects.put project').select (fun project => project.id == id) =
                (db.ofProject id).projects.put project' := by
              apply Table.select_put
              intro other _ hkey
              exact congrArg (· == id) hkey.symm
            simp only [bind, Except.bind, pure, Except.pure, Except.map, Db.ofProject, hput]
  unfold reserveForChat
  rw [hreserve]
  cases BudgetService.reserve db id tokens today with
  | ok outcome => rfl
  | error failure => cases failure <;> rfl

theorem insertRequest_ofProject {db : Db} {id : UUID} {record : OrbiRequest}
    (hproject : record.projectId = id)
    (hown : ∀ r ∈ db.requests.rows, r.apiKeyId = record.apiKeyId → r.projectId = id)
    (hfree : ∀ r ∈ db.requests.rows, r.id ≠ record.id) :
    insertRequest (db.ofProject id) record = (insertRequest db record).map (Db.ofProject id) := by
  unfold insertRequest pairTaken
  rw [findExisting_ofProject hown]
  split
  · rfl
  · obtain ⟨requests, hinsert⟩ := Table.exists_insert hfree
    have hshare : (db.ofProject id).requests.insert record =
        some (requests.select fun r => r.projectId == id) :=
      Table.insert_select hinsert (beq_iff_eq.mpr hproject)
    rw [hshare, hinsert]
    rfl

theorem createChatCompletion_ofProject {db : Db} {apiKey : APIKey} {call : ChatCall}
    (hown : ∀ r ∈ db.requests.rows, r.apiKeyId = apiKey.id → r.projectId = apiKey.projectId)
    (hfree : ∀ r ∈ db.requests.rows, r.id ≠ call.readings.requestId) :
    createChatCompletion (db.ofProject apiKey.projectId) apiKey call =
      (createChatCompletion db apiKey call).map fun outcome =>
        (outcome.1, outcome.2.ofProject apiKey.projectId) := by
  unfold createChatCompletion
  cases checkChatCall call with
  | error failure => rfl
  | ok _ =>
      simp only [bind, Except.bind]
      rw [findExisting_ofProject hown]
      cases findExisting db apiKey.id call.idempotencyKey with
      | some existing => rfl
      | none =>
          dsimp only
          have halias : findAlias (db.ofProject apiKey.projectId) call.payload.model =
              findAlias db call.payload.model := rfl
          rw [halias]
          cases findAlias db call.payload.model with
          | none => rfl
          | some modelAlias =>
              dsimp only
              rw [reserveForChat_ofProject]
              cases hreserve : reserveForChat db apiKey.projectId
                  (reservedTokensOf call.payload) call.readings.today with
              | error failure => rfl
              | ok outcome =>
                  obtain ⟨⟨project, budgetDay, budgetMonth⟩, mid⟩ := outcome
                  obtain ⟨old, hfind, hproject, -, -, rfl⟩ := reserveForChat_spec hreserve
                  have hid : project.id = apiKey.projectId :=
                    (Project.reserve_spec hproject).id_eq.trans (Table.key_of_find hfind)
                  have hinsert := @insertRequest_ofProject
                    { db with projects := db.projects.put project } apiKey.projectId
                    (newRequest call apiKey modelAlias project budgetDay budgetMonth)
                    hid hown hfree
                  simp only [Except.map, hinsert]
                  cases insertRequest { db with projects := db.projects.put project }
                      (newRequest call apiKey modelAlias project budgetDay budgetMonth) with
                  | error failure => rfl
                  | ok final => rfl

/-- Every request is of the project of its key. -/
def KeysOwnRequests (db : Db) : Prop :=
  ∀ r ∈ db.requests.rows, ∀ record ∈ db.apiKeys.rows,
    r.apiKeyId = record.id → r.projectId = record.projectId

/-- A chat call with a key of the project, whose drawn id is unused, does to the share
what it does to the whole database. -/
theorem acceptChat_ofProject {db : Db} {id : UUID} {call : ChatCall}
    (hkey : ∀ record ∈ db.apiKeys.rows, record.keyId = call.key.keyId → record.projectId = id)
    (hown : KeysOwnRequests db)
    (hfree : ∀ r ∈ db.requests.rows, r.id ≠ call.readings.requestId) :
    acceptChat (db.ofProject id) call =
      (acceptChat db call).map fun outcome => (outcome.1, outcome.2.ofProject id) := by
  unfold acceptChat
  rw [requireApiKey_ofProject hkey]
  cases hrequire : requireApiKey db call.key call.keyReadings with
  | error failure => rfl
  | ok outcome =>
      obtain ⟨apiKey, mid⟩ := outcome
      obtain ⟨record, hmem, hfind, -, hcount, rfl⟩ := requireApiKey_spec hrequire
      have hcolumns := APIKey.lookupColumns_countCall hcount
      simp only [APIKey.lookupColumns, Prod.mk.injEq] at hcolumns
      obtain ⟨hid, -, hproject⟩ := hcolumns
      have hkeyId : record.keyId = call.key.keyId := by
        have hfound := List.find?_some hfind
        simp only [Bool.and_eq_true, beq_iff_eq] at hfound
        exact hfound.1
      have hproject' : apiKey.projectId = id := hproject.trans (hkey record hmem hkeyId)
      simp only [bind, Except.bind, Except.map]
      cases requireApiScope "chat" apiKey with
      | error failure => rfl
      | ok _ =>
          have hroute := @createChatCompletion_ofProject
            { db with apiKeys := db.apiKeys.put apiKey } apiKey call
            (fun r hr hkeyOf =>
              (hown r hr record hmem (hkeyOf.trans hid)).trans hproject.symm) hfree
          rw [hproject'] at hroute
          exact hroute

section Shares

variable {db db' : Db} {id : UUID} {reply : Reply}

theorem exec_chat_other {call : ChatCall} (h : exec db (.chat call) = .ok (reply, db'))
    (hkey : ∀ record ∈ db.apiKeys.rows,
      record.keyId = call.key.keyId → record.projectId ≠ id) :
    db'.ofProject id = db.ofProject id := by
  obtain ⟨apiKey, hrequire, hcases⟩ := exec_chat_cases h
  obtain ⟨record, hmem, hfind, -, hcount, -⟩ := requireApiKey_spec hrequire
  have hcolumns := APIKey.lookupColumns_countCall hcount
  simp only [APIKey.lookupColumns, Prod.mk.injEq] at hcolumns
  obtain ⟨hid, -, hproject⟩ := hcolumns
  have hkeyId : record.keyId = call.key.keyId := by
    have hfound := List.find?_some hfind
    simp only [Bool.and_eq_true, beq_iff_eq] at hfound
    exact hfound.1
  have hother : apiKey.projectId ≠ id := by
    rw [hproject]
    exact hkey record hmem hkeyId
  have hkeys : (db.apiKeys.put apiKey).select (fun record => record.projectId == id) =
      db.apiKeys.select fun record => record.projectId == id := by
    apply Table.select_put_of_neg
    · exact beq_eq_false_iff_ne.mpr hother
    · intro other hotherMem hsame
      have heq : other = record :=
        db.apiKeys.eq_of_key_eq hotherMem hmem (hsame.trans hid)
      rw [heq, ← hproject]
      exact beq_eq_false_iff_ne.mpr hother
  rcases hcases with ⟨existing, -, -, rfl⟩ | ⟨row, project, project', -, hqueues⟩
  · simp only [Db.ofProject, hkeys]
  · have hfound : project.id = apiKey.projectId := Table.key_of_find hqueues.findProject
    have hprojectId : project'.id = apiKey.projectId :=
      (Project.reserve_spec hqueues.reserve).id_eq.trans hfound
    have hrow : row.projectId = apiKey.projectId := by
      obtain ⟨modelAlias, -, rfl⟩ := hqueues.record_eq
      exact hprojectId
    have hprojects : (db.projects.put project').select (fun project => project.id == id) =
        db.projects.select fun project => project.id == id := by
      apply Table.select_put_of_neg
      · exact beq_eq_false_iff_ne.mpr (hprojectId.trans_ne hother)
      · intro other _ hsame
        exact beq_eq_false_iff_ne.mpr ((hsame.trans hprojectId).trans_ne hother)
    have hrequests : db'.requests.select (fun r => r.projectId == id) =
        db.requests.select fun r => r.projectId == id :=
      Table.select_insert_of_neg hqueues.insert
        (beq_eq_false_iff_ne.mpr (hrow.trans_ne hother))
    rw [hqueues.db_eq]
    simp only [Db.ofProject, hkeys, hprojects, hrequests]

/-! ## Settlements -/

theorem settleProject_filter {project : Project} (hid : project.id = id) :
    ∀ settled : List Settlement,
      settleProject (settled.filter fun settlement => settlement.projectId == id) project =
        settleProject settled project := by
  intro settled
  induction settled generalizing project with
  | nil => rfl
  | cons settlement settled ih =>
      by_cases hown : settlement.projectId = id
      · rw [List.filter_cons, if_pos (beq_iff_eq.mpr hown)]
        exact ih ((settlement.id_apply project).trans hid)
      · have hkeep : settlement.apply project = project := by
          unfold Settlement.apply
          rw [if_neg]
          intro hsame
          exact hown (hsame.symm.trans hid)
        rw [List.filter_cons, if_neg (by simpa using hown)]
        exact (ih hid).trans (congrArg (settleProject settled) hkeep).symm

theorem settleAll_ofProject (id : UUID) (settled : List Settlement) (projects : Table Project) :
    (settleAll settled projects).select (fun project => project.id == id) =
      settleAll (settled.filter fun settlement => settlement.projectId == id)
        (projects.select fun project => project.id == id) := by
  apply Table.select_mapRows
  · intro project _
    exact congrArg (· == id) (id_settleProject settled project)
  · intro project _ hown
    exact (settleProject_filter (beq_iff_eq.mp hown) settled).symm

/-- An operation settles in the share what it settles of the project. -/
theorem settlements_ofProject (db : Db) (op : Op) :
    settlements (db.ofProject id) op =
      (settlements db op).filter fun settlement => settlement.projectId == id := by
  have hfilter : ∀ (q : OrbiRequest → Bool) (f : OrbiRequest → Settlement),
      (∀ r, (f r).projectId = r.projectId) →
      (((db.ofProject id).requests.rows.filter q).map f) =
        ((db.requests.rows.filter q).map f).filter fun settlement =>
          settlement.projectId == id := by
    intro q f hf
    rw [List.filter_map, Db.ofProject, Table.rows_select, List.filter_filter,
      List.filter_filter]
    congr 1
    apply List.filter_congr
    intro r _
    simp only [Function.comp_apply, hf]
    exact Bool.and_comm _ _
  cases op with
  | chat call => rfl
  | claim worker leaseSeconds now => rfl
  | submitResult worker payload now => exact hfilter _ _ fun _ => rfl
  | submitError worker payload => exact hfilter _ _ fun _ => rfl
  | recover now =>
      simp only [settlements, List.map_append, List.filter_append]
      exact congrArg₂ (· ++ ·) (hfilter _ _ fun _ => rfl) (hfilter _ _ fun _ => rfl)

/-! ## Claims -/

/-- A claim of a request of the project makes the same choice in the share. -/
theorem exec_claim_ofProject {worker : Worker} {leaseSeconds : ℤ} {now : Timestamp}
    {winner : OrbiRequest}
    (h : exec db (.claim worker leaseSeconds now) = .ok (.claimed (some winner), db'))
    (hown : winner.projectId = id) :
    exec (db.ofProject id) (.claim worker leaseSeconds now) =
      .ok (.claimed (some winner), db'.ofProject id) := by
  rcases exec_claim_selected h with ⟨-, hnone, -⟩ | ⟨r, hselect, hsome, rfl⟩
  · cases hnone
  · cases hsome
    have hproject : r.projectId = id := hown
    have hselect' : QueueService.selectClaimable (db.ofProject id) worker now
        (fun _ => false) = some r := by
      have hfiltered :=
        LeastFirst.argmin_filter (p := fun r => r.projectId == id) (beq_iff_eq.mpr hproject)
          hselect
      unfold QueueService.selectClaimable Db.ofProject
      rw [Table.rows_select, List.filter_filter]
      rw [List.filter_filter] at hfiltered
      rw [← hfiltered]
      congr 2
      funext request
      exact Bool.and_comm _ _
    have hrequests : (db.requests.put (r.claimed worker leaseSeconds now)).select
        (fun r => r.projectId == id) =
          (db.ofProject id).requests.put (r.claimed worker leaseSeconds now) := by
      obtain ⟨hmem, -⟩ := QueueService.selectClaimable_spec hselect
      apply Table.select_put
      intro other hother hkey
      have heq : other = r := db.requests.eq_of_key_eq hother hmem hkey
      rw [heq]
      rfl
    simp only [exec, QueueService.claimNext, hselect']
    simp only [Db.ofProject, hrequests]

theorem exec_claim_other {worker : Worker} {leaseSeconds : ℤ} {now : Timestamp}
    (h : exec db (.claim worker leaseSeconds now) = .ok (reply, db'))
    (hother : ∀ winner, reply = .claimed (some winner) → winner.projectId ≠ id) :
    db'.ofProject id = db.ofProject id := by
  rcases exec_claim_cases h with ⟨-, rfl⟩ | ⟨r, hmem, -, rfl, rfl⟩
  · rfl
  · have hne : r.projectId ≠ id := hother (r.claimed worker leaseSeconds now) rfl
    have hrequests : (db.requests.put (r.claimed worker leaseSeconds now)).select
        (fun r => r.projectId == id) = db.requests.select fun r => r.projectId == id := by
      apply Table.select_put_of_neg
      · exact beq_eq_false_iff_ne.mpr hne
      · intro other hotherMem hkey
        have heq : other = r := db.requests.eq_of_key_eq hotherMem hmem hkey
        rw [heq]
        exact beq_eq_false_iff_ne.mpr hne
    simp only [Db.ofProject, hrequests]

/-! ## Results and errors -/

theorem held_ofProject {requestId workerId : UUID}
    (hown : ∀ r ∈ db.requests.rows, r.id = requestId → r.projectId = id) {r : OrbiRequest}
    (hmem : r ∈ db.requests.rows) (hheld : r.isHeldBy requestId workerId = true) :
    r ∈ (db.ofProject id).requests.rows :=
  Table.mem_select.mpr ⟨hmem,
    beq_iff_eq.mpr (hown r hmem (OrbiRequest.isHeldBy_iff.mp hheld).1)⟩

theorem known_ofProject {r : OrbiRequest} (hown : r.projectId = id)
    (hknown : ∃ project ∈ db.projects.rows, project.id = r.projectId) :
    ∃ project ∈ (db.ofProject id).projects.rows, project.id = r.projectId := by
  obtain ⟨project, hproject, hid⟩ := hknown
  exact ⟨project, Table.mem_select.mpr ⟨hproject, beq_iff_eq.mpr (hid.trans hown)⟩, hid⟩

theorem countUse_ofProject (r : OrbiRequest) (tokens : ℤ) (apiKeys : Table APIKey) :
    (QueueService.countUse r tokens apiKeys).select (fun record => record.projectId == id) =
      QueueService.countUse r tokens (apiKeys.select fun record => record.projectId == id) := by
  apply Table.select_mapRows
  · intro record _
    simp only [Table.RowUpdate.onRows]
    split <;> rfl
  · intro record _ _
    rfl

/-- A result for a request of the project is committed in the share alike. -/
theorem exec_submitResult_ofProject {worker : Worker} {payload : WorkerResultRequest}
    {now : Timestamp}
    (hknown : ∀ r ∈ db.requests.rows, ∃ project ∈ db.projects.rows, project.id = r.projectId)
    (hown : ∀ r ∈ db.requests.rows, r.id = payload.requestId → r.projectId = id)
    (h : exec db (.submitResult worker payload now) = .ok (reply, db')) :
    exec (db.ofProject id) (.submitResult worker payload now) =
      .ok (reply, db'.ofProject id) := by
  rcases exec_submitResult_cases h with
    ⟨rfl, rfl, hno⟩ | ⟨r, hmem, usageRecords, rfl, hheld, hinsert, rfl⟩
  · have hrows : (db'.ofProject id).requests.returning
        (fun r => r.isHeldBy payload.requestId worker.id)
        ⟨fun r => r.completed (.obj payload.result) payload.inputTokens
          payload.outputTokens now, fun _ => rfl⟩ = [] := by
      rw [List.eq_nil_iff_forall_not_mem]
      intro r' hr'
      obtain ⟨r, hr, hheld, -⟩ := Table.mem_returning.mp hr'
      rw [hno r (Table.mem_select.mp hr).1] at hheld
      cases hheld
    simp only [exec, QueueService.commitResult, hrows]
    rfl
  · have hproject : r.projectId = id := hown r hmem (OrbiRequest.isHeldBy_iff.mp hheld).1
    have hmem' := held_ofProject hown hmem hheld
    have hinsert' : (db.ofProject id).usageRecords.insert (QueueService.usageRecordOf r worker
        payload.inputTokens payload.outputTokens payload.latencyMs) =
        some (usageRecords.select fun record => record.projectId == id) :=
      Table.insert_select hinsert (beq_iff_eq.mpr hproject)
    obtain ⟨db'', hcommit⟩ := QueueService.commitResult_of_isHeldBy (.obj payload.result) now
      hmem' hheld (known_ofProject hproject (hknown r hmem)) hinsert'
    have hexec : exec (db.ofProject id) (.submitResult worker payload now) =
        .ok (.resultAccepted true, db'') := by
      simp only [exec, hcommit]
      rfl
    rcases exec_submitResult_cases hexec with
      ⟨hrefused, -, -⟩ | ⟨r', hr', usageRecords', -, hheld', hinsert'', rfl⟩
    · cases hrefused
    · have heq : r' = r := by
        apply (db.ofProject id).requests.eq_of_key_eq hr' hmem'
        exact (OrbiRequest.isHeldBy_iff.mp hheld').1.trans
          (OrbiRequest.isHeldBy_iff.mp hheld).1.symm
      subst heq
      obtain rfl : _ = usageRecords' := Option.some.inj (hinsert'.symm.trans hinsert'')
      have hrequests : ∀ u : Table.RowUpdate OrbiRequest,
          (∀ r, (u.set r).projectId = r.projectId) →
          (db.requests.updateWhere (fun r => r.isHeldBy payload.requestId worker.id) u).select
              (fun r => r.projectId == id) =
            (db.ofProject id).requests.updateWhere
              (fun r => r.isHeldBy payload.requestId worker.id) u := by
        intro u hu
        apply Table.select_mapRows
        · intro other _
          simp only [Table.RowUpdate.onRows]
          split
          · rw [hu]
          · rfl
        · intro other _ _
          rfl
      have hsettle := settleAll_ofProject id
        [r'.settledBy (payload.inputTokens + payload.outputTokens)] db.projects
      have hown' : (r'.settledBy (payload.inputTokens + payload.outputTokens)).projectId = id :=
        hproject
      rw [List.filter_cons, if_pos (beq_iff_eq.mpr hown'), List.filter_nil] at hsettle
      rw [hexec]
      simp only [Db.ofProject, countUse_ofProject, hsettle]
      congr 3
      exact (hrequests _ fun _ => rfl).symm

theorem exec_submitResult_other {worker : Worker} {payload : WorkerResultRequest}
    {now : Timestamp} (hkeys : KeysOwnRequests db)
    (hother : ∀ r ∈ db.requests.rows, r.id = payload.requestId → r.projectId ≠ id)
    (h : exec db (.submitResult worker payload now) = .ok (reply, db')) :
    db'.ofProject id = db.ofProject id := by
  rcases exec_submitResult_cases h with
    ⟨-, rfl, -⟩ | ⟨r, hmem, usageRecords, -, hheld, hinsert, rfl⟩
  · rfl
  · have hne : r.projectId ≠ id := hother r hmem (OrbiRequest.isHeldBy_iff.mp hheld).1
    have hrequests : ∀ u : Table.RowUpdate OrbiRequest,
        (∀ r, (u.set r).projectId = r.projectId) →
        (db.requests.updateWhere (fun r => r.isHeldBy payload.requestId worker.id) u).select
            (fun r => r.projectId == id) = db.requests.select fun r => r.projectId == id := by
      intro u hu
      apply Table.select_mapRows_of_neg
      · intro other _
        simp only [Table.RowUpdate.onRows]
        split
        · rw [hu]
        · rfl
      · intro other hotherMem hown
        simp only [Table.RowUpdate.onRows]
        rw [if_neg]
        intro hheld'
        exact hother other hotherMem (OrbiRequest.isHeldBy_iff.mp hheld').1
          (beq_iff_eq.mp hown)
    have hprojects : (settleAll [r.settledBy (payload.inputTokens + payload.outputTokens)]
        db.projects).select (fun project => project.id == id) =
          db.projects.select fun project => project.id == id := by
      have hnone : (r.settledBy (payload.inputTokens + payload.outputTokens)).projectId ≠ id :=
        hne
      rw [settleAll_ofProject, List.filter_cons, if_neg (by simpa using hnone),
        List.filter_nil, settleAll_nil]
    have hcounted : (QueueService.countUse r (payload.inputTokens + payload.outputTokens)
        db.apiKeys).select (fun record => record.projectId == id) =
          db.apiKeys.select fun record => record.projectId == id := by
      apply Table.select_mapRows_of_neg
      · intro record _
        simp only [Table.RowUpdate.onRows]
        split <;> rfl
      · intro record hrecord hown
        simp only [Table.RowUpdate.onRows]
        rw [if_neg]
        intro hkey
        exact hne ((hkeys r hmem record hrecord (beq_iff_eq.mp hkey).symm).trans
          (beq_iff_eq.mp hown))
    have hrecords : usageRecords.select (fun record => record.projectId == id) =
        db.usageRecords.select fun record => record.projectId == id :=
      Table.select_insert_of_neg hinsert (beq_eq_false_iff_ne.mpr hne)
    simp only [Db.ofProject, hprojects, hcounted, hrecords]
    congr 1
    exact hrequests _ fun _ => rfl

theorem ofProject_put_request (id : UUID) {r : OrbiRequest} (new : OrbiRequest)
    (hmem : r ∈ db.requests.rows) (hid : new.id = r.id) (hproject : new.projectId = r.projectId) :
    (db.requests.put new).select (fun r => r.projectId == id) =
      (db.ofProject id).requests.put new := by
  apply Table.select_put
  intro other hother hkey
  have heq : other = r := db.requests.eq_of_key_eq hother hmem (hkey.trans hid)
  rw [heq, hproject]

theorem ofProject_put_request_other {r : OrbiRequest} (new : OrbiRequest)
    (hmem : r ∈ db.requests.rows) (hid : new.id = r.id) (hproject : new.projectId = r.projectId)
    (hne : r.projectId ≠ id) :
    (db.requests.put new).select (fun r => r.projectId == id) =
      db.requests.select fun r => r.projectId == id := by
  apply Table.select_put_of_neg
  · exact beq_eq_false_iff_ne.mpr (hproject.trans_ne hne)
  · intro other hother hkey
    have heq : other = r := db.requests.eq_of_key_eq hother hmem (hkey.trans hid)
    rw [heq]
    exact beq_eq_false_iff_ne.mpr hne

/-- An error for a request of the project is recorded in the share alike. -/
theorem exec_submitError_ofProject {worker : Worker} {payload : WorkerErrorRequest}
    (hknown : ∀ r ∈ db.requests.rows, ∃ project ∈ db.projects.rows, project.id = r.projectId)
    (hown : ∀ r ∈ db.requests.rows, r.id = payload.requestId → r.projectId = id)
    (h : exec db (.submitError worker payload) = .ok (reply, db')) :
    exec (db.ofProject id) (.submitError worker payload) = .ok (reply, db'.ofProject id) := by
  rcases exec_submitError_cases h with ⟨rfl, rfl, hno⟩ | ⟨r, hmem, rfl, hheld, hcases⟩
  · have hfind : (db'.ofProject id).requests.rows.find?
        (fun r => r.isHeldBy payload.requestId worker.id) = none := by
      rw [List.find?_eq_none]
      intro r hr
      rw [hno r (Table.mem_select.mp hr).1]
      exact Bool.false_ne_true
    simp only [exec, QueueService.recordError, hfind]
    rfl
  · have hproject : r.projectId = id := hown r hmem (OrbiRequest.isHeldBy_iff.mp hheld).1
    have hmem' := held_ofProject hown hmem hheld
    have hfind : (db.ofProject id).requests.rows.find?
        (fun r => r.isHeldBy payload.requestId worker.id) = some r := by
      rw [← List.head?_filter, filter_isHeldBy hmem' hheld]
      rfl
    rcases hcases with ⟨hretry, rfl⟩ | ⟨hfinal, rfl⟩
    · have hretry' : (r.withError payload.errorCode payload.message).mayRetry
          payload.retryable = true := hretry
      have hput := ofProject_put_request id
        (r.withError payload.errorCode payload.message).requeued hmem rfl rfl
      have hrecord : QueueService.recordError (db.ofProject id) payload.requestId worker
          payload.retryable payload.errorCode payload.message =
          .ok (true, { db.ofProject id with
            requests := (db.ofProject id).requests.put
              (r.withError payload.errorCode payload.message).requeued }) := by
        simp only [QueueService.recordError, hfind, hretry', if_true]
      simp only [exec, hrecord]
      simp only [Db.ofProject] at hput ⊢
      rw [hput]
      rfl
    · have hfinal' : (r.withError payload.errorCode payload.message).mayRetry
          payload.retryable = false := hfinal
      have hput := ofProject_put_request id
        (r.withError payload.errorCode payload.message).failed hmem rfl rfl
      have hsettle := settleAll_ofProject id [r.settledBy 0] db.projects
      have hown' : (r.settledBy 0).projectId = id := hproject
      rw [List.filter_cons, if_pos (beq_iff_eq.mpr hown'), List.filter_nil] at hsettle
      have hrelease : ∀ requests, BudgetService.reconcile
          { db.ofProject id with requests := requests } r.projectId r.reservedTokens 0
          r.budgetDay r.budgetMonth =
          .ok { db.ofProject id with
            requests := requests
            projects := settleAll [r.settledBy 0] (db.ofProject id).projects } :=
        fun requests => @reconcile_of_known
          { db.ofProject id with requests := requests } r 0
          (known_ofProject hproject (hknown r hmem))
      have hrecord : QueueService.recordError (db.ofProject id) payload.requestId worker
          payload.retryable payload.errorCode payload.message =
          .ok (true, { db.ofProject id with
            requests := (db.ofProject id).requests.put
              (r.withError payload.errorCode payload.message).failed
            projects := settleAll [r.settledBy 0] (db.ofProject id).projects }) := by
        simp only [QueueService.recordError, hfind, hfinal', Bool.false_eq_true, if_false,
          BudgetService.release]
        exact congrArg (fun outcome => outcome >>= fun db => pure (true, db)) (hrelease _)
      simp only [exec, hrecord]
      simp only [Db.ofProject] at hput hsettle ⊢
      rw [hput, hsettle]
      rfl

theorem exec_submitError_other {worker : Worker} {payload : WorkerErrorRequest}
    (hother : ∀ r ∈ db.requests.rows, r.id = payload.requestId → r.projectId ≠ id)
    (h : exec db (.submitError worker payload) = .ok (reply, db')) :
    db'.ofProject id = db.ofProject id := by
  rcases exec_submitError_cases h with ⟨-, rfl, -⟩ | ⟨r, hmem, -, hheld, hcases⟩
  · rfl
  · have hne : r.projectId ≠ id := hother r hmem (OrbiRequest.isHeldBy_iff.mp hheld).1
    rcases hcases with ⟨-, rfl⟩ | ⟨-, rfl⟩
    · have hput := ofProject_put_request_other
        (r.withError payload.errorCode payload.message).requeued hmem rfl rfl hne
      simp only [Db.ofProject, hput]
    · have hput := ofProject_put_request_other
        (r.withError payload.errorCode payload.message).failed hmem rfl rfl hne
      have hnone : (r.settledBy 0).projectId ≠ id := hne
      have hsettle := settleAll_ofProject id [r.settledBy 0] db.projects
      rw [List.filter_cons, if_neg (by simpa using hnone), List.filter_nil,
        settleAll_nil] at hsettle
      simp only [Db.ofProject, hput, hsettle]

/-! ## Recovery and scans -/

/-- Recovery does to the share what it does to the whole database; it counts only the
requests of the project there. -/
theorem exec_recover_ofProject {now : Timestamp} {count : ℕ}
    (hknown : ∀ r ∈ db.requests.rows, ∃ project ∈ db.projects.rows, project.id = r.projectId)
    (h : exec db (.recover now) = .ok (.recovered count, db')) :
    ∃ own, own ≤ count ∧
      exec (db.ofProject id) (.recover now) = .ok (.recovered own, db'.ofProject id) := by
  have hcount : count = (db.requests.rows.filter (·.isRetryable now)).length := by
    obtain ⟨⟨n, final⟩, hrecover, hpure⟩ := Except.bind_eq_ok_iff.mp h
    rw [Except.pure_eq_ok_iff] at hpure
    cases hpure
    exact QueueService.recoverExpiredLeases_count hrecover
  obtain ⟨own, db'', hrecover⟩ := @QueueService.recoverExpiredLeases_of_known
    (db.ofProject id) now fun r hr => by
      obtain ⟨hmem, hown⟩ := Table.mem_select.mp hr
      exact known_ofProject (beq_iff_eq.mp hown) (hknown r hmem)
  have hexec : exec (db.ofProject id) (.recover now) = .ok (.recovered own, db'') := by
    simp only [exec, hrecover]
    rfl
  refine ⟨own, ?_, ?_⟩
  · rw [hcount, QueueService.recoverExpiredLeases_count hrecover]
    exact List.Sublist.length_le (List.Sublist.filter _ List.filter_sublist)
  · obtain ⟨_, -, requests, hrows, rfl⟩ := exec_recover_spec h
    obtain ⟨_, -, requests', hrows', rfl⟩ := exec_recover_spec hexec
    have hrequests : requests' = requests.select fun r => r.projectId == id := by
      apply Table.ext
      rw [hrows', Table.rows_select, hrows, List.filter_map, Db.ofProject, Table.rows_select]
      have hside : db.requests.rows.filter ((fun r => r.projectId == id) ∘
          fun r => r.after (.recover now) (.recovered count)) =
            db.requests.rows.filter fun r => r.projectId == id := by
        apply List.filter_congr
        intro r hr
        obtain ⟨-, hproject, -⟩ := (exec_rowStep h hr).fixed
        exact congrArg (· == id) hproject
      rw [hside]
      rfl
    have hprojects := settleAll_ofProject id (settlements db (.recover now)) db.projects
    rw [← settlements_ofProject] at hprojects
    rw [hexec, hrequests]
    simp only [Db.ofProject] at hprojects ⊢
    rw [hprojects]

theorem rescanned_ofProject {requests : Table OrbiRequest}
    (hperm : requests.rows.Perm db.requests.rows) :
    Step (db.ofProject id) .rescanned
      (Db.ofProject id { db with requests := requests }) :=
  .rescanned (hperm.filter _)

end Shares

end OrbiGateway
