import OrbiGateway.Concurrency.IdempotentAcceptance
import OrbiGateway.Invariants.BudgetLedger

/-!
# Concurrent chat calls as committed operations

What a call has read under its locks is what it would read at its commit, so a commit
does to the committed rows what the whole call does when it runs there alone.  A run of
concurrent calls is therefore a history of committed operations, and what holds of
histories holds of the rows that it commits.
-/

namespace OrbiGateway

open Relational Transition

/-! ## Lookups of keys -/

/-- A lookup of a key reads the same in both databases. -/
structure SameLookups (db db' : Db) : Prop where
  keys : db'.apiKeys.rows.map APIKey.lookupColumns =
    db.apiKeys.rows.map APIKey.lookupColumns
  active : ∀ projectId, (db'.projects.find projectId).map Project.isActive =
    (db.projects.find projectId).map Project.isActive

theorem findActiveKey_columns (db : Db) (keyId : String) :
    (findActiveKey db keyId).map APIKey.lookupColumns =
      (db.apiKeys.rows.map APIKey.lookupColumns).find? fun columns =>
        columns.2.1 == keyId &&
          ((db.projects.find columns.2.2).map Project.isActive).getD false := by
  rw [List.find?_map, findActiveKey]
  congr 2
  funext record
  simp only [Function.comp_apply, APIKey.lookupColumns]
  cases db.projects.find record.projectId with
  | none => rfl
  | some project => rfl

namespace SameLookups

variable {db db' : Db}

theorem findActiveKey_eq (h : SameLookups db db') (keyId : String) :
    (findActiveKey db' keyId).map APIKey.lookupColumns =
      (findActiveKey db keyId).map APIKey.lookupColumns := by
  simp only [findActiveKey_columns, h.keys, h.active]

theorem keys_put {record old : APIKey} (hfind : db.apiKeys.find record.id = some old)
    (hcolumns : record.lookupColumns = old.lookupColumns) :
    (db.apiKeys.put record).rows.map APIKey.lookupColumns =
      db.apiKeys.rows.map APIKey.lookupColumns := by
  simp only [Table.rows_put, List.map_map]
  apply List.map_congr_left
  intro r hr
  simp only [Function.comp_apply, key_apiKey]
  split
  next hid =>
    have heq : r = old := by
      apply db.apiKeys.eq_of_key_eq hr (Table.mem_of_find hfind)
      exact hid.trans (Table.key_of_find hfind).symm
    rw [heq, hcolumns]
  · rfl

theorem active_put {project old : Project}
    (hfind : db.projects.find project.id = some old)
    (hactive : project.isActive = old.isActive) (projectId : UUID) :
    ((db.projects.put project).find projectId).map Project.isActive =
      (db.projects.find projectId).map Project.isActive := by
  rw [Table.find_put]
  split
  next hid =>
    cases hid
    simp only [key_project, hfind, Option.map_some, hactive]
  · rfl

end SameLookups

/-- The operations of workers and of recovery leave the lookups alone. -/
theorem sameLookups_of_exec {db db' : Db} {op : Op} {reply : Reply}
    (hother : op.isChat = false) (h : exec db op = .ok (reply, db')) :
    SameLookups db db' := by
  have hsettled : ∀ settled projectId,
      ((settleAll settled db.projects).find projectId).map Project.isActive =
        (db.projects.find projectId).map Project.isActive := by
    intro settled projectId
    rw [settleAll, Table.find_mapRows, Option.map_map]
    congr 1
    funext project
    exact isActive_settleProject settled project
  cases op with
  | chat call => cases hother
  | claim worker leaseSeconds now =>
      rcases exec_claim_cases h with ⟨-, rfl⟩ | ⟨r, -, -, -, rfl⟩
      · exact ⟨rfl, fun _ => rfl⟩
      · exact ⟨rfl, fun _ => rfl⟩
  | submitResult worker payload now =>
      rcases exec_submitResult_cases h with ⟨-, rfl, -⟩ | ⟨r, -, usageRecords, -, -, -, rfl⟩
      · exact ⟨rfl, fun _ => rfl⟩
      · refine ⟨?_, hsettled _⟩
        simp only [QueueService.countUse, Table.rows_updateWhere, List.map_map]
        apply List.map_congr_left
        intro record _
        simp only [Function.comp_apply]
        split <;> rfl
  | submitError worker payload =>
      rcases exec_submitError_cases h with
        ⟨-, rfl, -⟩ | ⟨r, -, -, -, ⟨-, rfl⟩ | ⟨-, rfl⟩⟩
      · exact ⟨rfl, fun _ => rfl⟩
      · exact ⟨rfl, fun _ => rfl⟩
      · exact ⟨rfl, hsettled _⟩
  | recover now =>
      obtain ⟨count, -, requests, -, rfl⟩ := exec_recover_spec h
      exact ⟨rfl, hsettled _⟩

/-! ## What a session has read -/

namespace ChatSession

variable {db db' : Db} {session : ChatSession}

/-- To authenticate on these rows gives the session's version of its key. -/
def Authenticates (db : Db) (session : ChatSession) : Prop :=
  requireApiKey db session.call.key session.call.keyReadings =
    .ok (session.apiKey, { db with apiKeys := db.apiKeys.put session.apiKey })

/-- The session passes the checks that read no rows. -/
def MayChat (session : ChatSession) : Prop :=
  requireApiScope "chat" session.apiKey = .ok () ∧ checkChatCall session.call = .ok ()

/-- To reserve on these rows gives this version of the project. -/
def Reserves (db : Db) (session : ChatSession) (project : Project)
    (budgetDay budgetMonth : Date) : Prop :=
  reserveForChat db session.apiKey.projectId (reservedTokensOf session.call.payload)
      session.call.readings.today =
    .ok ((project, budgetDay, budgetMonth),
      { db with projects := db.projects.put project })

theorem Authenticates.find (h : session.Authenticates db) :
    ∃ record, db.apiKeys.find session.apiKey.id = some record ∧
      session.apiKey.lookupColumns = record.lookupColumns := by
  obtain ⟨record, hmem, -, -, hcount, -⟩ := requireApiKey_spec h
  have hcolumns := APIKey.lookupColumns_countCall hcount
  have hid : session.apiKey.id = record.id := congrArg Prod.fst hcolumns
  refine ⟨record, ?_, hcolumns⟩
  rw [Table.find_eq_some_iff]
  exact ⟨hmem, hid.symm⟩

theorem Authenticates.of_same (h : session.Authenticates db) (hsame : SameLookups db db')
    (hrow : db'.apiKeys.find session.apiKey.id = db.apiKeys.find session.apiKey.id) :
    session.Authenticates db' := by
  obtain ⟨record, hmem, hfind, hopened, hcount, -⟩ := requireApiKey_spec h
  have hid : session.apiKey.id = record.id :=
    congrArg Prod.fst (APIKey.lookupColumns_countCall hcount)
  have hfind' : findActiveKey db' session.call.key.keyId = some record := by
    have hcolumns := hsame.findActiveKey_eq session.call.key.keyId
    rw [hfind, Option.map_some] at hcolumns
    obtain ⟨record', hrecord', hcolumns'⟩ := Option.map_eq_some_iff.mp hcolumns
    have hold := Table.find_eq_some_iff.mpr ⟨hmem, hid.symm⟩
    have hnew := Table.find_eq_some_iff.mpr
      ⟨findActiveKey_mem hrecord', (congrArg Prod.fst hcolumns').trans hid.symm⟩
    rw [hrow, hold, Option.some.injEq] at hnew
    rw [hrecord', hnew]
  simp only [Authenticates, requireApiKey, hfind', hopened, hcount, bind, Except.bind, pure,
    Except.pure, Bool.not_true, Bool.false_eq_true, if_false]

theorem Reserves.find {project : Project} {budgetDay budgetMonth : Date}
    (h : session.Reserves db project budgetDay budgetMonth) :
    project.id = session.apiKey.projectId ∧ ∃ old,
      db.projects.find project.id = some old ∧ project.isActive = old.isActive := by
  obtain ⟨old, hfind, hreserve, -⟩ := reserveForChat_spec h
  have hid : project.id = session.apiKey.projectId :=
    (Project.reserve_spec hreserve).id_eq.trans (Table.key_of_find hfind)
  exact ⟨hid, old, hid ▸ hfind, Project.isActive_reserve hreserve⟩

theorem Reserves.of_find {project : Project} {budgetDay budgetMonth : Date}
    (h : session.Reserves db project budgetDay budgetMonth)
    (hrow : db'.projects.find project.id = db.projects.find project.id) :
    session.Reserves db' project budgetDay budgetMonth := by
  rw [h.find.1] at hrow
  obtain ⟨old, hfind, hreserve, rfl, rfl, -⟩ := reserveForChat_spec h
  rw [hfind] at hrow
  exact reserveForChat_of_reserve hrow hreserve

end ChatSession

/-- What a transaction has read is what it would read now. -/
def PhaseCurrent (db : Db) : ChatPhase → Prop
  | .authenticated session => session.Authenticates db
  | .answered session _ => session.Authenticates db ∧ session.MayChat
  | .cleared session modelAlias => session.Authenticates db ∧ session.MayChat ∧
      findAlias db session.call.payload.model = some modelAlias
  | .reserved session modelAlias project budgetDay budgetMonth =>
      session.Authenticates db ∧ session.MayChat ∧
        findAlias db session.call.payload.model = some modelAlias ∧
        session.Reserves db project budgetDay budgetMonth
  | .inserted session project record => session.Authenticates db ∧ session.MayChat ∧
      ∃ modelAlias budgetDay budgetMonth,
        findAlias db session.call.payload.model = some modelAlias ∧
        session.Reserves db project budgetDay budgetMonth ∧
        record = newRequest session.call session.apiKey modelAlias project budgetDay
          budgetMonth
  | .revoking record => db.apiKeys.find record.id = some record
  | _ => True

/-- It stays so while its locked rows and what lookups read are left alone. -/
theorem PhaseCurrent.of_same {db db' : Db} {phase : ChatPhase} (h : PhaseCurrent db phase)
    (hsame : SameLookups db db') (haliases : db'.modelAliases = db.modelAliases)
    (hkey : ∀ id, phase.apiKeyLock = some id → db'.apiKeys.find id = db.apiKeys.find id)
    (hproject : ∀ id, phase.projectLock = some id →
      db'.projects.find id = db.projects.find id) :
    PhaseCurrent db' phase := by
  have halias : ∀ model, findAlias db' model = findAlias db model := by
    intro model
    simp only [findAlias, haliases]
  cases phase with
  | authenticated session => exact ChatSession.Authenticates.of_same h hsame (hkey _ rfl)
  | answered session reply => exact ⟨h.1.of_same hsame (hkey _ rfl), h.2⟩
  | cleared session modelAlias =>
      obtain ⟨hauth, hmay, hfound⟩ := h
      exact ⟨hauth.of_same hsame (hkey _ rfl), hmay, (halias _).trans hfound⟩
  | reserved session modelAlias project budgetDay budgetMonth =>
      obtain ⟨hauth, hmay, hfound, hreserves⟩ := h
      exact ⟨hauth.of_same hsame (hkey _ rfl), hmay, (halias _).trans hfound,
        hreserves.of_find (hproject _ rfl)⟩
  | inserted session project record =>
      obtain ⟨hauth, hmay, modelAlias, budgetDay, budgetMonth, hfound, hreserves, hrecord⟩ := h
      exact ⟨hauth.of_same hsame (hkey _ rfl), hmay, modelAlias, budgetDay, budgetMonth,
        (halias _).trans hfound, hreserves.of_find (hproject _ rfl), hrecord⟩
  | revoking record => exact (hkey _ rfl).trans h
  | _ => trivial

/-! ## The invariant -/

section Invariant

variable {τ : Type*}

/-- Project locks exclude each other, and every transaction has read what it would read
now. -/
structure ChatsCurrent (s : ChatState τ) : Prop where
  projects_exclusive : ∀ t u id, (s.calls t).projectLock = some id →
    (s.calls u).projectLock = some id → t = u
  phases : ∀ t, PhaseCurrent s.db (s.calls t)

variable [DecidableEq τ] {s s' : ChatState τ} {e : ChatEvent τ}
  {history : List (ChatEvent τ)}

theorem ChatStep.projectLock_cases (h : ChatStep s e s') {t : τ} {id : UUID}
    (hlock : (s'.calls t).projectLock = some id) :
    (s.calls t).projectLock = some id ∨
      (e.caller = some t ∧ ∀ u, (s.calls u).projectLock ≠ some id) := by
  by_cases hcaller : e.caller = some t
  · cases h with
    | reserved hphase hreserve hfree =>
        cases hcaller
        simp only [ChatState.move, Function.update_self] at hlock
        cases hlock
        exact Or.inr ⟨rfl, hfree⟩
    | inserted hphase =>
        cases hcaller
        simp only [ChatState.move, Function.update_self] at hlock
        exact Or.inl (by rw [hphase]; exact hlock)
    | _ =>
        cases hcaller <;>
          simp [ChatState.move, ChatPhase.projectLock] at hlock
  · rw [h.calls_of_ne hcaller] at hlock
    exact Or.inl hlock

/-- Lookups read the same before and after every step, and aliases are never written. -/
theorem ChatsCurrent.sameLookups (h : ChatsCurrent s) (hstep : ChatStep s e s') :
    SameLookups s.db s'.db ∧ s'.db.modelAliases = s.db.modelAliases := by
  cases hstep with
  | @accepted t session project record requests hphase hinsert =>
      have hcurrent := h.phases t
      rw [hphase] at hcurrent
      obtain ⟨hauth, -, modelAlias, budgetDay, budgetMonth, -, hreserves, -⟩ := hcurrent
      obtain ⟨old, hfind, hcolumns⟩ := hauth.find
      obtain ⟨-, oldProject, hfindProject, hactive⟩ := hreserves.find
      exact ⟨⟨SameLookups.keys_put hfind hcolumns,
        SameLookups.active_put hfindProject hactive⟩, rfl⟩
  | @answered t session reply hphase =>
      have hcurrent := h.phases t
      rw [hphase] at hcurrent
      obtain ⟨old, hfind, hcolumns⟩ := hcurrent.1.find
      exact ⟨⟨SameLookups.keys_put hfind hcolumns, fun _ => rfl⟩, rfl⟩
  | @keyRevoked t record now hphase =>
      have hcurrent := h.phases t
      rw [hphase] at hcurrent
      have hfind : s.db.apiKeys.find (record.revoked now).id = some record := by
        rw [record.id_revoked]
        exact hcurrent
      exact ⟨⟨SameLookups.keys_put hfind (record.lookupColumns_revoked now),
        fun _ => rfl⟩, rfl⟩
  | performed hother hexec hkeys hprojects =>
      exact ⟨sameLookups_of_exec hother hexec, (exec_frame hexec).2⟩
  | _ => exact ⟨⟨rfl, fun _ => rfl⟩, rfl⟩

theorem ChatsCurrent.locked_of_ne (h : ChatsCurrent s)
    (hexclusive : ∀ t u id, (s.calls t).apiKeyLock = some id →
      (s.calls u).apiKeyLock = some id → t = u)
    (hstep : ChatStep s e s') {u : τ} (hu : e.caller ≠ some u) :
    (∀ id, (s.calls u).apiKeyLock = some id →
        s'.db.apiKeys.find id = s.db.apiKeys.find id) ∧
      ∀ id, (s.calls u).projectLock = some id →
        s'.db.projects.find id = s.db.projects.find id := by
  have hkey : ∀ {t : τ} {id id' : UUID}, some t ≠ some u →
      (s.calls t).apiKeyLock = some id → (s.calls u).apiKeyLock = some id' → id ≠ id' := by
    rintro t id id' hne ht hu rfl
    exact hne (congrArg some (hexclusive t u id ht hu))
  have hproject : ∀ {t : τ} {id id' : UUID}, some t ≠ some u →
      (s.calls t).projectLock = some id → (s.calls u).projectLock = some id' →
        id ≠ id' := by
    rintro t id id' hne ht hu rfl
    exact hne (congrArg some (h.projects_exclusive t u id ht hu))
  cases hstep with
  | @accepted t session project record requests hphase hinsert =>
      constructor
      · intro id hlock
        exact Table.find_put_of_ne _ (hkey hu (by rw [hphase]; rfl) hlock)
      · intro id hlock
        exact Table.find_put_of_ne _ (hproject hu (by rw [hphase]; rfl) hlock)
  | @answered t session reply hphase =>
      constructor
      · intro id hlock
        exact Table.find_put_of_ne _ (hkey hu (by rw [hphase]; rfl) hlock)
      · intro id _
        rfl
  | @keyRevoked t record now hphase =>
      constructor
      · intro id hlock
        have hne := hkey hu (by rw [hphase]; rfl) hlock
        exact Table.find_put_of_ne _ ((record.id_revoked now).trans_ne hne)
      · intro id _
        rfl
  | performed hother hexec hkeys hprojects => exact ⟨hkeys u, hprojects u⟩
  | _ => exact ⟨fun _ _ => rfl, fun _ _ => rfl⟩

theorem ChatsCurrent.phase_of_caller (h : ChatsCurrent s) (hstep : ChatStep s e s') {t : τ}
    (hcaller : e.caller = some t) : PhaseCurrent s'.db (s'.calls t) := by
  have hcurrent := h.phases t
  cases hstep with
  | authenticated hidle hkey hfree =>
      cases hcaller
      simp only [ChatState.move, Function.update_self]
      obtain ⟨record, -, -, -, -, rfl⟩ := requireApiKey_spec hkey
      exact hkey
  | found hphase hscope hcheck hfind =>
      cases hcaller
      rw [hphase] at hcurrent
      simp only [ChatState.move, Function.update_self]
      exact ⟨hcurrent, hscope, hcheck⟩
  | cleared hphase hscope hcheck hnone halias =>
      cases hcaller
      rw [hphase] at hcurrent
      simp only [ChatState.move, Function.update_self]
      exact ⟨hcurrent, ⟨hscope, hcheck⟩, halias⟩
  | reserved hphase hreserve hfree =>
      cases hcaller
      rw [hphase] at hcurrent
      simp only [ChatState.move, Function.update_self]
      obtain ⟨old, -, -, -, -, rfl⟩ := reserveForChat_spec hreserve
      exact ⟨hcurrent.1, hcurrent.2.1, hcurrent.2.2, hreserve⟩
  | inserted hphase hrecord hwait hinsert =>
      cases hcaller
      rw [hphase] at hcurrent
      simp only [ChatState.move, Function.update_self]
      obtain ⟨hauth, hmay, halias, hreserves⟩ := hcurrent
      exact ⟨hauth, hmay, _, _, _, halias, hreserves, hrecord⟩
  | keyLocked hidle hfind hfree =>
      cases hcaller
      simp only [ChatState.move, Function.update_self]
      have hid := Table.key_of_find hfind
      rw [← hid] at hfind
      exact hfind
  | _ =>
      cases hcaller <;>
        simp [ChatState.move, PhaseCurrent]

theorem ChatsCurrent.step (h : ChatsCurrent s)
    (hexclusive : ∀ t u id, (s.calls t).apiKeyLock = some id →
      (s.calls u).apiKeyLock = some id → t = u)
    (hstep : ChatStep s e s') : ChatsCurrent s' := by
  refine ⟨RowLocks.Exclusive.step h.projects_exclusive hstep.projectLock_cases, ?_⟩
  intro u
  by_cases hcaller : e.caller = some u
  · exact h.phase_of_caller hstep hcaller
  · rw [hstep.calls_of_ne hcaller]
    obtain ⟨hsame, haliases⟩ := h.sameLookups hstep
    obtain ⟨hkeys, hprojects⟩ := h.locked_of_ne hexclusive hstep hcaller
    exact (h.phases u).of_same hsame haliases hkeys hprojects

theorem chatsCurrent_of_run {db : Db} (hrun : ChatRun db history s) : ChatsCurrent s := by
  apply Run.history_invariant (I := fun _ s => ChatsCurrent s) hrun
  · refine ⟨?_, fun t => trivial⟩
    intro t u id hlock
    cases hlock
  · intro history s e s' hprev h hstep
    exact h.step (keysExclusive_of_run hprev) hstep

/-! ## Commits -/

/-- To commit an inserted request is to run its call on the committed rows. -/
theorem acceptChat_of_inserted {db : Db} {session : ChatSession} {project : Project}
    {record : OrbiRequest} {requests : Table OrbiRequest}
    (hcurrent : PhaseCurrent db (.inserted session project record))
    (hnone : findExisting db session.apiKey.id session.call.idempotencyKey = none)
    (hinsert : db.requests.insert record = some requests) :
    acceptChat db session.call = .ok (.queued record,
      { db with
        apiKeys := db.apiKeys.put session.apiKey
        projects := db.projects.put project
        requests := requests }) := by
  obtain ⟨hauth, ⟨hscope, hcheck⟩, modelAlias, budgetDay, budgetMonth, halias, hreserves,
    rfl⟩ := hcurrent
  let mid : Db := { db with apiKeys := db.apiKeys.put session.apiKey }
  have hreserves' : session.Reserves mid project budgetDay budgetMonth :=
    hreserves.of_find rfl
  have hqueued : createChatCompletion mid session.apiKey session.call = _ :=
    createChatCompletion_of_insert hcheck hnone halias hreserves' hinsert
  unfold ChatSession.Authenticates at hauth
  simp only [acceptChat, hauth, hscope, hqueued, mid, bind, Except.bind]

theorem acceptChat_of_answered {db : Db} {session : ChatSession} {reply : ChatReply}
    (hcurrent : PhaseCurrent db (.answered session reply))
    (hanswers : Answers db session.apiKey.id session.call.idempotencyKey reply) :
    ∃ existing, acceptChat db session.call =
      .ok (existingReply existing, { db with apiKeys := db.apiKeys.put session.apiKey }) := by
  obtain ⟨hauth, hscope, hcheck⟩ := hcurrent
  obtain ⟨key, hkey, row, hrow, hpair, -⟩ := hanswers
  cases hfind : findExisting db session.apiKey.id session.call.idempotencyKey with
  | none =>
      have hfree := findExisting_eq_none_iff.mp hfind key hkey row hrow
      rw [hpair] at hfree
      cases hfree
  | some existing =>
      have hfind' : findExisting { db with apiKeys := db.apiKeys.put session.apiKey }
          session.apiKey.id session.call.idempotencyKey = some existing := hfind
      unfold ChatSession.Authenticates at hauth
      refine ⟨existing, ?_⟩
      simp only [acceptChat, createChatCompletion, hauth, hscope, hcheck, hfind', bind,
        Except.bind, pure, Except.pure]

theorem exec_chat_of_acceptChat {db db' : Db} {call : ChatCall} {reply : ChatReply}
    (h : acceptChat db call = .ok (reply, db')) :
    exec db (.chat call) = .ok (.chat reply, db') := by
  simp only [exec, h, bind, Except.bind, pure, Except.pure]

/-- A step that revokes no key commits nothing, or one operation on the committed rows. -/
theorem ChatStep.commits (h : ChatStep s e s') (hc : ChatsConsistent history s)
    (hcurrent : ChatsCurrent s) (hrevoked : ∀ t id, e ≠ .keyRevoked t id) :
    (s'.db = s.db ∧ e.newRows = []) ∨
      ∃ event, Step s.db event s'.db ∧ event.reservation.toList = e.newRows := by
  cases h with
  | @accepted t session project record requests hphase hinsert =>
      have hread := hcurrent.phases t
      have hok := hc.phases t
      rw [hphase] at hread hok
      have hexec := exec_chat_of_acceptChat (acceptChat_of_inserted hread hok.1 hinsert)
      exact Or.inr ⟨_, .performed hexec, rfl⟩
  | @answered t session reply hphase =>
      have hread := hcurrent.phases t
      have hok := hc.phases t
      rw [hphase] at hread hok
      obtain ⟨existing, haccept⟩ := acceptChat_of_answered hread hok
      refine Or.inr ⟨_, .performed (exec_chat_of_acceptChat haccept), ?_⟩
      rw [reservation_of_newRows_nil (newRows_existingReply existing)]
      rfl
  | @performed op reply db hother hexec hkeys hprojects =>
      have hnone := newRows_of_not_isChat hother hexec
      refine Or.inr ⟨_, .performed hexec, ?_⟩
      rw [reservation_of_newRows_nil hnone]
      rfl
  | rescanned hperm => exact Or.inr ⟨.rescanned, .rescanned hperm, rfl⟩
  | @keyRevoked t record now hphase => exact absurd rfl (hrevoked t record.id)
  | _ => exact Or.inl ⟨rfl, rfl⟩

/-- Without revocations, the committed rows of a run of concurrent calls are those of a
history of operations that reserves for the same requests in the same order. -/
theorem history_of_chatRun {db : Db} (hstart : db.requests.rows = [])
    (hrun : ChatRun db history s) (hrevoked : ∀ t id, .keyRevoked t id ∉ history) :
    ∃ events, History db events s.db ∧
      events.filterMap Event.reservation = history.flatMap ChatEvent.newRows := by
  induction hrun with
  | start => exact ⟨[], .start, rfl⟩
  | @next history s s' e hprev hstep ih =>
      obtain ⟨events, hevents, hsame⟩ := ih fun t id hmem =>
        hrevoked t id (List.mem_cons_of_mem e hmem)
      have hother : ∀ t id, e ≠ .keyRevoked t id := by
        rintro t id rfl
        exact hrevoked t id List.mem_cons_self
      rcases hstep.commits (chatsConsistent_of_run hstart hprev)
          (chatsCurrent_of_run hprev) hother with
        ⟨hdb, hnone⟩ | ⟨event, hevent, hrecord⟩
      · refine ⟨events, hdb ▸ hevents, ?_⟩
        rw [hsame, List.flatMap_cons, hnone, List.nil_append]
      · refine ⟨event :: events, hevents.next hevent, ?_⟩
        rw [List.flatMap_cons, ← hrecord, ← hsame, List.filterMap_cons]
        cases event.reservation with
        | none => rfl
        | some record => rfl

/-- Concurrent calls keep every counter equal to its ledger, if the dates of the
reservations of a project never decrease. -/
theorem budgetConserved_of_chatRun {db : Db} (hfresh : Fresh db)
    (hrun : ChatRun db history s) (hrevoked : ∀ t id, .keyRevoked t id ∉ history)
    (hdates : (history.flatMap ChatEvent.newRows).Pairwise fun newer older =>
      newer.projectId = older.projectId → older.budgetDay ≤ newer.budgetDay) :
    BudgetConserved s.db := by
  obtain ⟨events, hevents, hsame⟩ :=
    history_of_chatRun hfresh.requests_empty hrun hrevoked
  apply budgetConserved_of_history hfresh hevents
  rw [datesNondecreasing_iff, hsame]
  exact hdates

end Invariant

end OrbiGateway
