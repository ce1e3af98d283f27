import OrbiGateway.Invariants.AcceptedRows
import OrbiGateway.Invariants.RequestRows
import OrbiGateway.System.Tenants

/-!
# Tenant isolation

What one project sees of a run is itself a run, on the share of that project alone: the
calls with its keys, the claims, results and errors of its requests and every recovery
do to its share what they would do if no other project existed, and everything else
leaves the share as it is.  The ids that chat calls draw for their rows are assumed to
be different, as those of `uuid4` are.
-/

namespace OrbiGateway

open Relational Transition

/-! ## What a project sees -/

/-- The id that a chat call has drawn for its row. -/
def Event.drawnId : Event → Option UUID
  | .performed (.chat call) _ _ => some call.readings.requestId
  | .failed (.chat call) _ => some call.readings.requestId
  | _ => none

def drawnIds (history : List Event) : List UUID :=
  history.filterMap Event.drawnId

/-- A request with this id was queued for project `id`. -/
def wasQueuedFor (id requestId : UUID) (history : List Event) : Bool :=
  (acceptedRows history).any fun row => row.id == requestId && row.projectId == id

/-- The key ids of the keys of a project. -/
def keyIdsOf (id : UUID) (db : Db) : List String :=
  (db.ofProject id).apiKeys.rows.map APIKey.keyId

/-- The event is of project `id`, whose keys have the key ids `keyIds`. -/
def Event.isSeenBy (id : UUID) (keyIds : List String) (older : List Event) : Event → Bool
  | .performed (.chat call) _ _ => keyIds.contains call.key.keyId
  | .failed (.chat call) _ => keyIds.contains call.key.keyId
  | .performed (.claim _ _ _) (.claimed (some winner)) _ => winner.projectId == id
  | .performed (.submitResult _ payload _) _ _ => wasQueuedFor id payload.requestId older
  | .performed (.submitError _ payload) _ _ => wasQueuedFor id payload.requestId older
  | .performed (.recover _) _ _ => true
  | .rescanned => true
  | _ => false

/-- An event and what project `id` sees of it: the same operation with the same reply
and its own settlements.  Of a recovery it sees how many of its own requests were put
back. -/
inductive SeenAs (id : UUID) : Event → Event → Prop
  | performed (op : Op) (reply : Reply) (settled : List Settlement) :
      SeenAs id (.performed op reply settled)
        (.performed op reply (settled.filter fun settlement => settlement.projectId == id))
  | recovered {own count : ℕ} (hle : own ≤ count) (now : Timestamp)
      (settled : List Settlement) :
      SeenAs id (.performed (.recover now) (.recovered count) settled)
        (.performed (.recover now) (.recovered own)
          (settled.filter fun settlement => settlement.projectId == id))
  | failed (op : Op) (failure : Failure) : SeenAs id (.failed op failure) (.failed op failure)
  | rescanned : SeenAs id .rescanned .rescanned

/-! ## Ownership along a run -/

/-- What ties the rows to their projects: the keys are those of the start, every request
is of the project of its key, and different requests were queued by calls that drew
different ids. -/
structure Tenanted (db₀ : Db) (history : List Event) (db : Db) : Prop where
  keys : db.apiKeys.rows.map APIKey.lookupColumns = db₀.apiKeys.rows.map APIKey.lookupColumns
  owned : ∀ r ∈ db.requests.rows, ∃ columns ∈ db.apiKeys.rows.map APIKey.lookupColumns,
    columns.1 = r.apiKeyId ∧ columns.2.2 = r.projectId
  drawn : ((acceptedRows history).map OrbiRequest.id).Sublist (drawnIds history)
  rows : RowsAccepted history db

theorem exec_lookupColumns {db db' : Db} {op : Op} {reply : Reply}
    (h : exec db op = .ok (reply, db')) :
    db'.apiKeys.rows.map APIKey.lookupColumns = db.apiKeys.rows.map APIKey.lookupColumns := by
  cases exec_ledgerStep h with
  | counted hkey hkeys _ =>
      obtain ⟨record, hmem, -, -, hcount, -⟩ := requireApiKey_spec hkey
      have hcolumns := APIKey.lookupColumns_countCall hcount
      rw [hkeys]
      apply Table.map_put
      intro other hother hid
      have heq : other = record :=
        db.apiKeys.eq_of_key_eq hother hmem (hid.trans (congrArg Prod.fst hcolumns))
      rw [heq, hcolumns]
  | used _ _ hkeys _ =>
      rw [hkeys, QueueService.countUse, Table.rows_updateWhere, List.map_map]
      apply List.map_congr_left
      intro record _
      simp only [Function.comp_apply]
      split <;> rfl
  | kept _ hkeys _ _ => rw [hkeys]

theorem tenanted_of_history {db₀ db : Db} {history : List Event}
    (hstart : db₀.requests.rows = []) (hrun : History db₀ history db) :
    Tenanted db₀ history db := by
  refine ⟨?_, ?_, ?_, rowsAccepted_of_history hstart hrun⟩
  · apply Run.invariant (I := fun db => db.apiKeys.rows.map APIKey.lookupColumns =
      db₀.apiKeys.rows.map APIKey.lookupColumns) hrun rfl
    intro db e db' h hstep
    cases hstep with
    | performed hexec => exact (exec_lookupColumns hexec).trans h
    | failed => exact h
    | rescanned => exact h
  · apply Run.invariant (I := fun db => ∀ r ∈ db.requests.rows,
      ∃ columns ∈ db.apiKeys.rows.map APIKey.lookupColumns,
        columns.1 = r.apiKeyId ∧ columns.2.2 = r.projectId) hrun
    · intro r hr
      rw [hstart] at hr
      cases hr
    · intro db e db' h hstep r' hr'
      cases hstep with
      | performed hexec =>
          rw [exec_lookupColumns hexec]
          rw [exec_requests hexec, List.mem_append, List.mem_map] at hr'
          rcases hr' with ⟨r, hr, rfl⟩ | hnew
          · obtain ⟨-, hproject, hkey, -⟩ := (exec_rowStep hexec hr).fixed
            rw [hproject, hkey]
            exact h r hr
          · obtain ⟨-, -, -, -, rfl, -⟩ := exec_newRow hexec hnew
            obtain ⟨call, -, apiKey, -, -, project, hproject, ⟨old, hold, hcolumns⟩, -,
              rfl⟩ := exec_accepted hexec
            refine ⟨old.lookupColumns, List.mem_map_of_mem hold, ?_, ?_⟩
            · exact (congrArg Prod.fst hcolumns).symm
            · exact (congrArg (fun columns => columns.2.2) hcolumns).symm.trans hproject
      | failed => exact h r' hr'
      | rescanned hperm => exact h r' (hperm.mem_iff.mp hr')
  · apply Run.history_invariant
      (I := fun history _ => ((acceptedRows history).map OrbiRequest.id).Sublist
        (drawnIds history)) hrun (List.Sublist.refl [])
    intro history db e db' _ h hstep
    have hold : (drawnIds history).Sublist (drawnIds (e :: history)) :=
      (List.sublist_cons_self e history).filterMap _
    cases hstep with
    | @performed _ op reply hexec =>
        rw [acceptedRows_performed hexec, List.map_append]
        cases hnew : reply.newRows with
        | nil => exact h.trans hold
        | cons row rest =>
            obtain ⟨-, -, -, -, rfl, -⟩ :=
              exec_newRow hexec (hnew ▸ List.mem_cons_self : row ∈ reply.newRows)
            cases hnew
            obtain ⟨call, rfl, hwritten⟩ := exec_accepted hexec
            obtain ⟨-, -, -, -, -, -, -, rfl⟩ := hwritten
            exact h.cons_cons _
    | failed hexec => exact h.trans hold
    | rescanned hperm => exact h.trans hold

namespace Tenanted

variable {db₀ db : Db} {history : List Event} {id : UUID}

theorem keysOwnRequests (h : Tenanted db₀ history db) : KeysOwnRequests db := by
  intro r hr record hrecord hkey
  obtain ⟨columns, hcolumns, hid, hproject⟩ := h.owned r hr
  obtain ⟨owner, howner, rfl⟩ := List.mem_map.mp hcolumns
  have heq : owner = record :=
    db.apiKeys.eq_of_key_eq howner hrecord (hid.trans hkey)
  rw [← hproject, heq]
  rfl

theorem keyIds_contains_iff (h : Tenanted db₀ history db)
    (hkeyIds : (db₀.apiKeys.rows.map APIKey.keyId).Nodup) {record : APIKey}
    (hrecord : record ∈ db.apiKeys.rows) :
    (keyIdsOf id db₀).contains record.keyId = true ↔ record.projectId = id := by
  have hmem : record.lookupColumns ∈ db₀.apiKeys.rows.map APIKey.lookupColumns := by
    rw [← h.keys]
    exact List.mem_map_of_mem hrecord
  obtain ⟨old, hold, hcolumns⟩ := List.mem_map.mp hmem
  simp only [APIKey.lookupColumns, Prod.mk.injEq] at hcolumns
  obtain ⟨-, hkeyId, hproject⟩ := hcolumns
  rw [List.contains_iff_mem, keyIdsOf, List.mem_map]
  constructor
  · rintro ⟨own, hown, hsame⟩
    obtain ⟨hownMem, hownProject⟩ := Table.mem_select.mp hown
    have heq : own = old :=
      List.inj_on_of_nodup_map hkeyIds hownMem hold (hsame.trans hkeyId.symm)
    rw [← hproject, ← heq]
    exact beq_iff_eq.mp hownProject
  · intro hown
    exact ⟨old, Table.mem_select.mpr ⟨hold, beq_iff_eq.mpr (hproject.trans hown)⟩, hkeyId⟩

theorem wasQueuedFor_iff (h : Tenanted db₀ history db) (hdrawn : (drawnIds history).Nodup)
    {r : OrbiRequest} (hr : r ∈ db.requests.rows) :
    wasQueuedFor id r.id history = true ↔ r.projectId = id := by
  obtain ⟨row, hrow, hsameRow⟩ := h.rows.accepted r hr
  have hid := hsameRow.id.symm
  have hproject := hsameRow.projectId.symm
  simp only [wasQueuedFor, List.any_eq_true, Bool.and_eq_true, beq_iff_eq]
  constructor
  · rintro ⟨other, hother, hsame, hown⟩
    have heq : other = row :=
      List.inj_on_of_nodup_map (hdrawn.sublist h.drawn) hother hrow (hsame.trans hid.symm)
    rw [← hproject, ← heq]
    exact hown
  · intro hown
    exact ⟨row, hrow, hid, hproject.trans hown⟩

theorem requestId_free (h : Tenanted db₀ history db) {call : ChatCall}
    (hdrawn : (call.readings.requestId :: drawnIds history).Nodup) :
    ∀ r ∈ db.requests.rows, r.id ≠ call.readings.requestId := by
  intro r hr hid
  obtain ⟨row, hrow, hsame⟩ := h.rows.accepted r hr
  have hmem : row.id ∈ drawnIds history := h.drawn.subset (List.mem_map_of_mem hrow)
  rw [← hsame.id, hid] at hmem
  exact (List.nodup_cons.mp hdrawn).1 hmem

end Tenanted

/-! ## Every step -/

section Steps

variable {db₀ db db' : Db} {history : List Event} {id : UUID}

/-- A call with a key of the project is the same call on its share. -/
theorem step_chat_ofProject {call : ChatCall} {reply : Reply}
    (h : Tenanted db₀ history db)
    (hkey : ∀ record ∈ db.apiKeys.rows, record.keyId = call.key.keyId → record.projectId = id)
    (hfree : ∀ r ∈ db.requests.rows, r.id ≠ call.readings.requestId)
    (hexec : exec db (.chat call) = .ok (reply, db')) :
    exec (db.ofProject id) (.chat call) = .ok (reply, db'.ofProject id) := by
  obtain ⟨⟨answer, final⟩, haccept, hpure⟩ := Except.bind_eq_ok_iff.mp hexec
  rw [Except.pure_eq_ok_iff] at hpure
  cases hpure
  have hshare := acceptChat_ofProject hkey h.keysOwnRequests hfree
  rw [haccept] at hshare
  simp only [exec, hshare]
  rfl

theorem step_chat_failed_ofProject {call : ChatCall} {failure : Failure}
    (h : Tenanted db₀ history db)
    (hkey : ∀ record ∈ db.apiKeys.rows, record.keyId = call.key.keyId → record.projectId = id)
    (hfree : ∀ r ∈ db.requests.rows, r.id ≠ call.readings.requestId)
    (hexec : exec db (.chat call) = .error failure) :
    exec (db.ofProject id) (.chat call) = .error failure := by
  have hshare := acceptChat_ofProject hkey h.keysOwnRequests hfree
  cases haccept : acceptChat db call with
  | ok outcome => simp [exec, haccept, bind, Except.bind, pure, Except.pure] at hexec
  | error failure' =>
      simp only [exec, haccept, bind, Except.bind, Except.error.injEq] at hexec
      rw [haccept, hexec] at hshare
      simp only [exec, hshare]
      rfl

/-- An event that the project sees is its own event on its share, and one that it does
not see leaves the share as it is. -/
theorem step_ofProject (h : Tenanted db₀ history db) (hknown : ProjectsKnown db)
    (hkeyIds : (db₀.apiKeys.rows.map APIKey.keyId).Nodup) {e : Event}
    (hdrawn : (drawnIds (e :: history)).Nodup) (hstep : Step db e db') :
    (e.isSeenBy id (keyIdsOf id db₀) history = false ∧ db'.ofProject id = db.ofProject id) ∨
      (e.isSeenBy id (keyIdsOf id db₀) history = true ∧
        ∃ e', SeenAs id e e' ∧ Step (db.ofProject id) e' (db'.ofProject id)) := by
  have hdrawn' : (drawnIds history).Nodup :=
    hdrawn.sublist ((List.sublist_cons_self e history).filterMap _)
  cases hstep with
  | @performed _ op reply hexec =>
      have hperformed : exec (db.ofProject id) op = .ok (reply, db'.ofProject id) →
          ∃ e', SeenAs id (.performed op reply (settlements db op)) e' ∧
            Step (db.ofProject id) e' (db'.ofProject id) := by
        intro hshare
        refine ⟨_, .performed op reply (settlements db op), ?_⟩
        rw [← settlements_ofProject]
        exact .performed hshare
      cases op with
      | chat call =>
          cases hsees : (keyIdsOf id db₀).contains call.key.keyId with
          | true =>
              refine .inr ⟨hsees, hperformed (step_chat_ofProject h ?_ ?_ hexec)⟩
              · intro record hrecord hkeyId
                rw [← h.keyIds_contains_iff hkeyIds hrecord, hkeyId]
                exact hsees
              · exact h.requestId_free hdrawn
          | false =>
              refine .inl ⟨hsees, exec_chat_other hexec ?_⟩
              intro record hrecord hkeyId hown
              rw [← hkeyId, (h.keyIds_contains_iff hkeyIds hrecord).mpr hown] at hsees
              cases hsees
      | claim worker leaseSeconds now =>
          rcases exec_claim_cases hexec with ⟨rfl, rfl⟩ | ⟨r, -, -, rfl, -⟩
          · exact .inl ⟨rfl, rfl⟩
          · by_cases hown : r.projectId = id
            · have hshare := exec_claim_ofProject hexec hown
              exact .inr ⟨beq_iff_eq.mpr hown, hperformed hshare⟩
            · refine .inl ⟨beq_eq_false_iff_ne.mpr hown, exec_claim_other hexec ?_⟩
              intro winner hwinner
              cases hwinner
              exact hown
      | submitResult worker payload now =>
          cases hsees : wasQueuedFor id payload.requestId history with
          | true =>
              refine .inr ⟨hsees, hperformed (exec_submitResult_ofProject hknown ?_ hexec)⟩
              intro r hr hid
              rw [← h.wasQueuedFor_iff hdrawn' hr, hid]
              exact hsees
          | false =>
              refine .inl ⟨hsees, exec_submitResult_other h.keysOwnRequests ?_ hexec⟩
              intro r hr hid hown
              rw [← hid, (h.wasQueuedFor_iff hdrawn' hr).mpr hown] at hsees
              cases hsees
      | submitError worker payload =>
          cases hsees : wasQueuedFor id payload.requestId history with
          | true =>
              refine .inr ⟨hsees, hperformed (exec_submitError_ofProject hknown ?_ hexec)⟩
              intro r hr hid
              rw [← h.wasQueuedFor_iff hdrawn' hr, hid]
              exact hsees
          | false =>
              refine .inl ⟨hsees, exec_submitError_other ?_ hexec⟩
              intro r hr hid hown
              rw [← hid, (h.wasQueuedFor_iff hdrawn' hr).mpr hown] at hsees
              cases hsees
      | recover now =>
          obtain ⟨count, rfl, -⟩ := exec_recover_spec hexec
          obtain ⟨own, hle, hshare⟩ := exec_recover_ofProject hknown hexec
          refine .inr ⟨rfl, _, .recovered hle now (settlements db (.recover now)), ?_⟩
          rw [← settlements_ofProject]
          exact .performed hshare
  | @failed op failure hexec =>
      cases op with
      | chat call =>
          cases hsees : (keyIdsOf id db₀).contains call.key.keyId with
          | true =>
              refine .inr ⟨hsees, _, .failed (.chat call) failure,
                .failed (step_chat_failed_ofProject h ?_ ?_ hexec)⟩
              · intro record hrecord hkeyId
                rw [← h.keyIds_contains_iff hkeyIds hrecord, hkeyId]
                exact hsees
              · exact h.requestId_free hdrawn
          | false => exact .inl ⟨hsees, rfl⟩
      | claim worker leaseSeconds now => exact .inl ⟨rfl, rfl⟩
      | submitResult worker payload now => exact .inl ⟨rfl, rfl⟩
      | submitError worker payload => exact .inl ⟨rfl, rfl⟩
      | recover now => exact .inl ⟨rfl, rfl⟩
  | rescanned hperm => exact .inr ⟨rfl, _, .rescanned, rescanned_ofProject hperm⟩

end Steps

/-! ## Whole runs -/

/-- Of any run of the gateway, what one project sees is a run on the share of that
project: the other projects can neither reach its rows nor change an answer to it. -/
theorem project_sees_own_history {db₀ db : Db} {history : List Event} (id : UUID)
    (hfresh : Fresh db₀) (hkeyIds : (db₀.apiKeys.rows.map APIKey.keyId).Nodup)
    (hdrawn : (drawnIds history).Nodup) (hrun : History db₀ history db) :
    ∃ own, List.Forall₂ (SeenAs id)
        (seen (Event.isSeenBy id (keyIdsOf id db₀)) history) own ∧
      Fresh (db₀.ofProject id) ∧ History (db₀.ofProject id) own (db.ofProject id) := by
  have hfresh' : Fresh (db₀.ofProject id) := by
    refine ⟨?_, ?_, ?_⟩
    · rw [Db.ofProject, Table.rows_select, hfresh.requests_empty]
      rfl
    · rw [Db.ofProject, Table.rows_select, hfresh.usageRecords_empty]
      rfl
    · intro project hproject
      exact hfresh.counters_zero project (Table.mem_select.mp hproject).1
  have hprojected : ∃ own, List.Forall₂ (SeenAs id)
      (seen (fun older e => e.isSeenBy id (keyIdsOf id db₀) older) history) own ∧
      Run Step (db₀.ofProject id) own (db.ofProject id) := hrun.projected ?_
  · obtain ⟨own, hsame, hown⟩ := hprojected
    exact ⟨own, hsame, hfresh', hown⟩
  · intro older e s s' hsuffix hprev hstep
    have hnodup : (drawnIds (e :: older)).Nodup :=
      hdrawn.sublist (hsuffix.sublist.filterMap _)
    exact step_ofProject (tenanted_of_history hfresh.requests_empty hprev)
      (projectsKnown_of_history hfresh.requests_empty hprev) hkeyIds hnodup hstep

namespace Sample

/-- A second project beside the first, with a key of its own. -/
def secondKey : APIKey :=
  { apiKey with id := 11, projectId := 2, keyId := "Integration2" }

def twoProjects : Db :=
  { db with
    projects := ⟨[project, { project with id := 2 }], by decide⟩
    apiKeys := ⟨[apiKey, secondKey], by decide⟩ }

/-- A call with the second key. -/
def secondCall (requestId : UUID) (now : Timestamp) : ChatCall :=
  { call requestId none now with key := ⟨"test", "Integration2", "secret"⟩ }

/-- Both projects queue a request, and one worker claims them both. -/
def sharedWorker : List Op :=
  [.chat (call 100 none 0),
    .chat (secondCall 200 1),
    .claim worker 120 2,
    .claim worker 120 3,
    .submitResult worker { answer with requestId := 200 } 4]

end Sample

/-- The second project sees its call, its claim and its result. -/
theorem project_sees_own_history_sharedWorker :
    (runOps Sample.twoProjects Sample.sharedWorker).1.length = 5 ∧
      ∃ own, own.length = 3 ∧
        List.Forall₂ (SeenAs 2)
          (seen (Event.isSeenBy 2 (keyIdsOf 2 Sample.twoProjects))
            (runOps Sample.twoProjects Sample.sharedWorker).1) own ∧
        History (Sample.twoProjects.ofProject 2) own
          ((runOps Sample.twoProjects Sample.sharedWorker).2.ofProject 2) := by
  have hfresh : Fresh Sample.twoProjects := by
    refine ⟨rfl, rfl, ?_⟩
    intro project hproject period
    rcases List.mem_cons.mp hproject with rfl | hproject
    · cases period <;> rfl
    · cases List.mem_singleton.mp hproject
      cases period <;> rfl
  obtain ⟨own, hsame, -, hown⟩ := project_sees_own_history 2 hfresh (by decide) (by decide)
    (history_runOps Sample.twoProjects Sample.sharedWorker)
  refine ⟨by decide, own, ?_, hsame, hown⟩
  rw [← hsame.length_eq]
  decide

end OrbiGateway
