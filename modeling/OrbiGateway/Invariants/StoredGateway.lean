import OrbiGateway.Invariants.GatewayLedgers
import OrbiGateway.Invariants.IntegerRanges

/-!
# The gateway on its declared columns

The routes of the whole gateway, run against the declared columns.  A call whose integers the
database refuses raises an error that no route handles; its session is rolled back, and the
caller gets the answer of the last exception handler.  This happens to project creations and
to result submissions only, and to those that do not fit.
-/

namespace OrbiGateway

open Relational Transition

/-! ## Calls -/

/-- The answer of `unexpected_error_handler`. -/
def internalError : OrbiError :=
  ⟨"internal_error", "The request could not be completed.", 500⟩

/-- What the handlers of the application answer to a call that raises. -/
def Failure.response : Failure → OrbiError
  | .orbi error => error
  | _ => internalError

namespace Action

/-- The integers that an action binds to its first statement: the report of an authenticated
worker, and the limits of a project that an administrator creates. -/
def parameters (services : GatewayServices) (s : GatewayState) : Action → List IntegerCell
  | .admin authorization (.createProject payload readings) =>
      match requireAdmin services.admin authorization with
      | .ok () => (GatewayCall.createProject payload readings).parameters
      | .error _ => []
  | .serve index =>
      match s.serving[index]? with
      | some (worker, .submitResult payload now) =>
          (GatewayCall.perform (.submitResult worker payload now)).parameters
      | _ => []
  | _ => []

def ParametersInRange (services : GatewayServices) (s : GatewayState) (action : Action) :
    Prop :=
  ∀ cell ∈ action.parameters services s, cell.InRange

instance (services : GatewayServices) (s : GatewayState) (action : Action) :
    Decidable (action.ParametersInRange services s) :=
  inferInstanceAs (Decidable (∀ cell ∈ action.parameters services s, cell.InRange))

/-- The call of an administrator or of an authenticated worker fits the columns, as each has
to; the other actions always do. -/
def Fits (services : GatewayServices) (s : GatewayState) : Action → Prop
  | .admin authorization (.createProject payload readings) =>
      requireAdmin services.admin authorization = .ok () →
        (GatewayCall.createProject payload readings).Fits s.db.toDb
  | .serve index => ∀ worker payload now,
      s.serving[index]? = some (worker, .submitResult payload now) →
        (GatewayCall.perform (.submitResult worker payload now)).Fits s.db.toDb
  | _ => True

end Action

/-- The state of the gateway, every integer in the range of its column. -/
abbrev StoredState := { s : GatewayState // s.db.toDb.InColumns }

theorem inColumns_initial : GatewayState.initial.db.toDb.InColumns := by decide

def StoredState.initial : StoredState :=
  ⟨.initial, inColumns_initial⟩

/-- The answer of the application, or the refusal of the database. -/
inductive StoredAnswer
  | answered (answer : Answer)
  | refused

/-- The error that a caller reads. -/
def StoredAnswer.error : StoredAnswer → Option OrbiError
  | .answered (.failed failure) => some failure.response
  | .answered _ => none
  | .refused => some internalError

/-- An action against the declared columns.  A refused call is over, and what it has counted
in Redis stays. -/
def storedAct (services : GatewayServices) (s : StoredState) (action : Action) :
    StoredAnswer × StoredState :=
  let (answer, next) := act services s.val action
  if h : action.ParametersInRange services s.val ∧ next.db.toDb.InColumns then
    (.answered answer, ⟨next, h.2⟩)
  else
    (.refused,
      ⟨{ s.val with counters := next.counters, serving := next.serving }, s.property⟩)

inductive StoredGatewayEvent
  | acted (action : Action) (answer : StoredAnswer)
  | environment (e : GatewayEvent)

/-- An action, or a step that no call makes. -/
inductive StoredGatewayStep (services : GatewayServices) :
    StoredState → StoredGatewayEvent → StoredState → Prop
  | acted {s s' : StoredState} {action : Action} {answer : StoredAnswer}
      (hact : storedAct services s action = (answer, s')) :
      StoredGatewayStep services s (.acted action answer) s'
  | environment {s s' : StoredState} {e : GatewayEvent}
      (hquiet : ∀ action answer, e ≠ .acted action answer)
      (hstep : GatewayStep services s.val e s'.val) :
      StoredGatewayStep services s (.environment e) s'

abbrev StoredGatewayRun (services : GatewayServices) (history : List StoredGatewayEvent)
    (s : StoredState) : Prop :=
  Run (StoredGatewayStep services) .initial history s

/-! ## Sound states -/

section Sound

variable {services : GatewayServices} {history : List GatewayEvent} {s : GatewayState}

theorem CountersNonneg.administered {db db' : Db} (h : CountersNonneg db)
    (hadmin : Administers db db') : CountersNonneg db' := by
  intro project hproject period
  rcases hadmin.project_cases hproject with hold | ⟨-, -, hunused⟩
  · exact h project hold period
  · rw [hunused period]

theorem countersNonneg_of_coreRun {db₀ db : Db} {history : List (Option Event)}
    (hfresh : Fresh db₀) (hrun : CoreRun db₀ history db) : CountersNonneg db := by
  apply coreRun_invariant (I := fun _ db => CountersNonneg db) hrun
  · intro project hproject period
    rw [hfresh.counters_zero project hproject period]
  · intro history db e db' _ h hstep _
    cases hstep with
    | performed hexec => exact h.exec hexec
    | failed => exact h
    | rescanned => exact h
  · intro history db db' _ h hadmin
    exact h.administered hadmin

theorem GatewayRun.ledgersSound (hrun : GatewayRun services history s) :
    LedgersSound s.db.toDb := by
  obtain ⟨owns, -, hcore⟩ := hrun.core
  refine ⟨hrun.references.projectsKnown, hrun.references.usage,
    countersNonneg_of_coreRun fresh_emptyDb hcore, ?_⟩
  intro r hr
  exact (reservedRow_of_coreRun rfl hcore r hr).reserved_pos

end Sound

/-! ## What the routes store -/

section Columns

variable {db db' : Db}

theorem Worker.rowInRange_iff {worker : Worker} :
    RowInRange worker ↔ IntegerType.integer.Holds worker.currentQueueDepth := by
  simp only [RowInRange, HasCells.cells, List.forall_mem_cons, List.not_mem_nil,
    false_implies, implies_true, and_true, IntegerCell.InRange]

theorem Db.InColumns.of_workers (h : db.InColumns) {workers : Table Worker}
    (hworkers : ∀ worker ∈ workers.rows, RowInRange worker) :
    { db with workers := workers }.InColumns :=
  ⟨h.projects, h.apiKeys, hworkers, h.requests, h.usageRecords⟩

theorem Db.InColumns.of_apiKeys (h : db.InColumns) {apiKeys : Table APIKey}
    (hkeys : ∀ record ∈ apiKeys.rows, RowInRange record) :
    { db with apiKeys := apiKeys }.InColumns :=
  ⟨h.projects, hkeys, h.workers, h.requests, h.usageRecords⟩

theorem Db.InColumns.put_apiKey (h : db.InColumns) {record : APIKey}
    (hrecord : RowInRange record) :
    { db with apiKeys := db.apiKeys.put record }.InColumns := by
  apply h.of_apiKeys
  intro row hrow
  rcases Table.mem_put hrow with rfl | ⟨hold, -⟩
  · exact hrecord
  · exact h.apiKeys row hold

theorem Db.InColumns.flushWorker (h : db.InColumns) {loaded new : Worker}
    (hnew : new.currentQueueDepth = loaded.currentQueueDepth ∨ RowInRange new) :
    (flushWorker db loaded new).InColumns := by
  apply h.of_workers
  intro row' hrow'
  rw [Table.rows_updateWhere] at hrow'
  obtain ⟨row, hrow, rfl⟩ := List.mem_map.mp hrow'
  have hcommitted := h.workers row hrow
  split
  · rw [Worker.rowInRange_iff] at hcommitted ⊢
    change IntegerType.integer.Holds (flushColumn loaded.currentQueueDepth
      new.currentQueueDepth row.currentQueueDepth)
    rcases hnew with hsame | hin
    · rw [flushColumn_eq_iff.mpr (.inl hsame)]
      exact hcommitted
    · rw [Worker.rowInRange_iff] at hin
      rcases flushColumn_cases loaded.currentQueueDepth new.currentQueueDepth
        row.currentQueueDepth with hkept | hwritten
      · rw [hkept]
        exact hcommitted
      · rw [hwritten]
        exact hin
  · exact hcommitted

theorem inColumns_requireApiKey (h : db.InColumns) {parsed : ParsedKey}
    {readings : KeyReadings} {record : APIKey}
    (hkey : requireApiKey db parsed readings = .ok (record, db')) : db'.InColumns := by
  obtain ⟨found, hfound, -, -, hcount, rfl⟩ := requireApiKey_spec hkey
  exact h.put_apiKey (APIKey.countCall_inRange hcount (h.apiKeys found hfound))

theorem inColumns_clientRequest (h : db.InColumns) (hsound : LedgersSound db)
    {request : ClientRequest} {parsed : ParsedKey} {readings : KeyReadings}
    {reply : PublicReply}
    (hserve : (request.call parsed readings).serve db = .ok (reply, db')) :
    db'.InColumns := by
  cases clientRequest_effect hserve with
  | accepted hexec =>
      refine inColumns_exec h hsound hexec (by simp) ?_
      intro cell hcell
      cases hcell
  | listed hkey => exact inColumns_requireApiKey h hkey
  | reported hkey => exact inColumns_requireApiKey h hkey

theorem inColumns_maintain (h : db.InColumns) (hsound : LedgersSound db)
    {services : GatewayServices} {recoverNow staleNow : Timestamp} {counts : ℕ × ℕ}
    (hmaintain : maintain services db recoverNow staleNow = .ok (counts, db')) :
    db'.InColumns := by
  obtain ⟨mid, hexec, rfl⟩ := maintain_core hmaintain
  have hmid : mid.InColumns := by
    refine inColumns_exec h hsound hexec (by simp) ?_
    intro cell hcell
    cases hcell
  apply hmid.of_workers
  intro row' hrow'
  rw [Table.rows_updateWhere] at hrow'
  obtain ⟨row, hrow, rfl⟩ := List.mem_map.mp hrow'
  split
  · exact hmid.workers row hrow
  · exact hmid.workers row hrow

/-- A worker's call stays in the columns, if the report that it may carry does. -/
theorem inColumns_workerRequest (h : db.InColumns) (hsound : LedgersSound db)
    {worker : Worker} {request : WorkerRequest} {reply : WorkerReply} {leaseSeconds : ℤ}
    (hresult : ∀ payload now, request = .submitResult payload now →
      ∀ after, exec db (.submitResult worker payload now) = .ok (.resultAccepted true, after) →
        after.InColumns)
    (hrun : (request.call leaseSeconds).run db worker = .ok (reply, db')) :
    db'.InColumns := by
  cases workerRequest_effect hrun with
  | @reported payload now =>
      have hle : payload.currentQueueDepth ≤ IntegerType.integer.maxValue :=
        payload.currentQueueDepth_le.trans (by decide)
      exact h.flushWorker (.inr (Worker.rowInRange_iff.mpr
        ((IntegerType.holds_iff_of_nonneg payload.currentQueueDepth_nonneg).mpr hle)))
  | renewed => exact h.flushWorker (.inl rfl)
  | idle => exact h
  | claimed hstatus hexec =>
      refine inColumns_exec h hsound hexec (by simp) ?_
      intro cell hcell
      cases hcell
  | completed hexec => exact hresult _ _ rfl _ hexec
  | rejected hexec =>
      refine inColumns_exec h hsound hexec (by simp) ?_
      intro cell hcell
      cases hcell

theorem newAPIKey_inRange (payload : APIKeyCreateRequest) (generated : GeneratedAPIKey)
    (draw : KeyDraw) : RowInRange (newAPIKey payload generated draw) := by
  have hrpm := payload.rpmLimit_pos
  have hrpm' := payload.rpmLimit_le
  have hdaily := payload.dailyReqLimit_pos
  have hdaily' := payload.dailyReqLimit_le
  rw [APIKey.rowInRange_iff]
  simp only [newAPIKey, IntegerType.Holds, IntegerType.maxValue]
  omega

theorem APIKey.revoked_inRange {record : APIKey} (h : RowInRange record) (now : Timestamp) :
    RowInRange (record.revoked now) := by
  unfold APIKey.revoked
  split
  · exact h
  · exact h

theorem inColumns_adminCall {services : GatewayServices} {gdb gdb' : GatewayDb}
    {call : AdminCall} {reply : AdminReply} (h : gdb.toDb.InColumns)
    (hproject : ∀ payload readings, call = .createProject payload readings →
      ∀ created after, createProject gdb.named payload readings = .ok (created, after) →
        after.InColumns)
    (hroute : call.route services gdb = .ok (reply, gdb')) : gdb'.toDb.InColumns := by
  cases call with
  | createAPIKey payload draw =>
      obtain ⟨⟨response, core⟩, hcreate, hpure⟩ := Except.bind_eq_ok_iff.mp hroute
      rw [Except.pure_eq_ok_iff] at hpure
      cases hpure
      obtain ⟨generated, apiKeys, -, -, -, hinsert, -, rfl⟩ := createAPIKey_spec hcreate
      exact h.of_apiKeys ((insert_inRange_iff h.apiKeys hinsert).mpr
        (newAPIKey_inRange payload generated draw))
  | createWorkerEnrollment payload draw =>
      obtain ⟨⟨response, after⟩, -, hpure⟩ := Except.bind_eq_ok_iff.mp hroute
      rw [Except.pure_eq_ok_iff] at hpure
      cases hpure
      exact h
  | createProject payload readings =>
      obtain ⟨⟨response, after⟩, hcreate, hpure⟩ := Except.bind_eq_ok_iff.mp hroute
      rw [Except.pure_eq_ok_iff] at hpure
      cases hpure
      exact hproject payload readings rfl response after hcreate
  | createModelAlias payload =>
      obtain ⟨⟨response, core⟩, hcreate, hpure⟩ := Except.bind_eq_ok_iff.mp hroute
      rw [Except.pure_eq_ok_iff] at hpure
      cases hpure
      unfold createModelAlias at hcreate
      split at hcreate
      · cases hcreate
      · cases hcreate
        exact ⟨h.projects, h.apiKeys, h.workers, h.requests, h.usageRecords⟩
  | revokeAPIKey apiKeyId now =>
      obtain ⟨core, hrevoke, hpure⟩ := Except.bind_eq_ok_iff.mp hroute
      rw [Except.pure_eq_ok_iff] at hpure
      cases hpure
      unfold revokeAPIKey at hrevoke
      split at hrevoke
      · cases hrevoke
      next record hfind =>
        cases hrevoke
        exact h.put_apiKey (APIKey.revoked_inRange
          (h.apiKeys record (Table.mem_of_find hfind)) now)
  | revokeWorker workerId now =>
      obtain ⟨core, hrevoke, hpure⟩ := Except.bind_eq_ok_iff.mp hroute
      rw [Except.pure_eq_ok_iff] at hpure
      cases hpure
      unfold revokeWorker at hrevoke
      split at hrevoke
      · cases hrevoke
      · cases hrevoke
        exact h.flushWorker (.inl rfl)

end Columns

/-! ## Which actions are refused -/

section Actions

variable {services : GatewayServices} {s s' : GatewayState} {action : Action}
  {answer : Answer}

/-- An action that fits leaves every integer in its column. -/
theorem inColumns_act (h : s.db.toDb.InColumns) (hsound : LedgersSound s.db.toDb)
    (hfits : action.Fits services s) (hact : act services s action = (answer, s')) :
    s'.db.toDb.InColumns := by
  have hnamed : s.db.named.InColumns := h
  cases (GatewayStep.acted hact).change with
  | @administered authorization call reply db hadmin hroute =>
      refine inColumns_adminCall h ?_ hroute
      rintro payload readings rfl created after hcreate
      have hstores := (GatewayCall.storesInRange_createProject_iff hnamed).mpr (hfits hadmin)
      exact hstores.rows _ _ (Except.bind_eq_ok_iff.mpr ⟨_, hcreate, rfl⟩)
  | replied hparsed hserve => exact inColumns_clientRequest h hsound hserve
  | @registered payload readings response after hregister =>
      obtain ⟨-, -, -, workers, -, -, -, -, hinsert, rfl⟩ := registerWorker_spec hregister
      apply Db.InColumns.of_workers h
      refine (insert_inRange_iff h.workers hinsert).mpr (Worker.rowInRange_iff.mpr ?_)
      change IntegerType.integer.Holds 0
      decide
  | @served index worker request reply db hentry hrun =>
      refine inColumns_workerRequest h hsound ?_ hrun
      rintro payload now rfl after hexec
      have hstores := (GatewayCall.storesInRange_submitResult_iff hnamed hsound).mpr
        (hfits worker payload now hentry)
      exact hstores.rows _ _ (GatewayCall.run_perform_eq_ok_iff.mpr ⟨_, after, hexec, rfl, rfl⟩)
  | maintained hmaintain => exact inColumns_maintain h hsound hmaintain
  | waits => exact h
  | completed => exact h
  | loaded => exact h
  | failed => exact h
  | ignored => exact h

theorem Action.parametersInRange_of_fits (hfits : action.Fits services s) :
    action.ParametersInRange services s := by
  unfold ParametersInRange parameters
  split
  next authorization payload readings =>
    split
    next hadmin =>
      exact GatewayCall.parametersInRange_createProject_iff.mpr (hfits hadmin)
    · simp
  next index =>
    split
    next worker payload now hentry =>
      obtain ⟨hinput, houtput, -⟩ := hfits worker payload now hentry
      exact GatewayCall.parametersInRange_submitResult_iff.mpr ⟨hinput, houtput⟩
    · simp
  · simp

theorem serveWorker_submitResult {index : ℕ} {worker : Worker} {payload : WorkerResultRequest}
    {now : Timestamp} {db : Db}
    (hentry : s.serving[index]? = some (worker, .submitResult payload now))
    (hexec : exec s.db.toDb (.submitResult worker payload now) =
      .ok (.resultAccepted true, db)) :
    (serveWorker services s index).2.db.toDb = db := by
  obtain ⟨⟨accepted, after⟩, hcommit, hpure⟩ := Except.bind_eq_ok_iff.mp hexec
  rw [Except.pure_eq_ok_iff] at hpure
  cases hpure
  have hrun : ((WorkerRequest.submitResult payload now).call services.workerLeaseSeconds).run
      s.db.toDb worker = .ok (.resultAccepted, db) :=
    Except.bind_eq_ok_iff.mpr ⟨db, Except.bind_eq_ok_iff.mpr ⟨_, hcommit, rfl⟩, rfl⟩
  simp only [serveWorker, hentry, hrun]

theorem Action.fits_of_inRange (h : s.db.toDb.InColumns) (hsound : LedgersSound s.db.toDb)
    (hparameters : action.ParametersInRange services s)
    (hafter : (act services s action).2.db.toDb.InColumns) : action.Fits services s := by
  unfold Fits
  split
  next authorization payload readings =>
    intro hadmin
    simp only [ParametersInRange, parameters, hadmin] at hparameters
    exact GatewayCall.parametersInRange_createProject_iff.mp hparameters
  next index =>
    intro worker payload now hentry
    simp only [ParametersInRange, parameters, hentry] at hparameters
    have hnamed : s.db.named.InColumns := h
    refine (GatewayCall.storesInRange_submitResult_iff hnamed hsound).mp ⟨hparameters, ?_⟩
    intro reply next hrun
    obtain ⟨reply', mid, hexec, -, rfl⟩ := GatewayCall.run_perform_eq_ok_iff.mp hrun
    rcases exec_submitResult_cases hexec with ⟨-, rfl, -⟩ | ⟨-, -, -, rfl, -⟩
    · exact h
    · have hserved : (serveWorker services s index).2.db.toDb = mid :=
        serveWorker_submitResult hentry hexec
      rw [← hserved]
      exact hafter
  · trivial

/-- A refused action is one of a route that writes nothing to Redis. -/
theorem act_of_not_fits (hfits : ¬action.Fits services s) :
    (act services s action).2.counters = s.counters ∧
      (act services s action).2.serving.Sublist s.serving := by
  cases action with
  | admin authorization call =>
      simp only [act]
      split
      · exact ⟨rfl, List.Sublist.refl _⟩
      · exact ⟨rfl, List.Sublist.refl _⟩
  | serve index =>
      simp only [act, serveWorker]
      split
      · exact ⟨rfl, List.Sublist.refl _⟩
      · split
        · exact ⟨rfl, List.eraseIdx_sublist _ _⟩
        · exact ⟨rfl, List.eraseIdx_sublist _ _⟩
  | _ => exact absurd trivial hfits

end Actions

section Runs

variable {services : GatewayServices} {s s' : StoredState} {action : Action}
  {answer : StoredAnswer}

theorem storedAct_cases (hsound : LedgersSound s.val.db.toDb)
    (hact : storedAct services s action = (answer, s')) :
    (action.Fits services s.val ∧
        ∃ served, answer = .answered served ∧ act services s.val action = (served, s'.val)) ∨
      (¬action.Fits services s.val ∧ answer = .refused ∧
        s'.val = { s.val with serving := (act services s.val action).2.serving }) := by
  unfold storedAct at hact
  dsimp only at hact
  split at hact
  next hstores =>
    cases hact
    exact .inl ⟨Action.fits_of_inRange s.property hsound hstores.1 hstores.2, _, rfl, rfl⟩
  next hstores =>
    cases hact
    have hnot : ¬action.Fits services s.val := fun hfits => hstores
      ⟨Action.parametersInRange_of_fits hfits, inColumns_act s.property hsound hfits rfl⟩
    refine .inr ⟨hnot, rfl, ?_⟩
    rw [(act_of_not_fits hnot).1]

/-- What is reached on the declared columns is reached on unbounded integers. -/
theorem StoredGatewayRun.gatewayRun {history : List StoredGatewayEvent}
    (hrun : StoredGatewayRun services history s) :
    ∃ events, GatewayRun services events s.val := by
  apply Run.invariant (I := fun s : StoredState => ∃ events, GatewayRun services events s.val)
    hrun
  · exact ⟨[], .start⟩
  · rintro s e s' ⟨events, hprev⟩ hstep
    cases hstep with
    | acted hact =>
        rcases storedAct_cases hprev.ledgersSound hact with
          ⟨-, served, -, hserved⟩ | ⟨hnot, -, hstate⟩
        · exact ⟨_, hprev.next (.acted hserved)⟩
        · refine ⟨.abandoned :: events, ?_⟩
          rw [hstate]
          exact hprev.next (.abandoned (act_of_not_fits hnot).2 (List.Sublist.refl _))
    | environment _ hstep => exact ⟨_, hprev.next hstep⟩

/-- The database refuses exactly the actions that do not fit. -/
theorem StoredGatewayRun.refused_iff {history : List StoredGatewayEvent}
    (hrun : StoredGatewayRun services history s)
    (hact : storedAct services s action = (answer, s')) :
    answer = .refused ↔ ¬action.Fits services s.val := by
  obtain ⟨events, hreached⟩ := hrun.gatewayRun
  rcases storedAct_cases hreached.ledgersSound hact with
    ⟨hfits, served, rfl, -⟩ | ⟨hnot, rfl, -⟩
  · exact iff_of_false nofun (not_not.mpr hfits)
  · exact iff_of_true rfl hnot

end Runs

/-! ## Running actions -/

end OrbiGateway
