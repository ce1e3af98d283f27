import OrbiGateway.Library.RowLocks
import OrbiGateway.System.Bookings

/-!
# Concurrent chat calls

A chat call as a transaction that is cut at its statements.  It locks its key row in
`require_api_key`, looks for an existing request and for the alias, reserves on the
locked project row, inserts, and publishes its versions of these rows on commit;
then it polls the committed row.  Revocations of keys lock the same rows, and the
operations of workers and of recovery commit in between.
-/

namespace OrbiGateway

open Relational Transition

/-! ## Transactions -/

/-- A call that has locked its key row, with its own version of the row. -/
structure ChatSession where
  call : ChatCall
  apiKey : APIKey

/-- How far a transaction has come. -/
inductive ChatPhase
  | idle
  | authenticated (session : ChatSession)
  | answered (session : ChatSession) (reply : ChatReply)
  | cleared (session : ChatSession) (modelAlias : ModelAlias)
  | reserved (session : ChatSession) (modelAlias : ModelAlias) (project : Project)
      (budgetDay budgetMonth : Date)
  | inserted (session : ChatSession) (project : Project) (record : OrbiRequest)
  | waiting (session : ChatSession) (requestId : UUID)
  | revoking (record : APIKey)
  | ended

namespace ChatPhase

/-- The key row that the transaction has locked. -/
def apiKeyLock : ChatPhase → Option UUID
  | .authenticated session => some session.apiKey.id
  | .answered session _ => some session.apiKey.id
  | .cleared session _ => some session.apiKey.id
  | .reserved session _ _ _ _ => some session.apiKey.id
  | .inserted session _ _ => some session.apiKey.id
  | .revoking record => some record.id
  | _ => none

/-- The project row that the transaction has locked. -/
def projectLock : ChatPhase → Option UUID
  | .reserved _ _ project _ _ => some project.id
  | .inserted _ project _ => some project.id
  | _ => none

/-- The row that the transaction has inserted and not committed. -/
def pending : ChatPhase → Option OrbiRequest
  | .inserted _ _ record => some record
  | _ => none

end ChatPhase

/-- The two rows cannot both be in the table: they share the id, or an API key and
an idempotency key. -/
def OrbiRequest.conflictsWith (request other : OrbiRequest) : Bool :=
  request.id == other.id ||
    match other.idempotencyKey with
    | some key => request.hasPair other.apiKeyId key
    | none => false

/-- `revoke_api_key` on the locked row. -/
def APIKey.revoked (record : APIKey) (now : Timestamp) : APIKey :=
  match record.revokedAt with
  | some _ => record
  | none => { record with revokedAt := some now }

theorem APIKey.lookupColumns_revoked (record : APIKey) (now : Timestamp) :
    (record.revoked now).lookupColumns = record.lookupColumns := by
  unfold APIKey.revoked
  split
  · rfl
  · rfl

theorem APIKey.id_revoked (record : APIKey) (now : Timestamp) :
    (record.revoked now).id = record.id :=
  congrArg Prod.fst (record.lookupColumns_revoked now)

def Op.isChat : Op → Bool
  | .chat _ => true
  | _ => false

theorem newRows_of_not_isChat {db db' : Db} {op : Op} {reply : Reply}
    (hother : op.isChat = false) (h : exec db op = .ok (reply, db')) :
    reply.newRows = [] := by
  rw [List.eq_nil_iff_forall_not_mem]
  intro record hrecord
  obtain ⟨call, project, project', rfl, -⟩ := exec_newRow h hrecord
  cases hother

/-- The committed rows and the transactions. -/
structure ChatState (τ : Type*) where
  db : Db
  calls : τ → ChatPhase

/-- An event of a transaction, or of the rest of the gateway.  What a call answers
is recorded with the pair that it carries. -/
inductive ChatEvent (τ : Type*)
  | authenticated (t : τ) (call : ChatCall)
  | lookedUp (t : τ)
  | reserved (t : τ)
  | inserted (t : τ)
  | accepted (t : τ) (record : OrbiRequest)
  | answered (t : τ) (apiKeyId : UUID) (idempotencyKey : Option String)
      (reply : ChatReply)
  | completed (t : τ) (apiKeyId : UUID) (idempotencyKey : Option String)
      (requestId : UUID) (result : Json)
  | stopped (t : τ)
  | keyLocked (t : τ) (id : UUID)
  | keyRevoked (t : τ) (id : UUID)
  | performed (op : Op)
  | rescanned

namespace ChatEvent

variable {τ : Type*}

/-- The transaction that makes the step. -/
def caller : ChatEvent τ → Option τ
  | .authenticated t _ => some t
  | .lookedUp t => some t
  | .reserved t => some t
  | .inserted t => some t
  | .accepted t _ => some t
  | .answered t _ _ _ => some t
  | .completed t _ _ _ _ => some t
  | .stopped t => some t
  | .keyLocked t _ => some t
  | .keyRevoked t _ => some t
  | .performed _ => none
  | .rescanned => none

/-- The rows that the step commits for the first time. -/
def newRows : ChatEvent τ → List OrbiRequest
  | .accepted _ record => [record]
  | _ => []

theorem newRows_cases (e : ChatEvent τ) :
    e.newRows = [] ∨ ∃ record, e.newRows = [record] := by
  cases e with
  | accepted t record => exact Or.inr ⟨record, rfl⟩
  | _ => exact Or.inl rfl

end ChatEvent

/-! ## Steps -/

section Steps

variable {τ : Type*}

def ChatState.start (db : Db) : ChatState τ where
  db := db
  calls _ := .idle

variable [DecidableEq τ]

/-- Transaction `t` moves on and leaves the committed rows alone. -/
def ChatState.move (s : ChatState τ) (t : τ) (phase : ChatPhase) : ChatState τ :=
  { s with calls := Function.update s.calls t phase }

/-- One step of a chat call, of a key revocation or of the rest of the gateway.  A
failure anywhere stops the call and rolls back what it has not committed. -/
inductive ChatStep : ChatState τ → ChatEvent τ → ChatState τ → Prop
  | authenticated {s : ChatState τ} {t : τ} {call : ChatCall} {apiKey : APIKey} {db : Db}
      (hidle : s.calls t = .idle)
      (hkey : requireApiKey s.db call.key call.keyReadings = .ok (apiKey, db))
      (hfree : ∀ u, (s.calls u).apiKeyLock ≠ some apiKey.id) :
      ChatStep s (.authenticated t call) (s.move t (.authenticated ⟨call, apiKey⟩))
  | found {s : ChatState τ} {t : τ} {session : ChatSession} {existing : OrbiRequest}
      (hphase : s.calls t = .authenticated session)
      (hscope : requireApiScope "chat" session.apiKey = .ok ())
      (hcheck : checkChatCall session.call = .ok ())
      (hfind : findExisting s.db session.apiKey.id session.call.idempotencyKey =
        some existing) :
      ChatStep s (.lookedUp t) (s.move t (.answered session (existingReply existing)))
  | cleared {s : ChatState τ} {t : τ} {session : ChatSession} {modelAlias : ModelAlias}
      (hphase : s.calls t = .authenticated session)
      (hscope : requireApiScope "chat" session.apiKey = .ok ())
      (hcheck : checkChatCall session.call = .ok ())
      (hnone : findExisting s.db session.apiKey.id session.call.idempotencyKey = none)
      (halias : findAlias s.db session.call.payload.model = some modelAlias) :
      ChatStep s (.lookedUp t) (s.move t (.cleared session modelAlias))
  | reserved {s : ChatState τ} {t : τ} {session : ChatSession} {modelAlias : ModelAlias}
      {project : Project} {budgetDay budgetMonth : Date} {db : Db}
      (hphase : s.calls t = .cleared session modelAlias)
      (hreserve : reserveForChat s.db session.apiKey.projectId
        (reservedTokensOf session.call.payload) session.call.readings.today =
          .ok ((project, budgetDay, budgetMonth), db))
      (hfree : ∀ u, (s.calls u).projectLock ≠ some project.id) :
      ChatStep s (.reserved t)
        (s.move t (.reserved session modelAlias project budgetDay budgetMonth))
  | inserted {s : ChatState τ} {t : τ} {session : ChatSession} {modelAlias : ModelAlias}
      {project : Project} {budgetDay budgetMonth : Date} {record : OrbiRequest} {db : Db}
      (hphase : s.calls t = .reserved session modelAlias project budgetDay budgetMonth)
      (hrecord : record = newRequest session.call session.apiKey modelAlias project
        budgetDay budgetMonth)
      -- the insert waits for a transaction whose row it may conflict with
      (hwait : ∀ u other, (s.calls u).pending = some other →
        other.conflictsWith record = false)
      (hinsert : insertRequest s.db record = .ok db) :
      ChatStep s (.inserted t) (s.move t (.inserted session project record))
  | accepted {s : ChatState τ} {t : τ} {session : ChatSession} {project : Project}
      {record : OrbiRequest} {requests : Table OrbiRequest}
      (hphase : s.calls t = .inserted session project record)
      (hinsert : s.db.requests.insert record = some requests) :
      ChatStep s (.accepted t record)
        { db := { s.db with
            apiKeys := s.db.apiKeys.put session.apiKey
            projects := s.db.projects.put project
            requests := requests }
          calls := Function.update s.calls t (.waiting session record.id) }
  | answered {s : ChatState τ} {t : τ} {session : ChatSession} {reply : ChatReply}
      (hphase : s.calls t = .answered session reply) :
      ChatStep s
        (.answered t session.apiKey.id session.call.idempotencyKey reply)
        { db := { s.db with apiKeys := s.db.apiKeys.put session.apiKey }
          calls := Function.update s.calls t .ended }
  | completed {s : ChatState τ} {t : τ} {session : ChatSession} {requestId : UUID}
      {result : Json} (hphase : s.calls t = .waiting session requestId)
      (hpoll : pollRequest s.db requestId = .ok (some result)) :
      ChatStep s (.completed t session.apiKey.id session.call.idempotencyKey requestId
        result) (s.move t .ended)
  | stopped {s : ChatState τ} {t : τ} : ChatStep s (.stopped t) (s.move t .ended)
  | keyLocked {s : ChatState τ} {t : τ} {id : UUID} {record : APIKey}
      (hidle : s.calls t = .idle) (hfind : s.db.apiKeys.find id = some record)
      (hfree : ∀ u, (s.calls u).apiKeyLock ≠ some record.id) :
      ChatStep s (.keyLocked t id) (s.move t (.revoking record))
  | keyRevoked {s : ChatState τ} {t : τ} {record : APIKey} {now : Timestamp}
      (hphase : s.calls t = .revoking record) :
      ChatStep s (.keyRevoked t record.id)
        { db := { s.db with apiKeys := s.db.apiKeys.put (record.revoked now) }
          calls := Function.update s.calls t .ended }
  | performed {s : ChatState τ} {op : Op} {reply : Reply} {db : Db}
      (hother : op.isChat = false) (hexec : exec s.db op = .ok (reply, db))
      -- it waits for the rows that a transaction has locked
      (hkeys : ∀ u id, (s.calls u).apiKeyLock = some id →
        db.apiKeys.find id = s.db.apiKeys.find id)
      (hprojects : ∀ u id, (s.calls u).projectLock = some id →
        db.projects.find id = s.db.projects.find id) :
      ChatStep s (.performed op) { s with db := db }
  | rescanned {s : ChatState τ} {requests : Table OrbiRequest}
      (hperm : requests.rows.Perm s.db.requests.rows) :
      ChatStep s .rescanned { s with db := { s.db with requests := requests } }

/-- A run of chat calls, revocations and other operations, interleaved in any way. -/
abbrev ChatRun (db : Db) (history : List (ChatEvent τ)) (s : ChatState τ) : Prop :=
  Run ChatStep (.start db) history s

/-! ## What a step leaves alone -/

section Frames

variable {s s' : ChatState τ} {e : ChatEvent τ}

theorem ChatStep.calls_of_ne (h : ChatStep s e s') {u : τ} (hu : e.caller ≠ some u) :
    s'.calls u = s.calls u := by
  have hmove : ∀ {t : τ} {phase : ChatPhase}, some t ≠ some u →
      Function.update s.calls t phase u = s.calls u := by
    intro t phase htu
    apply Function.update_of_ne
    rintro rfl
    exact htu rfl
  cases h with
  | performed hother hexec hkeys hprojects => rfl
  | rescanned hperm => rfl
  | _ => exact hmove hu

/-- Only an accepted call, and the operations of others, write projects or requests. -/
theorem ChatStep.unchanged (h : ChatStep s e s') (hcaller : e.caller.isSome = true)
    (hnone : e.newRows = []) :
    s'.db.projects = s.db.projects ∧ s'.db.requests = s.db.requests := by
  cases h with
  | accepted hphase hinsert => cases hnone
  | performed hother hexec hkeys hprojects => cases hcaller
  | rescanned hperm => cases hcaller
  | _ => exact ⟨rfl, rfl⟩

theorem ChatStep.apiKeyLock_cases (h : ChatStep s e s') {t : τ} {id : UUID}
    (hlock : (s'.calls t).apiKeyLock = some id) :
    (s.calls t).apiKeyLock = some id ∨
      (e.caller = some t ∧ ∀ u, (s.calls u).apiKeyLock ≠ some id) := by
  by_cases hcaller : e.caller = some t
  · cases h with
    | authenticated hidle hkey hfree =>
        cases hcaller
        simp only [ChatState.move, Function.update_self] at hlock
        cases hlock
        exact Or.inr ⟨rfl, hfree⟩
    | keyLocked hidle hfind hfree =>
        cases hcaller
        simp only [ChatState.move, Function.update_self] at hlock
        cases hlock
        exact Or.inr ⟨rfl, hfree⟩
    | found hphase | cleared hphase | reserved hphase | inserted hphase =>
        cases hcaller
        simp only [ChatState.move, Function.update_self] at hlock
        exact Or.inl (by rw [hphase]; exact hlock)
    | _ =>
        cases hcaller <;>
          simp [ChatState.move, ChatPhase.apiKeyLock] at hlock
  · rw [h.calls_of_ne hcaller] at hlock
    exact Or.inl hlock

/-- No two transactions hold the lock of one key row. -/
theorem keysExclusive_of_run {db : Db} {history : List (ChatEvent τ)}
    (hrun : ChatRun db history s) :
    ∀ t u id, (s.calls t).apiKeyLock = some id → (s.calls u).apiKeyLock = some id →
      t = u := by
  apply Run.invariant (I := fun s : ChatState τ => ∀ t u id,
    (s.calls t).apiKeyLock = some id → (s.calls u).apiKeyLock = some id → t = u) hrun
  · intro t u id hlock
    cases hlock
  · intro s e s' h hstep
    exact RowLocks.Exclusive.step h hstep.apiKeyLock_cases

end Frames

end Steps

end OrbiGateway
