import OrbiGateway.Concurrency.ChatTransactions

/-!
# Idempotent acceptance

Chat calls with the same API key and idempotency key queue one request between them,
in any interleaving.  A call that has passed the lookup holds the lock of its key row
until it ends, so no other call commits a row with its pair in the meantime; and what
a call answers is read off a row that carries exactly its pair.
-/

namespace OrbiGateway

open Relational Transition

/-! ## Versions of a row -/

/-- `r'` is the same request as `r`, at the same time or later. -/
structure LaterVersion (r r' : OrbiRequest) : Prop where
  id_eq : r'.id = r.id
  apiKeyId_eq : r'.apiKeyId = r.apiKeyId
  idempotencyKey_eq : r'.idempotencyKey = r.idempotencyKey
  completed : r.status = .completed → r' = r

namespace LaterVersion

variable {r r' : OrbiRequest}

theorem refl (r : OrbiRequest) : LaterVersion r r :=
  ⟨rfl, rfl, rfl, fun _ => rfl⟩

theorem hasPair_eq (h : LaterVersion r r') (apiKeyId : UUID) (key : String) :
    r'.hasPair apiKeyId key = r.hasPair apiKeyId key := by
  simp only [OrbiRequest.hasPair, h.apiKeyId_eq, h.idempotencyKey_eq]

theorem of_rowStep {op : Op} {reply : Reply} (h : RowStep r op reply r') :
    LaterVersion r r' := by
  obtain ⟨hid, -, hkey, hidempotency, -⟩ := h.fixed
  refine ⟨hid, hkey, hidempotency, ?_⟩
  intro hcompleted
  rcases h.kept_or_isOpen with hkept | hopen
  · exact hkept
  · simp [OrbiRequest.isOpen, OrbiRequest.isLive, liveStatuses, hcompleted] at hopen

end LaterVersion

theorem hasPair_iff {r : OrbiRequest} {apiKeyId : UUID} {key : String} :
    r.hasPair apiKeyId key = true ↔
      r.apiKeyId = apiKeyId ∧ r.idempotencyKey = some key := by
  simp [OrbiRequest.hasPair]

theorem findExisting_eq_none_iff {db : Db} {apiKeyId : UUID}
    {idempotencyKey : Option String} :
    findExisting db apiKeyId idempotencyKey = none ↔
      ∀ key, idempotencyKey = some key →
        ∀ r ∈ db.requests.rows, r.hasPair apiKeyId key = false := by
  cases idempotencyKey with
  | none =>
      constructor
      · intro _ key hkey
        cases hkey
      · intro _
        rfl
  | some key =>
      simp [findExisting]

theorem findExisting_spec {db : Db} {apiKeyId : UUID} {idempotencyKey : Option String}
    {existing : OrbiRequest}
    (h : findExisting db apiKeyId idempotencyKey = some existing) :
    ∃ key, idempotencyKey = some key ∧ existing ∈ db.requests.rows ∧
      existing.hasPair apiKeyId key = true := by
  cases idempotencyKey with
  | none => cases h
  | some key =>
      have hpair := List.find?_some h
      exact ⟨key, rfl, List.mem_of_find?_eq_some h, hpair⟩

/-! ## Rows under a step -/

section Rows

variable {τ : Type*} [DecidableEq τ] {s s' : ChatState τ} {e : ChatEvent τ}

theorem ChatStep.later (h : ChatStep s e s') :
    ∀ r ∈ s.db.requests.rows, ∃ r' ∈ s'.db.requests.rows, LaterVersion r r' := by
  intro r hr
  cases h with
  | accepted hphase hinsert =>
      exact ⟨r, (Table.mem_of_insert hinsert).mpr (Or.inl hr), .refl r⟩
  | @performed op reply db hother hexec hkeys hprojects =>
      refine ⟨r.after op reply, ?_, .of_rowStep (exec_rowStep hexec hr)⟩
      rw [exec_requests hexec]
      exact List.mem_append_left _ (List.mem_map_of_mem hr)
  | rescanned hperm => exact ⟨r, hperm.mem_iff.mpr hr, .refl r⟩
  | _ => exact ⟨r, hr, .refl r⟩

theorem ChatStep.earlier (h : ChatStep s e s') :
    ∀ r' ∈ s'.db.requests.rows,
      r' ∈ e.newRows ∨ ∃ r ∈ s.db.requests.rows, LaterVersion r r' := by
  intro r' hr'
  cases h with
  | accepted hphase hinsert =>
      rcases (Table.mem_of_insert hinsert).mp hr' with hold | rfl
      · exact Or.inr ⟨r', hold, .refl r'⟩
      · exact Or.inl List.mem_cons_self
  | @performed op reply db hother hexec hkeys hprojects =>
      rw [exec_requests hexec, List.mem_append, List.mem_map] at hr'
      rcases hr' with ⟨r, hr, rfl⟩ | hnew
      · exact Or.inr ⟨r, hr, .of_rowStep (exec_rowStep hexec hr)⟩
      · obtain ⟨call, project, project', rfl, -⟩ := exec_newRow hexec hnew
        cases hother
  | rescanned hperm => exact Or.inr ⟨r', hperm.mem_iff.mp hr', .refl r'⟩
  | _ => exact Or.inr ⟨r', hr', .refl r'⟩

end Rows

/-! ## What a call answers -/

/-- The answer was read off this row. -/
def ChatReply.Reads (row : OrbiRequest) : ChatReply → Prop
  | .result answer => row.status = .completed ∧ row.result = some answer
  | .existing id _ => row.id = id
  | .queued _ => False

theorem existingReply_reads (existing : OrbiRequest) :
    (existingReply existing).Reads existing := by
  unfold existingReply
  split
  next result hstatus hresult => exact ⟨hstatus, hresult⟩
  · rfl

theorem ChatReply.Reads.later {r r' : OrbiRequest} {reply : ChatReply}
    (h : reply.Reads r) (hlater : LaterVersion r r') : reply.Reads r' := by
  cases reply with
  | result answer =>
      rw [hlater.completed h.1]
      exact h
  | existing id status => exact hlater.id_eq.trans h
  | queued record => exact h

/-- A poll that ends with a result has read it off the completed row. -/
theorem pollRequest_spec {db : Db} {requestId : UUID} {result : Json}
    (h : pollRequest db requestId = .ok (some result)) :
    ∃ row ∈ db.requests.rows, row.id = requestId ∧ row.status = .completed ∧
      row.result = some result := by
  unfold pollRequest at h
  split at h
  · cases h
  next current hfind =>
    refine ⟨current, Table.mem_of_find hfind, Table.key_of_find hfind, ?_⟩
    split at h
    next answer hstatus hresult =>
      cases h
      exact ⟨hstatus, hresult⟩
    · cases h
    · cases h
    · cases h
    · cases h

/-- The reply was read off a committed row with exactly this pair. -/
def Answers (db : Db) (apiKeyId : UUID) (idempotencyKey : Option String)
    (reply : ChatReply) : Prop :=
  ∃ key, idempotencyKey = some key ∧
    ∃ row ∈ db.requests.rows, row.hasPair apiKeyId key = true ∧ reply.Reads row

/-- The result is that of the completed request with this id and pair. -/
def CompletedWith (db : Db) (apiKeyId : UUID) (idempotencyKey : Option String)
    (requestId : UUID) (result : Json) : Prop :=
  ∃ row ∈ db.requests.rows, row.id = requestId ∧ row.apiKeyId = apiKeyId ∧
    row.idempotencyKey = idempotencyKey ∧ row.status = .completed ∧
    row.result = some result

/-! ## The invariant -/

section Invariant

variable {τ : Type*}

/-- The call has committed the row that it waits for. -/
def AcceptedBy (history : List (ChatEvent τ)) (t : τ) (apiKeyId : UUID)
    (idempotencyKey : Option String) (requestId : UUID) : Prop :=
  ∃ record, .accepted t record ∈ history ∧ record.id = requestId ∧
    record.apiKeyId = apiKeyId ∧ record.idempotencyKey = idempotencyKey

/-- What a transaction relies on: the answer it is about to give, that no committed
row has its pair, or the row it waits for. -/
def PhaseOk (history : List (ChatEvent τ)) (db : Db) (t : τ) : ChatPhase → Prop
  | .answered session reply =>
      Answers db session.apiKey.id session.call.idempotencyKey reply
  | .cleared session _ =>
      findExisting db session.apiKey.id session.call.idempotencyKey = none
  | .reserved session _ _ _ _ =>
      findExisting db session.apiKey.id session.call.idempotencyKey = none
  | .inserted session _ record =>
      findExisting db session.apiKey.id session.call.idempotencyKey = none ∧
        record.apiKeyId = session.apiKey.id ∧
        record.idempotencyKey = session.call.idempotencyKey
  | .waiting session requestId =>
      AcceptedBy history t session.apiKey.id session.call.idempotencyKey requestId
  | _ => True

/-- What stays true of an event: the accepted row is there, and the answers are those
of the committed rows. -/
def EventOk (history : List (ChatEvent τ)) (db : Db) : ChatEvent τ → Prop
  | .accepted _ record => ∃ row ∈ db.requests.rows, row.id = record.id ∧
      row.apiKeyId = record.apiKeyId ∧ row.idempotencyKey = record.idempotencyKey
  | .answered _ apiKeyId idempotencyKey reply =>
      Answers db apiKeyId idempotencyKey reply
  | .completed t apiKeyId idempotencyKey requestId result =>
      AcceptedBy history t apiKeyId idempotencyKey requestId ∧
        CompletedWith db apiKeyId idempotencyKey requestId result
  | _ => True

/-- The event commits a row with this pair. -/
def ChatEvent.accepts (apiKeyId : UUID) (key : String) (e : ChatEvent τ) : Bool :=
  e.newRows.any fun record => record.hasPair apiKeyId key

structure ChatsConsistent (history : List (ChatEvent τ)) (s : ChatState τ) : Prop where
  keys_exclusive : ∀ t u id, (s.calls t).apiKeyLock = some id →
    (s.calls u).apiKeyLock = some id → t = u
  pairs_unique : ∀ r ∈ s.db.requests.rows, ∀ r' ∈ s.db.requests.rows,
    ∀ apiKeyId key, r.hasPair apiKeyId key = true → r'.hasPair apiKeyId key = true →
      r = r'
  phases : ∀ t, PhaseOk history s.db t (s.calls t)
  events : ∀ e ∈ history, EventOk history s.db e
  once : ∀ apiKeyId key, history.countP (ChatEvent.accepts apiKeyId key) ≤ 1
  ids_nodup : ((history.flatMap ChatEvent.newRows).map OrbiRequest.id).Nodup

/-! ## What a step keeps -/

section Kept

variable {history : List (ChatEvent τ)} {db db' : Db} {e : ChatEvent τ} {t : τ}
  {apiKeyId requestId : UUID} {idempotencyKey : Option String}

theorem AcceptedBy.cons
    (h : AcceptedBy history t apiKeyId idempotencyKey requestId) :
    AcceptedBy (e :: history) t apiKeyId idempotencyKey requestId := by
  obtain ⟨record, hmem, hrecord⟩ := h
  exact ⟨record, List.mem_cons_of_mem _ hmem, hrecord⟩

theorem Answers.later {reply : ChatReply}
    (h : Answers db apiKeyId idempotencyKey reply)
    (hlater : ∀ r ∈ db.requests.rows, ∃ r' ∈ db'.requests.rows, LaterVersion r r') :
    Answers db' apiKeyId idempotencyKey reply := by
  obtain ⟨key, hkey, row, hrow, hpair, hreads⟩ := h
  obtain ⟨row', hrow', hversion⟩ := hlater row hrow
  refine ⟨key, hkey, row', hrow', ?_, hreads.later hversion⟩
  rw [hversion.hasPair_eq, hpair]

theorem CompletedWith.later {result : Json}
    (h : CompletedWith db apiKeyId idempotencyKey requestId result)
    (hlater : ∀ r ∈ db.requests.rows, ∃ r' ∈ db'.requests.rows, LaterVersion r r') :
    CompletedWith db' apiKeyId idempotencyKey requestId result := by
  obtain ⟨row, hrow, hid, hkey, hidempotency, hstatus, hresult⟩ := h
  obtain ⟨row', hrow', hversion⟩ := hlater row hrow
  rw [hversion.completed hstatus] at hrow'
  exact ⟨row, hrow', hid, hkey, hidempotency, hstatus, hresult⟩

/-- The lookup still finds nothing if the new rows have other API keys. -/
theorem findExisting_none_of_earlier
    (h : findExisting db apiKeyId idempotencyKey = none)
    (hearlier : ∀ r' ∈ db'.requests.rows,
      r'.apiKeyId ≠ apiKeyId ∨ ∃ r ∈ db.requests.rows, LaterVersion r r') :
    findExisting db' apiKeyId idempotencyKey = none := by
  rw [findExisting_eq_none_iff] at h ⊢
  intro key hkey r' hr'
  rcases hearlier r' hr' with hother | ⟨r, hr, hversion⟩
  · by_contra hpair
    have hmine := (hasPair_iff.mp (by simpa using hpair)).1
    exact hother hmine
  · rw [hversion.hasPair_eq]
    exact h key hkey r hr

theorem PhaseOk.later {phase : ChatPhase} (h : PhaseOk history db t phase)
    (hlater : ∀ r ∈ db.requests.rows, ∃ r' ∈ db'.requests.rows, LaterVersion r r')
    (hearlier : ∀ id, phase.apiKeyLock = some id → ∀ r' ∈ db'.requests.rows,
      r'.apiKeyId ≠ id ∨ ∃ r ∈ db.requests.rows, LaterVersion r r') :
    PhaseOk (e :: history) db' t phase := by
  cases phase with
  | answered session reply => exact Answers.later h hlater
  | cleared session modelAlias => exact findExisting_none_of_earlier h (hearlier _ rfl)
  | reserved session modelAlias project budgetDay budgetMonth =>
      exact findExisting_none_of_earlier h (hearlier _ rfl)
  | inserted session project record =>
      exact ⟨findExisting_none_of_earlier h.1 (hearlier _ rfl), h.2⟩
  | waiting session requestId => exact AcceptedBy.cons h
  | _ => trivial

theorem EventOk.later {event : ChatEvent τ} (h : EventOk history db event)
    (hlater : ∀ r ∈ db.requests.rows, ∃ r' ∈ db'.requests.rows, LaterVersion r r') :
    EventOk (e :: history) db' event := by
  cases event with
  | accepted t record =>
      obtain ⟨row, hrow, hid, hkey, hidempotency⟩ := h
      obtain ⟨row', hrow', hversion⟩ := hlater row hrow
      exact ⟨row', hrow', hversion.id_eq.trans hid, hversion.apiKeyId_eq.trans hkey,
        hversion.idempotencyKey_eq.trans hidempotency⟩
  | answered t apiKeyId idempotencyKey reply => exact Answers.later h hlater
  | completed t apiKeyId idempotencyKey requestId result =>
      exact ⟨h.1.cons, h.2.later hlater⟩
  | _ => trivial

end Kept

/-! ## The invariant under a step -/

section Preserved

variable [DecidableEq τ] {s s' : ChatState τ} {e : ChatEvent τ}
  {history : List (ChatEvent τ)}

/-- The row that a step commits has the API key that its transaction has locked. -/
theorem ChatsConsistent.newRow_locked (h : ChatsConsistent history s)
    (hstep : ChatStep s e s') {record : OrbiRequest} (hrecord : record ∈ e.newRows) :
    ∃ t, e = .accepted t record ∧ (s.calls t).apiKeyLock = some record.apiKeyId ∧
      findExisting s.db record.apiKeyId record.idempotencyKey = none ∧
      (∀ r ∈ s.db.requests.rows, r.id ≠ record.id) ∧
      record ∈ s'.db.requests.rows := by
  cases hstep with
  | @accepted t session project record' requests hphase hinsert =>
      have heq := List.mem_singleton.mp hrecord
      subst heq
      have hok := h.phases t
      rw [hphase] at hok
      obtain ⟨hnone, hkey, hidempotency⟩ := hok
      obtain ⟨hfresh, hrows⟩ := Table.insert_eq_some_iff.mp hinsert
      refine ⟨t, rfl, ?_, ?_, hfresh, ?_⟩
      · rw [hphase, hkey]
        rfl
      · rw [hkey, hidempotency]
        exact hnone
      · rw [hrows]
        exact List.mem_append_right _ (List.mem_singleton_self _)
  | _ => cases hrecord

theorem ChatsConsistent.earlier_of_ne (h : ChatsConsistent history s)
    (hstep : ChatStep s e s') {u : τ} (hu : e.caller ≠ some u) {id : UUID}
    (hlock : (s.calls u).apiKeyLock = some id) :
    ∀ r' ∈ s'.db.requests.rows,
      r'.apiKeyId ≠ id ∨ ∃ r ∈ s.db.requests.rows, LaterVersion r r' := by
  intro r' hr'
  rcases hstep.earlier r' hr' with hnew | hold
  · obtain ⟨t, rfl, hlock', -⟩ := h.newRow_locked hstep hnew
    left
    intro hid
    rw [hid] at hlock'
    apply hu
    exact congrArg some (h.keys_exclusive t u id hlock' hlock)
  · exact Or.inr hold

theorem ChatsConsistent.pairs_unique_step (h : ChatsConsistent history s)
    (hstep : ChatStep s e s') :
    ∀ r ∈ s'.db.requests.rows, ∀ r' ∈ s'.db.requests.rows, ∀ apiKeyId key,
      r.hasPair apiKeyId key = true → r'.hasPair apiKeyId key = true → r = r' := by
  have hnewOld : ∀ {record old : OrbiRequest} {apiKeyId : UUID} {key : String},
      record ∈ e.newRows → (∃ r ∈ s.db.requests.rows, LaterVersion r old) →
      record.hasPair apiKeyId key = true → old.hasPair apiKeyId key = true → False := by
    rintro record old apiKeyId key hnew ⟨r, hr, hversion⟩ hrecord hold
    obtain ⟨t, -, -, hnone, -⟩ := h.newRow_locked hstep hnew
    obtain ⟨hkey, hidempotency⟩ := hasPair_iff.mp hrecord
    have hfree := findExisting_eq_none_iff.mp hnone key hidempotency r hr
    rw [hkey, ← hversion.hasPair_eq, hold] at hfree
    cases hfree
  intro r hr r' hr' apiKeyId key hpair hpair'
  rcases hstep.earlier r hr with hnew | ⟨old, hold, hversion⟩
  · rcases hstep.earlier r' hr' with hnew' | hold'
    · obtain ⟨t, rfl, -⟩ := h.newRow_locked hstep hnew
      exact (List.mem_singleton.mp hnew').symm
    · exact (hnewOld hnew hold' hpair hpair').elim
  · rcases hstep.earlier r' hr' with hnew' | ⟨old', hold', hversion'⟩
    · exact (hnewOld hnew' ⟨old, hold, hversion⟩ hpair' hpair).elim
    · rw [hversion.hasPair_eq] at hpair
      rw [hversion'.hasPair_eq] at hpair'
      have heq := h.pairs_unique old hold old' hold' apiKeyId key hpair hpair'
      have hid : r.id = r'.id := by rw [hversion.id_eq, hversion'.id_eq, heq]
      exact s'.db.requests.eq_of_key_eq hr hr' hid

theorem ChatsConsistent.phase_of_caller (h : ChatsConsistent history s)
    (hstep : ChatStep s e s') {t : τ} (hcaller : e.caller = some t) :
    PhaseOk (e :: history) s'.db t (s'.calls t) := by
  have hok := h.phases t
  cases hstep with
  | @found _ session existing hphase hscope hcheck hfind =>
      cases hcaller
      simp only [ChatState.move, Function.update_self]
      obtain ⟨key, hkey, hmem, hpair⟩ := findExisting_spec hfind
      exact ⟨key, hkey, existing, hmem, hpair, existingReply_reads existing⟩
  | cleared hphase hscope hcheck hnone halias =>
      cases hcaller
      simp only [ChatState.move, Function.update_self]
      exact hnone
  | reserved hphase hreserve hfree =>
      cases hcaller
      rw [hphase] at hok
      simp only [ChatState.move, Function.update_self]
      exact hok
  | inserted hphase hrecord hwait hinsert =>
      cases hcaller
      rw [hphase] at hok
      simp only [ChatState.move, Function.update_self, hrecord]
      exact ⟨hok, rfl, rfl⟩
  | @accepted _ session project record requests hphase hinsert =>
      cases hcaller
      rw [hphase] at hok
      simp only [Function.update_self]
      exact ⟨record, List.mem_cons_self, rfl, hok.2.1, hok.2.2⟩
  | _ =>
      cases hcaller <;>
        simp [ChatState.move, PhaseOk]

theorem ChatsConsistent.phases_step (h : ChatsConsistent history s)
    (hstep : ChatStep s e s') (u : τ) : PhaseOk (e :: history) s'.db u (s'.calls u) := by
  by_cases hcaller : e.caller = some u
  · exact h.phase_of_caller hstep hcaller
  · rw [hstep.calls_of_ne hcaller]
    apply (h.phases u).later hstep.later
    intro id hlock
    exact h.earlier_of_ne hstep hcaller hlock

theorem ChatsConsistent.event_ok (h : ChatsConsistent history s)
    (hstep : ChatStep s e s') : EventOk (e :: history) s'.db e := by
  cases hstep with
  | @accepted t session project record requests hphase hinsert =>
      refine ⟨record, ?_, rfl, rfl, rfl⟩
      simp only [(Table.insert_eq_some_iff.mp hinsert).2]
      exact List.mem_append_right _ (List.mem_singleton_self _)
  | @answered t session reply hphase =>
      have hok := h.phases t
      rw [hphase] at hok
      exact hok
  | @completed t session requestId result hphase hpoll =>
      have hok := h.phases t
      rw [hphase] at hok
      refine ⟨AcceptedBy.cons hok, ?_⟩
      obtain ⟨record, hmem, hid, hkey, hidempotency⟩ := hok
      obtain ⟨row, hrow, hrowId, hrowKey, hrowIdempotency⟩ := h.events _ hmem
      obtain ⟨row', hrow', hrowId', hstatus, hresult⟩ := pollRequest_spec hpoll
      have heq : row' = row :=
        s.db.requests.eq_of_key_eq hrow' hrow (hrowId'.trans (hid.symm.trans hrowId.symm))
      subst heq
      exact ⟨row', hrow', hrowId', hrowKey.trans hkey,
        hrowIdempotency.trans hidempotency, hstatus, hresult⟩
  | _ => trivial

/-- No earlier call was accepted with the pair, or the id, of a new row. -/
theorem ChatsConsistent.not_accepted_before (h : ChatsConsistent history s)
    (hstep : ChatStep s e s') {record : OrbiRequest} (hnew : record ∈ e.newRows) :
    (∀ apiKeyId key, record.hasPair apiKeyId key = true →
      history.countP (ChatEvent.accepts apiKeyId key) = 0) ∧
    record.id ∉ (history.flatMap ChatEvent.newRows).map OrbiRequest.id := by
  obtain ⟨-, -, -, hnone, hfresh, -⟩ := h.newRow_locked hstep hnew
  have hrow : ∀ event ∈ history, ∀ old ∈ event.newRows, ∃ row ∈ s.db.requests.rows,
      row.id = old.id ∧ row.apiKeyId = old.apiKeyId ∧
        row.idempotencyKey = old.idempotencyKey := by
    intro event hevent old hold
    have hok := h.events event hevent
    cases event with
    | accepted t record' =>
        cases List.mem_singleton.mp hold
        exact hok
    | _ => cases hold
  constructor
  · intro apiKeyId key hpair
    obtain ⟨hkey, hidempotency⟩ := hasPair_iff.mp hpair
    rw [List.countP_eq_zero]
    intro event hevent haccepts
    obtain ⟨old, hold, hpair'⟩ := List.any_eq_true.mp haccepts
    obtain ⟨hkey', hidempotency'⟩ := hasPair_iff.mp hpair'
    obtain ⟨row, hmem, -, hrowKey, hrowIdempotency⟩ := hrow event hevent old hold
    have hfree := findExisting_eq_none_iff.mp hnone key hidempotency row hmem
    have htaken : row.hasPair record.apiKeyId key = true := by
      rw [hasPair_iff]
      exact ⟨hrowKey.trans (hkey'.trans hkey.symm), hrowIdempotency.trans hidempotency'⟩
    rw [htaken] at hfree
    cases hfree
  · intro hid
    obtain ⟨old, hold, hid'⟩ := List.mem_map.mp hid
    obtain ⟨event, hevent, hold⟩ := List.mem_flatMap.mp hold
    obtain ⟨row, hmem, hrowId, -⟩ := hrow event hevent old hold
    exact hfresh row hmem (hrowId.trans hid')

theorem ChatsConsistent.step (h : ChatsConsistent history s) (hstep : ChatStep s e s') :
    ChatsConsistent (e :: history) s' := by
  refine ⟨RowLocks.Exclusive.step h.keys_exclusive hstep.apiKeyLock_cases,
    h.pairs_unique_step hstep, h.phases_step hstep, ?_, ?_, ?_⟩
  · intro event hevent
    rcases List.mem_cons.mp hevent with rfl | hold
    · exact h.event_ok hstep
    · exact (h.events event hold).later hstep.later
  · intro apiKeyId key
    by_cases haccepts : e.accepts apiKeyId key = true
    · obtain ⟨record, hnew, hpair⟩ := List.any_eq_true.mp haccepts
      have hzero := (h.not_accepted_before hstep hnew).1 apiKeyId key hpair
      simp [haccepts, hzero]
    · simpa [haccepts] using h.once apiKeyId key
  · rcases e.newRows_cases with hnone | ⟨record, hone⟩
    · simpa [hnone] using h.ids_nodup
    · have hnew : record ∈ e.newRows := by simp [hone]
      have hfresh := (h.not_accepted_before hstep hnew).2
      simp only [List.flatMap_cons, hone, List.singleton_append, List.map_cons,
        List.nodup_cons]
      exact ⟨hfresh, h.ids_nodup⟩

theorem chatsConsistent_of_run {db : Db} (hstart : db.requests.rows = [])
    (hrun : ChatRun db history s) : ChatsConsistent history s := by
  apply Run.history_invariant (I := ChatsConsistent) hrun
  · refine ⟨?_, ?_, ?_, ?_, ?_, ?_⟩
    · intro t u id hlock
      cases hlock
    · intro r hr
      simp only [ChatState.start, hstart] at hr
      cases hr
    · intro t
      trivial
    · intro e he
      cases he
    · intro apiKeyId key
      exact Nat.zero_le 1
    · exact List.nodup_nil
  · intro history s e s' _ h hstep
    exact h.step hstep

end Preserved

end Invariant

/-! ## The guarantees -/

section Main

variable {τ : Type*}

/-- The completion result with which the event answers a call of this pair. -/
def ChatEvent.completion (apiKeyId : UUID) (key : String) : ChatEvent τ → Option Json
  | .answered _ apiKeyId' (some key') (.result result) =>
      if apiKeyId' = apiKeyId ∧ key' = key then some result else none
  | .completed _ apiKeyId' (some key') _ result =>
      if apiKeyId' = apiKeyId ∧ key' = key then some result else none
  | _ => none

/-- A completion result is that of the one completed row with the pair. -/
theorem ChatsConsistent.row_of_completion {history : List (ChatEvent τ)}
    {s : ChatState τ} (h : ChatsConsistent history s) {e : ChatEvent τ}
    (he : e ∈ history) {apiKeyId : UUID} {key : String} {result : Json}
    (hresult : e.completion apiKeyId key = some result) :
    ∃ row ∈ s.db.requests.rows, row.hasPair apiKeyId key = true ∧
      row.result = some result := by
  have hok := h.events e he
  unfold ChatEvent.completion at hresult
  split at hresult
  next t apiKeyId' key' answer =>
    split at hresult
    next hpair =>
      cases hresult
      obtain ⟨rfl, rfl⟩ := hpair
      obtain ⟨key, hkey, row, hrow, hpair, hreads⟩ := hok
      cases hkey
      exact ⟨row, hrow, hpair, hreads.2⟩
    · cases hresult
  next t apiKeyId' key' requestId answer =>
    split at hresult
    next hpair =>
      cases hresult
      obtain ⟨rfl, rfl⟩ := hpair
      obtain ⟨-, row, hrow, -, hkey, hidempotency, -, hrowResult⟩ := hok
      exact ⟨row, hrow, hasPair_iff.mpr ⟨hkey, hidempotency⟩, hrowResult⟩
    · cases hresult
  · cases hresult

variable [DecidableEq τ]

/-- What a run guarantees for every API key and idempotency key. -/
structure IdempotentAcceptance (history : List (ChatEvent τ)) (s : ChatState τ) :
    Prop where
  /-- At most one row of a pair is committed. -/
  one_row : ∀ apiKeyId key, ∀ r ∈ s.db.requests.rows, ∀ r' ∈ s.db.requests.rows,
    r.hasPair apiKeyId key = true → r'.hasPair apiKeyId key = true → r = r'
  /-- At most one call of a pair has committed a row and its reservation. -/
  one_acceptance : ∀ apiKeyId key,
    history.countP (ChatEvent.accepts apiKeyId key) ≤ 1
  /-- Every other step of a call leaves the projects and the requests alone. -/
  unchanged : ∀ e s', ChatStep s e s' → e.caller.isSome = true → e.newRows = [] →
    s'.db.projects = s.db.projects ∧ s'.db.requests = s.db.requests
  /-- Two calls of a pair that answer with a result answer with the same. -/
  same_result : ∀ apiKeyId key, ∀ e ∈ history, ∀ e' ∈ history, ∀ result result',
    e.completion apiKeyId key = some result →
      e'.completion apiKeyId key = some result' → result = result'
  /-- A call that is answered from the table has an idempotency key, and the row has
  exactly its pair. -/
  answered_own : ∀ t apiKeyId idempotencyKey reply,
    .answered t apiKeyId idempotencyKey reply ∈ history →
      Answers s.db apiKeyId idempotencyKey reply
  /-- A call that waits is completed by the row that it has committed itself. -/
  completed_own : ∀ t apiKeyId idempotencyKey requestId result,
    .completed t apiKeyId idempotencyKey requestId result ∈ history →
      AcceptedBy history t apiKeyId idempotencyKey requestId ∧
        CompletedWith s.db apiKeyId idempotencyKey requestId result
  /-- No two accepted calls share a row. -/
  own_rows : ((history.flatMap ChatEvent.newRows).map OrbiRequest.id).Nodup

/-- In every interleaving of chat calls with each other and with the rest of the
gateway, calls that carry the same pair are accepted once and answered alike, and
others are kept apart. -/
theorem idempotent_acceptance {db : Db} {history : List (ChatEvent τ)} {s : ChatState τ}
    (hfresh : Fresh db) (hrun : ChatRun db history s) :
    IdempotentAcceptance history s := by
  have hconsistent := chatsConsistent_of_run hfresh.requests_empty hrun
  refine ⟨?_, hconsistent.once, ?_, ?_, ?_, ?_, hconsistent.ids_nodup⟩
  · intro apiKeyId key r hr r' hr' hpair hpair'
    exact hconsistent.pairs_unique r hr r' hr' apiKeyId key hpair hpair'
  · intro e s' hstep hcaller hnone
    exact hstep.unchanged hcaller hnone
  · intro apiKeyId key e he e' he' result result' hresult hresult'
    obtain ⟨row, hrow, hpair, hrowResult⟩ := hconsistent.row_of_completion he hresult
    obtain ⟨row', hrow', hpair', hrowResult'⟩ :=
      hconsistent.row_of_completion he' hresult'
    have heq := hconsistent.pairs_unique row hrow row' hrow' apiKeyId key hpair hpair'
    rw [heq, hrowResult', Option.some.injEq] at hrowResult
    exact hrowResult.symm
  · intro t apiKeyId idempotencyKey reply hmem
    exact hconsistent.events _ hmem
  · intro t apiKeyId idempotencyKey requestId result hmem
    exact hconsistent.events _ hmem

end Main

/-! ## A duplicate -/

namespace Sample

/-- A call and its duplicate. -/
def first : ChatCall := call 100 (some "idempotency-1") 0

def duplicate : ChatCall := call 101 (some "idempotency-1") 4

def firstKey : APIKey :=
  { apiKey with
    dailyRequestsUsed := 1
    lastUsedAt := some 0 }

def reservedProject : Project :=
  { project with
    dailyTokensUsed := 10
    monthlyTokensUsed := 10 }

def record : OrbiRequest :=
  newRequest first firstKey modelAlias reservedProject day day.replaceDayOne

def duplicateKey : APIKey :=
  { firstKey with
    totalRequests := 1
    totalTokens := 7
    dailyRequestsUsed := 2
    lastUsedAt := some 4 }

/-- The row that the duplicate finds. -/
def finished : OrbiRequest :=
  (record.claimed worker 120 2).completed (.obj answer.result) 2 5 3

/-- The first call waits, a worker completes its request, and the duplicate is answered
with the result before the first call sees it; newest event first. -/
def duplicated : List (ChatEvent Bool) :=
  [.completed false 10 (some "idempotency-1") 100 (.obj answer.result),
    .answered true 10 (some "idempotency-1") (.result (.obj answer.result)),
    .lookedUp true, .authenticated true duplicate,
    .performed (.submitResult worker answer 3), .performed (.claim worker 120 2),
    .accepted false record, .inserted false, .reserved false, .lookedUp false,
    .authenticated false first]

theorem run_duplicated : ∃ s, ChatRun db duplicated s := by
  have hauthenticated : ChatRun db [.authenticated false first] _ :=
    Run.start.next (@ChatStep.authenticated Bool _ _ false first firstKey _ rfl rfl nofun)
  have hcleared := hauthenticated.next
    (@ChatStep.cleared Bool _ _ false ⟨first, firstKey⟩ modelAlias rfl rfl rfl rfl rfl)
  have hreserved := hcleared.next
    (@ChatStep.reserved Bool _ _ false ⟨first, firstKey⟩ modelAlias reservedProject day
      day.replaceDayOne _ rfl rfl (by intro u hu; cases u <;> cases hu))
  have hinserted := hreserved.next
    (@ChatStep.inserted Bool _ _ false ⟨first, firstKey⟩ modelAlias reservedProject day
      day.replaceDayOne record _ rfl rfl
      (by intro u other hother; cases u <;> cases hother) rfl)
  have haccepted := hinserted.next
    (@ChatStep.accepted Bool _ _ false ⟨first, firstKey⟩ reservedProject record _ rfl rfl)
  have hclaimed := haccepted.next
    (@ChatStep.performed Bool _ _ (.claim worker 120 2) _ _ rfl rfl
      (by intro u id hlock; cases u <;> cases hlock)
      (by intro u id hlock; cases u <;> cases hlock))
  have hsubmitted := hclaimed.next
    (@ChatStep.performed Bool _ _ (.submitResult worker answer 3) _ _ rfl rfl
      (by intro u id hlock; cases u <;> cases hlock)
      (by intro u id hlock; cases u <;> cases hlock))
  have hauthenticated' := hsubmitted.next
    (@ChatStep.authenticated Bool _ _ true duplicate duplicateKey _ rfl rfl
      (by intro u hlock; cases u <;> cases hlock))
  have hfound := hauthenticated'.next
    (@ChatStep.found Bool _ _ true ⟨duplicate, duplicateKey⟩ finished rfl rfl rfl rfl)
  have hanswered := hfound.next
    (@ChatStep.answered Bool _ _ true ⟨duplicate, duplicateKey⟩
      (.result (.obj answer.result)) rfl)
  exact ⟨_, hanswered.next (@ChatStep.completed Bool _ _ false ⟨first, firstKey⟩ 100
    (.obj answer.result) rfl rfl)⟩

end Sample

/-- The first call and its duplicate answer with the same result. -/
theorem idempotent_acceptance_duplicated :
    ∃ s, ChatRun Sample.db Sample.duplicated s ∧
      IdempotentAcceptance Sample.duplicated s := by
  obtain ⟨s, hrun⟩ := Sample.run_duplicated
  exact ⟨s, hrun, idempotent_acceptance Sample.fresh_db hrun⟩

end OrbiGateway
