import OrbiGateway.Concurrency.ChatRefinement

/-!
# Key revocation

A revocation locks the row that a chat call keeps locked from its authentication to its
commit.  Whatever a call commits, it has therefore read its key as it is at the commit,
and after the revocation of a key no call under it gets that far.
-/

namespace OrbiGateway

open Relational Transition

/-- The committed row of the key was revoked at this instant. -/
def RevokedAt (db : Db) (id : UUID) (instant : Timestamp) : Prop :=
  ∃ record, db.apiKeys.find id = some record ∧ record.revokedAt = some instant

/-- The session of a call that holds its key lock. -/
def ChatPhase.session : ChatPhase → Option ChatSession
  | .authenticated session => some session
  | .answered session _ => some session
  | .cleared session _ => some session
  | .reserved session _ _ _ _ => some session
  | .inserted session _ _ => some session
  | _ => none

/-! ## Revoked keys -/

section Revoked

variable {db db' : Db} {id : UUID} {instant : Timestamp}

theorem isOpenedBy_of_revoked {record : APIKey} (hrevoked : record.revokedAt.isSome = true)
    (parsed : ParsedKey) (readings : KeyReadings) :
    record.isOpenedBy parsed readings = false := by
  simp [APIKey.isOpenedBy, isRecordActive, hrevoked]

theorem requireApiKey_of_revoked (h : RevokedAt db id instant) {parsed : ParsedKey}
    {record : APIKey} (hfind : findActiveKey db parsed.keyId = some record)
    (hid : record.id = id) (readings : KeyReadings) :
    requireApiKey db parsed readings = .error (.orbi invalidApiKey) := by
  obtain ⟨row, hrow, hrevoked⟩ := h
  have hsame : record = row := by
    apply db.apiKeys.eq_of_key_eq (findActiveKey_mem hfind) (Table.mem_of_find hrow)
    exact hid.trans (Table.key_of_find hrow).symm
  have hclosed : record.isOpenedBy parsed readings = false := by
    apply isOpenedBy_of_revoked
    rw [hsame, hrevoked]
    rfl
  simp [requireApiKey, hfind, hclosed]

theorem ChatSession.Authenticates.id_ne {session : ChatSession}
    (h : session.Authenticates db) (hrevoked : RevokedAt db id instant) :
    session.apiKey.id ≠ id := by
  intro hid
  obtain ⟨record, hmem, hfind, -, hcount, -⟩ := requireApiKey_spec h
  have hcolumns := APIKey.lookupColumns_countCall hcount
  have hrecord : record.id = id := (congrArg Prod.fst hcolumns).symm.trans hid
  have hno := requireApiKey_of_revoked hrevoked hfind hrecord session.call.keyReadings
  rw [ChatSession.Authenticates, hno] at h
  cases h

theorem PhaseCurrent.authenticates {phase : ChatPhase} {session : ChatSession}
    (h : PhaseCurrent db phase) (hsession : phase.session = some session) :
    session.Authenticates db := by
  cases phase with
  | authenticated => cases hsession; exact h
  | answered => cases hsession; exact h.1
  | cleared => cases hsession; exact h.1
  | reserved => cases hsession; exact h.1
  | inserted => cases hsession; exact h.1
  | _ => cases hsession

/-- The other operations of the gateway revoke nothing and revive nothing. -/
theorem RevokedAt.exec {op : Op} {reply : Reply} (h : RevokedAt db id instant)
    (hother : op.isChat = false) (hexec : exec db op = .ok (reply, db')) :
    RevokedAt db' id instant := by
  obtain ⟨record, hfind, hrevoked⟩ := h
  cases exec_ledgerStep hexec with
  | counted => cases hother
  | used hmem hheld hkeys husage =>
      rw [RevokedAt, hkeys]
      simp only [find_countUse, hfind, Option.map_some, Option.some.injEq]
      refine ⟨_, rfl, ?_⟩
      split
      · exact hrevoked
      · exact hrevoked
  | kept hchat hkeys husage hrefused =>
      rw [RevokedAt, hkeys]
      exact ⟨record, hfind, hrevoked⟩

theorem APIKey.revokedAt_revoked {record : APIKey} (now : Timestamp)
    (hrevoked : record.revokedAt = some instant) :
    (record.revoked now).revokedAt = some instant := by
  simp [APIKey.revoked, hrevoked]

end Revoked

/-! ## After a revocation -/

section Barrier

variable {τ : Type*} {s s' : ChatState τ} {e : ChatEvent τ} {id : UUID}
  {instant : Timestamp}

theorem RevokedAt.session_ne (h : RevokedAt s.db id instant) (hcurrent : ChatsCurrent s)
    {t : τ} {session : ChatSession} (hsession : (s.calls t).session = some session) :
    session.apiKey.id ≠ id :=
  ((hcurrent.phases t).authenticates hsession).id_ne h

variable [DecidableEq τ]

/-- Every step keeps the instant of a revocation. -/
theorem RevokedAt.step (h : RevokedAt s.db id instant) (hcurrent : ChatsCurrent s)
    (hstep : ChatStep s e s') : RevokedAt s'.db id instant := by
  obtain ⟨record, hfind, hrevoked⟩ := h
  have hother : ∀ {t : τ} {session : ChatSession},
      (s.calls t).session = some session →
        (s.db.apiKeys.put session.apiKey).find id = some record := by
    intro t session hsession
    have hne := RevokedAt.session_ne ⟨record, hfind, hrevoked⟩ hcurrent hsession
    rw [Table.find_put_of_ne _ hne, hfind]
  cases hstep with
  | accepted hphase hinsert =>
      exact ⟨record, hother (by rw [hphase]; rfl), hrevoked⟩
  | answered hphase =>
      exact ⟨record, hother (by rw [hphase]; rfl), hrevoked⟩
  | @keyRevoked t row now hphase =>
      have hrow := hcurrent.phases t
      rw [hphase] at hrow
      have hput := Table.find_put s.db.apiKeys (row.revoked now) id
      by_cases hid : row.id = id
      · -- the key is revoked again
        subst hid
        have hsame : row = record := Option.some.inj (hrow.symm.trans hfind)
        rw [key_apiKey, row.id_revoked, if_pos rfl, hfind] at hput
        exact ⟨_, hput, APIKey.revokedAt_revoked now (hsame ▸ hrevoked)⟩
      · rw [key_apiKey, row.id_revoked, if_neg hid, hfind] at hput
        exact ⟨record, hput, hrevoked⟩
  | performed hother' hexec hkeys hprojects =>
      exact RevokedAt.exec ⟨record, hfind, hrevoked⟩ hother' hexec
  | _ => exact ⟨record, hfind, hrevoked⟩

theorem RevokedAt.newRow_ne (h : RevokedAt s.db id instant) (hcurrent : ChatsCurrent s)
    (hstep : ChatStep s e s') {record : OrbiRequest} (hrecord : record ∈ e.newRows) :
    record.apiKeyId ≠ id := by
  cases hstep with
  | @accepted t session project row requests hphase hinsert =>
      cases List.mem_singleton.mp hrecord
      have hread := hcurrent.phases t
      rw [hphase] at hread
      obtain ⟨-, -, modelAlias, budgetDay, budgetMonth, -, -, rfl⟩ := hread
      exact h.session_ne hcurrent (t := t) (by rw [hphase]; rfl)
  | _ => cases hrecord

/-- A step reserves for the request that it commits; otherwise the counters move by
settlements. -/
theorem ChatStep.reserves_or_settles (h : ChatStep s e s') :
    (∃ record, e.newRows = [record]) ∨
      ∃ settled, s'.db.projects = settleAll settled s.db.projects := by
  cases h with
  | accepted hphase hinsert => exact Or.inl ⟨_, rfl⟩
  | performed hother hexec hkeys hprojects =>
      exact Or.inr ⟨_, exec_projects hexec (newRows_of_not_isChat hother hexec)⟩
  | _ => exact Or.inr ⟨[], (settleAll_nil _).symm⟩

/-- What holds of a key from its revocation on; `newer` are the events since. -/
structure RevocationBarrier (id : UUID) (instant : Timestamp)
    (newer : List (ChatEvent τ)) (s : ChatState τ) : Prop where
  /-- The instant of the revocation stays. -/
  revoked : RevokedAt s.db id instant
  /-- No request of the key has been committed. -/
  no_rows : ∀ e ∈ newer, ∀ record ∈ e.newRows, record.apiKeyId ≠ id
  /-- No call under the key is in progress. -/
  no_session : ∀ t session, (s.calls t).session = some session → session.apiKey.id ≠ id
  /-- No reservation for the key can be committed. -/
  no_reservation : ∀ e s', ChatStep s e s' →
    (∃ record, e.newRows = [record] ∧ record.apiKeyId ≠ id) ∨
      ∃ settled, s'.db.projects = settleAll settled s.db.projects
  /-- A call that finds the key now is refused. -/
  refused : ∀ parsed record readings, findActiveKey s.db parsed.keyId = some record →
    record.id = id → requireApiKey s.db parsed readings = .error (.orbi invalidApiKey)

theorem RevocationBarrier.of_revoked {newer : List (ChatEvent τ)}
    (h : RevokedAt s.db id instant) (hcurrent : ChatsCurrent s)
    (hrows : ∀ e ∈ newer, ∀ record ∈ e.newRows, record.apiKeyId ≠ id) :
    RevocationBarrier id instant newer s where
  revoked := h
  no_rows := hrows
  no_session _ _ hsession := h.session_ne hcurrent hsession
  no_reservation e s' hstep := by
    rcases hstep.reserves_or_settles with ⟨record, hnew⟩ | hsettled
    · have hmem : record ∈ e.newRows := by simp [hnew]
      exact Or.inl ⟨record, hnew, h.newRow_ne hcurrent hstep hmem⟩
    · exact Or.inr hsettled
  refused _ _ readings hfind hid := requireApiKey_of_revoked h hfind hid readings

theorem revokedAt_of_keyRevoked {t : τ} (hcurrent : ChatsCurrent s)
    (hstep : ChatStep s (.keyRevoked t id) s') : ∃ instant, RevokedAt s'.db id instant := by
  cases hstep with
  | @keyRevoked t record now hphase =>
      have hfind := hcurrent.phases t
      rw [hphase] at hfind
      have hput := Table.find_put s.db.apiKeys (record.revoked now) record.id
      rw [key_apiKey, record.id_revoked, if_pos rfl, hfind] at hput
      cases hrevoked : record.revokedAt with
      | none => exact ⟨now, _, hput, by simp [APIKey.revoked, hrevoked]⟩
      | some first => exact ⟨first, _, hput, APIKey.revokedAt_revoked now hrevoked⟩

/-- Revocation is a barrier in every interleaving: from its commit on nothing is
committed for the key, its instant stays, and every call under the key is refused. -/
theorem key_revocation_barrier {db : Db} {older newer : List (ChatEvent τ)} {t : τ}
    {before revoked : ChatState τ} (hbefore : ChatRun db older before)
    (hrevoke : ChatStep before (.keyRevoked t id) revoked)
    (hrun : Run ChatStep revoked newer s) :
    ∃ instant, RevokedAt revoked.db id instant ∧ RevocationBarrier id instant newer s := by
  have hrevoked : ChatRun db (.keyRevoked t id :: older) revoked := hbefore.next hrevoke
  obtain ⟨instant, hinstant⟩ :=
    revokedAt_of_keyRevoked (chatsCurrent_of_run hbefore) hrevoke
  refine ⟨instant, hinstant, ?_⟩
  apply Run.history_invariant
    (I := fun newer s => RevocationBarrier id instant newer s) hrun
  · exact .of_revoked hinstant (chatsCurrent_of_run hrevoked)
      (fun e he => absurd he List.not_mem_nil)
  · intro newer mid e next hmid ih hstep
    have hcurrent := chatsCurrent_of_run (hrevoked.append hmid)
    have hnext := chatsCurrent_of_run ((hrevoked.append hmid).next hstep)
    refine .of_revoked (ih.revoked.step hcurrent hstep) hnext ?_
    intro e' he' record hrecord
    rcases List.mem_cons.mp he' with rfl | he'
    · exact ih.revoked.newRow_ne hcurrent hstep hrecord
    · exact ih.no_rows e' he' record hrecord

end Barrier

/-! ## Calls before and after a revocation -/

namespace Sample

inductive Party
  | client
  | admin
  | latecomer
  deriving DecidableEq

/-- A call that comes while the key is being revoked. -/
def late : ChatCall := call 101 none 6

/-- A call commits its request, then the revocation locks the key row. -/
def revocationLocked : List (ChatEvent Party) :=
  [.keyLocked .admin 10, .accepted .client record, .inserted .client, .reserved .client,
    .lookedUp .client, .authenticated .client first]

/-- The late call ends, and a worker completes the request of the first one. -/
def sinceRevoked : List (ChatEvent Party) :=
  [.performed (.submitResult worker answer 8), .performed (.claim worker 120 7),
    .stopped .latecomer]

/-- The late call waits for the lock of the revocation, and is refused once the revocation
has committed. -/
theorem run_sinceRevoked : ∃ before revoked s : ChatState Party,
    ChatRun db revocationLocked before ∧
      (∀ next, ¬ ChatStep before (.authenticated .latecomer late) next) ∧
      ChatStep before (.keyRevoked .admin 10) revoked ∧ Run ChatStep revoked sinceRevoked s ∧
      ∃ row, findActiveKey s.db late.key.keyId = some row ∧ row.id = 10 := by
  have hauthenticated : ChatRun db [.authenticated Party.client first] _ :=
    Run.start.next (@ChatStep.authenticated Party _ _ .client first firstKey _ rfl rfl nofun)
  have hcleared := hauthenticated.next
    (@ChatStep.cleared Party _ _ .client ⟨first, firstKey⟩ modelAlias rfl rfl rfl rfl rfl)
  have hreserved := hcleared.next
    (@ChatStep.reserved Party _ _ .client ⟨first, firstKey⟩ modelAlias reservedProject day
      day.replaceDayOne _ rfl rfl (by intro u hu; cases u <;> cases hu))
  have hinserted := hreserved.next
    (@ChatStep.inserted Party _ _ .client ⟨first, firstKey⟩ modelAlias reservedProject day
      day.replaceDayOne record _ rfl rfl
      (by intro u other hother; cases u <;> cases hother) rfl)
  have haccepted := hinserted.next
    (@ChatStep.accepted Party _ _ .client ⟨first, firstKey⟩ reservedProject record _ rfl rfl)
  have hlocked := haccepted.next
    (@ChatStep.keyLocked Party _ _ .admin 10 firstKey rfl rfl
      (by intro u hlock; cases u <;> cases hlock))
  refine ⟨_, _, _, hlocked, ?_, @ChatStep.keyRevoked Party _ _ .admin firstKey 5 rfl,
    ((Run.start.next (@ChatStep.stopped Party _ _ .latecomer)).next
      (@ChatStep.performed Party _ _ (.claim worker 120 7) _ _ rfl rfl
        (by intro u id hlock; cases u <;> cases hlock)
        (by intro u id hlock; cases u <;> cases hlock))).next
      (@ChatStep.performed Party _ _ (.submitResult worker answer 8) _ _ rfl rfl
        (by intro u id hlock; cases u <;> cases hlock)
        (by intro u id hlock; cases u <;> cases hlock)), _, rfl, rfl⟩
  intro next hstep
  cases hstep with
  | authenticated hidle hkey hfree =>
      cases hkey
      exact hfree .admin rfl

end Sample

/-- One call commits before the key is revoked; another waits for the revocation and is
refused after it. -/
theorem key_revocation_barrier_sample :
    ∃ before revoked s : ChatState Sample.Party,
      ChatRun Sample.db Sample.revocationLocked before ∧
      (∀ next, ¬ ChatStep before (.authenticated .latecomer Sample.late) next) ∧
      ChatStep before (.keyRevoked .admin 10) revoked ∧
      Run ChatStep revoked Sample.sinceRevoked s ∧
      requireApiKey s.db Sample.late.key Sample.late.keyReadings =
        .error (.orbi invalidApiKey) ∧
      ∃ instant, RevokedAt revoked.db 10 instant ∧
        RevocationBarrier 10 instant Sample.sinceRevoked s := by
  obtain ⟨before, revoked, s, hbefore, hwaits, hrevoke, hrun, row, hfind, hid⟩ :=
    Sample.run_sinceRevoked
  obtain ⟨instant, hinstant, hbarrier⟩ := key_revocation_barrier hbefore hrevoke hrun
  exact ⟨before, revoked, s, hbefore, hwaits, hrevoke, hrun,
    hbarrier.refused _ row Sample.late.keyReadings hfind hid, instant, hinstant, hbarrier⟩

end OrbiGateway
