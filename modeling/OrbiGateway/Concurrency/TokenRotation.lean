import OrbiGateway.Concurrency.Enrollment

/-!
# Rotation of worker tokens

The life of one worker from its registration on, with every JWT that is issued for it.
A renewal is authenticated by the row it reads, issues its JWT and writes the new `jti`
later, over whatever another renewal or a revocation has written in between.
-/

namespace OrbiGateway

open Relational Transition

/-- The JWT passes the row check of `require_worker`. -/
def WorkerClaims.Passes (claims : WorkerClaims) (db : Db) : Prop :=
  ∃ worker, requireWorker db claims.sub claims.jti = .ok worker

theorem WorkerClaims.passes_iff {claims : WorkerClaims} {db : Db} :
    claims.Passes db ↔ ∃ worker, db.workers.find claims.sub = some worker ∧
      worker.revokedAt = none ∧ worker.tokenJti = some claims.jti := by
  constructor
  · rintro ⟨worker, hworker⟩
    exact ⟨worker, requireWorker_spec hworker⟩
  · rintro ⟨worker, hfind, hrevoked, htoken⟩
    refine ⟨worker, ?_⟩
    simp [requireWorker, hfind, workerTokenCurrent, hrevoked, htoken]

/-! ## States and steps -/

/-- The worker with its calls, and the JWTs issued for it, last first. -/
structure RotationState (τ : Type*) where
  worker : WorkerState τ
  issued : List WorkerClaims

inductive RotationEvent (τ : Type*)
  | registered (claims : WorkerClaims)
  | moved (event : WorkerEvent τ)

/-- The `jti` that a call issues. -/
def WorkerCall.jti : WorkerCall → Option String
  | .renew jti => some jti
  | _ => none

/-- The `jti` that an authenticated call is about to issue. -/
def WorkerEvent.issues {τ : Type*} : WorkerEvent τ → Option String
  | .authenticated _ call _ => call.jti
  | _ => none

section Steps

variable {τ : Type*}

def RotationState.start (db : Db) : RotationState τ where
  worker := .start db
  issued := []

/-- A registration of the worker, or a step of its calls, of a revocation of it or of
anyone else.  Every `jti` that is issued is a new one. -/
inductive RotationStep [DecidableEq τ] (jwt : WorkerJWTService) (w : UUID) :
    RotationState τ → RotationEvent τ → RotationState τ → Prop
  | registered {s : RotationState τ} {payload : WorkerRegisterRequest}
      {now issuedAt : Timestamp} {jti : String} {workers : Table Worker}
      (hfresh : ∀ claims ∈ s.issued, claims.jti ≠ jti)
      (hinsert : s.worker.db.workers.insert ((newWorker payload w now).renewed jti) =
        some workers) :
      RotationStep jwt w s (.registered (jwt.issue w jti issuedAt))
        { worker := { s.worker with db := { s.worker.db with workers := workers } }
          issued := jwt.issue w jti issuedAt :: s.issued }
  | renewing {s : RotationState τ} {event : WorkerEvent τ} {worker : WorkerState τ}
      {jti : String} {issuedAt : Timestamp} (hstep : WorkerStep w s.worker event worker)
      (hissues : event.issues = some jti)
      (hfresh : ∀ claims ∈ s.issued, claims.jti ≠ jti) :
      RotationStep jwt w s (.moved event)
        { worker := worker, issued := jwt.issue w jti issuedAt :: s.issued }
  | moved {s : RotationState τ} {event : WorkerEvent τ} {worker : WorkerState τ}
      (hstep : WorkerStep w s.worker event worker) (hissues : event.issues = none) :
      RotationStep jwt w s (.moved event) { s with worker := worker }

/-- A run from before the registration of the worker. -/
abbrev RotationRun [DecidableEq τ] (jwt : WorkerJWTService) (w : UUID) (db : Db)
    (history : List (RotationEvent τ)) (s : RotationState τ) : Prop :=
  Run (RotationStep jwt w) (.start db) history s

end Steps

/-! ## Calls and rows of a worker -/

section Rows

variable {τ : Type*} [DecidableEq τ] {w : UUID} {s s' : WorkerState τ}
  {e : WorkerEvent τ}

theorem WorkerStep.calls_cases (h : WorkerStep w s e s') {t : τ} {call : WorkerCall}
    {loaded : Worker} (hcall : s'.calls t = some (call, loaded)) :
    (s.calls t = some (call, loaded) ∧ ∀ reply, e ≠ .finished t reply) ∨
      ∃ jti, e = .authenticated t call jti ∧ requireWorker s.db w jti = .ok loaded := by
  cases h with
  | @authenticated t' call' jti loaded' hidle hworker =>
      by_cases htt : t = t'
      · subst htt
        simp only [Function.update_self, Option.some.injEq, Prod.mk.injEq] at hcall
        obtain ⟨rfl, rfl⟩ := hcall
        exact Or.inr ⟨jti, rfl, hworker⟩
      · simp only [Function.update_of_ne htt] at hcall
        exact Or.inl ⟨hcall, by simp⟩
  | @finished t' call' loaded' reply db hcall' hfree hrun =>
      by_cases htt : t = t'
      · subst htt
        simp at hcall
      · simp only [Function.update_of_ne htt] at hcall
        refine Or.inl ⟨hcall, ?_⟩
        intro reply' heq
        cases heq
        exact htt rfl
  | @failed t' =>
      by_cases htt : t = t'
      · subst htt
        simp at hcall
      · simp only [Function.update_of_ne htt] at hcall
        exact Or.inl ⟨hcall, by simp⟩
  | _ => exact Or.inl ⟨hcall, by simp⟩

/-- What may become of the two columns that the check of `require_worker` reads. -/
inductive RowChange (s : WorkerState τ) (row row' : Worker) : WorkerEvent τ → Prop
  | kept {e : WorkerEvent τ} (hother : e ≠ .revocationCommitted)
      (htoken : row'.tokenJti = row.tokenJti) (hrevoked : row'.revokedAt = row.revokedAt) :
      RowChange s row row' e
  | renewed {t : τ} {jti : String} {loaded : Worker} {reply : WorkerReply}
      (hcall : s.calls t = some (.renew jti, loaded)) (htoken : row'.tokenJti = some jti)
      (hrevoked : row'.revokedAt = row.revokedAt) : RowChange s row row' (.finished t reply)
  | revoked (htoken : row'.tokenJti = none) (hrevoked : row'.revokedAt ≠ none) :
      RowChange s row row' .revocationCommitted

/-- Steps of calls and revocations change the worker's row as its columns allow, and
never add or remove it. -/
theorem WorkerStep.row_cases (h : WorkerStep w s e s') (hloaded : Loaded w s) :
    (s.db.workers.find w = none ∧ s'.db.workers.find w = none) ∨
      ∃ row row', s.db.workers.find w = some row ∧ s'.db.workers.find w = some row' ∧
        RowChange s row row' e := by
  have hsame : s'.db.workers = s.db.workers → e ≠ .revocationCommitted →
      (s.db.workers.find w = none ∧ s'.db.workers.find w = none) ∨
      ∃ row row', s.db.workers.find w = some row ∧ s'.db.workers.find w = some row' ∧
        RowChange s row row' e := by
    intro heq hother
    rw [heq]
    cases hfind : s.db.workers.find w with
    | none => exact Or.inl ⟨rfl, rfl⟩
    | some row => exact Or.inr ⟨row, row, rfl, rfl, .kept hother rfl rfl⟩
  have hflush : ∀ {loaded new : Worker}, loaded.id = w →
      s'.db = flushWorker s.db loaded new →
      (∀ row, s.db.workers.find w = some row →
        RowChange s row (loaded.flush new row) e) →
      (s.db.workers.find w = none ∧ s'.db.workers.find w = none) ∨
      ∃ row row', s.db.workers.find w = some row ∧ s'.db.workers.find w = some row' ∧
        RowChange s row row' e := by
    intro loaded new hid hdb hchange
    rw [hdb, find_flushWorker hid]
    cases hfind : s.db.workers.find w with
    | none => exact Or.inl ⟨rfl, rfl⟩
    | some row => exact Or.inr ⟨row, loaded.flush new row, rfl, rfl, hchange row hfind⟩
  cases h with
  | @finished t call loaded reply db hcall hfree hrun =>
      have hid := hloaded.id_eq t call loaded hcall
      cases hupdates : call.updatesWorker with
      | false => exact hsame (run_workers hrun hupdates) (by simp)
      | true =>
          cases call with
          | heartbeat payload now =>
              cases hrun
              apply hflush hid rfl
              intro row _
              exact .kept (by simp) (flushColumn_eq_iff.mpr (Or.inl rfl))
                (flushColumn_eq_iff.mpr (Or.inl rfl))
          | renew jti =>
              cases hrun
              apply hflush hid rfl
              intro row _
              have hrevoked : (loaded.flush (loaded.renewed jti) row).revokedAt =
                  row.revokedAt := flushColumn_eq_iff.mpr (Or.inl rfl)
              rcases flushColumn_cases loaded.tokenJti (some jti) row.tokenJti with
                hkept | hwritten
              · exact .kept (by simp) hkept hrevoked
              · exact .renewed hcall hwritten hrevoked
          | _ => cases hupdates
  | @revocationCommitted loaded new hwritten =>
      have hcurrent := hloaded.current
      rw [hwritten] at hcurrent
      obtain ⟨hfind, now, rfl⟩ := hcurrent
      apply hflush (Table.key_of_find hfind) rfl
      intro row hrow
      obtain rfl : loaded = row := Option.some.inj (hfind.symm.trans hrow)
      refine .revoked (flushColumn_loaded _ _) ?_
      rw [show (loaded.flush (loaded.revoked now) loaded).revokedAt =
        some (loaded.revokedAt.getD now) from flushColumn_loaded _ _]
      simp
  | performed hother hexec => exact hsame (exec_frame hexec).1 (by simp)
  | _ => exact hsame rfl (by simp)

end Rows

/-! ## Issued tokens -/

section Issued

variable {τ : Type*}

/-- The JWT with this `jti` has been issued. -/
def RotationState.Issued (s : RotationState τ) (jti : String) : Prop :=
  ∃ claims ∈ s.issued, claims.jti = jti

/-- The renewal `t` is about to write the `jti`. -/
def RotationState.Renewing (s : RotationState τ) (t : τ) (jti : String) : Prop :=
  ∃ loaded, s.worker.calls t = some (.renew jti, loaded)

/-- The `jti` has been issued and is not written any more. -/
def RotationState.Settled (s : RotationState τ) (jti : String) : Prop :=
  s.Issued jti ∧ ∀ t, ¬s.Renewing t jti

/-- The worker's row and the JWTs issued for it: a `jti` that is being written has been
issued to one renewal only, and the one that the row holds is not being written. -/
structure Rotating (w : UUID) (s : RotationState τ) : Prop where
  loaded : Loaded w s.worker
  sub_eq : ∀ claims ∈ s.issued, claims.sub = w
  distinct : s.issued.Pairwise fun claims claims' => claims.jti ≠ claims'.jti
  issued : ∀ t jti, s.Renewing t jti → s.Issued jti
  unique : ∀ t u jti, s.Renewing t jti → s.Renewing u jti → t = u
  settled : ∀ row jti, s.worker.db.workers.find w = some row →
    row.tokenJti = some jti → s.Settled jti

/-- A JWT of the worker that passes is the one whose `jti` the unrevoked row holds. -/
theorem Rotating.settled_of_passes {w : UUID} {s : RotationState τ}
    (h : Rotating w s) {claims : WorkerClaims}
    (hsub : claims.sub = w) (hpasses : claims.Passes s.worker.db) : s.Settled claims.jti := by
  obtain ⟨row, hfind, -, htoken⟩ := WorkerClaims.passes_iff.mp hpasses
  rw [hsub] at hfind
  exact h.settled row claims.jti hfind htoken

variable [DecidableEq τ] {jwt : WorkerJWTService} {w : UUID} {s s' : RotationState τ}
  {e : RotationEvent τ}

theorem RotationStep.issued_mono (h : RotationStep jwt w s e s') {jti : String}
    (hissued : s.Issued jti) : s'.Issued jti := by
  obtain ⟨claims, hmem, hjti⟩ := hissued
  cases h with
  | registered hfresh hinsert => exact ⟨claims, List.mem_cons_of_mem _ hmem, hjti⟩
  | renewing hstep hissues hfresh => exact ⟨claims, List.mem_cons_of_mem _ hmem, hjti⟩
  | moved hstep hissues => exact ⟨claims, hmem, hjti⟩

theorem RotationStep.renewing_cases (h : RotationStep jwt w s e s') {t : τ} {jti : String}
    (hrenewing : s'.Renewing t jti) :
    (s.Renewing t jti ∧ ∀ reply, e ≠ .moved (.finished t reply)) ∨
      (¬s.Issued jti ∧ s'.Issued jti ∧
        ∃ old, e = .moved (.authenticated t (.renew jti) old)) := by
  obtain ⟨loaded, hcall⟩ := hrenewing
  cases h with
  | registered hfresh hinsert => exact Or.inl ⟨⟨loaded, hcall⟩, by simp⟩
  | @renewing event worker jti' issuedAt hstep hissues hfresh =>
      rcases hstep.calls_cases hcall with ⟨hold, hunfinished⟩ | ⟨old, rfl, -⟩
      · refine Or.inl ⟨⟨loaded, hold⟩, ?_⟩
        intro reply heq
        cases heq
        exact hunfinished reply rfl
      · cases hissues
        refine Or.inr ⟨?_, ⟨_, List.mem_cons_self, rfl⟩, old, rfl⟩
        rintro ⟨claims, hmem, hjti⟩
        exact hfresh claims hmem hjti
  | @moved event worker hstep hissues =>
      rcases hstep.calls_cases hcall with ⟨hold, hunfinished⟩ | ⟨old, rfl, -⟩
      · refine Or.inl ⟨⟨loaded, hold⟩, ?_⟩
        intro reply heq
        cases heq
        exact hunfinished reply rfl
      · cases hissues

theorem RotationState.Settled.step {jti : String} (h : s.Settled jti)
    (hstep : RotationStep jwt w s e s') : s'.Settled jti := by
  refine ⟨hstep.issued_mono h.1, ?_⟩
  intro t hrenewing
  rcases hstep.renewing_cases hrenewing with ⟨hold, -⟩ | ⟨hfresh, -⟩
  · exact h.2 t hold
  · exact hfresh h.1

/-- A row is an old one that a call or a revocation has changed, or it has just been
registered with a new `jti`. -/
theorem RotationStep.row_cases (h : RotationStep jwt w s e s') (hloaded : Loaded w s.worker)
    {row' : Worker} (hfind' : s'.worker.db.workers.find w = some row') :
    (∃ event row, e = .moved event ∧ s.worker.db.workers.find w = some row ∧
        RowChange s.worker row row' event) ∨
      ∃ jti, row'.tokenJti = some jti ∧ ¬s.Issued jti ∧ s'.Issued jti ∧
        s'.worker.calls = s.worker.calls := by
  have hmoved : ∀ {event : WorkerEvent τ}, WorkerStep w s.worker event s'.worker →
      ∃ row, s.worker.db.workers.find w = some row ∧
        RowChange s.worker row row' event := by
    intro event hstep
    rcases hstep.row_cases hloaded with ⟨-, hnone⟩ | ⟨row, row'', hfind, hfind'', hchange⟩
    · rw [hnone] at hfind'
      cases hfind'
    · obtain rfl : row'' = row' := Option.some.inj (hfind''.symm.trans hfind')
      exact ⟨row, hfind, hchange⟩
  cases h with
  | @registered payload now issuedAt jti workers hfresh hinsert =>
      obtain ⟨habsent, hrows⟩ := Table.insert_eq_some_iff.mp hinsert
      obtain ⟨hmem, hid⟩ := Table.find_eq_some_iff.mp hfind'
      rw [hrows, List.mem_append, List.mem_singleton] at hmem
      rcases hmem with hold | rfl
      · exact absurd hid (habsent row' hold)
      · refine Or.inr ⟨jti, rfl, ?_, ⟨_, List.mem_cons_self, rfl⟩, rfl⟩
        rintro ⟨claims, hclaims, hjti⟩
        exact hfresh claims hclaims hjti
  | @renewing event worker jti issuedAt hstep hissues hfresh =>
      obtain ⟨row, hfind, hchange⟩ := hmoved hstep
      exact Or.inl ⟨event, row, rfl, hfind, hchange⟩
  | @moved event worker hstep hissues =>
      obtain ⟨row, hfind, hchange⟩ := hmoved hstep
      exact Or.inl ⟨event, row, rfl, hfind, hchange⟩

theorem Loaded.rotationStep (h : Loaded w s.worker) (hstep : RotationStep jwt w s e s') :
    Loaded w s'.worker := by
  cases hstep with
  | registered hfresh hinsert =>
      refine ⟨h.id_eq, ?_⟩
      have hcurrent := h.current
      cases hrevocation : s.worker.revocation with
      | idle => trivial
      | locked loaded =>
          rw [hrevocation] at hcurrent
          exact Table.find_of_insert hinsert hcurrent
      | written loaded new =>
          rw [hrevocation] at hcurrent
          exact ⟨Table.find_of_insert hinsert hcurrent.1, hcurrent.2⟩
  | renewing hstep hissues hfresh => exact h.step hstep
  | moved hstep hissues => exact h.step hstep

/-- The `jti` that the row holds after a step is not being written. -/
theorem Rotating.settled_step (h : Rotating w s) (hstep : RotationStep jwt w s e s')
    {row' : Worker} {jti : String} (hfind' : s'.worker.db.workers.find w = some row')
    (htoken' : row'.tokenJti = some jti) : s'.Settled jti := by
  rcases hstep.row_cases h.loaded hfind' with
    ⟨event, row, rfl, hfind, hchange⟩ | ⟨jti', htoken, hfresh, hissued, hcalls⟩
  · cases hchange with
    | kept hother htoken hrevoked =>
        rw [htoken] at htoken'
        exact (h.settled row jti hfind htoken').step hstep
    | @renewed t jti' loaded reply hcall htoken hrevoked =>
        obtain rfl : jti' = jti := Option.some.inj (htoken.symm.trans htoken')
        refine ⟨hstep.issued_mono (h.issued t jti' ⟨loaded, hcall⟩), ?_⟩
        intro u hrenewing
        rcases hstep.renewing_cases hrenewing with ⟨hold, hunfinished⟩ | ⟨hfresh, -⟩
        · obtain rfl := h.unique t u jti' ⟨loaded, hcall⟩ hold
          exact hunfinished reply rfl
        · exact hfresh (h.issued t jti' ⟨loaded, hcall⟩)
    | revoked htoken hrevoked =>
        rw [htoken] at htoken'
        cases htoken'
  · obtain rfl : jti' = jti := Option.some.inj (htoken.symm.trans htoken')
    refine ⟨hissued, ?_⟩
    rintro t ⟨loaded, hcall⟩
    rw [hcalls] at hcall
    exact hfresh (h.issued t jti' ⟨loaded, hcall⟩)

theorem Rotating.step (h : Rotating w s) (hstep : RotationStep jwt w s e s') :
    Rotating w s' := by
  refine ⟨h.loaded.rotationStep hstep, ?_, ?_, ?_, ?_, ?_⟩
  · intro claims hmem
    cases hstep with
    | moved hstep hissues => exact h.sub_eq claims hmem
    | _ =>
        rcases List.mem_cons.mp hmem with rfl | hold
        · rfl
        · exact h.sub_eq claims hold
  · cases hstep with
    | moved hstep hissues => exact h.distinct
    | registered hfresh hinsert =>
        exact h.distinct.cons fun claims hmem => (hfresh claims hmem).symm
    | renewing hstep hissues hfresh =>
        exact h.distinct.cons fun claims hmem => (hfresh claims hmem).symm
  · intro t jti hrenewing
    rcases hstep.renewing_cases hrenewing with ⟨hold, -⟩ | ⟨-, hissued, -⟩
    · exact hstep.issued_mono (h.issued t jti hold)
    · exact hissued
  · intro t u jti ht hu
    rcases hstep.renewing_cases ht with ⟨hold, -⟩ | ⟨hfresh, -, old, rfl⟩
    · rcases hstep.renewing_cases hu with ⟨hold', -⟩ | ⟨hfresh, -⟩
      · exact h.unique t u jti hold hold'
      · exact absurd (h.issued t jti hold) hfresh
    · rcases hstep.renewing_cases hu with ⟨hold', -⟩ | ⟨-, -, old', heq⟩
      · exact absurd (h.issued u jti hold') hfresh
      · cases heq
        rfl
  · intro row jti hfind htoken
    exact h.settled_step hstep hfind htoken

theorem rotating_of_run {db : Db} {history : List (RotationEvent τ)}
    (habsent : db.workers.find w = none) (hrun : RotationRun jwt w db history s) :
    Rotating w s := by
  apply Run.invariant (I := Rotating w) hrun
  · refine ⟨⟨?_, trivial⟩, ?_, List.Pairwise.nil, ?_, ?_, ?_⟩
    · intro t call loaded hcall
      cases hcall
    · intro claims hmem
      cases hmem
    · rintro t jti ⟨loaded, hcall⟩
      cases hcall
    · rintro t u jti ⟨loaded, hcall⟩
      cases hcall
    · intro row jti hfind
      simp only [RotationState.start, WorkerState.start, habsent] at hfind
      cases hfind
  · intro s e s' h hstep
    exact h.step hstep

/-! ## Passing the check -/

/-- A settled JWT that does not pass does not pass after a step either. -/
theorem Rotating.not_passes_step (h : Rotating w s) (hstep : RotationStep jwt w s e s')
    {claims : WorkerClaims} (hsub : claims.sub = w) (hsettled : s.Settled claims.jti)
    (hfails : ¬claims.Passes s.worker.db) : ¬claims.Passes s'.worker.db := by
  intro hpasses
  obtain ⟨row', hfind', hunrevoked', htoken'⟩ := WorkerClaims.passes_iff.mp hpasses
  rw [hsub] at hfind'
  rcases hstep.row_cases h.loaded hfind' with
    ⟨event, row, rfl, hfind, hchange⟩ | ⟨jti, htoken, hfresh, -⟩
  · cases hchange with
    | kept hother htoken hrevoked =>
        apply hfails
        rw [WorkerClaims.passes_iff, hsub]
        exact ⟨row, hfind, hrevoked ▸ hunrevoked', htoken ▸ htoken'⟩
    | @renewed t jti loaded reply hcall htoken hrevoked =>
        obtain rfl : jti = claims.jti := Option.some.inj (htoken.symm.trans htoken')
        exact hsettled.2 t ⟨loaded, hcall⟩
    | revoked htoken hrevoked => exact hrevoked hunrevoked'
  · obtain rfl : jti = claims.jti := Option.some.inj (htoken.symm.trans htoken')
    exact hfresh hsettled.1

/-! ## Revoked rows -/

/-- The worker has a row with a revocation instant. -/
def RowRevoked (w : UUID) (db : Db) : Prop :=
  ∃ row, db.workers.find w = some row ∧ row.revokedAt ≠ none

theorem RowRevoked.not_passes {db : Db} (h : RowRevoked w db) {claims : WorkerClaims}
    (hsub : claims.sub = w) : ¬claims.Passes db := by
  intro hpasses
  obtain ⟨row, hfind, hrevoked⟩ := h
  obtain ⟨row', hfind', hunrevoked, -⟩ := WorkerClaims.passes_iff.mp hpasses
  rw [hsub, hfind, Option.some.injEq] at hfind'
  rw [hfind'] at hrevoked
  exact hrevoked hunrevoked

theorem RowRevoked.of_commit {s s' : WorkerState τ} (hloaded : Loaded w s)
    (hcommit : WorkerStep w s .revocationCommitted s') : RowRevoked w s'.db := by
  obtain ⟨worker, hfind', -⟩ := hloaded.suspended hcommit
  rcases hcommit.row_cases hloaded with ⟨-, hnone⟩ | ⟨row, row', -, hfind, hchange⟩
  · rw [hnone] at hfind'
    cases hfind'
  · cases hchange with
    | kept hother htoken hrevoked => exact absurd rfl hother
    | revoked htoken hrevoked => exact ⟨row', hfind, hrevoked⟩

/-- Nothing takes a revocation back. -/
theorem RowRevoked.workerStep {s s' : WorkerState τ} {e : WorkerEvent τ}
    (h : RowRevoked w s.db) (hloaded : Loaded w s) (hstep : WorkerStep w s e s') :
    RowRevoked w s'.db := by
  obtain ⟨worker, hfind, hworker⟩ := h
  rcases hstep.row_cases hloaded with ⟨hnone, -⟩ | ⟨row, row', hrow, hfind', hchange⟩
  · rw [hnone] at hfind
    cases hfind
  · obtain rfl : row = worker := Option.some.inj (hrow.symm.trans hfind)
    refine ⟨row', hfind', ?_⟩
    cases hchange with
    | kept hother htoken hrevoked => exact hrevoked ▸ hworker
    | renewed hcall htoken hrevoked => exact hrevoked ▸ hworker
    | revoked htoken hrevoked => exact hrevoked

theorem RowRevoked.step (h : RowRevoked w s.worker.db) (hloaded : Loaded w s.worker)
    (hstep : RotationStep jwt w s e s') : RowRevoked w s'.worker.db := by
  cases hstep with
  | registered hfresh hinsert =>
      obtain ⟨row, hfind, hrevoked⟩ := h
      exact ⟨row, Table.find_of_insert hinsert hfind, hrevoked⟩
  | renewing hstep hissues hfresh => exact h.workerStep hloaded hstep
  | moved hstep hissues => exact h.workerStep hloaded hstep

theorem rowRevoked_of_run {db : Db} {history : List (RotationEvent τ)}
    (habsent : db.workers.find w = none) (hrun : RotationRun jwt w db history s)
    (hcommitted : RotationEvent.moved .revocationCommitted ∈ history) :
    RowRevoked w s.worker.db := by
  refine Run.history_invariant (I := fun history (s : RotationState τ) =>
    RotationEvent.moved .revocationCommitted ∈ history → RowRevoked w s.worker.db)
    hrun ?_ ?_ hcommitted
  · intro hno
    cases hno
  · intro history s e s' hprev h hstep hmem
    have hloaded := (rotating_of_run habsent hprev).loaded
    rcases List.mem_cons.mp hmem with rfl | hold
    · cases hstep with
      | renewing hstep hissues hfresh => cases hissues
      | moved hstep hissues => exact RowRevoked.of_commit hloaded hstep
    · exact (h hold).step hloaded hstep

end Issued

/-! ## Rotation -/

section Main

variable {τ : Type*} [DecidableEq τ]

/-- At most one of the JWTs that have been issued for a worker passes the row check; one
that has passed and fails does not pass again; and none passes once a revocation of the
worker has committed. -/
theorem worker_token_rotation {jwt : WorkerJWTService} {w : UUID} {db : Db}
    {history : List (RotationEvent τ)} {s : RotationState τ}
    (habsent : db.workers.find w = none) (hrun : RotationRun jwt w db history s) :
    s.issued.Pairwise (fun claims claims' =>
        ¬(claims.Passes s.worker.db ∧ claims'.Passes s.worker.db)) ∧
      (∀ claims ∈ s.issued, claims.Passes s.worker.db →
        ∀ newer failing, Run (RotationStep jwt w) s newer failing →
          ¬claims.Passes failing.worker.db →
            ∀ newest later, Run (RotationStep jwt w) failing newest later →
              ¬claims.Passes later.worker.db) ∧
      (RotationEvent.moved .revocationCommitted ∈ history →
        ∀ claims ∈ s.issued, ¬claims.Passes s.worker.db) := by
  have hrotating := rotating_of_run habsent hrun
  refine ⟨?_, ?_, ?_⟩
  · apply hrotating.distinct.imp_of_mem
    rintro claims claims' hmem hmem' hdistinct ⟨hpasses, hpasses'⟩
    obtain ⟨row, hfind, -, htoken⟩ := WorkerClaims.passes_iff.mp hpasses
    obtain ⟨row', hfind', -, htoken'⟩ := WorkerClaims.passes_iff.mp hpasses'
    rw [hrotating.sub_eq claims hmem] at hfind
    rw [hrotating.sub_eq claims' hmem', hfind, Option.some.injEq] at hfind'
    rw [← hfind', htoken, Option.some.injEq] at htoken'
    exact hdistinct htoken'
  · intro claims hmem hpasses newer failing hnewer hfails newest later hnewest
    have hsub := hrotating.sub_eq claims hmem
    have hsettled := hrotating.settled_of_passes hsub hpasses
    obtain ⟨hrotating', hsettled'⟩ : Rotating w failing ∧ failing.Settled claims.jti := by
      apply Run.invariant (I := fun s => Rotating w s ∧ s.Settled claims.jti) hnewer
      · exact ⟨hrotating, hsettled⟩
      · intro s e s' h hstep
        exact ⟨h.1.step hstep, h.2.step hstep⟩
    have hlater : Rotating w later ∧ later.Settled claims.jti ∧
        ¬claims.Passes later.worker.db := by
      apply Run.invariant (I := fun s : RotationState τ => Rotating w s ∧
        s.Settled claims.jti ∧ ¬claims.Passes s.worker.db) hnewest
      · exact ⟨hrotating', hsettled', hfails⟩
      · intro s e s' h hstep
        exact ⟨h.1.step hstep, h.2.1.step hstep, h.1.not_passes_step hstep hsub h.2.1 h.2.2⟩
    exact hlater.2.2
  · intro hcommitted claims hmem
    exact (rowRevoked_of_run habsent hrun hcommitted).not_passes
      (hrotating.sub_eq claims hmem)

end Main

namespace Sample

def registeredWorker : Worker :=
  (newWorker registration 21 1).renewed "first"

/-- The renewal has been authenticated and writes after the revocation. -/
def rotation : List (RotationEvent Unit) :=
  [.moved (.finished () (.renewed "second")), .moved .revocationCommitted,
    .moved (.revocationWritten 4), .moved .revocationLocked,
    .moved (.authenticated () (.renew "second") "first"),
    .registered (registrationServices.jwt.issue 21 "first" 1)]

/-- The worker after its registration. -/
def rotating : WorkerState Unit where
  db := { db with workers := ⟨[worker, registeredWorker], by decide⟩ }
  calls _ := none
  revocation := .idle

theorem run_rotation : ∃ s, RotationRun registrationServices.jwt 21 db rotation s ∧
    s.issued.map (·.jti) = ["second", "first"] ∧
    (s.worker.db.workers.find 21).map (·.tokenJti) = some (some "second") := by
  have hregistered : RotationStep registrationServices.jwt 21
      (.start db) (.registered (registrationServices.jwt.issue 21 "first" 1))
      ⟨rotating, [registrationServices.jwt.issue 21 "first" 1]⟩ :=
    .registered (by simp [RotationState.start])
      (show db.workers.insert ((newWorker registration 21 1).renewed "first") = _ from rfl)
  have hauthenticated : WorkerStep 21 rotating
      (.authenticated () (.renew "second") "first") _ :=
    .authenticated rfl
      (show requireWorker rotating.db 21 "first" = .ok registeredWorker from rfl)
  have hrenewing := (Run.start.next hregistered).next
    (@RotationStep.renewing _ _ registrationServices.jwt 21 _ _ _ "second" 2
      hauthenticated rfl (by decide))
  have hlocked := hrenewing.next (.moved (.revocationLocked rfl
    (show rotating.db.workers.find 21 = some registeredWorker from rfl)) rfl)
  have hwritten := hlocked.next (.moved (@WorkerStep.revocationWritten _ _ 21 _ _ 4 rfl) rfl)
  have hcommitted := hwritten.next (.moved (.revocationCommitted rfl) rfl)
  have hfinished := hcommitted.next (.moved (@WorkerStep.finished _ _ 21 _ ()
    (.renew "second") registeredWorker (.renewed "second") _ rfl (fun _ => rfl) rfl) rfl)
  exact ⟨_, hfinished, rfl, by decide⟩

end Sample

/-- A renewal that writes over a revocation leaves the row with a `jti` that does not
pass. -/
theorem worker_token_rotation_sample :
    ∃ s : RotationState Unit,
      (s.worker.db.workers.find 21).map (·.tokenJti) = some (some "second") ∧
      s.issued.map (·.jti) = ["second", "first"] ∧
      ∀ claims ∈ s.issued, ¬claims.Passes s.worker.db := by
  obtain ⟨s, hrun, hissued, htoken⟩ := Sample.run_rotation
  have habsent : Sample.db.workers.find 21 = none := rfl
  obtain ⟨-, -, hrevoked⟩ := worker_token_rotation habsent hrun
  exact ⟨s, htoken, hissued, hrevoked (by simp [Sample.rotation])⟩

end OrbiGateway
