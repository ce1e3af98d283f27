import OrbiGateway.Invariants.Enrollments
import OrbiGateway.Invariants.KeyAdmission
import OrbiGateway.Invariants.WorkerAdmission

/-!
# Where results come from

A result that the gateway accepts answers a request that a client has queued with a key of
an administrator's, and it comes from an enrolled worker, which pulled the request last and
had proved itself by its newest token when it made the call.
-/

namespace OrbiGateway

open Relational Transition

/-! ## Pulls -/

/-- The worker that has pulled the request last. -/
def lastPuller (id : UUID) (history : List GatewayEvent) : Option UUID :=
  (history.filterMap (GatewayEvent.pullerOf id)).head?

theorem lastClaimant_mirrored {history : List GatewayEvent}
    {owns : List (List (Option Event))} (h : List.Forall₂ Mirrors history owns) (id : UUID) :
    lastClaimant id (operations owns.flatten) = lastPuller id history :=
  congrArg List.head? (filterMap_operations_flatten (h.imp fun _ _ hmirrors => hmirrors.claims id))

section Runs

variable {services : GatewayServices} {history : List GatewayEvent} {s : GatewayState}

/-- A request is held by the worker that has pulled it last. -/
theorem GatewayRun.lastPuller_of_isHeldBy (hrun : GatewayRun services history s)
    {r : OrbiRequest} (hr : r ∈ s.db.requests.rows) {requestId workerId : UUID}
    (hheld : r.isHeldBy requestId workerId = true) :
    lastPuller requestId history = some workerId := by
  obtain ⟨owns, hmirrors, hcore⟩ := hrun.core
  have hformed := rowWellFormed_of_coreRun rfl hcore r hr
  obtain ⟨rfl, hassignee, -, hlive⟩ := OrbiRequest.isHeldBy_iff.mp hheld
  obtain ⟨⟨holder, hholder, hlast⟩, -⟩ := hformed.assigned (hformed.assigned_of_isLive hlive)
  rw [lastClaimant_mirrored hmirrors] at hlast
  exact hlast.trans (hholder.symm.trans hassignee)

/-! ## Authenticated calls -/

/-- The call was admitted earlier in the history, and has loaded this row. -/
def LoadedEarlier (services : GatewayServices) (history : List GatewayEvent) (worker : Worker)
    (request : WorkerRequest) : Prop :=
  ∃ newer older authorization now mid,
    history = newer ++ .acted (.authenticate authorization now request) (.loaded worker) :: older ∧
      GatewayRun services older mid ∧
      authenticateWorker services.registration.jwt services.jwtLibrary mid.db.toDb
        authorization now request.requiredScope = .ok worker

theorem LoadedEarlier.cons {worker : Worker} {request : WorkerRequest}
    (h : LoadedEarlier services history worker request) (e : GatewayEvent) :
    LoadedEarlier services (e :: history) worker request := by
  obtain ⟨newer, older, authorization, now, mid, rfl, hprev, hok⟩ := h
  exact ⟨e :: newer, older, authorization, now, mid, rfl, hprev, hok⟩

theorem GatewayRun.serving_loaded (hrun : GatewayRun services history s) :
    ∀ entry ∈ s.serving, LoadedEarlier services history entry.1 entry.2 := by
  apply Run.history_invariant (I := fun history (s : GatewayState) =>
    ∀ entry ∈ s.serving, LoadedEarlier services history entry.1 entry.2) hrun
  · intro entry hentry
    cases hentry
  · intro history s e s' hprev ih hstep
    have hsublist : ∀ serving : List (Worker × WorkerRequest), serving.Sublist s.serving →
        ∀ entry ∈ serving, LoadedEarlier services (e :: history) entry.1 entry.2 :=
      fun serving hsub entry hentry => (ih entry (hsub.subset hentry)).cons e
    cases hstep.change with
    | loaded hworker =>
        intro entry hentry
        rcases List.mem_cons.mp hentry with rfl | hold
        · exact ⟨[], history, _, _, s, rfl, hprev, hworker⟩
        · exact (ih entry hold).cons _
    | served => exact hsublist _ (List.eraseIdx_sublist _ _)
    | failed hfails hserving hwaiting => exact hsublist _ hserving
    | abandoned hserving hwaiting => exact hsublist _ hserving
    | _ => exact hsublist _ (List.Sublist.refl _)

end Runs

/-! ## Provenance -/

/-- Where the result of a request comes from, by the history before its submission. -/
structure Provenance (services : GatewayServices) (history : List GatewayEvent)
    (worker : Worker) (payload : WorkerResultRequest) (submittedAt : Timestamp) : Prop where
  requested : ∃ row ∈ queuedRows history, row.id = payload.requestId ∧
    ∃ created ∈ createdKeys history, created.2.2.id = row.apiKeyId ∧
      created.1.projectId = row.projectId
  enrolled : ∃ registration ∈ registeredWorkers history, registration.2.workerId = worker.id ∧
    ∃ created ∈ createdEnrollments history,
      registration.tokenId = some created.2.tokenId
  pulled : lastPuller payload.requestId history = some worker.id
  authenticated : ∃ newer older authorization now,
    history = newer ++ .acted
      (.authenticate authorization now (.submitResult payload submittedAt))
      (.loaded worker) :: older ∧ AdmittedBy services older authorization now worker

theorem TokensFresh.of_append {service : WorkerJWTService} {newer older : List GatewayEvent}
    (h : TokensFresh service (newer ++ older)) : TokensFresh service older :=
  (((List.sublist_append_right newer older).filterMap _).map _).nodup h

section Sources

variable {services : GatewayServices} {history : List GatewayEvent} {s : GatewayState}

theorem GatewayRun.requested (hrun : GatewayRun services history s) {r : OrbiRequest}
    (hr : r ∈ s.db.requests.rows) :
    ∃ row ∈ queuedRows history, row.id = r.id ∧
      ∃ created ∈ createdKeys history, created.2.2.id = row.apiKeyId ∧
        created.1.projectId = row.projectId := by
  obtain ⟨row, hrow, hsame⟩ := hrun.rows_queued.1 r hr
  obtain ⟨record, hrecord, hid, hproject⟩ := hrun.references.owners r hr
  obtain ⟨created, hcreated, generated, hissued⟩ := hrun.keysIssued.issued record.credentials
    (List.mem_map_of_mem hrecord)
  obtain ⟨-, -, -, hcreatedId, -, -, -, hcreatedProject, -⟩ := hissued.parsed
  refine ⟨row, hrow, hsame.id.symm, created, hcreated, ?_, ?_⟩
  · exact hcreatedId.trans (hid.trans hsame.apiKeyId)
  · exact hcreatedProject.symm.trans (hproject.trans hsame.projectId)

theorem GatewayRun.enrolled (hrun : GatewayRun services history s) {workerId : UUID}
    (hknown : WorkerKnown s.db.toDb workerId) :
    ∃ registration ∈ registeredWorkers history, registration.2.workerId = workerId ∧
      ∃ created ∈ createdEnrollments history,
        registration.tokenId = some created.2.tokenId := by
  have hmem : workerId ∈ s.db.workers.rows.map Worker.id := hknown
  rw [hrun.workers_registered, List.mem_reverse] at hmem
  obtain ⟨registration, hregistration, hid⟩ := List.mem_map.mp hmem
  have hissued := hrun.enrollmentsIssued
  obtain ⟨record, hrecord, htokenId, -⟩ := hissued.known registration hregistration
  obtain ⟨created, hcreated, hsame⟩ := hissued.issued record hrecord
  refine ⟨registration, hregistration, hid, created, hcreated, htokenId.trans ?_⟩
  exact congrArg (fun row => some row.tokenId) hsame

end Sources

/-- Every result that is accepted in a run that draws fresh `jti`s has its provenance. -/
theorem results_have_provenance {services : GatewayServices} {history : List GatewayEvent}
    {s : GatewayState} {index : ℕ} {worker : Worker} {payload : WorkerResultRequest}
    {submittedAt : Timestamp} {reply : WorkerReply}
    (hrun : GatewayRun services
      (.acted (.serve index) (.served worker (.submitResult payload submittedAt) reply) ::
        history) s)
    (hfresh : TokensFresh services.registration.jwt history) :
    Provenance services history worker payload submittedAt := by
  obtain ⟨mid, hbefore, hlast⟩ := hrun.of_cons
  have hprev : GatewayRun services history mid := hbefore
  cases hlast.change with
  | @served _ _ _ _ db hentry hserved =>
      have hserving := List.mem_of_getElem? hentry
      cases workerRequest_effect hserved with
      | completed hexec =>
          rcases exec_submitResult_cases hexec with ⟨hno, -⟩ | ⟨r, hr, -, -, hheld, -⟩
          · cases hno
          obtain ⟨newer, older, authorization, now, start, hsplit, holder, hok⟩ :=
            hprev.serving_loaded _ hserving
          have hid : r.id = payload.requestId := (OrbiRequest.isHeldBy_iff.mp hheld).1
          refine ⟨?_, ?_, ?_, newer, older, authorization, now, hsplit, ?_⟩
          · rw [← hid]
            exact hprev.requested hr
          · exact hprev.enrolled (servingKnown_of_run hprev _ hserving)
          · exact hprev.lastPuller_of_isHeldBy hr hheld
          · rw [hsplit] at hfresh
            exact holder.named_newest (hfresh.of_append.of_cons) hok

theorem results_have_provenance_answered :
    ∃ history worker, Provenance GatewaySample.services history worker Sample.answer 2 := by
  have hrun := run_runActions GatewaySample.services GatewaySample.answered
  obtain ⟨worker, reply, history, hhistory, hissued⟩ : ∃ worker reply history,
      (runActions GatewaySample.services .initial GatewaySample.answered).1 =
        .acted (.serve 0) (.served worker (.submitResult Sample.answer 2) reply) :: history ∧
      issuedTokens GatewaySample.services.registration.jwt history =
        [GatewaySample.jwt.issue 20 "jti" 0] := ⟨_, _, _, rfl, rfl⟩
  have hfresh : TokensFresh GatewaySample.services.registration.jwt history := by
    rw [TokensFresh, hissued]
    exact List.nodup_singleton _
  rw [hhistory] at hrun
  exact ⟨history, worker, results_have_provenance hrun hfresh⟩

end OrbiGateway
