import OrbiGateway.Invariants.ResultProvenance
import OrbiGateway.System.WorkerRows

/-!
# Workers that stop reporting

A worker reports when it registers and with each heartbeat.  A cycle of the maintenance loop
judges it by its newest report, although heartbeats write with rows that they have loaded
before other calls have committed; and no request goes to a worker that was silent at a
cycle and has not reported since.
-/

namespace OrbiGateway

open Relational Transition

/-! ## Histories and rows -/

/-- The reports of a history with the workers that made them, newest first. -/
def reports (history : List GatewayEvent) : List (UUID × Timestamp) :=
  history.filterMap GatewayEvent.report

/-- The newest report of a worker. -/
def lastReport (history : List GatewayEvent) (workerId : UUID) : Option Timestamp :=
  ((reports history).find? fun report => report.1 == workerId).map Prod.snd

/-- No worker reports twice at one instant. -/
def ReportsDistinct (history : List GatewayEvent) : Prop :=
  (reports history).Nodup

/-- Every row names a report of its worker, and the newest one if they can be told apart. -/
structure ReportsKept (history : List GatewayEvent) (rows : List Worker) : Prop where
  held : ∀ row ∈ rows, ∃ instant, row.lastHeartbeat = some instant ∧
    (row.id, instant) ∈ reports history
  newest : ReportsDistinct history → ∀ row ∈ rows,
    row.lastHeartbeat = lastReport history row.id

section Steps

variable {services : GatewayServices} {history : List GatewayEvent}
  {serving : List (Worker × WorkerRequest)} {rows rows' : List Worker} {e : GatewayEvent}

theorem reports_cons_none (h : e.report = none) : reports (e :: history) = reports history :=
  List.filterMap_cons_none h

theorem reports_cons_some {report : UUID × Timestamp} (h : e.report = some report) :
    reports (e :: history) = report :: reports history :=
  List.filterMap_cons_some h

theorem reports_subset_cons : reports history ⊆ reports (e :: history) :=
  ((List.sublist_cons_self e history).filterMap _).subset

theorem ReportsDistinct.of_append {newer : List GatewayEvent}
    (h : ReportsDistinct (newer ++ history)) : ReportsDistinct history :=
  ((List.sublist_append_right newer history).filterMap _).nodup h

theorem ReportsDistinct.of_cons (h : ReportsDistinct (e :: history)) :
    ReportsDistinct history :=
  ((List.sublist_cons_self e history).filterMap _).nodup h

theorem lastReport_cons_none {workerId : UUID} (h : e.report = none) :
    lastReport (e :: history) workerId = lastReport history workerId := by
  unfold lastReport
  rw [reports_cons_none h]

theorem lastReport_cons_some {reporter workerId : UUID} {instant : Timestamp}
    (h : e.report = some (reporter, instant)) :
    lastReport (e :: history) workerId =
      if reporter = workerId then some instant else lastReport history workerId := by
  unfold lastReport
  rw [reports_cons_some h, List.find?_cons]
  by_cases hsame : reporter = workerId
  · simp [hsame]
  · have hno : ((reporter, instant).1 == workerId) = false := beq_eq_false_iff_ne.mpr hsame
    rw [hno, if_neg hsame]

namespace ReportsKept

theorem kept (h : ReportsKept history rows) (hreport : e.report = none) {f : Worker → Worker}
    (hid : ∀ row, (f row).id = row.id)
    (hheartbeat : ∀ row, (f row).lastHeartbeat = row.lastHeartbeat) :
    ReportsKept (e :: history) (rows.map f) where
  held := by
    intro row' hrow'
    obtain ⟨row, hrow, rfl⟩ := List.mem_map.mp hrow'
    rw [reports_cons_none hreport, hid, hheartbeat]
    exact h.held row hrow
  newest := by
    intro hdistinct row' hrow'
    obtain ⟨row, hrow, rfl⟩ := List.mem_map.mp hrow'
    rw [lastReport_cons_none hreport, hid, hheartbeat]
    exact h.newest hdistinct.of_cons row hrow

theorem updated (h : ReportsKept history rows) (hreport : e.report = none)
    {written : Worker → Prop} [DecidablePred written] {f : Worker → Worker}
    (hid : ∀ row, (f row).id = row.id)
    (hheartbeat : ∀ row, (f row).lastHeartbeat = row.lastHeartbeat) :
    ReportsKept (e :: history) (rows.map fun row => if written row then f row else row) := by
  apply h.kept hreport
  · intro row
    split
    · exact hid row
    · rfl
  · intro row
    split
    · exact hheartbeat row
    · rfl

theorem registered (h : ReportsKept history rows) {new : Worker} {instant : Timestamp}
    (hreport : e.report = some (new.id, instant)) (hnew : new.lastHeartbeat = some instant)
    (hunused : ∀ row ∈ rows, row.id ≠ new.id) :
    ReportsKept (e :: history) (rows ++ [new]) where
  held := by
    intro row hrow
    rw [reports_cons_some hreport]
    rcases List.mem_append.mp hrow with hold | hadded
    · obtain ⟨last, hlast, hmem⟩ := h.held row hold
      exact ⟨last, hlast, List.mem_cons_of_mem _ hmem⟩
    · cases List.mem_singleton.mp hadded
      exact ⟨instant, hnew, List.mem_cons_self⟩
  newest := by
    intro hdistinct row hrow
    rw [lastReport_cons_some hreport]
    rcases List.mem_append.mp hrow with hold | hadded
    · rw [if_neg fun hsame => hunused row hold hsame.symm]
      exact h.newest hdistinct.of_cons row hold
    · cases List.mem_singleton.mp hadded
      rw [if_pos rfl, hnew]

/-- A heartbeat writes its instant, since the one that it has loaded is an older report. -/
theorem reported (h : ReportsKept history rows) {worker : Worker}
    {payload : WorkerHeartbeatRequest} {now : Timestamp}
    (hreport : e.report = some (worker.id, now))
    (hloaded : ∃ instant, worker.lastHeartbeat = some instant ∧
      (worker.id, instant) ∈ reports history) :
    ReportsKept (e :: history) (rows.map fun row =>
      if row.id = worker.id then worker.flush (worker.reported payload now) row else row) where
  held := by
    intro row' hrow'
    obtain ⟨row, hrow, rfl⟩ := List.mem_map.mp hrow'
    rw [reports_cons_some hreport]
    obtain ⟨last, hlast, hmem⟩ := h.held row hrow
    by_cases hid : row.id = worker.id
    · rw [if_pos hid]
      rcases flushColumn_cases worker.lastHeartbeat (some now) row.lastHeartbeat with
        hkept | hwritten
      · exact ⟨last, hkept.trans hlast, List.mem_cons_of_mem _ hmem⟩
      · refine ⟨now, hwritten, ?_⟩
        have hsame : (worker.flush (worker.reported payload now) row).id = worker.id := hid
        rw [hsame]
        exact List.mem_cons_self
    · rw [if_neg hid]
      exact ⟨last, hlast, List.mem_cons_of_mem _ hmem⟩
  newest := by
    intro hdistinct row' hrow'
    obtain ⟨row, hrow, rfl⟩ := List.mem_map.mp hrow'
    rw [lastReport_cons_some hreport]
    by_cases hid : row.id = worker.id
    · have hsame : worker.id = (worker.flush (worker.reported payload now) row).id := hid.symm
      have hnew : some now ≠ worker.lastHeartbeat := by
        intro hequal
        obtain ⟨instant, hinstant, hmem⟩ := hloaded
        cases hequal.trans hinstant
        unfold ReportsDistinct at hdistinct
        rw [reports_cons_some hreport, List.nodup_cons] at hdistinct
        exact hdistinct.1 hmem
      have hno : (some now == worker.lastHeartbeat) = false := beq_eq_false_iff_ne.mpr hnew
      rw [if_pos hid, if_pos hsame]
      simp only [Worker.flush, Worker.reported, flushColumn, hno, Bool.false_eq_true, if_false]
    · rw [if_neg hid, if_neg fun hsame => hid hsame.symm]
      exact h.newest hdistinct.of_cons row hrow

theorem step (h : ReportsKept history rows)
    (hserving : ∀ entry ∈ serving, ∃ instant, entry.1.lastHeartbeat = some instant ∧
      (entry.1.id, instant) ∈ reports history)
    (hchange : WorkerRowsChange services serving rows e rows') :
    ReportsKept (e :: history) rows' := by
  cases hchange with
  | kept hleaves =>
      have hsame := h.kept hleaves.report (f := id) (fun _ => rfl) (fun _ => rfl)
      rwa [List.map_id] at hsame
  | registered htoken hunused => exact h.registered rfl rfl hunused
  | reported hentry => exact h.reported rfl (hserving _ hentry)
  | renewed hentry =>
      refine h.updated rfl ?_ ?_
      · intro row
        rfl
      · intro row
        simp [Worker.flush, Worker.renewed, flushColumn]
  | revoked hknown =>
      refine h.updated rfl ?_ ?_
      · intro row
        rfl
      · intro row
        simp only [Worker.flush, Worker.revoked, flushColumn_loaded]
  | marked =>
      refine h.updated rfl ?_ ?_
      · intro row
        rfl
      · intro row
        rfl

end ReportsKept

/-- A worker becomes online by a report only. -/
theorem WorkerRowsChange.online_cases (h : WorkerRowsChange services serving rows e rows')
    {row' : Worker} (hrow' : row' ∈ rows') (honline : row'.status = .online) :
    (∃ instant, e.report = some (row'.id, instant)) ∨
      ∃ row ∈ rows, row.id = row'.id ∧ row.status = .online := by
  cases h with
  | kept hleaves => exact .inr ⟨row', hrow', rfl, honline⟩
  | registered htoken hunused =>
      rcases List.mem_append.mp hrow' with hold | hadded
      · exact .inr ⟨row', hold, rfl, honline⟩
      · cases List.mem_singleton.mp hadded
        exact .inl ⟨_, rfl⟩
  | @reported index worker payload now reply hentry =>
      obtain ⟨row, hrow, rfl⟩ := List.mem_map.mp hrow'
      by_cases hid : row.id = worker.id
      · rw [if_pos hid]
        exact .inl ⟨now, congrArg (fun id => some (id, now)) hid.symm⟩
      · rw [if_neg hid] at honline ⊢
        exact .inr ⟨row, hrow, rfl, honline⟩
  | renewed hentry =>
      obtain ⟨row, hrow, rfl⟩ := List.mem_map.mp hrow'
      refine .inr ⟨row, hrow, ?_, ?_⟩
      · split
        · rfl
        · rfl
      · split at honline
        · simpa [Worker.flush, Worker.renewed, flushColumn] using honline
        · exact honline
  | revoked hknown =>
      obtain ⟨row, hrow, rfl⟩ := List.mem_map.mp hrow'
      split at honline
      · simp only [Worker.flush, flushColumn_loaded, Worker.revoked] at honline
        cases honline
      · rename_i hid
        rw [if_neg hid]
        exact .inr ⟨row, hrow, rfl, honline⟩
  | marked =>
      obtain ⟨row, hrow, rfl⟩ := List.mem_map.mp hrow'
      split at honline
      · cases honline
      · rename_i hfresh
        rw [if_neg hfresh]
        exact .inr ⟨row, hrow, rfl, honline⟩

end Steps

/-! ## Runs -/

section Runs

variable {services : GatewayServices} {history : List GatewayEvent} {s : GatewayState}

/-- The worker calls that are being served have loaded reports of their workers. -/
def ServingReported (history : List GatewayEvent) (s : GatewayState) : Prop :=
  ∀ entry ∈ s.serving, ∃ instant, entry.1.lastHeartbeat = some instant ∧
    (entry.1.id, instant) ∈ reports history

theorem ServingReported.step {s' : GatewayState} {e : GatewayEvent}
    (h : ServingReported history s) (hkept : ReportsKept history s.db.workers.rows)
    (hstep : GatewayStep services s e s') : ServingReported (e :: history) s' := by
  have hold : ∀ entry ∈ s.serving, ∃ instant, entry.1.lastHeartbeat = some instant ∧
      (entry.1.id, instant) ∈ reports (e :: history) := by
    intro entry hentry
    obtain ⟨instant, hinstant, hmem⟩ := h entry hentry
    exact ⟨instant, hinstant, reports_subset_cons hmem⟩
  have hsublist : s'.serving.Sublist s.serving → ServingReported (e :: history) s' :=
    fun hsub entry hentry => hold entry (hsub.subset hentry)
  cases hstep.change with
  | @loaded authorization now request worker hworker =>
      obtain ⟨-, claims, -, -, hrow, -⟩ := authenticateWorker_spec hworker
      have hmem := Table.mem_of_find (requireWorker_spec hrow).1
      intro entry hentry
      rcases List.mem_cons.mp hentry with rfl | holder
      · obtain ⟨instant, hinstant, hreport⟩ := hkept.held worker hmem
        exact ⟨instant, hinstant, reports_subset_cons hreport⟩
      · exact hold entry holder
  | served => exact hsublist (List.eraseIdx_sublist _ _)
  | failed hfails hserving hwaiting => exact hsublist hserving
  | abandoned hserving hwaiting => exact hsublist hserving
  | _ => exact hold

theorem GatewayRun.reportsKept (hrun : GatewayRun services history s) :
    ReportsKept history s.db.workers.rows := by
  have hboth : ReportsKept history s.db.workers.rows ∧ ServingReported history s := by
    apply Run.history_invariant (I := fun history (s : GatewayState) =>
      ReportsKept history s.db.workers.rows ∧ ServingReported history s) hrun
    · refine ⟨⟨?_, ?_⟩, ?_⟩
      · intro row hrow
        cases hrow
      · intro _ row hrow
        cases hrow
      · intro entry hentry
        cases hentry
    · intro history s e s' _ ih hstep
      exact ⟨ih.1.step ih.2 hstep.workerRows, ih.2.step ih.1 hstep⟩
  exact hboth.1

/-! ## Silence -/

/-- The worker's newest report is older than the cutoff. -/
def isSilent (history : List GatewayEvent) (cutoff : Timestamp) (workerId : UUID) : Bool :=
  match lastReport history workerId with
  | some instant => instant < cutoff
  | none => false

/-- At every cycle of the maintenance loop the worker was not silent, or it has reported
since. -/
def ReportingSince (services : GatewayServices) (history : List GatewayEvent)
    (workerId : UUID) : Prop :=
  ∀ after before recoverNow staleNow recovered offline,
    history = after ++
        .acted (.maintain recoverNow staleNow) (.maintained recovered offline) :: before →
      (∃ instant, (workerId, instant) ∈ reports after) ∨
        ∃ instant, lastReport before workerId = some instant ∧
          services.health.cutoff staleNow ≤ instant

/-- What the maintenance loop does to silent workers, and what is kept from them. -/
structure WorkersMonitored (services : GatewayServices) (history : List GatewayEvent)
    (s : GatewayState) : Prop where
  marked : ∀ recoverNow staleNow recovered offline s',
    act services s (.maintain recoverNow staleNow) = (.maintained recovered offline, s') →
      s'.db.workers.rows = s.db.workers.rows.map fun row =>
        if row.status == .online && isSilent history (services.health.cutoff staleNow) row.id
        then row.markedOffline else row
  online : ∀ row ∈ s.db.workers.rows, row.status = .online →
    ReportingSince services history row.id
  pulls : ∀ index worker now r s',
    act services s (.serve index) = (.served worker (.pullRequest now) (.pulled (some r)), s') →
      ∃ newer older authorization authenticatedAt, history = newer ++ .acted
        (.authenticate authorization authenticatedAt (.pullRequest now)) (.loaded worker) ::
          older ∧ ReportingSince services older worker.id

theorem GatewayRun.isStale_eq (hrun : GatewayRun services history s)
    (hdistinct : ReportsDistinct history) {row : Worker} (hrow : row ∈ s.db.workers.rows)
    (cutoff : Timestamp) :
    row.isStale cutoff = (row.status == .online && isSilent history cutoff row.id) := by
  have hlast := hrun.reportsKept.newest hdistinct row hrow
  unfold Worker.isStale isSilent
  cases hreport : lastReport history row.id with
  | none => simp only [hlast, hreport]
  | some instant => simp only [hlast, hreport]

/-- Only a report makes a worker online again. -/
theorem online_or_reported {start : GatewayState} (workerId : UUID)
    (hrun : Run (GatewayStep services) start history s)
    (hstart : ∀ row ∈ start.db.workers.rows, row.id = workerId → row.status ≠ .online) :
    (∃ instant, (workerId, instant) ∈ reports history) ∨
      ∀ row ∈ s.db.workers.rows, row.id = workerId → row.status ≠ .online := by
  have hcases := hrun.kept_or_mem
    (P := fun s : GatewayState => ∀ row ∈ s.db.workers.rows, row.id = workerId →
      row.status ≠ .online)
    (Q := fun e => ∃ instant, e.report = some (workerId, instant)) hstart (by
      intro s e s' hoffline hstep
      by_cases hreport : ∃ instant, e.report = some (workerId, instant)
      · exact .inl hreport
      refine .inr fun row' hrow' hid honline => ?_
      rcases hstep.workerRows.online_cases hrow' honline with
        ⟨instant, hreported⟩ | ⟨row, hrow, hsame, hold⟩
      · exact hreport ⟨instant, hid ▸ hreported⟩
      · exact hoffline row hrow (hsame.trans hid) hold)
  rcases hcases with ⟨e, he, instant, hreport⟩ | hoffline
  · exact .inl ⟨instant, List.mem_filterMap.mpr ⟨e, he, hreport⟩⟩
  · exact .inr hoffline

theorem GatewayRun.reportingSince (hrun : GatewayRun services history s)
    (hdistinct : ReportsDistinct history) {row : Worker} (hrow : row ∈ s.db.workers.rows)
    (honline : row.status = .online) : ReportingSince services history row.id := by
  rintro after before recoverNow staleNow recovered offline rfl
  obtain ⟨marked, hmarked, hafter⟩ := hrun.split
  obtain ⟨start, hbefore, hcycle⟩ := hmarked.of_cons
  have hstart : GatewayRun services before start := hbefore
  have hdistinctBefore : ReportsDistinct before := hdistinct.of_append.of_cons
  have hrows : marked.db.workers.rows = start.db.workers.rows.map fun row =>
      if row.isStale (services.health.cutoff staleNow) then row.markedOffline else row := by
    cases hcycle.change with
    | maintained hmaintain => exact rows_maintain hmaintain
  by_cases hcleared : ∃ row' ∈ marked.db.workers.rows, row'.id = row.id ∧ row'.status = .online
  · -- the cycle has left the worker online, so its newest report was recent
    obtain ⟨row', hrow', hid, honline'⟩ := hcleared
    rw [hrows] at hrow'
    obtain ⟨old, hold, rfl⟩ := List.mem_map.mp hrow'
    right
    split at honline'
    · cases honline'
    · rename_i hfresh
      rw [if_neg hfresh] at hid
      obtain ⟨instant, hinstant, -⟩ := hstart.reportsKept.held old hold
      refine ⟨instant, ?_, ?_⟩
      · rw [← hid, ← hstart.reportsKept.newest hdistinctBefore old hold, hinstant]
      · rw [Worker.isStale_iff] at hfresh
        by_contra hlate
        exact hfresh ⟨honline', instant, hinstant, not_le.mp hlate⟩
  · -- the worker was not online after the cycle, so it has reported since
    have hoffline : ∀ row' ∈ marked.db.workers.rows, row'.id = row.id →
        row'.status ≠ .online := by
      intro row' hrow' hid honline'
      exact hcleared ⟨row', hrow', hid, honline'⟩
    rcases online_or_reported row.id hafter hoffline with hreported | hstill
    · exact .inl hreported
    · exact absurd honline (hstill row hrow rfl)

/-- In every run in which the reports of a worker can be told apart, the maintenance loop
takes exactly the online workers offline whose newest report is too old, and only a worker
that was not silent, or has reported since, is handed a request. -/
theorem silent_workers_get_nothing (hrun : GatewayRun services history s)
    (hdistinct : ReportsDistinct history) : WorkersMonitored services history s where
  marked := by
    intro recoverNow staleNow recovered offline s' hact
    cases (GatewayStep.acted hact).change with
    | maintained hmaintain =>
        refine (rows_maintain hmaintain).trans (List.map_congr_left fun row hrow => ?_)
        rw [hrun.isStale_eq hdistinct hrow]
  online := fun row hrow honline => hrun.reportingSince hdistinct hrow honline
  pulls := by
    intro index worker now r s' hact
    cases (GatewayStep.acted hact).change with
    | served hentry hserved =>
        cases workerRequest_effect hserved with
        | claimed hstatus hexec =>
            obtain ⟨newer, older, authorization, authenticatedAt, start, rfl, hbefore, hok⟩ :=
              hrun.serving_loaded _ (List.mem_of_getElem? hentry)
            refine ⟨newer, older, authorization, authenticatedAt, rfl, ?_⟩
            have hdistinctBefore : ReportsDistinct older := hdistinct.of_append.of_cons
            obtain ⟨-, claims, -, -, hrow, -⟩ := authenticateWorker_spec hok
            have hmem := Table.mem_of_find (requireWorker_spec hrow).1
            exact hbefore.reportingSince hdistinctBefore hmem hstatus

end Runs

namespace GatewaySample

/-- The worker has been silent for more than its 90 seconds when the maintenance loop runs,
and pulls after that. -/
def silenced : List Action :=
  setUp ++ [.client clientHeader clock (.chat none Sample.payload ⟨100, 0, Sample.day, 0⟩),
    .maintain 100000000 100000000,
    .authenticate (some "Bearer jti") 101000000 (.pullRequest 101000000), .serve 0]

theorem depth_le : (0 : ℤ) ≤ 100000 := by decide

def ready : WorkerHeartbeatRequest where
  status := .online
  currentQueueDepth := 0
  capabilities := []
  currentQueueDepth_nonneg := le_refl 0
  currentQueueDepth_le := depth_le

/-- The row that the cycle leaves, and the one that the report makes of it. -/
def stale : Worker := ((newWorker demoWorker 20 0).renewed "jti").markedOffline

def back : Worker := stale.reported ready 102000000

/-- The pull after the cycle is answered without the request that waits. -/
theorem exists_silenced : ∃ history s record, GatewayRun services history s ∧
    reports history = [(20, 0)] ∧ s.db.workers.rows = [stale] ∧
    s.db.requests.rows = [record] ∧ record.assignedTo = none ∧
    record.isClaimable back 103000000 = true :=
  ⟨_, _, _, run_runActions services silenced, rfl, rfl, rfl, rfl, rfl⟩

/-- The worker reports and pulls again; newest event first. -/
def returned : List GatewayEvent :=
  [.acted (.authenticate (some "Bearer jti") 103000000 (.pullRequest 103000000))
      (.loaded back),
    .acted (.serve 0) (.served stale (.heartbeat ready 102000000) .healthRecorded),
    .acted (.authenticate (some "Bearer jti") 102000000 (.heartbeat ready 102000000))
      (.loaded stale)]

section Returned

variable {history : List GatewayEvent} {s : GatewayState}

theorem authenticateWorker_jti {worker : Worker} (hrows : s.db.workers.rows = [worker])
    (hid : worker.id = 20) (hrevoked : worker.revokedAt = none)
    (hjti : worker.tokenJti = some "jti") {now : Timestamp} {requiredScope : String}
    (hverify : services.registration.jwt.verify services.jwtLibrary "jti" now =
      some (jwt.issue 20 "jti" 0).truncated)
    (hscope : requiredScope ∈ (jwt.issue 20 "jti" 0).truncated.scope) :
    authenticateWorker services.registration.jwt services.jwtLibrary s.db.toDb
      (some "Bearer jti") now requiredScope = .ok worker := by
  have htoken : bearerKey (some "Bearer jti") = some "jti" := by decide
  have hfind : s.db.workers.find 20 = some worker :=
    Table.find_eq_some_iff.mpr ⟨by simp [hrows], hid⟩
  rw [authenticateWorker_of_verified htoken hverify hscope]
  exact requireWorker_eq_ok_iff.mpr ⟨hfind, hrevoked, hjti⟩

theorem rows_heartbeat (hrows : s.db.workers.rows = [stale]) :
    (heartbeat s.db.toDb stale ready 102000000).workers.rows = [back] := by
  have hcapabilities : flushColumn stale.capabilities (.obj ready.capabilities)
      stale.capabilities = .obj ready.capabilities := by
    rcases flushColumn_cases stale.capabilities (.obj ready.capabilities)
      stale.capabilities with h | h
    · exact h
    · exact h
  have hback : stale.flush back stale = back := by
    simp [Worker.flush, flushColumn_loaded, back, Worker.reported, hcapabilities]
  change (s.db.workers.rows.map fun row =>
    if row.id == stale.id then stale.flush back row else row) = [back]
  rw [hrows, List.map_singleton, if_pos (beq_self_eq_true _), hback]

theorem run_returned (hrun : GatewayRun services history s)
    (hrows : s.db.workers.rows = [stale]) :
    ∃ s', GatewayRun services (returned ++ history) s' ∧
      s'.db.requests = s.db.requests ∧
      s'.serving = (back, .pullRequest 103000000) :: s.serving := by
  have hauthenticated : authenticateWorker services.registration.jwt services.jwtLibrary
      s.db.toDb (some "Bearer jti") 102000000
        (WorkerRequest.heartbeat ready 102000000).requiredScope = .ok stale :=
    authenticateWorker_jti hrows rfl rfl rfl rfl (by decide)
  have hloaded := hrun.next (.acted (act_authenticate hauthenticated))
  have hreported := hloaded.next (@GatewayStep.acted services _ _ (.serve 0) _ rfl)
  have hauthenticated' : authenticateWorker services.registration.jwt services.jwtLibrary
      (heartbeat s.db.toDb stale ready 102000000) (some "Bearer jti") 103000000
        (WorkerRequest.pullRequest 103000000).requiredScope = .ok back :=
    @authenticateWorker_jti { s with db := { s.db with
      toDb := heartbeat s.db.toDb stale ready 102000000 } } back (rows_heartbeat hrows)
      rfl rfl rfl _ _ rfl (by decide)
  exact ⟨_, hreported.next (.acted (act_authenticate hauthenticated')), rfl, rfl⟩

theorem act_serve_pull {record : OrbiRequest} (hrows : s.db.requests.rows = [record])
    (hclaimable : record.isClaimable back 103000000 = true)
    {serving : List (Worker × WorkerRequest)}
    (hserving : s.serving = (back, .pullRequest 103000000) :: serving) :
    ∃ s', act services s (.serve 0) = (.served back (.pullRequest 103000000)
      (.pulled (some (record.claimed back 120 103000000))), s') := by
  have hselect : QueueService.selectClaimable s.db.toDb back 103000000 (fun _ => false) =
      some record := by
    simp [QueueService.selectClaimable, hrows, hclaimable]
  have honline : back.status = .online := rfl
  simp [act, serveWorker, hserving, WorkerRequest.call, WorkerCall.run, pullRequest, honline,
    QueueService.claimNext, hselect, services]

end Returned

end GatewaySample

open GatewaySample in
/-- The worker gets nothing after the cycle, until it has reported. -/
theorem silent_workers_get_nothing_returned : ∃ history s s' record,
    reports history = [(20, 0)] ∧ s.db.requests.rows = [record] ∧
      record.assignedTo = none ∧ WorkersMonitored services history s ∧
      WorkersMonitored services (returned ++ history) s' ∧
      ∃ final, act services s' (.serve 0) = (.served back (.pullRequest 103000000)
        (.pulled (some (record.claimed back 120 103000000))), final) := by
  obtain ⟨history, s, record, hrun, hreports, hworkers, hrequests, hnone, hclaimable⟩ :=
    exists_silenced
  obtain ⟨s', hrun', hsame, hserving⟩ := run_returned hrun hworkers
  have hreports' : reports (returned ++ history) = [(20, 102000000), (20, 0)] := by
    rw [reports, List.filterMap_append, ← reports, ← reports, hreports]
    rfl
  have hdistinct : ReportsDistinct history := by
    rw [ReportsDistinct, hreports]
    exact List.nodup_singleton _
  have hdistinct' : ReportsDistinct (returned ++ history) := by
    rw [ReportsDistinct, hreports']
    decide
  exact ⟨history, s, s', record, hreports, hrequests, hnone,
    silent_workers_get_nothing hrun hdistinct, silent_workers_get_nothing hrun' hdistinct',
    act_serve_pull (by rw [hsame, hrequests]) hclaimable hserving⟩

end OrbiGateway
