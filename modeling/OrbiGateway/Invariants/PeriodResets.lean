import OrbiGateway.Invariants.HardLimit

/-!
# Period resets

`reserve` restarts a counter whenever the stored date differs from the date that it
reads, also when that date is an earlier one.  The counter then starts from nothing for
a day on which the project already has requests, and the day can be filled a second
time.  The limits hold for every date along the runs that restart counters only for dates
with empty books.
-/

namespace OrbiGateway

open Relational Transition

/-- For every date, what the requests of a project hold or have used is within its
limit. -/
def DatedWithinLimits (db : Db) : Prop :=
  ∀ project ∈ db.projects.rows, ∀ (period : Period) (date : Date),
    datedLedger db period project.id date ≤ period.limit project

/-- The tokens that a worker reports do not exceed the reservation. -/
def ReportWithin (db : Db) : Event → Prop
  | .performed (.submitResult worker payload _) _ _ =>
      ∀ r ∈ db.requests.rows, r.isHeldBy payload.requestId worker.id = true →
        payload.inputTokens + payload.outputTokens ≤ r.reservedTokens
  | _ => True

/-- A step of the gateway with workers that report within their reservations. -/
def ReportingStep (db : Db) (e : Event) (db' : Db) : Prop :=
  Step db e db' ∧ ReportWithin db e

/-- No run oversubscribes a date, whatever dates the reservations read. -/
def NeverOversubscribed (db₀ : Db) : Prop :=
  ∀ history db, Run ReportingStep db₀ history db → DatedWithinLimits db

/-- If the event reserves, each counter that it restarts is restarted for a date on which
the project has no tokens on its books. -/
def RestartsEmpty (db : Db) (e : Event) : Prop :=
  ∀ record, e.reservation = some record →
    ∀ project, db.projects.find record.projectId = some project → ∀ period : Period,
      period.stamp project ≠ period.start record.budgetDay →
        datedLedger db period record.projectId (period.start record.budgetDay) = 0

/-- A step that also restarts counters for empty dates only. -/
def RestartingStep (db : Db) (e : Event) (db' : Db) : Prop :=
  ReportingStep db e db' ∧ RestartsEmpty db e

/-! ## Settling -/

section Settling

variable {db db' : Db} {history : List Event} {op : Op} {reply : Reply}

theorem settled_le_reserved {settled : List Settlement}
    (hrows : ∀ r ∈ db.requests.rows, ReservedRow history r)
    (hreport : ReportWithin db (.performed op reply settled)) :
    ∀ s ∈ settlements db op, s.actualTokens ≤ s.reservedTokens := by
  by_cases hop : ∃ worker payload now, op = .submitResult worker payload now
  · obtain ⟨worker, payload, now, rfl⟩ := hop
    intro s hs
    obtain ⟨r, hr, hsettlement⟩ := mem_settlements hs
    obtain ⟨hheld, hsettled⟩ := Option.ite_none_right_eq_some.mp hsettlement
    rw [← Option.some.inj hsettled]
    exact hreport r hr hheld
  · apply actual_le_reserved fun r hr => (hrows r hr).reserved_pos
    intro worker payload now heq
    exact hop ⟨worker, payload, now, heq⟩

/-- A row holds or has used no more after an operation than before. -/
theorem charge_after_le (hexec : exec db op = .ok (reply, db'))
    (hwithin : ∀ s ∈ settlements db op, s.actualTokens ≤ s.reservedTokens)
    {r : OrbiRequest} (hr : r ∈ db.requests.rows) :
    (r.after op reply).charge ≤ r.charge := by
  rcases OrbiRequest.settled_or_unsettled (exec_rowStep hexec hr) with
    hkept | ⟨actual, hsettled⟩
  · exact le_of_eq hkept.charge_eq
  · obtain ⟨-, -, -, hopen⟩ := OrbiRequest.settlement_spec hsettled.settlement_eq
    have hmem : r.settledBy actual ∈ settlements db op := by
      rw [(settlements_perm db op).mem_iff]
      exact List.mem_filterMap.mpr ⟨r, hr, hsettled.settlement_eq⟩
    rw [hsettled.charge_eq, OrbiRequest.charge_of_isOpen hopen]
    exact hwithin _ hmem

theorem datedLedger_settled_le (hexec : exec db op = .ok (reply, db'))
    (hnone : reply.newRows = [])
    (hwithin : ∀ s ∈ settlements db op, s.actualTokens ≤ s.reservedTokens)
    (period : Period) (projectId : UUID) (date : Date) :
    datedLedger db' period projectId date ≤ datedLedger db period projectId date := by
  have hrows := exec_requests hexec
  rw [hnone, List.append_nil] at hrows
  simp only [datedLedger, Table.sumBy, hrows, List.map_map]
  apply List.sum_le_sum
  intro r hr
  have hsame : (r.after op reply).projectId = r.projectId ∧
      (r.after op reply).budgetDate period = r.budgetDate period := by
    obtain ⟨-, hproject, -, -, -, -, hday, hmonth, -⟩ := (exec_rowStep hexec hr).fixed
    cases period with
    | daily => exact ⟨hproject, hday⟩
    | monthly => exact ⟨hproject, hmonth⟩
  simp only [Function.comp_apply, hsame.1, hsame.2]
  split
  · exact charge_after_le hexec hwithin hr
  · exact le_refl 0

theorem datedWithinLimits_of_settled (hexec : exec db op = .ok (reply, db'))
    (hnone : reply.newRows = [])
    (hwithin : ∀ s ∈ settlements db op, s.actualTokens ≤ s.reservedTokens)
    (h : DatedWithinLimits db) : DatedWithinLimits db' := by
  intro project' hproject' period date
  rw [exec_projects hexec hnone] at hproject'
  obtain ⟨project, hproject, rfl⟩ := List.mem_map.mp hproject'
  have hle := datedLedger_settled_le hexec hnone hwithin period project.id date
  simp only [id_settleProject, limit_settleProject]
  exact hle.trans (h project hproject period date)

end Settling

/-! ## Reserving -/

/-- A reservation fills the dates that it is stamped with up to the limit at most, if its
counters count all that is on their books. -/
theorem datedWithinLimits_of_queued {db db' : Db} {call : ChatCall} {record : OrbiRequest}
    {project project' : Project}
    (hexec : exec db (.chat call) = .ok (.chat (.queued record), db'))
    (hnew : NewRow db call record project project')
    (hput : db'.projects = db.projects.put project')
    (hconserved : BudgetConserved db') (h : DatedWithinLimits db) :
    DatedWithinLimits db' := by
  have hreserved := Project.reserve_spec hnew.reserve
  have hid : project.id = record.projectId := Table.key_of_find hnew.findProject
  have hmem : project ∈ db.projects.rows := Table.mem_of_find hnew.findProject
  intro p hp period date
  have hp' := hp
  rw [hput] at hp'
  by_cases hdate : p.id = record.projectId ∧ period.start record.budgetDay = date
  · -- the date of the reservation, on which the counter stands now
    obtain ⟨hpid, rfl⟩ := hdate
    have hsame : p = project' := by
      rcases Table.mem_put hp' with hsame | ⟨-, hne⟩
      · exact hsame
      · exact absurd (hpid.trans (hid.symm.trans hreserved.id_eq.symm)) hne
    subst hsame
    have hused := hconserved p hp period
    rw [ledger_eq_datedLedger, hreserved.stamp_eq] at hused
    rw [← hused]
    exact hreserved.used_le period
  · -- no other date has a new row
    have hother : (record.projectId == p.id && record.budgetDate period == date) = false := by
      rw [Bool.eq_false_iff]
      intro hyes
      simp only [Bool.and_eq_true, beq_iff_eq, hnew.budgetDate_eq] at hyes
      exact hdate ⟨hyes.1.symm, hyes.2⟩
    rw [datedLedger_queued hexec hnew.status, hother, if_neg Bool.false_ne_true, Int.add_zero]
    rcases Table.mem_put hp' with rfl | ⟨hold, -⟩
    · rw [hreserved.limit_eq, hreserved.id_eq]
      exact h project hmem period date
    · exact h p hold period date

/-! ## Runs -/

/-- What is kept along a run that restarts counters for empty dates only. -/
structure BooksKept (db : Db) : Prop where
  conserved : BudgetConserved db
  within : DatedWithinLimits db

theorem BooksKept.step {history : List Event} {db db' : Db} {e : Event} (h : BooksKept db)
    (hrows : ∀ r ∈ db.requests.rows, ReservedRow history r)
    (hstep : RestartingStep db e db') : BooksKept db' := by
  obtain ⟨⟨hlast, hreport⟩, hrestart⟩ := hstep
  cases hlast with
  | @performed db' op reply hexec =>
      cases hnew : reply.newRows with
      | nil =>
          have hwithin := settled_le_reserved hrows hreport
          exact ⟨conserved_of_settled hexec hnew h.conserved hrows,
            datedWithinLimits_of_settled hexec hnew hwithin h.within⟩
      | cons record rest =>
          have hmem : record ∈ reply.newRows := by simp [hnew]
          obtain ⟨call, project, project', rfl, rfl, hrow, hput⟩ := exec_newRow hexec hmem
          have hid : project.id = record.projectId := Table.key_of_find hrow.findProject
          have hempty := hrestart record rfl project hrow.findProject
          rw [← hid] at hempty
          have hconserved := conserved_of_queued hexec hrow hput h.conserved hempty
          exact ⟨hconserved, datedWithinLimits_of_queued hexec hrow hput hconserved h.within⟩
  | failed => exact h
  | rescanned hperm =>
      refine ⟨?_, ?_⟩
      · intro project hproject period
        rw [h.conserved project hproject period]
        exact (Table.sumBy_perm hperm _).symm
      · intro project hproject period date
        exact (Table.sumBy_perm hperm _).trans_le (h.within project hproject period date)

theorem BooksKept.start {db : Db} (hfresh : Fresh db) (hlimits : LimitsNonneg db) :
    BooksKept db := by
  have hempty : ∀ period projectId date, datedLedger db period projectId date = 0 := by
    intro period projectId date
    rw [datedLedger, Table.sumBy, hfresh.requests_empty]
    rfl
  refine ⟨?_, ?_⟩
  · intro project hproject period
    rw [hfresh.counters_zero project hproject period, ledger_eq_datedLedger, hempty]
  · intro project hproject period date
    rw [hempty]
    exact hlimits project hproject period

theorem history_of_restartingRun {db₀ db : Db} {history : List Event}
    (hrun : Run RestartingStep db₀ history db) : History db₀ history db :=
  hrun.mono fun _ _ _ hstep => hstep.1.1

/-! ## A day that is filled twice -/

namespace Sample

def tightProject : Project := { project with dailyTokenLimit := 15 }

def tightDb : Db := { db with projects := db.projects.put tightProject }

/-- A call whose reservation reads this date. -/
def callOn (requestId : UUID) (date : Date) : ChatCall :=
  { call requestId none 0 with readings := ⟨requestId, 0, date, 0⟩ }

/-- Reservations of ten tokens each: on one day, on the next, and on the first again. -/
def revisited : List Op :=
  [.chat (callOn 100 day), .chat (callOn 101 nextDay), .chat (callOn 102 day)]

theorem fresh_tightDb : Fresh tightDb where
  requests_empty := rfl
  usageRecords_empty := rfl
  counters_zero := by
    intro project hproject period
    cases List.mem_singleton.mp hproject
    cases period <;> rfl

theorem limitsNonneg_tightDb : LimitsNonneg tightDb := by
  intro project hproject period
  cases List.mem_singleton.mp hproject
  cases period <;> decide

end Sample

theorem reportingStep_perform_chat (db : Db) (call : ChatCall) :
    ReportingStep db (perform db (.chat call)).1 (perform db (.chat call)).2 := by
  refine ⟨step_perform db (.chat call), ?_⟩
  unfold perform
  split
  · trivial
  · trivial

/-- Twenty tokens are reserved on a day whose limit is fifteen. -/
theorem day_oversubscribed :
    Fresh Sample.tightDb ∧ LimitsNonneg Sample.tightDb ∧
      ¬NeverOversubscribed Sample.tightDb := by
  refine ⟨Sample.fresh_tightDb, Sample.limitsNonneg_tightDb, ?_⟩
  intro hnever
  have hrun : Run ReportingStep Sample.tightDb _ (runOps Sample.tightDb Sample.revisited).2 :=
    ((Run.start.next (reportingStep_perform_chat _ (Sample.callOn 100 Sample.day))).next
      (reportingStep_perform_chat _ (Sample.callOn 101 Sample.nextDay))).next
      (reportingStep_perform_chat _ (Sample.callOn 102 Sample.day))
  have hwithin := hnever _ _ hrun
  have hdaily : ∀ project ∈ (runOps Sample.tightDb Sample.revisited).2.projects.rows,
      datedLedger (runOps Sample.tightDb Sample.revisited).2 .daily project.id Sample.day ≤
        project.dailyTokenLimit :=
    fun project hproject => hwithin project hproject .daily Sample.day
  revert hdaily
  decide

/-- In every run whose reservations restart counters only for dates on which the project
has nothing on its books, the tokens of every date are within the limit. -/
theorem dates_within_limits {db₀ db : Db} {history : List Event} (hfresh : Fresh db₀)
    (hlimits : LimitsNonneg db₀) (hrun : Run RestartingStep db₀ history db) :
    DatedWithinLimits db := by
  have hkept : BooksKept db := by
    apply Run.history_invariant (I := fun _ db => BooksKept db) hrun
    · exact .start hfresh hlimits
    · intro history db e db' hprev h hstep
      have hrows := reservedRow_of_history hfresh.requests_empty
        (history_of_restartingRun hprev)
      exact h.step hrows hstep
  exact hkept.within

/-- A day and the day after it, each with its own reservation. -/
theorem dates_within_limits_two_days :
    Run RestartingStep Sample.tightDb (runOps Sample.tightDb (Sample.revisited.take 2)).1
        (runOps Sample.tightDb (Sample.revisited.take 2)).2 ∧
      DatedWithinLimits (runOps Sample.tightDb (Sample.revisited.take 2)).2 := by
  have hfirst : RestartingStep Sample.tightDb
      (perform Sample.tightDb (.chat (Sample.callOn 100 Sample.day))).1
      (perform Sample.tightDb (.chat (Sample.callOn 100 Sample.day))).2 := by
    refine ⟨reportingStep_perform_chat _ _, ?_⟩
    intro record hrecord project hproject period hne
    cases hrecord
    cases hproject
    cases period with
    | daily => exact absurd rfl hne
    | monthly => exact absurd rfl hne
  have hsecond : RestartingStep
      (perform Sample.tightDb (.chat (Sample.callOn 100 Sample.day))).2
      (perform (perform Sample.tightDb (.chat (Sample.callOn 100 Sample.day))).2
        (.chat (Sample.callOn 101 Sample.nextDay))).1
      (runOps Sample.tightDb (Sample.revisited.take 2)).2 := by
    refine ⟨reportingStep_perform_chat _ (Sample.callOn 101 Sample.nextDay), ?_⟩
    intro record hrecord project hproject period hne
    cases hrecord
    cases hproject
    cases period with
    | daily => rfl
    | monthly => exact absurd rfl hne
  have hrun : Run RestartingStep Sample.tightDb
      (runOps Sample.tightDb (Sample.revisited.take 2)).1
      (runOps Sample.tightDb (Sample.revisited.take 2)).2 :=
    (Run.start.next hfirst).next hsecond
  exact ⟨hrun, dates_within_limits Sample.fresh_tightDb Sample.limitsNonneg_tightDb hrun⟩

end OrbiGateway
