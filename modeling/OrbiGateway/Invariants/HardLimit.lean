import OrbiGateway.Invariants.BudgetLedger

/-!
# Token limits

A reservation is checked against both limits, an accepted result is not: it
replaces the reservation by whatever the worker reports.  The limits therefore
hold along a run exactly as long as every accepted report stays within its
reservation and the room left beside it.
-/

namespace OrbiGateway

open Relational Transition

/-- Both counters of every project are within their limits. -/
def WithinLimits (db : Db) : Prop :=
  ∀ project ∈ db.projects.rows, ∀ period : Period,
    period.used project ≤ period.limit project

/-- No run whose reservation dates never decrease exceeds a limit. -/
def HardLimits (db₀ : Db) : Prop :=
  ∀ history db, History db₀ history db → DatesNondecreasing history → WithinLimits db

/-- The report fits beside what is used: in every counter that holds the request's
reservation, the tokens beyond the reservation are still available. -/
def ReportFits (db : Db) : Op → Prop
  | .submitResult worker payload _ =>
      ∀ r ∈ db.requests.rows, r.isHeldBy payload.requestId worker.id = true →
        ∀ project ∈ db.projects.rows, ∀ period : Period,
          r.countsIn period project = true →
            payload.inputTokens + payload.outputTokens - r.reservedTokens ≤
              period.limit project - period.used project
  | _ => True

/-- The limits of every project are those it started with, none negative. -/
def LimitsNonneg (db : Db) : Prop :=
  ∀ project ∈ db.projects.rows, ∀ period : Period, 0 ≤ period.limit project

/-! ## Settlements and limits -/

theorem used_settleProject_le {period : Period} {bound : ℤ} (hbound : 0 ≤ bound)
    (settled : List Settlement) :
    ∀ project : Project, (∀ s ∈ settled, s.actualTokens ≤ s.reservedTokens) →
      period.used project ≤ bound → period.used (settleProject settled project) ≤ bound := by
  induction settled with
  | nil =>
      intro project _ hused
      exact hused
  | cons s settled ih =>
      intro project hle hused
      have hhead := hle s List.mem_cons_self
      apply ih (s.apply project)
      · intro s' hs'
        exact hle s' (List.mem_cons_of_mem s hs')
      · rw [s.used_apply]
        split
        next hcounts =>
          have hmoves : s.moves period project ≤ 0 := by
            rw [Settlement.moves, if_pos hcounts]
            omega
          exact max_le hbound (by omega)
        next => exact hused

theorem limitsNonneg_step {db db' : Db} {e : Event} (h : LimitsNonneg db)
    (hstep : Step db e db') : LimitsNonneg db' := by
  cases hstep with
  | @performed db' op reply hexec =>
      intro project' hproject' period
      rcases exec_project_cases hexec hproject' with ⟨-, project, hproject, rfl⟩ |
        ⟨call, record, -, -, ⟨project, hrow⟩ | ⟨hold, -⟩⟩
      · exact (h project hproject period).trans_eq
          (limit_settleProject _ period project).symm
      · rw [(Project.reserve_spec hrow.reserve).limit_eq]
        exact h project (Table.mem_of_find hrow.findProject) period
      · exact h project' hold period
  | failed => exact h
  | rescanned => exact h

theorem actual_le_reserved {db : Db} {op : Op}
    (hrows : ∀ r ∈ db.requests.rows, 1 ≤ r.reservedTokens)
    (hop : ∀ worker payload now, op ≠ .submitResult worker payload now) :
    ∀ s ∈ settlements db op, s.actualTokens ≤ s.reservedTokens := by
  intro s hs
  obtain ⟨r, hr, hsettlement⟩ := mem_settlements hs
  have hpos := hrows r hr
  have hzero : s = r.settledBy 0 := by
    cases op with
    | chat call => cases hsettlement
    | claim worker leaseSeconds now => cases hsettlement
    | submitResult worker payload now => exact absurd rfl (hop worker payload now)
    | submitError worker payload =>
        obtain ⟨-, hsettled⟩ := Option.ite_none_right_eq_some.mp hsettlement
        exact (Option.some.inj hsettled).symm
    | recover now =>
        obtain ⟨-, hsettled⟩ := Option.ite_none_right_eq_some.mp hsettlement
        exact (Option.some.inj hsettled).symm
  rw [hzero]
  simp only [OrbiRequest.settledBy]
  omega

/-! ## One step -/

section OneStep

variable {db db' : Db} {history : List Event}

/-- A result submission keeps the limits exactly when its report fits. -/
theorem withinLimits_submitResult_iff {worker : Worker}
    {payload : WorkerResultRequest} {now : Timestamp} {reply : Reply}
    (hexec : exec db (.submitResult worker payload now) = .ok (reply, db'))
    (hlimits : LimitsNonneg db) (hwithin : WithinLimits db) :
    WithinLimits db' ↔ ReportFits db (.submitResult worker payload now) := by
  rcases exec_submitResult_cases hexec with
    ⟨-, rfl, hno⟩ | ⟨r, hmem, usageRecords, -, hheld, -, rfl⟩
  · constructor
    · intro _ r hr hheld
      rw [hno r hr] at hheld
      cases hheld
    · intro _
      exact hwithin
  · have hsettle : ∀ project period,
        period.used (settleProject
          [r.settledBy (payload.inputTokens + payload.outputTokens)] project) =
        if r.countsIn period project then
          max 0 (period.used project +
            (payload.inputTokens + payload.outputTokens - r.reservedTokens))
        else period.used project := by
      intro project period
      have hused := (r.settledBy
        (payload.inputTokens + payload.outputTokens)).used_apply project period
      rw [countsIn_settledBy] at hused
      refine hused.trans ?_
      split
      next hcounts =>
        rw [Settlement.moves, countsIn_settledBy, if_pos hcounts]
        rfl
      next => rfl
    constructor
    · intro hafter row hrow hrowHeld project hproject period hcounts
      have heq : row = r := by
        have hrowId := (OrbiRequest.isHeldBy_iff.mp hrowHeld).1
        have hrid := (OrbiRequest.isHeldBy_iff.mp hheld).1
        exact db.requests.eq_of_key_eq hrow hmem (hrowId.trans hrid.symm)
      subst heq
      have hle := hafter _ (List.mem_map_of_mem hproject) period
      rw [hsettle, if_pos hcounts, limit_settleProject] at hle
      have hmax := (max_le_iff.mp hle).2
      omega
    · intro hfits project' hproject' period
      obtain ⟨project, hproject, rfl⟩ := List.mem_map.mp hproject'
      rw [hsettle, limit_settleProject]
      split
      next hcounts =>
        have hroom := hfits r hmem hheld project hproject period hcounts
        exact max_le (hlimits project hproject period) (by omega)
      next => exact hwithin project hproject period

/-- From a state within the limits, a step keeps them exactly when the operation's
report fits. -/
theorem withinLimits_performed_iff {op : Op} {reply : Reply}
    (hexec : exec db op = .ok (reply, db')) (hlimits : LimitsNonneg db)
    (hrows : ∀ r ∈ db.requests.rows, ReservedRow history r)
    (hwithin : WithinLimits db) : WithinLimits db' ↔ ReportFits db op := by
  by_cases hop : ∃ worker payload now, op = .submitResult worker payload now
  · obtain ⟨worker, payload, now, rfl⟩ := hop
    exact withinLimits_submitResult_iff hexec hlimits hwithin
  · have hother : ∀ worker payload now, op ≠ .submitResult worker payload now := by
      intro worker payload now heq
      exact hop ⟨worker, payload, now, heq⟩
    have hfits : ReportFits db op := by
      unfold ReportFits
      split
      next => exact absurd rfl (hother _ _ _)
      next => trivial
    refine ⟨fun _ => hfits, fun _ => ?_⟩
    intro project' hproject' period
    rcases exec_project_cases hexec hproject' with ⟨-, project, hproject, rfl⟩ |
      ⟨call, record, -, -, ⟨project, hrow⟩ | ⟨hold, -⟩⟩
    · have hreserved := actual_le_reserved (fun r hr => (hrows r hr).reserved_pos) hother
      have hle := used_settleProject_le (hlimits project hproject period)
        (settlements db op) project hreserved (hwithin project hproject period)
      exact hle.trans_eq (limit_settleProject _ period project).symm
    · exact (Project.reserve_spec hrow.reserve).used_le period
    · exact hwithin project' hold period

end OneStep

/-! ## Every run -/

/-- Every state of the run is within the limits. -/
def AlwaysWithinLimits (db₀ : Db) (history : List Event) (db : Db) : Prop :=
  ∀ newer older mid, history = newer ++ older → History db₀ older mid →
    History mid newer db → WithinLimits mid

/-- Every report of the run fits when it is submitted. -/
def ReportsFit (db₀ : Db) (history : List Event) (db : Db) : Prop :=
  ∀ newer op reply settled older before after,
    history = newer ++ .performed op reply settled :: older →
      History db₀ older before →
        Step before (.performed op reply settled) after → History after newer db →
          ReportFits before op

theorem limitsNonneg_of_history {db₀ db : Db} {history : List Event}
    (hstart : LimitsNonneg db₀) (hrun : History db₀ history db) : LimitsNonneg db :=
  hrun.invariant hstart fun _ _ _ h hstep => limitsNonneg_step h hstep

/-- If all reports of a run fit, its last state is within the limits. -/
theorem withinLimits_of_reportsFit {db₀ : Db} (hfresh : Fresh db₀)
    (hstart : LimitsNonneg db₀) {history : List Event} {db : Db}
    (hrun : History db₀ history db) : ReportsFit db₀ history db → WithinLimits db := by
  induction hrun with
  | start =>
      intro _ project hproject period
      rw [hfresh.counters_zero project hproject period]
      exact hstart project hproject period
  | @next history before after e hprev hlast ih =>
      intro hfit
      have hwithin : WithinLimits before := by
        apply ih
        intro newer op reply settled older mid mid' hhistory hold hstep hnew
        exact hfit (e :: newer) op reply settled older mid mid' (by rw [hhistory]; rfl)
          hold hstep (hnew.next hlast)
      cases hlast with
      | @performed _ op reply hexec =>
          have hreport := hfit [] op reply _ history before after rfl hprev
            (.performed hexec) .start
          exact (withinLimits_performed_iff hexec (limitsNonneg_of_history hstart hprev)
            (reservedRow_of_history hfresh.requests_empty hprev) hwithin).mpr hreport
      | failed => exact hwithin
      | rescanned => exact hwithin

theorem reportFits_of_le_reserved {db : Db} {worker : Worker}
    {payload : WorkerResultRequest} {now : Timestamp} (hwithin : WithinLimits db)
    (hle : ∀ r ∈ db.requests.rows, r.isHeldBy payload.requestId worker.id = true →
      payload.inputTokens + payload.outputTokens ≤ r.reservedTokens) :
    ReportFits db (.submitResult worker payload now) := by
  intro r hr hheld project hproject period _
  have hreport := hle r hr hheld
  have hused := hwithin project hproject period
  omega

namespace Sample

/-- A request that reserves ten tokens is reported to have used 120. -/
def overrun : List Op :=
  assigned ++ [.submitResult worker (resultFor 100 60 60 (by decide) (by decide)) 2]

theorem limitsNonneg_db : LimitsNonneg db := by
  intro project hproject period
  cases List.mem_singleton.mp hproject
  cases period <;> decide

end Sample

/-- After an accepted report of 120 tokens the daily counter is past its limit of
100. -/
theorem hard_limits_exceeded :
    Fresh Sample.db ∧ LimitsNonneg Sample.db ∧ ¬HardLimits Sample.db := by
  refine ⟨Sample.fresh_db, Sample.limitsNonneg_db, ?_⟩
  intro hlimits
  have hwithin := hlimits _ _ (history_runOps Sample.db Sample.overrun) (by decide)
  have hdaily : ∀ project ∈ (runOps Sample.db Sample.overrun).2.projects.rows,
      project.dailyTokensUsed ≤ project.dailyTokenLimit :=
    fun project hproject => hwithin project hproject .daily
  revert hdaily
  decide

/-- Along every run the limits hold in every state if and only if every report
fits beside what is used when it is submitted. -/
theorem limits_hold_iff_reports_fit {db₀ db : Db} {history : List Event}
    (hfresh : Fresh db₀) (hlimits : LimitsNonneg db₀) (hrun : History db₀ history db) :
    AlwaysWithinLimits db₀ history db ↔ ReportsFit db₀ history db := by
  constructor
  · rintro halways newer op reply settled older before after rfl hold hstep hnew
    have hbefore : WithinLimits before :=
      halways (newer ++ [.performed op reply settled]) older before (by simp) hold
        (Run.append (Run.start.next hstep) hnew)
    have hafter : WithinLimits after :=
      halways newer _ after rfl (hold.next hstep) hnew
    cases hstep with
    | performed hexec =>
        exact (withinLimits_performed_iff hexec (limitsNonneg_of_history hlimits hold)
          (reservedRow_of_history hfresh.requests_empty hold) hbefore).mp hafter
  · rintro hfit newer older mid rfl hold hnew
    apply withinLimits_of_reportsFit hfresh hlimits hold
    intro newer' op reply settled older' before after hhistory hold' hstep hnew'
    exact hfit (newer ++ newer') op reply settled older' before after
      (by rw [hhistory, List.append_assoc]) hold' hstep (Run.append hnew' hnew)

/-- A run whose report stays within its reservation. -/
theorem limits_hold_iff_reports_fit_lifecycle :
    (runOps Sample.db Sample.lifecycle).2.projects.rows.map (·.dailyTokensUsed) = [7] ∧
      (AlwaysWithinLimits Sample.db (runOps Sample.db Sample.lifecycle).1
          (runOps Sample.db Sample.lifecycle).2 ↔
        ReportsFit Sample.db (runOps Sample.db Sample.lifecycle).1
          (runOps Sample.db Sample.lifecycle).2) :=
  ⟨by decide, limits_hold_iff_reports_fit Sample.fresh_db Sample.limitsNonneg_db
    (history_runOps Sample.db Sample.lifecycle)⟩

end OrbiGateway
