import OrbiGateway.System.Bookings

/-!
# Budget conservation

Each counter of a project is the sum of what its requests of the current period
still hold or have used.  A settlement replaces a reservation in that sum by the
actual usage, so the sum of the reservations about to be settled never exceeds
the counter, and the clamp of `reconcile` has nothing to cut.
-/

namespace OrbiGateway

open Relational Transition

/-- The tokens that a project's requests of one date hold or have used. -/
def datedLedger (db : Db) (period : Period) (projectId : UUID) (date : Date) : ℤ :=
  db.requests.sumBy fun r =>
    if r.projectId == projectId && r.budgetDate period == date then r.charge else 0

/-- The sum over the requests that count in the project's current period. -/
def ledger (db : Db) (period : Period) (project : Project) : ℤ :=
  db.requests.sumBy fun r => if r.countsIn period project then r.charge else 0

theorem ledger_eq_datedLedger (db : Db) (period : Period) (project : Project) :
    ledger db period project =
      datedLedger db period project.id (period.stamp project) := rfl

/-- Every counter is its ledger. -/
def BudgetConserved (db : Db) : Prop :=
  ∀ project ∈ db.projects.rows, ∀ period : Period,
    period.used project = ledger db period project

/-! ## Reservation dates -/

/-- The request for which the event reserved tokens, if it did. -/
def Event.reservation : Event → Option OrbiRequest
  | .performed _ (.chat (.queued record)) _ => some record
  | _ => none

/-- The date of a request's reservation, when it was made for the project. -/
def OrbiRequest.reserveDate (projectId : UUID) (request : OrbiRequest) : Option Date :=
  if request.projectId = projectId then some request.budgetDay else none

/-- The dates read by the committed reservations of a project, newest first. -/
def reserveDates (projectId : UUID) (history : List Event) : List Date :=
  (history.filterMap Event.reservation).filterMap (OrbiRequest.reserveDate projectId)

/-- The dates read by successive reservations of one project never decrease. -/
def DatesNondecreasing (history : List Event) : Prop :=
  ∀ projectId, (reserveDates projectId history).Pairwise
    fun newer older => older ≤ newer

theorem datesNondecreasing_iff {history : List Event} :
    DatesNondecreasing history ↔
      (history.filterMap Event.reservation).Pairwise fun newer older =>
        newer.projectId = older.projectId → older.budgetDay ≤ newer.budgetDay := by
  unfold DatesNondecreasing reserveDates
  generalize history.filterMap Event.reservation = records
  simp only [List.pairwise_filterMap, OrbiRequest.reserveDate,
    Option.ite_none_right_eq_some, Option.some.injEq]
  constructor
  · intro h
    rw [List.pairwise_iff_forall_sublist]
    intro newer older hsub hsame
    have hpair := List.pairwise_iff_forall_sublist.mp (h newer.projectId) hsub
    exact hpair _ ⟨rfl, rfl⟩ _ ⟨hsame.symm, rfl⟩
  · intro h projectId
    apply h.imp
    rintro newer older hle _ ⟨hnewer, rfl⟩ _ ⟨holder, rfl⟩
    exact hle (hnewer.trans holder.symm)

instance (history : List Event) : Decidable (DatesNondecreasing history) :=
  decidable_of_iff _ datesNondecreasing_iff.symm

theorem reserveDates_sublist (projectId : UUID) (e : Event) (history : List Event) :
    (reserveDates projectId history).Sublist (reserveDates projectId (e :: history)) :=
  ((List.sublist_cons_self e history).filterMap _).filterMap _

theorem DatesNondecreasing.tail {e : Event} {history : List Event}
    (h : DatesNondecreasing (e :: history)) : DatesNondecreasing history := by
  intro projectId
  exact (h projectId).sublist (reserveDates_sublist projectId e history)

theorem reservation_of_newRows_nil {op : Op} {reply : Reply} {settled : List Settlement}
    (hnone : reply.newRows = []) :
    Event.reservation (.performed op reply settled) = none := by
  unfold Event.reservation
  split
  next heq =>
    cases heq
    cases hnone
  next => rfl

theorem reserveDates_of_newRows_nil {projectId : UUID} {op : Op} {reply : Reply}
    {settled : List Settlement} {history : List Event} (hnone : reply.newRows = []) :
    reserveDates projectId (.performed op reply settled :: history) =
      reserveDates projectId history := by
  simp [reserveDates, reservation_of_newRows_nil hnone]

/-- An accepted request adds the date of its reservation to those of its project. -/
theorem reserveDates_queued {projectId : UUID} {op : Op} {record : OrbiRequest}
    {settled : List Settlement} {history : List Event} :
    reserveDates projectId
        (.performed op (.chat (.queued record)) settled :: history) =
      if record.projectId = projectId then
        record.budgetDay :: reserveDates projectId history
      else reserveDates projectId history := by
  simp only [reserveDates, List.filterMap_cons, Event.reservation,
    OrbiRequest.reserveDate]
  split <;> simp_all

/-- The stored date of each counter is that of the project's last reservation. -/
def StampsCurrent (history : List Event) (db : Db) : Prop :=
  ∀ project ∈ db.projects.rows, ∀ day,
    (reserveDates project.id history).head? = some day →
      ∀ period : Period, period.stamp project = period.start day

/-! ## Rows and reservations -/

theorem NewRow.budgetDate_eq {db : Db} {call : ChatCall} {record : OrbiRequest}
    {project project' : Project} (h : NewRow db call record project project')
    (period : Period) : record.budgetDate period = period.start record.budgetDay := by
  cases period with
  | daily => rfl
  | monthly => exact h.budgetMonth.trans (congrArg Date.replaceDayOne h.budgetDay.symm)

/-- What the ledger needs to know about a row: it reserved at least one token on a
date its project has seen, and its charge is not negative. -/
structure ReservedRow (history : List Event) (r : OrbiRequest) : Prop where
  reserved_pos : 1 ≤ r.reservedTokens
  charge_nonneg : 0 ≤ r.charge
  budgetDate_eq : ∀ period, r.budgetDate period = period.start r.budgetDay
  reserved_on : r.budgetDay ∈ reserveDates r.projectId history

namespace ReservedRow

variable {history : List Event} {r r' : OrbiRequest}

theorem cons {e : Event} (h : ReservedRow history r) : ReservedRow (e :: history) r where
  reserved_pos := h.reserved_pos
  charge_nonneg := h.charge_nonneg
  budgetDate_eq := h.budgetDate_eq
  reserved_on := by
    exact (reserveDates_sublist r.projectId e history).subset h.reserved_on

theorem newRow {db : Db} {call : ChatCall} {project project' : Project}
    {settled : List Settlement} (h : NewRow db call r project project') :
    ReservedRow (.performed (.chat call) (.chat (.queued r)) settled :: history) r where
  reserved_pos := (Project.reserve_spec h.reserve).tokens_pos
  charge_nonneg := by
    have hpos := (Project.reserve_spec h.reserve).tokens_pos
    rw [OrbiRequest.charge_of_isOpen (OrbiRequest.isOpen_of_queued h.status)]
    omega
  budgetDate_eq := h.budgetDate_eq
  reserved_on := by simp [reserveDates_queued]

theorem step {op : Op} {reply : Reply} {settled : List Settlement}
    (h : ReservedRow history r) (hstep : RowStep r op reply r') :
    ReservedRow (.performed op reply settled :: history) r' := by
  obtain ⟨-, hproject, -, -, -, hreserved, hday, hmonth, -⟩ := hstep.fixed
  have hpos := h.reserved_pos
  have hnonneg : 0 ≤ r'.charge := by
    have hheld : 0 ≤ r.reservedTokens := by omega
    cases hstep with
    | kept => exact h.charge_nonneg
    | claimed => exact hheld
    | @completed worker payload now hguard =>
        exact Int.add_nonneg payload.inputTokens_nonneg payload.outputTokens_nonneg
    | errorRequeued => exact hheld
    | errorFailed => exact le_refl 0
    | leaseRequeued => exact hheld
    | leaseExpired => exact le_refl 0
    | leaseFailed => exact le_refl 0
    | queueExpired => exact le_refl 0
  have hkept := h.cons (e := .performed op reply settled)
  refine ⟨by rw [hreserved]; exact hpos, hnonneg, ?_, ?_⟩
  · intro period
    have hperiod := h.budgetDate_eq period
    cases period
    · rfl
    · simp only [OrbiRequest.budgetDate, hmonth, hday] at hperiod ⊢
      exact hperiod
  · rw [hday, hproject]
    exact hkept.reserved_on

end ReservedRow

theorem reservedRow_of_history {db₀ db : Db} {history : List Event}
    (hstart : db₀.requests.rows = []) (hrun : History db₀ history db) :
    ∀ r ∈ db.requests.rows, ReservedRow history r := by
  apply row_invariant (I := ReservedRow) hrun
  · intro r hr
    rw [hstart] at hr
    cases hr
  · intro history db call record project project' settled hnew
    exact .newRow hnew
  · intro history r op reply r' settled ih hstep
    exact ih.step hstep
  · intro history r op failure ih
    exact ih.cons
  · intro history r ih
    exact ih.cons

/-! ## Settling -/

section Settling

variable {db db' : Db} {history : List Event} {op : Op} {reply : Reply}

theorem countsIn_settledBy (r : OrbiRequest) (actual : ℤ) (period : Period)
    (project : Project) :
    (r.settledBy actual).countsIn period project = r.countsIn period project := by
  cases period <;> rfl

/-- Summing over the settlements of an operation is summing over the rows. -/
theorem sum_settlements (db : Db) (op : Op) (f : Settlement → ℤ) :
    ((settlements db op).map f).sum =
      (db.requests.rows.map fun r => (r.settlement op).elim 0 f).sum := by
  calc
    ((settlements db op).map f).sum =
        ((db.requests.rows.filterMap fun r => r.settlement op).map f).sum :=
      ((settlements_perm db op).map f).sum_eq
    _ = _ := sum_filterMap _ _ _

/-- A counter covers the reservations that an operation settles. -/
theorem releases_le_used (hconserved : BudgetConserved db)
    (hrows : ∀ r ∈ db.requests.rows, ReservedRow history r) (op : Op)
    {project : Project} (hproject : project ∈ db.projects.rows) (period : Period) :
    ((settlements db op).map fun s => s.releases period project).sum ≤
      period.used project := by
  rw [hconserved project hproject period, sum_settlements]
  apply List.sum_le_sum
  intro r hr
  have hrow := hrows r hr
  cases hsettlement : r.settlement op with
  | none =>
      simp only [Option.elim_none]
      split
      · exact hrow.charge_nonneg
      · exact le_refl 0
  | some s =>
      obtain ⟨actual, rfl, -, hopen⟩ := OrbiRequest.settlement_spec hsettlement
      rw [Option.elim_some, Settlement.releases, countsIn_settledBy,
        OrbiRequest.charge_of_isOpen hopen]
      exact le_refl _

theorem settlement_nonneg (hrows : ∀ r ∈ db.requests.rows, ReservedRow history r)
    {s : Settlement} (op : Op) (hs : s ∈ settlements db op) :
    0 ≤ s.actualTokens ∧ 0 ≤ s.reservedTokens := by
  obtain ⟨r, hr, hsettlement⟩ := mem_settlements hs
  obtain ⟨actual, rfl, hactual, -⟩ := OrbiRequest.settlement_spec hsettlement
  have hpos := (hrows r hr).reserved_pos
  exact ⟨hactual, by simp only [OrbiRequest.settledBy]; omega⟩

/-- Settling keeps every counter equal to its ledger. -/
theorem conserved_of_settled (hexec : exec db op = .ok (reply, db'))
    (hnone : reply.newRows = []) (hconserved : BudgetConserved db)
    (hrows : ∀ r ∈ db.requests.rows, ReservedRow history r) : BudgetConserved db' := by
  intro project' hproject' period
  rw [exec_projects hexec hnone] at hproject'
  obtain ⟨project, hproject, rfl⟩ := List.mem_map.mp hproject'
  have hcovered := releases_le_used hconserved hrows op hproject period
  have hused := used_settleProject period (settlements db op) project
    (fun s hs => settlement_nonneg hrows op hs) hcovered
  have hcounts : ∀ r : OrbiRequest,
      r.countsIn period (settleProject (settlements db op) project) =
        r.countsIn period project := by
    intro r
    simp [OrbiRequest.countsIn]
  have hrow : ∀ r ∈ db.requests.rows,
      (if (r.after op reply).countsIn period project then (r.after op reply).charge
        else 0) =
      (if r.countsIn period project then r.charge else 0) +
        (r.settlement op).elim 0 fun s => s.moves period project := by
    intro r hr
    have hstep := exec_rowStep hexec hr
    obtain ⟨-, hprojectId, -, -, -, -, hday, hmonth, -⟩ := hstep.fixed
    have hsame : (r.after op reply).countsIn period project =
        r.countsIn period project := by
      cases period
      · simp [OrbiRequest.countsIn, OrbiRequest.budgetDate, hprojectId, hday]
      · simp [OrbiRequest.countsIn, OrbiRequest.budgetDate, hprojectId, hmonth]
    rw [hsame]
    rcases OrbiRequest.settled_or_unsettled hstep with hkept | ⟨actual, hsettled⟩
    · rw [hkept.settlement_eq, hkept.charge_eq, Option.elim_none, Int.add_zero]
    · obtain ⟨-, -, -, hopen⟩ := OrbiRequest.settlement_spec hsettled.settlement_eq
      have hcharge := OrbiRequest.charge_of_isOpen hopen
      rw [hsettled.settlement_eq, hsettled.charge_eq, Option.elim_some,
        Settlement.moves, countsIn_settledBy, hcharge]
      simp only [OrbiRequest.settledBy]
      split <;> omega
  calc
    period.used (settleProject (settlements db op) project) =
        ledger db period project +
          ((settlements db op).map fun s => s.moves period project).sum := by
      rw [hused, hconserved project hproject period]
    _ = (db.requests.rows.map fun r =>
          (if r.countsIn period project then r.charge else 0) +
            (r.settlement op).elim 0 fun s => s.moves period project).sum := by
      rw [sum_settlements, List.sum_map_add]
      rfl
    _ = (db.requests.rows.map fun r =>
          if (r.after op reply).countsIn period project then (r.after op reply).charge
          else 0).sum := by
      rw [List.map_congr_left hrow]
    _ = ledger db' period (settleProject (settlements db op) project) := by
      have hrows' := exec_requests hexec
      rw [hnone, List.append_nil] at hrows'
      simp only [ledger, Table.sumBy, hrows', hcounts, List.map_map, Function.comp_def]

end Settling

/-! ## Reserving -/

section Reserving

variable {db db' : Db} {history : List Event}

/-- A row of an earlier period than the one reserved in does not count in it. -/
theorem countsIn_of_period_restart {r : OrbiRequest} {project project' : Project}
    {tokens : ℤ} {today : Date} {period : Period}
    (hrow : ReservedRow history r) (hproject : project ∈ db.projects.rows)
    (hstamps : StampsCurrent history db)
    (hdates : ∀ day ∈ reserveDates project.id history, day ≤ today)
    (hold : (reserveDates project.id history).Pairwise fun newer older => older ≤ newer)
    (hreserved : Project.Reserved project project' tokens today)
    (hrestart : period.stamp project ≠ period.start today) :
    r.countsIn period project' = false := by
  by_contra hyes
  simp only [OrbiRequest.countsIn, Bool.not_eq_false, Bool.and_eq_true,
    beq_iff_eq] at hyes
  obtain ⟨hid, hdate⟩ := hyes
  rw [hreserved.id_eq] at hid
  rw [hreserved.stamp_eq, hrow.budgetDate_eq] at hdate
  have hmem := hrow.reserved_on
  rw [hid] at hmem
  cases hdays : reserveDates project.id history with
  | nil =>
      rw [hdays] at hmem
      cases hmem
  | cons last rest =>
      have hstamp := hstamps project hproject last (by simp [hdays]) period
      have hle : r.budgetDay ≤ last := by
        rw [hdays] at hmem hold
        rcases List.mem_cons.mp hmem with heq | hmem
        · exact le_of_eq heq
        · exact List.rel_of_pairwise_cons hold hmem
      have hlast : last ≤ today := hdates last (by simp [hdays])
      have hlow := period.start_mono hle
      have hhigh := period.start_mono hlast
      rw [hdate] at hlow
      exact hrestart (hstamp.trans (le_antisymm hhigh hlow))

theorem datedLedger_queued {call : ChatCall} {record : OrbiRequest}
    (hexec : exec db (.chat call) = .ok (.chat (.queued record), db'))
    (hstatus : record.status = .queued) (period : Period) (projectId : UUID)
    (date : Date) :
    datedLedger db' period projectId date = datedLedger db period projectId date +
      if record.projectId == projectId && record.budgetDate period == date then
        record.reservedTokens
      else 0 := by
  have hadded : db'.requests.rows = db.requests.rows ++ [record] := by
    rw [exec_requests hexec]
    exact congrArg (· ++ [record]) (List.map_id _)
  have hcharge : record.charge = record.reservedTokens :=
    OrbiRequest.charge_of_isOpen (OrbiRequest.isOpen_of_queued hstatus)
  simp [datedLedger, Table.sumBy, hadded, hcharge]

/-- Dates that never decrease restart a counter only for a period without requests. -/
theorem datedLedger_of_restart {call : ChatCall} {record : OrbiRequest}
    {project project' : Project} {settled : List Settlement}
    (hnew : NewRow db call record project project')
    (hrows : ∀ r ∈ db.requests.rows, ReservedRow history r)
    (hstamps : StampsCurrent history db)
    (hdates : DatesNondecreasing
      (.performed (.chat call) (.chat (.queued record)) settled :: history))
    (period : Period) (hrestart : period.stamp project ≠ period.start record.budgetDay) :
    datedLedger db period project.id (period.start record.budgetDay) = 0 := by
  have hreserved := Project.reserve_spec hnew.reserve
  have hid : project.id = record.projectId := Table.key_of_find hnew.findProject
  have hmem : project ∈ db.projects.rows := Table.mem_of_find hnew.findProject
  have hpairs := hdates project.id
  rw [reserveDates_queued, if_pos hid.symm] at hpairs
  obtain ⟨hle, hold⟩ := List.pairwise_cons.mp hpairs
  have hzero : ledger db period project' = db.requests.sumBy fun _ => 0 := by
    apply Table.sumBy_congr
    intro r hr
    rw [countsIn_of_period_restart (hrows r hr) hmem hstamps hle hold hreserved hrestart]
    rfl
  rw [ledger_eq_datedLedger, hreserved.id_eq, hreserved.stamp_eq] at hzero
  rw [hzero]
  simp [Table.sumBy]

/-- Accepting a request keeps every counter equal to its ledger, if a counter that it
restarts had nothing on its books for the new date. -/
theorem conserved_of_queued {call : ChatCall} {record : OrbiRequest}
    {project project' : Project}
    (hexec : exec db (.chat call) = .ok (.chat (.queued record), db'))
    (hnew : NewRow db call record project project')
    (hput : db'.projects = db.projects.put project')
    (hconserved : BudgetConserved db)
    (hrestart : ∀ period : Period, period.stamp project ≠ period.start record.budgetDay →
      datedLedger db period project.id (period.start record.budgetDay) = 0) :
    BudgetConserved db' := by
  have hreserved := Project.reserve_spec hnew.reserve
  have hid : project.id = record.projectId := Table.key_of_find hnew.findProject
  have hmem : project ∈ db.projects.rows := Table.mem_of_find hnew.findProject
  have hledger : ∀ (period : Period) (p : Project), ledger db' period p =
      ledger db period p +
        if record.countsIn period p then record.reservedTokens else 0 := by
    intro period p
    exact datedLedger_queued hexec hnew.status period p.id (period.stamp p)
  intro p hp period
  rw [hput] at hp
  rcases Table.mem_put hp with rfl | ⟨hrow, hkey⟩
  · -- the reserving project itself
    have hcounts : record.countsIn period p = true := by
      have hbudget := hnew.budgetDate_eq period
      simp [OrbiRequest.countsIn, hreserved.id_eq, hid, hreserved.stamp_eq, hbudget]
    rw [hledger, hcounts, if_pos rfl, hreserved.used_eq]
    congr 1
    by_cases hsame : period.stamp project = period.start record.budgetDay
    · -- the period goes on
      rw [if_pos hsame, hconserved project hmem period]
      apply Table.sumBy_congr
      intro r _
      have hcongr : r.countsIn period p = r.countsIn period project := by
        simp [OrbiRequest.countsIn, hreserved.id_eq, hreserved.stamp_eq, hsame]
      rw [hcongr]
    · -- the period restarts, and nothing is on its books
      rw [if_neg hsame, ledger_eq_datedLedger, hreserved.id_eq, hreserved.stamp_eq,
        hrestart period hsame]
  · -- the other projects
    have hcounts : record.countsIn period p = false := by
      have hne : record.projectId ≠ p.id := by
        intro hsame
        exact hkey ((hsame.symm.trans hid.symm).trans hreserved.id_eq.symm)
      simp [OrbiRequest.countsIn, hne]
    rw [hledger, hcounts, hconserved p hrow period]
    simp

end Reserving

/-! ## Every run -/

theorem StampsCurrent.step {history : List Event} {db db' : Db} {e : Event}
    (h : StampsCurrent history db) (hstep : Step db e db') :
    StampsCurrent (e :: history) db' := by
  cases hstep with
  | @performed db' op reply hexec =>
      intro project' hproject' day hday period
      rcases exec_project_cases hexec hproject' with ⟨hnone, project, hproject, rfl⟩ |
        ⟨call, record, rfl, rfl, ⟨project, hnew⟩ | ⟨hold, hne⟩⟩
      · rw [reserveDates_of_newRows_nil hnone, id_settleProject] at hday
        exact (stamp_settleProject _ period project).trans
          (h project hproject day hday period)
      · have hspec := Project.reserve_spec hnew.reserve
        have hid : project.id = record.projectId := Table.key_of_find hnew.findProject
        rw [hspec.id_eq, hid, reserveDates_queued, if_pos rfl, List.head?_cons,
          Option.some.injEq] at hday
        rw [hspec.stamp_eq, hday]
      · rw [reserveDates_queued, if_neg hne.symm] at hday
        exact h project' hold day hday period
  | failed => exact h
  | rescanned => exact h

theorem stampsCurrent_of_history {db₀ db : Db} {history : List Event}
    (hrun : History db₀ history db) : StampsCurrent history db := by
  apply Run.history_invariant (I := StampsCurrent) hrun
  · intro project _ day hday
    cases hday
  · intro history db e db' _ ih hlast
    exact ih.step hlast

/-- A step keeps the counters equal to their ledgers as long as the dates of the
reservations do not decrease. -/
theorem BudgetConserved.step {history : List Event} {db db' : Db} {e : Event}
    (h : BudgetConserved db) (hrows : ∀ r ∈ db.requests.rows, ReservedRow history r)
    (hstamps : StampsCurrent history db) (hstep : Step db e db')
    (hdates : DatesNondecreasing (e :: history)) : BudgetConserved db' := by
  cases hstep with
  | @performed db' op reply hexec =>
      cases hnew : reply.newRows with
      | nil => exact conserved_of_settled hexec hnew h hrows
      | cons record rest =>
          have hmem : record ∈ reply.newRows := by simp [hnew]
          obtain ⟨call, project, project', rfl, rfl, hrow, hput⟩ :=
            exec_newRow hexec hmem
          exact conserved_of_queued hexec hrow hput h
            (datedLedger_of_restart hrow hrows hstamps hdates)
  | failed => exact h
  | rescanned hperm =>
      intro project hproject period
      rw [h project hproject period]
      exact (Table.sumBy_perm hperm _).symm

theorem budgetConserved_of_history {db₀ db : Db} {history : List Event}
    (hfresh : Fresh db₀) (hrun : History db₀ history db) :
    DatesNondecreasing history → BudgetConserved db := by
  apply Run.history_invariant
    (I := fun history db => DatesNondecreasing history → BudgetConserved db) hrun
  · intro _ project hproject period
    rw [hfresh.counters_zero project hproject period, ledger, Table.sumBy,
      hfresh.requests_empty]
    rfl
  · intro history db e db' hprev ih hlast hdates
    exact (ih hdates.tail).step (reservedRow_of_history hfresh.requests_empty hprev)
      (stampsCurrent_of_history hprev) hlast hdates

/-! ## Counters never fall below zero -/

/-- No counter is negative, whatever dates the reservations read. -/
def CountersNonneg (db : Db) : Prop :=
  ∀ project ∈ db.projects.rows, ∀ period : Period, 0 ≤ period.used project

theorem used_settleProject_nonneg (period : Period) (settled : List Settlement) :
    ∀ project : Project, 0 ≤ period.used project →
      0 ≤ period.used (settleProject settled project) := by
  induction settled with
  | nil =>
      intro project h
      exact h
  | cons s settled ih =>
      intro project h
      apply ih
      rw [s.used_apply]
      split
      · exact le_max_left _ _
      · exact h

theorem CountersNonneg.exec {db db' : Db} {op : Op} {reply : Reply}
    (h : CountersNonneg db) (hexec : exec db op = .ok (reply, db')) :
    CountersNonneg db' := by
  intro project' hproject' period
  rcases exec_project_cases hexec hproject' with ⟨-, project, hproject, rfl⟩ |
    ⟨call, record, -, -, ⟨project, hrow⟩ | ⟨hold, -⟩⟩
  · exact used_settleProject_nonneg period _ project (h project hproject period)
  · have hspec := Project.reserve_spec hrow.reserve
    have hused := h project (Table.mem_of_find hrow.findProject) period
    have hpos := hspec.tokens_pos
    rw [hspec.used_eq]
    split <;> omega
  · exact h project' hold period

theorem countersNonneg_of_history {db₀ db : Db} {history : List Event}
    (hfresh : Fresh db₀) (hrun : History db₀ history db) : CountersNonneg db := by
  apply Run.invariant (I := CountersNonneg) hrun
  · intro project hproject period
    rw [hfresh.counters_zero project hproject period]
  · intro db e db' h hstep
    cases hstep with
    | performed hexec => exact h.exec hexec
    | failed => exact h
    | rescanned => exact h

/-! ## Each reservation is settled once -/

/-- The settled requests are those that have ended, each settled once. -/
structure SettledOnce (history : List Event) (db : Db) : Prop where
  nodup : (settledIds history).Nodup
  mem_iff : ∀ id, id ∈ settledIds history ↔
    ∃ r ∈ db.requests.rows, r.id = id ∧ r.isTerminal = true

theorem settlements_ids (db : Db) (op : Op) :
    ((settlements db op).map Settlement.requestId).Perm
      ((db.requests.rows.filter fun r => (r.settlement op).isSome).map (·.id)) := by
  have hrows : ∀ rows : List OrbiRequest,
      (rows.filterMap fun r => r.settlement op).map Settlement.requestId =
        (rows.filter fun r => (r.settlement op).isSome).map (·.id) := by
    intro rows
    induction rows with
    | nil => rfl
    | cons r rows ih =>
        cases hsettlement : r.settlement op with
        | none => simp [hsettlement, ih]
        | some s =>
            obtain ⟨actual, rfl, -, -⟩ := OrbiRequest.settlement_spec hsettlement
            simp [hsettlement, ih, OrbiRequest.settledBy]
  rw [← hrows]
  exact (settlements_perm db op).map _

theorem mem_settledIds_iff {db : Db} {op : Op} {id : UUID} :
    id ∈ (settlements db op).map Settlement.requestId ↔
      ∃ r ∈ db.requests.rows, r.id = id ∧ (r.settlement op).isSome := by
  rw [(settlements_ids db op).mem_iff]
  simp only [List.mem_map, List.mem_filter]
  constructor
  · rintro ⟨r, ⟨hr, hsome⟩, hid⟩
    exact ⟨r, hr, hid, hsome⟩
  · rintro ⟨r, hr, hid, hsome⟩
    exact ⟨r, ⟨hr, hsome⟩, hid⟩

theorem SettledOnce.step {history : List Event} {db db' : Db} {e : Event}
    (h : SettledOnce history db) (hstep : Step db e db') :
    SettledOnce (e :: history) db' := by
  cases hstep with
  | @performed db' op reply hexec =>
      have hids : settledIds (.performed op reply (settlements db op) :: history) =
          (settlements db op).map Settlement.requestId ++ settledIds history := rfl
      have hnotOld : ∀ r ∈ db.requests.rows, (r.settlement op).isSome →
          r.id ∉ settledIds history := by
        intro r hr hsome hid
        obtain ⟨s, hs⟩ := Option.isSome_iff_exists.mp hsome
        obtain ⟨actual, -, -, hopen⟩ := OrbiRequest.settlement_spec hs
        obtain ⟨row, hrow, hrowId, hterminal⟩ := (h.mem_iff r.id).mp hid
        have heq : row = r := db.requests.eq_of_key_eq hrow hr hrowId
        rw [heq, OrbiRequest.isTerminal_of_isOpen hopen] at hterminal
        cases hterminal
      refine ⟨?_, ?_⟩
      · rw [hids]
        apply List.Nodup.append _ h.nodup
        · intro id hnew hold
          obtain ⟨r, hr, rfl, hsome⟩ := mem_settledIds_iff.mp hnew
          exact hnotOld r hr hsome hold
        · rw [(settlements_ids db op).nodup_iff]
          exact db.requests.keysNodup.sublist (List.filter_sublist.map _)
      · intro id
        rw [hids, List.mem_append, mem_settledIds_iff, h.mem_iff, exec_requests hexec]
        constructor
        · rintro (⟨r, hr, hid, hsome⟩ | ⟨r, hr, hid, hterminal⟩)
          · have hrow := exec_rowStep hexec hr
            refine ⟨_, List.mem_append_left _ (List.mem_map_of_mem hr),
              hrow.fixed.1.trans hid, ?_⟩
            rcases OrbiRequest.settled_or_unsettled hrow with hkept | ⟨_, hsettled⟩
            · rw [hkept.settlement_eq] at hsome
              cases hsome
            · exact hsettled.isTerminal
          · have hrow := exec_rowStep hexec hr
            refine ⟨_, List.mem_append_left _ (List.mem_map_of_mem hr),
              hrow.fixed.1.trans hid, ?_⟩
            rcases OrbiRequest.settled_or_unsettled hrow with hkept | ⟨_, hsettled⟩
            · rw [hkept.isTerminal_eq, hterminal]
            · exact hsettled.isTerminal
        · rintro ⟨r', hr', hid, hterminal⟩
          rcases List.mem_append.mp hr' with hr' | hnew
          · obtain ⟨r, hr, rfl⟩ := List.mem_map.mp hr'
            have hrow := exec_rowStep hexec hr
            have hrid := hrow.fixed.1.symm.trans hid
            rcases OrbiRequest.settled_or_unsettled hrow with hkept | ⟨_, hsettled⟩
            · right
              exact ⟨r, hr, hrid, hkept.isTerminal_eq.symm.trans hterminal⟩
            · left
              exact ⟨r, hr, hrid, by rw [hsettled.settlement_eq]; rfl⟩
          · obtain ⟨call, project, project', -, -, hrow, -⟩ := exec_newRow hexec hnew
            have hopen := OrbiRequest.isOpen_of_queued hrow.status
            rw [OrbiRequest.isTerminal_of_isOpen hopen] at hterminal
            cases hterminal
  | failed => exact ⟨h.nodup, h.mem_iff⟩
  | rescanned hperm =>
      refine ⟨h.nodup, ?_⟩
      intro id
      have hold := h.mem_iff id
      simp only [hperm.mem_iff]
      exact hold

theorem settledOnce_of_history {db₀ db : Db} {history : List Event}
    (hstart : db₀.requests.rows = []) (hrun : History db₀ history db) :
    SettledOnce history db := by
  apply Run.history_invariant (I := SettledOnce) hrun
  · refine ⟨List.nodup_nil, ?_⟩
    intro id
    rw [hstart]
    simp [settledIds]
  · intro history db e db' _ ih hlast
    exact ih.step hlast

/-- The clamp of `reconcile` is idle at every settlement of the operation: after
the settlements before it the counter still covers its reservation. -/
def ClampIdle (db : Db) (op : Op) : Prop :=
  ∀ project ∈ db.projects.rows, ∀ (period : Period) done s rest,
    settlements db op = done ++ s :: rest → s.countsIn period project = true →
      0 ≤ period.used (settleProject done project) +
        (s.actualTokens - s.reservedTokens)

theorem clampIdle_of_conserved {db : Db} {history : List Event} (op : Op)
    (hconserved : BudgetConserved db)
    (hrows : ∀ r ∈ db.requests.rows, ReservedRow history r) : ClampIdle db op := by
  intro project hproject period done s rest hsplit hcounts
  have hcovered := releases_le_used hconserved hrows op hproject period
  have hnonneg : ∀ s' ∈ done ++ s :: rest, 0 ≤ s'.actualTokens ∧ 0 ≤ s'.reservedTokens := by
    intro s' hs'
    exact settlement_nonneg hrows op (by rwa [hsplit])
  have hreleased : ∀ l : List Settlement, (∀ s' ∈ l, s' ∈ done ++ s :: rest) →
      0 ≤ (l.map fun s' => s'.releases period project).sum := by
    intro l hl
    apply List.sum_nonneg
    intro value hvalue
    obtain ⟨s', hs', rfl⟩ := List.mem_map.mp hvalue
    unfold Settlement.releases
    split
    · exact (hnonneg s' (hl s' hs')).2
    · exact le_refl 0
  rw [hsplit, List.map_append, List.sum_append, List.map_cons, List.sum_cons] at hcovered
  have hrest := hreleased rest fun s' hs' => by simp [hs']
  have hhead : s.releases period project = s.reservedTokens := by
    simp [Settlement.releases, hcounts]
  have hheadNonneg := hnonneg s (by simp)
  have hused := used_settleProject period done project
    (fun s' hs' => hnonneg s' (by simp [hs'])) (by omega)
  have hmoves : 0 ≤ (done.map fun s' => s'.releases period project).sum +
      (done.map fun s' => s'.moves period project).sum := by
    rw [← List.sum_map_add]
    apply List.sum_nonneg
    intro value hvalue
    obtain ⟨s', hs', rfl⟩ := List.mem_map.mp hvalue
    exact s'.releases_add_moves_nonneg (hnonneg s' (by simp [hs'])).1 period project
  rw [hused]
  omega

/-- In every run whose reservations of each project read dates that never decrease,
every counter is the sum over the requests of its period, no clamp cuts anything
off, every request that has ended was settled exactly once, and settling a
request of an older period moves no counter. -/
theorem budget_conservation {db₀ db : Db} {history : List Event}
    (hfresh : Fresh db₀) (hrun : History db₀ history db)
    (hdates : DatesNondecreasing history) :
    BudgetConserved db ∧ (∀ op, ClampIdle db op) ∧ SettledOnce history db ∧
      ∀ op, ∀ s ∈ settlements db op, ∀ project ∈ db.projects.rows,
        ∀ period : Period, s.budgetDate period ≠ period.stamp project →
          period.used (s.apply project) = period.used project := by
  have hconserved := budgetConserved_of_history hfresh hrun hdates
  have hrows := reservedRow_of_history hfresh.requests_empty hrun
  refine ⟨hconserved, ?_, settledOnce_of_history hfresh.requests_empty hrun, ?_⟩
  · intro op
    exact clampIdle_of_conserved op hconserved hrows
  · intro op s _ project _ period holder
    have hcounts : s.countsIn period project = false := by
      simp [Settlement.countsIn, holder]
    rw [s.used_apply, hcounts]
    rfl

/-- The counters of a completed request and a queued one. -/
theorem budget_conservation_two_requests :
    (runOps Sample.db (Sample.lifecycle ++
        [.chat (Sample.call 101 none 4)])).2.projects.rows.map
          (·.dailyTokensUsed) = [17] ∧
      BudgetConserved (runOps Sample.db (Sample.lifecycle ++
        [.chat (Sample.call 101 none 4)])).2 :=
  ⟨by decide, (budget_conservation Sample.fresh_db (history_runOps Sample.db _)
    (by decide)).1⟩

end OrbiGateway
