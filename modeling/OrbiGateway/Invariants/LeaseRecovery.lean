import OrbiGateway.Invariants.BudgetLedger
import OrbiGateway.Invariants.PeriodResets
import OrbiGateway.Invariants.RequestRows

/-!
# Lease recovery

`recover_expired_leases` runs three bulk updates one after the other, so that a row which
the first puts back in the queue may be expired by the third.  On well-formed rows the
three are one function of the row, `OrbiRequest.recovered`, and that function has nothing
left to do on its own results.
-/

namespace OrbiGateway

open Relational Transition

namespace OrbiRequest

/-- The row after recovery at instant `now`. -/
def recovered (r : OrbiRequest) (now : Timestamp) : OrbiRequest :=
  if r.status = .assigned ∧ r.leaseBefore now = true then
    if r.retryCount < r.maxRetries then
      if r.expiresAt < now then r.leaseRequeued.queueExpired else r.leaseRequeued
    else if r.retryCount = r.maxRetries then r.leaseFailed
    else r
  else if r.status = .queued ∧ r.expiresAt < now then r.queueExpired
  else r

/-- The request ends in recovery at instant `now`. -/
def endsInRecovery (r : OrbiRequest) (now : Timestamp) : Bool :=
  !r.isTerminal && (r.recovered now).isTerminal

end OrbiRequest

/-- The reservations of the requests that end in recovery and count in the project's
current period. -/
def recoveredTokens (db : Db) (now : Timestamp) (period : Period) (project : Project) : ℤ :=
  db.requests.sumBy fun r =>
    if r.endsInRecovery now && r.countsIn period project then r.reservedTokens else 0

/-- The project row with these reservations taken off its two counters, neither of which
goes below zero. -/
def Project.releasing (project : Project) (db : Db) (now : Timestamp) : Project :=
  { project with
    dailyTokensUsed :=
      max 0 (project.dailyTokensUsed - recoveredTokens db now .daily project)
    monthlyTokensUsed :=
      max 0 (project.monthlyTokensUsed - recoveredTokens db now .monthly project) }

/-! ## Rows -/

namespace RowWellFormed

variable {history : List Event} {r : OrbiRequest} {now : Timestamp}

theorem isLive_iff (h : RowWellFormed history r) :
    r.isLive = true ↔ r.status = .assigned := by
  constructor
  · exact h.assigned_of_isLive
  · intro hassigned
    simp [OrbiRequest.isLive, liveStatuses, hassigned]

theorem leaseLapsed_iff (h : RowWellFormed history r) :
    r.leaseLapsed now = true ↔ r.status = .assigned ∧ r.leaseBefore now = true := by
  simp only [OrbiRequest.leaseLapsed, Bool.and_eq_true, h.isLive_iff]
  constructor
  · rintro ⟨⟨hassigned, hlease⟩, -⟩
    exact ⟨hassigned, hlease⟩
  · rintro ⟨hassigned, hlease⟩
    have hresult := (h.assigned hassigned).2.2
    exact ⟨⟨hassigned, hlease⟩, by simp [hresult]⟩

theorem isQueueExpired_iff (h : RowWellFormed history r) :
    r.isQueueExpired now = true ↔ r.status = .queued ∧ r.expiresAt < now := by
  simp only [OrbiRequest.isQueueExpired, Bool.and_eq_true, beq_iff_eq, decide_eq_true_eq]
  constructor
  · rintro ⟨hboth, -⟩
    exact hboth
  · rintro ⟨hqueued, hexpired⟩
    have hresult := (h.queued hqueued).2.2
    exact ⟨⟨hqueued, hexpired⟩, by simp [hresult]⟩

/-- On a well-formed row the three updates in sequence are `recovered`. -/
theorem after_recover_eq (h : RowWellFormed history r) (reply : Reply) :
    r.after (.recover now) reply = r.recovered now := by
  have hle := h.retryCount_le
  by_cases hlapsed : r.leaseLapsed now = true
  · have hcond := h.leaseLapsed_iff.mp hlapsed
    have hresult := (h.assigned hcond.1).2.2
    by_cases hlt : r.retryCount < r.maxRetries
    · have hretry : r.isRetryable now = true := by
        simp [OrbiRequest.isRetryable, hlapsed, hlt]
      have hqueue : r.leaseRequeued.isQueueExpired now = decide (r.expiresAt < now) := by
        simp [OrbiRequest.isQueueExpired, OrbiRequest.leaseRequeued, hresult]
      simp [OrbiRequest.after, OrbiRequest.recovered, hretry, hqueue, hcond, hlt]
    · have hretry : r.isRetryable now = false := by
        simp [OrbiRequest.isRetryable, hlt]
      have heq : r.retryCount = r.maxRetries := by omega
      have hexhausted : r.isExhausted now = true := by
        simp [OrbiRequest.isExhausted, hlapsed, heq]
      simp [OrbiRequest.after, OrbiRequest.recovered, hretry, hexhausted, hcond, heq]
  · have hcond : ¬(r.status = .assigned ∧ r.leaseBefore now = true) := by
      rw [← h.leaseLapsed_iff]
      exact hlapsed
    have hretry : r.isRetryable now = false := by
      simp [OrbiRequest.isRetryable, hlapsed]
    have hexhausted : r.isExhausted now = false := by
      simp [OrbiRequest.isExhausted, hlapsed]
    simp only [OrbiRequest.after, OrbiRequest.recovered, hretry, hexhausted, if_neg hcond,
      Bool.false_eq_true, if_false, h.isQueueExpired_iff]

theorem settlement_recover (h : RowWellFormed history r) {count : ℕ}
    (hstep : RowStep r (.recover now) (.recovered count)
      (r.after (.recover now) (.recovered count))) :
    r.settlement (.recover now) =
      if r.endsInRecovery now then some (r.settledBy 0) else none := by
  have hafter : r.after (.recover now) (.recovered count) = r.recovered now :=
    h.after_recover_eq (.recovered count)
  rcases OrbiRequest.settled_or_unsettled hstep with hkept | ⟨actual, hsettled⟩
  · have hterminal := hkept.isTerminal_eq
    rw [hafter] at hterminal
    have hends : r.endsInRecovery now = false := by
      simp [OrbiRequest.endsInRecovery, hterminal]
    rw [hkept.settlement_eq, hends]
    rfl
  · have hsettlement := hsettled.settlement_eq
    obtain ⟨-, -, -, hopen⟩ := OrbiRequest.settlement_spec hsettlement
    have hterminal := hsettled.isTerminal
    rw [hafter] at hterminal
    have hends : r.endsInRecovery now = true := by
      simp [OrbiRequest.endsInRecovery, OrbiRequest.isTerminal_of_isOpen hopen, hterminal]
    rw [hends, if_pos rfl]
    obtain ⟨-, hsome⟩ := Option.ite_none_right_eq_some.mp hsettlement
    rw [hsettlement, hsome]

end RowWellFormed

/-- Recovery has nothing to do on the rows it leaves. -/
theorem OrbiRequest.recovered_recovered (r : OrbiRequest) (now : Timestamp) :
    (r.recovered now).recovered now = r.recovered now := by
  by_cases hlapsed : r.status = .assigned ∧ r.leaseBefore now = true
  · by_cases hlt : r.retryCount < r.maxRetries
    · by_cases hexpired : r.expiresAt < now
      · have hrow : r.recovered now = r.leaseRequeued.queueExpired := by
          simp [recovered, hlapsed, hlt, hexpired]
        rw [hrow]
        simp [recovered, queueExpired]
      · have hrow : r.recovered now = r.leaseRequeued := by
          simp [recovered, hlapsed, hlt, hexpired]
        rw [hrow]
        simp [recovered, leaseRequeued, hexpired]
    · by_cases heq : r.retryCount = r.maxRetries
      · have hrow : r.recovered now = r.leaseFailed := by
          simp [recovered, hlapsed, heq]
        rw [hrow]
        simp [recovered, leaseFailed]
      · have hrow : r.recovered now = r := by
          simp [recovered, hlapsed, hlt, heq]
        rw [hrow, hrow]
  · by_cases hexpired : r.status = .queued ∧ r.expiresAt < now
    · have hrow : r.recovered now = r.queueExpired := by
        simp [recovered, hexpired]
      rw [hrow]
      simp [recovered, queueExpired]
    · have hrow : r.recovered now = r := by
        simp only [recovered, if_neg hlapsed, if_neg hexpired]
      rw [hrow, hrow]

/-- A row that recovery leaves as it is has not lapsed, neither in the queue nor with a
worker. -/
theorem RowWellFormed.lapsed_of_recovered_eq {history : List Event} {r : OrbiRequest}
    {now : Timestamp} (h : RowWellFormed history r) (hkept : r.recovered now = r) :
    r.leaseLapsed now = false ∧ r.isQueueExpired now = false := by
  have hle := h.retryCount_le
  refine ⟨?_, ?_⟩
  · by_contra hyes
    have hlapsed := h.leaseLapsed_iff.mp (Bool.eq_true_of_not_eq_false hyes)
    have hstatus := congrArg OrbiRequest.status hkept
    rw [hlapsed.1, OrbiRequest.recovered, if_pos hlapsed] at hstatus
    split at hstatus
    · split at hstatus
      · cases hstatus
      · cases hstatus
    · rw [if_pos (by omega)] at hstatus
      cases hstatus
  · by_contra hyes
    have hexpired := h.isQueueExpired_iff.mp (Bool.eq_true_of_not_eq_false hyes)
    have hstatus := congrArg OrbiRequest.status hkept
    have hqueued : ¬(r.status = .assigned ∧ r.leaseBefore now = true) := by
      simp [hexpired.1]
    rw [hexpired.1, OrbiRequest.recovered, if_neg hqueued, if_pos hexpired] at hstatus
    cases hstatus

/-! ## Counters -/

section Counters

variable {db db' : Db} {history : List Event} {now : Timestamp} {count : ℕ}

theorem sum_releases_recover (hexec : exec db (.recover now) = .ok (.recovered count, db'))
    (hformed : ∀ r ∈ db.requests.rows, RowWellFormed history r) (period : Period)
    (project : Project) :
    ((settlements db (.recover now)).map fun s => s.releases period project).sum =
      recoveredTokens db now period project := by
  rw [sum_settlements, recoveredTokens, Table.sumBy]
  congr 1
  apply List.map_congr_left
  intro r hr
  rw [(hformed r hr).settlement_recover (exec_rowStep hexec hr)]
  cases hends : r.endsInRecovery now with
  | true =>
      rw [if_pos rfl, Option.elim_some, Settlement.releases, countsIn_settledBy,
        Bool.true_and]
      rfl
  | false => rfl

theorem settlement_released {s : Settlement}
    (hrows : ∀ r ∈ db.requests.rows, ReservedRow history r)
    (hs : s ∈ settlements db (.recover now)) :
    s.actualTokens = 0 ∧ 0 ≤ s.reservedTokens := by
  obtain ⟨r, hr, hsettlement⟩ := mem_settlements hs
  obtain ⟨-, hsome⟩ := Option.ite_none_right_eq_some.mp hsettlement
  cases hsome
  have hpos := (hrows r hr).reserved_pos
  exact ⟨rfl, le_trans (by decide) hpos⟩

theorem settleProject_recover
    (hexec : exec db (.recover now) = .ok (.recovered count, db'))
    (hformed : ∀ r ∈ db.requests.rows, RowWellFormed history r)
    (hrows : ∀ r ∈ db.requests.rows, ReservedRow history r) (hnonneg : CountersNonneg db)
    {project : Project} (hproject : project ∈ db.projects.rows) :
    settleProject (settlements db (.recover now)) project = project.releasing db now := by
  have hused : ∀ period : Period,
      period.used (settleProject (settlements db (.recover now)) project) =
        max 0 (period.used project - recoveredTokens db now period project) := by
    intro period
    rw [used_settleProject_of_released period _ project
      (fun s hs => settlement_released hrows hs) (hnonneg project hproject period),
      sum_releases_recover hexec hformed]
  apply Project.ext_periods
  · exact id_settleProject _ _
  · exact isActive_settleProject _ _
  · intro period
    rw [limit_settleProject]
    cases period <;> rfl
  · intro period
    rw [stamp_settleProject]
    cases period <;> rfl
  · intro period
    rw [hused]
    cases period <;> rfl

theorem used_releasing (project : Project) (db : Db) (now : Timestamp) (period : Period) :
    period.used (project.releasing db now) =
      max 0 (period.used project - recoveredTokens db now period project) := by
  cases period <;> rfl

end Counters

/-! ## Recovery in a reachable state -/

/-- What recovery at instant `now` does: the rows, the counters (exactly the reservations
when the dates never decreased), nothing else, and nothing more when it is called again;
and a request that is still open afterwards has not expired or has a lease. -/
structure LeasesRecovered (history : List Event) (db : Db) (now : Timestamp) (db' : Db) :
    Prop where
  rows : db'.requests.rows = db.requests.rows.map fun r => r.recovered now
  projects : db'.projects.rows = db.projects.rows.map fun p => p.releasing db now
  subtracted : DatesNondecreasing history → ∀ project ∈ db.projects.rows,
    ∀ period : Period, period.used (project.releasing db now) =
      period.used project - recoveredTokens db now period project
  kept : ∀ project ∈ db.projects.rows, ∀ period : Period,
    (∀ r ∈ db.requests.rows, r.endsInRecovery now = true →
      r.countsIn period project = false) →
    period.used (project.releasing db now) = period.used project
  apiKeys : db'.apiKeys = db.apiKeys
  modelAliases : db'.modelAliases = db.modelAliases
  workers : db'.workers = db.workers
  usageRecords : db'.usageRecords = db.usageRecords
  again : exec db' (.recover now) = .ok (.recovered 0, db')
  ended : ∀ r ∈ db'.requests.rows, r.expiresAt < now →
    ¬(r.status = .assigned ∧ ∃ lease, r.leaseExpires = some lease ∧ now ≤ lease) →
    r.isTerminal = true

/-- A second recovery at the same instant changes nothing. -/
theorem exec_recover_again {history : List Event} {db : Db} {now : Timestamp}
    (hknown : ProjectsKnown db) (hformed : ∀ r ∈ db.requests.rows, RowWellFormed history r)
    (hkept : ∀ r ∈ db.requests.rows, r.recovered now = r) :
    exec db (.recover now) = .ok (.recovered 0, db) := by
  obtain ⟨count, db', hrecover⟩ := QueueService.recoverExpiredLeases_of_known now hknown
  have hexec : exec db (.recover now) = .ok (.recovered count, db') :=
    Except.bind_eq_ok_iff.mpr ⟨_, hrecover, rfl⟩
  have hcount : count = 0 := by
    rw [QueueService.recoverExpiredLeases_count hrecover, List.length_eq_zero_iff,
      List.filter_eq_nil_iff]
    intro r hr
    have hlapsed := ((hformed r hr).lapsed_of_recovered_eq (hkept r hr)).1
    simp [OrbiRequest.isRetryable, hlapsed]
  have hnone : settlements db (.recover now) = [] := by
    rw [List.eq_nil_iff_forall_not_mem]
    intro s hs
    obtain ⟨r, hr, hsettlement⟩ := mem_settlements hs
    rw [(hformed r hr).settlement_recover (exec_rowStep hexec hr)] at hsettlement
    have hends : r.endsInRecovery now = false := by
      simp [OrbiRequest.endsInRecovery, hkept r hr]
    rw [hends] at hsettlement
    cases hsettlement
  obtain ⟨_, -, requests, hrows, hdb⟩ := exec_recover_spec hexec
  have hsame : requests = db.requests := by
    apply Table.ext
    rw [hrows]
    calc
      db.requests.rows.map (fun r => r.after (.recover now) (.recovered count)) =
          db.requests.rows.map id := by
        apply List.map_congr_left
        intro r hr
        rw [(hformed r hr).after_recover_eq, hkept r hr]
        rfl
      _ = db.requests.rows := List.map_id _
  rw [hexec, hdb, hcount, hsame, hnone, settleAll_nil]

theorem RowWellFormed.isTerminal_of_recovered_eq {history : List Event} {r : OrbiRequest}
    {now : Timestamp} (h : RowWellFormed history r) (hkept : r.recovered now = r)
    (hexpired : r.expiresAt < now)
    (hlease : ¬(r.status = .assigned ∧ ∃ lease, r.leaseExpires = some lease ∧ now ≤ lease)) :
    r.isTerminal = true := by
  obtain ⟨hlapsed, hqueue⟩ := h.lapsed_of_recovered_eq hkept
  have hstatus := h.status_mem
  simp only [List.mem_cons, List.not_mem_nil, or_false] at hstatus
  rcases hstatus with hqueued | hassigned | hended | hended | hended
  · have hyes := h.isQueueExpired_iff.mpr ⟨hqueued, hexpired⟩
    rw [hqueue] at hyes
    cases hyes
  · obtain ⟨lease, hsome⟩ := Option.isSome_iff_exists.mp (h.assigned hassigned).2.1
    have hbefore : r.leaseBefore now = true := by
      simp only [OrbiRequest.leaseBefore, hsome, decide_eq_true_eq]
      by_contra hlate
      exact hlease ⟨hassigned, lease, hsome, not_lt.mp hlate⟩
    have hyes := h.leaseLapsed_iff.mpr ⟨hassigned, hbefore⟩
    rw [hlapsed] at hyes
    cases hyes
  · simp [OrbiRequest.isTerminal, hended]
  · simp [OrbiRequest.isTerminal, hended]
  · simp [OrbiRequest.isTerminal, hended]

/-- Recovery succeeds in every reachable state, whatever the instant, and does what
`LeasesRecovered` says. -/
theorem lease_recovery {db₀ db : Db} {history : List Event} (hfresh : Fresh db₀)
    (hrun : History db₀ history db) (now : Timestamp) :
    ∃ count db', exec db (.recover now) = .ok (.recovered count, db') ∧
      LeasesRecovered history db now db' := by
  have hknown := projectsKnown_of_history hfresh.requests_empty hrun
  have hformed := reachable_rows_wellFormed hfresh hrun
  have hrows := reservedRow_of_history hfresh.requests_empty hrun
  have hnonneg := countersNonneg_of_history hfresh hrun
  obtain ⟨count, db', hrecover⟩ := QueueService.recoverExpiredLeases_of_known now hknown
  have hexec : exec db (.recover now) = .ok (.recovered count, db') :=
    Except.bind_eq_ok_iff.mpr ⟨_, hrecover, rfl⟩
  have hformed' := reachable_rows_wellFormed hfresh (hrun.next (.performed hexec))
  have hmapped : db'.requests.rows = db.requests.rows.map fun r => r.recovered now := by
    have hnone : (Reply.recovered count).newRows = [] := rfl
    rw [exec_requests hexec, hnone, List.append_nil]
    apply List.map_congr_left
    intro r hr
    exact (hformed r hr).after_recover_eq _
  have hkept : ∀ r ∈ db'.requests.rows, r.recovered now = r := by
    intro r' hr'
    rw [hmapped] at hr'
    obtain ⟨r, -, rfl⟩ := List.mem_map.mp hr'
    exact r.recovered_recovered now
  obtain ⟨-, -, requests, -, hdb⟩ := exec_recover_spec hexec
  refine ⟨count, db', hexec, hmapped, ?_, ?_, ?_, by rw [hdb], by rw [hdb], by rw [hdb],
    by rw [hdb], exec_recover_again (hknown.exec hexec) hformed' hkept, ?_⟩
  · rw [exec_projects hexec rfl]
    apply List.map_congr_left
    intro project hproject
    exact settleProject_recover hexec hformed hrows hnonneg hproject
  · intro hdates project hproject period
    have hcovered := releases_le_used (budgetConserved_of_history hfresh hrun hdates) hrows
      (.recover now) hproject period
    rw [sum_releases_recover hexec hformed] at hcovered
    rw [used_releasing]
    exact max_eq_right (by omega)
  · intro project hproject period hnone
    have hzero : recoveredTokens db now period project = 0 := by
      apply List.sum_eq_zero
      intro value hvalue
      obtain ⟨r, hr, rfl⟩ := List.mem_map.mp hvalue
      cases hends : r.endsInRecovery now with
      | true => simp [hnone r hr hends]
      | false => rfl
    rw [used_releasing, hzero, Int.sub_zero]
    exact max_eq_right (hnonneg project hproject period)
  · intro r hr hexpired hlease
    exact (hformed' r hr).isTerminal_of_recovered_eq (hkept r hr) hexpired hlease

namespace Sample

/-- One request with a worker, another one in the queue. -/
def oneAssigned : List Op :=
  assigned ++ [.chat (call 101 none 2)]

end Sample

/-- A lapsed lease is taken up again while the request may wait; later both expire. -/
theorem lease_recovery_one_assigned :
    (runOps Sample.db (Sample.oneAssigned ++ [.recover (seconds 200)])).2.requests.rows.map
        (fun r => (r.status, r.retryCount)) = [(.queued, 1), (.queued, 0)] ∧
      (runOps Sample.db
        (Sample.oneAssigned ++ [.recover (seconds 100000)])).2.requests.rows.map
          (fun r => (r.status, r.retryCount)) = [(.expired, 1), (.expired, 0)] ∧
      ∃ count db', exec (runOps Sample.db Sample.oneAssigned).2 (.recover (seconds 200)) =
          .ok (.recovered count, db') ∧
        LeasesRecovered (runOps Sample.db Sample.oneAssigned).1
          (runOps Sample.db Sample.oneAssigned).2 (seconds 200) db' :=
  ⟨by decide, by decide, lease_recovery Sample.fresh_db
    (history_runOps Sample.db Sample.oneAssigned) (seconds 200)⟩

/-- The clamp can cut a reservation off: a clock that steps back to the first day restarts
its counter, and two reservations of ten tokens are then released from a counter of
ten. -/
theorem not_reservations_subtracted :
    ¬∀ (db₀ db db' : Db) (history : List Event) (now : Timestamp) (reply : Reply),
      Fresh db₀ → History db₀ history db → exec db (.recover now) = .ok (reply, db') →
      ∀ project ∈ db.projects.rows, ∀ project' ∈ db'.projects.rows,
        project'.id = project.id → ∀ period : Period,
          period.used project' =
            period.used project - recoveredTokens db now period project := by
  intro h
  have hrun := history_runOps Sample.db Sample.revisited
  have hok : (exec (runOps Sample.db Sample.revisited).2
      (.recover (seconds 100000))).isOk = true := by decide
  obtain ⟨⟨reply, db'⟩, hexec⟩ := Except.isOk_iff.mp hok
  have hdb : db' = (perform (runOps Sample.db Sample.revisited).2
      (.recover (seconds 100000))).2 := by
    rw [perform, hexec]
  rw [hdb] at hexec
  have hdaily : ∀ project ∈ (runOps Sample.db Sample.revisited).2.projects.rows,
      ∀ project' ∈ (perform (runOps Sample.db Sample.revisited).2
        (.recover (seconds 100000))).2.projects.rows, project'.id = project.id →
        project'.dailyTokensUsed = project.dailyTokensUsed - recoveredTokens
          (runOps Sample.db Sample.revisited).2 (seconds 100000) .daily project :=
    fun project hproject project' hproject' hid =>
      h _ _ _ _ _ _ Sample.fresh_db hrun hexec project hproject project' hproject' hid .daily
  revert hdaily
  decide

end OrbiGateway
