import OrbiGateway.Invariants.References

/-!
# Ledgers under administration

The row invariant and the two ledgers hold of every run of operations with administration in
between.  What is new is that a project or a key can be created while requests are in
progress: the new row starts with zero counters, and nothing that was booked before can be of
it, because everything booked refers to rows that existed.
-/

namespace OrbiGateway

open Relational Transition

section CoreRuns

variable {db₀ db : Db} {history : List (Option Event)}

/-! ## Rows -/

theorem rowWellFormed_of_coreRun (hstart : db₀.requests.rows = [])
    (hrun : CoreRun db₀ history db) :
    ∀ r ∈ db.requests.rows, RowWellFormed (operations history) r := by
  apply coreRun_rows (I := RowWellFormed) hrun hstart
  · intro history db call record project project' settled hnew
    exact .newRow hnew
  · intro history r op reply r' settled ih hstep
    exact ih.step hstep
  · intro history r op failure ih
    exact ih.of_lastClaimant_eq rfl
  · intro history r ih
    exact ih.of_lastClaimant_eq rfl

theorem reservedRow_of_coreRun (hstart : db₀.requests.rows = [])
    (hrun : CoreRun db₀ history db) :
    ∀ r ∈ db.requests.rows, ReservedRow (operations history) r := by
  apply coreRun_rows (I := ReservedRow) hrun hstart
  · intro history db call record project project' settled hnew
    exact .newRow hnew
  · intro history r op reply r' settled ih hstep
    exact ih.step hstep
  · intro history r op failure ih
    exact ih.cons
  · intro history r ih
    exact ih.cons

theorem rowsAccepted_of_coreRun (hstart : db₀.requests.rows = [])
    (hrun : CoreRun db₀ history db) : RowsAccepted (operations history) db := by
  apply coreRun_invariant (I := RowsAccepted) hrun
  · refine ⟨?_, ?_⟩
    · intro r hr
      rw [hstart] at hr
      cases hr
    · intro row hrow
      cases hrow
  · intro history db e db' _ h hstep _
    exact h.step hstep
  · intro history db db' _ h hadmin
    refine ⟨?_, ?_⟩
    · rw [hadmin.requests]
      exact h.accepted
    · rw [hadmin.requests]
      exact h.kept

/-! ## The usage ledger -/

theorem References.usageOfKey_eq_nil (h : References db) {id : UUID}
    (hnew : ∀ record ∈ db.apiKeys.rows, record.id ≠ id) : usageOfKey id db = [] := by
  apply List.filter_eq_nil_iff.mpr
  intro record hrecord hid
  obtain ⟨⟨key, hkey, hsame, -⟩, -⟩ := h.usage_rows hrecord
  exact hnew key hkey (hsame.trans (beq_iff_eq.mp hid))

theorem LedgersAgree.administered {db' : Db} (h : LedgersAgree db) (href : References db)
    (hadmin : Administers db db') : LedgersAgree db' := by
  have husage : ∀ id, usageOfKey id db' = usageOfKey id db := by
    intro id
    rw [usageOfKey, hadmin.usageRecords, usageOfKey]
  refine ⟨(href.administered hadmin).usage, ?_, ?_⟩
  · rw [hadmin.requests, hadmin.usageRecords]
    exact h.of_completed
  · intro record' hrecord'
    rcases hadmin.apiKey_cases hrecord' with
      ⟨record, hrecord, hcolumns⟩ | ⟨hnew, ⟨hrequests, htokens⟩, -⟩
    · simp only [APIKey.accountColumns, APIKey.lookupColumns, Prod.mk.injEq] at hcolumns
      obtain ⟨⟨hid, -, -⟩, htotals⟩ := hcolumns
      exact (h.totals record hrecord).congr hid htotals (husage record.id)
    · have hnone := href.usageOfKey_eq_nil hnew
      refine ⟨?_, ?_⟩
      · rw [hrequests, husage, hnone]
        rfl
      · rw [htokens, husage, hnone]
        rfl

theorem ledgersAgree_of_coreRun (hfresh : Fresh db₀) (hkeys : KeysUnused db₀)
    (href : References db₀) (hrun : CoreRun db₀ history db) : LedgersAgree db := by
  apply coreRun_invariant (I := fun _ db => LedgersAgree db) hrun (.start hfresh hkeys)
  · intro history db e db' _ h hstep _
    exact h.step hstep
  · intro history db db' hprev h hadmin
    exact h.administered (references_of_coreRun href hprev) hadmin

/-! ## The budget ledger -/

theorem RowsAccepted.reserveDates_eq_nil {operations : List Event}
    (h : RowsAccepted operations db) (hknown : ProjectsKnown db) {id : UUID}
    (hnew : ∀ project ∈ db.projects.rows, project.id ≠ id) :
    reserveDates id operations = [] := by
  apply List.filterMap_eq_nil_iff.mpr
  intro row hrow
  obtain ⟨r, hr, hsame⟩ := h.kept row hrow
  obtain ⟨project, hproject, hid⟩ := hknown r hr
  have hne : row.projectId ≠ id := by
    rw [← hsame.projectId, ← hid]
    exact hnew project hproject
  exact if_neg hne

theorem stampsCurrent_of_coreRun (hstart : db₀.requests.rows = []) (href : References db₀)
    (hrun : CoreRun db₀ history db) : StampsCurrent (operations history) db := by
  apply coreRun_invariant (I := StampsCurrent) hrun
  · intro project _ day hday
    cases hday
  · intro history db e db' _ h hstep _
    exact h.step hstep
  · intro history db db' hprev h hadmin project hproject day hday period
    rcases hadmin.project_cases hproject with hold | ⟨hnew, -⟩
    · exact h project hold day hday period
    · have hnone := (rowsAccepted_of_coreRun hstart hprev).reserveDates_eq_nil
        (references_of_coreRun href hprev).projectsKnown hnew
      rw [hnone] at hday
      cases hday

/-- A project that did not exist has nothing in its ledger. -/
theorem ledger_eq_zero_of_new {project : Project} (hknown : ProjectsKnown db)
    (hnew : ∀ old ∈ db.projects.rows, old.id ≠ project.id) (period : Period) :
    ledger db period project = 0 := by
  apply List.sum_eq_zero
  intro charge hcharge
  obtain ⟨r, hr, rfl⟩ := List.mem_map.mp hcharge
  obtain ⟨old, hold, hid⟩ := hknown r hr
  have hne : r.projectId ≠ project.id := by
    rw [← hid]
    exact hnew old hold
  have hcounts : r.countsIn period project = false := by
    simp [OrbiRequest.countsIn, hne]
  rw [hcounts]
  rfl

theorem BudgetConserved.administered {db' : Db} (h : BudgetConserved db)
    (hknown : ProjectsKnown db) (hadmin : Administers db db') : BudgetConserved db' := by
  intro project hproject period
  have hsame : ledger db' period project = ledger db period project := by
    rw [ledger, hadmin.requests, ledger]
  rw [hsame]
  rcases hadmin.project_cases hproject with hold | ⟨hnew, -, hunused⟩
  · exact h project hold period
  · rw [hunused period, ledger_eq_zero_of_new hknown hnew]

theorem budgetConserved_of_coreRun (hfresh : Fresh db₀) (href : References db₀)
    (hrun : CoreRun db₀ history db) :
    DatesNondecreasing (operations history) → BudgetConserved db := by
  apply coreRun_invariant
    (I := fun history db => DatesNondecreasing history → BudgetConserved db) hrun
  · intro _ project hproject period
    rw [hfresh.counters_zero project hproject period, ledger, Table.sumBy,
      hfresh.requests_empty]
    rfl
  · intro history db e db' hprev ih hstep _ hdates
    exact (ih hdates.tail).step (reservedRow_of_coreRun hfresh.requests_empty hprev)
      (stampsCurrent_of_coreRun hfresh.requests_empty href hprev) hstep hdates
  · intro history db db' hprev ih hadmin hdates
    exact (ih hdates).administered (references_of_coreRun href hprev).projectsKnown hadmin

end CoreRuns

end OrbiGateway
