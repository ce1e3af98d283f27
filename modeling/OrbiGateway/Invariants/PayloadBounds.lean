import OrbiGateway.Invariants.IntegerRanges

/-!
# Bounded payloads

One report adds less than 2 ^ 32 to a 64-bit sum, so as long as every report and every
limit fits its own columns the first 2 ^ 31 calls of a run stay in range.  Where every call
fits, the declared columns cannot be told from unbounded integers.
-/

namespace OrbiGateway

open Relational Transition Constrained

/-! ## Unbounded integers -/

/-- A run in which no call is refused for an integer is a run on unbounded integers. -/
theorem callRun_of_storedHistory {db₀ db : StoredDb} {history : List StoredEvent}
    (hrun : StoredHistory db₀ history db)
    (hallowed : ∀ call, StoredEvent.refused call .violation ∉ history) :
    Run CallStep db₀.val history db.val := by
  induction hrun with
  | start => exact .start
  | @next history before after e hprev hlast ih =>
      have hbefore := ih fun call hcall => hallowed call (List.mem_cons_of_mem e hcall)
      refine hbefore.next ?_
      cases hlast with
      | performed hstore => exact .performed (guarded_eq_ok_iff.mp hstore).2
      | @refused call refusal hstore =>
          cases refusal with
          | raised failure => exact .failed (guarded_eq_raised_iff.mp hstore).2
          | violation => exact absurd List.mem_cons_self (hallowed call)
      | rescanned hperm hrest =>
          rw [hrest]
          exact .rescanned hperm

/-- Conversely, a run on unbounded integers in which every call fits is one on the declared
columns. -/
theorem storedHistory_of_callRun {db₀ : StoredDb} {next : NamedDb}
    {history : List StoredEvent} (hfresh : Fresh db₀.val.toDb)
    (hrun : Run CallStep db₀.val history next) :
    Along CallStep (fun before e => ∀ call, e.call = some call → call.Fits before.toDb)
        db₀.val history next →
      ∃ db : StoredDb, db.val = next ∧ StoredHistory db₀ history db := by
  induction hrun with
  | start =>
      intro _
      exact ⟨db₀, rfl, .start⟩
  | @next history before after e hprev hlast ih =>
      intro hfits
      obtain ⟨hprevFits, hlastFits⟩ := hfits.of_cons hprev hlast
      obtain ⟨stored, rfl, hstored⟩ := ih hprevFits
      have hsound := ledgersSound_of_storedHistory hfresh hstored
      have hstores : ∀ call, e.call = some call → call.StoresInRange stored.val :=
        fun call hcall => (GatewayCall.storesInRange_iff_fits stored.property hsound).mpr
          (hlastFits call hcall)
      cases hlast with
      | @performed _ call reply hcall =>
          have hrange := hstores call rfl
          exact ⟨⟨after, hrange.rows reply after hcall⟩, rfl,
            hstored.next (.performed (guarded_eq_ok_iff.mpr ⟨hrange.parameters, hcall⟩))⟩
      | @failed call failure hcall =>
          have hrange := hstores call rfl
          exact ⟨stored, rfl,
            hstored.next (.refused (guarded_eq_raised_iff.mpr ⟨hrange.parameters, hcall⟩))⟩
      | @rescanned requests hperm =>
          have hin := stored.property
          exact ⟨⟨{ stored.val with requests := requests }, hin.projects, hin.apiKeys,
            hin.workers, fun r hr => hin.requests r (hperm.mem_iff.mp hr),
            hin.usageRecords⟩, rfl, hstored.next (.rescanned hperm rfl)⟩

/-! ## Sums along a run -/

/-- The integers of the payload fit the columns that they are stored in. -/
def GatewayCall.PayloadFits : GatewayCall → Prop
  | perform (.submitResult _ payload _) =>
      payload.inputTokens ≤ IntegerType.integer.maxValue ∧
        payload.outputTokens ≤ IntegerType.integer.maxValue ∧
        payload.latencyMs ≤ IntegerType.integer.maxValue
  | createProject payload _ =>
      payload.dailyTokenLimit ≤ IntegerType.bigInteger.maxValue ∧
        payload.monthlyTokenLimit ≤ IntegerType.bigInteger.maxValue
  | _ => True

/-- The 64-bit sums after `n` calls: a report adds at most twice the largest 32-bit
integer, and a reservation less. -/
structure UsedAtMost (n : ℕ) (db : Db) : Prop where
  counters : ∀ project ∈ db.projects.rows, ∀ period : Period,
    period.used project ≤ n * 4294967294
  totals : ∀ record ∈ db.apiKeys.rows,
    record.totalRequests ≤ n ∧ record.totalTokens ≤ n * 4294967294

namespace UsedAtMost

variable {n : ℕ} {db db' : Db} {op : Op} {reply : Reply}

theorem succ (h : UsedAtMost n db) : UsedAtMost (n + 1) db where
  counters := by
    intro project hproject period
    have hused := h.counters project hproject period
    push_cast
    omega
  totals := by
    intro record hrecord
    have htotals := h.totals record hrecord
    push_cast
    omega

theorem tokens_le {worker : Worker} {payload : WorkerResultRequest} {now : Timestamp}
    (h : (GatewayCall.perform (.submitResult worker payload now)).PayloadFits) :
    payload.inputTokens + payload.outputTokens ≤ 4294967294 :=
  (add_le_add h.1 h.2.1).trans (by decide)

theorem counters_exec (h : UsedAtMost n db) (hsound : LedgersSound db)
    (hexec : exec db op = .ok (reply, db'))
    (hpayload : (GatewayCall.perform op).PayloadFits) :
    ∀ project ∈ db'.projects.rows, ∀ period : Period,
      period.used project ≤ (n + 1 : ℕ) * 4294967294 := by
  intro project' hproject' period
  rcases exec_project_cases hexec hproject' with
    ⟨-, project, hproject, rfl⟩ | ⟨call, record, -, rfl, ⟨project, hrow⟩ | ⟨hold, -⟩⟩
  · by_cases hop : ∃ worker payload now, op = .submitResult worker payload now
    · obtain ⟨worker, payload, now, rfl⟩ := hop
      have htokens := tokens_le hpayload
      have hused := h.counters project hproject period
      have hrest := h.succ.counters project hproject period
      rcases exec_submitResult_cases hexec with ⟨-, -, hno⟩ | ⟨r, hr, -, -, hheld, -⟩
      · rw [settlements_submitResult_of_not_held hno]
        exact hrest
      · have hreserved := hsound.reserved r hr
        rw [settlements_submitResult hr hheld, used_settleProject_settledBy]
        split
        · push_cast
          exact max_le (by omega) (by omega)
        · exact hrest
    · have hle := actual_le_reserved hsound.reserved
        fun worker payload now heq => hop ⟨worker, payload, now, heq⟩
      have hbound : (0 : ℤ) ≤ (n + 1 : ℕ) * 4294967294 := by omega
      exact used_settleProject_le hbound _ project hle
        (h.succ.counters project hproject period)
  · have hin := OrbiRequest.rowInRange_iff.mp (newRow_inRange hexec List.mem_cons_self)
    have htokens : record.reservedTokens ≤ 2147483647 := hin.2.2.2.1.2
    have hused := h.counters project (Table.mem_of_find hrow.findProject) period
    rw [(Project.reserve_spec hrow.reserve).used_eq]
    push_cast
    split <;> omega
  · exact h.succ.counters project' hold period

theorem totals_exec (h : UsedAtMost n db) (hexec : exec db op = .ok (reply, db'))
    (hpayload : (GatewayCall.perform op).PayloadFits) :
    ∀ record ∈ db'.apiKeys.rows, record.totalRequests ≤ (n + 1 : ℕ) ∧
      record.totalTokens ≤ (n + 1 : ℕ) * 4294967294 := by
  intro record' hrecord'
  cases exec_ledgerStep hexec with
  | @counted call reply apiKey hkey hkeys husage =>
      obtain ⟨found, hfound, -, -, hcount, -⟩ := requireApiKey_spec hkey
      rw [hkeys] at hrecord'
      rcases Table.mem_put hrecord' with rfl | ⟨hold, -⟩
      · obtain ⟨hrequests, htokens⟩ := APIKey.totals_countCall hcount
        rw [hrequests, htokens]
        exact h.succ.totals found hfound
      · exact h.succ.totals record' hold
  | kept hchat hkeys husage hrefused =>
      rw [hkeys] at hrecord'
      exact h.succ.totals record' hrecord'
  | @used worker payload now r hmem hheld hkeys husage =>
      have htokens := tokens_le hpayload
      rw [hkeys, QueueService.countUse, Table.rows_updateWhere] at hrecord'
      obtain ⟨record, hrecord, rfl⟩ := List.mem_map.mp hrecord'
      have htotals := h.totals record hrecord
      split
      · simp only [APIKey.countUse]
        push_cast
        omega
      · exact h.succ.totals record hrecord

theorem storedStep {db db' : StoredDb} {e : StoredEvent} (h : UsedAtMost n db.val.toDb)
    (hsound : LedgersSound db.val.toDb)
    (hpayload : ∀ call, e.call = some call → call.PayloadFits)
    (hstep : StoredStep db e db') : UsedAtMost (n + 1) db'.val.toDb := by
  cases hstep with
  | @performed _ call reply hstore =>
      obtain ⟨-, hrun⟩ := guarded_eq_ok_iff.mp hstore
      cases call with
      | perform op =>
          obtain ⟨answer, mid, hexec, -, hnext⟩ :=
            GatewayCall.run_perform_eq_ok_iff.mp hrun
          rw [hnext]
          exact ⟨h.counters_exec hsound hexec (hpayload _ rfl),
            h.totals_exec hexec (hpayload _ rfl)⟩
      | createProject payload readings =>
          obtain ⟨projects, projectNames, hinsert, hnext⟩ :=
            GatewayCall.run_createProject_spec hrun
          rw [hnext]
          refine ⟨?_, h.succ.totals⟩
          intro project hproject period
          rcases (Table.mem_of_insert hinsert).mp hproject with hold | rfl
          · exact h.succ.counters project hold period
          · have hzero : period.used (newProject payload readings) = 0 := by
              cases period <;> rfl
            rw [hzero]
            omega
  | refused => exact h.succ
  | rescanned hperm hrest =>
      rw [hrest]
      exact ⟨h.succ.counters, h.succ.totals⟩

/-- With less than 2 ^ 31 calls made there is room for every report. -/
theorem fits (h : UsedAtMost n db) (hsound : LedgersSound db) (hn : n < 2147483648)
    {call : GatewayCall} (hpayload : call.PayloadFits) : call.Fits db := by
  cases call with
  | createProject payload readings => exact hpayload
  | perform op =>
      cases op with
      | submitResult worker payload now =>
          have htokens := tokens_le hpayload
          refine ⟨hpayload.1, hpayload.2.1, ?_⟩
          intro r hr hheld
          refine ⟨hpayload.2.2, ?_, ?_⟩
          · intro record hrecord hid
            have htotals := h.totals record hrecord
            simp only [IntegerType.maxValue]
            omega
          · intro project hproject period hcounts
            have hused := h.counters project hproject period
            have hreserved := hsound.reserved r hr
            simp only [IntegerType.maxValue]
            omega
      | _ => exact trivial

end UsedAtMost

/-- From a fresh state with unused keys, the sums grow with the number of calls. -/
theorem usedAtMost_of_storedHistory {db₀ db : StoredDb} {history : List StoredEvent}
    (hfresh : Fresh db₀.val.toDb) (hunused : KeysUnused db₀.val.toDb)
    (hrun : StoredHistory db₀ history db) :
    (∀ e ∈ history, ∀ call, e.call = some call → call.PayloadFits) →
      UsedAtMost history.length db.val.toDb := by
  induction hrun with
  | start =>
      intro _
      refine ⟨?_, ?_⟩
      · intro project hproject period
        exact (hfresh.counters_zero project hproject period).le.trans (by simp)
      · intro record hrecord
        obtain ⟨hrequests, htokens⟩ := hunused record hrecord
        simp [hrequests, htokens]
  | @next history before after e hprev hlast ih =>
      intro hpayloads
      have hsums := ih fun e' he' => hpayloads e' (List.mem_cons_of_mem e he')
      exact hsums.storedStep (ledgersSound_of_storedHistory hfresh hprev)
        (hpayloads e List.mem_cons_self) hlast

/-- From a fresh state with unused keys, the first 2 ^ 31 calls stay in range if their
payloads do. -/
theorem integersInRange_of_payloadFits {db₀ db : StoredDb} {history : List StoredEvent}
    (hfresh : Fresh db₀.val.toDb) (hunused : KeysUnused db₀.val.toDb)
    (hrun : StoredHistory db₀ history db) (hlength : history.length ≤ 2147483648)
    (hpayloads : ∀ e ∈ history, ∀ call, e.call = some call → call.PayloadFits) :
    IntegersInRange db₀ history db := by
  have hfits : CallsFit db₀ history db := by
    rintro newer e older before after rfl hold hstep hnew call hcall
    have hsums := usedAtMost_of_storedHistory hfresh hunused hold fun e' he' =>
      hpayloads e' (List.mem_append_right newer (List.mem_cons_of_mem e he'))
    have hshort : older.length < 2147483648 := by
      simp only [List.length_append, List.length_cons] at hlength
      omega
    exact hsums.fits (ledgersSound_of_storedHistory hfresh hold) hshort
      (hpayloads e (by simp) call hcall)
  have hstays := (along_staysInRange_iff hfresh).mpr hfits
  exact ⟨hstays, not_refused_of_stays hrun hstays⟩

end OrbiGateway
