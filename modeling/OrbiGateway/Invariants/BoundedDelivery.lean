import OrbiGateway.Invariants.AttemptFencing

/-!
# Bounded delivery

Every successful claim hands a request to a worker, and everything that takes it back for
another attempt counts a retry: an error report, or the recovery of a lapsed lease.  The
number of claims can therefore be read off the row at any time, and the retry budget
bounds it.
-/

namespace OrbiGateway

open Relational Transition

/-- The successful claims that a row stands for: one for each retry, and one more from
the claim of the current attempt on. -/
def OrbiRequest.deliveries (r : OrbiRequest) : ℤ :=
  match r.status with
  | .queued | .expired => r.retryCount
  | _ => r.retryCount + 1

namespace OrbiRequest

variable {r : OrbiRequest}

theorem deliveries_of_waiting (h : r.status = .queued ∨ r.status = .expired) :
    r.deliveries = r.retryCount := by
  rcases h with h | h
  · simp [deliveries, h]
  · simp [deliveries, h]

theorem deliveries_of_assigned (h : r.status = .assigned) :
    r.deliveries = r.retryCount + 1 := by
  simp [deliveries, h]

theorem deliveries_le (r : OrbiRequest) : r.deliveries ≤ r.retryCount + 1 := by
  unfold deliveries
  split <;> omega

theorem deliveries_of_isLive {history : List Event} (hwell : RowWellFormed history r)
    (hlive : r.isLive = true) : r.deliveries = r.retryCount + 1 :=
  deliveries_of_assigned (hwell.assigned_of_isLive hlive)

end OrbiRequest

/-! ## One step -/

theorem attempts_cons (id : UUID) (e : Event) (history : List Event) :
    attempts id (e :: history) = attempts id [e] + attempts id history := by
  have happend := claimants_append id [e] history
  rw [List.singleton_append] at happend
  simp [attempts, happend]

/-- A step changes what a row stands for by the claims that it makes. -/
theorem RowStep.deliveries_eq {history : List Event} {r r' : OrbiRequest} {op : Op}
    {reply : Reply} (h : RowStep r op reply r') (hwell : RowWellFormed history r)
    (settled : List Settlement) :
    r'.deliveries = attempts r.id [.performed op reply settled] + r.deliveries := by
  cases h with
  | kept hother =>
      rw [attempts, claimants_of_not_takes hother]
      exact (Int.zero_add _).symm
  | @claimed worker leaseSeconds now hclaimable =>
      have hqueued : r.status = .queued := by
        simp only [OrbiRequest.isClaimable, Bool.and_eq_true, beq_iff_eq] at hclaimable
        exact hclaimable.1.1.1
      have hid : (r.claimed worker leaseSeconds now).id = r.id := rfl
      rw [attempts, claimants_claimed hid, r.deliveries_of_waiting (Or.inl hqueued)]
      exact Int.add_comm _ _
  | completed hheld =>
      have hlive := (OrbiRequest.isHeldBy_iff.mp hheld).2.2.2
      rw [OrbiRequest.deliveries_of_isLive hwell hlive]
      exact (Int.zero_add _).symm
  | errorRequeued hheld hretry =>
      have hlive := (OrbiRequest.isHeldBy_iff.mp hheld).2.2.2
      rw [OrbiRequest.deliveries_of_isLive hwell hlive]
      exact (Int.zero_add _).symm
  | errorFailed hheld hfinal =>
      have hlive := (OrbiRequest.isHeldBy_iff.mp hheld).2.2.2
      rw [OrbiRequest.deliveries_of_isLive hwell hlive]
      exact (Int.zero_add _).symm
  | leaseRequeued hretry hqueue =>
      simp only [OrbiRequest.isRetryable, Bool.and_eq_true] at hretry
      have hlive := OrbiRequest.isLive_of_leaseLapsed hretry.1
      rw [OrbiRequest.deliveries_of_isLive hwell hlive]
      exact (Int.zero_add _).symm
  | leaseExpired hretry hqueue =>
      simp only [OrbiRequest.isRetryable, Bool.and_eq_true] at hretry
      have hlive := OrbiRequest.isLive_of_leaseLapsed hretry.1
      rw [OrbiRequest.deliveries_of_isLive hwell hlive]
      exact (Int.zero_add _).symm
  | leaseFailed hexhausted =>
      simp only [OrbiRequest.isExhausted, Bool.and_eq_true] at hexhausted
      have hlive := OrbiRequest.isLive_of_leaseLapsed hexhausted.1
      rw [OrbiRequest.deliveries_of_isLive hwell hlive]
      exact (Int.zero_add _).symm
  | queueExpired hqueue =>
      have hqueued := OrbiRequest.status_of_isQueueExpired hqueue
      rw [r.deliveries_of_waiting (Or.inl hqueued)]
      exact (Int.zero_add _).symm

/-! ## Every run -/

/-- Every row stands for the claims of its request, and only requests in the table were
claimed. -/
structure ClaimsCounted (history : List Event) (db : Db) : Prop where
  rows : ∀ r ∈ db.requests.rows, attempts r.id history = r.deliveries
  claimed : ∀ id, attempts id history ≠ 0 → ∃ r ∈ db.requests.rows, r.id = id

theorem mem_of_attempts {db db' : Db} {op : Op} {reply : Reply}
    {settled : List Settlement} {id : UUID} (hexec : exec db op = .ok (reply, db'))
    (hclaim : attempts id [.performed op reply settled] ≠ 0) :
    ∃ r ∈ db.requests.rows, r.id = id := by
  by_contra hno
  apply hclaim
  have hother : ¬TakesRequest id op reply := by
    intro htakes
    apply hno
    cases op with
    | claim worker leaseSeconds now =>
        rcases exec_claim_cases hexec with ⟨rfl, -⟩ | ⟨r, hmem, -, rfl, -⟩
        · exact absurd htakes (fun hfalse => hfalse)
        · exact ⟨r, hmem, htakes⟩
    | chat call => exact absurd htakes (fun hfalse => hfalse)
    | recover now => exact absurd htakes (fun hfalse => hfalse)
    | submitResult worker payload now => exact absurd rfl hclaim
    | submitError worker payload => exact absurd rfl hclaim
  rw [attempts, claimants_of_not_takes hother]
  rfl

theorem ClaimsCounted.step {history : List Event} {db db' : Db} {e : Event}
    (h : ClaimsCounted history db) (hwell : ∀ r ∈ db.requests.rows, RowWellFormed history r)
    (hstep : Step db e db') : ClaimsCounted (e :: history) db' := by
  cases hstep with
  | @performed db' op reply hexec =>
      refine ⟨?_, ?_⟩
      · intro r' hr'
        rw [exec_requests hexec, List.mem_append, List.mem_map] at hr'
        rcases hr' with ⟨r, hr, rfl⟩ | hnew
        · have hrow := exec_rowStep hexec hr
          rw [hrow.fixed.1, attempts_cons, Nat.cast_add, h.rows r hr,
            hrow.deliveries_eq (hwell r hr)]
        · -- nobody has claimed a request that is new
          obtain ⟨call, project, project', rfl, rfl, hrow, -⟩ := exec_newRow hexec hnew
          have hnone : attempts r'.id history = 0 := by
            by_contra hclaimed
            obtain ⟨r, hr, hid⟩ := h.claimed r'.id hclaimed
            exact hrow.fresh r hr hid
          rw [attempts_cons, hnone, r'.deliveries_of_waiting (Or.inl hrow.status),
            hrow.retryCount]
          rfl
      · intro id hclaimed
        have hrow : ∃ r ∈ db.requests.rows, r.id = id := by
          by_cases hold : attempts id history = 0
          · rw [attempts_cons, hold, Nat.add_zero] at hclaimed
            exact mem_of_attempts hexec hclaimed
          · exact h.claimed id hold
        obtain ⟨r, hr, rfl⟩ := hrow
        refine ⟨r.after op reply, ?_, (exec_rowStep hexec hr).fixed.1⟩
        rw [exec_requests hexec]
        exact List.mem_append_left _ (List.mem_map_of_mem hr)
  | failed hexec => exact ⟨h.rows, h.claimed⟩
  | rescanned hperm =>
      refine ⟨fun r hr => h.rows r (hperm.mem_iff.mp hr), ?_⟩
      intro id hclaimed
      obtain ⟨r, hr, hid⟩ := h.claimed id hclaimed
      exact ⟨r, hperm.mem_iff.mpr hr, hid⟩

theorem claimsCounted_of_history {db₀ db : Db} {history : List Event}
    (hstart : db₀.requests.rows = []) (hrun : History db₀ history db) :
    ClaimsCounted history db := by
  apply Run.history_invariant (I := ClaimsCounted) hrun
  · refine ⟨?_, fun id hno => absurd rfl hno⟩
    intro r hr
    rw [hstart] at hr
    cases hr
  · intro history db e db' hprev ih hlast
    exact ih.step (rowWellFormed_of_history hstart hprev) hlast

/-! ## Exhausted budgets -/

/-- The event can end a request because its retries are used up: a recovery, or a report
of an error that is retryable. -/
def Event.spendsBudget : Event → Bool
  | .performed (.recover _) _ _ => true
  | .performed (.submitError _ payload) _ _ => payload.retryable
  | _ => false

/-- A row that such an event fails has no retry left. -/
theorem RowStep.exhausted {history : List Event} {r r' : OrbiRequest} {op : Op}
    {reply : Reply} (h : RowStep r op reply r') (hwell : RowWellFormed history r)
    (settled : List Settlement)
    (hspends : (Event.performed op reply settled).spendsBudget = true)
    (hbefore : r.status ≠ .failedFinal) (hafter : r'.status = .failedFinal) :
    r.maxRetries + 1 ≤ r.deliveries := by
  cases h with
  | kept => exact absurd hafter hbefore
  | @errorFailed worker payload hheld hfinal =>
      have hlive := (OrbiRequest.isHeldBy_iff.mp hheld).2.2.2
      have hretryable : payload.retryable = true := hspends
      simp only [OrbiRequest.mayRetry, hretryable, Bool.true_and, decide_eq_false_iff_not,
        not_lt] at hfinal
      rw [OrbiRequest.deliveries_of_isLive hwell hlive]
      omega
  | leaseFailed hexhausted =>
      simp only [OrbiRequest.isExhausted, Bool.and_eq_true, decide_eq_true_eq]
        at hexhausted
      have hlive := OrbiRequest.isLive_of_leaseLapsed hexhausted.1
      rw [OrbiRequest.deliveries_of_isLive hwell hlive]
      omega
  | _ => cases hafter

/-- In every run the claims of a request are its retries, with one more from the claim of
the current attempt on; so it is handed out at most `max_retries + 1` times, and it is
not failed for want of retries before it has been handed out so often. -/
theorem bounded_delivery {db₀ db : Db} {history : List Event} (hfresh : Fresh db₀)
    (hrun : History db₀ history db) :
    (∀ r ∈ db.requests.rows,
      (r.status = .queued ∨ r.status = .expired →
        attempts r.id history = r.retryCount) ∧
      (r.status = .assigned ∨ r.status = .completed ∨ r.status = .failedFinal →
        attempts r.id history = r.retryCount + 1)) ∧
    (∀ r ∈ db.requests.rows, attempts r.id history ≤ r.maxRetries + 1) ∧
    (∀ id, attempts id history ≠ 0 → ∃ r ∈ db.requests.rows, r.id = id) ∧
    (∀ e db', Step db e db' → e.spendsBudget = true →
      ∀ r ∈ db.requests.rows, ∀ r' ∈ db'.requests.rows, r'.id = r.id →
        r.status ≠ .failedFinal → r'.status = .failedFinal →
          attempts r.id history = r.maxRetries + 1) := by
  have hcounted := claimsCounted_of_history hfresh.requests_empty hrun
  have hwell := rowWellFormed_of_history hfresh.requests_empty hrun
  have hbound : ∀ r ∈ db.requests.rows, attempts r.id history ≤ r.maxRetries + 1 := by
    intro r hr
    have hle := r.deliveries_le
    have hretries := (hwell r hr).retryCount_le
    rw [hcounted.rows r hr]
    omega
  refine ⟨?_, hbound, hcounted.claimed, ?_⟩
  · intro r hr
    refine ⟨?_, ?_⟩
    · intro hstatus
      rw [hcounted.rows r hr, r.deliveries_of_waiting hstatus]
    · intro hstatus
      rw [hcounted.rows r hr]
      rcases hstatus with h | h | h <;> simp [OrbiRequest.deliveries, h]
  · intro e db' hstep hspends r hr r' hr' hid hbefore hafter
    have hexhausted : r.maxRetries + 1 ≤ r.deliveries := by
      cases hstep with
      | @performed db' op reply hexec =>
          rw [exec_requests hexec, List.mem_append, List.mem_map] at hr'
          rcases hr' with ⟨row, hrow, rfl⟩ | hnew
          · have hstep := exec_rowStep hexec hrow
            have hsame : row = r :=
              db.requests.eq_of_key_eq hrow hr (hstep.fixed.1.symm.trans hid)
            subst hsame
            exact hstep.exhausted (hwell row hr) _ hspends hbefore hafter
          · obtain ⟨call, project, project', rfl, -⟩ := exec_newRow hexec hnew
            cases hspends
      | failed hexec => cases hspends
      | rescanned hperm => cases hspends
    have hle := hbound r hr
    rw [hcounted.rows r hr] at hle ⊢
    omega

/-- Two claims of a request that was completed after one retry. -/
theorem bounded_delivery_lifecycle :
    (runOps Sample.db Sample.lifecycle).2.requests.rows.map
        (fun r => (r.id, r.retryCount)) = [(100, 1)] ∧
      attempts 100 (runOps Sample.db Sample.lifecycle).1 = 2 ∧
      ∀ r ∈ (runOps Sample.db Sample.lifecycle).2.requests.rows,
        attempts r.id (runOps Sample.db Sample.lifecycle).1 ≤ r.maxRetries + 1 :=
  ⟨by decide, by decide, (bounded_delivery Sample.fresh_db
    (history_runOps Sample.db Sample.lifecycle)).2.1⟩

end OrbiGateway
