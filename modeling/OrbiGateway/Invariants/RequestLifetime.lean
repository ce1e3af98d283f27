import OrbiGateway.Invariants.AcceptedRows
import OrbiGateway.Invariants.LeaseRecovery

/-!
# The lifetime of a request

A request that is claimed before it expires is leased for a bounded time after that, so no
lease outlives the expiry of its request by more than the longest lease.  The first
recovery after that instant finds the request ended or ends it, whatever workers do, and
its reservation has then been settled once and for all.
-/

namespace OrbiGateway

open Relational Transition

/-- No claim of the history asks for a longer lease. -/
def LeasesWithin (leaseSeconds : ℤ) (history : List Event) : Prop :=
  ∀ e ∈ history, ∀ worker length now reply settled,
    e = .performed (.claim worker length now) reply settled → length ≤ leaseSeconds

theorem LeasesWithin.tail {leaseSeconds : ℤ} {e : Event} {history : List Event}
    (h : LeasesWithin leaseSeconds (e :: history)) : LeasesWithin leaseSeconds history :=
  fun e he => h e (List.mem_cons_of_mem _ he)

/-- A lease ends at most this long after the expiry of its request. -/
def LeaseBounded (leaseSeconds : ℤ) (r : OrbiRequest) : Prop :=
  ∀ lease, r.leaseExpires = some lease → lease ≤ r.expiresAt + seconds leaseSeconds

theorem LeaseBounded.of_none {leaseSeconds : ℤ} {r : OrbiRequest} (h : r.leaseExpires = none) :
    LeaseBounded leaseSeconds r := by
  intro lease hlease
  rw [h] at hlease
  cases hlease

theorem LeaseBounded.claimed {leaseSeconds length : ℤ} {r : OrbiRequest} {worker : Worker}
    {now : Timestamp} (hclaimable : r.isClaimable worker now = true)
    (hle : length ≤ leaseSeconds) : LeaseBounded leaseSeconds (r.claimed worker length now) := by
  intro lease hlease
  simp only [OrbiRequest.isClaimable, Bool.and_eq_true, decide_eq_true_eq] at hclaimable
  have hexpires : now < r.expiresAt := hclaimable.1.1.2
  have hsome : now + seconds length = lease := Option.some.inj hlease
  have hexpiresAt : (r.claimed worker length now).expiresAt = r.expiresAt := rfl
  rw [hexpiresAt, ← hsome]
  unfold seconds
  have hlength : length * 1000000 ≤ leaseSeconds * 1000000 := by omega
  exact add_le_add hexpires.le hlength

theorem leaseBounded_of_history {db₀ db : Db} {history : List Event} {leaseSeconds : ℤ}
    (hstart : db₀.requests.rows = []) (hrun : History db₀ history db)
    (hleases : LeasesWithin leaseSeconds history) :
    ∀ r ∈ db.requests.rows, LeaseBounded leaseSeconds r := by
  have hrows := row_invariant
    (I := fun history r => LeasesWithin leaseSeconds history → LeaseBounded leaseSeconds r)
    hrun ?_ ?_ ?_ ?_ ?_
  · exact fun r hr => hrows r hr hleases
  · intro r hr
    rw [hstart] at hr
    cases hr
  · intro history db call record project project' settled hnew _
    exact .of_none hnew.leaseExpires
  · intro history r op reply r' settled ih hstep hwithin
    cases hstep with
    | kept => exact ih hwithin.tail
    | claimed hclaimable =>
        exact .claimed hclaimable (hwithin _ List.mem_cons_self _ _ _ _ _ rfl)
    | completed => exact .of_none rfl
    | errorRequeued => exact .of_none rfl
    | errorFailed => exact .of_none rfl
    | leaseRequeued => exact .of_none rfl
    | leaseExpired => exact .of_none rfl
    | leaseFailed => exact .of_none rfl
    | queueExpired => exact ih hwithin.tail
  · intro history r op failure ih hwithin
    exact ih hwithin.tail
  · intro history r ih hwithin
    exact ih hwithin.tail

/-- A row that is not open stays as it is for the rest of the run. -/
theorem row_mem_of_ended {mid db : Db} {newer : List Event} {r : OrbiRequest}
    (hrun : Run Step mid newer db) (hr : r ∈ mid.requests.rows) (hended : r.isOpen = false) :
    r ∈ db.requests.rows := by
  apply Run.invariant (I := fun db => r ∈ db.requests.rows) hrun hr
  intro db e db' h hstep
  exact hstep.row_mem_of_ended h hended

/-- A recovery later than the expiry of a request and one lease leaves it ended: what it
put back would be expired, and a lease that it left would end too late. -/
theorem isTerminal_after_recover {db₀ before after : Db} {older : List Event}
    {leaseSeconds : ℤ} {now : Timestamp} {count : ℕ} {r : OrbiRequest} (hfresh : Fresh db₀)
    (hprev : History db₀ older before) (hlength : 0 ≤ leaseSeconds)
    (hleases : LeasesWithin leaseSeconds older) (hr : r ∈ before.requests.rows)
    (hexec : exec before (.recover now) = .ok (.recovered count, after))
    (hlate : r.expiresAt + seconds leaseSeconds < now) :
    (r.after (.recover now) (.recovered count)).isTerminal = true := by
  have hwell := rowWellFormed_of_history hfresh.requests_empty hprev r hr
  have hstep := exec_rowStep hexec hr
  have hexpiresAt : (r.after (.recover now) (.recovered count)).expiresAt = r.expiresAt :=
    (OrbiRequest.AcceptedAs.refl r |>.step hstep).expiresAt
  have hexpired : r.expiresAt < now := by
    unfold seconds at hlate
    have hnonneg : 0 ≤ leaseSeconds * 1000000 := by omega
    exact lt_of_le_of_lt (le_add_of_nonneg_right hnonneg) hlate
  have hwithin : LeasesWithin leaseSeconds
      (.performed (.recover now) (.recovered count) (settlements before (.recover now)) ::
        older) := by
    intro e he worker length now reply settled heq
    rcases List.mem_cons.mp he with rfl | hold
    · cases heq
    · exact hleases e hold worker length now reply settled heq
  have hmem : r.after (.recover now) (.recovered count) ∈ after.requests.rows := by
    rw [exec_requests hexec]
    exact List.mem_append_left _ (List.mem_map_of_mem hr)
  have hbounded := leaseBounded_of_history hfresh.requests_empty
    (hprev.next (.performed hexec)) hwithin _ hmem
  have hafter : RowWellFormed (.performed (.recover now) (.recovered count) [] :: older)
      (r.after (.recover now) (.recovered count)) := hwell.step hstep
  have hkept : (r.after (.recover now) (.recovered count)).recovered now =
      r.after (.recover now) (.recovered count) := by
    rw [hwell.after_recover_eq, OrbiRequest.recovered_recovered]
  refine hafter.isTerminal_of_recovered_eq hkept ?_ ?_
  · rw [hexpiresAt]
    exact hexpired
  · rintro ⟨-, lease, hlease, hle⟩
    have hlast := hbounded lease hlease
    rw [hexpiresAt] at hlast
    exact absurd (lt_of_le_of_lt (hle.trans hlast) hlate) (lt_irrefl _)

theorem expiresAt_of_history {db₀ db : Db} {history : List Event} {call : ChatCall}
    {row : OrbiRequest} {settled : List Settlement} (hrun : History db₀ history db)
    (hevent : Event.performed (.chat call) (.chat (.queued row)) settled ∈ history) :
    row.expiresAt = call.readings.now + minutes 5 := by
  obtain ⟨-, -, before, after, -, -, hstep, -⟩ := hrun.exists_step hevent
  cases hstep with
  | performed hexec =>
      obtain ⟨call', hop, apiKey, modelAlias, -, project, -, -, -, hwritten⟩ :=
        exec_accepted hexec
      cases hop
      rw [hwritten]
      rfl

theorem recover_not_failed {db₀ db : Db} {history : List Event} (hfresh : Fresh db₀)
    (hrun : History db₀ history db) (now : Timestamp) (failure : Failure) :
    Event.failed (.recover now) failure ∉ history := by
  intro hfailed
  obtain ⟨-, older, before, after, -, hprev, hstep, -⟩ := hrun.exists_step hfailed
  cases hstep with
  | failed hexec =>
      obtain ⟨count, db', hrecover⟩ := QueueService.recoverExpiredLeases_of_known now
        (projectsKnown_of_history hfresh.requests_empty hprev)
      simp [exec, hrecover, bind, Except.bind, pure, Except.pure] at hexec

/-- Every accepted request ends: by the first recovery later than its five minutes and one
lease after its acceptance it is completed, failed or expired, it stays so, and its
reservation has been settled exactly once.  No recovery fails. -/
theorem every_request_ends {db₀ db : Db} {newer older : List Event} {now : Timestamp}
    {count : ℕ} {settled : List Settlement} {leaseSeconds : ℤ} (hfresh : Fresh db₀)
    (hrun : History db₀
      (newer ++ .performed (.recover now) (.recovered count) settled :: older) db)
    (hlength : 0 ≤ leaseSeconds) (hleases : LeasesWithin leaseSeconds older) :
    (∀ call row booked, Event.performed (.chat call) (.chat (.queued row)) booked ∈ older →
      call.readings.now + minutes 5 + seconds leaseSeconds < now →
      ∃ r ∈ db.requests.rows, r.AcceptedAs row ∧ r.isTerminal = true ∧
        (settledIds (newer ++ .performed (.recover now) (.recovered count) settled ::
          older)).count row.id = 1) ∧
    ∀ reading failure, Event.failed (.recover reading) failure ∉
      newer ++ .performed (.recover now) (.recovered count) settled :: older := by
  obtain ⟨after, hrecovered, hlater⟩ := hrun.split
  obtain ⟨before, hprev, hstep⟩ := hrecovered.of_cons
  refine ⟨?_, recover_not_failed hfresh hrun⟩
  intro call row booked hevent hlate
  have hrow : row ∈ acceptedRows older := List.mem_filterMap.mpr ⟨_, hevent, rfl⟩
  obtain ⟨r, hr, hsame⟩ :=
    (rowsAccepted_of_history hfresh.requests_empty hprev).kept row hrow
  cases hstep with
  | performed hexec =>
      have hterminal := isTerminal_after_recover hfresh hprev hlength hleases hr hexec (by
        rw [hsame.expiresAt, expiresAt_of_history hprev hevent]
        exact hlate)
      have hsameAfter := hsame.step (exec_rowStep hexec hr)
      have hmem : r.after (.recover now) (.recovered count) ∈ after.requests.rows := by
        rw [exec_requests hexec]
        exact List.mem_append_left _ (List.mem_map_of_mem hr)
      have hfinal := row_mem_of_ended hlater hmem
        (OrbiRequest.not_isOpen_of_isTerminal hterminal)
      refine ⟨_, hfinal, hsameAfter, hterminal, ?_⟩
      have hsettled := settledOnce_of_history hfresh.requests_empty hrun
      apply List.count_eq_one_of_mem hsettled.nodup
      exact (hsettled.mem_iff row.id).mpr ⟨_, hfinal, hsameAfter.id, hterminal⟩

/-- A request that its worker abandons: nothing is left of it after the recovery. -/
def Sample.abandoned : List Op :=
  [.chat (call 100 none 0), .claim worker 120 (seconds 299)]

theorem every_request_ends_abandoned :
    ∃ count settled db', Step (runOps Sample.db Sample.abandoned).2
        (.performed (.recover (seconds 421)) (.recovered count) settled) db' ∧
      ∃ r ∈ db'.requests.rows, r.id = 100 ∧ r.isTerminal = true := by
  obtain ⟨count, db', hexec⟩ : ∃ count db', exec (runOps Sample.db Sample.abandoned).2
      (.recover (seconds 421)) = .ok (.recovered count, db') := ⟨_, _, rfl⟩
  have hstep := Step.performed hexec
  refine ⟨count, _, db', hstep, ?_⟩
  have hrun := (history_runOps Sample.db Sample.abandoned).next hstep
  obtain ⟨row, booked, hevent, hid⟩ : ∃ row booked, Event.performed
      (.chat (Sample.call 100 none 0)) (.chat (.queued row)) booked ∈
        (runOps Sample.db Sample.abandoned).1 ∧ row.id = 100 :=
    ⟨_, _, List.mem_cons_of_mem _ List.mem_cons_self, rfl⟩
  have hleases : LeasesWithin 120 (runOps Sample.db Sample.abandoned).1 := by
    intro e he worker length now reply settled heq
    rcases List.mem_cons.mp he with rfl | he
    · cases heq
      exact le_refl _
    · cases List.mem_singleton.mp he
      cases heq
  have hrun' : History Sample.db ([] ++ .performed (.recover (seconds 421)) (.recovered count)
      (settlements (runOps Sample.db Sample.abandoned).2 (.recover (seconds 421))) ::
        (runOps Sample.db Sample.abandoned).1) db' := hrun
  obtain ⟨r, hr, hsame, hterminal, -⟩ := (every_request_ends Sample.fresh_db
    hrun' (by decide) hleases).1 _ row booked hevent (by decide)
  exact ⟨r, hr, hsame.id.trans hid, hterminal⟩

end OrbiGateway
