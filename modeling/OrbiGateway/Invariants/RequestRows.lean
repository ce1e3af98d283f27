import OrbiGateway.System.Histories

/-!
# Well-formed request rows

The columns of a request row agree with its status in every reachable state.
The proof is one case for each transition of a row.
-/

namespace OrbiGateway

open Relational

/-- What the columns of a request row say about each other.  The history is read
only for the worker of the last claim. -/
structure RowWellFormed (history : List Event) (r : OrbiRequest) : Prop where
  status_mem : r.status ∈
    [RequestStatus.queued, .assigned, .completed, .failedFinal, .expired]
  queued : r.status = .queued →
    r.assignedTo = none ∧ r.leaseExpires = none ∧ r.result = none
  assigned : r.status = .assigned →
    (∃ workerId, r.assignedTo = some workerId ∧
      lastClaimant r.id history = some workerId) ∧
    r.leaseExpires.isSome ∧ r.result = none
  completed : r.status = .completed →
    r.result.isSome ∧ r.inputTokens.isSome ∧ r.outputTokens.isSome ∧
    r.completedAt.isSome ∧
    (∃ workerId, r.assignedTo = some workerId ∧
      lastClaimant r.id history = some workerId) ∧
    r.leaseExpires = none
  ended : r.status = .failedFinal ∨ r.status = .expired →
    r.assignedTo = none ∧ r.leaseExpires = none ∧ r.result = none ∧
    r.errorDetail.isSome
  retryCount_nonneg : 0 ≤ r.retryCount
  retryCount_le : r.retryCount ≤ r.maxRetries

namespace RowWellFormed

variable {history : List Event} {r r' : OrbiRequest}

theorem assigned_of_isLive (h : RowWellFormed history r) (hlive : r.isLive = true) :
    r.status = .assigned := by
  have hstatus := h.status_mem
  simp only [OrbiRequest.isLive, liveStatuses, List.contains_eq_mem,
    List.mem_cons, List.not_mem_nil, or_false, decide_eq_true_eq] at hlive hstatus
  rcases hlive with hlive | hlive | hlive | hlive <;> simp_all

theorem assigned_of_leaseLapsed {now : Timestamp} (h : RowWellFormed history r)
    (hlapsed : r.leaseLapsed now = true) : r.status = .assigned :=
  h.assigned_of_isLive (OrbiRequest.isLive_of_leaseLapsed hlapsed)

theorem of_lastClaimant_eq {history' : List Event} (h : RowWellFormed history r)
    (hsame : lastClaimant r.id history' = lastClaimant r.id history) :
    RowWellFormed history' r := by
  refine ⟨h.status_mem, h.queued, ?_, ?_, h.ended, h.retryCount_nonneg,
    h.retryCount_le⟩
  · rw [hsame]
    exact h.assigned
  · rw [hsame]
    exact h.completed

theorem newRow {db : Db} {call : ChatCall} {project project' : Project}
    (h : NewRow db call r project project') : RowWellFormed history r where
  status_mem := by simp [h.status]
  queued _ := ⟨h.assignedTo, h.leaseExpires, h.result⟩
  assigned hstatus := by simp [h.status] at hstatus
  completed hstatus := by simp [h.status] at hstatus
  ended hstatus := by simp [h.status] at hstatus
  retryCount_nonneg := by rw [h.retryCount]
  retryCount_le := by
    rw [h.retryCount, h.maxRetries]
    decide

theorem ofRequeue (h : RowWellFormed history r) (hstatus : r'.status = .queued)
    (hassigned : r'.assignedTo = none) (hlease : r'.leaseExpires = none)
    (hresult : r'.result = none) (hretry : r'.retryCount = r.retryCount + 1)
    (hmax : r'.maxRetries = r.maxRetries) (hlt : r.retryCount < r.maxRetries) :
    RowWellFormed history r' where
  status_mem := by simp [hstatus]
  queued _ := ⟨hassigned, hlease, hresult⟩
  assigned hno := by simp [hstatus] at hno
  completed hno := by simp [hstatus] at hno
  ended hno := by simp [hstatus] at hno
  retryCount_nonneg := by
    have := h.retryCount_nonneg
    omega
  retryCount_le := by omega

theorem ofEnd (hstatus : r'.status = .failedFinal ∨ r'.status = .expired)
    (hassigned : r'.assignedTo = none) (hlease : r'.leaseExpires = none)
    (hresult : r'.result = none) (herror : r'.errorDetail.isSome)
    (hnonneg : 0 ≤ r'.retryCount) (hle : r'.retryCount ≤ r'.maxRetries) :
    RowWellFormed history r' where
  status_mem := by rcases hstatus with hstatus | hstatus <;> simp [hstatus]
  queued hno := by rcases hstatus with hstatus | hstatus <;> simp [hstatus] at hno
  assigned hno := by rcases hstatus with hstatus | hstatus <;> simp [hstatus] at hno
  completed hno := by rcases hstatus with hstatus | hstatus <;> simp [hstatus] at hno
  ended _ := ⟨hassigned, hlease, hresult, herror⟩
  retryCount_nonneg := hnonneg
  retryCount_le := hle

/-- Every transition of a row keeps it well formed. -/
theorem step {op : Op} {reply : Reply} {settled : List Settlement}
    (h : RowWellFormed history r) (hstep : RowStep r op reply r') :
    RowWellFormed (.performed op reply settled :: history) r' := by
  have hnonneg := h.retryCount_nonneg
  have hle := h.retryCount_le
  have hother : ∀ {op : Op} {reply : Reply}, ¬TakesRequest r.id op reply →
      RowWellFormed (.performed op reply settled :: history) r := by
    intro op reply hno
    apply h.of_lastClaimant_eq
    rw [lastClaimant, claimants_of_not_takes hno, lastClaimant]
  cases hstep with
  | kept hno => exact hother hno
  | @claimed worker leaseSeconds now hclaimable =>
      have hqueued : r.status = .queued := by
        simp only [OrbiRequest.isClaimable, Bool.and_eq_true, beq_iff_eq] at hclaimable
        exact hclaimable.1.1.1
      have hclaimant : lastClaimant r.id (.performed (.claim worker leaseSeconds now)
          (.claimed (some (r.claimed worker leaseSeconds now))) settled :: history) =
          some worker.id := by
        have hid : (r.claimed worker leaseSeconds now).id = r.id := rfl
        rw [lastClaimant, claimants_claimed hid, List.head?_cons]
      refine ⟨by simp [OrbiRequest.claimed], ?_, ?_, ?_, ?_, hnonneg, hle⟩
      · intro hno
        cases hno
      · intro _
        exact ⟨⟨worker.id, rfl, hclaimant⟩, rfl, (h.queued hqueued).2.2⟩
      · intro hno
        cases hno
      · rintro (hno | hno) <;> cases hno
  | @completed worker payload now hheld =>
      obtain ⟨-, -, -, hlive⟩ := OrbiRequest.isHeldBy_iff.mp hheld
      obtain ⟨⟨workerId, hassigned, hclaimant⟩, -, -⟩ :=
        h.assigned (h.assigned_of_isLive hlive)
      refine ⟨by simp [OrbiRequest.completed], ?_, ?_, ?_, ?_, hnonneg, hle⟩
      · intro hno
        cases hno
      · intro hno
        cases hno
      · intro _
        exact ⟨rfl, rfl, rfl, rfl, ⟨workerId, hassigned, hclaimant⟩, rfl⟩
      · rintro (hno | hno) <;> cases hno
  | @errorRequeued worker payload hheld hretry =>
      obtain ⟨-, -, hresult, -⟩ := OrbiRequest.isHeldBy_iff.mp hheld
      have hlt : r.retryCount < r.maxRetries := by
        simp only [OrbiRequest.mayRetry, Bool.and_eq_true, decide_eq_true_eq] at hretry
        exact hretry.2
      have hrequeue : RowWellFormed history
          (r.withError payload.errorCode payload.message).requeued :=
        h.ofRequeue rfl rfl rfl hresult rfl rfl hlt
      exact hrequeue.of_lastClaimant_eq rfl
  | @errorFailed worker payload hheld hfinal =>
      obtain ⟨-, -, hresult, -⟩ := OrbiRequest.isHeldBy_iff.mp hheld
      exact ofEnd (Or.inl rfl) rfl rfl hresult rfl hnonneg hle
  | @leaseRequeued now count hretry hqueue =>
      simp only [OrbiRequest.isRetryable, Bool.and_eq_true, decide_eq_true_eq] at hretry
      have hassigned := h.assigned_of_leaseLapsed hretry.1
      have hrequeue : RowWellFormed history r.leaseRequeued :=
        h.ofRequeue rfl rfl rfl (h.assigned hassigned).2.2 rfl rfl hretry.2
      exact hrequeue.of_lastClaimant_eq rfl
  | @leaseExpired now count hretry hqueue =>
      simp only [OrbiRequest.isRetryable, Bool.and_eq_true, decide_eq_true_eq] at hretry
      have hassigned := h.assigned_of_leaseLapsed hretry.1
      refine ofEnd (Or.inr rfl) rfl rfl (h.assigned hassigned).2.2 rfl ?_ ?_
      · simp only [OrbiRequest.queueExpired, OrbiRequest.leaseRequeued]
        omega
      · simp only [OrbiRequest.queueExpired, OrbiRequest.leaseRequeued]
        omega
  | @leaseFailed now count hexhausted =>
      simp only [OrbiRequest.isExhausted, Bool.and_eq_true] at hexhausted
      have hassigned := h.assigned_of_leaseLapsed hexhausted.1
      exact ofEnd (Or.inl rfl) rfl rfl (h.assigned hassigned).2.2 rfl hnonneg hle
  | @queueExpired now count hqueue =>
      have hqueued := OrbiRequest.status_of_isQueueExpired hqueue
      obtain ⟨hassigned, hlease, hresult⟩ := h.queued hqueued
      exact ofEnd (Or.inr rfl) hassigned hlease hresult rfl hnonneg hle

end RowWellFormed

/-- The per-row invariant of every run. -/
theorem rowWellFormed_of_history {db₀ db : Db} {history : List Event}
    (hstart : db₀.requests.rows = []) (hrun : History db₀ history db) :
    ∀ r ∈ db.requests.rows, RowWellFormed history r := by
  apply row_invariant (I := RowWellFormed) hrun
  · intro r hr
    rw [hstart] at hr
    cases hr
  · intro history db call record project project' settled hnew
    exact .newRow hnew
  · intro history r op reply r' settled ih hstep
    exact ih.step hstep
  · intro history r op failure ih
    exact ih.of_lastClaimant_eq rfl
  · intro history r ih
    exact ih.of_lastClaimant_eq rfl

/-- Every request row of every reachable state is well formed. -/
theorem reachable_rows_wellFormed {db₀ db : Db} {history : List Event}
    (hfresh : Fresh db₀) (hrun : History db₀ history db) :
    ∀ r ∈ db.requests.rows, RowWellFormed history r :=
  rowWellFormed_of_history hfresh.requests_empty hrun

/-- The rows of a run through acceptance, a failed and a completed attempt. -/
theorem reachable_rows_wellFormed_lifecycle :
    (runOps Sample.db Sample.lifecycle).2.requests.rows.map (·.status) =
        [.completed] ∧
      ∀ r ∈ (runOps Sample.db Sample.lifecycle).2.requests.rows,
        RowWellFormed (runOps Sample.db Sample.lifecycle).1 r :=
  ⟨by decide, reachable_rows_wellFormed Sample.fresh_db
    (history_runOps Sample.db Sample.lifecycle)⟩

/-! ## Projects of requests -/

/-- The project of every request exists. -/
def ProjectsKnown (db : Db) : Prop :=
  ∀ r ∈ db.requests.rows, ∃ project ∈ db.projects.rows, project.id = r.projectId

theorem exec_project_ids {db db' : Db} {op : Op} {reply : Reply}
    (hexec : exec db op = .ok (reply, db')) {project : Project}
    (hproject : project ∈ db.projects.rows) :
    ∃ project' ∈ db'.projects.rows, project'.id = project.id := by
  cases hnew : reply.newRows with
  | nil =>
      rw [exec_projects hexec hnew]
      exact ⟨_, List.mem_map_of_mem hproject, id_settleProject _ _⟩
  | cons record rest =>
      have hmem : record ∈ reply.newRows := by simp [hnew]
      obtain ⟨call, found, reserved, -, -, -, hput⟩ := exec_newRow hexec hmem
      rw [hput]
      refine ⟨_, List.mem_map_of_mem hproject, ?_⟩
      exact (Table.RowUpdate.key_set _ project)

theorem ProjectsKnown.exec {db db' : Db} {op : Op} {reply : Reply} (h : ProjectsKnown db)
    (hexec : exec db op = .ok (reply, db')) : ProjectsKnown db' := by
  intro r' hr'
  rw [exec_requests hexec, List.mem_append, List.mem_map] at hr'
  rcases hr' with ⟨r, hr, rfl⟩ | hnew
  · obtain ⟨project, hproject, hid⟩ := h r hr
    obtain ⟨project', hproject', hid'⟩ := exec_project_ids hexec hproject
    obtain ⟨-, hprojectId, -⟩ := (exec_rowStep hexec hr).fixed
    exact ⟨project', hproject', hid'.trans (hid.trans hprojectId.symm)⟩
  · obtain ⟨call, project, project', -, -, hrow, -⟩ := exec_newRow hexec hnew
    have hmem := Table.mem_of_find hrow.findProject
    have hid : project.id = r'.projectId := Table.key_of_find hrow.findProject
    obtain ⟨project'', hproject'', hid''⟩ := exec_project_ids hexec hmem
    exact ⟨project'', hproject'', hid''.trans hid⟩

theorem projectsKnown_of_history {db₀ db : Db} {history : List Event}
    (hstart : db₀.requests.rows = []) (hrun : History db₀ history db) :
    ProjectsKnown db := by
  apply Transition.Run.invariant (I := ProjectsKnown) hrun
  · intro r hr
    rw [hstart] at hr
    cases hr
  · intro db e db' h hstep
    cases hstep with
    | performed hexec => exact h.exec hexec
    | failed => exact h
    | rescanned hperm => exact fun r hr => h r (hperm.mem_iff.mp hr)

end OrbiGateway
