import Mathlib.Algebra.Order.BigOperators.Group.List
import Mathlib.Tactic.Ring
import OrbiGateway.System.Effects

/-!
# Settlements

What an operation settles, row by row and project by project.  A row is settled
when it ends, at the tokens it is charged from then on; and as long as a counter
covers the reservations that are settled, settling moves it by exactly the
differences.
-/

namespace OrbiGateway

open Relational

/-! ## Open and ended requests -/

namespace OrbiRequest

/-- The request has ended. -/
def isTerminal (request : OrbiRequest) : Bool :=
  request.status == .completed || request.status == .failedFinal ||
    request.status == .expired

/-- The request still holds its reservation: it waits in the queue or a worker
has it. -/
def isOpen (request : OrbiRequest) : Bool :=
  request.status == .queued || request.isLive

theorem isOpen_of_queued {request : OrbiRequest} (h : request.status = .queued) :
    request.isOpen = true := by
  simp [isOpen, h]

theorem isOpen_of_isLive {request : OrbiRequest} (h : request.isLive = true) :
    request.isOpen = true := by
  simp [isOpen, h]

theorem isOpen_of_isClaimable {request : OrbiRequest} {worker : Worker}
    {now : Timestamp} (h : request.isClaimable worker now = true) :
    request.isOpen = true := by
  apply isOpen_of_queued
  simp only [isClaimable, Bool.and_eq_true, beq_iff_eq] at h
  exact h.1.1.1

theorem isOpen_of_isHeldBy {request : OrbiRequest} {requestId workerId : UUID}
    (h : request.isHeldBy requestId workerId = true) : request.isOpen = true :=
  isOpen_of_isLive (isHeldBy_iff.mp h).2.2.2

theorem isOpen_of_leaseLapsed {request : OrbiRequest} {now : Timestamp}
    (h : request.leaseLapsed now = true) : request.isOpen = true :=
  isOpen_of_isLive (isLive_of_leaseLapsed h)

theorem isOpen_of_isRetryable {request : OrbiRequest} {now : Timestamp}
    (h : request.isRetryable now = true) : request.isOpen = true := by
  simp only [isRetryable, Bool.and_eq_true] at h
  exact isOpen_of_leaseLapsed h.1

theorem isOpen_of_isExhausted {request : OrbiRequest} {now : Timestamp}
    (h : request.isExhausted now = true) : request.isOpen = true := by
  simp only [isExhausted, Bool.and_eq_true] at h
  exact isOpen_of_leaseLapsed h.1

theorem isOpen_of_expiresInRecovery {request : OrbiRequest} {now : Timestamp}
    (h : request.expiresInRecovery now = true) : request.isOpen = true := by
  unfold expiresInRecovery at h
  split at h
  next hretry => exact isOpen_of_isRetryable hretry
  next => exact isOpen_of_queued (status_of_isQueueExpired h)

theorem not_isOpen_of_isTerminal {request : OrbiRequest}
    (h : request.isTerminal = true) : request.isOpen = false := by
  simp only [isTerminal, Bool.or_eq_true, beq_iff_eq] at h
  rcases h with (h | h) | h <;> simp [isOpen, isLive, liveStatuses, h]

/-- What the request contributes to the counters of its periods. -/
def charge (request : OrbiRequest) : ℤ :=
  match request.status with
  | .queued | .assigned | .starting | .running | .streaming => request.reservedTokens
  | .completed => request.inputTokens.getD 0 + request.outputTokens.getD 0
  | .failedFinal | .expired | .cancelled => 0

/-- The date of a period in which the reservation was made. -/
def budgetDate (request : OrbiRequest) : Period → Date
  | .daily => request.budgetDay
  | .monthly => request.budgetMonth

/-- The request counts in the current period of the project. -/
def countsIn (request : OrbiRequest) (period : Period) (project : Project) : Bool :=
  request.projectId == project.id && request.budgetDate period == period.stamp project

theorem charge_of_isOpen {request : OrbiRequest} (h : request.isOpen = true) :
    request.charge = request.reservedTokens := by
  simp only [isOpen, isLive, liveStatuses, Bool.or_eq_true, beq_iff_eq,
    List.contains_eq_mem, List.mem_cons, List.not_mem_nil, or_false,
    decide_eq_true_eq] at h
  rcases h with h | h | h | h | h <;> simp [charge, h]

end OrbiRequest

/-! ## Settlements of single rows -/

namespace OrbiRequest

/-- The settlement the operation makes of this row. -/
def settlement (request : OrbiRequest) : Op → Option Settlement
  | .chat _ => none
  | .claim _ _ _ => none
  | .submitResult worker payload _ =>
      if request.isHeldBy payload.requestId worker.id then
        some (request.settledBy (payload.inputTokens + payload.outputTokens))
      else none
  | .submitError worker payload =>
      if request.isHeldBy payload.requestId worker.id &&
          !request.mayRetry payload.retryable then
        some (request.settledBy 0)
      else none
  | .recover now =>
      if request.isExhausted now || request.expiresInRecovery now then
        some (request.settledBy 0)
      else none

/-- A settlement is of an open row, by a number of tokens that is not negative. -/
theorem settlement_spec {request : OrbiRequest} {op : Op} {settlement : Settlement}
    (h : request.settlement op = some settlement) :
    ∃ actual, settlement = request.settledBy actual ∧ 0 ≤ actual ∧
      request.isOpen = true := by
  cases op with
  | chat call => cases h
  | claim worker leaseSeconds now => cases h
  | submitResult worker payload now =>
      obtain ⟨hheld, hsettled⟩ := Option.ite_none_right_eq_some.mp h
      cases hsettled
      exact ⟨_, rfl,
        Int.add_nonneg payload.inputTokens_nonneg payload.outputTokens_nonneg,
        isOpen_of_isHeldBy hheld⟩
  | submitError worker payload =>
      obtain ⟨hheld, hsettled⟩ := Option.ite_none_right_eq_some.mp h
      cases hsettled
      rw [Bool.and_eq_true] at hheld
      exact ⟨0, rfl, le_refl 0, isOpen_of_isHeldBy hheld.1⟩
  | recover now =>
      obtain ⟨hends, hsettled⟩ := Option.ite_none_right_eq_some.mp h
      cases hsettled
      rw [Bool.or_eq_true] at hends
      rcases hends with hexhausted | hexpires
      · exact ⟨0, rfl, le_refl 0, isOpen_of_isExhausted hexhausted⟩
      · exact ⟨0, rfl, le_refl 0, isOpen_of_expiresInRecovery hexpires⟩

/-- An exhausted row is not expired by the same call. -/
theorem expiresInRecovery_of_isExhausted {request : OrbiRequest} {now : Timestamp}
    (h : request.isExhausted now = true) : request.expiresInRecovery now = false := by
  have hretry : ¬request.isRetryable now = true := by
    intro hyes
    rw [isExhausted_of_isRetryable hyes] at h
    cases h
  rw [expiresInRecovery, if_neg hretry]
  exact isQueueExpired_of_isExhausted h

/-- What a settlement means for its row: it has ended and is charged the actual
tokens. -/
structure SettledBy (request : OrbiRequest) (op : Op) (request' : OrbiRequest)
    (actual : ℤ) : Prop where
  settlement_eq : request.settlement op = some (request.settledBy actual)
  charge_eq : request'.charge = actual
  isTerminal : request'.isTerminal = true

/-- A row that is not settled keeps its charge, and ends if it had ended. -/
structure Unsettled (request : OrbiRequest) (op : Op) (request' : OrbiRequest) :
    Prop where
  settlement_eq : request.settlement op = none
  charge_eq : request'.charge = request.charge
  isTerminal_eq : request'.isTerminal = request.isTerminal

theorem isTerminal_of_isOpen {request : OrbiRequest} (h : request.isOpen = true) :
    request.isTerminal = false := by
  by_contra hyes
  have hended := not_isOpen_of_isTerminal (Bool.eq_true_of_not_eq_false hyes)
  rw [h] at hended
  cases hended

/-- A row taken up or put back is open before and after, and keeps its charge. -/
theorem unsettled_of_isOpen {request request' : OrbiRequest} {op : Op}
    (hnone : request.settlement op = none) (hopen : request.isOpen = true)
    (hopen' : request'.isOpen = true)
    (hreserved : request'.reservedTokens = request.reservedTokens) :
    Unsettled request op request' where
  settlement_eq := hnone
  charge_eq := by rw [charge_of_isOpen hopen, charge_of_isOpen hopen', hreserved]
  isTerminal_eq := by rw [isTerminal_of_isOpen hopen, isTerminal_of_isOpen hopen']

/-- Every row under every operation is settled once or not at all. -/
theorem settled_or_unsettled {request : OrbiRequest} {op : Op} {reply : Reply}
    (h : RowStep request op reply (request.after op reply)) :
    Unsettled request op (request.after op reply) ∨
      ∃ actual, SettledBy request op (request.after op reply) actual := by
  cases op with
  | chat call => exact Or.inl ⟨rfl, rfl, rfl⟩
  | claim worker leaseSeconds now =>
      left
      generalize hafter : request.after (.claim worker leaseSeconds now) reply = new at h
      cases h with
      | kept => exact ⟨rfl, rfl, rfl⟩
      | claimed hclaimable =>
          exact unsettled_of_isOpen rfl (isOpen_of_isClaimable hclaimable) rfl rfl
  | submitResult worker payload now =>
      by_cases hheld : request.isHeldBy payload.requestId worker.id = true
      · right
        have hafter : request.after (.submitResult worker payload now) reply =
            request.completed (.obj payload.result) payload.inputTokens
              payload.outputTokens now := by
          simp [after, hheld]
        rw [hafter]
        exact ⟨payload.inputTokens + payload.outputTokens,
          by simp [settlement, hheld], rfl, rfl⟩
      · left
        exact ⟨by simp [settlement, hheld], by simp [after, hheld],
          by simp [after, hheld]⟩
  | submitError worker payload =>
      by_cases hheld : request.isHeldBy payload.requestId worker.id = true
      · have hopen := isOpen_of_isHeldBy hheld
        cases hretry : request.mayRetry payload.retryable with
        | true =>
            left
            have hafter : request.after (.submitError worker payload) reply =
                (request.withError payload.errorCode payload.message).requeued := by
              simp [after, hheld, hretry]
            rw [hafter]
            exact unsettled_of_isOpen (by simp [settlement, hretry]) hopen rfl rfl
        | false =>
            right
            have hafter : request.after (.submitError worker payload) reply =
                (request.withError payload.errorCode payload.message).failed := by
              simp [after, hheld, hretry]
            rw [hafter]
            exact ⟨0, by simp [settlement, hheld, hretry], rfl, rfl⟩
      · left
        exact ⟨by simp [settlement, hheld], by simp [after, hheld],
          by simp [after, hheld]⟩
  | recover now =>
      by_cases hretry : request.isRetryable now = true
      · have hopen := isOpen_of_isRetryable hretry
        have hexhausted := isExhausted_of_isRetryable hretry
        cases hqueue : request.leaseRequeued.isQueueExpired now with
        | true =>
            right
            have hafter : request.after (.recover now) reply =
                request.leaseRequeued.queueExpired := by
              simp [after, hretry, hqueue]
            rw [hafter]
            exact ⟨0, by simp [settlement, expiresInRecovery, hretry, hqueue],
              rfl, rfl⟩
        | false =>
            left
            have hafter : request.after (.recover now) reply =
                request.leaseRequeued := by
              simp [after, hretry, hqueue]
            rw [hafter]
            have hnone : request.settlement (.recover now) = none := by
              simp [settlement, expiresInRecovery, hretry, hqueue, hexhausted]
            exact unsettled_of_isOpen hnone hopen rfl rfl
      · by_cases hexhausted : request.isExhausted now = true
        · right
          have hafter : request.after (.recover now) reply = request.leaseFailed := by
            simp [after, hretry, hexhausted]
          rw [hafter]
          exact ⟨0, by simp [settlement, hexhausted], rfl, rfl⟩
        · by_cases hqueue : request.isQueueExpired now = true
          · right
            have hafter : request.after (.recover now) reply =
                request.queueExpired := by
              simp [after, hretry, hexhausted, hqueue]
            rw [hafter]
            exact ⟨0, by simp [settlement, expiresInRecovery, hretry, hqueue],
              rfl, rfl⟩
          · left
            have hafter : request.after (.recover now) reply = request := by
              simp [after, hretry, hexhausted, hqueue]
            rw [hafter]
            refine ⟨?_, rfl, rfl⟩
            simp [settlement, expiresInRecovery, hretry, hqueue, hexhausted]

end OrbiRequest

theorem filterMap_settledBy (rows : List OrbiRequest) (p : OrbiRequest → Bool)
    (actual : ℤ) :
    rows.filterMap (fun r => if p r then some (r.settledBy actual) else none) =
      (rows.filter p).map fun r => r.settledBy actual := by
  induction rows with
  | nil => rfl
  | cons r rows ih =>
      cases hp : p r with
      | true => simp [hp, ih]
      | false => simp [hp, ih]

/-- The settlements of an operation are those of the rows, one by one. -/
theorem settlements_perm (db : Db) (op : Op) :
    (settlements db op).Perm (db.requests.rows.filterMap fun r => r.settlement op) := by
  cases op with
  | chat call =>
      simp [settlements, OrbiRequest.settlement]
  | claim worker leaseSeconds now =>
      simp [settlements, OrbiRequest.settlement]
  | submitResult worker payload now =>
      simp only [OrbiRequest.settlement, filterMap_settledBy]
      exact List.Perm.refl _
  | submitError worker payload =>
      simp only [OrbiRequest.settlement, filterMap_settledBy]
      exact List.Perm.refl _
  | recover now =>
      simp only [OrbiRequest.settlement, filterMap_settledBy]
      apply List.Perm.map
      apply filter_append_filter_perm
      intro r _ hexhausted
      exact OrbiRequest.expiresInRecovery_of_isExhausted hexhausted

theorem mem_settlements {db : Db} {op : Op} {settlement : Settlement}
    (h : settlement ∈ settlements db op) :
    ∃ r ∈ db.requests.rows, r.settlement op = some settlement := by
  have hmem := (settlements_perm db op).mem_iff.mp h
  obtain ⟨r, hr, hsettlement⟩ := List.mem_filterMap.mp hmem
  exact ⟨r, hr, hsettlement⟩

/-! ## Settlements of a project -/

namespace Settlement

def budgetDate (settlement : Settlement) : Period → Date
  | .daily => settlement.budgetDay
  | .monthly => settlement.budgetMonth

/-- The settlement moves the counter of the period. -/
def countsIn (settlement : Settlement) (period : Period) (project : Project) : Bool :=
  settlement.projectId == project.id &&
    settlement.budgetDate period == period.stamp project

/-- The reservation it takes off the counter. -/
def releases (settlement : Settlement) (period : Period) (project : Project) : ℤ :=
  if settlement.countsIn period project then settlement.reservedTokens else 0

/-- What it adds to the counter in all. -/
def moves (settlement : Settlement) (period : Period) (project : Project) : ℤ :=
  if settlement.countsIn period project then
    settlement.actualTokens - settlement.reservedTokens
  else 0

theorem releases_add_moves_nonneg (settlement : Settlement)
    (hactual : 0 ≤ settlement.actualTokens) (period : Period) (project : Project) :
    0 ≤ settlement.releases period project + settlement.moves period project := by
  unfold releases moves
  split <;> omega

@[simp] theorem stamp_apply (settlement : Settlement) (project : Project)
    (period : Period) : period.stamp (settlement.apply project) = period.stamp project := by
  unfold apply
  split
  · exact Project.stamp_reconcile _ _ _ _ _ _
  · rfl

@[simp] theorem limit_apply (settlement : Settlement) (project : Project)
    (period : Period) : period.limit (settlement.apply project) = period.limit project := by
  unfold apply
  split
  · exact Project.limit_reconcile _ _ _ _ _ _
  · rfl

theorem used_apply (settlement : Settlement) (project : Project) (period : Period) :
    period.used (settlement.apply project) =
      if settlement.countsIn period project then
        max 0 (period.used project + settlement.moves period project)
      else period.used project := by
  unfold apply
  by_cases hid : project.id = settlement.projectId
  · have hcounts : settlement.countsIn period project =
        (period.stamp project == settlement.budgetDate period) := by
      simp [countsIn, hid, eq_comm]
    have hused := Project.used_reconcile project settlement.reservedTokens
      settlement.actualTokens settlement.budgetDate period
    rw [if_pos hid]
    refine hused.trans ?_
    simp only [moves, hcounts, beq_iff_eq]
    split
    · rfl
    · rfl
  · have hcounts : settlement.countsIn period project = false := by
      simp [countsIn, Ne.symm hid]
    simp [hid, hcounts]

theorem countsIn_congr (settlement : Settlement) {period : Period}
    {project project' : Project} (hid : project'.id = project.id)
    (hstamp : period.stamp project' = period.stamp project) :
    settlement.countsIn period project' = settlement.countsIn period project := by
  simp [countsIn, hid, hstamp]

end Settlement

@[simp] theorem stamp_settleProject (settled : List Settlement) (period : Period) :
    ∀ project : Project,
      period.stamp (settleProject settled project) = period.stamp project := by
  induction settled with
  | nil =>
      intro project
      rfl
  | cons settlement settled ih =>
      intro project
      exact (ih _).trans (settlement.stamp_apply project period)

@[simp] theorem limit_settleProject (settled : List Settlement) (period : Period) :
    ∀ project : Project,
      period.limit (settleProject settled project) = period.limit project := by
  induction settled with
  | nil =>
      intro project
      rfl
  | cons s settled ih =>
      intro project
      exact (ih _).trans (s.limit_apply project period)

/-- When the counter covers the reservations, settling them adds exactly the
differences: the clamp does nothing. -/
theorem used_settleProject (period : Period) (settled : List Settlement) :
    ∀ project : Project,
      (∀ s ∈ settled, 0 ≤ s.actualTokens ∧ 0 ≤ s.reservedTokens) →
      (settled.map fun s => s.releases period project).sum ≤ period.used project →
      period.used (settleProject settled project) =
        period.used project + (settled.map fun s => s.moves period project).sum := by
  induction settled with
  | nil =>
      intro project _ _
      simp [settleProject]
  | cons s settled ih =>
      intro project hnonneg hcovered
      have hhead := hnonneg s List.mem_cons_self
      have htail : ∀ s' ∈ settled, 0 ≤ s'.actualTokens ∧ 0 ≤ s'.reservedTokens :=
        fun s' hs' => hnonneg s' (List.mem_cons_of_mem s hs')
      have hcounts : ∀ s' : Settlement, s'.countsIn period (s.apply project) =
          s'.countsIn period project := by
        intro s'
        exact s'.countsIn_congr (s.id_apply project) (s.stamp_apply project period)
      have hreleases : ∀ s' : Settlement, s'.releases period (s.apply project) =
          s'.releases period project := by
        intro s'
        simp only [Settlement.releases, hcounts s']
      have hmoves : ∀ s' : Settlement, s'.moves period (s.apply project) =
          s'.moves period project := by
        intro s'
        simp only [Settlement.moves, hcounts s']
      have hrest : 0 ≤ (settled.map fun s' => s'.releases period project).sum := by
        apply List.sum_nonneg
        intro value hvalue
        obtain ⟨s', hs', rfl⟩ := List.mem_map.mp hvalue
        unfold Settlement.releases
        split
        · exact (htail s' hs').2
        · exact le_refl 0
      simp only [List.map_cons, List.sum_cons] at hcovered ⊢
      have hbound : -period.used project ≤ s.moves period project -
          (settled.map fun s' => s'.releases period project).sum := by
        have hreleased := s.releases_add_moves_nonneg hhead.1 period project
        omega
      have hused : period.used (s.apply project) =
          period.used project + s.moves period project := by
        rw [s.used_apply]
        by_cases hin : s.countsIn period project = true
        · rw [if_pos hin]
          exact max_eq_right (by omega)
        · simp [Settlement.moves, hin]
      have hcovered' : (settled.map fun s' =>
          s'.releases period (s.apply project)).sum ≤ period.used (s.apply project) := by
        simp only [hreleases, hused]
        omega
      have hstep := ih (s.apply project) htail hcovered'
      simp only [hmoves, hused] at hstep
      calc
        period.used (settleProject (s :: settled) project) =
            period.used (settleProject settled (s.apply project)) := rfl
        _ = period.used project + s.moves period project +
            (settled.map fun s' => s'.moves period project).sum := hstep
        _ = _ := by ring

/-- Giving reservations back takes their sum off a counter, which does not go below
zero. -/
theorem used_settleProject_of_released (period : Period) (settled : List Settlement) :
    ∀ project : Project, (∀ s ∈ settled, s.actualTokens = 0 ∧ 0 ≤ s.reservedTokens) →
      0 ≤ period.used project →
      period.used (settleProject settled project) =
        max 0 (period.used project -
          (settled.map fun s => s.releases period project).sum) := by
  induction settled with
  | nil =>
      intro project _ hnonneg
      simp only [settleProject, List.foldl_nil, List.map_nil, List.sum_nil, Int.sub_zero]
      exact (max_eq_right hnonneg).symm
  | cons s settled ih =>
      intro project hreleased hnonneg
      obtain ⟨hzero, hreserved⟩ := hreleased s List.mem_cons_self
      have htail : ∀ s' ∈ settled, s'.actualTokens = 0 ∧ 0 ≤ s'.reservedTokens :=
        fun s' hs' => hreleased s' (List.mem_cons_of_mem s hs')
      have hreleases : ∀ s' : Settlement, s'.releases period (s.apply project) =
          s'.releases period project := by
        intro s'
        simp only [Settlement.releases,
          s'.countsIn_congr (s.id_apply project) (s.stamp_apply project period)]
      have hrest : 0 ≤ (settled.map fun s' => s'.releases period project).sum := by
        apply List.sum_nonneg
        intro value hvalue
        obtain ⟨s', hs', rfl⟩ := List.mem_map.mp hvalue
        unfold Settlement.releases
        split
        · exact (htail s' hs').2
        · exact le_refl 0
      have hused : period.used (s.apply project) =
          max 0 (period.used project - s.releases period project) := by
        rw [s.used_apply, Settlement.moves, Settlement.releases, hzero]
        split
        · congr 1
          ring
        · rw [Int.sub_zero]
          exact (max_eq_right hnonneg).symm
      have hstep := ih (s.apply project) htail (by rw [hused]; exact le_max_left _ _)
      simp only [hreleases, hused] at hstep
      rw [List.map_cons, List.sum_cons]
      calc
        period.used (settleProject (s :: settled) project) =
            period.used (settleProject settled (s.apply project)) := rfl
        _ = max 0 (max 0 (period.used project - s.releases period project) -
            (settled.map fun s' => s'.releases period project).sum) := hstep
        _ = _ := by omega

theorem Project.ext_periods {project project' : Project} (hid : project.id = project'.id)
    (hactive : project.isActive = project'.isActive)
    (hlimit : ∀ period : Period, period.limit project = period.limit project')
    (hstamp : ∀ period : Period, period.stamp project = period.stamp project')
    (hused : ∀ period : Period, period.used project = period.used project') :
    project = project' := by
  cases project
  cases project'
  rw [Project.mk.injEq]
  exact ⟨hid, hlimit .monthly, hused .monthly, hlimit .daily, hused .daily, hstamp .daily,
    hstamp .monthly, hactive⟩

end OrbiGateway
