import OrbiGateway.Invariants.RequestRows
import OrbiGateway.System.Bookings

/-!
# One result for each request

At most one result submission of a request is ever accepted, from the worker of
its last claim, and a request that has ended is left alone by everything that
follows.
-/

namespace OrbiGateway

open Relational Transition

/-! ## Accepted results -/

theorem RowStep.result_isSome {r r' : OrbiRequest} {op : Op} {reply : Reply}
    (h : RowStep r op reply r') (hresult : r.result.isSome = true) :
    r'.result.isSome = true := by
  cases h <;> first | exact hresult | rfl

/-- An accepted submission names the held row and leaves it completed. -/
theorem Step.acceptsResult_cases {db db' : Db} {e : Event} {id : UUID}
    (hstep : Step db e db') (haccepts : e.acceptsResult id = true) :
    ∃ worker payload now, e = .performed (.submitResult worker payload now)
        (.resultAccepted true) (settlements db (.submitResult worker payload now)) ∧
      ∃ r ∈ db.requests.rows, r.isHeldBy id worker.id = true ∧
        r.completed (.obj payload.result) payload.inputTokens payload.outputTokens
          now ∈ db'.requests.rows := by
  unfold Event.acceptsResult at haccepts
  split at haccepts
  next worker payload now settled =>
    have hid : payload.requestId = id := by simpa using haccepts
    subst hid
    cases hstep with
    | performed hexec =>
        rcases exec_submitResult_cases hexec with
          ⟨hno, -⟩ | ⟨r, hmem, usageRecords, -, hheld, -, -⟩
        · cases hno
        · refine ⟨worker, payload, now, rfl, r, hmem, hheld, ?_⟩
          rw [exec_requests hexec]
          apply List.mem_append_left
          exact List.mem_map.mpr ⟨r, hmem, by simp [OrbiRequest.after, hheld]⟩
  next => cases haccepts

theorem Step.result_isSome {db db' : Db} {e : Event} {r : OrbiRequest}
    (hstep : Step db e db') (hr : r ∈ db.requests.rows)
    (hresult : r.result.isSome = true) :
    ∃ r' ∈ db'.requests.rows, r'.id = r.id ∧ r'.result.isSome = true := by
  cases hstep with
  | @performed db' op reply hexec =>
      have hrow := exec_rowStep hexec hr
      refine ⟨r.after op reply, ?_, hrow.fixed.1, hrow.result_isSome hresult⟩
      rw [exec_requests hexec]
      exact List.mem_append_left _ (List.mem_map_of_mem hr)
  | failed => exact ⟨r, hr, rfl, hresult⟩
  | rescanned hperm => exact ⟨r, hperm.mem_iff.mpr hr, rfl, hresult⟩

/-- Every request was accepted never, or once and has a result since. -/
def ResultsCounted (history : List Event) (db : Db) : Prop :=
  ∀ id, history.countP (Event.acceptsResult id) = 0 ∨
    (history.countP (Event.acceptsResult id) = 1 ∧
      ∃ r ∈ db.requests.rows, r.id = id ∧ r.result.isSome = true)

theorem ResultsCounted.step {history : List Event} {db db' : Db} {e : Event}
    (h : ResultsCounted history db) (hstep : Step db e db') :
    ResultsCounted (e :: history) db' := by
  intro id
  by_cases haccepts : e.acceptsResult id = true
  · obtain ⟨worker, payload, now, -, r, hmem, hheld, hcompleted⟩ :=
      hstep.acceptsResult_cases haccepts
    obtain ⟨hid, -, hnone, -⟩ := OrbiRequest.isHeldBy_iff.mp hheld
    rcases h id with hzero | ⟨-, row, hrow, hrowId, hsome⟩
    · exact Or.inr ⟨by simp [haccepts, hzero], _, hcompleted, hid, rfl⟩
    · have heq : row = r := db.requests.eq_of_key_eq hrow hmem (hrowId.trans hid.symm)
      rw [heq, hnone] at hsome
      cases hsome
  · rcases h id with hzero | ⟨hone, row, hrow, hrowId, hsome⟩
    · exact Or.inl (by simp [haccepts, hzero])
    · obtain ⟨row', hrow', hid', hsome'⟩ := hstep.result_isSome hrow hsome
      exact Or.inr ⟨by simp [haccepts, hone], row', hrow', hid'.trans hrowId, hsome'⟩

theorem resultsCounted_of_history {db₀ db : Db} {history : List Event}
    (hrun : History db₀ history db) : ResultsCounted history db := by
  apply Run.history_invariant (I := ResultsCounted) hrun
  · intro id
    exact Or.inl rfl
  · intro history db e db' _ ih hlast
    exact ih.step hlast

/-! ## Requests left alone -/

/-- Between two states nothing was done to the row `r`: every column is the same,
no usage record was added for it, and the project counters moved by bookings on
other requests only. -/
structure Untouched (r : OrbiRequest) (mid : Db) (newer : List Event) (db : Db) :
    Prop where
  row : r ∈ db.requests.rows
  usage : usageOf r.id db = usageOf r.id mid
  projects : db.projects = newer.foldr Event.book mid.projects
  not_booked : ∀ e ∈ newer, r.id ∉ e.bookedIds

/-- A row that is not open is left alone by every run. -/
theorem untouched_of_ended {mid db : Db} {newer : List Event} {r : OrbiRequest}
    (hrun : History mid newer db) (hr : r ∈ mid.requests.rows)
    (hended : r.isOpen = false) : Untouched r mid newer db := by
  apply Run.history_invariant (I := fun newer db => Untouched r mid newer db) hrun
  · exact ⟨hr, rfl, rfl, fun e he => absurd he List.not_mem_nil⟩
  · intro newer before e after _ ih hlast
    have husage := hlast.usageOf_of_ended ih.row hended
    have hbooked := hlast.not_booked_of_ended ih.row hended
    refine ⟨hlast.row_mem_of_ended ih.row hended, husage.trans ih.usage, ?_, ?_⟩
    · rw [hlast.projects_eq, ih.projects, List.foldr_cons]
    · intro e' he'
      rcases List.mem_cons.mp he' with rfl | he'
      · exact hbooked
      · exact ih.not_booked e' he'

/-! ## Refused submissions -/

/-- A result or an error submission that returned `False`. -/
def Event.refuses : Event → Bool
  | .performed _ (.resultAccepted false) _ => true
  | .performed _ (.errorAccepted false) _ => true
  | _ => false

theorem Step.eq_of_refuses {db db' : Db} {e : Event} (hstep : Step db e db')
    (hrefuses : e.refuses = true) : db' = db := by
  cases hstep with
  | @performed db' op reply hexec =>
      cases op with
      | chat call =>
          obtain ⟨apiKey, -, ⟨existing, -, rfl, -⟩ |
            ⟨record, project, project', rfl, -⟩⟩ := exec_chat_cases hexec
          · cases hrefuses
          · cases hrefuses
      | claim worker leaseSeconds now =>
          rcases exec_claim_cases hexec with ⟨rfl, -⟩ | ⟨r, -, -, rfl, -⟩
          · cases hrefuses
          · cases hrefuses
      | submitResult worker payload now =>
          rcases exec_submitResult_cases hexec with
            ⟨-, hkeep, -⟩ | ⟨r, -, usageRecords, rfl, -⟩
          · exact hkeep
          · cases hrefuses
      | submitError worker payload =>
          rcases exec_submitError_cases hexec with
            ⟨-, hkeep, -⟩ | ⟨r, -, rfl, -⟩
          · exact hkeep
          · cases hrefuses
      | recover now =>
          obtain ⟨count, rfl, -⟩ := exec_recover_spec hexec
          cases hrefuses
  | failed => rfl
  | rescanned => cases hrefuses

/-! ## The claimant -/

/-- An accepted result comes from the last claimant, and nobody claims the
request afterwards. -/
theorem claimant_of_acceptsResult {db₀ db : Db} {newer older : List Event}
    {e : Event} {id : UUID} (hstart : db₀.requests.rows = [])
    (hrun : History db₀ (newer ++ e :: older) db)
    (haccepts : e.acceptsResult id = true) :
    ∃ worker payload now settled,
      e = .performed (.submitResult worker payload now) (.resultAccepted true)
        settled ∧
      lastClaimant id older = some worker.id ∧
      lastClaimant id (newer ++ e :: older) = some worker.id := by
  obtain ⟨after, hmid, hnew⟩ := Run.split hrun
  obtain ⟨before, hold, hlast⟩ := Run.of_cons hmid
  obtain ⟨worker, payload, now, he, r, hmem, hheld, hcompleted⟩ :=
    hlast.acceptsResult_cases haccepts
  obtain ⟨rfl, hassigned, -, hlive⟩ := OrbiRequest.isHeldBy_iff.mp hheld
  refine ⟨worker, payload, now, _, he, ?_, ?_⟩
  · have hwell := rowWellFormed_of_history hstart hold r hmem
    obtain ⟨⟨workerId, hworker, hclaimant⟩, -, -⟩ :=
      hwell.assigned (hwell.assigned_of_isLive hlive)
    rw [hclaimant, ← hworker, hassigned]
  · have hkept := (untouched_of_ended hnew hcompleted rfl).row
    have hwell := rowWellFormed_of_history hstart hrun _ hkept
    obtain ⟨-, -, -, -, ⟨workerId, hworker, hclaimant⟩, -⟩ := hwell.completed rfl
    have hsame : some worker.id = some workerId := hassigned.symm.trans hworker
    rw [hsame]
    exact hclaimant

/-- In every run each request has at most one accepted result, from the worker of
its last claim; a request that has ended is left alone from then on; and a
refused submission changes nothing. -/
theorem single_result_commitment {db₀ db : Db} {history : List Event}
    (hfresh : Fresh db₀) (hrun : History db₀ history db) :
    (∀ id, history.countP (Event.acceptsResult id) ≤ 1) ∧
    (∀ id newer e older, history = newer ++ e :: older →
      e.acceptsResult id = true → ∃ worker payload now settled,
        e = .performed (.submitResult worker payload now) (.resultAccepted true)
          settled ∧
        lastClaimant id older = some worker.id ∧
        lastClaimant id history = some worker.id) ∧
    (∀ newer older mid, history = newer ++ older → History db₀ older mid →
      History mid newer db → ∀ r ∈ mid.requests.rows, r.isTerminal = true →
        Untouched r mid newer db) ∧
    (∀ before e after, Step before e after → e.refuses = true → after = before) := by
  refine ⟨?_, ?_, ?_, ?_⟩
  · intro id
    rcases resultsCounted_of_history hrun id with hzero | ⟨hone, -⟩
    · omega
    · omega
  · rintro id newer e older rfl haccepts
    exact claimant_of_acceptsResult hfresh.requests_empty hrun haccepts
  · intro newer older mid _ _ hnew r hr hterminal
    exact untouched_of_ended hnew hr (OrbiRequest.not_isOpen_of_isTerminal hterminal)
  · intro before e after hstep hrefuses
    exact hstep.eq_of_refuses hrefuses

namespace Sample

/-- The lifecycle, then the same result again and an error report for it. -/
def duplicates : List Op :=
  lifecycle ++
    [.submitResult worker (resultFor 100 9 9 (by decide) (by decide)) 4,
      .submitError worker (errorFor 100)]

end Sample

/-- The late submissions of this run are refused. -/
theorem single_result_commitment_duplicates :
    (runOps Sample.db Sample.duplicates).1.map Event.refuses =
        [true, true, false, false, false, false, false] ∧
      ∀ id, (runOps Sample.db Sample.duplicates).1.countP
        (Event.acceptsResult id) ≤ 1 :=
  ⟨by decide, (single_result_commitment Sample.fresh_db
    (history_runOps Sample.db Sample.duplicates)).1⟩

end OrbiGateway
