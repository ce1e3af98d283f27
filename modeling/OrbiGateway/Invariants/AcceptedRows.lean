import OrbiGateway.Invariants.BudgetLedger

/-!
# Accepted requests

What a request is for is fixed when it is accepted: its owner, its model, its payload,
its place in the queue, its expiry and its reservation stand in its row as the accepting
call wrote them, whatever happens to it later, and the row of an accepted request is
never lost.
-/

namespace OrbiGateway

open Relational Transition

/-- The rows that were queued in a history, newest first. -/
def acceptedRows (history : List Event) : List OrbiRequest :=
  history.filterMap Event.reservation

/-- The columns that acceptance fixes are those of `row`. -/
structure OrbiRequest.AcceptedAs (r row : OrbiRequest) : Prop where
  id : r.id = row.id
  idempotencyKey : r.idempotencyKey = row.idempotencyKey
  projectId : r.projectId = row.projectId
  apiKeyId : r.apiKeyId = row.apiKeyId
  modelAlias : r.modelAlias = row.modelAlias
  resolvedModel : r.resolvedModel = row.resolvedModel
  payload : r.payload = row.payload
  requiredCapabilities : r.requiredCapabilities = row.requiredCapabilities
  priority : r.priority = row.priority
  maxRetries : r.maxRetries = row.maxRetries
  createdAt : r.createdAt = row.createdAt
  expiresAt : r.expiresAt = row.expiresAt
  reservedTokens : r.reservedTokens = row.reservedTokens
  budgetDay : r.budgetDay = row.budgetDay
  budgetMonth : r.budgetMonth = row.budgetMonth

namespace OrbiRequest.AcceptedAs

theorem refl (r : OrbiRequest) : r.AcceptedAs r :=
  ⟨rfl, rfl, rfl, rfl, rfl, rfl, rfl, rfl, rfl, rfl, rfl, rfl, rfl, rfl, rfl⟩

theorem step {r r' row : OrbiRequest} {op : Op} {reply : Reply} (h : r.AcceptedAs row)
    (hstep : RowStep r op reply r') : r'.AcceptedAs row := by
  obtain ⟨h₁, h₂, h₃, h₄, h₅, h₆, h₇, h₈, h₉, h₁₀, h₁₁, h₁₂, h₁₃, h₁₄, h₁₅⟩ := h
  cases hstep <;>
    exact ⟨h₁, h₂, h₃, h₄, h₅, h₆, h₇, h₈, h₉, h₁₀, h₁₁, h₁₂, h₁₃, h₁₄, h₁₅⟩

end OrbiRequest.AcceptedAs

/-! ## How a row is accepted -/

/-- The row is what a chat call writes, under an alias of the database. -/
def WrittenBy (db : Db) (call : ChatCall) (row : OrbiRequest) : Prop :=
  ∃ apiKey : APIKey, ∃ modelAlias ∈ db.modelAliases.rows, ∃ project : Project,
    apiKey.projectId = project.id ∧
      (∃ old ∈ db.apiKeys.rows, apiKey.lookupColumns = old.lookupColumns) ∧
      modelAlias.aliasName = call.payload.model ∧
      row = newRequest call apiKey modelAlias project call.readings.today
        call.readings.today.replaceDayOne

/-- A row that is queued was written by its call. -/
theorem exec_accepted {db db' : Db} {op : Op} {row : OrbiRequest}
    (h : exec db op = .ok (.chat (.queued row), db')) :
    ∃ call, op = .chat call ∧ WrittenBy db call row := by
  obtain ⟨call, -, -, rfl, -⟩ := exec_newRow h (List.mem_singleton_self row)
  refine ⟨call, rfl, ?_⟩
  obtain ⟨apiKey, hrequire, hcases⟩ := exec_chat_cases h
  rcases hcases with ⟨existing, -, hreply, -⟩ | ⟨queued, project, project', hreply, hqueues⟩
  · have hnew := newRows_existingReply existing
    rw [← hreply] at hnew
    cases hnew
  · cases hreply
    obtain ⟨found, hmem, -, -, hcount, -⟩ := requireApiKey_spec hrequire
    obtain ⟨modelAlias, halias, hrow⟩ := hqueues.record_eq
    have hname := List.find?_some halias
    simp only [Bool.and_eq_true, beq_iff_eq] at hname
    have hproject : project'.id = apiKey.projectId :=
      (Project.reserve_spec hqueues.reserve).id_eq.trans
        (Table.key_of_find hqueues.findProject)
    exact ⟨apiKey, modelAlias, List.mem_of_find?_eq_some halias, project', hproject.symm,
      ⟨found, hmem, APIKey.lookupColumns_countCall hcount⟩, hname.1, hrow⟩

/-! ## Along a run -/

/-- The request table holds exactly the accepted requests, as they were accepted. -/
structure RowsAccepted (history : List Event) (db : Db) : Prop where
  accepted : ∀ r ∈ db.requests.rows, ∃ row ∈ acceptedRows history, r.AcceptedAs row
  kept : ∀ row ∈ acceptedRows history, ∃ r ∈ db.requests.rows, r.AcceptedAs row

theorem acceptedRows_performed {db db' : Db} {op : Op} {reply : Reply}
    (hexec : exec db op = .ok (reply, db')) (settled : List Settlement)
    (history : List Event) :
    acceptedRows (.performed op reply settled :: history) =
      reply.newRows ++ acceptedRows history := by
  cases hnew : reply.newRows with
  | nil =>
      rw [acceptedRows, List.filterMap_cons_none (reservation_of_newRows_nil hnew)]
      rfl
  | cons row rest =>
      have hmem : row ∈ reply.newRows := by simp [hnew]
      obtain ⟨call, -, -, rfl, rfl, -⟩ := exec_newRow hexec hmem
      cases hnew
      rfl

theorem RowsAccepted.step {history : List Event} {db db' : Db} {e : Event}
    (h : RowsAccepted history db) (hstep : Step db e db') : RowsAccepted (e :: history) db' := by
  cases hstep with
  | @performed _ op reply hexec =>
      refine ⟨?_, ?_⟩
      · intro r' hr'
        rw [acceptedRows_performed hexec]
        rw [exec_requests hexec, List.mem_append, List.mem_map] at hr'
        rcases hr' with ⟨r, hr, rfl⟩ | hnew
        · obtain ⟨row, hrow, hsame⟩ := h.accepted r hr
          exact ⟨row, List.mem_append_right _ hrow, hsame.step (exec_rowStep hexec hr)⟩
        · exact ⟨r', List.mem_append_left _ hnew, .refl r'⟩
      · intro row hrow
        rw [acceptedRows_performed hexec, List.mem_append] at hrow
        rw [exec_requests hexec]
        rcases hrow with hnew | hold
        · exact ⟨row, List.mem_append_right _ hnew, .refl row⟩
        · obtain ⟨r, hr, hsame⟩ := h.kept row hold
          exact ⟨_, List.mem_append_left _ (List.mem_map_of_mem hr),
            hsame.step (exec_rowStep hexec hr)⟩
  | failed hexec => exact ⟨h.accepted, h.kept⟩
  | rescanned hperm =>
      refine ⟨fun r hr => h.accepted r (hperm.mem_iff.mp hr), ?_⟩
      intro row hrow
      obtain ⟨r, hr, hsame⟩ := h.kept row hrow
      exact ⟨r, hperm.mem_iff.mpr hr, hsame⟩

theorem rowsAccepted_of_history {db₀ db : Db} {history : List Event}
    (hstart : db₀.requests.rows = []) (hrun : History db₀ history db) :
    RowsAccepted history db := by
  apply Run.history_invariant (I := RowsAccepted) hrun
  · refine ⟨?_, ?_⟩
    · intro r hr
      rw [hstart] at hr
      cases hr
    · intro row hrow
      cases hrow
  · intro history db e db' _ ih hlast
    exact ih.step hlast

/-! ## Aliases -/

end OrbiGateway
