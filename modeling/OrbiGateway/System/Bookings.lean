import OrbiGateway.System.Histories
import OrbiGateway.System.Settlements

/-!
# Bookings

What an event books on a request: a reservation when the request is queued, a
settlement when it ends, a usage record when its result is accepted.  The project
counters move by these bookings only, and nothing is ever booked on a request
that has ended.
-/

namespace OrbiGateway

open Relational Transition

/-- Every transition of a row starts from an open row. -/
theorem RowStep.kept_or_isOpen {r r' : OrbiRequest} {op : Op} {reply : Reply}
    (h : RowStep r op reply r') : r' = r ∨ r.isOpen = true := by
  cases h with
  | kept => exact Or.inl rfl
  | claimed hclaimable => exact Or.inr (OrbiRequest.isOpen_of_isClaimable hclaimable)
  | completed hheld => exact Or.inr (OrbiRequest.isOpen_of_isHeldBy hheld)
  | errorRequeued hheld _ => exact Or.inr (OrbiRequest.isOpen_of_isHeldBy hheld)
  | errorFailed hheld _ => exact Or.inr (OrbiRequest.isOpen_of_isHeldBy hheld)
  | leaseRequeued hretry _ => exact Or.inr (OrbiRequest.isOpen_of_isRetryable hretry)
  | leaseExpired hretry _ => exact Or.inr (OrbiRequest.isOpen_of_isRetryable hretry)
  | leaseFailed hexhausted =>
      exact Or.inr (OrbiRequest.isOpen_of_isExhausted hexhausted)
  | queueExpired hqueue =>
      have hqueued := OrbiRequest.status_of_isQueueExpired hqueue
      exact Or.inr (OrbiRequest.isOpen_of_queued hqueued)

/-! ## Project counters -/

/-- The reservation for a queued request, acting on one project row. -/
def bookReservation (record : OrbiRequest) (project : Project) : Project :=
  if project.id = record.projectId then
    match project.reserve record.reservedTokens record.budgetDay with
    | .ok reserved => reserved
    | .error _ => project
  else project

theorem id_bookReservation (record : OrbiRequest) (project : Project) :
    (bookReservation record project).id = project.id := by
  unfold bookReservation
  split
  · split
    next reserved hreserve => exact (Project.reserve_spec hreserve).id_eq
    · rfl
  · rfl

/-- The project table after an event, computed from the requests it books on. -/
def Event.book (e : Event) (projects : Table Project) : Table Project :=
  match e with
  | .performed _ (.chat (.queued record)) _ =>
      projects.mapRows ⟨bookReservation record, id_bookReservation record⟩
  | .performed _ _ settled => settleAll settled projects
  | _ => projects

/-- The requests on which an event books a reservation or a settlement. -/
def Event.bookedIds : Event → List UUID
  | .performed _ (.chat (.queued record)) _ => [record.id]
  | .performed _ _ settled => settled.map Settlement.requestId
  | _ => []

theorem NewRow.put_eq {db : Db} {call : ChatCall} {record : OrbiRequest}
    {project project' : Project} (h : NewRow db call record project project') :
    db.projects.put project' =
      db.projects.mapRows ⟨bookReservation record, id_bookReservation record⟩ := by
  have hid : project.id = record.projectId := Table.key_of_find h.findProject
  have hid' : project'.id = record.projectId :=
    (Project.reserve_spec h.reserve).id_eq.trans hid
  apply Table.ext
  rw [Table.rows_put, Table.rows_mapRows]
  apply List.map_congr_left
  intro row hrow
  by_cases hkey : row.id = record.projectId
  · have heq : row = project :=
      db.projects.eq_of_key_eq hrow (Table.mem_of_find h.findProject)
        (hkey.trans hid.symm)
    subst heq
    simp [bookReservation, hid', hkey, h.reserve]
  · simp [bookReservation, hid', hkey]

theorem Event.book_of_newRows_nil {op : Op} {reply : Reply}
    {settled : List Settlement} (hnone : reply.newRows = [])
    (projects : Table Project) :
    (Event.performed op reply settled).book projects = settleAll settled projects := by
  unfold Event.book
  split
  next heq =>
    cases heq
    cases hnone
  next heq =>
    cases heq
    rfl
  next hno => exact absurd rfl (hno op reply settled)

theorem Event.bookedIds_of_newRows_nil {op : Op} {reply : Reply}
    {settled : List Settlement} (hnone : reply.newRows = []) :
    (Event.performed op reply settled).bookedIds =
      settled.map Settlement.requestId := by
  unfold Event.bookedIds
  split
  next heq =>
    cases heq
    cases hnone
  next heq =>
    cases heq
    rfl
  next hno => exact absurd rfl (hno op reply settled)

/-- The project counters move by the bookings of each event, and by nothing
else. -/
theorem Step.projects_eq {db db' : Db} {e : Event} (hstep : Step db e db') :
    db'.projects = e.book db.projects := by
  cases hstep with
  | @performed db' op reply hexec =>
      cases hrows : reply.newRows with
      | nil =>
          rw [Event.book_of_newRows_nil hrows]
          exact exec_projects hexec hrows
      | cons record rest =>
          have hmem : record ∈ reply.newRows := by simp [hrows]
          obtain ⟨call, project, project', rfl, rfl, hnew, hput⟩ :=
            exec_newRow hexec hmem
          rw [hput, hnew.put_eq]
          rfl
  | failed => rfl
  | rescanned => rfl

/-! ## Usage records -/

/-- Only an accepted result adds a usage record, of the request it completes. -/
theorem exec_usageRecords {db db' : Db} {op : Op} {reply : Reply}
    (h : exec db op = .ok (reply, db')) :
    db'.usageRecords = db.usageRecords ∨
      ∃ r ∈ db.requests.rows, r.isOpen = true ∧ ∃ record : UsageRecord,
        record.requestId = r.id ∧
        db'.usageRecords.rows = db.usageRecords.rows ++ [record] := by
  cases exec_ledgerStep h with
  | counted _ _ husage => exact Or.inl husage
  | @used _ _ _ r hmem hheld _ hinsert =>
      exact Or.inr ⟨r, hmem, OrbiRequest.isOpen_of_isHeldBy hheld, _, rfl,
        (Table.insert_eq_some_iff.mp hinsert).2⟩
  | kept _ _ husage _ => exact Or.inl husage

/-- The usage records of one request. -/
def usageOf (id : UUID) (db : Db) : List UsageRecord :=
  db.usageRecords.rows.filter fun record => record.requestId == id

/-! ## Ended requests -/

section Ended

variable {db db' : Db} {e : Event} {r : OrbiRequest}

/-- A row that is not open stays as it is. -/
theorem Step.row_mem_of_ended (hstep : Step db e db') (hr : r ∈ db.requests.rows)
    (hended : r.isOpen = false) : r ∈ db'.requests.rows := by
  cases hstep with
  | @performed db' op reply hexec =>
      rw [exec_requests hexec]
      apply List.mem_append_left
      rcases (exec_rowStep hexec hr).kept_or_isOpen with hkept | hopen
      · exact List.mem_map.mpr ⟨r, hr, hkept⟩
      · rw [hended] at hopen
        cases hopen
  | failed => exact hr
  | rescanned hperm => exact hperm.mem_iff.mpr hr

theorem Step.not_booked_of_ended (hstep : Step db e db') (hr : r ∈ db.requests.rows)
    (hended : r.isOpen = false) : r.id ∉ e.bookedIds := by
  cases hstep with
  | @performed db' op reply hexec =>
      cases hrows : reply.newRows with
      | nil =>
          rw [Event.bookedIds_of_newRows_nil hrows]
          intro hid
          obtain ⟨settlement, hsettled, hrequest⟩ := List.mem_map.mp hid
          obtain ⟨row, hrow, hsettlement⟩ := mem_settlements hsettled
          obtain ⟨actual, rfl, -, hopen⟩ := OrbiRequest.settlement_spec hsettlement
          have heq : row = r := db.requests.eq_of_key_eq hrow hr hrequest
          rw [heq, hended] at hopen
          cases hopen
      | cons record rest =>
          have hmem : record ∈ reply.newRows := by simp [hrows]
          obtain ⟨call, project, project', rfl, rfl, hnew, -⟩ :=
            exec_newRow hexec hmem
          intro hid
          exact hnew.fresh r hr (List.mem_singleton.mp hid)
  | failed => exact List.not_mem_nil
  | rescanned => exact List.not_mem_nil

theorem Step.usageOf_of_ended (hstep : Step db e db') (hr : r ∈ db.requests.rows)
    (hended : r.isOpen = false) : usageOf r.id db' = usageOf r.id db := by
  cases hstep with
  | @performed db' op reply hexec =>
      rcases exec_usageRecords hexec with hsame |
        ⟨row, hrow, hopen, record, hrecord, hadded⟩
      · rw [usageOf, hsame, usageOf]
      · have hne : record.requestId ≠ r.id := by
          intro hid
          have heq : row = r :=
            db.requests.eq_of_key_eq hrow hr (hrecord.symm.trans hid)
          rw [heq, hended] at hopen
          cases hopen
        simp [usageOf, hadded, List.filter_append, hne]
  | failed => rfl
  | rescanned => rfl

end Ended

end OrbiGateway
