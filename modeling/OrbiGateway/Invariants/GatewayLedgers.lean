import OrbiGateway.System.GatewayCore

/-!
# The books of the whole gateway

From the empty database on, whatever administrators, clients, workers and the maintenance
loop do: every reference between rows stays good, the three ledgers of usage agree, every
request is settled at most once and the budget counters are what has been charged.  What a
client reads in its usage report can therefore be counted in the history of calls.
-/

namespace OrbiGateway

open Relational Transition

/-! ## Histories -/

/-- The requests that the calls of a history have queued, newest first. -/
def queuedRows (history : List GatewayEvent) : List OrbiRequest :=
  history.filterMap GatewayEvent.queued

/-- The submissions that the calls of a history have had accepted, newest first, each with
the worker that made it. -/
def acceptedResults (history : List GatewayEvent) : List (Worker × WorkerResultRequest) :=
  history.filterMap GatewayEvent.acceptedResult

/-- What every event shares with its operations, a history shares with all of them. -/
theorem filterMap_operations_flatten {α : Type*} {f : Event → Option α}
    {g : GatewayEvent → Option α} {history : List GatewayEvent}
    {owns : List (List (Option Event))}
    (h : List.Forall₂ (fun e own => (operations own).filterMap f = (g e).toList)
      history owns) :
    (operations owns.flatten).filterMap f = history.filterMap g := by
  induction h with
  | nil => rfl
  | @cons e own history owns hown _ ih =>
      rw [List.flatten_cons, operations_append, List.filterMap_append, hown, ih]
      cases hg : g e with
      | none => rw [List.filterMap_cons_none hg]; rfl
      | some a => rw [List.filterMap_cons_some hg]; rfl

theorem acceptedRows_mirrored {history : List GatewayEvent}
    {owns : List (List (Option Event))} (h : List.Forall₂ Mirrors history owns) :
    acceptedRows (operations owns.flatten) = queuedRows history :=
  filterMap_operations_flatten (h.imp fun _ _ hmirrors => hmirrors.queued)

theorem acceptedResults_mirrored {history : List GatewayEvent}
    {owns : List (List (Option Event))} (h : List.Forall₂ Mirrors history owns) :
    (operations owns.flatten).filterMap Event.acceptedResult = acceptedResults history :=
  filterMap_operations_flatten (h.imp fun _ _ hmirrors => hmirrors.results)

/-- The dates of successive reservations of one project never decrease. -/
def QueuedInOrder (history : List GatewayEvent) : Prop :=
  (queuedRows history).Pairwise fun newer older =>
    newer.projectId = older.projectId → older.budgetDay ≤ newer.budgetDay

theorem datesNondecreasing_mirrored {history : List GatewayEvent}
    {owns : List (List (Option Event))} (h : List.Forall₂ Mirrors history owns)
    (hdates : QueuedInOrder history) : DatesNondecreasing (operations owns.flatten) := by
  rw [datesNondecreasing_iff]
  change (acceptedRows _).Pairwise _
  rw [acceptedRows_mirrored h]
  exact hdates

/-! ## The empty database -/

theorem references_emptyDb : References emptyDb :=
  .of_empty rfl rfl rfl

theorem fresh_emptyDb : Fresh emptyDb where
  requests_empty := rfl
  usageRecords_empty := rfl
  counters_zero project hproject := by cases hproject

theorem keysUnused_emptyDb : KeysUnused emptyDb := by
  intro record hrecord
  cases hrecord

/-! ## Runs -/

section Runs

variable {services : GatewayServices} {history : List GatewayEvent} {s : GatewayState}

theorem GatewayRun.references (hrun : GatewayRun services history s) :
    References s.db.toDb := by
  obtain ⟨owns, -, hcore⟩ := hrun.core
  exact references_of_coreRun references_emptyDb hcore

theorem GatewayRun.ledgersAgree (hrun : GatewayRun services history s) :
    LedgersAgree s.db.toDb := by
  obtain ⟨owns, -, hcore⟩ := hrun.core
  exact ledgersAgree_of_coreRun fresh_emptyDb keysUnused_emptyDb references_emptyDb hcore

theorem GatewayRun.budgetConserved (hrun : GatewayRun services history s)
    (hdates : QueuedInOrder history) : BudgetConserved s.db.toDb := by
  obtain ⟨owns, hmirrors, hcore⟩ := hrun.core
  exact budgetConserved_of_coreRun fresh_emptyDb references_emptyDb hcore
    (datesNondecreasing_mirrored hmirrors hdates)

/-- The request table holds exactly the requests that were queued. -/
theorem GatewayRun.rows_queued (hrun : GatewayRun services history s) :
    (∀ r ∈ s.db.requests.rows, ∃ row ∈ queuedRows history, r.AcceptedAs row) ∧
      ∀ row ∈ queuedRows history, ∃ r ∈ s.db.requests.rows, r.AcceptedAs row := by
  obtain ⟨owns, hmirrors, hcore⟩ := hrun.core
  have hrows := rowsAccepted_of_coreRun rfl hcore
  rw [← acceptedRows_mirrored hmirrors]
  exact ⟨hrows.accepted, hrows.kept⟩

theorem GatewayRun.waiting_queued (hrun : GatewayRun services history s) :
    ∀ requestId ∈ s.waiting, ∃ row ∈ queuedRows history, row.id = requestId := by
  apply Run.history_invariant (I := fun history (s : GatewayState) =>
    ∀ requestId ∈ s.waiting, ∃ row ∈ queuedRows history, row.id = requestId) hrun
  · intro requestId hwaiting
    cases hwaiting
  · intro history s e s' _ ih hstep
    have hkept : ∀ requestId ∈ s.waiting, ∃ row ∈ queuedRows (e :: history),
        row.id = requestId := by
      intro requestId hwaiting
      obtain ⟨row, hrow, hid⟩ := ih requestId hwaiting
      exact ⟨row, ((List.sublist_cons_self e history).filterMap _).subset hrow, hid⟩
    cases hstep.change with
    | @replied _ _ _ _ reply _ _ hparsed hserve =>
        intro requestId hwaiting
        rcases List.mem_append.mp hwaiting with hnew | hold
        · rw [Option.mem_toList] at hnew
          unfold PublicReply.waitsFor at hnew
          split at hnew
          next record =>
            cases hnew
            exact ⟨record, List.mem_cons_self, rfl⟩
          · cases hnew
        · exact hkept requestId hold
    | completed =>
        intro requestId hwaiting
        exact hkept requestId (List.mem_of_mem_erase hwaiting)
    | failed hfails hserving hsub =>
        intro requestId hwaiting
        exact hkept requestId (hsub.subset hwaiting)
    | abandoned hserving hsub =>
        intro requestId hwaiting
        exact hkept requestId (hsub.subset hwaiting)
    | _ => exact hkept

end Runs

/-! ## The books -/

/-- The rows refer to each other, the usage records are counted, the requests are those that
were queued, and the budget counters are what they hold or have used. -/
structure BooksBalance (history : List GatewayEvent) (db : Db) : Prop where
  references : References db
  ledgers : LedgersAgree db
  queued : ∀ r ∈ db.requests.rows, ∃ row ∈ queuedRows history, r.AcceptedAs row
  kept : ∀ row ∈ queuedRows history, ∃ r ∈ db.requests.rows, r.AcceptedAs row
  budget : QueuedInOrder history → BudgetConserved db

/-- The books balance in every state of every run of the whole gateway. -/
theorem books_balance {services : GatewayServices} {history : List GatewayEvent}
    {s : GatewayState} (hrun : GatewayRun services history s) :
    BooksBalance history s.db.toDb where
  references := hrun.references
  ledgers := hrun.ledgersAgree
  queued := hrun.rows_queued.1
  kept := hrun.rows_queued.2
  budget := hrun.budgetConserved

theorem books_balance_answered :
    BooksBalance (runActions GatewaySample.services .initial GatewaySample.answered).1
      (runActions GatewaySample.services .initial GatewaySample.answered).2.db.toDb :=
  books_balance (run_runActions GatewaySample.services GatewaySample.answered)

end OrbiGateway
