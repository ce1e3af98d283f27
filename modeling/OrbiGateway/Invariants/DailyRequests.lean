import Mathlib.Algebra.Order.BigOperators.Group.List
import OrbiGateway.Routes.Public
import OrbiGateway.System.Histories

/-!
# Daily request limits

`require_api_key` counts every call that it admits, but the count is part of the session
of the call: a scope check or a route that fails afterwards rolls it back.  The limit
therefore bounds the admitted calls that commit, and bounds all admitted calls along the
runs in which none of them fails.
-/

namespace OrbiGateway

open Relational Transition

/-! ## Runs of public calls -/

/-- A call with the key that it is admitted under and whether it commits, or an
operation of the rest of the gateway. -/
inductive PublicEvent
  | called (call : PublicCall) (admitted : Option UUID) (committed : Bool)
  | performed (op : Op)

/-- The call commits. -/
def PublicCall.commits (db : Db) (call : PublicCall) : Bool :=
  (call.serve db).isOk

inductive PublicStep : Db → PublicEvent → Db → Prop
  | called {db : Db} (call : PublicCall) :
      PublicStep db (.called call (call.admittedKey db) (call.commits db)) (call.session db)
  | performed {db db' : Db} {op : Op} {reply : Reply} (hchat : ∀ call, op ≠ .chat call)
      (hexec : exec db op = .ok (reply, db')) : PublicStep db (.performed op) db'

namespace PublicEvent

/-- The same for a call that commits. -/
def countedDate (id : UUID) : PublicEvent → Option Date
  | .called call admitted committed =>
      if admitted = some id ∧ committed = true then some call.keyReadings.today else none
  | .performed _ => none

/-- The UTC date of a call. -/
def today : PublicEvent → Option Date
  | .called call _ _ => some call.keyReadings.today
  | .performed _ => none

end PublicEvent

/-- The dates of the counted calls of a key, newest first. -/
def countedDates (id : UUID) (history : List PublicEvent) : List Date :=
  history.filterMap (PublicEvent.countedDate id)

/-- The UTC dates that successive calls read never decrease. -/
def CallDatesNondecreasing (history : List PublicEvent) : Prop :=
  (history.filterMap PublicEvent.today).Pairwise fun newer older => older ≤ newer

instance (history : List PublicEvent) : Decidable (CallDatesNondecreasing history) :=
  inferInstanceAs (Decidable (List.Pairwise _ _))

namespace APIKey

/-- What an admission does to the daily counter, and the columns that it leaves alone. -/
structure Counted (record record' : APIKey) (today : Date) : Prop where
  id_eq : record'.id = record.id
  projectId_eq : record'.projectId = record.projectId
  scopes_eq : record'.scopes = record.scopes
  limit_eq : record'.dailyReqLimit = record.dailyReqLimit
  date_eq : record'.dailyRequestsDate = today
  used_eq : record'.dailyRequestsUsed =
    (if record.dailyRequestsDate = today then record.dailyRequestsUsed else 0) + 1
  used_le : record'.dailyRequestsUsed ≤ record'.dailyReqLimit

theorem counted_of_countCall {record record' : APIKey} {readings : KeyReadings}
    (h : record.countCall readings = .ok record') :
    Counted record record' readings.today := by
  unfold countCall at h
  dsimp only at h
  split at h
  · cases h
  next hroom =>
    split at h
    · cases h
    cases h
    unfold resetDay at hroom ⊢
    by_cases hday : record.dailyRequestsDate = readings.today
    · rw [if_neg (not_not_intro hday)] at hroom ⊢
      exact ⟨rfl, rfl, rfl, rfl, hday, by simp [hday], by dsimp only; omega⟩
    · rw [if_pos hday] at hroom ⊢
      exact ⟨rfl, rfl, rfl, rfl, rfl, by simp [hday], by dsimp only at hroom ⊢; omega⟩

end APIKey

/-- Both counters have room for the tokens on this day. -/
def Project.HasRoom (project : Project) (tokens : ℤ) (today : Date) : Prop :=
  ∀ period : Period,
    (if period.stamp project = period.start today then period.used project else 0) +
      tokens ≤ period.limit project

/-- What the checks and the statements of `create_chat_completion` need: a valid call
that is a duplicate, or that names an active alias, fits into the budget and gets an
unused id. -/
def ChatPasses (db : Db) (record : APIKey) (call : ChatCall) : Prop :=
  checkChatCall call = .ok () ∧
    ((findExisting db record.id call.idempotencyKey).isSome = true ∨
      ((findAlias db call.payload.model).isSome = true ∧
        (∃ project, db.projects.find record.projectId = some project ∧
          project.HasRoom (reservedTokensOf call.payload) call.readings.today) ∧
        ∀ r ∈ db.requests.rows, r.id ≠ call.readings.requestId))

/-- Nothing in the route fails; the two that only read never do. -/
def PublicCall.RoutePasses (db : Db) (record : APIKey) : PublicCall → Prop
  | .chat call => ChatPasses db record call
  | .listModels _ _ => True
  | .getUsage _ _ => True

/-- The key has the scope, and nothing in the route fails. -/
def PublicCall.Passes (db : Db) (record : APIKey) (call : PublicCall) : Prop :=
  requireApiScope call.requiredScope record = .ok () ∧ call.RoutePasses db record

theorem Project.reserve_isOk_iff {project : Project} {tokens : ℤ} {today : Date}
    (hpos : 1 ≤ tokens) :
    (∃ project', project.reserve tokens today = .ok project') ↔
      project.HasRoom tokens today := by
  constructor
  · rintro ⟨project', h⟩ period
    have hreserved := Project.reserve_spec h
    have hle := hreserved.used_le period
    rwa [hreserved.used_eq, hreserved.limit_eq] at hle
  · intro hroom
    have hday := hroom .daily
    have hmonth := hroom .monthly
    rw [← Project.used_resetPeriods, ← Project.limit_resetPeriods project today]
      at hday hmonth
    have hfits : enforceBudget (project.resetPeriods today).snapshot tokens = .ok () :=
      enforceBudget_eq_ok_iff.mpr ⟨hpos, hday, hmonth⟩
    simp only [Project.reserve, hfits, bind, Except.bind, pure, Except.pure]
    exact ⟨_, rfl⟩

theorem reservedTokensOf_pos (payload : ChatCompletionRequest) :
    1 ≤ reservedTokensOf payload := by
  have hmax := payload.maxTokens_pos
  have hsum : 0 ≤ (payload.messages.map fun message =>
      (message.content.utf8ByteSize : ℤ)).sum := by
    apply List.sum_nonneg
    intro size hsize
    obtain ⟨message, -, rfl⟩ := List.mem_map.mp hsize
    exact Int.natCast_nonneg _
  unfold reservedTokensOf
  omega

/-- The route commits exactly the calls that pass. -/
theorem createChatCompletion_isOk_iff {db : Db} {apiKey : APIKey} {call : ChatCall} :
    (∃ answer, createChatCompletion db apiKey call = .ok answer) ↔
      ChatPasses db apiKey call := by
  constructor
  · rintro ⟨⟨reply, db'⟩, h⟩
    obtain ⟨hcheck, ⟨existing, hfind, -, -⟩ | ⟨record, project, project', -, hqueues⟩⟩ :=
      createChatCompletion_cases h
    · exact ⟨hcheck, Or.inl (by rw [hfind]; rfl)⟩
    · obtain ⟨modelAlias, halias, hrecord⟩ := hqueues.record_eq
      have hfresh := (Table.insert_eq_some_iff.mp hqueues.insert).1
      refine ⟨hcheck, Or.inr ⟨by rw [halias]; rfl, ⟨project, hqueues.findProject, ?_⟩, ?_⟩⟩
      · exact (Project.reserve_isOk_iff (reservedTokensOf_pos _)).mp ⟨_, hqueues.reserve⟩
      · rw [hrecord] at hfresh
        exact hfresh
  · rintro ⟨hcheck, hpasses⟩
    cases hexisting : findExisting db apiKey.id call.idempotencyKey with
    | some existing =>
        refine ⟨(existingReply existing, db), ?_⟩
        simp only [createChatCompletion, hcheck, hexisting, bind, Except.bind, pure,
          Except.pure]
    | none =>
        rw [hexisting] at hpasses
        rcases hpasses with hno | ⟨halias, ⟨project, hproject, hroom⟩, hfresh⟩
        · cases hno
        obtain ⟨modelAlias, halias⟩ := Option.isSome_iff_exists.mp halias
        obtain ⟨project', hreserve⟩ :=
          (Project.reserve_isOk_iff (reservedTokensOf_pos _)).mpr hroom
        have hfree : ∀ r ∈ db.requests.rows, HasKey.key r ≠ HasKey.key (newRequest call
            apiKey modelAlias project' call.readings.today
            call.readings.today.replaceDayOne) := hfresh
        obtain ⟨requests, hinsert⟩ := Table.exists_insert hfree
        exact ⟨_, createChatCompletion_of_insert hcheck hexisting halias
          (reserveForChat_of_reserve hproject hreserve) hinsert⟩

theorem route_apiKeys {db db' : Db} {apiKey : APIKey} {call : PublicCall}
    {reply : PublicReply} (h : call.route db apiKey = .ok (reply, db')) :
    db'.apiKeys = db.apiKeys := by
  cases call with
  | chat call =>
      obtain ⟨⟨answer, final⟩, hchat, hpure⟩ := Except.bind_eq_ok_iff.mp h
      rw [Except.pure_eq_ok_iff] at hpure
      cases hpure
      obtain ⟨-, ⟨existing, -, -, rfl⟩ | ⟨record, project, project', -, hqueues⟩⟩ :=
        createChatCompletion_cases hchat
      · rfl
      · rw [hqueues.db_eq]
  | listModels key keyReadings =>
      cases h
      rfl
  | getUsage key keyReadings =>
      obtain ⟨report, -, hpure⟩ := Except.bind_eq_ok_iff.mp h
      cases hpure
      rfl

/-- A call rolls back and leaves every row, or commits the count of the key that admits
it. -/
theorem session_cases (db : Db) (call : PublicCall) :
    (call.commits db = false ∧ call.session db = db) ∨
      (call.commits db = true ∧ ∃ record ∈ db.apiKeys.rows, ∃ apiKey,
        APIKey.Counted record apiKey call.keyReadings.today ∧
        call.admittedKey db = some record.id ∧
        (call.session db).apiKeys = db.apiKeys.put apiKey) := by
  unfold PublicCall.commits PublicCall.session
  cases hserve : call.serve db with
  | error failure => exact Or.inl ⟨rfl, rfl⟩
  | ok answer =>
      obtain ⟨reply, db'⟩ := answer
      obtain ⟨⟨apiKey, mid⟩, hkey, hrest⟩ := Except.bind_eq_ok_iff.mp hserve
      obtain ⟨-, -, hroute⟩ := Except.bind_eq_ok_iff.mp hrest
      obtain ⟨record, hmem, hfind, -, hcount, rfl⟩ := requireApiKey_spec hkey
      have hcounted := APIKey.counted_of_countCall hcount
      refine Or.inr ⟨rfl, record, hmem, apiKey, hcounted, ?_, route_apiKeys hroute⟩
      simp only [PublicCall.admittedKey, hkey, hcounted.id_eq]

theorem countedDates_sublist (id : UUID) (history : List PublicEvent) :
    (countedDates id history).Sublist (history.filterMap PublicEvent.today) := by
  induction history with
  | nil => exact List.Sublist.refl _
  | cons e history ih =>
      cases e with
      | performed op => exact ih
      | called call admitted committed =>
          by_cases hcounted : admitted = some id ∧ committed = true
          · simpa [countedDates, PublicEvent.countedDate, PublicEvent.today, hcounted]
              using ih
          · simpa [countedDates, PublicEvent.countedDate, PublicEvent.today, hcounted]
              using ih.cons call.keyReadings.today

/-! ## The counter -/

/-- The counter of a key covers the counted calls of its stored date, which is the date
of the last one, and no day has more of them than the limit. -/
structure KeyCounted (history : List PublicEvent) (record : APIKey) : Prop where
  used_nonneg : 0 ≤ record.dailyRequestsUsed
  limit_nonneg : 0 ≤ record.dailyReqLimit
  last : ∀ day, (countedDates record.id history).head? = some day →
    record.dailyRequestsDate = day
  counted : ((countedDates record.id history).count record.dailyRequestsDate : ℤ) ≤
    record.dailyRequestsUsed
  bounded : ∀ day, ((countedDates record.id history).count day : ℤ) ≤ record.dailyReqLimit

namespace KeyCounted

variable {history : List PublicEvent} {record record' : APIKey} {e : PublicEvent}

/-- Only the columns of the daily counter and the counted calls of the key are read. -/
theorem congr (h : KeyCounted history record) (hid : record'.id = record.id)
    (hdate : record'.dailyRequestsDate = record.dailyRequestsDate)
    (hused : record'.dailyRequestsUsed = record.dailyRequestsUsed)
    (hlimit : record'.dailyReqLimit = record.dailyReqLimit)
    (hnone : e.countedDate record.id = none) : KeyCounted (e :: history) record' := by
  have hsame : countedDates record'.id (e :: history) = countedDates record.id history := by
    simp [countedDates, hid, hnone]
  refine ⟨?_, ?_, ?_, ?_, ?_⟩
  · rw [hused]
    exact h.used_nonneg
  · rw [hlimit]
    exact h.limit_nonneg
  · rw [hsame, hdate]
    exact h.last
  · rw [hsame, hdate, hused]
    exact h.counted
  · rw [hsame, hlimit]
    exact h.bounded

theorem count_eq_zero {today : Date} (h : KeyCounted history record)
    (hdates : (countedDates record.id history).Pairwise fun newer older => older ≤ newer)
    (htoday : ∀ day ∈ countedDates record.id history, day ≤ today)
    (hother : record.dailyRequestsDate ≠ today) :
    (countedDates record.id history).count today = 0 := by
  rw [List.count_eq_zero]
  intro hmem
  have hlast := h.last
  cases hcounted : countedDates record.id history with
  | nil =>
      rw [hcounted] at hmem
      cases hmem
  | cons last rest =>
      rw [hcounted] at hmem hdates htoday hlast
      have hstored := hlast last rfl
      have hle := htoday last List.mem_cons_self
      have hge : today ≤ last := by
        rcases List.mem_cons.mp hmem with heq | hrest
        · exact le_of_eq heq
        · exact List.rel_of_pairwise_cons hdates hrest
      exact hother (hstored.trans (le_antisymm hle hge))

theorem call {call : PublicCall} (h : KeyCounted history record)
    (hcounted : APIKey.Counted record record' call.keyReadings.today)
    (hdates : CallDatesNondecreasing (.called call (some record.id) true :: history)) :
    KeyCounted (.called call (some record.id) true :: history) record' := by
  have hdates' : countedDates record'.id (.called call (some record.id) true :: history) =
      call.keyReadings.today :: countedDates record.id history := by
    simp [countedDates, PublicEvent.countedDate, hcounted.id_eq]
  have hsorted : (call.keyReadings.today :: countedDates record.id history).Pairwise
      fun newer older => older ≤ newer := by
    rw [← hdates', hcounted.id_eq]
    exact hdates.sublist (countedDates_sublist _ _)
  obtain ⟨htoday, hold⟩ := List.pairwise_cons.mp hsorted
  -- the calls of this day before this one are covered by the counter it starts from
  have hbefore : ((countedDates record.id history).count call.keyReadings.today : ℤ) ≤
      if record.dailyRequestsDate = call.keyReadings.today then record.dailyRequestsUsed
      else 0 := by
    split
    next hsame =>
      rw [← hsame]
      exact h.counted
    next hother =>
      rw [h.count_eq_zero hold htoday hother]
      exact le_refl 0
  have hused := hcounted.used_eq
  have hcount : ((countedDates record'.id
      (.called call (some record.id) true :: history)).count call.keyReadings.today : ℤ) ≤
        record'.dailyRequestsUsed := by
    rw [hdates', List.count_cons_self, hused]
    push_cast
    omega
  refine ⟨?_, ?_, ?_, ?_, ?_⟩
  · have hnonneg := h.used_nonneg
    rw [hused]
    split <;> omega
  · rw [hcounted.limit_eq]
    exact h.limit_nonneg
  · intro day hday
    rw [hdates', List.head?_cons, Option.some.injEq] at hday
    exact hcounted.date_eq.trans hday
  · rw [hcounted.date_eq]
    exact hcount
  · intro day
    by_cases hday : day = call.keyReadings.today
    · rw [hday]
      exact hcount.trans hcounted.used_le
    · have hle := h.bounded day
      rw [hdates', hcounted.limit_eq, List.count_cons_of_ne (Ne.symm hday)]
      exact hle

end KeyCounted

/-! ## Every run -/

/-- Every key is counted. -/
def KeysCounted (history : List PublicEvent) (db : Db) : Prop :=
  ∀ record ∈ db.apiKeys.rows, KeyCounted history record

theorem KeysCounted.step {history : List PublicEvent} {db db' : Db} {e : PublicEvent}
    (h : KeysCounted history db) (hstep : PublicStep db e db')
    (hdates : CallDatesNondecreasing (e :: history)) : KeysCounted (e :: history) db' := by
  cases hstep with
  | called call =>
      rcases session_cases db call with ⟨hrolled, hsame⟩ |
        ⟨hcommits, record, hrecord, apiKey, hcounted, hadmitted, hput⟩
      · rw [hsame]
        intro row hrow
        exact (h row hrow).congr rfl rfl rfl rfl (by simp [PublicEvent.countedDate, hrolled])
      · intro row' hrow'
        rw [hput] at hrow'
        rw [hcommits, hadmitted] at hdates ⊢
        rcases Table.mem_put hrow' with rfl | ⟨hold, hkey⟩
        · exact (h record hrecord).call hcounted hdates
        · have hne : record.id ≠ row'.id := by
            intro hid
            exact hkey (hid.symm.trans hcounted.id_eq.symm)
          exact (h row' hold).congr rfl rfl rfl rfl
            (by simp [PublicEvent.countedDate, hne])
  | performed hchat hexec =>
      intro row' hrow'
      cases exec_ledgerStep hexec with
      | counted => exact absurd rfl (hchat _)
      | kept _ hkeys husage hrefused =>
          rw [hkeys] at hrow'
          exact (h row' hrow').congr rfl rfl rfl rfl rfl
      | used hmem hheld hkeys husage =>
          rw [hkeys, QueueService.countUse, Table.rows_updateWhere] at hrow'
          obtain ⟨row, hrow, rfl⟩ := List.mem_map.mp hrow'
          split
          · exact (h row hrow).congr rfl rfl rfl rfl rfl
          · exact (h row hrow).congr rfl rfl rfl rfl rfl

namespace Sample

end Sample

end OrbiGateway
