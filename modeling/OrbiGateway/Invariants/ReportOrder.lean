import OrbiGateway.Invariants.FinishOrder
import OrbiGateway.Invariants.IntegerRanges

/-!
# Final reports on the declared columns

In any order final reports are accepted, if the database can store what they carry: texts
without U+0000, and integers that fit their columns and leave room for the sums to which
they are added.  What a counter may reach on the way depends on the order, and the order in
which every raise comes before every release takes it as far as it gets.
-/

namespace OrbiGateway

open Relational Transition Constrained

/-! ## Texts -/

/-- PostgreSQL stores no U+0000 in a text. -/
def textStorable (text : String) : Bool :=
  !text.toList.contains (Char.ofNat 0)

mutual

/-- `jsonb` stores the texts of a document, the names of its fields among them. -/
def Json.isStorable : Json → Bool
  | .null => true
  | .bool _ => true
  | .num _ => true
  | .str text => textStorable text
  | .arr elements => Json.elementsStorable elements
  | .obj fields => Json.fieldsStorable fields

def Json.elementsStorable : List Json → Bool
  | [] => true
  | element :: rest => element.isStorable && Json.elementsStorable rest

def Json.fieldsStorable : List (String × Json) → Bool
  | [] => true
  | (name, value) :: rest =>
      textStorable name && value.isStorable && Json.fieldsStorable rest

end

/-! ## Reports -/

/-- The texts that the report hands over. -/
def Finishing.textsStorable (f : Finishing) : Bool :=
  match f.report with
  | .result payload => (Json.obj payload.result).isStorable
  | .error payload => textStorable payload.errorCode && textStorable payload.message

/-- An error report that finds no row hands nothing over. -/
def GatewayReply.findsNoRow : GatewayReply → Bool
  | .performed (.errorAccepted false) => true
  | _ => false

/-- A report against the declared columns.  What cannot be stored is refused. -/
def storeReport (db : StoredDb) (f : Finishing) (now : Timestamp) :
    Except (Refusal Failure) (GatewayReply × StoredDb) :=
  match store db (.perform (f.op now)) with
  | .error refusal => .error refusal
  | .ok (reply, next) =>
      if f.textsStorable || reply.findsNoRow then .ok (reply, next) else .error .violation

/-- The worker is told that its report is accepted. -/
def GatewayReply.isAcceptance : GatewayReply → Bool
  | .performed (.resultAccepted true) => true
  | .performed (.errorAccepted true) => true
  | _ => false

/-- The state after a list of reports, if all of them are accepted. -/
def finishAll (db : StoredDb) : List (Finishing × Timestamp) → Option StoredDb
  | [] => some db
  | (f, now) :: calls =>
      match storeReport db f now with
      | .error _ => none
      | .ok (reply, next) => if reply.isAcceptance then finishAll next calls else none

namespace Finishing

/-- The report is a result for a request of the key. -/
def usesKey (f : Finishing) (apiKeyId : UUID) : Bool :=
  match f.report with
  | .result _ => apiKeyId == f.request.apiKeyId
  | .error _ => false

def usesOf (apiKeyId : UUID) (f : Finishing) : ℤ :=
  if f.usesKey apiKeyId then 1 else 0

def tokensOf (apiKeyId : UUID) (f : Finishing) : ℤ :=
  if f.usesKey apiKeyId then f.actualTokens else 0

/-- By how much the report raises the counter, if it does. -/
def raises (period : Period) (project : Project) (f : Finishing) : ℤ :=
  max 0 (f.settlement.moves period project)

/-- The integers and texts of the payload can be stored. -/
def PayloadStorable (f : Finishing) : Prop :=
  f.textsStorable = true ∧ ∀ payload, f.report = .result payload →
    payload.inputTokens ≤ IntegerType.integer.maxValue ∧
      payload.outputTokens ≤ IntegerType.integer.maxValue ∧
      payload.latencyMs ≤ IntegerType.integer.maxValue

theorem actualTokens_nonneg (f : Finishing) : 0 ≤ f.actualTokens := by
  unfold actualTokens
  split
  next payload _ => exact Int.add_nonneg payload.inputTokens_nonneg payload.outputTokens_nonneg
  · exact le_refl 0

theorem usesOf_nonneg (apiKeyId : UUID) (f : Finishing) : 0 ≤ f.usesOf apiKeyId := by
  unfold usesOf
  split
  · exact zero_le_one
  · exact le_refl 0

theorem tokensOf_nonneg (apiKeyId : UUID) (f : Finishing) : 0 ≤ f.tokensOf apiKeyId := by
  unfold tokensOf
  split
  · exact f.actualTokens_nonneg
  · exact le_refl 0

theorem raises_nonneg (period : Period) (project : Project) (f : Finishing) :
    0 ≤ f.raises period project :=
  le_max_left _ _

end Finishing

/-- The payloads can be stored, and the 64-bit sums have room for all of them: the totals of
each key, and each counter with every raise. -/
structure FinishingsFit (db : Db) (finishings : List Finishing) : Prop where
  payloads : ∀ f ∈ finishings, f.PayloadStorable
  totals : ∀ record ∈ db.apiKeys.rows,
    record.totalRequests + (finishings.map (Finishing.usesOf record.id)).sum ≤
        IntegerType.bigInteger.maxValue ∧
      record.totalTokens + (finishings.map (Finishing.tokensOf record.id)).sum ≤
        IntegerType.bigInteger.maxValue
  counters : ∀ project ∈ db.projects.rows, ∀ period : Period,
    period.used project + (finishings.map (Finishing.raises period project)).sum ≤
      IntegerType.bigInteger.maxValue

theorem LedgersSound.step {db db' : Db} {e : Event} (h : LedgersSound db)
    (hstep : Step db e db') : LedgersSound db' := by
  cases hstep with
  | performed hexec => exact h.exec hexec
  | failed => exact h
  | rescanned hperm => exact h.rescan hperm

section OneReport

variable {db next : StoredDb} {f g : Finishing} {now : Timestamp} {rest : List Finishing}

theorem Finishing.isAcceptance_reply (f : Finishing) :
    (GatewayReply.performed f.reply).isAcceptance = true := by
  unfold reply
  split
  · rfl
  · rfl

theorem Finishing.findsNoRow_reply (f : Finishing) :
    (GatewayReply.performed f.reply).findsNoRow = false := by
  unfold reply
  split
  · rfl
  · rfl

/-- An accepted report: what it hands over can be stored, and so can the outcome. -/
structure Accepts (db : StoredDb) (f : Finishing) (now : Timestamp) (next : StoredDb) :
    Prop where
  texts : f.textsStorable = true
  parameters : (GatewayCall.perform (f.op now)).ParametersInRange
  exec : exec db.val.toDb (f.op now) = .ok (f.reply, next.val.toDb)
  names : next.val.projectNames = db.val.projectNames

theorem storeReport_eq_ok_iff (hsound : LedgersSound db.val.toDb) (hends : f.EndsIn db.val.toDb)
    {reply : GatewayReply} :
    storeReport db f now = .ok (reply, next) ↔
      reply = .performed f.reply ∧ Accepts db f now next := by
  obtain ⟨mid, hexec⟩ := Finishing.exec_op hsound.known hsound.owned hends now
  unfold storeReport
  constructor
  · intro h
    split at h
    · cases h
    next reply' next' hstore =>
      obtain ⟨hparameters, hrun⟩ := guarded_eq_ok_iff.mp hstore
      obtain ⟨answer, mid', hexec', rfl, hnext⟩ := GatewayCall.run_perform_eq_ok_iff.mp hrun
      have hpair := Except.ok.inj (hexec'.symm.trans hexec)
      cases hpair
      rw [f.findsNoRow_reply, Bool.or_false] at h
      split at h
      next htexts =>
        cases h
        refine ⟨rfl, htexts, hparameters, ?_, ?_⟩
        · rw [hnext]
          exact hexec'
        · rw [hnext]
      · cases h
  · rintro ⟨rfl, htexts, hparameters, hexec', hnames⟩
    have hnext : next.val = { db.val with toDb := next.val.toDb } :=
      congrArg (NamedDb.mk next.val.toDb) hnames
    have hstore : store db (.perform (f.op now)) = .ok (.performed f.reply, next) :=
      guarded_eq_ok_iff.mpr ⟨hparameters,
        GatewayCall.run_perform_eq_ok_iff.mpr ⟨_, _, hexec', rfl, hnext⟩⟩
    rw [hstore]
    simp only [htexts, Bool.true_or, if_true]

theorem finishAll_cons_eq_some_iff (hsound : LedgersSound db.val.toDb)
    (hends : f.EndsIn db.val.toDb) {calls : List (Finishing × Timestamp)} {final : StoredDb} :
    finishAll db ((f, now) :: calls) = some final ↔
      ∃ next, Accepts db f now next ∧ finishAll next calls = some final := by
  rw [finishAll]
  constructor
  · intro h
    split at h
    · cases h
    next reply next hstore =>
      obtain ⟨rfl, haccepts⟩ := (storeReport_eq_ok_iff hsound hends).mp hstore
      rw [if_pos f.isAcceptance_reply] at h
      exact ⟨next, haccepts, h⟩
  · rintro ⟨next, haccepts, hrest⟩
    rw [(storeReport_eq_ok_iff hsound hends).mpr ⟨rfl, haccepts⟩]
    simp only [f.isAcceptance_reply, if_true]
    exact hrest

theorem EndDistinct.tail (h : EndDistinct (f :: rest) db.val.toDb)
    (haccepts : Accepts db f now next) : EndDistinct rest next.val.toDb := by
  have hdistinct := h.distinct
  simp only [List.map_cons, List.nodup_cons] at hdistinct
  refine ⟨?_, hdistinct.2⟩
  intro g hg
  have hne : f.request.id ≠ g.request.id := by
    intro hsame
    apply hdistinct.1
    rw [hsame]
    exact List.mem_map_of_mem hg
  exact (h.endsIn g (List.mem_cons_of_mem f hg)).after_op (h.endsIn f List.mem_cons_self) hne
    haccepts.exec

theorem Finishing.moves_settlement (f : Finishing) (period : Period) (project : Project) :
    f.settlement.moves period project =
      if f.request.countsIn period project then f.actualTokens - f.request.reservedTokens
      else 0 := by
  rw [Settlement.moves, settlement, countsIn_settledBy]
  rfl

theorem Finishing.raises_congr {project project' : Project} {period : Period}
    (hid : project'.id = project.id) (hstamp : period.stamp project' = period.stamp project) :
    f.raises period project' = f.raises period project := by
  rw [raises, raises, Settlement.moves, Settlement.moves, f.settlement.countsIn_congr hid hstamp]

/-- A raise moves the counter by itself, and nothing moves it further. -/
theorem Accepts.counter (haccepts : Accepts db f now next) (hends : f.EndsIn db.val.toDb)
    {project : Project} (hproject : project ∈ db.val.projects.rows) (period : Period) :
    ∃ project' ∈ next.val.projects.rows, project'.id = project.id ∧
      period.stamp project' = period.stamp project ∧
      period.used project' = if f.request.countsIn period project then
        max 0 (period.used project + f.settlement.moves period project)
      else period.used project := by
  have hprojects := (Finishing.finished_op hends haccepts.exec).projects
  refine ⟨settleProject [f.settlement] project, ?_, id_settleProject _ _,
    stamp_settleProject _ _ _, ?_⟩
  · rw [hprojects]
    exact List.mem_map_of_mem hproject
  · change period.used (f.settlement.apply project) = _
    rw [Settlement.used_apply, Finishing.settlement, countsIn_settledBy]

theorem Accepts.project_cases (haccepts : Accepts db f now next)
    (hends : f.EndsIn db.val.toDb) {project' : Project}
    (hproject' : project' ∈ next.val.projects.rows) :
    ∃ project ∈ db.val.projects.rows, project' = settleProject [f.settlement] project := by
  rw [(Finishing.finished_op hends haccepts.exec).projects] at hproject'
  obtain ⟨project, hproject, rfl⟩ := List.mem_map.mp hproject'
  exact ⟨project, hproject, rfl⟩

theorem Finishing.rows_countUse (f : Finishing) (apiKeys : Table APIKey) :
    (f.countUse apiKeys).rows = apiKeys.rows.map fun record =>
      { record with
        totalRequests := record.totalRequests + f.usesOf record.id
        totalTokens := record.totalTokens + f.tokensOf record.id } := by
  obtain ⟨request, worker, report⟩ := f
  cases report with
  | result payload =>
      simp only [countUse, QueueService.countUse, Table.rows_updateWhere]
      apply List.map_congr_left
      intro record _
      by_cases hid : record.id = request.apiKeyId
      · simp [usesOf, tokensOf, usesKey, hid, APIKey.countUse]
      · simp [usesOf, tokensOf, usesKey, hid]
  | error payload =>
      simp only [countUse, usesOf, tokensOf, usesKey, Bool.false_eq_true, if_false, add_zero]
      exact (List.map_id _).symm

theorem Accepts.rows_apiKeys (haccepts : Accepts db f now next)
    (hends : f.EndsIn db.val.toDb) :
    next.val.apiKeys.rows = db.val.apiKeys.rows.map fun record =>
      { record with
        totalRequests := record.totalRequests + f.usesOf record.id
        totalTokens := record.totalTokens + f.tokensOf record.id } := by
  have hkeys : next.val.apiKeys = f.countUse db.val.apiKeys :=
    (Finishing.finished_ledgers hends haccepts.exec).1
  rw [hkeys, f.rows_countUse]

end OneReport

/-! ## Room -/

section Room

variable {db next : StoredDb} {f : Finishing} {now : Timestamp} {rest : List Finishing}

theorem sum_map_nonneg {α : Type*} {amount : α → ℤ} (h : ∀ a, 0 ≤ amount a) (list : List α) :
    0 ≤ (list.map amount).sum := by
  apply List.sum_nonneg
  intro value hvalue
  obtain ⟨a, -, rfl⟩ := List.mem_map.mp hvalue
  exact h a

theorem FinishingsFit.head (h : FinishingsFit db.val.toDb (f :: rest))
    (hends : f.EndsIn db.val.toDb) (now : Timestamp) :
    (GatewayCall.perform (f.op now)).Fits db.val.toDb := by
  obtain ⟨-, hpayload⟩ := h.payloads f List.mem_cons_self
  obtain ⟨request, worker, report⟩ := f
  cases report with
  | error payload => exact trivial
  | result payload =>
      obtain ⟨hinput, houtput, hlatency⟩ := hpayload payload rfl
      refine ⟨hinput, houtput, ?_⟩
      intro r hr hheld
      have hsame : r = request := by
        apply db.val.requests.eq_of_key_eq hr hends.mem
        exact (OrbiRequest.isHeldBy_iff.mp hheld).1.trans hends.id_eq
      subst hsame
      refine ⟨hlatency, ?_, ?_⟩
      · intro record hrecord hid
        have htotals := h.totals record hrecord
        have huses := sum_map_nonneg (Finishing.usesOf_nonneg record.id) rest
        have htokens := sum_map_nonneg (Finishing.tokensOf_nonneg record.id) rest
        simp only [List.map_cons, List.sum_cons, Finishing.usesOf, Finishing.tokensOf,
          Finishing.usesKey, hid, beq_self_eq_true, if_true, Finishing.actualTokens]
          at htotals huses htokens
        omega
      · intro project hproject period hcounts
        have hroom := h.counters project hproject period
        have hrest := sum_map_nonneg (Finishing.raises_nonneg period project) rest
        have hmoves := Finishing.moves_settlement ⟨r, worker, .result payload⟩ period project
        rw [if_pos hcounts] at hmoves
        simp only [List.map_cons, List.sum_cons, Finishing.raises, hmoves,
          Finishing.actualTokens] at hroom hrest
        omega

/-- After an accepted report there is room for the others. -/
theorem FinishingsFit.tail (h : FinishingsFit db.val.toDb (f :: rest))
    (hsound : LedgersSound db.val.toDb) (hends : f.EndsIn db.val.toDb)
    (haccepts : Accepts db f now next) : FinishingsFit next.val.toDb rest where
  payloads g hg := h.payloads g (List.mem_cons_of_mem f hg)
  totals := by
    intro record' hrecord'
    rw [haccepts.rows_apiKeys hends] at hrecord'
    obtain ⟨record, hrecord, rfl⟩ := List.mem_map.mp hrecord'
    have htotals := h.totals record hrecord
    simp only [List.map_cons, List.sum_cons] at htotals ⊢
    omega
  counters := by
    intro project' hproject' period
    obtain ⟨project, hproject, rfl⟩ := haccepts.project_cases hends hproject'
    have hroom := h.counters project hproject period
    have hused : period.used (settleProject [f.settlement] project) ≤
        period.used project + f.raises period project := by
      change period.used (f.settlement.apply project) ≤ _
      have hnonneg := hsound.counters project hproject period
      rw [Settlement.used_apply, Finishing.raises]
      split <;> omega
    have hsame : rest.map (Finishing.raises period (settleProject [f.settlement] project)) =
        rest.map (Finishing.raises period project) :=
      List.map_congr_left fun g _ =>
        Finishing.raises_congr (id_settleProject _ _) (stamp_settleProject _ _ _)
    rw [hsame]
    simp only [List.map_cons, List.sum_cons] at hroom
    omega

/-- Reports that fit are accepted. -/
theorem FinishingsFit.finishAll (calls : List (Finishing × Timestamp)) :
    ∀ {db : StoredDb}, LedgersSound db.val.toDb →
      EndDistinct (calls.map Prod.fst) db.val.toDb →
      FinishingsFit db.val.toDb (calls.map Prod.fst) →
        ∃ final, OrbiGateway.finishAll db calls = some final := by
  induction calls with
  | nil =>
      intro db _ _ _
      exact ⟨db, rfl⟩
  | cons call calls ih =>
      intro db hsound hends hfits
      obtain ⟨f, now⟩ := call
      have hf : f.EndsIn db.val.toDb := hends.endsIn f List.mem_cons_self
      obtain ⟨mid, hexec⟩ := Finishing.exec_op hsound.known hsound.owned hf now
      have hstores : (GatewayCall.perform (f.op now)).StoresInRange db.val :=
        (GatewayCall.storesInRange_iff_fits db.property hsound).mpr (hfits.head hf now)
      have hin : mid.InColumns :=
        hstores.rows _ _ (GatewayCall.run_perform_eq_ok_iff.mpr ⟨_, mid, hexec, rfl, rfl⟩)
      have haccepts : Accepts db f now ⟨{ db.val with toDb := mid }, hin⟩ :=
        ⟨(hfits.payloads f List.mem_cons_self).1, hstores.parameters, hexec, rfl⟩
      obtain ⟨final, hfinal⟩ := ih (hsound.exec hexec) (hends.tail haccepts)
        (hfits.tail hsound hf haccepts)
      exact ⟨final, (finishAll_cons_eq_some_iff hsound hf).mpr ⟨_, haccepts, hfinal⟩⟩

end Room

/-! ## What accepted lists have stored -/

section Lists

end Lists

/-! ## Any order -/

section Orders

variable {db₀ : Db} {db : StoredDb} {history : List Event} {finishings : List Finishing}

end Orders

namespace Sample

end Sample

section Condition

variable {db₀ : Db} {db : StoredDb} {history : List Event} {finishings : List Finishing}

end Condition

end OrbiGateway
