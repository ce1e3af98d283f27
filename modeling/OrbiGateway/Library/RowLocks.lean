import Mathlib.Data.List.Nodup
import Mathlib.Logic.Function.Basic
import OrbiGateway.Library.Runs

/-!
# Read-modify-write under row locks

A transaction locks a row, reading its committed version, changes its own version
by calls, and publishes it on commit or discards it on rollback; the lock is given
up only then.  A call can fail, which leaves its transaction able to do nothing
but roll back.  The committed version of every row is then the result of running
the committed transactions one after another, in the order in which they locked
the row.
-/

namespace RowLocks

open Transition

/-! ## Exclusive locks -/

section Exclusion

variable {τ κ : Type*}

/-- No two transactions hold the same lock. -/
def Exclusive (lock : τ → Option κ) : Prop :=
  ∀ t u k, lock t = some k → lock u = some k → t = u

/-- A step in which only the caller takes a lock, and only a free one, keeps the locks
exclusive. -/
theorem Exclusive.step {lock lock' : τ → Option κ} {caller : Option τ}
    (h : Exclusive lock)
    (hcases : ∀ {t k}, lock' t = some k → lock t = some k ∨
      (caller = some t ∧ ∀ u, lock u ≠ some k)) : Exclusive lock' := by
  intro t u k ht hu
  rcases hcases ht with hold | ⟨hcaller, hfree⟩
  · rcases hcases hu with hold' | ⟨-, hfree⟩
    · exact h t u k hold hold'
    · exact absurd hold (hfree t)
  · rcases hcases hu with hold' | ⟨hcaller', -⟩
    · exact absurd hold' (hfree u)
    · rw [hcaller, Option.some.injEq] at hcaller'
      exact hcaller'

end Exclusion

/-! ## Stores -/

/-- The committed version of each row, and for a locked row the transaction that
holds it with its own version. -/
structure Store (τ κ ν : Type*) where
  committed : κ → ν
  locked : κ → Option (τ × ν)
  /-- A call of the transaction has failed. -/
  doomed : τ → Bool
  /-- The transaction has committed or rolled back. -/
  closed : τ → Bool

inductive Event (τ κ χ : Type*)
  | lock (t : τ) (k : κ)
  | call (t : τ) (k : κ) (c : χ)
  | commit (t : τ)
  | rollback (t : τ)

section Publishing

variable {τ κ ν χ : Type*}

/-- No row is locked and no transaction has begun. -/
def Store.idle (committed : κ → ν) : Store τ κ ν where
  committed := committed
  locked _ := none
  doomed _ := false
  closed _ := false

/-! ## Serial runs -/

/-- Run calls on a version, last first; the run ends with the first failure. -/
def runCalls (run : χ → ν → ν × Bool) : List χ → ν → Option ν
  | [], version => some version
  | c :: cs, version => (runCalls run cs version).bind fun version =>
      if (run c version).2 then some (run c version).1 else none

/-- Run transactions one after another, last first. -/
def runSerially (run : χ → ν → ν × Bool) (callsOf : τ → List χ) :
    List τ → ν → Option ν
  | [], version => some version
  | t :: ts, version =>
      (runSerially run callsOf ts version).bind (runCalls run (callsOf t))

theorem runSerially_congr {run : χ → ν → ν × Bool} {callsOf callsOf' : τ → List χ}
    {ts : List τ} (h : ∀ t ∈ ts, callsOf t = callsOf' t) (version : ν) :
    runSerially run callsOf ts version = runSerially run callsOf' ts version := by
  induction ts with
  | nil => rfl
  | cons t ts ih =>
      have hhead := h t List.mem_cons_self
      have htail := ih fun t' ht' => h t' (List.mem_cons_of_mem t ht')
      simp only [runSerially, hhead, htail]

section Ends

variable [DecidableEq τ] {s : Store τ κ ν} {t : τ} {k : κ}

def Event.commits (t : τ) : Event τ κ χ → Bool
  | .commit t' => t' = t
  | _ => false

def isCommitted (history : List (Event τ κ χ)) (t : τ) : Bool :=
  history.any (Event.commits t)

theorem isCommitted_cons (e : Event τ κ χ) (history : List (Event τ κ χ)) (t : τ) :
    isCommitted (e :: history) t = (e.commits t || isCommitted history t) :=
  List.any_cons

/-- The committed versions once the versions of `t` are published. -/
def Store.publish (s : Store τ κ ν) (t : τ) (k : κ) : ν :=
  match s.locked k with
  | some (holder, version) => if holder = t then version else s.committed k
  | none => s.committed k

/-- The locks once those of `t` are given up. -/
def Store.unlock (s : Store τ κ ν) (t : τ) (k : κ) : Option (τ × ν) :=
  match s.locked k with
  | some (holder, version) => if holder = t then none else some (holder, version)
  | none => none

theorem publish_of_locked {version : ν} (h : s.locked k = some (t, version)) :
    s.publish t k = version := by
  simp [Store.publish, h]

theorem publish_of_not_locked (h : ∀ version, s.locked k ≠ some (t, version)) :
    s.publish t k = s.committed k := by
  unfold Store.publish
  split
  next holder version hlocked =>
    have hne : holder ≠ t := by
      rintro rfl
      exact h version hlocked
    rw [if_neg hne]
  next => rfl

theorem unlock_eq_some_iff {holder : τ} {version : ν} :
    s.unlock t k = some (holder, version) ↔
      s.locked k = some (holder, version) ∧ holder ≠ t := by
  unfold Store.unlock
  split
  next holder' version' hlocked =>
    by_cases hmine : holder' = t
    · subst hmine
      simp only [if_true, hlocked, Option.some.injEq, Prod.mk.injEq]
      constructor
      · intro hno
        cases hno
      · rintro ⟨⟨rfl, -⟩, hne⟩
        exact absurd rfl hne
    · rw [if_neg hmine, hlocked]
      constructor
      · intro heq
        cases heq
        exact ⟨rfl, hmine⟩
      · rintro ⟨heq, -⟩
        exact heq
  next hfree =>
    rw [hfree]
    constructor
    · intro hno
      cases hno
    · rintro ⟨hno, -⟩
      cases hno

end Ends

end Publishing

/-! ## Steps -/

section Steps

variable {τ κ ν χ : Type*} [DecidableEq τ] [DecidableEq κ]

/-- One step of a transaction, when the locks allow it.  `run` is the effect of a
call on a version, with whether the call succeeded. -/
def step (run : χ → ν → ν × Bool) (s : Store τ κ ν) :
    Event τ κ χ → Option (Store τ κ ν)
  | .lock t k =>
      if s.closed t then none
      else
        match s.locked k with
        | some _ => none
        | none => some { s with
            locked := Function.update s.locked k (some (t, s.committed k)) }
  | .call t k c =>
      match s.locked k with
      | none => none
      | some (holder, version) =>
          if holder = t ∧ s.doomed t = false then
            some { s with
              locked := Function.update s.locked k (some (t, (run c version).1))
              doomed := Function.update s.doomed t !(run c version).2 }
          else none
  | .commit t =>
      if s.closed t || s.doomed t then none
      else some { s with
        committed := s.publish t
        locked := s.unlock t
        closed := Function.update s.closed t true }
  | .rollback t =>
      if s.closed t then none
      else some { s with
        locked := s.unlock t
        closed := Function.update s.closed t true }

/-- A run of transactions from a store. -/
abbrev Schedule (run : χ → ν → ν × Bool) (start : Store τ κ ν)
    (history : List (Event τ κ χ)) (s : Store τ κ ν) : Prop :=
  Run (Follows (step run)) start history s

/-! ## What a step can do -/

section Inversion

variable {run : χ → ν → ν × Bool} {s s' : Store τ κ ν} {t : τ} {k : κ} {c : χ}

theorem lock_spec (h : step run s (.lock t k) = some s') :
    s.closed t = false ∧ s.locked k = none ∧
      s' = { s with locked := Function.update s.locked k (some (t, s.committed k)) } := by
  simp only [step] at h
  split at h
  · cases h
  next hopen =>
    split at h
    · cases h
    next hfree =>
      cases h
      exact ⟨by simpa using hopen, hfree, rfl⟩

theorem call_spec (h : step run s (.call t k c) = some s') :
    ∃ version, s.locked k = some (t, version) ∧ s.doomed t = false ∧
      s' = { s with
        locked := Function.update s.locked k (some (t, (run c version).1))
        doomed := Function.update s.doomed t !(run c version).2 } := by
  simp only [step] at h
  split at h
  · cases h
  next holder version hlocked =>
    split at h
    next hmine =>
      obtain ⟨rfl, halive⟩ := hmine
      cases h
      exact ⟨version, hlocked, halive, rfl⟩
    next => cases h

theorem commit_spec (h : step run s (.commit t) = some s') :
    s.closed t = false ∧ s.doomed t = false ∧
      s' = { s with
        committed := s.publish t
        locked := s.unlock t
        closed := Function.update s.closed t true } := by
  simp only [step] at h
  split at h
  · cases h
  next hopen =>
    cases h
    simp only [Bool.or_eq_true, not_or, Bool.not_eq_true] at hopen
    exact ⟨hopen.1, hopen.2, rfl⟩

theorem rollback_spec (h : step run s (.rollback t) = some s') :
    s.closed t = false ∧
      s' = { s with
        locked := s.unlock t
        closed := Function.update s.closed t true } := by
  simp only [step] at h
  split at h
  · cases h
  next hopen =>
    cases h
    exact ⟨by simpa using hopen, rfl⟩

end Inversion

/-! ## Reading a history -/

def Event.lockerOf (k : κ) : Event τ κ χ → Option τ
  | .lock t k' => if k' = k then some t else none
  | _ => none

def Event.callOf (t : τ) (k : κ) : Event τ κ χ → Option χ
  | .call t' k' c => if t' = t ∧ k' = k then some c else none
  | _ => none

/-- The transactions that locked a row, last first. -/
def lockers (k : κ) (history : List (Event τ κ χ)) : List τ :=
  history.filterMap (Event.lockerOf k)

/-- The calls of a transaction on a row, last first. -/
def calls (t : τ) (k : κ) (history : List (Event τ κ χ)) : List χ :=
  history.filterMap (Event.callOf t k)

/-- The version of a row after a serial run of the committed transactions alone, in
the order in which they locked it. -/
def serial (run : χ → ν → ν × Bool) (history : List (Event τ κ χ)) (k : κ)
    (start : ν) : Option ν :=
  runSerially run (fun t => calls t k history)
    ((lockers k history).filter (isCommitted history)) start

/-! ## The invariant -/

/-- What the history says about the store.  The version of an open transaction
that has not failed is the serial result followed by its own calls. -/
structure Consistent (run : χ → ν → ν × Bool) (start : κ → ν)
    (history : List (Event τ κ χ)) (s : Store τ κ ν) : Prop where
  committed_eq : ∀ k, serial run history k (start k) = some (s.committed k)
  version_eq : ∀ k t version, s.locked k = some (t, version) → s.doomed t = false →
    runCalls run (calls t k history) (s.committed k) = some version
  head_eq : ∀ k t version, s.locked k = some (t, version) →
    (lockers k history).head? = some t
  open_of_locked : ∀ k t version, s.locked k = some (t, version) → s.closed t = false
  locked_of_open : ∀ k, ∀ t ∈ lockers k history, s.closed t = false →
    ∃ version, s.locked k = some (t, version)
  closed_of_committed : ∀ t, isCommitted history t = true → s.closed t = true
  locker_of_call : ∀ t k, calls t k history ≠ [] → t ∈ lockers k history
  lockers_nodup : ∀ k, (lockers k history).Nodup

namespace Consistent

variable {run : χ → ν → ν × Bool} {start : κ → ν} {history : List (Event τ κ χ)}
  {s s' : Store τ κ ν} {t : τ} {k : κ} {c : χ}

theorem not_committed_of_open (h : Consistent run start history s)
    (hopen : s.closed t = false) : isCommitted history t = false := by
  by_contra hyes
  have hclosed := h.closed_of_committed t (by simpa using hyes)
  rw [hopen] at hclosed
  cases hclosed

theorem lock (h : Consistent run start history s)
    (hstep : step run s (.lock t k) = some s') :
    Consistent run start (.lock t k :: history) s' := by
  obtain ⟨hopen, hfree, rfl⟩ := lock_spec hstep
  have hcalls : ∀ t' k', calls t' k' (Event.lock t k :: history) =
      calls (χ := χ) t' k' history := fun _ _ => rfl
  have hcommitted : isCommitted (Event.lock t k :: history) = isCommitted history := rfl
  have hlockers : ∀ k', lockers k' (Event.lock t k :: history) =
      if k = k' then t :: lockers k' history else lockers (χ := χ) k' history := by
    intro k'
    by_cases hk : k = k' <;> simp [lockers, Event.lockerOf, hk]
  have hnew : t ∉ lockers k history := by
    intro hmem
    obtain ⟨version, hlocked⟩ := h.locked_of_open k t hmem hopen
    rw [hfree] at hlocked
    cases hlocked
  have hnone := h.not_committed_of_open hopen
  refine ⟨?_, ?_, ?_, ?_, ?_, ?_, ?_, ?_⟩
  · intro k'
    have hsame : serial run (Event.lock t k :: history) k' (start k') =
        serial run history k' (start k') := by
      simp only [serial, hcalls, hcommitted, hlockers]
      by_cases hk : k = k'
      · simp [hk, hnone]
      · simp [hk]
    rw [hsame]
    exact h.committed_eq k'
  · intro k' t' version hlocked halive
    rw [hcalls]
    by_cases hk : k' = k
    · subst hk
      simp only [Function.update_self, Option.some.injEq, Prod.mk.injEq] at hlocked
      obtain ⟨rfl, rfl⟩ := hlocked
      have hempty : calls t k' history = [] := by
        by_contra hsome
        exact hnew (h.locker_of_call t k' hsome)
      rw [hempty]
      rfl
    · simp only [Function.update_of_ne hk] at hlocked
      exact h.version_eq k' t' version hlocked halive
  · intro k' t' version hlocked
    rw [hlockers]
    by_cases hk : k' = k
    · subst hk
      simp only [Function.update_self, Option.some.injEq, Prod.mk.injEq] at hlocked
      simp [hlocked.1]
    · simp only [Function.update_of_ne hk] at hlocked
      rw [if_neg (Ne.symm hk)]
      exact h.head_eq k' t' version hlocked
  · intro k' t' version hlocked
    by_cases hk : k' = k
    · subst hk
      simp only [Function.update_self, Option.some.injEq, Prod.mk.injEq] at hlocked
      rw [← hlocked.1]
      exact hopen
    · simp only [Function.update_of_ne hk] at hlocked
      exact h.open_of_locked k' t' version hlocked
  · intro k' t' hmem hopen'
    rw [hlockers] at hmem
    by_cases hk : k' = k
    · subst hk
      rw [if_pos rfl] at hmem
      rcases List.mem_cons.mp hmem with rfl | hmem
      · exact ⟨_, Function.update_self _ _ _⟩
      · obtain ⟨version, hlocked⟩ := h.locked_of_open k' t' hmem hopen'
        rw [hfree] at hlocked
        cases hlocked
    · rw [if_neg (Ne.symm hk)] at hmem
      obtain ⟨version, hlocked⟩ := h.locked_of_open k' t' hmem hopen'
      exact ⟨version, by simpa only [Function.update_of_ne hk] using hlocked⟩
  · intro t' hyes
    exact h.closed_of_committed t' hyes
  · intro t' k' hsome
    have hmem := h.locker_of_call t' k' hsome
    rw [hlockers]
    split
    · exact List.mem_cons_of_mem t hmem
    · exact hmem
  · intro k'
    rw [hlockers]
    split
    next hk =>
      subst hk
      exact List.nodup_cons.mpr ⟨hnew, h.lockers_nodup k⟩
    next => exact h.lockers_nodup k'

theorem call (h : Consistent run start history s)
    (hstep : step run s (.call t k c) = some s') :
    Consistent run start (.call t k c :: history) s' := by
  obtain ⟨version, hlocked, halive, rfl⟩ := call_spec hstep
  have hopen := h.open_of_locked k t version hlocked
  have hnone := h.not_committed_of_open hopen
  have hlockers : ∀ k', lockers k' (Event.call t k c :: history) = lockers k' history :=
    fun _ => rfl
  have hcommitted : isCommitted (Event.call t k c :: history) = isCommitted history := rfl
  have hcalls : ∀ t' k', calls t' k' (Event.call t k c :: history) =
      if t = t' ∧ k = k' then c :: calls t' k' history else calls t' k' history := by
    intro t' k'
    by_cases hmine : t = t' ∧ k = k' <;> simp [calls, Event.callOf, hmine]
  have hholder : ∀ k' t' version', Function.update s.locked k
      (some (t, (run c version).1)) k' = some (t', version') →
      ∃ version'', s.locked k' = some (t', version'') := by
    intro k' t' version' hlocked'
    by_cases hk : k' = k
    · subst hk
      simp only [Function.update_self, Option.some.injEq, Prod.mk.injEq] at hlocked'
      obtain ⟨rfl, -⟩ := hlocked'
      exact ⟨version, hlocked⟩
    · simp only [Function.update_of_ne hk] at hlocked'
      exact ⟨version', hlocked'⟩
  refine ⟨?_, ?_, ?_, ?_, ?_, ?_, ?_, ?_⟩
  · intro k'
    have hsame : serial run (Event.call t k c :: history) k' (start k') =
        serial run history k' (start k') := by
      simp only [serial, hlockers, hcommitted]
      apply runSerially_congr
      intro t' ht'
      rw [hcalls, if_neg]
      rintro ⟨rfl, -⟩
      rw [(List.mem_filter.mp ht').2] at hnone
      cases hnone
    rw [hsame]
    exact h.committed_eq k'
  · intro k' t' version' hlocked' halive'
    by_cases hk : k' = k
    · subst hk
      simp only [Function.update_self, Option.some.injEq, Prod.mk.injEq] at hlocked'
      obtain ⟨rfl, rfl⟩ := hlocked'
      have hsuccess : (run c version).2 = true := by
        simpa using halive'
      rw [hcalls, if_pos ⟨rfl, rfl⟩, runCalls,
        h.version_eq k' t version hlocked halive]
      simp [hsuccess]
    · simp only [Function.update_of_ne hk] at hlocked'
      have hold : s.doomed t' = false := by
        by_cases ht : t' = t
        · rw [ht]
          exact halive
        · simpa [Function.update_of_ne ht] using halive'
      rw [hcalls, if_neg (fun hmine => hk hmine.2.symm)]
      exact h.version_eq k' t' version' hlocked' hold
  · intro k' t' version' hlocked'
    obtain ⟨version'', hold⟩ := hholder k' t' version' hlocked'
    exact h.head_eq k' t' version'' hold
  · intro k' t' version' hlocked'
    obtain ⟨version'', hold⟩ := hholder k' t' version' hlocked'
    exact h.open_of_locked k' t' version'' hold
  · intro k' t' hmem hopen'
    obtain ⟨version', hold⟩ := h.locked_of_open k' t' hmem hopen'
    by_cases hk : k' = k
    · subst hk
      rw [hlocked] at hold
      cases hold
      exact ⟨_, Function.update_self _ _ _⟩
    · exact ⟨version', by simpa only [Function.update_of_ne hk] using hold⟩
  · intro t' hyes
    exact h.closed_of_committed t' hyes
  · intro t' k' hsome
    by_cases hmine : t = t' ∧ k = k'
    · obtain ⟨rfl, rfl⟩ := hmine
      exact List.mem_of_mem_head? (h.head_eq k t version hlocked)
    · rw [hcalls, if_neg hmine] at hsome
      exact h.locker_of_call t' k' hsome
  · exact h.lockers_nodup

/-- The locks that remain when a transaction ends are those of the others. -/
theorem ended (h : Consistent run start history s) {e : Event τ κ χ}
    {s' : Store τ κ ν} (hopen : s.closed t = false)
    (hlocker : ∀ k, e.lockerOf k = none) (hcall : ∀ t' k, e.callOf t' k = none)
    (hcommits : ∀ t', e.commits t' = true → t' = t)
    (hlocked : s'.locked = s.unlock t) (hdoomed : s'.doomed = s.doomed)
    (hclosed : s'.closed = Function.update s.closed t true)
    (hcommitted : ∀ k, serial run (e :: history) k (start k) = some (s'.committed k))
    (hkept : ∀ k, (∀ version, s.locked k ≠ some (t, version)) →
      s'.committed k = s.committed k) :
    Consistent run start (e :: history) s' := by
  have hlockers : ∀ k, lockers k (e :: history) = lockers k history := by
    intro k
    simp [lockers, hlocker k]
  have hcalls : ∀ t' k, calls t' k (e :: history) = calls t' k history := by
    intro t' k
    simp [calls, hcall t' k]
  refine ⟨hcommitted, ?_, ?_, ?_, ?_, ?_, ?_, ?_⟩
  · intro k t' version hlocked' halive
    rw [hlocked, unlock_eq_some_iff] at hlocked'
    obtain ⟨hold, hother⟩ := hlocked'
    rw [hdoomed] at halive
    have hfree : ∀ version', s.locked k ≠ some (t, version') := by
      intro version' hmine
      rw [hold] at hmine
      cases hmine
      exact hother rfl
    rw [hcalls, hkept k hfree]
    exact h.version_eq k t' version hold halive
  · intro k t' version hlocked'
    rw [hlocked, unlock_eq_some_iff] at hlocked'
    rw [hlockers]
    exact h.head_eq k t' version hlocked'.1
  · intro k t' version hlocked'
    rw [hlocked, unlock_eq_some_iff] at hlocked'
    rw [hclosed, Function.update_of_ne hlocked'.2]
    exact h.open_of_locked k t' version hlocked'.1
  · intro k t' hmem hopen'
    have hother : t' ≠ t := by
      rintro rfl
      rw [hclosed, Function.update_self] at hopen'
      cases hopen'
    rw [hlockers] at hmem
    rw [hclosed, Function.update_of_ne hother] at hopen'
    obtain ⟨version, hold⟩ := h.locked_of_open k t' hmem hopen'
    exact ⟨version, by rw [hlocked, unlock_eq_some_iff]; exact ⟨hold, hother⟩⟩
  · intro t' hyes
    rw [hclosed]
    by_cases ht : t' = t
    · rw [ht, Function.update_self]
    · rw [Function.update_of_ne ht]
      rw [isCommitted_cons, Bool.or_eq_true] at hyes
      rcases hyes with hnow | hbefore
      · exact absurd (hcommits t' hnow) ht
      · exact h.closed_of_committed t' hbefore
  · intro t' k hsome
    rw [hcalls] at hsome
    rw [hlockers]
    exact h.locker_of_call t' k hsome
  · intro k
    rw [hlockers]
    exact h.lockers_nodup k

/-- Committing appends the transaction to the serial run of each row it holds. -/
theorem commit (h : Consistent run start history s)
    (hstep : step run s (.commit t) = some s') :
    Consistent run start (.commit t :: history) s' := by
  obtain ⟨hopen, halive, rfl⟩ := commit_spec hstep
  have hnone := h.not_committed_of_open hopen
  have hcommitted : ∀ t', isCommitted (Event.commit t :: history) t' =
      (decide (t = t') || isCommitted (χ := χ) (κ := κ) history t') := fun _ => rfl
  -- away from `t` the committed transactions are the same
  have hothers : ∀ ts : List τ, t ∉ ts →
      ts.filter (isCommitted (Event.commit t :: history)) =
        ts.filter (isCommitted history) := by
    intro ts hfresh
    apply List.filter_congr
    intro t' ht'
    have hne : t ≠ t' := by
      rintro rfl
      exact hfresh ht'
    simp [hcommitted, hne]
  refine h.ended hopen (fun _ => rfl) (fun _ _ => rfl) ?_ rfl rfl rfl ?_ ?_
  · intro t' hyes
    simpa [Event.commits, eq_comm] using hyes
  · intro k
    have hserial := h.committed_eq k
    by_cases hmine : ∃ version, s.locked k = some (t, version)
    · obtain ⟨version, hlocked⟩ := hmine
      have hhead := h.head_eq k t version hlocked
      have hnodup := h.lockers_nodup k
      simp only [publish_of_locked hlocked]
      cases hls : lockers k history with
      | nil =>
          rw [hls] at hhead
          cases hhead
      | cons first rest =>
          rw [hls, List.head?_cons, Option.some.injEq] at hhead
          subst hhead
          rw [hls] at hnodup
          have hfresh := (List.nodup_cons.mp hnodup).1
          have hold : runSerially run (fun t' => calls t' k history)
              (rest.filter (isCommitted history)) (start k) = some (s.committed k) := by
            simpa [serial, hls, hnone] using hserial
          have hnew : (lockers k (Event.commit first :: history)).filter
              (isCommitted (Event.commit first :: history)) =
              first :: rest.filter (isCommitted history) := by
            have hsame : lockers k (Event.commit first :: history) =
                first :: rest := hls
            have hyes : isCommitted (Event.commit first :: history) first = true := by
              simp [hcommitted]
            rw [hsame, List.filter_cons_of_pos hyes, hothers rest hfresh]
          have hcalls : ∀ t', calls t' k (Event.commit first :: history) =
              calls (χ := χ) t' k history := fun _ => rfl
          simp only [serial, hnew, runSerially, hcalls, hold, Option.bind_some]
          exact h.version_eq k first version hlocked halive
    · have hfree : ∀ version, s.locked k ≠ some (t, version) := by
        intro version hlocked
        exact hmine ⟨version, hlocked⟩
      have hfresh : t ∉ lockers k history := by
        intro hmem
        exact hmine (h.locked_of_open k t hmem hopen)
      simp only [publish_of_not_locked hfree]
      have hsame : serial run (Event.commit t :: history) k (start k) =
          serial run history k (start k) := by
        have hlockers : lockers k (Event.commit t :: history) =
            lockers (χ := χ) k history := rfl
        simp only [serial, hlockers, hothers _ hfresh]
        rfl
      rw [hsame]
      exact hserial
  · intro k hfree
    exact publish_of_not_locked hfree

/-- Rolling back leaves no trace in what is committed. -/
theorem rollback (h : Consistent run start history s)
    (hstep : step run s (.rollback t) = some s') :
    Consistent run start (.rollback t :: history) s' := by
  obtain ⟨hopen, rfl⟩ := rollback_spec hstep
  refine h.ended hopen (fun _ => rfl) (fun _ _ => rfl) ?_ rfl rfl rfl ?_ ?_
  · intro t' hyes
    cases hyes
  · exact h.committed_eq
  · intro k _
    rfl

end Consistent

/-- Every run of transactions is consistent with its history. -/
theorem consistent_of_schedule {run : χ → ν → ν × Bool} {start : κ → ν}
    {history : List (Event τ κ χ)} {s : Store τ κ ν}
    (hrun : Schedule run (.idle start) history s) : Consistent run start history s := by
  apply Run.history_invariant (I := Consistent run start) hrun
  · refine ⟨fun _ => rfl, ?_, ?_, ?_, ?_, ?_, ?_, fun _ => List.nodup_nil⟩
    · intro k t version hlocked
      cases hlocked
    · intro k t version hlocked
      cases hlocked
    · intro k t version hlocked
      cases hlocked
    · intro k t hmem
      cases hmem
    · intro t hyes
      cases hyes
    · intro t k hsome
      exact absurd rfl hsome
  · intro history s e s' _ ih hstep
    cases e with
    | lock t k => exact ih.lock hstep
    | call t k c => exact ih.call hstep
    | commit t => exact ih.commit hstep
    | rollback t => exact ih.rollback hstep

end Steps

end RowLocks
