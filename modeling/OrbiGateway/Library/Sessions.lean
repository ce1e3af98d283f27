/-!
# Sessions

Programs on a transactional session.  A program reads and writes the session's own view
of the state, and what it has written stays in the view when it raises an error; only a
commit makes the view the committed state.  A program that never commits computes a
function on states in which an error has no state at all, and the session around it turns
that into a rollback.
-/

universe u

/-- A session: the committed state, the state that the session sees, and whether it has a
transaction open. -/
structure Session (σ : Type u) where
  committed : σ
  view : σ
  inTransaction : Bool

namespace Session

variable {σ : Type u}

/-- A session before its first statement. -/
def opened (state : σ) : Session σ :=
  ⟨state, state, false⟩

/-- Outside a transaction the session sees the committed state. -/
def Coherent (s : Session σ) : Prop :=
  s.inTransaction = false → s.view = s.committed

theorem coherent_opened (state : σ) : (opened state).Coherent :=
  fun _ => rfl

end Session

/-- A program that returns or raises, and leaves the session as it is then. -/
def SessionM (σ ε α : Type u) := Session σ → Except ε α × Session σ

namespace SessionM

variable {σ ε α β : Type u}

instance : Monad (SessionM σ ε) where
  pure a s := (.ok a, s)
  bind x k s :=
    match x s with
    | (.ok a, s') => k a s'
    | (.error e, s') => (.error e, s')

theorem bind_apply (program : SessionM σ ε α) (k : α → SessionM σ ε β) (s : Session σ) :
    (program >>= k) s =
      match program s with
      | (.ok a, s') => k a s'
      | (.error e, s') => (.error e, s') := rfl

def raise (e : ε) : SessionM σ ε α :=
  fun s => (.error e, s)

/-- A computation outside the database. -/
def ofExcept (outcome : Except ε α) : SessionM σ ε α :=
  fun s => (outcome, s)

/-- A statement that reads; the first one opens the transaction. -/
def query (f : σ → α) : SessionM σ ε α :=
  fun s => (.ok (f s.view), { s with inTransaction := true })

/-- A statement that writes. -/
def write (f : σ → σ) : SessionM σ ε PUnit :=
  fun s => (.ok .unit, { s with view := f s.view, inTransaction := true })

def commit : SessionM σ ε PUnit :=
  fun s => (.ok .unit, ⟨s.view, s.view, false⟩)

/-- The errors of a program as its caller raises them. -/
def mapError (f : ε → ε) (program : SessionM σ ε α) : SessionM σ ε α :=
  fun s => ((program s).1.mapError f, (program s).2)

/-- The end of a session: what is open after a return is committed, what is open after an
error is rolled back. -/
def close (ended : Except ε α × Session σ) : Except ε α × σ :=
  match ended with
  | (.ok a, s) => (.ok a, if s.inTransaction then s.view else s.committed)
  | (.error e, s) => (.error e, s.committed)

/-- A program with a session of its own. -/
def run (program : SessionM σ ε α) (state : σ) : Except ε α × σ :=
  close (program (.opened state))

/-! ## Programs that do not commit -/

/-- The program ends as the function says, and commits nothing. -/
inductive EndsAs (s : Session σ) : Except ε (α × σ) → Except ε α × Session σ → Prop
  | returned {a : α} {s' : Session σ} (hcommitted : s'.committed = s.committed)
      (hcoherent : s'.Coherent) : EndsAs s (.ok (a, s'.view)) (.ok a, s')
  | raised {e : ε} {s' : Session σ} (hcommitted : s'.committed = s.committed) :
      EndsAs s (.error e) (.error e, s')

/-- From a view of the state, the program ends with this outcome. -/
def EndsFrom (program : SessionM σ ε α) (state : σ) (outcome : Except ε (α × σ)) : Prop :=
  ∀ s : Session σ, s.Coherent → s.view = state → EndsAs s outcome (program s)

/-- The program computes a function on states. -/
def Computes (program : SessionM σ ε α) (f : σ → Except ε (α × σ)) : Prop :=
  ∀ state, EndsFrom program state (f state)

theorem endsFrom_pure (a : α) (state : σ) :
    EndsFrom (pure a : SessionM σ ε α) state (.ok (a, state)) := by
  rintro s hs rfl
  exact .returned rfl hs

theorem endsFrom_raise (e : ε) (state : σ) :
    EndsFrom (raise e : SessionM σ ε α) state (.error e) :=
  fun _ _ _ => .raised rfl

theorem endsFrom_write (f : σ → σ) (state : σ) :
    EndsFrom (write f : SessionM σ ε PUnit) state (.ok (.unit, f state)) := by
  rintro s - rfl
  exact @EndsAs.returned _ _ _ s _ { s with view := f s.view, inTransaction := true } rfl
    (fun h => by cases h)

theorem EndsFrom.bind {program : SessionM σ ε α} {state : σ}
    {outcome : Except ε (α × σ)} {k : α → SessionM σ ε β}
    {g : α → σ → Except ε (β × σ)} (hfirst : EndsFrom program state outcome)
    (hrest : ∀ a state', EndsFrom (k a) state' (g a state')) :
    EndsFrom (program >>= k) state (outcome >>= fun result => g result.1 result.2) := by
  intro s hs hview
  have hstep := hfirst s hs hview
  rw [bind_apply]
  generalize program s = mid at hstep
  cases hstep with
  | raised hcommitted => exact .raised hcommitted
  | @returned a s' hcommitted hcoherent =>
      have hnext := hrest a s'.view s' hcoherent rfl
      change EndsAs s (g a s'.view) (k a s')
      generalize g a s'.view = last at hnext
      generalize k a s' = final at hnext
      cases hnext with
      | raised hcommitted' => exact .raised (hcommitted'.trans hcommitted)
      | returned hcommitted' hcoherent' =>
          exact .returned (hcommitted'.trans hcommitted) hcoherent'

theorem EndsFrom.query_bind {f : σ → α} {state : σ} {k : α → SessionM σ ε β}
    {outcome : Except ε (β × σ)} (h : EndsFrom (k (f state)) state outcome) :
    EndsFrom (query f >>= k) state outcome := by
  rintro s - rfl
  have hends := h { s with inTransaction := true } (fun h => by cases h) rfl
  rw [bind_apply]
  change EndsAs s outcome (k (f s.view) { s with inTransaction := true })
  generalize k (f s.view) { s with inTransaction := true } = ended at hends
  cases hends with
  | raised hcommitted => exact .raised hcommitted
  | returned hcommitted hcoherent => exact .returned hcommitted hcoherent

theorem EndsFrom.write_bind {f : σ → σ} {state : σ} {k : PUnit → SessionM σ ε β}
    {outcome : Except ε (β × σ)} (h : EndsFrom (k .unit) (f state) outcome) :
    EndsFrom (write f >>= k) state outcome := by
  rintro s - rfl
  have hends := h { s with view := f s.view, inTransaction := true } (fun h => by cases h) rfl
  rw [bind_apply]
  change EndsAs s outcome (k .unit { s with view := f s.view, inTransaction := true })
  generalize k .unit { s with view := f s.view, inTransaction := true } = ended at hends
  cases hends with
  | raised hcommitted => exact .raised hcommitted
  | returned hcommitted hcoherent => exact .returned hcommitted hcoherent

theorem EndsFrom.ofExcept_bind {computed : Except ε α} {state : σ}
    {k : α → SessionM σ ε β} {g : α → Except ε (β × σ)}
    (h : ∀ a, computed = .ok a → EndsFrom (k a) state (g a)) :
    EndsFrom (ofExcept computed >>= k) state (computed >>= g) := by
  intro s hs hview
  cases computed with
  | error e => exact .raised rfl
  | ok a => exact h a rfl s hs hview

theorem EndsFrom.mapError {program : SessionM σ ε α} {state : σ}
    {outcome : Except ε (α × σ)} (h : EndsFrom program state outcome) (f : ε → ε) :
    EndsFrom (program.mapError f) state (outcome.mapError f) := by
  intro s hs hview
  have hends := h s hs hview
  change EndsAs s (outcome.mapError f) ((program s).1.mapError f, (program s).2)
  generalize program s = ended at hends
  cases hends with
  | returned hcommitted hcoherent => exact .returned hcommitted hcoherent
  | raised hcommitted => exact .raised hcommitted

/-! ## Sessions around programs -/

theorem close_pure (a : α) {s : Session σ} (hs : s.Coherent) :
    close ((pure a : SessionM σ ε α) s) = (.ok a, s.view) := by
  change (Except.ok a, if s.inTransaction then s.view else s.committed) = (.ok a, s.view)
  split
  · rfl
  next hclosed => rw [hs (by simpa using hclosed)]

/-- After a commit the session leaves the state alone, whether the program goes on to
return or to raise. -/
theorem close_commit (outcome : Except ε α) (s : Session σ) :
    close ((do
      commit
      ofExcept outcome) s) = (outcome, s.view) := by
  cases outcome with
  | ok a => rfl
  | error e => rfl

/-- A program that commits nothing, and what follows it on the same session: an error of
the first part rolls everything back. -/
theorem Computes.run_bind {program : SessionM σ ε α} {f : σ → Except ε (α × σ)}
    {k : α → SessionM σ ε β} {g : α → σ → Except ε β × σ} (h : Computes program f)
    (hrest : ∀ a (s : Session σ), s.Coherent → close (k a s) = g a s.view) (state : σ) :
    run (program >>= k) state =
      match f state with
      | .ok (a, state') => g a state'
      | .error e => (.error e, state) := by
  have hends := h state (.opened state) (Session.coherent_opened state) rfl
  rw [run, bind_apply]
  generalize f state = outcome at hends
  generalize program (.opened state) = ended at hends
  cases hends with
  | raised hcommitted =>
      simp only [close, hcommitted]
      rfl
  | @returned a s' hcommitted hcoherent => exact hrest a s' hcoherent

end SessionM
