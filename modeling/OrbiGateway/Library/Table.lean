import Mathlib.Algebra.BigOperators.Group.List.Basic
import Mathlib.Algebra.Ring.Int.Defs
import Mathlib.Data.List.Nodup

/-!
# Tables with a primary key

A table is the list of its rows in the order in which a scan visits them, with
a proof that no two rows share a key.  Rows are changed in place by
`mapRows`, which keeps every key, so a table with a duplicated key cannot be
built by an update.
-/

namespace Relational

/-- The primary key of a row type. -/
class HasKey (ρ : Type*) (κ : outParam (Type*)) where
  key : ρ → κ

/-- Rows in scan order, no two with the same key. -/
structure Table (ρ : Type*) {κ : Type*} [HasKey ρ κ] where
  rows : List ρ
  keysNodup : (rows.map HasKey.key).Nodup

namespace Table

variable {ρ κ : Type*} [HasKey ρ κ]

open HasKey

theorem ext {t t' : Table ρ} (h : t.rows = t'.rows) : t = t' := by
  cases t
  cases t'
  cases h
  rfl

theorem eq_of_key_eq (t : Table ρ) {r r' : ρ} (hr : r ∈ t.rows)
    (hr' : r' ∈ t.rows) (hkey : key r = key r') : r = r' :=
  List.inj_on_of_nodup_map t.keysNodup hr hr' hkey

theorem rows_nodup (t : Table ρ) : t.rows.Nodup :=
  List.Nodup.of_map _ t.keysNodup

def empty : Table ρ where
  rows := []
  keysNodup := List.nodup_nil

/-! ## Lookup -/

section Lookup

variable [DecidableEq κ]

/-- The row with key `k`. -/
def find (t : Table ρ) (k : κ) : Option ρ :=
  t.rows.find? fun r => key r = k

theorem find_eq_some_iff {t : Table ρ} {k : κ} {r : ρ} :
    t.find k = some r ↔ r ∈ t.rows ∧ key r = k := by
  constructor
  · intro h
    exact ⟨List.mem_of_find?_eq_some h, by simpa using List.find?_some h⟩
  · rintro ⟨hr, hkey⟩
    cases h : t.find k with
    | none =>
        have hno := List.find?_eq_none.mp h r hr
        simp [hkey] at hno
    | some r' =>
        have hr' : r' ∈ t.rows := List.mem_of_find?_eq_some h
        have hkey' : key r' = k := by simpa using List.find?_some h
        rw [t.eq_of_key_eq hr hr' (hkey.trans hkey'.symm)]

theorem mem_of_find {t : Table ρ} {k : κ} {r : ρ} (h : t.find k = some r) :
    r ∈ t.rows :=
  (find_eq_some_iff.mp h).1

theorem key_of_find {t : Table ρ} {k : κ} {r : ρ} (h : t.find k = some r) :
    key r = k :=
  (find_eq_some_iff.mp h).2

end Lookup

/-! ## Updates in place -/

/-- A change of a row that leaves its key alone. -/
structure RowUpdate (ρ : Type*) {κ : Type*} [HasKey ρ κ] where
  set : ρ → ρ
  key_set : ∀ r, key (set r) = key r

namespace RowUpdate

/-- The update on the rows that satisfy `p`, nothing on the others. -/
def onRows (u : RowUpdate ρ) (p : ρ → Bool) : RowUpdate ρ where
  set r := if p r then u.set r else r
  key_set r := by
    split
    · exact u.key_set r
    · rfl

/-- One update after the other. -/
def andThen (u v : RowUpdate ρ) : RowUpdate ρ where
  set r := v.set (u.set r)
  key_set r := (v.key_set (u.set r)).trans (u.key_set r)

/-- Store `new` over the row with its key. -/
def overwrite [DecidableEq κ] (new : ρ) : RowUpdate ρ where
  set r := if key r = key new then new else r
  key_set r := by
    split
    next h => exact h.symm
    · rfl

end RowUpdate

theorem keys_map_set (rows : List ρ) (u : RowUpdate ρ) :
    (rows.map u.set).map key = rows.map key := by
  simp [List.map_map, Function.comp_def, u.key_set]

/-- Apply an update to every row. -/
def mapRows (t : Table ρ) (u : RowUpdate ρ) : Table ρ where
  rows := t.rows.map u.set
  keysNodup := by
    rw [keys_map_set]
    exact t.keysNodup

@[simp] theorem rows_mapRows (t : Table ρ) (u : RowUpdate ρ) :
    (t.mapRows u).rows = t.rows.map u.set := rfl

theorem find_mapRows [DecidableEq κ] (t : Table ρ) (u : RowUpdate ρ) (k : κ) :
    (t.mapRows u).find k = (t.find k).map u.set := by
  simp only [find, rows_mapRows, List.find?_map]
  congr 2
  funext r
  simp [u.key_set]

theorem mapRows_mapRows (t : Table ρ) (u v : RowUpdate ρ) :
    (t.mapRows u).mapRows v = t.mapRows (u.andThen v) := by
  apply ext
  simp [List.map_map, Function.comp_def, RowUpdate.andThen]

/-- The rows of an `UPDATE .. SET .. WHERE`. -/
def updateWhere (t : Table ρ) (p : ρ → Bool) (u : RowUpdate ρ) : Table ρ :=
  t.mapRows (u.onRows p)

@[simp] theorem rows_updateWhere (t : Table ρ) (p : ρ → Bool) (u : RowUpdate ρ) :
    (t.updateWhere p u).rows = t.rows.map fun r => if p r then u.set r else r := rfl

theorem filter_eq_singleton {t : Table ρ} {p : ρ → Bool} {r : ρ}
    (hr : r ∈ t.rows) (hp : p r = true)
    (hkey : ∀ r' ∈ t.rows, p r' = true → key r' = key r) :
    t.rows.filter p = [r] := by
  have hall : ∀ r' ∈ t.rows.filter p, r' = r := by
    intro r' hr'
    obtain ⟨hmem, hp'⟩ := List.mem_filter.mp hr'
    exact t.eq_of_key_eq hmem hr (hkey r' hmem hp')
  have hrep := List.eq_replicate_of_mem hall
  have hnodup : (t.rows.filter p).Nodup := t.rows_nodup.filter p
  have hmem : r ∈ t.rows.filter p := List.mem_filter.mpr ⟨hr, hp⟩
  have hlen : (t.rows.filter p).length = 1 := by
    rw [hrep] at hnodup
    have hle := List.nodup_replicate.mp hnodup
    have hpos := List.length_pos_of_mem hmem
    omega
  rw [hrep, hlen]
  rfl

/-- The new versions of the updated rows, in scan order. -/
def returning (t : Table ρ) (p : ρ → Bool) (u : RowUpdate ρ) : List ρ :=
  (t.rows.filter p).map u.set

theorem mem_returning {t : Table ρ} {p : ρ → Bool} {u : RowUpdate ρ} {r' : ρ} :
    r' ∈ t.returning p u ↔ ∃ r ∈ t.rows, p r = true ∧ u.set r = r' := by
  simp [returning, and_assoc]

/-- Store a new version of the row with the same key. -/
def put [DecidableEq κ] (t : Table ρ) (new : ρ) : Table ρ :=
  t.mapRows (.overwrite new)

@[simp] theorem rows_put [DecidableEq κ] (t : Table ρ) (new : ρ) :
    (t.put new).rows =
      t.rows.map fun r => if key r = key new then new else r := rfl

theorem find_put [DecidableEq κ] (t : Table ρ) (new : ρ) (k : κ) :
    (t.put new).find k =
      if key new = k then (t.find k).map fun _ => new else t.find k := by
  rw [put, find_mapRows]
  cases h : t.find k with
  | none => simp
  | some r =>
      have hkey := key_of_find h
      by_cases hnew : key new = k
      · simp [RowUpdate.overwrite, hkey, hnew]
      · simp [RowUpdate.overwrite, hkey, hnew, Ne.symm hnew]

theorem put_put [DecidableEq κ] (t : Table ρ) {first second : ρ}
    (hkey : key second = key first) : (t.put first).put second = t.put second := by
  apply ext
  simp only [rows_put, List.map_map]
  apply List.map_congr_left
  intro r _
  simp only [Function.comp_apply, hkey]
  by_cases hr : key r = key first
  · simp [hr]
  · simp [hr]

/-- A row of the table is the version that was stored, or was there before under another
key. -/
theorem mem_put [DecidableEq κ] {t : Table ρ} {new r' : ρ} (h : r' ∈ (t.put new).rows) :
    r' = new ∨ r' ∈ t.rows ∧ key r' ≠ key new := by
  rw [rows_put] at h
  obtain ⟨r, hr, rfl⟩ := List.mem_map.mp h
  split
  next => exact Or.inl rfl
  next hkey => exact Or.inr ⟨hr, hkey⟩

theorem map_put [DecidableEq κ] {β : Type*} {t : Table ρ} {new : ρ} {g : ρ → β}
    (h : ∀ r ∈ t.rows, key r = key new → g new = g r) :
    (t.put new).rows.map g = t.rows.map g := by
  rw [rows_put, List.map_map]
  apply List.map_congr_left
  intro r hr
  simp only [Function.comp_apply]
  split
  next hkey => exact h r hr hkey
  · rfl

theorem find_put_of_ne [DecidableEq κ] (t : Table ρ) {new : ρ} {k : κ}
    (hk : key new ≠ k) : (t.put new).find k = t.find k := by
  simp [find_put, hk]

/-! ## Insertion -/

/-- Add a row at the end, unless its key is taken. -/
def insert [DecidableEq κ] (t : Table ρ) (new : ρ) : Option (Table ρ) :=
  if h : ∀ r ∈ t.rows, key r ≠ key new then
    some {
      rows := t.rows ++ [new]
      keysNodup := by
        rw [List.map_append, List.map_singleton]
        apply List.Nodup.append t.keysNodup (List.nodup_singleton _)
        intro k hk hnew
        obtain ⟨r, hr, rfl⟩ := List.mem_map.mp hk
        exact h r hr (List.mem_singleton.mp hnew) }
  else
    none

theorem insert_eq_some_iff [DecidableEq κ] {t t' : Table ρ} {new : ρ} :
    t.insert new = some t' ↔
      (∀ r ∈ t.rows, key r ≠ key new) ∧ t'.rows = t.rows ++ [new] := by
  unfold insert
  split
  next h =>
    constructor
    · intro heq
      cases heq
      exact ⟨h, rfl⟩
    · rintro ⟨-, hrows⟩
      exact congrArg some (ext hrows.symm)
  next h =>
    constructor
    · intro heq
      cases heq
    · rintro ⟨hfresh, -⟩
      exact absurd hfresh h

theorem mem_of_insert [DecidableEq κ] {t t' : Table ρ} {new r : ρ}
    (h : t.insert new = some t') : r ∈ t'.rows ↔ r ∈ t.rows ∨ r = new := by
  rw [(insert_eq_some_iff.mp h).2, List.mem_append, List.mem_singleton]

theorem exists_insert [DecidableEq κ] {t : Table ρ} {new : ρ}
    (h : ∀ r ∈ t.rows, key r ≠ key new) : ∃ t', t.insert new = some t' := by
  unfold insert
  rw [dif_pos h]
  exact ⟨_, rfl⟩

theorem find_of_insert [DecidableEq κ] {t t' : Table ρ} {new r : ρ} {k : κ}
    (h : t.insert new = some t') (hfind : t.find k = some r) : t'.find k = some r := by
  rw [find_eq_some_iff] at hfind ⊢
  rw [(insert_eq_some_iff.mp h).2]
  exact ⟨List.mem_append_left _ hfind.1, hfind.2⟩

/-! ## Selections -/

/-- The rows that satisfy `p`. -/
def select (t : Table ρ) (p : ρ → Bool) : Table ρ where
  rows := t.rows.filter p
  keysNodup := t.keysNodup.sublist (List.filter_sublist.map key)

@[simp] theorem rows_select (t : Table ρ) (p : ρ → Bool) :
    (t.select p).rows = t.rows.filter p := rfl

theorem mem_select {t : Table ρ} {p : ρ → Bool} {r : ρ} :
    r ∈ (t.select p).rows ↔ r ∈ t.rows ∧ p r = true :=
  List.mem_filter

theorem find_select_of_pos [DecidableEq κ] {t : Table ρ} {p : ρ → Bool} {k : κ}
    (h : ∀ r ∈ t.rows, key r = k → p r = true) : (t.select p).find k = t.find k := by
  cases hfind : t.find k with
  | some r =>
      obtain ⟨hr, hkey⟩ := find_eq_some_iff.mp hfind
      exact find_eq_some_iff.mpr ⟨mem_select.mpr ⟨hr, h r hr hkey⟩, hkey⟩
  | none =>
      cases hselect : (t.select p).find k with
      | none => rfl
      | some r =>
          obtain ⟨hr, hkey⟩ := find_eq_some_iff.mp hselect
          rw [find_eq_some_iff.mpr ⟨(mem_select.mp hr).1, hkey⟩] at hfind
          cases hfind

/-- An update that keeps every row on its side of the selection commutes with it. -/
theorem select_mapRows {t : Table ρ} {p : ρ → Bool} {u v : RowUpdate ρ}
    (hside : ∀ r ∈ t.rows, p (u.set r) = p r)
    (hsame : ∀ r ∈ t.rows, p r = true → u.set r = v.set r) :
    (t.mapRows u).select p = (t.select p).mapRows v := by
  apply ext
  rw [rows_select, rows_mapRows, rows_mapRows, rows_select, List.filter_map]
  have hfilter : t.rows.filter (p ∘ u.set) = t.rows.filter p :=
    List.filter_congr hside
  rw [hfilter]
  apply List.map_congr_left
  intro r hr
  obtain ⟨hmem, hp⟩ := List.mem_filter.mp hr
  exact hsame r hmem hp

theorem select_put [DecidableEq κ] {t : Table ρ} {p : ρ → Bool} {new : ρ}
    (hside : ∀ r ∈ t.rows, key r = key new → p new = p r) :
    (t.put new).select p = (t.select p).put new := by
  apply select_mapRows
  · intro r hr
    simp only [RowUpdate.overwrite]
    split
    next hkey => exact hside r hr hkey
    · rfl
  · intro r _ _
    rfl

/-- Updates of rows outside the selection do not show in it. -/
theorem select_mapRows_of_neg {t : Table ρ} {p : ρ → Bool} {u : RowUpdate ρ}
    (hside : ∀ r ∈ t.rows, p (u.set r) = p r)
    (hkeep : ∀ r ∈ t.rows, p r = true → u.set r = r) :
    (t.mapRows u).select p = t.select p := by
  have hid : (t.mapRows u).select p = (t.select p).mapRows ⟨id, fun _ => rfl⟩ :=
    select_mapRows hside hkeep
  rw [hid]
  apply ext
  exact List.map_id _

theorem select_put_of_neg [DecidableEq κ] {t : Table ρ} {p : ρ → Bool} {new : ρ}
    (hnew : p new = false) (hold : ∀ r ∈ t.rows, key r = key new → p r = false) :
    (t.put new).select p = t.select p := by
  apply select_mapRows_of_neg
  · intro r hr
    simp only [RowUpdate.overwrite]
    split
    next hkey => rw [hnew, hold r hr hkey]
    · rfl
  · intro r hr hp
    simp only [RowUpdate.overwrite]
    split
    next hkey =>
      rw [hold r hr hkey] at hp
      cases hp
    · rfl

theorem insert_select [DecidableEq κ] {t t' : Table ρ} {p : ρ → Bool} {new : ρ}
    (h : t.insert new = some t') (hp : p new = true) :
    (t.select p).insert new = some (t'.select p) := by
  rw [insert_eq_some_iff] at h ⊢
  obtain ⟨hfresh, hrows⟩ := h
  refine ⟨fun r hr => hfresh r (mem_select.mp hr).1, ?_⟩
  rw [rows_select, hrows, List.filter_append, List.filter_singleton, hp]
  rfl

theorem select_insert_of_neg [DecidableEq κ] {t t' : Table ρ} {p : ρ → Bool} {new : ρ}
    (h : t.insert new = some t') (hp : p new = false) : t'.select p = t.select p := by
  apply ext
  rw [rows_select, (insert_eq_some_iff.mp h).2, List.filter_append, List.filter_singleton, hp]
  exact List.append_nil _

/-! ## Sums over the rows -/

/-- The sum of `g` over all rows. -/
def sumBy (t : Table ρ) (g : ρ → ℤ) : ℤ :=
  (t.rows.map g).sum

theorem sumBy_perm {t t' : Table ρ} (h : t'.rows.Perm t.rows) (g : ρ → ℤ) :
    t'.sumBy g = t.sumBy g :=
  (h.map g).sum_eq

theorem sumBy_congr {t : Table ρ} {g g' : ρ → ℤ}
    (h : ∀ r ∈ t.rows, g r = g' r) : t.sumBy g = t.sumBy g' := by
  unfold sumBy
  rw [List.map_congr_left h]

end Table

/-- Summing over the values a partial function takes is summing over all rows, with
nothing for a row without a value. -/
theorem sum_filterMap {ρ β : Type*} (rows : List ρ) (g : ρ → Option β) (f : β → ℤ) :
    ((rows.filterMap g).map f).sum = (rows.map fun r => (g r).elim 0 f).sum := by
  induction rows with
  | nil => rfl
  | cons r rows ih =>
      cases hg : g r with
      | none => simp [hg, ih]
      | some b => simp [hg, ih]

/-- Two selections that exclude each other are one selection by either. -/
theorem filter_append_filter_perm {ρ : Type*} (rows : List ρ) (p q : ρ → Bool)
    (hdisjoint : ∀ r ∈ rows, p r = true → q r = false) :
    (rows.filter p ++ rows.filter q).Perm (rows.filter fun r => p r || q r) := by
  induction rows with
  | nil => exact List.Perm.refl _
  | cons r rows ih =>
      have hrest := ih fun r' hr' => hdisjoint r' (List.mem_cons_of_mem r hr')
      cases hp : p r with
      | true =>
          have hq := hdisjoint r List.mem_cons_self hp
          simpa [hp, hq] using hrest
      | false =>
          cases hq : q r with
          | true =>
              simp only [List.filter_cons, hp, hq, Bool.false_or, if_true,
                Bool.false_eq_true, if_false]
              exact List.perm_middle.trans (hrest.cons r)
          | false => simpa [hp, hq] using hrest

end Relational
