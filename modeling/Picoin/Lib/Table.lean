import Mathlib.Data.List.Basic
import Mathlib.Data.List.Nodup
import Mathlib.Algebra.BigOperators.Group.List.Basic
import Mathlib.Algebra.BigOperators.Ring.List
import Mathlib.Algebra.Order.BigOperators.Group.List
import Mathlib.Tactic.Ring

/-!
# Relational tables with a primary key

A `Table κ ρ` is the content of one SQL table: a list of rows, each under its primary key,
no key twice. The operations are the statements a program issues against such a table:

* **`find?`** is `SELECT … WHERE key = ?`;
* **`upsert`** is `INSERT … ON CONFLICT(key) DO UPDATE`;
* **`insert?`** is a plain `INSERT`, `none` standing for the primary-key violation;
* **`insertNew`** is `INSERT … ON CONFLICT(key) DO NOTHING`;
* **`modify`** and **`mapRows`** are `UPDATE`, **`filterRows`** is `DELETE`.

The key's uniqueness is a field, so a table that breaks its primary key cannot be built.
Every operation comes with its lookup lemma, and `upsert` also with the effect on a column's
sum, which is what accounting arguments use.
-/

namespace Sql

universe u v

/-- The rows of a table in insertion order, each under its primary key. -/
structure Table (κ : Type u) (ρ : Type v) where
  rows : List (κ × ρ)
  nodup : (rows.map Prod.fst).Nodup

namespace Table

variable {κ : Type u} {ρ : Type v}

@[ext] theorem ext {t t' : Table κ ρ} (h : t.rows = t'.rows) : t = t' := by
  cases t; cases t'; cases h; rfl

instance [DecidableEq κ] [DecidableEq ρ] : DecidableEq (Table κ ρ) := fun t t' =>
  decidable_of_iff (t.rows = t'.rows) ⟨ext, fun h => h ▸ rfl⟩

/-- The table without rows. -/
def empty : Table κ ρ := ⟨[], List.nodup_nil⟩

instance : Inhabited (Table κ ρ) := ⟨empty⟩

/-- The row stored under `k`. -/
def find? [DecidableEq κ] (t : Table κ ρ) (k : κ) : Option ρ := t.rows.lookup k

/-- Sum of an integer column. -/
def sum (t : Table κ ρ) (f : ρ → ℤ) : ℤ := (t.rows.map fun r => f r.2).sum

@[simp] theorem find?_empty [DecidableEq κ] (k : κ) : (empty : Table κ ρ).find? k = none := rfl

@[simp] theorem sum_empty (f : ρ → ℤ) : (empty : Table κ ρ).sum f = 0 := rfl

/-! ## Lookup in an association list -/

variable [DecidableEq κ]

theorem lookup_cons_ne {k k' : κ} (h : k ≠ k') (x : ρ) (l : List (κ × ρ)) :
    ((k', x) :: l).lookup k = l.lookup k := by
  rw [List.lookup_cons, beq_eq_false_iff_ne.mpr h]

theorem lookup_eq_none_iff {l : List (κ × ρ)} {k : κ} :
    l.lookup k = none ↔ k ∉ l.map Prod.fst := by
  induction l with
  | nil => simp
  | cons r rest ih =>
    obtain ⟨k', x⟩ := r
    by_cases h : k = k'
    · simp [h]
    · rw [lookup_cons_ne h, ih]
      simp [h]

theorem mem_of_lookup {l : List (κ × ρ)} {k : κ} {x : ρ} (h : l.lookup k = some x) :
    (k, x) ∈ l := by
  induction l with
  | nil => simp at h
  | cons r rest ih =>
    obtain ⟨k', y⟩ := r
    by_cases hk : k = k'
    · subst hk
      simp only [List.lookup_cons_self, Option.some.injEq] at h
      simp [h]
    · rw [lookup_cons_ne hk] at h
      exact List.mem_cons_of_mem _ (ih h)

theorem lookup_of_mem {l : List (κ × ρ)} (hl : (l.map Prod.fst).Nodup) {k : κ} {x : ρ}
    (h : (k, x) ∈ l) : l.lookup k = some x := by
  induction l with
  | nil => simp at h
  | cons r rest ih =>
    obtain ⟨k', y⟩ := r
    simp only [List.map_cons, List.nodup_cons] at hl
    rcases List.mem_cons.mp h with heq | hmem
    · cases heq; exact List.lookup_cons_self
    · have hne : k ≠ k' := by
        rintro rfl
        exact hl.1 (List.mem_map.mpr ⟨_, hmem, rfl⟩)
      rw [lookup_cons_ne hne]
      exact ih hl.2 hmem

theorem find?_eq_some_iff {t : Table κ ρ} {k : κ} {x : ρ} :
    t.find? k = some x ↔ (k, x) ∈ t.rows :=
  ⟨mem_of_lookup, lookup_of_mem t.nodup⟩

theorem find?_eq_none_iff {t : Table κ ρ} {k : κ} :
    t.find? k = none ↔ k ∉ t.rows.map Prod.fst :=
  lookup_eq_none_iff

/-! ## `INSERT … ON CONFLICT DO UPDATE` -/

/-- Replace the row under `k` in place, or append it. -/
def upsertRows (k : κ) (x : ρ) : List (κ × ρ) → List (κ × ρ)
  | [] => [(k, x)]
  | (k', y) :: rest => if k' = k then (k, x) :: rest else (k', y) :: upsertRows k x rest

theorem mem_keys_upsertRows {k k' : κ} {x : ρ} {l : List (κ × ρ)} :
    k' ∈ (upsertRows k x l).map Prod.fst ↔ k' = k ∨ k' ∈ l.map Prod.fst := by
  induction l with
  | nil => simp [upsertRows]
  | cons r rest ih =>
    obtain ⟨k₁, y⟩ := r
    by_cases h : k₁ = k
    · simp [upsertRows, h]
    · simp only [upsertRows, if_neg h, List.map_cons, List.mem_cons, ih]
      tauto

theorem nodup_upsertRows {k : κ} {x : ρ} {l : List (κ × ρ)} (hl : (l.map Prod.fst).Nodup) :
    ((upsertRows k x l).map Prod.fst).Nodup := by
  induction l with
  | nil => simp [upsertRows]
  | cons r rest ih =>
    obtain ⟨k₁, y⟩ := r
    simp only [List.map_cons, List.nodup_cons] at hl
    by_cases h : k₁ = k
    · subst h
      simpa [upsertRows] using hl
    · simp only [upsertRows, if_neg h, List.map_cons, List.nodup_cons, mem_keys_upsertRows]
      exact ⟨by rintro (rfl | hmem); exacts [h rfl, hl.1 hmem], ih hl.2⟩

/-- Without a row under `k`, the new one is the last. -/
theorem upsertRows_of_none {k : κ} {x : ρ} {l : List (κ × ρ)} (h : l.lookup k = none) :
    upsertRows k x l = l ++ [(k, x)] := by
  induction l with
  | nil => rfl
  | cons r rest ih =>
    obtain ⟨k', y⟩ := r
    have hne : k ≠ k' := by
      intro heq
      rw [heq, List.lookup_cons_self] at h
      cases h
    rw [lookup_cons_ne hne] at h
    rw [upsertRows, if_neg (Ne.symm hne), ih h, List.cons_append]

/-- `INSERT … ON CONFLICT(key) DO UPDATE`: the row under `k` becomes `x`. -/
def upsert (t : Table κ ρ) (k : κ) (x : ρ) : Table κ ρ :=
  ⟨upsertRows k x t.rows, nodup_upsertRows t.nodup⟩

theorem lookup_upsertRows (k k' : κ) (x : ρ) (l : List (κ × ρ)) :
    (upsertRows k x l).lookup k' = if k' = k then some x else l.lookup k' := by
  induction l with
  | nil =>
    by_cases h : k' = k
    · simp [upsertRows, h]
    · simp [upsertRows, lookup_cons_ne h, h]
  | cons r rest ih =>
    obtain ⟨k₁, y⟩ := r
    by_cases h₁ : k₁ = k
    · subst h₁
      by_cases h : k' = k₁
      · simp [upsertRows, h]
      · simp [upsertRows, lookup_cons_ne h, h]
    · by_cases h : k' = k₁
      · subst h
        simp [upsertRows, h₁]
      · rw [upsertRows, if_neg h₁, lookup_cons_ne h, lookup_cons_ne h, ih]

theorem find?_upsert (t : Table κ ρ) (k k' : κ) (x : ρ) :
    (t.upsert k x).find? k' = if k' = k then some x else t.find? k' :=
  lookup_upsertRows k k' x t.rows

@[simp] theorem find?_upsert_self (t : Table κ ρ) (k : κ) (x : ρ) :
    (t.upsert k x).find? k = some x := by
  simp [find?_upsert]

theorem find?_upsert_ne (t : Table κ ρ) {k k' : κ} (x : ρ) (h : k' ≠ k) :
    (t.upsert k x).find? k' = t.find? k' := by
  simp [find?_upsert, h]

/-- The rows that pass a test hold the same after a write that keeps what is read of its row. -/
theorem map_filter_upsertRows {β : Type*} {p : κ × ρ → Bool} {f : κ × ρ → β} {k : κ} {x : ρ}
    {l : List (κ × ρ)}
    (h : ((l.lookup k).filter fun y => p (k, y)).map (fun y => f (k, y)) =
      ((some x).filter fun y => p (k, y)).map fun y => f (k, y)) :
    ((upsertRows k x l).filter p).map f = (l.filter p).map f := by
  induction l with
  | nil =>
    unfold upsertRows
    by_cases hx : p (k, x) = true
    · rw [List.lookup_nil, Option.filter_none, Option.filter_some, if_pos hx] at h
      cases h
    · rw [List.filter_cons_of_neg hx]
  | cons r rest ih =>
    obtain ⟨k', y⟩ := r
    unfold upsertRows
    by_cases hk : k' = k
    · rw [hk, List.lookup_cons_self, Option.filter_some, Option.filter_some] at h
      rw [if_pos hk, hk]
      by_cases hx : p (k, x) = true <;> by_cases hy : p (k, y) = true
      · rw [if_pos hx, if_pos hy, Option.map_some, Option.map_some] at h
        rw [List.filter_cons_of_pos hx, List.filter_cons_of_pos hy, List.map_cons, List.map_cons,
          Option.some.inj h]
      · rw [if_pos hx, if_neg hy] at h
        cases h
      · rw [if_neg hx, if_pos hy] at h
        cases h
      · rw [List.filter_cons_of_neg hx, List.filter_cons_of_neg hy]
    · rw [lookup_cons_ne (Ne.symm hk)] at h
      rw [if_neg hk]
      by_cases hy : p (k', y) = true
      · rw [List.filter_cons_of_pos hy, List.filter_cons_of_pos hy, List.map_cons, List.map_cons,
          ih h]
      · rw [List.filter_cons_of_neg hy, List.filter_cons_of_neg hy, ih h]

theorem sum_upsertRows (f : ρ → ℤ) (k : κ) (x : ρ) (l : List (κ × ρ)) :
    ((upsertRows k x l).map fun r => f r.2).sum
      = (l.map fun r => f r.2).sum + f x - ((l.lookup k).map f).getD 0 := by
  induction l with
  | nil => simp [upsertRows]
  | cons r rest ih =>
    obtain ⟨k₁, y⟩ := r
    by_cases h : k₁ = k
    · subst h
      simp only [upsertRows, if_true, List.map_cons, List.sum_cons, List.lookup_cons_self,
        Option.map_some, Option.getD_some]
      ring
    · rw [upsertRows, if_neg h, lookup_cons_ne (Ne.symm h)]
      simp only [List.map_cons, List.sum_cons, ih]
      ring

/-- An upsert changes a column's sum by the new value minus the replaced one. -/
theorem sum_upsert (t : Table κ ρ) (f : ρ → ℤ) (k : κ) (x : ρ) :
    (t.upsert k x).sum f = t.sum f + f x - ((t.find? k).map f).getD 0 :=
  sum_upsertRows f k x t.rows

/-! ## `INSERT` -/

/-- A plain `INSERT`: `none` when the primary key is taken. -/
def insert? (t : Table κ ρ) (k : κ) (x : ρ) : Option (Table κ ρ) :=
  if (t.find? k).isSome then none else some (t.upsert k x)

/-- `INSERT … ON CONFLICT(key) DO NOTHING`. -/
def insertNew (t : Table κ ρ) (k : κ) (x : ρ) : Table κ ρ :=
  if (t.find? k).isSome then t else t.upsert k x

theorem insert?_eq_some_iff {t t' : Table κ ρ} {k : κ} {x : ρ} :
    t.insert? k x = some t' ↔ t.find? k = none ∧ t' = t.upsert k x := by
  unfold insert?
  cases h : t.find? k with
  | none => simp [eq_comm]
  | some y => simp

theorem insertNew_of_some {t : Table κ ρ} {k : κ} {x y : ρ} (h : t.find? k = some y) :
    t.insertNew k x = t := by
  simp [insertNew, h]

theorem insertNew_of_none {t : Table κ ρ} {k : κ} {x : ρ} (h : t.find? k = none) :
    t.insertNew k x = t.upsert k x := by
  simp [insertNew, h]

theorem find?_insertNew (t : Table κ ρ) (k k' : κ) (x : ρ) :
    (t.insertNew k x).find? k' = if k' = k then some ((t.find? k).getD x) else t.find? k' := by
  cases h : t.find? k with
  | none => simp [insertNew_of_none h, find?_upsert]
  | some y =>
    rw [insertNew_of_some h]
    by_cases hk : k' = k
    · simp [hk, h]
    · simp [hk]

/-- `INSERT` of rows one after the other. -/
def insertAll? (t : Table κ ρ) (rows : List (κ × ρ)) : Option (Table κ ρ) :=
  rows.foldlM (fun t r => t.insert? r.1 r.2) t

/-- After inserts a row is an old one or an inserted one. -/
theorem find?_insertAll? {rows : List (κ × ρ)} {t t' : Table κ ρ} (h : t.insertAll? rows = some t')
    (k : κ) : t'.find? k = (t.find? k).or (rows.lookup k) := by
  induction rows generalizing t with
  | nil =>
    cases h
    simp
  | cons r rest ih =>
    obtain ⟨t₁, hfirst, hrest⟩ := Option.bind_eq_some_iff.mp h
    obtain ⟨hnone, rfl⟩ := insert?_eq_some_iff.mp hfirst
    rw [ih hrest, find?_upsert]
    by_cases hk : k = r.1
    · subst hk
      rw [if_pos rfl, hnone, Option.some_or, Option.none_or]
      exact List.lookup_cons_self.symm
    · rw [if_neg hk, lookup_cons_ne hk]

/-- An inserted row had no row under its key before. -/
theorem find?_eq_none_of_insertAll? {rows : List (κ × ρ)} {t t' : Table κ ρ}
    (h : t.insertAll? rows = some t') {k : κ} {x : ρ} (hrow : rows.lookup k = some x) :
    t.find? k = none := by
  induction rows generalizing t with
  | nil => cases hrow
  | cons r rest ih =>
    obtain ⟨t₁, hfirst, hrest⟩ := Option.bind_eq_some_iff.mp h
    obtain ⟨hnone, rfl⟩ := insert?_eq_some_iff.mp hfirst
    by_cases hk : k = r.1
    · rw [hk, hnone]
    · rw [lookup_cons_ne hk] at hrow
      have hlater := ih hrest hrow
      rwa [find?_upsert_ne _ _ hk] at hlater

/-! ## `UPDATE` and `DELETE` -/

/-- `UPDATE` without a condition on the key. -/
def mapRows (t : Table κ ρ) (f : κ → ρ → ρ) : Table κ ρ :=
  ⟨t.rows.map fun r => (r.1, f r.1 r.2), by simpa [List.map_map, Function.comp_def] using t.nodup⟩

/-- `UPDATE … WHERE key = k`. -/
def modify (t : Table κ ρ) (k : κ) (f : ρ → ρ) : Table κ ρ :=
  t.mapRows fun k' x => if k' = k then f x else x

/-- `DELETE … WHERE NOT p`. -/
def filterRows (t : Table κ ρ) (p : κ → ρ → Bool) : Table κ ρ :=
  ⟨t.rows.filter fun r => p r.1 r.2,
    t.nodup.sublist ((List.filter_sublist (l := t.rows)).map _)⟩

theorem lookup_mapRows {α : Type*} (f : κ → ρ → α) (k : κ) (l : List (κ × ρ)) :
    (l.map fun r => (r.1, f r.1 r.2)).lookup k = (l.lookup k).map (f k) := by
  induction l with
  | nil => rfl
  | cons r rest ih =>
    obtain ⟨k', x⟩ := r
    by_cases h : k = k'
    · simp [h]
    · rw [List.map_cons, lookup_cons_ne h, lookup_cons_ne h, ih]

@[simp] theorem find?_mapRows (t : Table κ ρ) (f : κ → ρ → ρ) (k : κ) :
    (t.mapRows f).find? k = (t.find? k).map (f k) :=
  lookup_mapRows f k t.rows

theorem find?_modify (t : Table κ ρ) (k k' : κ) (f : ρ → ρ) :
    (t.modify k f).find? k' = if k' = k then (t.find? k).map f else t.find? k' := by
  rw [modify, find?_mapRows]
  by_cases h : k' = k
  · simp [h]
  · cases t.find? k' <;> simp [h]

theorem find?_modify_ne (t : Table κ ρ) {k k' : κ} (f : ρ → ρ) (h : k' ≠ k) :
    (t.modify k f).find? k' = t.find? k' := by
  simp [find?_modify, h]

/-- An update that makes a row pass a test puts it among the rows that pass. -/
theorem perm_filter_modify {t : Table κ ρ} {k : κ} {x : ρ} (hx : t.find? k = some x) {f : ρ → ρ}
    {p : κ × ρ → Bool} (hold : p (k, x) = false) (hnew : p (k, f x) = true) :
    ((t.modify k f).rows.filter p).Perm ((k, f x) :: t.rows.filter p) := by
  have hrows : ∀ l : List (κ × ρ), (l.map Prod.fst).Nodup → l.lookup k = some x →
      ((l.map fun r => (r.1, if r.1 = k then f r.2 else r.2)).filter p).Perm
        ((k, f x) :: l.filter p) := by
    intro l hnodup hl
    induction l with
    | nil => cases hl
    | cons r rest ih =>
      obtain ⟨k', y⟩ := r
      obtain ⟨hk', hnodup⟩ := List.nodup_cons.mp hnodup
      by_cases heq : k' = k
      · -- the other rows have other keys
        subst heq
        rw [List.lookup_cons_self] at hl
        cases hl
        have hrest : (rest.map fun r => (r.1, if r.1 = k' then f r.2 else r.2)) = rest := by
          refine (List.map_congr_left fun r hr => ?_).trans (List.map_id _)
          have hne : r.1 ≠ k' := fun h => hk' (List.mem_map.mpr ⟨r, hr, h⟩)
          rw [if_neg hne]
          rfl
        rw [List.map_cons, hrest, if_pos rfl, List.filter_cons_of_pos hnew,
          List.filter_cons_of_neg (by rw [hold]; exact Bool.false_ne_true)]
      · rw [lookup_cons_ne (Ne.symm heq)] at hl
        have hperm := ih hnodup hl
        rw [List.map_cons, if_neg heq]
        by_cases hp : p (k', y) = true
        · rw [List.filter_cons_of_pos hp, List.filter_cons_of_pos hp]
          exact (hperm.cons _).trans (List.Perm.swap _ _ _)
        · rw [List.filter_cons_of_neg hp, List.filter_cons_of_neg hp]
          exact hperm
  exact hrows t.rows t.nodup hx

/-- Rows that are rewritten keep a column that the new values have from the old ones. -/
theorem map_find?_mapRows {α : Type*} (t : Table κ ρ) {f : κ → ρ → ρ} {column : ρ → α}
    (h : ∀ k row, column (f k row) = column row) (k : κ) :
    ((t.mapRows f).find? k).map column = (t.find? k).map column := by
  rw [find?_mapRows, Option.map_map]
  exact congrArg (fun g => (t.find? k).map g) (funext fun row => h k row)

theorem map_find?_modify {α : Type*} (t : Table κ ρ) (k : κ) {f : ρ → ρ} {column : ρ → α}
    (h : ∀ row, column (f row) = column row) (k' : κ) :
    ((t.modify k f).find? k').map column = (t.find? k').map column := by
  refine map_find?_mapRows t (fun k'' row => ?_) k'
  split
  · exact h row
  · rfl

/-- A row that meets the condition of the `DELETE` is not deleted. -/
theorem find?_filterRows_of {t : Table κ ρ} {p : κ → ρ → Bool} {k : κ} {x : ρ}
    (h : t.find? k = some x) (hp : p k x = true) : (t.filterRows p).find? k = some x :=
  find?_eq_some_iff.mpr (List.mem_filter.mpr ⟨find?_eq_some_iff.mp h, hp⟩)

/-- An update that does not change the row does not change the table. -/
theorem modify_eq_self (t : Table κ ρ) {k : κ} {f : ρ → ρ}
    (hf : ∀ x, t.find? k = some x → f x = x) : t.modify k f = t := by
  refine ext ((List.map_congr_left fun r hr => ?_).trans (List.map_id _))
  by_cases hk : r.1 = k
  · have hrow := find?_eq_some_iff.mpr (show (k, r.2) ∈ t.rows by rw [← hk]; exact hr)
    show (r.1, if r.1 = k then f r.2 else r.2) = r
    rw [if_pos hk, hf r.2 hrow]
  · show (r.1, if r.1 = k then f r.2 else r.2) = r
    rw [if_neg hk]

omit [DecidableEq κ] in
/-- The sum of a column after an update of every row. -/
theorem sum_mapRows (t : Table κ ρ) (f : κ → ρ → ρ) (g : ρ → ℤ) :
    (t.mapRows f).sum g = (t.rows.map fun r => g (f r.1 r.2)).sum := by
  simp [sum, mapRows, List.map_map, Function.comp_def]

omit [DecidableEq κ] in
theorem sum_congr (t : Table κ ρ) {f g : ρ → ℤ} (h : ∀ r ∈ t.rows, f r.2 = g r.2) :
    t.sum f = t.sum g := by
  unfold sum
  exact congrArg List.sum (List.map_congr_left h)

omit [DecidableEq κ] in
theorem sum_add (t : Table κ ρ) (f g : ρ → ℤ) : t.sum (fun x => f x + g x) = t.sum f + t.sum g :=
  List.sum_map_add

theorem sum_insertNew (t : Table κ ρ) (f : ρ → ℤ) {k : κ} {x : ρ} (hx : f x = 0) :
    (t.insertNew k x).sum f = t.sum f := by
  cases h : t.find? k with
  | some y => rw [insertNew_of_some h]
  | none => rw [insertNew_of_none h, sum_upsert, h, hx]; simp

theorem sum_modifyRows (f : ρ → ℤ) (k : κ) (g : ρ → ρ) {l : List (κ × ρ)}
    (hl : (l.map Prod.fst).Nodup) :
    (l.map fun r => f (if r.1 = k then g r.2 else r.2)).sum =
      (l.map fun r => f r.2).sum + ((l.lookup k).map fun x => f (g x) - f x).getD 0 := by
  induction l with
  | nil => simp
  | cons r rest ih =>
    obtain ⟨k', x⟩ := r
    simp only [List.map_cons, List.nodup_cons] at hl
    simp only [List.map_cons, List.sum_cons, ih hl.2]
    by_cases h : k' = k
    · subst h
      -- the key does not occur again
      have hnone : rest.lookup k' = none := lookup_eq_none_iff.mpr hl.1
      simp only [if_true, hnone, List.lookup_cons_self, Option.map_none, Option.map_some,
        Option.getD_none, Option.getD_some]
      ring
    · rw [if_neg h, lookup_cons_ne (Ne.symm h)]
      ring

/-- An update of one row changes a column's sum by the change of that row. -/
theorem sum_modify (t : Table κ ρ) (f : ρ → ℤ) (k : κ) (g : ρ → ρ) :
    (t.modify k g).sum f = t.sum f + ((t.find? k).map fun x => f (g x) - f x).getD 0 := by
  rw [modify, sum_mapRows]
  exact sum_modifyRows f k g t.nodup

/-! ## Sums over keys and rows -/

/-- Sum of an integer that depends on the key and the row. -/
def sumWith (t : Table κ ρ) (f : κ → ρ → ℤ) : ℤ := (t.rows.map fun r => f r.1 r.2).sum

omit [DecidableEq κ] in
theorem sumWith_congr (t : Table κ ρ) {f g : κ → ρ → ℤ} (h : ∀ r ∈ t.rows, f r.1 r.2 = g r.1 r.2) :
    t.sumWith f = t.sumWith g :=
  congrArg List.sum (List.map_congr_left h)

omit [DecidableEq κ] in
theorem sumWith_nonneg {t : Table κ ρ} {f : κ → ρ → ℤ} (h : ∀ r ∈ t.rows, 0 ≤ f r.1 r.2) :
    0 ≤ t.sumWith f := by
  refine List.sum_nonneg fun x hx => ?_
  obtain ⟨r, hr, rfl⟩ := List.mem_map.mp hx
  exact h r hr

theorem sumWith_insert? {t t' : Table κ ρ} {k : κ} {x : ρ} (h : t.insert? k x = some t')
    (f : κ → ρ → ℤ) : t'.sumWith f = t.sumWith f + f k x := by
  obtain ⟨hnone, rfl⟩ := insert?_eq_some_iff.mp h
  have hrows : ∀ l : List (κ × ρ), l.lookup k = none →
      ((upsertRows k x l).map fun r => f r.1 r.2).sum =
        (l.map fun r => f r.1 r.2).sum + f k x := by
    intro l hl
    induction l with
    | nil => simp [upsertRows]
    | cons r rest ih =>
      have hne : r.1 ≠ k := fun heq => by
        rw [lookup_eq_none_iff] at hl
        exact hl (by rw [← heq]; exact List.mem_cons_self)
      rw [lookup_cons_ne (Ne.symm hne)] at hl
      simp only [upsertRows, if_neg hne, List.map_cons, List.sum_cons, ih hl]
      ring
  exact hrows t.rows hnone

theorem sumWith_modify {t : Table κ ρ} {k : κ} {x : ρ} (hx : t.find? k = some x) (g : ρ → ρ)
    (f : κ → ρ → ℤ) : (t.modify k g).sumWith f = t.sumWith f + (f k (g x) - f k x) := by
  have hrows : ∀ l : List (κ × ρ), (l.map Prod.fst).Nodup → l.lookup k = some x →
      ((l.map fun r => (r.1, if r.1 = k then g r.2 else r.2)).map fun r => f r.1 r.2).sum =
        (l.map fun r => f r.1 r.2).sum + (f k (g x) - f k x) := by
    intro l hnodup hl
    induction l with
    | nil => exact nomatch hl
    | cons r rest ih =>
      rw [List.map_cons, List.nodup_cons] at hnodup
      rw [List.map_cons, List.map_cons, List.sum_cons, List.map_cons, List.sum_cons]
      by_cases heq : r.1 = k
      · -- the other rows have other keys
        have hrest : (rest.map fun r => (r.1, if r.1 = k then g r.2 else r.2)) = rest := by
          refine (List.map_congr_left fun y hy => ?_).trans (List.map_id _)
          have hne : y.1 ≠ k := fun h => hnodup.1 (by
            rw [heq, ← h]
            exact List.mem_map_of_mem hy)
          rw [if_neg hne]
          rfl
        have hr : r.2 = x := by
          obtain ⟨k', y⟩ := r
          subst heq
          simpa using hl
        rw [hrest, if_pos heq, hr, heq]
        ring
      · rw [lookup_cons_ne (Ne.symm heq)] at hl
        rw [ih hnodup.2 hl, if_neg heq]
        ring
  exact hrows t.rows t.nodup hx

/-! ## Properties of all rows -/

/-- All rows have the property. -/
def Forall (t : Table κ ρ) (p : ρ → Prop) : Prop := ∀ r ∈ t.rows, p r.2

omit [DecidableEq κ] in
theorem Forall.imp {t : Table κ ρ} {p q : ρ → Prop} (h : t.Forall p) (hpq : ∀ x, p x → q x) :
    t.Forall q :=
  fun r hr => hpq r.2 (h r hr)

theorem Forall.find? {t : Table κ ρ} {p : ρ → Prop} (h : t.Forall p) {k : κ} {x : ρ}
    (hx : t.find? k = some x) : p x :=
  h _ (find?_eq_some_iff.mp hx)

theorem forall_iff_find? {t : Table κ ρ} {p : ρ → Prop} :
    t.Forall p ↔ ∀ k x, t.find? k = some x → p x :=
  ⟨fun h _ _ hx => h.find? hx, fun h r hr => h r.1 r.2 (find?_eq_some_iff.mpr hr)⟩

theorem Forall.insertNew {t : Table κ ρ} {p : ρ → Prop} (h : t.Forall p) {k : κ} {x : ρ}
    (hx : p x) : (t.insertNew k x).Forall p := by
  rw [forall_iff_find?] at h ⊢
  intro k' y hy
  rw [find?_insertNew] at hy
  split at hy
  · cases hk : t.find? k with
    | none => rw [hk] at hy; cases hy; exact hx
    | some z => rw [hk] at hy; cases hy; exact h k z hk
  · exact h k' y hy

omit [DecidableEq κ] in
theorem Forall.mapRows {t : Table κ ρ} {p q : ρ → Prop} (h : t.Forall p) {f : κ → ρ → ρ}
    (hf : ∀ k x, p x → q (f k x)) : (t.mapRows f).Forall q := by
  intro r hr
  obtain ⟨r₀, hr₀, rfl⟩ := List.mem_map.mp hr
  exact hf r₀.1 r₀.2 (h r₀ hr₀)

theorem Forall.modify {t : Table κ ρ} {p : ρ → Prop} (h : t.Forall p) {k : κ} {f : ρ → ρ}
    (hf : ∀ x, p x → p (f x)) : (t.modify k f).Forall p :=
  h.mapRows fun k' x hx => by
    by_cases hk : k' = k
    · rw [if_pos hk]; exact hf x hx
    · rw [if_neg hk]; exact hx

omit [DecidableEq κ] in
theorem Forall.sum_nonneg {t : Table κ ρ} {f : ρ → ℤ} (h : t.Forall fun x => 0 ≤ f x) :
    0 ≤ t.sum f :=
  List.sum_nonneg fun _ hn => by
    obtain ⟨r, hr, rfl⟩ := List.mem_map.mp hn
    exact h r hr

omit [DecidableEq κ] in
theorem Forall.sum_le {t : Table κ ρ} {f g : ρ → ℤ} (h : t.Forall fun x => f x ≤ g x) :
    t.sum f ≤ t.sum g :=
  List.sum_le_sum h

omit [DecidableEq κ] in
theorem Forall.dvd_sum {t : Table κ ρ} {f : ρ → ℤ} {d : ℤ} (h : t.Forall fun x => d ∣ f x) :
    d ∣ t.sum f :=
  List.dvd_sum fun _ hn => by
    obtain ⟨r, hr, rfl⟩ := List.mem_map.mp hn
    exact h r hr

end Table

end Sql
