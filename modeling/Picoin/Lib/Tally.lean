import Mathlib.Algebra.BigOperators.Group.Finset.Piecewise
import Mathlib.Data.List.Sort
import Picoin.Lib.Table

/-!
# Sums by key, in the order of the keys

A dictionary that adds up amounts by key, listed in the order of its keys, is the usual way to
make a canonical list out of a log. Two facts make it canonical:

* **`mem_sorted`** — sorting a table neither adds nor loses rows, and the sorted rows are strictly
  increasing (`sorted_pairwise`), so equal tables have equal listings;
* **`groupSum_eq_iff`** — the non-zero sums of two logs are listed alike iff every key has the same
  total in both.
-/

namespace Sql

universe u v
variable {κ : Type u} {ρ : Type v} [LinearOrder κ]

/-! ## Rows in the order of their keys -/

/-- The keys of a list of rows increase strictly. -/
def KeysIncrease (l : List (κ × ρ)) : Prop := l.Pairwise fun a b => a.1 < b.1

/-- The rows of a table in the order of their keys. -/
def Table.sorted (t : Table κ ρ) : List (κ × ρ) := t.rows.insertionSort fun a b => a.1 ≤ b.1

theorem Table.mem_sorted {t : Table κ ρ} {r : κ × ρ} : r ∈ t.sorted ↔ t.find? r.1 = some r.2 := by
  unfold Table.sorted
  rw [List.mem_insertionSort, Table.find?_eq_some_iff]

theorem Table.sorted_pairwise (t : Table κ ρ) : KeysIncrease t.sorted := by
  have hle : t.sorted.Pairwise fun a b => a.1 ≤ b.1 := by
    -- the order on rows is total and transitive because the order on keys is
    have htotal : Std.Total fun a b : κ × ρ => a.1 ≤ b.1 := ⟨fun a b => le_total a.1 b.1⟩
    have htrans : IsTrans (κ × ρ) fun a b => a.1 ≤ b.1 := ⟨fun _ _ _ => le_trans⟩
    exact List.pairwise_insertionSort _ _
  have hne : t.sorted.Pairwise fun a b => a.1 ≠ b.1 := by
    have hperm : List.Perm (t.sorted.map Prod.fst) (t.rows.map Prod.fst) :=
      (List.perm_insertionSort _ t.rows).map _
    have hnodup : (t.sorted.map Prod.fst).Nodup := hperm.nodup_iff.mpr t.nodup
    rwa [List.Nodup, List.pairwise_map] at hnodup
  exact hle.imp₂ (fun _ _ hab hneq => lt_of_le_of_ne hab hneq) hne

/-- Lists with strictly increasing keys and the same rows are equal. -/
theorem KeysIncrease.eq_of_mem_iff {l l' : List (κ × ρ)} (h : KeysIncrease l)
    (h' : KeysIncrease l') (hmem : ∀ r, r ∈ l ↔ r ∈ l') : l = l' := by
  have hirrefl : Std.Irrefl fun a b : κ × ρ => a.1 < b.1 := ⟨fun a => lt_irrefl a.1⟩
  have hasymm : Std.Antisymm fun a b : κ × ρ => a.1 < b.1 :=
    ⟨fun _ _ hab hba => absurd hab (lt_asymm hba)⟩
  exact List.Pairwise.eq_of_mem_iff h h' hmem

/-- A list whose keys increase is what a table of its rows is listed as. -/
theorem Table.sorted_eq_of_mem_iff {t : Table κ ρ} {l : List (κ × ρ)} (h : KeysIncrease l)
    (hmem : ∀ k x, (k, x) ∈ l ↔ t.find? k = some x) : t.sorted = l :=
  t.sorted_pairwise.eq_of_mem_iff h fun r => by rw [Table.mem_sorted, ← hmem]

/-- The rows of a table that hold the same under a reading of them are listed alike. -/
theorem Table.map_sorted_congr {β : Type*} {t t' : Table κ ρ} {f : κ → ρ → β}
    (h : ∀ k, (t.find? k).map (f k) = (t'.find? k).map (f k)) :
    t.sorted.map (fun r => (r.1, f r.1 r.2)) = t'.sorted.map fun r => (r.1, f r.1 r.2) := by
  have hkeys : ∀ t : Table κ ρ, KeysIncrease (t.sorted.map fun r => (r.1, f r.1 r.2)) := by
    intro t
    exact List.pairwise_map.mpr t.sorted_pairwise
  have hmem : ∀ (t : Table κ ρ) (r : κ × β),
      r ∈ t.sorted.map (fun r => (r.1, f r.1 r.2)) ↔ (t.find? r.1).map (f r.1) = some r.2 := by
    rintro t ⟨k, y⟩
    rw [List.mem_map, Option.map_eq_some_iff]
    constructor
    · rintro ⟨⟨k', x⟩, hrow, hpair⟩
      cases hpair
      exact ⟨x, Table.mem_sorted.mp hrow, rfl⟩
    · rintro ⟨x, hrow, hx⟩
      exact ⟨(k, x), Table.mem_sorted.mpr hrow, Prod.ext rfl hx⟩
  refine (hkeys t).eq_of_mem_iff (hkeys t') fun r => ?_
  rw [hmem, hmem, h]

/-- A computation over the listed rows depends only on what it makes of each. -/
theorem Table.mapM_sorted_congr {m : Type* → Type*} [Monad m] [LawfulMonad m] {β : Type _}
    {t t' : Table κ ρ} {f : κ → ρ → m β}
    (h : ∀ k, (t.find? k).map (f k) = (t'.find? k).map (f k)) :
    t.sorted.mapM (fun r => f r.1 r.2) = t'.sorted.mapM fun r => f r.1 r.2 := by
  have hmap : ∀ t : Table κ ρ, t.sorted.mapM (fun r => f r.1 r.2) =
      (t.sorted.map fun r => (r.1, f r.1 r.2)).mapM Prod.snd := by
    intro t
    rw [List.mapM_map]
    rfl
  rw [hmap, hmap, Table.map_sorted_congr h]

/-! ## Sums by key -/

/-- What a log adds up to for a key. -/
def total (l : List (κ × ℤ)) (k : κ) : ℤ := (l.map fun r => if r.1 = k then r.2 else 0).sum

@[simp] theorem total_nil (k : κ) : total [] k = 0 := rfl

@[simp] theorem total_cons (r : κ × ℤ) (l : List (κ × ℤ)) (k : κ) :
    total (r :: l) k = (if r.1 = k then r.2 else 0) + total l k := rfl

@[simp] theorem total_append (l l' : List (κ × ℤ)) (k : κ) :
    total (l ++ l') k = total l k + total l' k := by
  simp [total]

/-- A part of a log that is cut out by its keys adds up to the totals of these keys. -/
theorem sum_eq_sum_total {l : List (κ × ℤ)} {keys : Finset κ} (hkeys : ∀ r ∈ l, r.1 ∈ keys)
    (p : κ → Prop) [DecidablePred p] :
    (l.map fun r => if p r.1 then r.2 else 0).sum =
      ∑ k ∈ keys, if p k then total l k else 0 := by
  induction l with
  | nil => simp
  | cons r rest ih =>
    have hr : r.1 ∈ keys := hkeys r List.mem_cons_self
    have hrest := ih fun r' hr' => hkeys r' (List.mem_cons_of_mem _ hr')
    have hsplit (k : κ) : (if p k then total (r :: rest) k else 0) =
        (if r.1 = k then if p k then r.2 else 0 else 0) + if p k then total rest k else 0 := by
      rw [total_cons]
      split <;> split <;> simp
    rw [List.map_cons, List.sum_cons, hrest, Finset.sum_congr rfl fun k _ => hsplit k,
      Finset.sum_add_distrib, Finset.sum_ite_eq, if_pos hr]

/-- A part of a log that is cut out by its keys adds up to zero if each of these keys does. -/
theorem sum_eq_zero_of_totals {l : List (κ × ℤ)} (p : κ → Prop) [DecidablePred p]
    (h : ∀ k, p k → total l k = 0) : (l.map fun r => if p r.1 then r.2 else 0).sum = 0 := by
  have hkeys : ∀ r ∈ l, r.1 ∈ (l.map Prod.fst).toFinset := fun r hr =>
    List.mem_toFinset.mpr (List.mem_map_of_mem hr)
  rw [sum_eq_sum_total hkeys p]
  refine Finset.sum_eq_zero fun k _ => ?_
  split
  · next hk => exact h k hk
  · rfl

/-- Add to the sum of a key. -/
def Table.add (t : Table κ ℤ) (r : κ × ℤ) : Table κ ℤ := t.upsert r.1 ((t.find? r.1).getD 0 + r.2)

/-- The dictionary of the sums of a log. -/
def tally (l : List (κ × ℤ)) : Table κ ℤ := l.foldl Table.add .empty

theorem find?_foldl_add (l : List (κ × ℤ)) (t : Table κ ℤ) (k : κ) :
    ((l.foldl Table.add t).find? k).getD 0 = (t.find? k).getD 0 + total l k := by
  induction l generalizing t with
  | nil => rw [List.foldl_nil, total_nil, add_zero]
  | cons r rest ih =>
    rw [List.foldl_cons, ih, total_cons, Table.add, Table.find?_upsert]
    by_cases h : k = r.1
    · subst h
      rw [if_pos rfl, if_pos rfl, Option.getD_some, add_assoc]
    · rw [if_neg h, if_neg (Ne.symm h), zero_add]

theorem find?_tally (l : List (κ × ℤ)) (k : κ) : ((tally l).find? k).getD 0 = total l k := by
  rw [tally, find?_foldl_add, Table.find?_empty, Option.getD_none, zero_add]

/-- The non-zero sums of a log, in the order of the keys. -/
def groupSum (l : List (κ × ℤ)) : List (κ × ℤ) := (tally l).sorted.filter fun r => r.2 ≠ 0

theorem mem_groupSum {l : List (κ × ℤ)} {r : κ × ℤ} :
    r ∈ groupSum l ↔ r.2 ≠ 0 ∧ total l r.1 = r.2 := by
  have hfind := find?_tally l r.1
  rw [groupSum, List.mem_filter, Table.mem_sorted, decide_eq_true_eq]
  constructor
  · rintro ⟨hsome, hne⟩
    rw [hsome, Option.getD_some] at hfind
    exact ⟨hne, hfind.symm⟩
  · rintro ⟨hne, htotal⟩
    refine ⟨?_, hne⟩
    -- a key with a non-zero sum has been added to
    cases hrow : (tally l).find? r.1 with
    | none =>
      rw [hrow, Option.getD_none, htotal] at hfind
      exact absurd hfind.symm hne
    | some n =>
      rw [hrow, Option.getD_some, htotal] at hfind
      rw [hfind]

theorem groupSum_pairwise (l : List (κ × ℤ)) : KeysIncrease (groupSum l) :=
  (tally l).sorted_pairwise.sublist List.filter_sublist

/-- The non-zero sums of two logs are listed alike iff the totals agree. -/
theorem groupSum_eq_iff {l l' : List (κ × ℤ)} :
    groupSum l = groupSum l' ↔ ∀ k, total l k = total l' k := by
  constructor
  · intro h k
    have hmem (n : ℤ) : (n ≠ 0 ∧ total l k = n) ↔ (n ≠ 0 ∧ total l' k = n) := by
      rw [← mem_groupSum (r := (k, n)), h, mem_groupSum]
    by_cases hzero : total l k = 0
    · by_contra hne
      have hne' : total l' k ≠ 0 := fun hzero' => hne (hzero.trans hzero'.symm)
      exact hne ((hmem _).mpr ⟨hne', rfl⟩).2
    · exact (((hmem _).mp ⟨hzero, rfl⟩).2).symm
  · intro h
    refine (groupSum_pairwise l).eq_of_mem_iff (groupSum_pairwise l') fun r => ?_
    rw [mem_groupSum, mem_groupSum, h]

theorem total_eq_zero {l : List (κ × ℤ)} {k : κ} (h : ∀ r ∈ l, r.1 ≠ k) : total l k = 0 :=
  List.sum_eq_zero fun n hn => by
    obtain ⟨r, hr, rfl⟩ := List.mem_map.mp hn
    exact if_neg (h r hr)

theorem total_of_mem {l : List (κ × ℤ)} (hkeys : KeysIncrease l) {r : κ × ℤ} (hr : r ∈ l) :
    total l r.1 = r.2 := by
  induction l with
  | nil => cases hr
  | cons r' rest ih =>
    obtain ⟨hhead, hrest⟩ := List.pairwise_cons.mp hkeys
    rw [total_cons]
    rcases List.mem_cons.mp hr with rfl | hmem
    · -- the key is smaller than all later ones
      rw [if_pos rfl, total_eq_zero fun r₁ hr₁ => (hhead r₁ hr₁).ne', add_zero]
    · rw [if_neg (hhead r hmem).ne, zero_add, ih hrest hmem]

/-- A list of non-zero sums under increasing keys is its own listing. -/
theorem groupSum_self {l : List (κ × ℤ)} (hkeys : KeysIncrease l) (hne : ∀ r ∈ l, r.2 ≠ 0) :
    groupSum l = l := by
  refine (groupSum_pairwise l).eq_of_mem_iff hkeys fun r => ?_
  rw [mem_groupSum]
  constructor
  · rintro ⟨hr, htotal⟩
    by_contra hmem
    have hkey : ∃ r' ∈ l, r'.1 = r.1 := by
      by_contra hnone
      push Not at hnone
      rw [total_eq_zero hnone] at htotal
      exact hr htotal.symm
    obtain ⟨r', hr', hkey⟩ := hkey
    have heq := total_of_mem hkeys hr'
    rw [hkey, htotal] at heq
    exact hmem (Prod.ext hkey.symm heq ▸ hr')
  · intro hr
    exact ⟨hne r hr, total_of_mem hkeys hr⟩

end Sql
