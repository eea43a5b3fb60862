import Mathlib.Tactic.Abel
import Picoin.Lib.Table

/-!
# Tables as dictionaries

A loop that looks up a key, changes what it finds and stores it under the key again.

* **`find?_foldl_upsert`** — each key has what the items of that key make of its row;
* **`forall_foldl_upsert`** — what each of them keeps holds of all rows;
* **`filter_rows_perm`** — two tables with the same rows under their keys, in any order.
-/

namespace Sql

namespace Table

universe u v w
variable {κ : Type u} {ρ : Type v} {ι : Type w} [DecidableEq κ]

theorem find?_foldl_upsert (key : ι → κ) (f : ι → Option ρ → ρ) (k : κ) :
    ∀ (items : List ι) (t : Table κ ρ),
      (items.foldl (fun t i => t.upsert (key i) (f i (t.find? (key i)))) t).find? k =
        (items.filter fun i => key i = k).foldl (fun row i => some (f i row)) (t.find? k)
  | [], _ => rfl
  | i :: items, t => by
    rw [List.foldl_cons, find?_foldl_upsert key f k items, find?_upsert]
    by_cases hk : key i = k
    · rw [if_pos hk.symm, List.filter_cons, if_pos (decide_eq_true hk), List.foldl_cons, hk]
    · rw [if_neg (Ne.symm hk), List.filter_cons, if_neg (by simpa using hk)]

theorem forall_foldl_upsert (P : κ → ρ → Prop) (key : ι → κ) (f : ι → Option ρ → ρ) :
    ∀ (items : List ι) (t : Table κ ρ),
      (∀ i ∈ items, ∀ row, (∀ x, row = some x → P (key i) x) → P (key i) (f i row)) →
      (∀ k x, t.find? k = some x → P k x) → ∀ k x,
        (items.foldl (fun t i => t.upsert (key i) (f i (t.find? (key i)))) t).find? k = some x → P k x
  | [], _, _, ht => ht
  | i :: items, t, hf, ht => by
    refine forall_foldl_upsert P key f items _ (fun j hj => hf j (List.mem_cons_of_mem _ hj))
      fun k x hrow => ?_
    rw [find?_upsert] at hrow
    split at hrow
    · rename_i hk
      rw [hk, ← Option.some.inj hrow]
      exact hf i List.mem_cons_self _ fun y hy => ht _ _ hy
    · exact ht k x hrow

omit [DecidableEq κ] in
theorem nodup_rows (t : Table κ ρ) : t.rows.Nodup := List.Nodup.of_map _ t.nodup

/-- The rows that a condition selects, in any order. -/
theorem filter_rows_perm {t t' : Table κ ρ} {p : ρ → Bool}
    (h : ∀ k, (t.find? k).filter p = (t'.find? k).filter p) :
    (t.rows.filter fun r => p r.2).Perm (t'.rows.filter fun r => p r.2) := by
  have hmem : ∀ (t : Table κ ρ) (r : κ × ρ),
      r ∈ t.rows.filter (fun r => p r.2) ↔ (t.find? r.1).filter p = some r.2 := fun t r => by
    rw [List.mem_filter, Option.filter_eq_some_iff]
    exact and_congr_left fun _ => find?_eq_some_iff.symm
  refine (List.perm_ext_iff_of_nodup (t.nodup_rows.filter _) (t'.nodup_rows.filter _)).mpr fun r => ?_
  rw [hmem, hmem, h]

theorem rows_perm {t t' : Table κ ρ} (h : ∀ k, t.find? k = t'.find? k) : t.rows.Perm t'.rows := by
  have hperm := filter_rows_perm (p := fun _ => true) fun k => congrArg (Option.filter _) (h k)
  simpa using hperm

/-- The rows under a key. -/
theorem filter_rows_eq (t : Table κ ρ) (k : κ) :
    (t.rows.filter fun r => r.1 = k) = (t.find? k).toList.map fun x => (k, x) := by
  have hrows : ∀ l : List (κ × ρ), (l.map Prod.fst).Nodup →
      (l.filter fun r => r.1 = k) = (l.lookup k).toList.map fun x => (k, x) := by
    intro l hl
    induction l with
    | nil => rfl
    | cons r rest ih =>
      obtain ⟨k', x⟩ := r
      rw [List.map_cons, List.nodup_cons] at hl
      by_cases hk : k' = k
      · subst hk
        rw [List.filter_cons, if_pos (decide_eq_true rfl), ih hl.2, lookup_eq_none_iff.mpr hl.1,
          List.lookup_cons_self]
        rfl
      · rw [List.filter_cons, if_neg (by simpa using hk), ih hl.2, lookup_cons_ne (Ne.symm hk)]
  exact hrows t.rows t.nodup

/-- An upsert changes the sum of a column by the new value less the replaced one. -/
theorem sum_map_upsert {M : Type*} [AddCommGroup M] (t : Table κ ρ) (f : ρ → M) (k : κ) (x : ρ) :
    ((t.upsert k x).rows.map fun r => f r.2).sum =
      (t.rows.map fun r => f r.2).sum + f x - ((t.find? k).map f).getD 0 := by
  have hrows : ∀ l : List (κ × ρ), ((upsertRows k x l).map fun r => f r.2).sum =
      (l.map fun r => f r.2).sum + f x - ((l.lookup k).map f).getD 0 := by
    intro l
    induction l with
    | nil => simp [upsertRows]
    | cons r rest ih =>
      obtain ⟨k', y⟩ := r
      by_cases h : k' = k
      · subst h
        simp only [upsertRows, if_true, List.map_cons, List.sum_cons, List.lookup_cons_self,
          Option.map_some, Option.getD_some]
        abel
      · rw [upsertRows, if_neg h, lookup_cons_ne (Ne.symm h)]
        simp only [List.map_cons, List.sum_cons, ih]
        abel
  exact hrows t.rows

end Table

end Sql
