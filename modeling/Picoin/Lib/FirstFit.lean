import Mathlib.Data.List.Sort

/-!
# The first that fits, in an order

A search sorts a window of the items and takes the first that fits. It answers for all items exactly
when a least of those that fit lies in the window.

* **`IsLeast`** — no item that fits comes before it;
* **`Answers`** — the least of the items that fit, or none where nothing fits;
* **`answers_window_iff`** — when the search in a window answers for all items.
-/

namespace FirstFit

universe u

variable {α : Type u} (r : α → α → Prop) (fits : α → Bool)

/-- The item fits, and comes before all that fit. -/
structure IsLeast (items : List α) (a : α) : Prop where
  mem : a ∈ items
  fit : fits a = true
  least : ∀ b ∈ items, fits b = true → r a b

/-- The answer of a search among the items. -/
def Answers (items : List α) : Option α → Prop
  | none => ∀ a ∈ items, fits a = false
  | some a => IsLeast r fits items a

variable {r fits}

theorem IsLeast.of_before [IsTrans α r] {items : List α} {a b : α} (h : IsLeast r fits items a)
    (hmem : b ∈ items) (hfits : fits b = true) (hbefore : r b a) : IsLeast r fits items b where
  mem := hmem
  fit := hfits
  least c hc hfit := IsTrans.trans _ _ _ hbefore (h.least c hc hfit)

variable [DecidableRel r]

/-- The first that fits of a sorted list comes before the others that fit. -/
theorem isLeast_of_find? [Std.Total r] [IsTrans α r] {items : List α} {a : α}
    (h : (items.insertionSort r).find? fits = some a) : IsLeast r fits items a := by
  obtain ⟨hfits, before, after, hsplit, hskipped⟩ := List.find?_eq_some_iff_append.mp h
  have hsorted : (before ++ a :: after).Pairwise r := hsplit ▸ List.pairwise_insertionSort r items
  have hmem : ∀ {b : α}, b ∈ items ↔ b ∈ before ++ a :: after := fun {b} => by
    rw [← hsplit, List.mem_insertionSort]
  refine ⟨hmem.mpr (by simp), hfits, fun b hb hfit => ?_⟩
  rcases List.mem_append.mp (hmem.mp hb) with hbefore | hafter
  · -- what stands before the first that fits does not fit
    have hnot := hskipped b hbefore
    simp [hfit] at hnot
  · rcases List.mem_cons.mp hafter with rfl | hlater
    · exact (Std.Total.total b b).elim id id
    · exact List.rel_of_pairwise_cons (List.pairwise_append.mp hsorted).2.1 hlater

/-- The search in a window answers for all items where nothing fits, or a least one lies in the
window, and nowhere else. -/
theorem answers_window_iff [Std.Total r] [IsTrans α r] {items window : List α}
    (hwindow : window ⊆ items) :
    Answers r fits items ((window.insertionSort r).find? fits) ↔
      (∀ a ∈ items, fits a = false) ∨ ∃ a ∈ window, IsLeast r fits items a := by
  constructor
  · intro h
    cases hfound : (window.insertionSort r).find? fits with
    | none =>
      rw [hfound] at h
      exact .inl h
    | some a =>
      rw [hfound] at h
      exact .inr ⟨a, (isLeast_of_find? hfound).mem, h⟩
  · rintro (hnone | ⟨a, ha, hleast⟩)
    · have hfound : (window.insertionSort r).find? fits = none := by
        rw [List.find?_eq_none]
        intro b hb
        rw [hnone b (hwindow ((List.mem_insertionSort r).mp hb))]
        exact Bool.false_ne_true
      rw [hfound]
      exact hnone
    · cases hfound : (window.insertionSort r).find? fits with
      | none =>
        have hnot := List.find?_eq_none.mp hfound a ((List.mem_insertionSort r).mpr ha)
        exact absurd hleast.fit hnot
      | some b =>
        have hb := isLeast_of_find? hfound
        exact hleast.of_before (hwindow hb.mem) hb.fit (hb.least a ha hleast.fit)

end FirstFit
