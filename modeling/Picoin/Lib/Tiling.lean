import Mathlib.Data.Int.Order.Basic
import Mathlib.Data.List.Sort
import Mathlib.Data.List.Pairwise

/-!
# Tilings of a range

A list of items with a first and a last position tiles a range when the items are not empty, the
first one starts the range, each one starts right after the last position of the one before, and the
last one ends the range.

* **`Tiles`** — the tilings, along the list;
* **`Tiles.pairwise_lt`** — the items stand in order, apart from each other;
* **`Tiles.insertionSort_of_perm`** — sorting by the first position restores a tiling;
* **`Tiles.flatten_pieces`** — the pieces of a list along a tiling are the list.
-/

namespace Tiling

universe u v

variable {β : Type u} (start stop : β → ℤ)

/-- The items tile the positions from the first number to before the second. -/
inductive Tiles : ℤ → ℤ → List β → Prop
  | nil (a : ℤ) : Tiles a a []
  | cons {item : β} {rest : List β} {b : ℤ} (hle : start item ≤ stop item)
      (htail : Tiles (stop item + 1) b rest) : Tiles (start item) b (item :: rest)

variable {start stop} {a b : ℤ} {l : List β}

theorem Tiles.le (h : Tiles start stop a b l) : a ≤ b := by
  induction h with
  | nil a => exact le_refl a
  | cons hle _ ih => omega

/-- An item lies in the range. -/
theorem Tiles.bounds (h : Tiles start stop a b l) {item : β} (hitem : item ∈ l) :
    a ≤ start item ∧ start item ≤ stop item ∧ stop item < b := by
  induction h with
  | nil a => cases hitem
  | @cons first rest b hle htail ih =>
    rcases List.mem_cons.mp hitem with rfl | hitem
    · have hend := htail.le
      omega
    · have hrest := ih hitem
      omega

/-- An item ends before the later ones start. -/
theorem Tiles.pairwise_lt (h : Tiles start stop a b l) :
    l.Pairwise fun x y => stop x < start y := by
  induction h with
  | nil a => exact List.Pairwise.nil
  | cons hle htail ih =>
    refine List.pairwise_cons.mpr ⟨fun later hlater => ?_, ih⟩
    have hbounds := htail.bounds hlater
    omega

/-- A tiling by the images of items. -/
theorem tiles_map {γ : Type v} (f : γ → β) {items : List γ} :
    Tiles start stop a b (items.map f) ↔
      Tiles (fun x => start (f x)) (fun x => stop (f x)) a b items := by
  induction items generalizing a with
  | nil =>
    constructor <;> intro h <;> cases h <;> exact .nil _
  | cons item rest ih =>
    constructor
    · intro h
      cases h with
      | cons hle htail => exact .cons hle (ih.mp htail)
    · intro h
      cases h with
      | cons hle htail => exact .cons hle (ih.mpr htail)

/-- Sorting by the first position gives the tiling back. -/
theorem Tiles.insertionSort_of_perm (h : Tiles start stop a b l) {items : List β}
    (hperm : items.Perm l) : (items.insertionSort fun x y => start x ≤ start y) = l := by
  have hless : l.Pairwise fun x y => start x < start y := by
    refine h.pairwise_lt.imp_of_mem fun {x y} hx _ hxy => ?_
    have hbounds := h.bounds hx
    omega
  -- two items of the tiling with one first position are one item
  have hinj : ∀ x ∈ l, ∀ y ∈ l, start x = start y → x = y := by
    intro x hx y hy hsame
    by_contra hne
    have happart : l.Pairwise fun x y => start x ≠ start y := hless.imp fun hlt => hlt.ne
    have : Std.Symm fun x y : β => start x ≠ start y := ⟨fun _ _ hxy => hxy.symm⟩
    exact happart.forall hx hy hne hsame
  have : IsTrans β fun x y => start x ≤ start y := ⟨fun _ _ _ => le_trans⟩
  have : Std.Total fun x y : β => start x ≤ start y := ⟨fun _ _ => le_total _ _⟩
  refine List.Perm.eq_of_pairwise (fun x y hx hy hxy hyx => ?_) (List.pairwise_insertionSort _ _)
    (hless.imp fun hlt => hlt.le) ((List.perm_insertionSort _ _).trans hperm)
  exact hinj x (hperm.mem_iff.mp ((List.mem_insertionSort _).mp hx)) y hy (le_antisymm hxy hyx)

/-! ## Pieces -/

variable {α : Type v}

/-- The part of a list, whose first element stands at `a`, that an item covers. -/
def piece (start stop : β → ℤ) (a : ℤ) (text : List α) (item : β) : List α :=
  (text.drop (start item - a).toNat).take (stop item - start item + 1).toNat

theorem Tiles.length_piece (h : Tiles start stop a b l) {text : List α}
    (hlength : (text.length : ℤ) = b - a) {item : β} (hitem : item ∈ l) :
    ((piece start stop a text item).length : ℤ) = stop item - start item + 1 := by
  have hbounds := h.bounds hitem
  unfold piece
  rw [List.length_take, List.length_drop]
  omega

/-- The pieces of a text along a tiling are the text, from where the tiling starts. -/
theorem Tiles.flatten_pieces_from (h : Tiles start stop a b l) {origin : ℤ} (horigin : origin ≤ a)
    {text : List α} (hlength : (text.length : ℤ) = b - origin) :
    (l.map (piece start stop origin text)).flatten = text.drop (a - origin).toNat := by
  induction h with
  | nil a =>
    have hall : text.length ≤ (a - origin).toNat := by omega
    rw [List.map_nil, List.flatten_nil, List.drop_of_length_le hall]
  | @cons first rest b hle htail ih =>
    rw [List.map_cons, List.flatten_cons, ih (by omega) hlength, piece]
    have hnext : (stop first + 1 - origin).toNat =
        (start first - origin).toNat + (stop first - start first + 1).toNat := by omega
    rw [hnext, ← List.drop_drop]
    exact List.take_append_drop _ _

theorem Tiles.flatten_pieces (h : Tiles start stop a b l) {text : List α}
    (hlength : (text.length : ℤ) = b - a) : (l.map (piece start stop a text)).flatten = text := by
  rw [h.flatten_pieces_from (le_refl a) hlength, Int.sub_self]
  rfl

end Tiling
