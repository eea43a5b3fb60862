import Mathlib.Algebra.Order.Floor.Ring
import Mathlib.Data.Rat.Floor
import Mathlib.Tactic.Linarith

/-!
# Rounding of exact numbers

`roundEven` is the nearest integer of a rational number, the even one of two that are as near, and
`roundAway` the one further from zero. All that is used of the two is that they keep integers, that
`roundEven` is within one half, and that `roundAway` is monotone (`roundAway_mono`).
-/

namespace Rounding

/-- The nearest integer, ties to the even one. -/
def roundEven (value : ℚ) : ℤ :=
  let below := ⌊value⌋
  let rest := value - below
  if rest < 1 / 2 ∨ rest = 1 / 2 ∧ below % 2 = 0 then below else below + 1

theorem roundEven_le (value : ℚ) : (roundEven value : ℚ) ≤ value + 1 / 2 := by
  have hbelow := Int.floor_le value
  unfold roundEven
  dsimp only
  split
  · linarith
  · rename_i hfar
    have hrest : 1 / 2 ≤ value - ⌊value⌋ := not_lt.mp fun h => hfar (.inl h)
    push_cast
    linarith

theorem le_roundEven (value : ℚ) : value - 1 / 2 ≤ (roundEven value : ℚ) := by
  have habove := Int.lt_floor_add_one value
  unfold roundEven
  dsimp only
  split
  · rename_i hnear
    have hrest : value - ⌊value⌋ ≤ 1 / 2 := by
      rcases hnear with hlt | ⟨heq, -⟩
      · exact hlt.le
      · exact heq.le
    linarith
  · push_cast
    linarith

theorem roundEven_intCast (n : ℤ) : roundEven (n : ℚ) = n := by
  unfold roundEven
  dsimp only
  rw [Int.floor_intCast, sub_self, if_pos (.inl (by norm_num))]

theorem roundEven_nonneg {value : ℚ} (h : 0 ≤ value) : 0 ≤ roundEven value := by
  have hfloor := Int.floor_nonneg.mpr h
  unfold roundEven
  dsimp only
  split
  · exact hfloor
  · omega

/-! ## Ties away from zero -/

/-- The nearest integer, ties away from zero. -/
def roundAway (value : ℚ) : ℤ :=
  if 0 ≤ value then ⌊value + 1 / 2⌋ else -⌊-value + 1 / 2⌋

theorem roundAway_intCast (n : ℤ) : roundAway (n : ℚ) = n := by
  have hfloor : ∀ m : ℤ, ⌊(m : ℚ) + 1 / 2⌋ = m := by
    intro m
    rw [Int.floor_intCast_add, Int.floor_eq_zero_iff.mpr (by norm_num), add_zero]
  unfold roundAway
  split
  · exact hfloor n
  · rw [← Int.cast_neg, hfloor (-n), neg_neg]

theorem roundAway_mono {a b : ℚ} (h : a ≤ b) : roundAway a ≤ roundAway b := by
  unfold roundAway
  by_cases ha : 0 ≤ a
  · rw [if_pos ha, if_pos (ha.trans h)]
    exact Int.floor_le_floor (by linarith)
  · have hnonneg : 0 ≤ ⌊-a + 1 / 2⌋ := Int.floor_nonneg.mpr (by linarith [not_le.mp ha])
    rw [if_neg ha]
    by_cases hb : 0 ≤ b
    · have hfloor : 0 ≤ ⌊b + 1 / 2⌋ := Int.floor_nonneg.mpr (by linarith)
      rw [if_pos hb]
      omega
    · have hfloor : ⌊-b + 1 / 2⌋ ≤ ⌊-a + 1 / 2⌋ := Int.floor_le_floor (by linarith)
      rw [if_neg hb]
      omega

end Rounding
