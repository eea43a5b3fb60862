import Mathlib.Analysis.SpecialFunctions.Complex.Arctan

/-!
# The series of Gregory

`partialSum x n` are the first `n` terms of `1/x - 1/(3 x ^ 3) + 1/(5 x ^ 5) - …`, the arctangent of
`1/x`. The terms alternate and shrink, so that a partial sum is off by at most the first term that is
left out (`abs_partialSum_sub_le`).
-/

namespace Gregory

/-- The size of a term. -/
def term (x : ℚ) (k : ℕ) : ℚ := ((2 * k + 1) * x ^ (2 * k + 1))⁻¹

/-- The sum of the first terms. -/
def partialSum (x : ℚ) (n : ℕ) : ℚ := ∑ k ∈ Finset.range n, (-1) ^ k * term x k

theorem partialSum_succ (x : ℚ) (n : ℕ) :
    partialSum x (n + 1) = partialSum x n + (-1) ^ n * term x n :=
  Finset.sum_range_succ _ n

variable {x : ℚ}

theorem term_pos (hx : 0 < x) (k : ℕ) : 0 < term x k := by
  unfold term
  positivity

/-- A term is at most the inverse of the power alone. -/
theorem term_le (hx : 0 < x) (k : ℕ) : term x k ≤ (x ^ (2 * k + 1))⁻¹ := by
  have hpow := pow_pos hx (2 * k + 1)
  have hindex : (1 : ℚ) ≤ 2 * k + 1 := by
    have := Nat.cast_nonneg (α := ℚ) k
    linarith
  exact inv_anti₀ hpow (le_mul_of_one_le_left hpow.le hindex)

theorem term_succ_le (hx : 1 ≤ x) (k : ℕ) : term x (k + 1) ≤ term x k := by
  have hpow : x ^ (2 * k + 1) ≤ x ^ (2 * (k + 1) + 1) := pow_le_pow_right₀ hx (by omega)
  have hpos : 0 < x ^ (2 * k + 1) := pow_pos (by linarith) _
  have hindex : (2 * k + 1 : ℚ) ≤ 2 * ((k + 1 : ℕ) : ℚ) + 1 := by
    push_cast
    linarith
  have hcast := Nat.cast_nonneg (α := ℚ) k
  exact inv_anti₀ (by positivity) (mul_le_mul hindex hpow hpos.le (by positivity))

/-- A partial sum is off by at most the next term. -/
theorem abs_partialSum_sub_le (hx : 1 < x) (n : ℕ) :
    |(partialSum x n : ℝ) - Real.arctan (x : ℝ)⁻¹| ≤ term x n := by
  have hone : (1 : ℝ) < x := by exact_mod_cast hx
  have hinv : ‖(x : ℝ)⁻¹‖ < 1 := by
    rw [Real.norm_of_nonneg (by positivity)]
    exact inv_lt_one_of_one_lt₀ hone
  -- the terms of the series of the arctangent at the inverse
  have hterm : ∀ k, ((term x k : ℚ) : ℝ) = (x : ℝ)⁻¹ ^ (2 * k + 1) / ((2 * k + 1 : ℕ) : ℝ) := by
    intro k
    unfold term
    push_cast
    rw [inv_pow, mul_inv, div_eq_mul_inv, mul_comm]
  have hsum : HasSum (fun k : ℕ => (-1 : ℝ) ^ k * (term x k : ℝ)) (Real.arctan (x : ℝ)⁻¹) := by
    convert Real.hasSum_arctan hinv using 2 with k
    rw [hterm, mul_div_assoc]
  have hanti : Antitone fun k : ℕ => ((term x k : ℚ) : ℝ) :=
    antitone_nat_of_succ_le fun k => by exact_mod_cast term_succ_le hx.le k
  have hsummable : Summable fun k : ℕ => ((term x k : ℚ) : ℝ) := by
    refine Summable.of_nonneg_of_le (fun k => by exact_mod_cast (term_pos (by linarith) k).le)
      (fun k => ?_) (summable_geometric_of_lt_one (inv_nonneg.mpr (by linarith))
        (inv_lt_one_of_one_lt₀ hone))
    have hle : ((term x k : ℚ) : ℝ) ≤ ((x : ℝ) ^ (2 * k + 1))⁻¹ := by
      exact_mod_cast term_le (by linarith) k
    rw [← inv_pow] at hle
    exact hle.trans (pow_le_pow_of_le_one (by positivity) (inv_lt_one_of_one_lt₀ hone).le (by omega))
  have hbound := alternating_series_error_bound _ hanti hsummable n
  rw [hsum.tsum_eq, abs_sub_comm] at hbound
  unfold partialSum
  push_cast
  exact hbound

/-- A term is small where the argument is not. -/
theorem term_le_fifth (hx : 5 ≤ x) (k : ℕ) : ((term x k : ℚ) : ℝ) ≤ 1 / 5 := by
  have hterm : term x k ≤ 1 / 5 := by
    refine (term_le (by linarith) k).trans ?_
    rw [one_div]
    exact inv_anti₀ (by norm_num) (hx.trans (le_self_pow₀ (by linarith) (by omega)))
  have hcast := (Rat.cast_le (K := ℝ)).mpr hterm
  push_cast at hcast
  exact hcast

/-- The partial sums are small, as no sum and one are near the same number. -/
theorem abs_partialSum_le (hx : 5 ≤ x) (n : ℕ) : |partialSum x n| ≤ 2 / 5 := by
  have hsum := abs_le.mp (abs_partialSum_sub_le (by linarith) n)
  have hzero := abs_le.mp (abs_partialSum_sub_le (by linarith : 1 < x) 0)
  have hnone : ((partialSum x 0 : ℚ) : ℝ) = 0 := by simp [partialSum]
  rw [hnone] at hzero
  have hterm := term_le_fifth hx n
  have hfirst := term_le_fifth hx 0
  have hcast : |((partialSum x n : ℚ) : ℝ)| ≤ ((2 / 5 : ℚ) : ℝ) := by
    push_cast
    rw [abs_le]
    constructor
    · linarith [hsum.1, hzero.2]
    · linarith [hsum.2, hzero.1]
  rw [← Rat.cast_abs] at hcast
  exact Rat.cast_le.mp hcast

end Gregory
