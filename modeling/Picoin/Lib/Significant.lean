import Mathlib.Algebra.Order.Ring.Pow
import Mathlib.Data.Int.Log
import Mathlib.Tactic.Linarith
import Mathlib.Tactic.Positivity
import Mathlib.Tactic.Ring
import Picoin.Lib.Rounding

/-!
# Numbers of a fixed number of significant digits

`roundTo p q` is the number of `p` significant decimal digits nearest to `q`, with an even last digit
of two that are as near. A calculation in such numbers is exact arithmetic with one rounding after
each operation, and all that its analysis uses of a rounding is its relative error:

* **`abs_roundTo_sub_le`** — a rounding is off by at most `unitError p` of the number rounded;
* **`Near n x y`** — `x` is `y` up to the errors of `n` roundings. `Near` is closed under products,
  quotients and roundings (`Near.mul`, `Near.div`, `Near.round`), which add the counts.
-/

namespace Significant

/-- The number of `p` significant digits nearest to `q`, ties to an even last digit. -/
def roundTo (p : ℕ) (q : ℚ) : ℚ :=
  let unit : ℚ := 10 ^ (Int.log 10 |q| + 1 - p)
  Rounding.roundEven (q / unit) * unit

/-- Half a unit of the last of `p` digits, against the number itself. -/
def unitError (p : ℕ) : ℚ := 5 / 10 ^ p

theorem unitError_pos (p : ℕ) : 0 < unitError p := by
  unfold unitError
  positivity

theorem unitError_le {k p : ℕ} (h : k ≤ p) : unitError p ≤ unitError k :=
  div_le_div_of_nonneg_left (by norm_num) (by positivity) (pow_le_pow_right₀ (by norm_num) h)

/-- A rounding is off by at most the unit error. -/
theorem abs_roundTo_sub_le (p : ℕ) (q : ℚ) : |roundTo p q - q| ≤ unitError p * |q| := by
  rcases eq_or_ne q 0 with rfl | hq
  · simp [roundTo, show Rounding.roundEven 0 = 0 from Rounding.roundEven_intCast 0]
  · have hlog : (10 : ℚ) ^ Int.log 10 |q| ≤ |q| := by
      exact_mod_cast Int.zpow_log_le_self (b := 10) (by norm_num) (abs_pos.mpr hq)
    set unit : ℚ := 10 ^ (Int.log 10 |q| + 1 - p) with hunit
    have hpos : 0 < unit := zpow_pos (by norm_num) _
    -- the rounded quotient is within one half
    have hnear : |(Rounding.roundEven (q / unit) : ℚ) - q / unit| ≤ 1 / 2 := by
      rw [abs_le]
      constructor
      · linarith [Rounding.le_roundEven (q / unit)]
      · linarith [Rounding.roundEven_le (q / unit)]
    have hscale : unit / 2 = unitError p * 10 ^ Int.log 10 |q| := by
      rw [hunit, zpow_sub₀ (by norm_num), zpow_add₀ (by norm_num), zpow_one, zpow_natCast]
      unfold unitError
      ring
    calc |roundTo p q - q|
        = |(Rounding.roundEven (q / unit) : ℚ) - q / unit| * unit := by
          rw [← abs_of_pos hpos, ← abs_mul, abs_of_pos hpos, sub_mul, div_mul_cancel₀ q hpos.ne']
          rfl
      _ ≤ 1 / 2 * unit := mul_le_mul_of_nonneg_right hnear hpos.le
      _ = unit / 2 := by ring
      _ = unitError p * 10 ^ Int.log 10 |q| := hscale
      _ ≤ unitError p * |q| := mul_le_mul_of_nonneg_left hlog (unitError_pos p).le

/-! ## Relative errors -/

/-- The spread of one rounding: a factor between its inverse and itself. -/
def spread (p : ℕ) : ℚ := 1 / (1 - unitError p)

variable {p : ℕ}

theorem unitError_lt_one (hp : 1 ≤ p) : unitError p < 1 :=
  (unitError_le hp).trans_lt (by norm_num [unitError])

theorem one_lt_spread (hp : 1 ≤ p) : 1 < spread p := by
  unfold spread
  rw [lt_div_iff₀ (by linarith [unitError_lt_one hp])]
  linarith [unitError_pos p]

theorem spread_pos (hp : 1 ≤ p) : 0 < spread p := one_pos.trans (one_lt_spread hp)

/-- `x` is the positive `y` up to the errors of `n` roundings. -/
structure Near (p n : ℕ) (x y : ℚ) : Prop where
  pos : 0 < y
  lower : y / spread p ^ n ≤ x
  upper : x ≤ y * spread p ^ n

variable {n m : ℕ} {x y x' y' : ℚ}

theorem Near.refl (hy : 0 < y) : Near p 0 y y :=
  ⟨hy, by simp, by simp⟩

theorem Near.pos_left (hp : 1 ≤ p) (h : Near p n x y) : 0 < x :=
  (div_pos h.pos (pow_pos (spread_pos hp) n)).trans_le h.lower

theorem Near.mul (hp : 1 ≤ p) (h : Near p n x y) (h' : Near p m x' y') :
    Near p (n + m) (x * x') (y * y') where
  pos := mul_pos h.pos h'.pos
  lower := by
    rw [pow_add, mul_div_mul_comm]
    exact mul_le_mul h.lower h'.lower (div_pos h'.pos (pow_pos (spread_pos hp) m)).le
      (h.pos_left hp).le
  upper := by
    rw [pow_add, mul_mul_mul_comm]
    exact mul_le_mul h.upper h'.upper (h'.pos_left hp).le
      (mul_pos h.pos (pow_pos (spread_pos hp) n)).le

theorem Near.inv (hp : 1 ≤ p) (h : Near p n x y) : Near p n x⁻¹ y⁻¹ where
  pos := inv_pos.mpr h.pos
  lower := by
    rw [div_eq_mul_inv, ← mul_inv]
    exact inv_anti₀ (h.pos_left hp) h.upper
  upper := by
    have hpow := pow_pos (spread_pos hp) n
    calc x⁻¹ ≤ (y / spread p ^ n)⁻¹ := inv_anti₀ (div_pos h.pos hpow) h.lower
      _ = y⁻¹ * spread p ^ n := by rw [inv_div, div_eq_mul_inv, mul_comm]

theorem Near.round (hp : 1 ≤ p) (h : Near p n x y) : Near p (n + 1) (roundTo p x) y where
  pos := h.pos
  lower := by
    have hx := h.pos_left hp
    have hpow := pow_pos (spread_pos hp) n
    have hround := abs_le.mp (abs_roundTo_sub_le p x)
    rw [abs_of_pos hx] at hround
    calc y / spread p ^ (n + 1) = y / spread p ^ n / spread p := by rw [pow_succ, div_div]
      _ ≤ x / spread p := div_le_div_of_nonneg_right h.lower (spread_pos hp).le
      _ = x - unitError p * x := by
        unfold spread
        rw [div_div_eq_mul_div, div_one]
        ring
      _ ≤ roundTo p x := by linarith [hround.1]
  upper := by
    have hx := h.pos_left hp
    have hround := abs_le.mp (abs_roundTo_sub_le p x)
    rw [abs_of_pos hx] at hround
    have hunit : 1 + unitError p ≤ spread p := by
      unfold spread
      rw [le_div_iff₀ (by linarith [unitError_lt_one hp])]
      nlinarith [unitError_pos p]
    calc roundTo p x ≤ x * (1 + unitError p) := by linarith [hround.2]
      _ ≤ x * spread p := mul_le_mul_of_nonneg_left hunit hx.le
      _ ≤ y * spread p ^ n * spread p := mul_le_mul_of_nonneg_right h.upper (spread_pos hp).le
      _ = y * spread p ^ (n + 1) := by rw [pow_succ, mul_assoc]

/-- The powers of the spread grow by at most twice their number of unit errors, as long as these are
small. -/
theorem spread_pow_le (hsmall : n * unitError p ≤ 1 / 2) :
    spread p ^ n ≤ 1 + 2 * (n * unitError p) := by
  have hunit := unitError_pos p
  rcases Nat.eq_zero_or_pos n with rfl | hn
  · simp
  have hone : unitError p ≤ 1 / 2 := by
    have hcast : (1 : ℚ) ≤ n := by exact_mod_cast hn
    nlinarith
  have hbernoulli : 1 - n * unitError p ≤ (1 - unitError p) ^ n := by
    have h := one_add_mul_le_pow (a := -unitError p) (by linarith) n
    calc 1 - n * unitError p = 1 + n * -unitError p := by ring
      _ ≤ (1 + -unitError p) ^ n := h
      _ = (1 - unitError p) ^ n := by rw [← sub_eq_add_neg]
  unfold spread
  rw [one_div, inv_pow, inv_le_comm₀ (pow_pos (by linarith) n) (by positivity)]
  refine le_trans ?_ hbernoulli
  rw [inv_le_iff_one_le_mul₀ (by positivity)]
  nlinarith [mul_nonneg (Nat.cast_nonneg n : (0 : ℚ) ≤ n) hunit.le]

/-- The distance that few roundings leave. -/
theorem Near.abs_sub_le (hp : 1 ≤ p) (hsmall : n * unitError p ≤ 1 / 2) (h : Near p n x y) :
    |x - y| ≤ 2 * (n * unitError p) * y := by
  have hpow := spread_pow_le hsmall
  have hpos := pow_pos (spread_pos hp) n
  have hnonneg : 0 ≤ n * unitError p := mul_nonneg (Nat.cast_nonneg n) (unitError_pos p).le
  have hlower : y * (1 - 2 * (n * unitError p)) ≤ y / spread p ^ n := by
    rw [le_div_iff₀ hpos, mul_assoc]
    refine mul_le_of_le_one_right h.pos.le ?_
    rcases le_or_gt (1 - 2 * (n * unitError p)) 0 with hneg | hlarge
    · exact (mul_nonpos_of_nonpos_of_nonneg hneg hpos.le).trans zero_le_one
    · calc (1 - 2 * (n * unitError p)) * spread p ^ n
          ≤ (1 - 2 * (n * unitError p)) * (1 + 2 * (n * unitError p)) :=
            mul_le_mul_of_nonneg_left hpow hlarge.le
        _ ≤ 1 := by nlinarith
  rw [abs_le]
  constructor
  · linarith [h.lower]
  · have := mul_le_mul_of_nonneg_left hpow h.pos.le
    linarith [h.upper]

end Significant
