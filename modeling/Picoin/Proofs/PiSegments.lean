import Mathlib.Algebra.Order.Floor.Semifield
import Mathlib.Analysis.Real.Pi.Bounds
import Picoin.Core.PiDigits
import Picoin.Lib.Gregory
import Picoin.Proofs.MerkleSound

/-!
# The digits are digits of π

With `p` significant digits, the loop of an arctangent adds at most `p + 2` terms, and each addition
moves the sum by at most two unit errors from the partial sum of the series. The term that stops the
loop bounds what the series leaves out. So both arctangents, and the value of π, are within a
multiple of `p` unit errors, and the twenty guard digits cover it.

* **`piValue_near`** — the calculation ends, and its value is near π;
* **`calculatePiDecimalDigits_correct`** — the digits of a range are those of π, unless the digits
  after the range are too close to a carry;
* **`decimal_submission_accepted_iff`** — a submission of decimal digits is accepted exactly if it
  has the digits of π and the hash of them.
-/

namespace Picoin

open Significant Gregory

/-! ## One arctangent -/

/-- The unit errors of a loop are small together. -/
theorem unitErrors_small {p k : ℕ} (hp : 21 ≤ p) (hk : k ≤ p + 2) :
    (4 * k + 4 : ℕ) * unitError p ≤ 1 / 2 := by
  have hpow : 40 * p + 120 ≤ 10 ^ p := by
    clear hk
    induction p, hp using Nat.le_induction with
    | base => norm_num
    | succ p hp ih =>
      rw [pow_succ]
      omega
  have hle : (4 * k + 4 : ℕ) * 10 ≤ 10 ^ p := by omega
  have hcast : ((4 * k + 4 : ℕ) : ℚ) * 10 ≤ 10 ^ p := by exact_mod_cast hle
  unfold unitError
  rw [mul_div_assoc', div_le_iff₀ (by positivity)]
  linarith

/-- What holds before each pass of the loop: the power is exact up to two roundings a pass, and the
sum is the partial sum up to two unit errors a pass. -/
structure ArctanState (p : ℕ) (x : ℚ) (k : ℕ) (xPower total : ℚ) (sign : ℤ) (termIndex : ℕ) :
    Prop where
  power : Near p (2 * k) xPower (x ^ (2 * k + 1))
  sum : |total - partialSum x k| ≤ 2 * k * unitError p
  sign_eq : sign = (-1) ^ k
  index_eq : termIndex = 2 * k + 1

section Pass

variable {p k termIndex : ℕ} {x xPower total : ℚ} {sign : ℤ}

theorem ArctanState.start (hx : 0 < x) : ArctanState p x 0 x 0 1 1 where
  power := by simpa using Near.refl hx
  sum := by simp [partialSum]
  sign_eq := by simp
  index_eq := rfl

/-- The term of a pass is the term of the series up to a few roundings. -/
theorem ArctanState.term_near (hp : 21 ≤ p) (hx : 0 < x) (hk : k ≤ p + 2)
    (h : ArctanState p x k xPower total sign termIndex) :
    |roundTo p (sign / roundTo p (termIndex * xPower)) - (-1) ^ k * term x k| ≤
      (4 * k + 4) * unitError p * term x k := by
  have hone : 1 ≤ p := by omega
  have hunit := unitError_pos p
  have hterm := term_pos hx k
  have hindex : (0 : ℚ) < ((2 * k + 1 : ℕ) : ℚ) := by positivity
  -- the denominator, then its inverse
  have hden : Near p (2 * k + 1) (roundTo p (termIndex * xPower))
      (((2 * k + 1 : ℕ) : ℚ) * x ^ (2 * k + 1)) := by
    rw [h.index_eq]
    have := ((Near.refl hindex).mul hone h.power).round hone
    rwa [zero_add] at this
  have hinv := hden.inv hone
  have hexact : (((2 * k + 1 : ℕ) : ℚ) * x ^ (2 * k + 1))⁻¹ = term x k := by
    unfold term
    push_cast
    rfl
  rw [hexact] at hinv
  set inverse := (roundTo p (termIndex * xPower))⁻¹ with hinverse
  have hsmall : (2 * k + 1 : ℕ) * unitError p ≤ 1 / 2 := by
    refine le_trans ?_ (unitErrors_small hp hk)
    exact mul_le_mul_of_nonneg_right (by exact_mod_cast (by omega)) hunit.le
  have hclose := hinv.abs_sub_le hone hsmall
  push_cast at hclose hsmall
  have hpos := hinv.pos_left hone
  have hle : inverse ≤ 2 * term x k := by
    have := (abs_le.mp hclose).2
    nlinarith
  -- the rounding of the signed quotient
  have hsign : ∀ q : ℚ, |((sign : ℤ) : ℚ) * q| = |q| := by
    intro q
    rw [h.sign_eq, abs_mul]
    push_cast
    rw [abs_neg_one_pow, one_mul]
  have hround := abs_roundTo_sub_le p (sign * inverse)
  rw [hsign, abs_of_pos hpos] at hround
  have hscaled : |sign * inverse - (-1) ^ k * term x k| ≤
      2 * ((2 * k + 1) * unitError p) * term x k := by
    have : (sign : ℚ) = (-1) ^ k := by
      rw [h.sign_eq]
      push_cast
      rfl
    rw [← this, ← mul_sub, hsign]
    exact hclose
  rw [div_eq_mul_inv, ← hinverse]
  calc |roundTo p (sign * inverse) - (-1) ^ k * term x k|
      ≤ |roundTo p (sign * inverse) - sign * inverse| +
          |sign * inverse - (-1) ^ k * term x k| := abs_sub_le _ _ _
    _ ≤ unitError p * (2 * term x k) + 2 * ((2 * k + 1) * unitError p) * term x k :=
        add_le_add (hround.trans (mul_le_mul_of_nonneg_left hle hunit.le)) hscaled
    _ = (4 * k + 4) * unitError p * term x k := by ring

/-- The rounded term is between half of the term of the series and twice it. -/
theorem ArctanState.term_size (hp : 21 ≤ p) (hx : 0 < x) (hk : k ≤ p + 2)
    (h : ArctanState p x k xPower total sign termIndex) :
    term x k / 2 ≤ |roundTo p (sign / roundTo p (termIndex * xPower))| ∧
      |roundTo p (sign / roundTo p (termIndex * xPower))| ≤ 2 * term x k := by
  have hnear := h.term_near hp hx hk
  have hsmall := unitErrors_small hp hk
  have hterm := term_pos hx k
  push_cast at hsmall
  have hsize : |(-1 : ℚ) ^ k * term x k| = term x k := by
    rw [abs_mul, abs_neg_one_pow, one_mul, abs_of_pos hterm]
  have hhalf : (4 * k + 4) * unitError p * term x k ≤ term x k / 2 := by nlinarith
  constructor
  · have := abs_sub_abs_le_abs_sub ((-1 : ℚ) ^ k * term x k)
      (roundTo p (sign / roundTo p (termIndex * xPower)))
    rw [abs_sub_comm, hsize] at this
    linarith
  · have := abs_sub_abs_le_abs_sub (roundTo p (sign / roundTo p (termIndex * xPower)))
      ((-1 : ℚ) ^ k * term x k)
    rw [hsize] at this
    linarith

/-- A pass that does not stop leads to the state of the next one. -/
theorem ArctanState.next (hp : 21 ≤ p) (hx : 5 ≤ x) (hk : k ≤ p + 2)
    (h : ArctanState p x k xPower total sign termIndex) :
    ArctanState p x (k + 1) (roundTo p (xPower * roundTo p (x * x)))
      (roundTo p (total + roundTo p (sign / roundTo p (termIndex * xPower)))) (-sign)
      (termIndex + 2) where
  power := by
    have hone : 1 ≤ p := by omega
    have hpos : 0 < x := by linarith
    have hsquare := (Near.refl (p := p) (mul_pos hpos hpos)).round hone
    have := (h.power.mul hone hsquare).round hone
    rwa [show x ^ (2 * k + 1) * (x * x) = x ^ (2 * (k + 1) + 1) by ring,
      show 2 * k + (0 + 1) + 1 = 2 * (k + 1) by ring] at this
  sum := by
    have hpos : 0 < x := by linarith
    have hunit := unitError_pos p
    have hnear := h.term_near hp hpos hk
    have hsmall := unitErrors_small hp hk
    have hpartial := abs_le.mp (abs_partialSum_le hx (k + 1))
    push_cast at hsmall
    set rounded := roundTo p (sign / roundTo p (termIndex * xPower))
    -- the error of the term is at most one unit error
    have hterm : (4 * k + 4) * unitError p * term x k ≤ unitError p := by
      have hpower : term x k ≤ ((2 * (k : ℚ) + 1) * 5)⁻¹ := by
        unfold term
        refine inv_anti₀ (by positivity) (mul_le_mul_of_nonneg_left ?_ (by positivity))
        exact hx.trans (le_self_pow₀ (by linarith) (by omega))
      have hbound : (4 * k + 4) * term x k ≤ 1 := by
        calc (4 * k + 4) * term x k ≤ (4 * k + 4) * ((2 * (k : ℚ) + 1) * 5)⁻¹ :=
              mul_le_mul_of_nonneg_left hpower (by positivity)
          _ ≤ 1 := by
            rw [← div_eq_mul_inv, div_le_one (by positivity)]
            have := Nat.cast_nonneg (α := ℚ) k
            linarith
      nlinarith
    have hexact : |total + rounded - partialSum x (k + 1)| ≤ (2 * k + 1) * unitError p := by
      rw [partialSum_succ, show total + rounded - (partialSum x k + (-1) ^ k * term x k) =
        (total - partialSum x k) + (rounded - (-1) ^ k * term x k) by ring]
      refine (abs_add_le _ _).trans ?_
      linarith [h.sum]
    have hsize : |total + rounded| ≤ 1 := by
      have hclose := abs_le.mp hexact
      rw [abs_le]
      constructor
      · linarith [hclose.1, hpartial.1]
      · linarith [hclose.2, hpartial.2]
    have hround := abs_roundTo_sub_le p (total + rounded)
    calc |roundTo p (total + rounded) - partialSum x (k + 1)|
        ≤ |roundTo p (total + rounded) - (total + rounded)| +
            |total + rounded - partialSum x (k + 1)| := abs_sub_le _ _ _
      _ ≤ unitError p * 1 + (2 * k + 1) * unitError p :=
          add_le_add (hround.trans (mul_le_mul_of_nonneg_left hsize hunit.le)) hexact
      _ = 2 * ((k + 1 : ℕ) : ℚ) * unitError p := by
          push_cast
          ring
  sign_eq := by rw [h.sign_eq, pow_succ, mul_neg_one]
  index_eq := by rw [h.index_eq]; ring

/-- The loop stops after its passes at the latest: the sum is near the arctangent. -/
theorem arctanInverseLoop_near (hp : 21 ≤ p) (hx : 5 ≤ x) :
    ∀ (fuel k : ℕ) (xPower total : ℚ) (sign : ℤ) (termIndex : ℕ), k + fuel = p + 3 → 0 < fuel →
      ArctanState p x k xPower total sign termIndex →
        ∃ result, arctanInverseLoop p x fuel xPower total sign termIndex = some result ∧
          |(result : ℝ) - Real.arctan (x : ℝ)⁻¹| ≤ ((2 * p + 5 : ℕ) * unitError p : ℚ) := by
  have hpos : 0 < x := by linarith
  have hunit := unitError_pos p
  intro fuel
  -- by induction on the passes that are left
  induction fuel with
  | zero => exact fun _ _ _ _ _ _ h => absurd h (lt_irrefl 0)
  | succ fuel ih =>
    intro k xPower total sign termIndex hcount _ h
    have hk : k ≤ p + 2 := by omega
    have hsize := h.term_size hp hpos hk
    unfold arctanInverseLoop
    dsimp only
    split
    · -- the sum is near the partial sum, and the partial sum near the arctangent
      rename_i hstop
      refine ⟨total, rfl, ?_⟩
      have hthreshold : (10 : ℚ) ^ (-(p + 2 : ℤ)) = unitError p / 500 := by
        rw [zpow_neg, zpow_add₀ (by norm_num), zpow_natCast]
        unfold unitError
        rw [mul_inv, div_div, ← div_div]
        norm_num
        ring
      have hterm : term x k ≤ unitError p := by
        rw [hthreshold] at hstop
        linarith [hsize.1]
      have hseries := abs_partialSum_sub_le (by linarith : 1 < x) k
      have hsum : |(total : ℝ) - (partialSum x k : ℝ)| ≤ ((2 * k * unitError p : ℚ) : ℝ) := by
        have := (Rat.cast_le (K := ℝ)).mpr h.sum
        rwa [Rat.cast_abs, Rat.cast_sub] at this
      have hcast := (Rat.cast_le (K := ℝ)).mpr hterm
      refine (abs_sub_le _ _ _).trans ((add_le_add hsum (hseries.trans hcast)).trans ?_)
      rw [← Rat.cast_add, Rat.cast_le]
      have hkp : (k : ℚ) ≤ p + 2 := by exact_mod_cast hk
      push_cast
      nlinarith
    · -- the last pass stops
      rename_i hgo
      have hlast : k ≠ p + 2 := by
        rintro rfl
        refine hgo (hsize.2.trans_lt ?_)
        have hpower : (10 : ℚ) ^ (p + 2) ≤ x ^ (2 * (p + 2) + 1) := by
          calc (10 : ℚ) ^ (p + 2) ≤ (x ^ 2) ^ (p + 2) :=
                pow_le_pow_left₀ (by norm_num) (by nlinarith) _
            _ = x ^ (2 * (p + 2)) := by rw [← pow_mul]
            _ ≤ x ^ (2 * (p + 2) + 1) := pow_le_pow_right₀ (by linarith) (by omega)
        have hterm : term x (p + 2) < (10 ^ (p + 2))⁻¹ / 2 := by
          unfold term
          rw [inv_div_left]
          refine inv_strictAnti₀ (by positivity) ?_
          have hten : (0 : ℚ) < 10 ^ (p + 2) := by positivity
          have hindex : (2 : ℚ) < 2 * ((p + 2 : ℕ) : ℚ) + 1 := by
            push_cast
            have := Nat.cast_nonneg (α := ℚ) p
            linarith
          exact mul_lt_mul hindex hpower hten (by positivity)
        rw [show (-(p + 2 : ℤ)) = -((p + 2 : ℕ) : ℤ) by push_cast; ring, zpow_neg, zpow_natCast]
        linarith
      exact ih (k + 1) _ _ _ _ (by omega) (by omega) (h.next hp hx hk)

/-- The arctangent ends, within a multiple of the unit error. -/
theorem arctanInverse_near (hp : 21 ≤ p) (hx : 5 ≤ x) :
    ∃ result, arctanInverse p x = some result ∧
      |(result : ℝ) - Real.arctan (x : ℝ)⁻¹| ≤ ((2 * p + 5 : ℕ) * unitError p : ℚ) :=
  arctanInverseLoop_near hp hx (p + 3) 0 x 0 1 1 (by omega) (by omega)
    (.start (by linarith))

end Pass

/-! ## The value -/

/-- A rounded multiple of a number near an arctangent. -/
theorem roundTo_mul_near {p : ℕ} (hp : 21 ≤ p) {c a bound : ℚ} (hc : 0 ≤ c) (target : ℝ)
    (ha : |(a : ℝ) - target| ≤ (bound : ℝ)) (hsize : |a| ≤ 1 / 2) :
    |(roundTo p (c * a) : ℝ) - c * target| ≤ ((c * bound + c * unitError p : ℚ) : ℝ) ∧
      |roundTo p (c * a)| ≤ c := by
  have hunit := unitError_pos p
  have hone := unitError_lt_one (show 1 ≤ p by omega)
  have hround := abs_roundTo_sub_le p (c * a)
  have hproduct : |c * a| ≤ c * (1 / 2) := by
    rw [abs_mul, abs_of_nonneg hc]
    exact mul_le_mul_of_nonneg_left hsize hc
  constructor
  · have hcast : |(roundTo p (c * a) : ℝ) - ((c * a : ℚ) : ℝ)| ≤ ((c * unitError p : ℚ) : ℝ) := by
      have hle : |roundTo p (c * a) - c * a| ≤ c * unitError p := by nlinarith
      have := (Rat.cast_le (K := ℝ)).mpr hle
      rwa [Rat.cast_abs, Rat.cast_sub] at this
    have hscaled : |((c * a : ℚ) : ℝ) - c * target| ≤ ((c * bound : ℚ) : ℝ) := by
      rw [Rat.cast_mul, ← mul_sub, abs_mul, abs_of_nonneg (by exact_mod_cast hc : (0 : ℝ) ≤ c),
        Rat.cast_mul]
      exact mul_le_mul_of_nonneg_left ha (by exact_mod_cast hc)
    refine (abs_sub_le _ _ _).trans ((add_le_add hcast hscaled).trans (le_of_eq ?_))
    push_cast
    ring
  · have := abs_sub_abs_le_abs_sub (roundTo p (c * a)) (c * a)
    nlinarith

/-- An arctangent of the formula is small. -/
theorem arctanInverse_size {p : ℕ} (hp : 21 ≤ p) {x a : ℚ} (hx : 5 ≤ x)
    (ha : |(a : ℝ) - Real.arctan (x : ℝ)⁻¹| ≤ ((2 * p + 5 : ℕ) * unitError p : ℚ)) :
    |a| ≤ 1 / 2 := by
  have hsmall := unitErrors_small hp (le_refl (p + 2))
  have hfirst := abs_le.mp (abs_partialSum_sub_le (by linarith : 1 < x) 0)
  have hnone : ((partialSum x 0 : ℚ) : ℝ) = 0 := by simp [partialSum]
  have hfifth := term_le_fifth hx 0
  have herror : (2 * p + 5 : ℕ) * unitError p ≤ 1 / 4 := by
    push_cast at hsmall ⊢
    linarith [unitError_pos p]
  have herror' := (Rat.cast_le (K := ℝ)).mpr herror
  rw [hnone] at hfirst
  have hclose := abs_le.mp (ha.trans herror')
  have hcast : |((a : ℚ) : ℝ)| ≤ ((1 / 2 : ℚ) : ℝ) := by
    push_cast at hclose ⊢
    rw [abs_le]
    constructor
    · linarith [hclose.1, hfirst.1, hfirst.2]
    · linarith [hclose.2, hfirst.1, hfirst.2]
  rw [← Rat.cast_abs] at hcast
  exact Rat.cast_le.mp hcast

/-- The calculation ends, and its value is near π. -/
theorem piValue_near {p : ℕ} (hp : 21 ≤ p) :
    ∃ value, piValue p = some value ∧
      |(value : ℝ) - Real.pi| ≤ ((40 * p + 140 : ℕ) * unitError p : ℚ) := by
  obtain ⟨fifth, hfifth, hnear⟩ := arctanInverse_near hp (le_refl (5 : ℚ))
  obtain ⟨small, hsmall, hnear'⟩ := arctanInverse_near hp (show (5 : ℚ) ≤ 239 by norm_num)
  have hunit := unitError_pos p
  obtain ⟨hleft, hleftSize⟩ := roundTo_mul_near hp (show (0 : ℚ) ≤ 16 by norm_num) _ hnear
    (arctanInverse_size hp (le_refl 5) hnear)
  obtain ⟨hright, hrightSize⟩ := roundTo_mul_near hp (show (0 : ℚ) ≤ 4 by norm_num) _ hnear'
    (arctanInverse_size hp (by norm_num) hnear')
  refine ⟨roundTo p (roundTo p (16 * fifth) - roundTo p (4 * small)), ?_, ?_⟩
  · unfold piValue
    rw [hfifth, hsmall]
    rfl
  · have hmachin : Real.pi =
        16 * Real.arctan ((5 : ℚ) : ℝ)⁻¹ - 4 * Real.arctan ((239 : ℚ) : ℝ)⁻¹ := by
      have := Real.four_mul_arctan_inv_5_sub_arctan_inv_239
      push_cast
      linarith
    set left := roundTo p (16 * fifth)
    set right := roundTo p (4 * small)
    -- the last rounding of the difference
    have hround := abs_roundTo_sub_le p (left - right)
    have hsize : |left - right| ≤ 20 := by
      refine (abs_sub left right).trans ?_
      linarith
    have hlast : |(roundTo p (left - right) : ℝ) - ((left - right : ℚ) : ℝ)| ≤
        ((20 * unitError p : ℚ) : ℝ) := by
      have hle : |roundTo p (left - right) - (left - right)| ≤ 20 * unitError p := by nlinarith
      have := (Rat.cast_le (K := ℝ)).mpr hle
      rwa [Rat.cast_abs, Rat.cast_sub] at this
    -- the errors of the two products add up
    have hdifference : |((left - right : ℚ) : ℝ) - Real.pi| ≤
        ((20 * ((2 * p + 5 : ℕ) * unitError p) + 20 * unitError p : ℚ) : ℝ) := by
      rw [hmachin, Rat.cast_sub]
      push_cast at hleft hright ⊢
      rw [abs_le] at hleft hright ⊢
      constructor
      · linarith [hleft.1, hright.2]
      · linarith [hleft.2, hright.1]
    refine (abs_sub_le _ _ _).trans ((add_le_add hlast hdifference).trans (le_of_eq ?_))
    push_cast
    ring

/-! ## The digits -/

/-- The digit of π at a position after the point, from 1 on. -/
noncomputable def piDigit (position : ℕ) : Char :=
  Nat.digitChar (⌊Real.pi * 10 ^ position⌋₊ % 10)

/-- The digits of π in a range. -/
noncomputable def piDigits (rangeStart rangeEnd : ℤ) : String :=
  String.ofList ((rangePositions rangeStart rangeEnd).map piDigit)

/-- What the rounding of the calculation can move the number of the digits up to a position by. -/
def guardMargin (position : ℕ) : ℚ := (200 * position + 4700) / 10 ^ 20

/-- The digits of π after a position are no long run of nines or zeros. -/
def ClearOfCarry (position : ℕ) : Prop :=
  (guardMargin position : ℝ) < Int.fract (Real.pi * 10 ^ position) ∧
    Int.fract (Real.pi * 10 ^ position) < 1 - (guardMargin position : ℝ)

/-- The digits in front of a position are read from the digits up to it. -/
theorem floor_mul_pow {K : Type} [Semifield K] [LinearOrder K] [IsStrictOrderedRing K]
    [FloorSemiring K] {x : K} {i n : ℕ} (h : i ≤ n) :
    ⌊x * 10 ^ i⌋₊ = ⌊x * 10 ^ n⌋₊ / 10 ^ (n - i) := by
  have hpow : (10 : K) ^ n / 10 ^ (n - i) = 10 ^ i := by
    rw [div_eq_iff (by positivity), ← pow_add, Nat.add_sub_cancel' h]
  rw [← Nat.floor_div_natCast]
  push_cast
  rw [mul_div_assoc, hpow]

/-- The value and π have the same digits up to a position that is clear of carries. -/
theorem floor_value_eq {n : ℕ} {value : ℚ} (hclear : ClearOfCarry n)
    (hnear : |(value : ℝ) - Real.pi| ≤ ((40 * (n + 20) + 140 : ℕ) * unitError (n + 20) : ℚ)) :
    ⌊|value| * 10 ^ n⌋₊ = ⌊Real.pi * 10 ^ n⌋₊ := by
  have hten : (0 : ℝ) < 10 ^ n := by positivity
  have hmargin : (((40 * (n + 20) + 140 : ℕ) * unitError (n + 20) : ℚ) : ℝ) * 10 ^ n ≤
      (guardMargin n : ℝ) := by
    unfold unitError guardMargin
    push_cast
    rw [pow_add, mul_div_assoc', div_mul_eq_mul_div,
      div_le_div_iff₀ (by positivity) (by positivity)]
    nlinarith [hten, mul_nonneg hten.le (Nat.cast_nonneg (α := ℝ) n)]
  obtain ⟨hlow, hhigh⟩ := hclear
  -- the value is nearer to pi than pi is to a carry
  have hscaled : |(value : ℝ) * 10 ^ n - Real.pi * 10 ^ n| ≤ (guardMargin n : ℝ) := by
    rw [← sub_mul, abs_mul, abs_of_pos hten]
    exact (mul_le_mul_of_nonneg_right hnear hten.le).trans hmargin
  have hpos := Nat.floor_le (mul_nonneg Real.pi_pos.le hten.le)
  have hfract : Int.fract (Real.pi * 10 ^ n) = Real.pi * 10 ^ n - ⌊Real.pi * 10 ^ n⌋₊ := by
    rw [natCast_floor_eq_intCast_floor (mul_nonneg Real.pi_pos.le hten.le), Int.self_sub_floor]
  rw [hfract] at hlow hhigh
  have hbounds := abs_le.mp hscaled
  have hvalue : (0 : ℝ) < value := by
    have : (0 : ℝ) < (value : ℝ) * 10 ^ n := by
      have := Nat.cast_nonneg (α := ℝ) ⌊Real.pi * 10 ^ n⌋₊
      linarith [hbounds.1]
    exact pos_of_mul_pos_left this hten.le
  have hvalue' : (0 : ℚ) < value := by exact_mod_cast hvalue
  rw [abs_of_pos hvalue']
  rw [Nat.floor_eq_iff (by positivity)]
  constructor
  · have : ((⌊Real.pi * 10 ^ n⌋₊ : ℕ) : ℝ) ≤ ((value * 10 ^ n : ℚ) : ℝ) := by
      push_cast
      linarith [hbounds.1]
    exact_mod_cast this
  · have : ((value * 10 ^ n : ℚ) : ℝ) < ((⌊Real.pi * 10 ^ n⌋₊ : ℕ) : ℝ) + 1 := by
      push_cast
      linarith [hbounds.2]
    exact_mod_cast this

theorem calculatePiDecimalDigits_eq {rangeStart rangeEnd : ℤ} (hstart : 1 ≤ rangeStart)
    (hend : rangeStart ≤ rangeEnd) (hclear : ClearOfCarry rangeEnd.toNat) :
    calculatePiDecimalDigits rangeStart rangeEnd = some (.ok (piDigits rangeStart rangeEnd)) := by
  obtain ⟨value, hvalue, hnear⟩ := piValue_near (p := rangeEnd.toNat + 20) (by omega)
  have hfloor := floor_value_eq hclear hnear
  have hcheck : checkRange rangeStart rangeEnd = .ok () := by
    unfold checkRange
    rw [if_neg (by omega), if_neg (by omega)]
  have hdigits : (rangePositions rangeStart rangeEnd).map (fractionDigit value) =
      (rangePositions rangeStart rangeEnd).map piDigit := by
    refine List.map_congr_left fun position hposition => ?_
    have hle : position ≤ rangeEnd.toNat := by
      unfold rangePositions at hposition
      rw [List.mem_range'_1] at hposition
      omega
    unfold fractionDigit piDigit
    rw [floor_mul_pow hle, floor_mul_pow hle, hfloor]
  unfold calculatePiDecimalDigits piDigits
  rw [hcheck, hvalue, ← hdigits]
  rfl

theorem length_fractionDigits {rangeStart rangeEnd : ℤ} (hend : rangeStart ≤ rangeEnd)
    (digit : ℕ → Char) :
    ((String.ofList ((rangePositions rangeStart rangeEnd).map digit)).toList.length : ℤ) =
      rangeEnd - rangeStart + 1 := by
  unfold rangePositions
  rw [String.toList_ofList, List.length_map, List.length_range']
  omega

/-- A range that is none raises. For any other range the calculation ends with as many digits as
the range has, and they are the digits of π unless the digits behind the range are too close to a
carry. -/
theorem calculatePiDecimalDigits_correct (rangeStart rangeEnd : ℤ) :
    (rangeStart < 1 ∨ rangeEnd < rangeStart →
      ∃ message, calculatePiDecimalDigits rangeStart rangeEnd = some (.error message)) ∧
    (1 ≤ rangeStart → rangeStart ≤ rangeEnd →
      ∃ digits, calculatePiDecimalDigits rangeStart rangeEnd = some (.ok digits) ∧
        (digits.toList.length : ℤ) = rangeEnd - rangeStart + 1 ∧
        (ClearOfCarry rangeEnd.toNat → digits = piDigits rangeStart rangeEnd)) := by
  constructor
  · intro hbad
    unfold calculatePiDecimalDigits checkRange
    by_cases hstart : rangeStart < 1
    · rw [if_pos hstart]
      exact ⟨_, rfl⟩
    · rw [if_neg hstart, if_pos (hbad.resolve_left hstart)]
      exact ⟨_, rfl⟩
  · intro hstart hend
    obtain ⟨value, hvalue, -⟩ := piValue_near (p := rangeEnd.toNat + 20) (by omega)
    have hdigits : calculatePiDecimalDigits rangeStart rangeEnd = some (.ok (String.ofList
        ((rangePositions rangeStart rangeEnd).map (fractionDigit value)))) := by
      unfold calculatePiDecimalDigits checkRange
      rw [if_neg (by omega), if_neg (by omega), hvalue]
      rfl
    refine ⟨_, hdigits, length_fractionDigits hend _, fun hclear => ?_⟩
    have hclean := calculatePiDecimalDigits_eq hstart hend hclear
    rw [hdigits] at hclean
    exact Except.ok.inj (Option.some.inj hclean)

theorem clearOfCarry_five : ClearOfCarry 5 := by
  have hlow := Real.pi_gt_d6
  have hhigh := Real.pi_lt_d6
  have hfract : Int.fract (Real.pi * 10 ^ 5) = Real.pi * 10 ^ 5 - 314159 := by
    rw [Int.fract, show ⌊Real.pi * 10 ^ 5⌋ = 314159 from Int.floor_eq_iff.mpr
      ⟨by push_cast; linarith, by push_cast; linarith⟩]
    push_cast
    rfl
  unfold ClearOfCarry guardMargin
  rw [hfract]
  push_cast
  constructor <;> linarith

/-- The first five digits. -/
theorem calculatePiDecimalDigits_five :
    calculatePiDecimalDigits 1 5 = some (.ok (piDigits 1 5)) := by
  obtain ⟨digits, hdigits, -, hclear⟩ :=
    (calculatePiDecimalDigits_correct 1 5).2 (by decide) (by decide)
  rw [hdigits, hclear clearOfCarry_five]

/-! ## Submissions -/

section Submission

variable (pc : PiConfig) (cfg : Config)

theorem length_piDigits {rangeStart rangeEnd : ℤ} (hend : rangeStart ≤ rangeEnd) :
    ((piDigits rangeStart rangeEnd).toList.length : ℤ) = rangeEnd - rangeStart + 1 :=
  length_fractionDigits hend piDigit

/-- The digits of π are decimal digits. -/
theorem isValidSegmentCharset_piDigits {rangeStart rangeEnd : ℤ} (hend : rangeStart ≤ rangeEnd) :
    isValidSegmentCharset pc (piDigits rangeStart rangeEnd) "machin_decimal_v1" = true := by
  unfold isValidSegmentCharset
  rw [if_neg (by decide), if_pos rfl, Bool.and_eq_true, decide_eq_true_eq]
  constructor
  · intro hempty
    have hlength := length_piDigits hend
    rw [hempty] at hlength
    simp only [String.toList_empty, List.length_nil] at hlength
    omega
  · rw [List.all_eq_true]
    intro c hc
    unfold piDigits at hc
    rw [String.toList_ofList, List.mem_map] at hc
    obtain ⟨position, -, rfl⟩ := hc
    exact pc.isDigitChar_decimal _ (Nat.mod_lt _ (by norm_num))

/-- The samples of a segment are what the segment has at their positions. -/
theorem buildSamples_self (segment : String) (rangeStart : ℤ) :
    (buildSamples pc segment rangeStart).any (fun sample =>
      segment.toList[(sample.position - rangeStart).toNat]? ≠ some sample.digit) = false := by
  rw [List.any_eq_false]
  intro sample hsample
  unfold buildSamples at hsample
  obtain ⟨index, -, hdigit⟩ := List.mem_filterMap.mp hsample
  rw [Option.map_eq_some_iff] at hdigit
  obtain ⟨digit, hdigit, rfl⟩ := hdigit
  rw [add_sub_cancel_left, Int.toNat_natCast, hdigit]
  simp

/-- A submission is accepted exactly if it has the calculated digits and their hash: the samples,
which are compared first, decide nothing. -/
theorem submission_accepted_iff {rangeStart rangeEnd : ℤ} {algorithm segment hash expected : String}
    (hexpected : calculatePiSegment pc rangeStart rangeEnd algorithm = some (.ok expected)) :
    ((validateSubmission pc cfg rangeStart rangeEnd algorithm segment hash).map
        ValidationResult.accepted = some true) ↔
      isValidSegmentCharset pc expected algorithm = true ∧
        (expected.toList.length : ℤ) = rangeEnd - rangeStart + 1 ∧
        normalizeSegment pc segment algorithm = expected ∧
        hash = hashResult cfg expected rangeStart rangeEnd algorithm := by
  unfold validateSubmission
  rw [hexpected]
  dsimp only [Option.map_some]
  -- the five checks, in the order of the source
  constructor
  · intro h
    split at h
    · cases h
    · rename_i hcharset
      split at h
      · cases h
      · rename_i hlength
        dsimp only [Option.map_some] at h
        split at h
        · cases h
        · rename_i hhash
          split at h
          · cases h
          · split at h
            · cases h
            · rename_i heq
              rw [not_not] at heq hhash hlength
              rw [heq] at hcharset hlength
              exact ⟨by simpa using hcharset, hlength, heq, hhash⟩
  · rintro ⟨hcharset, hlength, rfl, rfl⟩
    rw [hcharset, if_neg (by simp), if_neg (not_not.mpr hlength)]
    dsimp only [Option.map_some]
    rw [if_neg (not_not.mpr rfl), buildSamples_self, if_neg (by simp), if_neg (not_not.mpr rfl)]

/-- A submission of decimal digits is accepted exactly if it has the digits of π and their hash,
unless the digits behind the range are too close to a carry. -/
theorem decimal_submission_accepted_iff {rangeStart rangeEnd : ℤ} (segment hash : String)
    (hstart : 1 ≤ rangeStart) (hend : rangeStart ≤ rangeEnd)
    (hclear : ClearOfCarry rangeEnd.toNat) :
    ((validateSubmission pc cfg rangeStart rangeEnd "machin_decimal_v1" segment hash).map
        ValidationResult.accepted = some true) ↔
      segment = piDigits rangeStart rangeEnd ∧
        hash = hashResult cfg (piDigits rangeStart rangeEnd) rangeStart rangeEnd
          "machin_decimal_v1" := by
  have hcalculated : calculatePiSegment pc rangeStart rangeEnd "machin_decimal_v1" =
      some (.ok (piDigits rangeStart rangeEnd)) := by
    unfold calculatePiSegment
    rw [if_neg (by decide), if_pos rfl, calculatePiDecimalDigits_eq hstart hend hclear]
  rw [submission_accepted_iff pc cfg hcalculated]
  unfold normalizeSegment
  rw [if_neg (by decide)]
  exact ⟨fun h => h.2.2, fun h => ⟨isValidSegmentCharset_piDigits pc hend, length_piDigits hend, h⟩⟩

end Submission

theorem isDigit_digitChar : ∀ d < 10, Char.isDigit (Nat.digitChar d) = true := by decide

theorem mem_range_lt (_seed : String) (n k : ℕ) (h : k ≤ n) : ∀ i ∈ List.range k, i < n :=
  fun _ hi => (List.mem_range.mp hi).trans_le h

/-- The samples are the first positions. -/
def localPi : PiConfig :=
  { addressCase with
    bbpHexDigit := fun _ => '2'
    isDigitChar := Char.isDigit
    isDigitChar_decimal := isDigit_digitChar
    sampleIndexes := fun _ _ k => List.range k
    sampleIndexes_lt := mem_range_lt
    sampleCount := 8 }

theorem decimal_submission_accepted_local :
    (validateSubmission localPi localConfig 1 5 "machin_decimal_v1" (piDigits 1 5)
      (hashResult localConfig (piDigits 1 5) 1 5 "machin_decimal_v1")).map
        ValidationResult.accepted = some true :=
  (decimal_submission_accepted_iff localPi localConfig _ _
    (show (1 : ℤ) ≤ 1 by decide) (show (1 : ℤ) ≤ 5 by decide) clearOfCarry_five).mpr ⟨rfl, rfl⟩

end Picoin
