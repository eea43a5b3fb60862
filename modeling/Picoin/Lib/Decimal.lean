import Mathlib.Data.Int.Basic
import Mathlib.Data.Nat.Notation
import Mathlib.Tactic.Ring

/-!
# Exact decimals and rounding

A decimal literal is an integer mantissa with a number of fractional digits. Two rounding modes
turn a quotient into an integer:

* **`roundHalfUp`** rounds to the nearest integer, ties away from zero (`ROUND_HALF_UP`);
* **`roundHalfEven`** rounds to the nearest integer, ties to the even one (`round`).

Both are the identity on multiples of the divisor, and `roundHalfUp` commutes with negation,
which is why the two legs of a transfer of one amount cancel.
-/

namespace Decimal

/-- The exact decimal `mantissa / 10 ^ scale`. -/
structure Dec where
  mantissa : ℤ
  scale : ℕ
deriving DecidableEq, Repr

/-- `n / d` rounded to the nearest integer, ties away from zero. -/
def roundHalfUp (n : ℤ) (d : ℕ) : ℤ :=
  if 0 ≤ n then (2 * n + d) / (2 * d) else -((2 * -n + d) / (2 * d))

/-- `n / d` rounded to the nearest integer, ties to the even integer. -/
def roundHalfEven (n : ℤ) (d : ℕ) : ℤ :=
  let quotient := n / d
  let remainder := n % d
  if 2 * remainder < d then quotient
  else if 2 * remainder = d ∧ quotient % 2 = 0 then quotient
  else quotient + 1

theorem roundHalfUp_mul (k : ℤ) {d : ℕ} (hd : 0 < d) : roundHalfUp (k * d) d = k := by
  have hd' : (0 : ℤ) < d := by exact_mod_cast hd
  have key : ∀ m : ℤ, (2 * (m * d) + d) / (2 * d) = m := fun m => by
    rw [Int.ediv_eq_iff_of_pos (by omega)]
    constructor <;> ring_nf <;> omega
  unfold roundHalfUp
  split
  · exact key k
  · rw [show 2 * -(k * (d : ℤ)) = 2 * (-k * d) by ring, key (-k), neg_neg]

theorem roundHalfUp_neg (n : ℤ) (d : ℕ) : roundHalfUp (-n) d = -roundHalfUp n d := by
  unfold roundHalfUp
  rcases lt_trichotomy n 0 with h | rfl | h
  · rw [if_pos (by omega), if_neg (by omega), neg_neg]
  · rcases Nat.eq_zero_or_pos d with rfl | hd
    · simp
    · have h0 : (d : ℤ) / (2 * d) = 0 := Int.ediv_eq_zero_of_lt (by omega) (by omega)
      simp [h0]
  · rw [if_neg (by omega), if_pos (by omega), neg_neg]

theorem roundHalfUp_nonneg {n : ℤ} (d : ℕ) (hn : 0 ≤ n) : 0 ≤ roundHalfUp n d := by
  unfold roundHalfUp
  rw [if_pos hn]
  exact Int.ediv_nonneg (by omega) (by omega)

theorem roundHalfUp_nonpos {n : ℤ} (d : ℕ) (hn : n ≤ 0) : roundHalfUp n d ≤ 0 := by
  have h := roundHalfUp_nonneg d (n := -n) (by omega)
  rw [roundHalfUp_neg] at h
  omega

theorem roundHalfEven_nonneg {n : ℤ} (d : ℕ) (hn : 0 ≤ n) : 0 ≤ roundHalfEven n d := by
  have hquotient : 0 ≤ n / (d : ℤ) := Int.ediv_nonneg hn (by omega)
  unfold roundHalfEven
  dsimp only
  split
  · exact hquotient
  · split <;> omega

theorem roundHalfEven_nonpos {n : ℤ} (d : ℕ) (hd : 0 < d) (hn : n ≤ 0) :
    roundHalfEven n d ≤ 0 := by
  have hd' : (0 : ℤ) < d := by exact_mod_cast hd
  have hquotient : n / (d : ℤ) ≤ 0 := Int.ediv_nonpos_of_nonpos_of_neg hn hd'
  unfold roundHalfEven
  dsimp only
  split
  · exact hquotient
  · split
    · exact hquotient
    · next hlow _ =>
      -- the quotient is zero only where the remainder is
      have hmod := Int.emod_add_mul_ediv n d
      rcases eq_or_lt_of_le hquotient with hzero | hneg
      · rw [hzero, mul_zero, add_zero] at hmod
        have hrem := Int.emod_nonneg n hd'.ne'
        omega
      · omega

theorem roundHalfEven_mul (k : ℤ) {d : ℕ} (hd : 0 < d) : roundHalfEven (k * d) d = k := by
  have hd' : (0 : ℤ) < d := by exact_mod_cast hd
  simp only [roundHalfEven, Int.mul_emod_left, mul_zero, if_pos hd']
  exact Int.mul_ediv_cancel k hd'.ne'

namespace Dec

/-- The decimal without fractional digits. -/
def ofInt (n : ℤ) : Dec := ⟨n, 0⟩

instance : OfNat Dec n := ⟨⟨n, 0⟩⟩

/-- The number of steps of size `10 ^ -places`, ties away from zero. -/
def quantizeHalfUp (x : Dec) (places : ℕ) : ℤ :=
  roundHalfUp (x.mantissa * 10 ^ places) (10 ^ x.scale)

/-- The number of steps of size `10 ^ -places`, ties to even. -/
def quantizeHalfEven (x : Dec) (places : ℕ) : ℤ :=
  roundHalfEven (x.mantissa * 10 ^ places) (10 ^ x.scale)

/-- A decimal on the grid `10 ^ -places` is rounded to itself. -/
theorem quantizeHalfEven_self (m : ℤ) (places : ℕ) : quantizeHalfEven ⟨m, places⟩ places = m := by
  have h := roundHalfEven_mul m (d := 10 ^ places) (Nat.pow_pos (by decide))
  simpa [quantizeHalfEven] using h

theorem quantizeHalfUp_self (m : ℤ) (places : ℕ) : quantizeHalfUp ⟨m, places⟩ places = m := by
  have h := roundHalfUp_mul m (d := 10 ^ places) (Nat.pow_pos (by decide))
  simpa [quantizeHalfUp] using h

end Dec

end Decimal
