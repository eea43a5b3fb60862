import Picoin.Lib.Decimal

/-!
# Amounts of money

Two number formats run through the program, both kept in `ℤ`:

* **units**, integers of `10 ^ -6` coins, are what balances and ledger entries are kept in;
* **amounts** are the program's floats, read as exact decimals and rounded to eight digits, so
  they are integers of `10 ^ -8` coins.

A raw number of a request is a decimal `Dec` of any precision. It becomes an amount with
`round8`, and units with `toUnits`; `unitsToFloat` goes from units to amounts.
-/

namespace Picoin

open Decimal

def picoinDecimals : ℕ := 6

/-- `round(float(value), 8)`. -/
def round8 (value : Dec) : ℤ := value.quantizeHalfEven 8

/-- `to_units` of a raw number. -/
def toUnits (amount : Dec) : ℤ := amount.quantizeHalfUp picoinDecimals

/-- An amount as an exact decimal. -/
def amountDec (amount : ℤ) : Dec := ⟨amount, 8⟩

/-- `to_units` of a float that is already rounded to eight digits. -/
def unitsOf (amount : ℤ) : ℤ := roundHalfUp amount 100

/-- `units_to_float`. -/
def unitsToFloat (units : ℤ) : ℤ := units * 100

/-- `canonical_amount`: six fractional digits. -/
def canonicalAmount (units : ℤ) : String :=
  let magnitude := units.natAbs
  let fraction := (toString (magnitude % 10 ^ 6)).toList
  String.ofList ((if units < 0 then ['-'] else []) ++ (toString (magnitude / 10 ^ 6)).toList ++
    '.' :: (List.replicate (6 - fraction.length) '0' ++ fraction))

/-- The decimal that `canonical_amount` writes. -/
def canonicalDec (units : ℤ) : Dec := ⟨units, 6⟩

/-- `units_from_db`: the units column when it agrees with the amount column, `none` for the
`ValueError` of a mismatch. -/
def unitsFromDb (amount : Dec) (units : Option ℤ) : Option ℤ :=
  match units with
  | none => some (toUnits amount)
  | some u => if u = 0 ∨ toUnits amount = u then some (toUnits amount) else none

@[simp] theorem unitsOf_unitsToFloat (units : ℤ) : unitsOf (unitsToFloat units) = units :=
  roundHalfUp_mul units (by decide)

@[simp] theorem unitsOf_neg (amount : ℤ) : unitsOf (-amount) = -unitsOf amount :=
  roundHalfUp_neg amount 100

@[simp] theorem unitsOf_zero : unitsOf 0 = 0 := by decide

@[simp] theorem toUnits_canonicalDec (units : ℤ) : toUnits (canonicalDec units) = units :=
  Dec.quantizeHalfUp_self units 6

@[simp] theorem round8_amountDec (amount : ℤ) : round8 (amountDec amount) = amount :=
  Dec.quantizeHalfEven_self amount 8

@[simp] theorem round8_canonicalDec (units : ℤ) :
    round8 (canonicalDec units) = unitsToFloat units := by
  have h := roundHalfEven_mul (units * 100) (d := 10 ^ 6) (by decide)
  rw [show units * 100 * ((10 ^ 6 : ℕ) : ℤ) = units * 10 ^ 8 by norm_num; ring] at h
  exact h

theorem unitsToFloat_le_iff {a b : ℤ} : unitsToFloat a ≤ unitsToFloat b ↔ a ≤ b := by
  unfold unitsToFloat; omega

theorem unitsToFloat_lt_iff {a b : ℤ} : unitsToFloat a < unitsToFloat b ↔ a < b := by
  unfold unitsToFloat; omega

theorem unitsToFloat_pos_iff {a : ℤ} : 0 < unitsToFloat a ↔ 0 < a := by
  unfold unitsToFloat; omega

theorem unitsToFloat_add (a b : ℤ) :
    unitsToFloat a + unitsToFloat b = unitsToFloat (a + b) := by
  unfold unitsToFloat; ring

@[simp] theorem unitsToFloat_zero : unitsToFloat 0 = 0 := rfl

/-- A stored pair of columns written from units reads back as these units. -/
@[simp] theorem unitsFromDb_canonical (units : ℤ) :
    unitsFromDb (canonicalDec units) (some units) = some units := by
  simp [unitsFromDb]

example : canonicalAmount (-1234567) = "-1.234567" := by decide

end Picoin
