import Picoin.Core.Merkle
import Picoin.Lib.Significant

/-!
# Digits of π and the proof of a segment

The decimal digits come from the formula of Machin, in decimals of as many significant digits as the
range needs and twenty more; every operation is exact but for one rounding. The series of an
arctangent runs until a term is below the threshold, here with a number of steps that is enough
(`calculatePiDecimalDigits` is `none` where they are not).

The hexadecimal digits are calculated with binary floating point: the digit at a position is a
parameter, as are the positions that a seeded sample takes. The bounds of the exponents of the decimals
(999999), out of reach for ranges that end before position 999900, are left out.
-/

namespace Picoin

open Significant (roundTo)

/-- The loop of `_arctan_inverse`, with its variables as arguments. -/
def arctanInverseLoop (prec : ℕ) (x : ℚ) : ℕ → ℚ → ℚ → ℤ → ℕ → Option ℚ
  | 0, _, _, _, _ => none
  | fuel + 1, xPower, total, sign, termIndex =>
    let term := roundTo prec (sign / roundTo prec (termIndex * xPower))
    if |term| < 10 ^ (-(prec + 2 : ℤ)) then some total
    else
      arctanInverseLoop prec x fuel (roundTo prec (xPower * roundTo prec (x * x)))
        (roundTo prec (total + term)) (-sign) (termIndex + 2)

/-- `_arctan_inverse`. -/
def arctanInverse (prec : ℕ) (x : ℚ) : Option ℚ :=
  arctanInverseLoop prec x (prec + 3) x 0 1 1

/-- The value of π that the digits are read from. -/
def piValue (prec : ℕ) : Option ℚ := do
  let fifth ← arctanInverse prec 5
  let small ← arctanInverse prec 239
  return roundTo prec (roundTo prec (16 * fifth) - roundTo prec (4 * small))

/-- The digit of a number at a position after the point, from 1 on, as `format(value, "f")` writes
it; behind the last digit there are zeros. -/
def fractionDigit (value : ℚ) (position : ℕ) : Char :=
  Nat.digitChar (⌊|value| * 10 ^ position⌋₊ % 10)

/-- The positions of a range. -/
def rangePositions (rangeStart rangeEnd : ℤ) : List ℕ :=
  List.range' rangeStart.toNat (rangeEnd + 1 - rangeStart).toNat

/-- The check of a range, in front of both calculations. -/
def checkRange (rangeStart rangeEnd : ℤ) : Except String Unit :=
  if rangeStart < 1 then .error "range_start must be >= 1"
  else if rangeEnd < rangeStart then .error "range_end must be >= range_start"
  else .ok ()

/-- `calculate_pi_decimal_digits`. -/
def calculatePiDecimalDigits (rangeStart rangeEnd : ℤ) : Option (Except String String) :=
  match checkRange rangeStart rangeEnd with
  | .error message => some (.error message)
  | .ok _ => do
    let value ← piValue (rangeEnd.toNat + 20)
    return .ok (String.ofList ((rangePositions rangeStart rangeEnd).map (fractionDigit value)))

/-- What the modules of the proof take from outside: the hexadecimal digit at a position,
`str.isdigit` of one character, and the indexes of `random.Random(seed).sample(range(n), k)`. -/
structure PiConfig extends CaseMap where
  bbpHexDigit : ℕ → Char
  isDigitChar : Char → Bool
  isDigitChar_decimal : ∀ d < 10, isDigitChar (Nat.digitChar d) = true
  sampleIndexes : String → ℕ → ℕ → List ℕ
  sampleIndexes_lt : ∀ seed n k, k ≤ n → ∀ i ∈ sampleIndexes seed n k, i < n
  sampleCount : ℕ

variable (pc : PiConfig)

/-- `calculate_pi_hex_digits`. -/
def calculatePiHexDigits (rangeStart rangeEnd : ℤ) : Except String String := do
  checkRange rangeStart rangeEnd
  return String.ofList
    ((rangePositions rangeStart rangeEnd).map fun position => pc.bbpHexDigit (position - 1))

/-- `calculate_pi_segment`. -/
def calculatePiSegment (rangeStart rangeEnd : ℤ) (algorithm : String) :
    Option (Except String String) :=
  if algorithm = "bbp_hex_v1" then some (calculatePiHexDigits pc rangeStart rangeEnd)
  else if algorithm = "machin_decimal_v1" then calculatePiDecimalDigits rangeStart rangeEnd
  else some (.error s!"unsupported pi algorithm: {algorithm}")

/-- `normalize_segment`. -/
def normalizeSegment (segment algorithm : String) : String :=
  if algorithm = "bbp_hex_v1" then pc.upper segment else segment

def hexDigits : List Char := "0123456789ABCDEF".toList

/-- `is_valid_segment_charset`; an empty text is no number. -/
def isValidSegmentCharset (segment algorithm : String) : Bool :=
  if algorithm = "bbp_hex_v1" then (pc.upper segment).toList.all (· ∈ hexDigits)
  else if algorithm = "machin_decimal_v1" then
    segment ≠ "" && segment.toList.all pc.isDigitChar
  else false

/-! ## The proof of a submission -/

/-- `hash_result`. -/
def hashResult (cfg : Config) (segment : String) (rangeStart rangeEnd : ℤ) (algorithm : String) :
    String :=
  cfg.hashJson (.obj [("algorithm", .str algorithm), ("range_end", .int rangeEnd),
    ("range_start", .int rangeStart), ("segment", .str segment)])

/-- A digit of the segment that is looked at, with its index. -/
structure SegmentSample where
  position : ℤ
  digit : Char
deriving DecidableEq

/-- `build_samples`. -/
def buildSamples (segment : String) (rangeStart : ℤ) : List SegmentSample :=
  let digits := segment.toList
  let length := digits.length
  let first := String.ofList (digits.take 4)
  let last := String.ofList (digits.drop (length - 4))
  let indexes := pc.sampleIndexes s!"{rangeStart}:{length}:{first}:{last}" length
    (min pc.sampleCount length)
  (indexes.mergeSort (· ≤ ·)).filterMap fun (index : ℕ) =>
    digits[index]?.map fun digit => ⟨rangeStart + index, digit⟩

structure ValidationResult where
  accepted : Bool
  reason : String
  expectedHash : String
  samples : List SegmentSample
deriving DecidableEq

/-- `validate_submission`. -/
def validateSubmission (cfg : Config) (rangeStart rangeEnd : ℤ)
    (algorithm submittedSegment submittedHash : String) : Option ValidationResult :=
  let submitted := normalizeSegment pc submittedSegment algorithm
  if !isValidSegmentCharset pc submitted algorithm then
    some ⟨false, "segment contains symbols not allowed by algorithm", "", []⟩
  else if (submitted.toList.length : ℤ) ≠ rangeEnd - rangeStart + 1 then
    some ⟨false, "segment length does not match assigned range", "", []⟩
  else
    (calculatePiSegment pc rangeStart rangeEnd algorithm).map fun
      | .error message => ⟨false, message, "", []⟩
      | .ok expected =>
        let expectedHash := hashResult cfg expected rangeStart rangeEnd algorithm
        let samples := buildSamples pc expected rangeStart
        if submittedHash ≠ expectedHash then
          ⟨false, "result_hash does not match independently calculated hash", expectedHash, samples⟩
        else if samples.any fun sample =>
            submitted.toList[(sample.position - rangeStart).toNat]? ≠ some sample.digit then
          ⟨false, "random sample validation failed", expectedHash, samples⟩
        else if submitted ≠ expected then
          ⟨false, "submitted segment does not match expected pi segment", expectedHash, samples⟩
        else ⟨true, "accepted", expectedHash, samples⟩

end Picoin
