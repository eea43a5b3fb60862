import Mathlib.Data.Int.Basic
import Mathlib.Data.Nat.Notation
import Mathlib.Tactic.Ring

/-!
# Instants and timestamps

An instant is a number of microseconds since 1970, in UTC. The program keeps times as text: a
`Timestamp` is a text together with the instant that `datetime.fromisoformat` reads from it, and
`isoformat` is the text the program writes for an instant.
-/

namespace Picoin

/-- Microseconds since 1970-01-01T00:00:00+00:00. -/
abbrev Instant := ℤ

/-- A date of the civil calendar. -/
structure CivilDate where
  year : ℤ
  month : ℤ
  day : ℤ
deriving DecidableEq

/-- The civil date of a day counted from 1970-01-01, by 400-year eras that start in March. -/
def civilDate (days : ℤ) : CivilDate :=
  let shifted := days + 719468
  let era := shifted / 146097
  let dayOfEra := shifted % 146097
  let yearOfEra := (dayOfEra - dayOfEra / 1460 + dayOfEra / 36524 - dayOfEra / 146096) / 365
  let dayOfYear := dayOfEra - (365 * yearOfEra + yearOfEra / 4 - yearOfEra / 100)
  let marchMonth := (5 * dayOfYear + 2) / 153
  let month := if marchMonth < 10 then marchMonth + 3 else marchMonth - 9
  { year := yearOfEra + era * 400 + (if month ≤ 2 then 1 else 0)
    month
    day := dayOfYear - (153 * marchMonth + 2) / 5 + 1 }

def microsecondsPerDay : ℤ := 86400 * 10 ^ 6

def Instant.civilDate (t : Instant) : CivilDate := Picoin.civilDate (t / microsecondsPerDay)

/-- `timedelta(seconds=n)`. -/
def seconds (n : ℤ) : ℤ := n * 10 ^ 6

/-- `timedelta(days=n)`. -/
def days (n : ℤ) : ℤ := n * microsecondsPerDay

/-- Decimal digits padded with zeros to `width`. -/
def zeroPadded (width : ℕ) (n : ℤ) : List Char :=
  let digits := (toString n.toNat).toList
  List.replicate (width - digits.length) '0' ++ digits

/-- `datetime.isoformat` of an instant in UTC. -/
def isoformat (t : Instant) : String :=
  let date := t.civilDate
  let ofDay := t % microsecondsPerDay
  let second := ofDay / 10 ^ 6
  let micro := ofDay % 10 ^ 6
  String.ofList (zeroPadded 4 date.year ++ '-' :: zeroPadded 2 date.month ++
    '-' :: zeroPadded 2 date.day ++ 'T' :: zeroPadded 2 (second / 3600) ++
    ':' :: zeroPadded 2 (second / 60 % 60) ++ ':' :: zeroPadded 2 (second % 60) ++
    (if micro = 0 then [] else '.' :: zeroPadded 6 micro) ++ "+00:00".toList)

/-- A timestamp field: its text and the instant it denotes. -/
structure Timestamp where
  text : String
  instant : Instant
deriving DecidableEq

/-- The timestamp the program writes at an instant. -/
def Timestamp.ofInstant (t : Instant) : Timestamp := ⟨isoformat t, t⟩

/-- `strftime("%Y-%m")`, the epoch of the science quotas and of the reward reserve. -/
def monthEpoch (t : Instant) : String :=
  String.ofList (zeroPadded 4 t.civilDate.year ++ '-' :: zeroPadded 2 t.civilDate.month)

/-- The quarter of an instant, the epoch of the development treasury. -/
def quarterEpoch (t : Instant) : String :=
  String.ofList ((toString t.civilDate.year).toList ++ "-Q".toList ++
    (toString ((t.civilDate.month - 1) / 3 + 1)).toList)

example : isoformat 1709209800250000 = "2024-02-29T12:30:00.250000+00:00" := by decide

end Picoin
