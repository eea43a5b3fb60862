import Mathlib.Data.List.Sort
import Mathlib.Data.Nat.Notation
import Mathlib.Tactic.Ring

/-!
# JSON values and their canonical text

`Json` is a JSON value; `canonicalJson` writes it as `json.dumps` does with `sort_keys` and the
separators `","` and `":"`: object keys sorted, no blanks, every character outside printable
ASCII escaped.

Numbers are integers or decimals with eight fractional digits; the latter are written as the
shortest text that reads back as the number. What a decoder reads as an infinity or as `NaN` is a
decimal beyond all doubles (`floatLimit`, `nanUnits`).
-/

namespace Json

/-- A JSON value. `float` holds a number of units of `10 ^ -8`. -/
inductive Value where
  | null
  | bool (b : Bool)
  | int (i : ℤ)
  | float (hundredMillionths : ℤ)
  | str (s : String)
  | arr (items : List Value)
  | obj (fields : List (String × Value))

namespace Value

/-- `null` for an absent text. -/
def optStr (s : Option String) : Value := s.elim .null .str

/-- `null` for an absent integer. -/
def optInt (i : Option ℤ) : Value := i.elim .null .int

/-- `null` for an absent decimal. -/
def optFloat (x : Option ℤ) : Value := x.elim .null .float

/-- An optional object field: left out when absent. -/
def field? (key : String) (v : Option Value) : List (String × Value) :=
  v.elim [] fun x => [(key, x)]

end Value

/-! ## Numbers -/

/-- The first integer that rounds to no finite double. -/
def floatBound : ℤ := 2 ^ 1024 - 2 ^ 970

/-- The units that no finite double has; those from here on stand for an infinity, which a decoder
reads for `1e400`. -/
def floatLimit : ℤ := floatBound * 10 ^ 8

/-- The units that stand for `NaN`. -/
def nanUnits : ℤ := 2 ^ 1025 * 10 ^ 8

/-- The digits of `n` in base ten, padded with zeros to `width`. -/
def padded (width n : ℕ) : List Char :=
  let digits := (toString n).toList
  List.replicate (width - digits.length) '0' ++ digits

/-- Drop the zeros at the end. -/
def trimZeros (digits : List Char) : List Char :=
  (digits.reverse.dropWhile (· = '0')).reverse

/-- The exponent form of a number below `10 ^ -4`: the digits after the first go behind the
point. -/
def exponentForm (digits : List Char) (exponent : ℕ) : List Char :=
  match digits with
  | [] => "0.0".toList
  | [d] => d :: "e-".toList ++ padded 2 exponent
  | d :: rest => d :: '.' :: rest ++ "e-".toList ++ padded 2 exponent

/-- `repr` of the float nearest to `n / 10 ^ 8`. -/
def reprFloat (n : ℤ) : List Char :=
  let magnitude := n.natAbs
  let sign := if n < 0 then ['-'] else []
  let fraction := trimZeros (padded 8 (magnitude % 10 ^ 8))
  if magnitude ≠ 0 ∧ magnitude < 10 ^ 4 then
    let significant := (toString magnitude).toList
    sign ++ exponentForm (trimZeros significant) (9 - significant.length)
  else
    sign ++ (toString (magnitude / 10 ^ 8)).toList ++ '.' ::
      (if fraction = [] then ['0'] else fraction)

/-! ## Strings -/

/-- The lower-case hexadecimal digit of `n`. -/
def hexDigit (n : ℕ) : Char :=
  if n < 10 then Char.ofNat (48 + n) else Char.ofNat (87 + n)

/-- A `\u` escape of a 16-bit code unit. -/
def unicodeEscape (n : ℕ) : List Char :=
  ['\\', 'u', hexDigit (n / 4096 % 16), hexDigit (n / 256 % 16), hexDigit (n / 16 % 16),
    hexDigit (n % 16)]

/-- The text of one character inside a JSON string. -/
def escape (c : Char) : List Char :=
  if c = '"' then ['\\', '"']
  else if c = '\\' then ['\\', '\\']
  else if c = '\n' then ['\\', 'n']
  else if c = '\r' then ['\\', 'r']
  else if c = '\t' then ['\\', 't']
  else if c = Char.ofNat 8 then ['\\', 'b']
  else if c = Char.ofNat 12 then ['\\', 'f']
  else if 32 ≤ c.toNat ∧ c.toNat < 127 then [c]
  else if c.toNat < 0x10000 then unicodeEscape c.toNat
  else
    -- a pair of surrogates
    unicodeEscape (0xd800 + (c.toNat - 0x10000) / 1024) ++
      unicodeEscape (0xdc00 + (c.toNat - 0x10000) % 1024)

/-- A JSON string with its quotes. -/
def quoted (s : String) : List Char :=
  '"' :: s.toList.flatMap escape ++ ['"']

/-! ## Values -/

/-- Join the parts with commas. -/
def commaSeparated : List (List Char) → List Char
  | [] => []
  | [part] => part
  | part :: rest => part ++ ',' :: commaSeparated rest

/-- The text of an object from its fields' texts, sorted by key. -/
def renderFields (fields : List (String × List Char)) : List Char :=
  '{' :: commaSeparated
    ((fields.insertionSort (·.1 ≤ ·.1)).map fun f => quoted f.1 ++ ':' :: f.2) ++ ['}']

mutual
/-- The canonical text of a value. -/
def render : Value → List Char
  | .null => "null".toList
  | .bool true => "true".toList
  | .bool false => "false".toList
  | .int i => (toString i).toList
  | .float x => reprFloat x
  | .str s => quoted s
  | .arr items => '[' :: commaSeparated (renderItems items) ++ [']']
  | .obj fields => renderFields (renderEntries fields)

def renderItems : List Value → List (List Char)
  | [] => []
  | v :: rest => render v :: renderItems rest

def renderEntries : List (String × Value) → List (String × List Char)
  | [] => []
  | (key, v) :: rest => (key, render v) :: renderEntries rest
end

/-- `json.dumps(data, sort_keys=True, separators=(",", ":"))`. -/
def canonicalJson (data : Value) : String := String.ofList (render data)

example : canonicalJson (.obj [("height", .int 3), ("balances", .arr [.str "a\n", .float 150000000])])
    = "\x7b\"balances\":[\"a\\n\",1.5],\"height\":3\x7d" := by decide

end Json
