import Mathlib.Data.List.DropRight
import Mathlib.Tactic.Common

/-!
# Text as the handlers clean it

The string operations of the request handlers: `strip`, `upper`, `lower` and the truth value of a
text. `upper` covers the characters whose upper case can be part of an address, `lower` the
letters of the action names.
-/

namespace Picoin

/-- The characters that `str.strip` removes. -/
def isSpace (c : Char) : Bool :=
  let n := c.toNat
  (9 ≤ n ∧ n ≤ 13) || (28 ≤ n ∧ n ≤ 32) || n = 0x85 || n = 0xa0 || n = 0x1680 ||
    (0x2000 ≤ n ∧ n ≤ 0x200a) || n = 0x2028 || n = 0x2029 || n = 0x202f || n = 0x205f || n = 0x3000

/-- `str.strip`. -/
def strip (text : String) : String :=
  String.ofList ((text.toList.dropWhile isSpace).rdropWhile isSpace)

/-- The upper case of a character: ASCII letters, and the two characters outside ASCII whose
upper case consists of characters an address may hold. -/
def upperChar (c : Char) : List Char :=
  if c = 'ı' then ['I'] else if c = 'ﬀ' then ['F', 'F'] else [c.toUpper]

/-- `str.upper`. -/
def upper (text : String) : String := String.ofList (text.toList.flatMap upperChar)

/-- `str.lower`. -/
def lower (text : String) : String := String.ofList (text.toList.map Char.toLower)

/-- `text or default` for a text that may be absent: the empty text is false. -/
def textOr (text : Option String) (default : String) : String :=
  match text with
  | none => default
  | some "" => default
  | some t => t

/-- `str(value or "").strip()`. -/
def clean (text : Option String) : String := strip (textOr text "")

/-- `str(value or "").strip() or None`. -/
def cleanOrNone (text : Option String) : Option String :=
  if clean text = "" then none else some (clean text)

/-- `text[:n]`. -/
def takeChars (n : ℕ) (text : String) : String := String.ofList (text.toList.take n)

/-- `text.startswith(start)`. -/
def startsWith (text start : String) : Bool := start.toList.isPrefixOf text.toList

theorem textOr_some_of_ne {t : String} (h : t ≠ "") (d : String) : textOr (some t) d = t := by
  unfold textOr
  split <;> simp_all

theorem head_dropWhile_not {p : Char → Bool} {l : List Char} {c : Char} {rest : List Char}
    (h : l.dropWhile p = c :: rest) : p c = false := by
  induction l with
  | nil => simp at h
  | cons a l ih =>
    by_cases ha : p a = true
    · rw [List.dropWhile_cons_of_pos ha] at h; exact ih h
    · rw [List.dropWhile_cons_of_neg ha] at h
      cases h; simpa using ha

/-- Dropping at the end keeps a first character that is not dropped itself. -/
theorem dropWhile_rdropWhile {p : Char → Bool} (l : List Char) :
    ((l.dropWhile p).rdropWhile p).dropWhile p = (l.dropWhile p).rdropWhile p := by
  cases hl : l.dropWhile p with
  | nil => simp
  | cons c rest =>
    have hc : p c = false := head_dropWhile_not hl
    have hpre : (c :: rest).rdropWhile p <+: c :: rest := List.rdropWhile_prefix p _
    cases hr : (c :: rest).rdropWhile p with
    | nil => rfl
    | cons d more =>
      rw [hr] at hpre
      obtain ⟨-, hd⟩ := List.cons_prefix_cons.mp hpre |>.symm
      subst hd
      exact List.dropWhile_cons_of_neg (by simpa using hc)

@[simp] theorem strip_strip (text : String) : strip (strip text) = strip text := by
  simp only [strip, String.toList_ofList]
  rw [dropWhile_rdropWhile, List.rdropWhile_idempotent]

@[simp] theorem strip_empty : strip "" = "" := by decide

@[simp] theorem clean_some (t : String) : clean (some t) = strip t := by
  by_cases h : t = ""
  · subst h; rfl
  · rw [clean, textOr_some_of_ne h]

@[simp] theorem clean_none : clean none = "" := by decide

@[simp] theorem clean_some_clean (t : Option String) : clean (some (clean t)) = clean t := by
  rw [clean_some, clean, strip_strip]

@[simp] theorem clean_cleanOrNone (t : Option String) : clean (cleanOrNone t) = clean t := by
  unfold cleanOrNone
  split
  · next h => rw [h, clean_none]
  · rw [clean_some_clean]

@[simp] theorem cleanOrNone_idem (t : Option String) : cleanOrNone (cleanOrNone t) = cleanOrNone t := by
  rw [cleanOrNone, clean_cleanOrNone]; rfl

end Picoin
