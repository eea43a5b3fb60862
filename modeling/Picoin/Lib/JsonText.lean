import Mathlib.Data.String.Basic
import Mathlib.Tactic.IntervalCases
import Mathlib.Tactic.Ring
import Picoin.Lib.Json

/-!
# Canonical JSON is read back uniquely

A text in front of which a JSON string or number has been written determines that string or
number. `unescape` reads one character of a JSON string back; from it follow

* **`quoted_append_inj`** — a quoted string and the text behind it;
* **`toString_int_inj`** — a number that is the whole text;
* **`commaSeparated_forall₂`**, **`commaSeparated_inj`** — a list of parts that are determined
  themselves.
-/

namespace Json

/-! ## Hexadecimal digits -/

/-- The number that a lower-case hexadecimal digit stands for. -/
def hexValue (c : Char) : ℕ := if c.toNat < 58 then c.toNat - 48 else c.toNat - 87

theorem hexValue_hexDigit {n : ℕ} (h : n < 16) : hexValue (hexDigit n) = n := by
  interval_cases n <;> decide

/-- Read a 16-bit code unit behind a `\u`. -/
def readUnit : List Char → Option (ℕ × List Char)
  | a :: b :: c :: d :: rest =>
    some (4096 * hexValue a + 256 * hexValue b + 16 * hexValue c + hexValue d, rest)
  | _ => none

theorem readUnit_unicodeEscape {n : ℕ} (h : n < 0x10000) (rest : List Char) :
    readUnit ((unicodeEscape n).drop 2 ++ rest) = some (n, rest) := by
  have hlt : n / 4096 % 16 < 16 ∧ n / 256 % 16 < 16 ∧ n / 16 % 16 < 16 ∧ n % 16 < 16 := by omega
  simp only [unicodeEscape, List.drop_succ_cons, List.drop_zero, List.cons_append, List.nil_append,
    readUnit, hexValue_hexDigit hlt.1, hexValue_hexDigit hlt.2.1, hexValue_hexDigit hlt.2.2.1,
    hexValue_hexDigit hlt.2.2.2, Option.some.injEq, Prod.mk.injEq, and_true]
  omega

/-! ## One character -/

/-- The character of a one-letter escape. -/
def unescapeLetter (c : Char) : Char :=
  if c = 'n' then '\n'
  else if c = 'r' then '\r'
  else if c = 't' then '\t'
  else if c = 'b' then Char.ofNat 8
  else if c = 'f' then Char.ofNat 12
  else c

/-- Read the code units behind a `\u`; a high surrogate is followed by a second escape. -/
def readUnicode (text : List Char) : Option (Char × List Char) :=
  match readUnit text with
  | none => none
  | some (n, rest) =>
    if n < 0xd800 ∨ 0xe000 ≤ n then some (Char.ofNat n, rest)
    else (readUnit (rest.drop 2)).map fun low =>
      (Char.ofNat (0x10000 + (n - 0xd800) * 1024 + (low.1 - 0xdc00)), low.2)

/-- Read one character of a JSON string. -/
def unescape : List Char → Option (Char × List Char)
  | [] => none
  | c :: rest =>
    if c ≠ '\\' then some (c, rest)
    else match rest with
      | [] => none
      | letter :: rest =>
        if letter = 'u' then readUnicode rest else some (unescapeLetter letter, rest)

theorem unescape_unicodeEscape (n : ℕ) (rest : List Char) :
    unescape (unicodeEscape n ++ rest) = readUnicode ((unicodeEscape n).drop 2 ++ rest) := rfl

/-- A code point is no surrogate and below 0x110000. -/
theorem toNat_valid (c : Char) : c.toNat < 0xd800 ∨ (0xdfff < c.toNat ∧ c.toNat < 0x110000) := c.valid

/-- What has been escaped is read back. -/
theorem unescape_escape (c : Char) (rest : List Char) :
    unescape (escape c ++ rest) = some (c, rest) := by
  unfold escape
  split_ifs with h₁ h₂ h₃ h₄ h₅ h₆ h₇ h₈ h₉
  · subst h₁; rfl
  · subst h₂; rfl
  · subst h₃; rfl
  · subst h₄; rfl
  · subst h₅; rfl
  · subst h₆; rfl
  · subst h₇; rfl
  · -- a printable character
    show (if c ≠ '\\' then some (c, rest) else _) = _
    rw [if_pos h₂]
  · -- one code unit
    rw [unescape_unicodeEscape, readUnicode, readUnit_unicodeEscape h₉]
    have hvalid := toNat_valid c
    dsimp only
    rw [if_pos (by omega), Char.ofNat_toNat]
  · -- two surrogates
    have hvalid := toNat_valid c
    have hhigh : 0xd800 + (c.toNat - 0x10000) / 1024 < 0x10000 := by omega
    have hlow : 0xdc00 + (c.toNat - 0x10000) % 1024 < 0x10000 := by omega
    rw [List.append_assoc, unescape_unicodeEscape, readUnicode, readUnit_unicodeEscape hhigh]
    dsimp only
    rw [if_neg (by omega)]
    have hdrop : (unicodeEscape (0xdc00 + (c.toNat - 0x10000) % 1024) ++ rest).drop 2 =
        (unicodeEscape (0xdc00 + (c.toNat - 0x10000) % 1024)).drop 2 ++ rest := rfl
    rw [hdrop, readUnit_unicodeEscape hlow, Option.map_some]
    have hsum : 0x10000 + (0xd800 + (c.toNat - 0x10000) / 1024 - 0xd800) * 1024 +
        (0xdc00 + (c.toNat - 0x10000) % 1024 - 0xdc00) = c.toNat := by omega
    rw [hsum, Char.ofNat_toNat]

/-- No escaped character begins like the end of a string. -/
theorem escape_append_ne_quote (c : Char) (x y : List Char) : escape c ++ x ≠ '"' :: y := by
  intro h
  have hread := unescape_escape c x
  rw [h] at hread
  have hquote : unescape ('"' :: y) = some ('"', y) := rfl
  rw [hquote, Option.some.injEq, Prod.mk.injEq] at hread
  obtain ⟨rfl, rfl⟩ := hread
  have hlength := congrArg List.length h
  simp [escape] at hlength

/-! ## Strings -/

theorem escaped_append_inj {s t x y : List Char}
    (h : s.flatMap escape ++ '"' :: x = t.flatMap escape ++ '"' :: y) : s = t ∧ x = y := by
  induction s generalizing t with
  | nil =>
    cases t with
    | nil => exact ⟨rfl, (List.cons.inj h).2⟩
    | cons d t =>
      rw [List.flatMap_cons, List.append_assoc] at h
      exact absurd h.symm (escape_append_ne_quote d _ _)
  | cons c s ih =>
    cases t with
    | nil =>
      rw [List.flatMap_cons, List.append_assoc] at h
      exact absurd h (escape_append_ne_quote c _ _)
    | cons d t =>
      rw [List.flatMap_cons, List.flatMap_cons, List.append_assoc, List.append_assoc] at h
      have hread := congrArg unescape h
      rw [unescape_escape, unescape_escape, Option.some.injEq, Prod.mk.injEq] at hread
      obtain ⟨rfl, hrest⟩ := hread
      obtain ⟨rfl, hxy⟩ := ih hrest
      exact ⟨rfl, hxy⟩

/-- A quoted string in front of a text determines the string and the text. -/
theorem quoted_append_inj {s t : String} {x y : List Char} (h : quoted s ++ x = quoted t ++ y) :
    s = t ∧ x = y := by
  have h' : s.toList.flatMap escape ++ '"' :: x = t.toList.flatMap escape ++ '"' :: y := by
    simpa [quoted] using h
  obtain ⟨hst, hxy⟩ := escaped_append_inj h'
  exact ⟨String.toList_inj.mp hst, hxy⟩

/-! ## Numbers -/

theorem nat_repr_inj {m n : ℕ} (h : m.repr = n.repr) : m = n := by
  rw [Nat.repr_eq_ofList_toDigits, Nat.repr_eq_ofList_toDigits] at h
  have hdigits : Nat.toDigits 10 m = Nat.toDigits 10 n := by
    simpa using congrArg String.toList h
  have hvalue := congrArg (fun digits => Nat.ofDigitChars 10 digits 0) hdigits
  simpa using hvalue

theorem minus_append_ne_nat_repr (s : String) (n : ℕ) : "-" ++ s ≠ n.repr := by
  intro h
  rw [Nat.repr_eq_ofList_toDigits] at h
  have hlist : '-' :: s.toList = Nat.toDigits 10 n := by
    simpa using congrArg String.toList h
  have hmem : '-' ∈ Nat.toDigits 10 n := hlist ▸ List.mem_cons_self
  have hdigit := Nat.isDigit_of_mem_toDigits (by decide) (by decide) hmem
  exact absurd hdigit (by decide)

/-- A number's text determines the number. -/
theorem toString_int_inj {i j : ℤ} (h : toString i = toString j) : i = j := by
  rw [Int.toString_eq_repr, Int.toString_eq_repr, Int.repr_eq_if, Int.repr_eq_if] at h
  split_ifs at h with hi hj hj
  · have hnat := nat_repr_inj h
    omega
  · exact absurd h.symm (minus_append_ne_nat_repr _ _)
  · exact absurd h (minus_append_ne_nat_repr _ _)
  · have hnat := nat_repr_inj (String.append_right_inj _ |>.mp h)
    omega

theorem append_cons_inj {c : Char} {s t x y : List Char} (hs : c ∉ s) (ht : c ∉ t)
    (h : s ++ c :: x = t ++ c :: y) : s = t ∧ x = y := by
  induction s generalizing t with
  | nil =>
    cases t with
    | nil => exact ⟨rfl, (List.cons.inj h).2⟩
    | cons d t => exact absurd ((List.cons.inj h).1 ▸ List.mem_cons_self) ht
  | cons d s ih =>
    cases t with
    | nil => exact absurd ((List.cons.inj h).1 ▸ List.mem_cons_self) hs
    | cons d' t =>
      obtain ⟨rfl, hrest⟩ := List.cons.inj h
      have hs' : c ∉ s := fun hmem => hs (List.mem_cons_of_mem _ hmem)
      have ht' : c ∉ t := fun hmem => ht (List.mem_cons_of_mem _ hmem)
      obtain ⟨rfl, hxy⟩ := ih hs' ht' hrest
      exact ⟨rfl, hxy⟩

theorem brace_notMem_nat_repr (n : ℕ) : '}' ∉ n.repr.toList := by
  rw [Nat.repr_eq_ofList_toDigits, String.toList_ofList]
  intro hmem
  have hdigit := Nat.isDigit_of_mem_toDigits (by decide) (by decide) hmem
  exact absurd hdigit (by decide)

theorem brace_notMem_toString_int (i : ℤ) : '}' ∉ (toString i).toList := by
  rw [Int.toString_eq_repr, Int.repr_eq_if]
  split
  · exact brace_notMem_nat_repr _
  · intro hmem
    rw [String.toList_append] at hmem
    rcases List.mem_append.mp hmem with hminus | hdigits
    · exact absurd hminus (by decide)
    · exact brace_notMem_nat_repr _ hdigits

/-- A number at the end of an object determines the number and the text behind the object. -/
theorem int_append_brace_inj {i j : ℤ} {x y : List Char}
    (h : (toString i).toList ++ '}' :: x = (toString j).toList ++ '}' :: y) : i = j ∧ x = y := by
  obtain ⟨hij, hxy⟩ :=
    append_cons_inj (brace_notMem_toString_int i) (brace_notMem_toString_int j) h
  exact ⟨toString_int_inj (String.toList_inj.mp hij), hxy⟩

/-! ## The order of fields -/

theorem renderEntries_eq_map :
    ∀ fields : List (String × Value), renderEntries fields = fields.map fun f => (f.1, render f.2)
  | [] => rfl
  | (key, v) :: rest => by rw [renderEntries, renderEntries_eq_map rest, List.map_cons]

/-- The keys of an object are sorted, so that the order in which they are written is lost. -/
theorem canonicalJson_perm {fields fields' : List (String × Value)}
    (hnodup : (fields.map Prod.fst).Nodup) (hperm : fields.Perm fields') :
    canonicalJson (.obj fields) = canonicalJson (.obj fields') := by
  let entry : String × Value → String × List Char := fun f => (f.1, render f.2)
  let le : String × List Char → String × List Char → Prop := fun a b => a.1 ≤ b.1
  have : Std.Total le := ⟨fun a b => le_total a.1 b.1⟩
  have : IsTrans (String × List Char) le := ⟨fun _ _ _ h h' => le_trans h h'⟩
  have hkeys : ((fields.map entry).map Prod.fst).Nodup := by
    rw [List.map_map]
    exact hnodup
  -- two entries with one key are one entry
  have hunique : ∀ a ∈ fields.map entry, ∀ b ∈ fields.map entry, a.1 = b.1 → a = b :=
    fun a ha b hb h => List.inj_on_of_nodup_map hkeys ha hb h
  have hsorted : (fields.map entry).insertionSort le = (fields'.map entry).insertionSort le := by
    have hboth : ((fields.map entry).insertionSort le).Perm
        ((fields'.map entry).insertionSort le) :=
      (List.perm_insertionSort le _).trans
        ((hperm.map entry).trans (List.perm_insertionSort le _).symm)
    refine List.Perm.eq_of_pairwise (fun a b ha hb hab hba => ?_)
      (List.pairwise_insertionSort le _) (List.pairwise_insertionSort le _) hboth
    have ha' := (List.mem_insertionSort le).mp ha
    have hb' := (List.mem_insertionSort le).mp (hboth.symm.subset hb)
    exact hunique a ha' b hb' (le_antisymm hab hba)
  unfold canonicalJson
  rw [render, render, renderFields, renderFields, renderEntries_eq_map, renderEntries_eq_map]
  exact congrArg (fun rows : List (String × List Char) => String.ofList ('{' :: commaSeparated
    (rows.map fun f => quoted f.1 ++ ':' :: f.2) ++ ['}'])) hsorted

/-- Fields whose keys are in order are written as they stand. -/
theorem render_obj_of_sorted {fields : List (String × Value)}
    (hsorted : fields.Pairwise fun a b => a.1 ≤ b.1) :
    render (.obj fields) =
      '{' :: commaSeparated (fields.map fun f => quoted f.1 ++ ':' :: render f.2) ++ ['}'] := by
  have hentries : ((fields.map fun f => (f.1, render f.2)) : List (String × List Char)).Pairwise
      fun a b => a.1 ≤ b.1 := List.pairwise_map.mpr hsorted
  rw [render, renderFields, renderEntries_eq_map, List.Pairwise.insertionSort_eq hentries,
    List.map_map]
  rfl

/-! ## Lists -/

theorem renderItems_eq_map (items : List Value) : renderItems items = items.map render := by
  induction items with
  | nil => rfl
  | cons v rest ih => rw [renderItems, ih, List.map_cons]

/-- What follows the first part of a list. -/
theorem commaSeparated_cons (part : List Char) (rest : List (List Char)) (x : List Char) :
    commaSeparated (part :: rest) ++ x =
      part ++ (if rest = [] then x else ',' :: (commaSeparated rest ++ x)) := by
  cases rest with
  | nil => rfl
  | cons next rest =>
    rw [if_neg (List.cons_ne_nil _ _), commaSeparated, List.append_assoc, List.cons_append]
    exact List.cons_ne_nil _ _

/-- The parts of a list are determined one by one, if each is in front of what can follow it, and none
begins like the end of the list. -/
theorem commaSeparated_forall₂ {α : Type} {R : α → α → Prop} (part : α → List Char)
    (Follows : List Char → Prop) {closing : Char} (hclosing : ',' ≠ closing)
    (hcomma : ∀ x, Follows (',' :: x)) (hclose : ∀ x, Follows (closing :: x))
    (hpart : ∀ {a b : α} {x y : List Char}, Follows x → Follows y →
      part a ++ x = part b ++ y → R a b ∧ x = y)
    (hend : ∀ (a : α) (x y : List Char), part a ++ x ≠ closing :: y) {s t : List α} {x y : List Char}
    (h : commaSeparated (s.map part) ++ closing :: x = commaSeparated (t.map part) ++ closing :: y) :
    List.Forall₂ R s t := by
  have hfollows : ∀ (rest : List α) (z : List Char), Follows
      (if rest.map part = [] then closing :: z
        else ',' :: (commaSeparated (rest.map part) ++ closing :: z)) := by
    intro rest z
    split
    · exact hclose z
    · exact hcomma _
  induction s generalizing t with
  | nil =>
    cases t with
    | nil => exact .nil
    | cons b rest =>
      rw [List.map_cons, commaSeparated_cons] at h
      exact absurd h.symm (hend b _ _)
  | cons a rest ih =>
    cases t with
    | nil =>
      rw [List.map_cons, commaSeparated_cons] at h
      exact absurd h (hend a _ _)
    | cons b rest' =>
      rw [List.map_cons, List.map_cons, commaSeparated_cons, commaSeparated_cons] at h
      obtain ⟨hhead, htail⟩ := hpart (hfollows rest x) (hfollows rest' y) h
      refine .cons hhead ?_
      -- a comma or the end of the list follows
      cases rest with
      | nil =>
        cases rest' with
        | nil => exact .nil
        | cons next rest' =>
          rw [List.map_nil, if_pos rfl, if_neg (by simp)] at htail
          exact absurd (List.cons.inj htail).1.symm hclosing
      | cons next rest =>
        cases rest' with
        | nil =>
          rw [List.map_nil, if_pos rfl, if_neg (by simp)] at htail
          exact absurd (List.cons.inj htail).1 hclosing
        | cons next' rest' =>
          rw [if_neg (by simp), if_neg (by simp)] at htail
          exact ih (List.cons.inj htail).2

/-- A list is determined if each of its parts is, and none begins like the end of a list. -/
theorem commaSeparated_inj {α : Type} (part : α → List Char)
    (hpart : ∀ {a b : α} {x y : List Char}, part a ++ x = part b ++ y → a = b ∧ x = y)
    (hend : ∀ (a : α) (x y : List Char), part a ++ x ≠ ']' :: y) {s t : List α} {x y : List Char}
    (h : commaSeparated (s.map part) ++ ']' :: x = commaSeparated (t.map part) ++ ']' :: y) :
    s = t := by
  have hparts := commaSeparated_forall₂ part (fun _ => True) (by decide) (fun _ => trivial)
    (fun _ => trivial) (fun _ _ heq => hpart heq) hend h
  rwa [List.forall₂_eq_eq_eq] at hparts

/-- The text of a list of strings determines the list. -/
theorem canonicalJson_strings_inj {s t : List String}
    (h : canonicalJson (.arr (s.map .str)) = canonicalJson (.arr (t.map .str))) : s = t := by
  have hchars : render (.arr (s.map .str)) = render (.arr (t.map .str)) := String.ofList_inj.mp h
  rw [render, render, renderItems_eq_map, renderItems_eq_map, List.map_map, List.map_map] at hchars
  exact commaSeparated_inj (render ∘ Value.str) quoted_append_inj
    (fun _ _ _ heq => absurd (List.cons.inj heq).1 (by decide)) (List.cons.inj hchars).2

end Json
