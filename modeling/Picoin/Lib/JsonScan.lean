import Mathlib.Data.List.DropRight
import Picoin.Lib.JsonText

/-!
# Reading a canonical text

A canonical text ends where its brackets are closed outside of strings. `scan` cuts a text there, so that
the text of a value is known in front of what follows it.

* **`render_append_inj`** — a value's text and the text behind it;
* **`render_arr_forall₂`**, **`render_field_eq`** — the parts of a list and of an object;
* **`render_str_inj`**, **`render_int_inj`**, **`render_float_inj`** — the texts of single values.
-/

namespace Json

/-! ## Scanning -/

/-- Where a reader is: outside of strings, in one, or behind a backslash in one. -/
inductive ScanMode where
  | outside
  | string
  | escaped

/-- What is put before the part that is cut. -/
def prepend (part : List Char) (cut : List Char × List Char) : List Char × List Char :=
  (part ++ cut.1, cut.2)

/-- The depth after a character outside of strings. -/
def depthAfter (depth : ℕ) (c : Char) : ℕ :=
  if c = '[' ∨ c = '{' then depth + 1 else if c = ']' ∨ c = '}' then depth - 1 else depth

/-- The part up to the comma or bracket that is outside of all brackets and strings, and the rest. -/
def scan (depth : ℕ) : ScanMode → List Char → List Char × List Char
  | _, [] => ([], [])
  | .outside, c :: rest =>
    if depth = 0 ∧ (c = ',' ∨ c = ']' ∨ c = '}') then ([], c :: rest)
    else prepend [c] (scan (depthAfter depth c) (if c = '"' then .string else .outside) rest)
  | .string, c :: rest =>
    prepend [c] (scan depth (if c = '"' then .outside else if c = '\\' then .escaped else .string) rest)
  | .escaped, c :: rest => prepend [c] (scan depth .string rest)

/-- A text that is passed over at every depth. -/
def Passes (part : List Char) : Prop :=
  ∀ depth x, scan depth .outside (part ++ x) = prepend part (scan depth .outside x)

/-- A text that is passed over inside of brackets. -/
def PassesInside (part : List Char) : Prop :=
  ∀ depth x, scan (depth + 1) .outside (part ++ x) = prepend part (scan (depth + 1) .outside x)

/-- A text that is passed over inside of a string. -/
def PassesInString (part : List Char) : Prop :=
  ∀ depth x, scan depth .string (part ++ x) = prepend part (scan depth .string x)

theorem Passes.inside {part : List Char} (h : Passes part) : PassesInside part := fun depth => h (depth + 1)

theorem prepend_prepend (a b : List Char) (cut : List Char × List Char) :
    prepend a (prepend b cut) = prepend (a ++ b) cut := by
  unfold prepend
  rw [List.append_assoc]

theorem Passes.append {a b : List Char} (ha : Passes a) (hb : Passes b) : Passes (a ++ b) := by
  intro depth x
  rw [List.append_assoc, ha, hb, prepend_prepend]

theorem PassesInside.append {a b : List Char} (ha : PassesInside a) (hb : PassesInside b) :
    PassesInside (a ++ b) := by
  intro depth x
  rw [List.append_assoc, ha, hb, prepend_prepend]

theorem PassesInString.append {a b : List Char} (ha : PassesInString a) (hb : PassesInString b) :
    PassesInString (a ++ b) := by
  intro depth x
  rw [List.append_assoc, ha, hb, prepend_prepend]

theorem passes_nil : Passes [] := fun _ _ => rfl

/-- A character outside of strings that is no bracket, comma or quote. -/
def plain (c : Char) : Bool :=
  c ≠ ',' && c ≠ ']' && c ≠ '}' && c ≠ '[' && c ≠ '{' && c ≠ '"'

theorem passes_plain {c : Char} (h : plain c = true) : Passes [c] := by
  intro depth x
  unfold plain at h
  simp only [Bool.and_eq_true, decide_eq_true_eq] at h
  obtain ⟨⟨⟨⟨⟨hcomma, hclose⟩, hbrace⟩, hopen⟩, hobject⟩, hquote⟩ := h
  rw [List.singleton_append, scan, if_neg (by simp [hcomma, hclose, hbrace]), if_neg hquote, depthAfter,
    if_neg (by simp [hopen, hobject]), if_neg (by simp [hclose, hbrace])]

theorem passes_of_plain {part : List Char} (h : ∀ c ∈ part, plain c = true) : Passes part := by
  induction part with
  | nil => exact passes_nil
  | cons c rest ih =>
    have hc := passes_plain (h c List.mem_cons_self)
    exact hc.append (ih fun d hd => h d (List.mem_cons_of_mem c hd))

theorem passesInside_comma : PassesInside [','] := by
  intro depth x
  rw [List.singleton_append, scan, if_neg (by omega)]
  rfl

/-! ## Strings -/

theorem passesInString_char {c : Char} (hquote : c ≠ '"') (hslash : c ≠ '\\') : PassesInString [c] := by
  intro depth x
  rw [List.singleton_append, scan, if_neg hquote, if_neg hslash]

theorem passesInString_escaped (c : Char) : PassesInString ['\\', c] := by
  intro depth x
  rfl

theorem hexDigit_ne (n : ℕ) : hexDigit (n % 16) ≠ '"' ∧ hexDigit (n % 16) ≠ '\\' :=
  (by decide : ∀ k < 16, hexDigit k ≠ '"' ∧ hexDigit k ≠ '\\') _ (Nat.mod_lt _ (by decide))

theorem passesInString_unicodeEscape (n : ℕ) : PassesInString (unicodeEscape n) := by
  have hdigit : ∀ k, PassesInString [hexDigit (k % 16)] := fun k =>
    passesInString_char (hexDigit_ne k).1 (hexDigit_ne k).2
  exact (passesInString_escaped 'u').append
    ((hdigit _).append ((hdigit _).append ((hdigit _).append (hdigit _))))

theorem passesInString_escape (c : Char) : PassesInString (escape c) := by
  -- a short escape, the character itself, one code unit, or a pair of surrogates
  unfold escape
  split_ifs with hquote hslash
  · exact passesInString_escaped _
  · exact passesInString_escaped _
  · exact passesInString_escaped _
  · exact passesInString_escaped _
  · exact passesInString_escaped _
  · exact passesInString_escaped _
  · exact passesInString_escaped _
  · exact passesInString_char hquote hslash
  · exact passesInString_unicodeEscape _
  · exact (passesInString_unicodeEscape _).append (passesInString_unicodeEscape _)

theorem passesInString_flatMap (chars : List Char) : PassesInString (chars.flatMap escape) := by
  induction chars with
  | nil => exact fun _ _ => rfl
  | cons c rest ih =>
    rw [List.flatMap_cons]
    exact (passesInString_escape c).append ih

theorem passes_quoted (s : String) : Passes (quoted s) := by
  intro depth x
  have hbody := passesInString_flatMap s.toList depth ('"' :: x)
  have hclose : scan depth .string ('"' :: x) = prepend ['"'] (scan depth .outside x) := rfl
  have hopen : ∀ y, scan depth .outside ('"' :: y) = prepend ['"'] (scan depth .string y) := by
    intro y
    rw [scan, if_neg (by simp)]
    rfl
  unfold quoted
  rw [List.cons_append, List.cons_append, List.append_assoc, List.singleton_append, hopen, hbody, hclose,
    prepend_prepend, prepend_prepend]
  rfl

/-! ## Lists and objects -/

theorem passesInside_commaSeparated {parts : List (List Char)} (h : ∀ part ∈ parts, Passes part) :
    PassesInside (commaSeparated parts) := by
  induction parts with
  | nil => exact passes_nil.inside
  | cons part rest ih =>
    have hpart := (h part List.mem_cons_self).inside
    have hrest := ih fun p hp => h p (List.mem_cons_of_mem part hp)
    -- the last part has no comma behind it
    cases rest with
    | nil => exact hpart
    | cons next rest => exact hpart.append (passesInside_comma.append hrest)

/-- Brackets around what is passed over inside of them. -/
theorem PassesInside.wrap {part : List Char} (h : PassesInside part) {opening closing : Char}
    (hopening : opening = '[' ∧ closing = ']' ∨ opening = '{' ∧ closing = '}') :
    Passes (opening :: part ++ [closing]) := by
  intro depth x
  have hopen : ∀ y, scan depth .outside (opening :: y) = prepend [opening] (scan (depth + 1) .outside y) := by
    intro y
    rcases hopening with ⟨rfl, -⟩ | ⟨rfl, -⟩
    · rw [scan, if_neg (by simp)]
      rfl
    · rw [scan, if_neg (by simp)]
      rfl
  have hclose : scan (depth + 1) .outside (closing :: x) = prepend [closing] (scan depth .outside x) := by
    rcases hopening with ⟨-, rfl⟩ | ⟨-, rfl⟩
    · rw [scan, if_neg (by omega)]
      rfl
    · rw [scan, if_neg (by omega)]
      rfl
  rw [List.cons_append, List.cons_append, List.append_assoc, List.singleton_append, hopen, h, hclose,
    prepend_prepend, prepend_prepend]
  rfl

/-! ## Numbers -/

theorem plain_of_isDigit {c : Char} (h : c.isDigit = true) : plain c = true := by
  unfold plain
  simp only [Bool.and_eq_true, decide_eq_true_eq]
  refine ⟨⟨⟨⟨⟨?_, ?_⟩, ?_⟩, ?_⟩, ?_⟩, ?_⟩ <;> rintro rfl <;> exact absurd h (by decide)

theorem isDigit_of_mem_toString {n : ℕ} {c : Char} (h : c ∈ (toString n).toList) : c.isDigit = true := by
  rw [Nat.toString_eq_repr, Nat.repr_eq_ofList_toDigits, String.toList_ofList] at h
  exact Nat.isDigit_of_mem_toDigits (by decide) (by decide) h

theorem plain_of_mem_toString_int {i : ℤ} {c : Char} (h : c ∈ (toString i).toList) : plain c = true := by
  rw [Int.toString_eq_repr, Int.repr_eq_if] at h
  split at h
  · exact plain_of_isDigit (isDigit_of_mem_toString h)
  · rw [String.toList_append] at h
    rcases List.mem_append.mp h with hminus | hdigits
    · rw [List.mem_singleton.mp hminus]
      decide
    · exact plain_of_isDigit (isDigit_of_mem_toString hdigits)

theorem isDigit_of_mem_padded {width n : ℕ} {c : Char} (h : c ∈ padded width n) : c.isDigit = true := by
  rcases List.mem_append.mp h with hzero | hdigits
  · rw [(List.mem_replicate.mp hzero).2]
    decide
  · exact isDigit_of_mem_toString hdigits

theorem mem_of_mem_trimZeros {digits : List Char} {c : Char} (h : c ∈ trimZeros digits) : c ∈ digits := by
  unfold trimZeros at h
  rw [List.mem_reverse] at h
  exact List.mem_reverse.mp ((List.dropWhile_sublist _).subset h)

theorem plain_of_mem_exponentForm {digits : List Char} {exponent : ℕ} {c : Char}
    (hdigits : ∀ d ∈ digits, d.isDigit = true) (h : c ∈ exponentForm digits exponent) :
    plain c = true := by
  have hexponent : ∀ d ∈ padded 2 exponent, plain d = true := fun d hd =>
    plain_of_isDigit (isDigit_of_mem_padded hd)
  have hsign : ∀ d ∈ "e-".toList, plain d = true := List.all_eq_true.mp (by decide)
  unfold exponentForm at h
  split at h
  · exact List.all_eq_true.mp (by decide : "0.0".toList.all plain = true) c h
  · rename_i d
    rcases List.mem_append.mp h with h | h
    · rcases List.mem_cons.mp h with rfl | h
      · exact plain_of_isDigit (hdigits c List.mem_cons_self)
      · exact hsign c h
    · exact hexponent c h
  · rename_i d rest _
    rcases List.mem_append.mp h with h | h
    · rcases List.mem_append.mp h with h | h
      · rcases List.mem_cons.mp h with rfl | h
        · exact plain_of_isDigit (hdigits c List.mem_cons_self)
        · rcases List.mem_cons.mp h with rfl | h
          · decide
          · exact plain_of_isDigit (hdigits c (List.mem_cons_of_mem d h))
      · exact hsign c h
    · exact hexponent c h

theorem plain_of_mem_reprFloat {n : ℤ} {c : Char} (h : c ∈ reprFloat n) : plain c = true := by
  have hsign : ∀ d ∈ (if n < 0 then ['-'] else []), plain d = true := by
    split
    · exact List.all_eq_true.mp (by decide)
    · exact fun d hd => absurd hd List.not_mem_nil
  unfold reprFloat at h
  dsimp only at h
  split at h
  · rcases List.mem_append.mp h with h | h
    · exact hsign c h
    · exact plain_of_mem_exponentForm
        (fun d hd => isDigit_of_mem_toString (mem_of_mem_trimZeros hd)) h
  · rcases List.mem_append.mp h with h | h
    · rcases List.mem_append.mp h with h | h
      · exact hsign c h
      · exact plain_of_isDigit (isDigit_of_mem_toString h)
    · rcases List.mem_cons.mp h with rfl | h
      · decide
      · split at h
        · rw [List.mem_singleton.mp h]
          decide
        · exact plain_of_isDigit (isDigit_of_mem_padded (mem_of_mem_trimZeros h))

/-! ## Values -/

mutual
/-- A value's text is passed over, by its constructor. -/
theorem passes_render : ∀ v : Value, Passes (render v)
  | .null => passes_of_plain (List.all_eq_true.mp (by decide))
  | .bool true => passes_of_plain (List.all_eq_true.mp (by decide))
  | .bool false => passes_of_plain (List.all_eq_true.mp (by decide))
  | .int _ => passes_of_plain fun _ hc => plain_of_mem_toString_int hc
  | .float _ => passes_of_plain fun _ hc => plain_of_mem_reprFloat hc
  | .str s => passes_quoted s
  | .arr items => by
    rw [render]
    exact (passesInside_commaSeparated (passes_renderItems items)).wrap (.inl ⟨rfl, rfl⟩)
  | .obj fields => by
    rw [render, renderFields]
    refine (passesInside_commaSeparated fun part hpart => ?_).wrap (.inr ⟨rfl, rfl⟩)
    obtain ⟨entry, hentry, rfl⟩ := List.mem_map.mp hpart
    have hvalue := passes_renderEntries fields entry ((List.mem_insertionSort _).mp hentry)
    exact (passes_quoted entry.1).append ((passes_plain (by decide) : Passes [':']).append hvalue)

theorem passes_renderItems : ∀ items : List Value, ∀ part ∈ renderItems items, Passes part
  | [], part, h => absurd h List.not_mem_nil
  | v :: rest, part, h => by
    rw [renderItems] at h
    rcases List.mem_cons.mp h with rfl | h
    · exact passes_render v
    · exact passes_renderItems rest part h

theorem passes_renderEntries : ∀ fields : List (String × Value), ∀ entry ∈ renderEntries fields,
    Passes entry.2
  | [], entry, h => absurd h List.not_mem_nil
  | (key, v) :: rest, entry, h => by
    rw [renderEntries] at h
    rcases List.mem_cons.mp h with rfl | h
    · exact passes_render v
    · exact passes_renderEntries rest entry h
end

/-- What can follow a value: nothing, a comma, or a closing bracket. -/
def Delimited (x : List Char) : Prop := scan 0 .outside x = ([], x)

theorem delimited_cons {c : Char} (h : c = ',' ∨ c = ']' ∨ c = '}') (x : List Char) :
    Delimited (c :: x) := by
  rw [Delimited, scan, if_pos ⟨rfl, h⟩]

/-- A value's text and what follows it can be told apart. -/
theorem render_append_inj {v w : Value} {x y : List Char} (hx : Delimited x) (hy : Delimited y)
    (h : render v ++ x = render w ++ y) : render v = render w ∧ x = y := by
  have hscan := congrArg (scan 0 .outside) h
  rw [passes_render, passes_render, hx, hy] at hscan
  unfold prepend at hscan
  rw [List.append_nil, List.append_nil] at hscan
  exact Prod.mk.inj hscan

/-! ## Parts -/

theorem toString_toList_ne_nil (n : ℕ) : (toString n).toList ≠ [] := by
  rw [Nat.toString_eq_repr, Nat.repr_eq_ofList_toDigits, String.toList_ofList]
  exact Nat.toDigits_ne_nil

theorem render_ne_nil (v : Value) : render v ≠ [] := by
  cases v with
  | null => decide
  | bool b => cases b <;> decide
  | int i =>
    rw [render, Int.toString_eq_repr, Int.repr_eq_if]
    split
    · exact toString_toList_ne_nil _
    · rw [String.toList_append]
      exact List.append_ne_nil_of_left_ne_nil (by decide) _
  | float n =>
    rw [render]
    unfold reprFloat
    dsimp only
    split
    · refine List.append_ne_nil_of_right_ne_nil _ ?_
      unfold exponentForm
      split
      · decide
      · exact List.cons_ne_nil _ _
      · exact List.cons_ne_nil _ _
    · exact List.append_ne_nil_of_right_ne_nil _ (List.cons_ne_nil _ _)
  | str s => exact List.cons_ne_nil _ _
  | arr items => exact List.cons_ne_nil _ _
  | obj fields => exact List.cons_ne_nil _ _

/-- No value begins like the end of a list. -/
theorem render_append_ne_closing (v : Value) (x y : List Char) : render v ++ x ≠ ']' :: y := by
  intro h
  have hscan := congrArg (scan 0 .outside) h
  rw [passes_render, delimited_cons (.inr (.inl rfl))] at hscan
  obtain ⟨hpart, -⟩ := Prod.mk.inj hscan
  exact render_ne_nil v (List.append_eq_nil_iff.mp hpart).1

/-- The text of a list determines the texts of its items. -/
theorem render_arr_forall₂ {items items' : List Value} (h : render (.arr items) = render (.arr items')) :
    List.Forall₂ (fun v w => render v = render w) items items' := by
  rw [render, render, renderItems_eq_map, renderItems_eq_map] at h
  exact commaSeparated_forall₂ render Delimited (by decide) (delimited_cons (.inl rfl))
    (delimited_cons (.inr (.inl rfl))) render_append_inj render_append_ne_closing (List.cons.inj h).2

/-- A field as it is written. -/
def fieldText (f : String × Value) : List Char := quoted f.1 ++ ':' :: render f.2

/-- An object is written field by field, in the order of the keys. -/
theorem render_obj (fields : List (String × Value)) :
    render (.obj fields) =
      '{' :: commaSeparated ((fields.insertionSort fun a b => a.1 ≤ b.1).map fieldText) ++ ['}'] := by
  have hsort : (renderEntries fields).insertionSort (fun a b => a.1 ≤ b.1) =
      (fields.insertionSort fun a b => a.1 ≤ b.1).map fun f => (f.1, render f.2) := by
    rw [renderEntries_eq_map]
    exact (List.map_insertionSort (fun a b : String × Value => a.1 ≤ b.1)
      (fun a b : String × List Char => a.1 ≤ b.1) _ fields fun _ _ _ _ => Iff.rfl).symm
  rw [render, renderFields, hsort, List.map_map]
  rfl

theorem fieldText_append_inj {f g : String × Value} {x y : List Char} (hx : Delimited x)
    (hy : Delimited y) (h : fieldText f ++ x = fieldText g ++ y) :
    (f.1 = g.1 ∧ render f.2 = render g.2) ∧ x = y := by
  unfold fieldText at h
  rw [List.append_assoc, List.append_assoc, List.cons_append, List.cons_append] at h
  obtain ⟨hkey, hrest⟩ := quoted_append_inj h
  obtain ⟨hvalue, hxy⟩ := render_append_inj hx hy (List.cons.inj hrest).2
  exact ⟨⟨hkey, hvalue⟩, hxy⟩

theorem exists_of_forall₂ {α β : Type} {R : α → β → Prop} {s : List α} {t : List β}
    (h : List.Forall₂ R s t) {a : α} (ha : a ∈ s) : ∃ b ∈ t, R a b := by
  induction h with
  | nil => exact absurd ha List.not_mem_nil
  | cons hab _ ih =>
    rcases List.mem_cons.mp ha with rfl | ha
    · exact ⟨_, List.mem_cons_self, hab⟩
    · obtain ⟨b, hb, hR⟩ := ih ha
      exact ⟨b, List.mem_cons_of_mem _ hb, hR⟩

/-- A field of an object is found again in any object with the same text. -/
theorem exists_field_of_render_eq {fields fields' : List (String × Value)}
    (h : render (.obj fields) = render (.obj fields')) {key : String} {v : Value}
    (hv : (key, v) ∈ fields) : ∃ w, (key, w) ∈ fields' ∧ render v = render w := by
  rw [render_obj, render_obj] at h
  have hparts := commaSeparated_forall₂ fieldText Delimited (by decide) (delimited_cons (.inl rfl))
    (delimited_cons (.inr (.inr rfl))) fieldText_append_inj
    (fun f x y heq => absurd (List.cons.inj heq).1 (by decide)) (List.cons.inj h).2
  obtain ⟨f, hf, hkey, hvalue⟩ := exists_of_forall₂ hparts ((List.mem_insertionSort _).mpr hv)
  have hkey' : key = f.1 := hkey
  exact ⟨f.2, hkey' ▸ (List.mem_insertionSort _).mp hf, hvalue⟩

/-- The text of an object determines the text under each key that it has once. -/
theorem render_field_eq {fields fields' : List (String × Value)}
    (h : render (.obj fields) = render (.obj fields')) (hnodup : (fields'.map Prod.fst).Nodup)
    (key : String) (v w : Value) (hv : (key, v) ∈ fields) (hw : (key, w) ∈ fields') :
    render v = render w := by
  obtain ⟨w', hw', hvalue⟩ := exists_field_of_render_eq h hv
  have hsame := List.inj_on_of_nodup_map hnodup hw' hw rfl
  rw [hvalue, (Prod.mk.inj hsame).2]

/-! ## The text of a decimal -/

theorem ofDigitChars_toString (n : ℕ) : Nat.ofDigitChars 10 (toString n).toList 0 = n := by
  rw [Nat.toString_eq_repr, Nat.toList_repr, Nat.ofDigitChars_ten_toDigits]

theorem ofDigitChars_padded (width n : ℕ) : Nat.ofDigitChars 10 (padded width n) 0 = n := by
  unfold padded
  dsimp only
  rw [Nat.ofDigitChars_append, Nat.ofDigitChars_replicate_zero, Nat.mul_zero, ofDigitChars_toString]

theorem length_toString_le {n k : ℕ} (hk : 0 < k) (h : n < 10 ^ k) : (toString n).toList.length ≤ k := by
  rw [Nat.toString_eq_repr, Nat.toList_repr]
  exact (Nat.length_toDigits_le_iff (by decide) hk).mpr h

theorem length_padded {width n : ℕ} (hwidth : 0 < width) (h : n < 10 ^ width) :
    (padded width n).length = width := by
  have hlength := length_toString_le hwidth h
  unfold padded
  dsimp only
  rw [List.length_append, List.length_replicate]
  omega

/-- What is dropped are zeros. -/
theorem trimZeros_append (digits : List Char) :
    trimZeros digits ++ List.replicate (digits.length - (trimZeros digits).length) '0' = digits := by
  induction digits using List.reverseRecOn with
  | nil => rfl
  | append_singleton l d ih =>
    by_cases hd : d = '0'
    · have htrim : trimZeros (l ++ [d]) = trimZeros l :=
        List.rdropWhile_concat_pos _ _ _ (decide_eq_true hd)
      have hle : (trimZeros l).length ≤ l.length := by
        have hlength := congrArg List.length ih
        rw [List.length_append] at hlength
        omega
      rw [htrim, List.length_append, List.length_singleton, Nat.succ_sub hle, List.replicate_succ',
        ← List.append_assoc, ih, hd]
    · have htrim : trimZeros (l ++ [d]) = l ++ [d] :=
        List.rdropWhile_concat_neg _ _ _ (by rw [decide_eq_true_eq]; exact hd)
      rw [htrim, Nat.sub_self, List.replicate_zero, List.append_nil]

theorem eq_of_trimZeros_eq {a b : List Char} (hlength : a.length = b.length)
    (h : trimZeros a = trimZeros b) : a = b := by
  rw [← trimZeros_append a, ← trimZeros_append b, h, hlength]

theorem trimZeros_ne_zero (digits : List Char) : trimZeros digits ≠ ['0'] := by
  intro h
  have hagain : trimZeros (trimZeros digits) = trimZeros digits := List.rdropWhile_idempotent _ _
  rw [h] at hagain
  exact absurd hagain (by decide)

theorem trimZeros_toString_ne_nil {n : ℕ} (hn : n ≠ 0) : trimZeros (toString n).toList ≠ [] := by
  intro h
  have hzeros := trimZeros_append (toString n).toList
  rw [h, List.nil_append] at hzeros
  have hvalue := ofDigitChars_toString n
  rw [← hzeros, Nat.ofDigitChars_replicate_zero, Nat.mul_zero] at hvalue
  exact hn hvalue.symm

/-- The digits before the exponent. -/
def mantissa : List Char → List Char
  | d :: next :: rest => d :: '.' :: next :: rest
  | digits => digits

theorem exponentForm_eq {digits : List Char} (h : digits ≠ []) (exponent : ℕ) :
    exponentForm digits exponent = mantissa digits ++ 'e' :: '-' :: padded 2 exponent := by
  match digits with
  | [] => exact absurd rfl h
  | [d] => rfl
  | d :: next :: rest =>
    show d :: '.' :: (next :: rest) ++ "e-".toList ++ padded 2 exponent = _
    rw [List.append_assoc]
    rfl

theorem mantissa_inj {a b : List Char} (ha : '.' ∉ a) (hb : '.' ∉ b) (h : mantissa a = mantissa b) :
    a = b := by
  match a, b with
  | [], [] => rfl
  | [], [d] => cases h
  | [], _ :: _ :: _ => cases h
  | [c], [] => cases h
  | [c], [d] => exact h
  | [c], _ :: _ :: _ => cases h
  | _ :: _ :: _, [] => cases h
  | _ :: _ :: _, [d] => cases h
  | c :: next :: rest, d :: next' :: rest' =>
    obtain ⟨rfl, htail⟩ := List.cons.inj h
    rw [(List.cons.inj htail).2]

theorem notMem_mantissa {digits : List Char} (h : ∀ d ∈ digits, d.isDigit = true) :
    'e' ∉ mantissa digits := by
  intro he
  match digits with
  | [] => exact absurd he List.not_mem_nil
  | [d] => exact absurd (h 'e' he) (by decide)
  | d :: next :: rest =>
    rcases List.mem_cons.mp he with rfl | he
    · exact absurd (h 'e' List.mem_cons_self) (by decide)
    · rcases List.mem_cons.mp he with he | he
      · exact absurd he (by decide)
      · exact absurd (h 'e' (List.mem_cons_of_mem d he)) (by decide)

/-- The text of a decimal without its sign. -/
def reprMagnitude (magnitude : ℕ) : List Char :=
  if magnitude ≠ 0 ∧ magnitude < 10 ^ 4 then
    exponentForm (trimZeros (toString magnitude).toList) (9 - (toString magnitude).toList.length)
  else
    (toString (magnitude / 10 ^ 8)).toList ++ '.' ::
      (if trimZeros (padded 8 (magnitude % 10 ^ 8)) = [] then ['0']
        else trimZeros (padded 8 (magnitude % 10 ^ 8)))

theorem reprFloat_eq (n : ℤ) : reprFloat n = (if n < 0 then ['-'] else []) ++ reprMagnitude n.natAbs := by
  unfold reprFloat reprMagnitude
  dsimp only
  split
  · rfl
  · rw [List.append_assoc]

theorem isDigit_of_mem_trimZeros_toString {n : ℕ} :
    ∀ d ∈ trimZeros (toString n).toList, d.isDigit = true :=
  fun _ hd => isDigit_of_mem_toString (mem_of_mem_trimZeros hd)

theorem reprMagnitude_small {m : ℕ} (h : m ≠ 0 ∧ m < 10 ^ 4) :
    reprMagnitude m = mantissa (trimZeros (toString m).toList) ++
      'e' :: '-' :: padded 2 (9 - (toString m).toList.length) := by
  rw [reprMagnitude, if_pos h, exponentForm_eq (trimZeros_toString_ne_nil h.1)]

/-- Only a small decimal has an exponent. -/
theorem mem_e_reprMagnitude {m : ℕ} : 'e' ∈ reprMagnitude m ↔ m ≠ 0 ∧ m < 10 ^ 4 := by
  constructor
  · intro he
    by_contra hlarge
    rw [reprMagnitude, if_neg hlarge] at he
    rcases List.mem_append.mp he with he | he
    · exact absurd (isDigit_of_mem_toString he) (by decide)
    · rcases List.mem_cons.mp he with he | he
      · exact absurd he (by decide)
      · split at he
        · exact absurd he (by decide)
        · exact absurd (isDigit_of_mem_padded (mem_of_mem_trimZeros he)) (by decide)
  · intro hsmall
    rw [reprMagnitude_small hsmall]
    exact List.mem_append_right _ List.mem_cons_self

theorem reprMagnitude_inj {m n : ℕ} (h : reprMagnitude m = reprMagnitude n) : m = n := by
  have hsame : (m ≠ 0 ∧ m < 10 ^ 4) ↔ n ≠ 0 ∧ n < 10 ^ 4 := by
    rw [← mem_e_reprMagnitude, ← mem_e_reprMagnitude, h]
  by_cases hm : m ≠ 0 ∧ m < 10 ^ 4
  -- with an exponent: it gives the number of digits, the mantissa all but the zeros at the end
  · have hn := hsame.mp hm
    rw [reprMagnitude_small hm, reprMagnitude_small hn] at h
    obtain ⟨hmantissa, htail⟩ := append_cons_inj
      (notMem_mantissa isDigit_of_mem_trimZeros_toString)
      (notMem_mantissa isDigit_of_mem_trimZeros_toString) h
    have hexponent := congrArg (fun digits => Nat.ofDigitChars 10 digits 0) (List.cons.inj htail).2
    rw [ofDigitChars_padded, ofDigitChars_padded] at hexponent
    have hlm := length_toString_le (by decide) hm.2
    have hln := length_toString_le (by decide) hn.2
    have hdot : ∀ k : ℕ, '.' ∉ trimZeros (toString k).toList := fun k hk =>
      absurd (isDigit_of_mem_trimZeros_toString _ hk) (by decide)
    have hdigits := eq_of_trimZeros_eq (by omega) (mantissa_inj (hdot m) (hdot n) hmantissa)
    rw [← ofDigitChars_toString m, hdigits, ofDigitChars_toString]
  -- without one: the whole part, and eight digits up to the zeros at the end
  · rw [reprMagnitude, reprMagnitude, if_neg hm, if_neg fun hn => hm (hsame.mpr hn)] at h
    have hdot : ∀ k : ℕ, '.' ∉ (toString k).toList := fun k hk =>
      absurd (isDigit_of_mem_toString hk) (by decide)
    obtain ⟨hwhole, hfraction⟩ := append_cons_inj (hdot _) (hdot _) h
    have hquotient := congrArg (fun digits => Nat.ofDigitChars 10 digits 0) hwhole
    rw [ofDigitChars_toString, ofDigitChars_toString] at hquotient
    have htrim : trimZeros (padded 8 (m % 10 ^ 8)) = trimZeros (padded 8 (n % 10 ^ 8)) := by
      split at hfraction <;> rename_i ha
      · split at hfraction <;> rename_i hb
        · rw [ha, hb]
        · exact absurd hfraction.symm (trimZeros_ne_zero _)
      · split at hfraction <;> rename_i hb
        · exact absurd hfraction (trimZeros_ne_zero _)
        · exact hfraction
    have hlength : ∀ k : ℕ, (padded 8 (k % 10 ^ 8)).length = 8 := fun k =>
      length_padded (by decide) (Nat.mod_lt _ (by decide))
    have hpadded := eq_of_trimZeros_eq ((hlength m).trans (hlength n).symm) htrim
    have hremainder := congrArg (fun digits => Nat.ofDigitChars 10 digits 0) hpadded
    rw [ofDigitChars_padded, ofDigitChars_padded] at hremainder
    omega

/-- A decimal without its sign begins with a digit. -/
theorem reprMagnitude_ne_minus (m : ℕ) (x : List Char) : reprMagnitude m ≠ '-' :: x := by
  intro h
  by_cases hm : m ≠ 0 ∧ m < 10 ^ 4
  · rw [reprMagnitude_small hm] at h
    have hdigit := isDigit_of_mem_trimZeros_toString (n := m)
    cases hdigits : trimZeros (toString m).toList with
    | nil => exact trimZeros_toString_ne_nil hm.1 hdigits
    | cons d rest =>
      rw [hdigits] at h hdigit
      have hhead : d = '-' := by
        cases rest with
        | nil => exact (List.cons.inj h).1
        | cons next rest => exact (List.cons.inj h).1
      exact absurd (hdigit d List.mem_cons_self) (hhead ▸ by decide)
  · rw [reprMagnitude, if_neg hm] at h
    cases hdigits : (toString (m / 10 ^ 8)).toList with
    | nil => exact toString_toList_ne_nil _ hdigits
    | cons d rest =>
      rw [hdigits] at h
      have hdigit := isDigit_of_mem_toString (hdigits ▸ List.mem_cons_self : d ∈ _)
      exact absurd hdigit ((List.cons.inj h).1 ▸ by decide)

/-- The text of a decimal determines it. -/
theorem reprFloat_inj {m n : ℤ} (h : reprFloat m = reprFloat n) : m = n := by
  rw [reprFloat_eq, reprFloat_eq] at h
  have hcases : (m < 0 ↔ n < 0) ∧ reprMagnitude m.natAbs = reprMagnitude n.natAbs := by
    split at h <;> rename_i hm
    · split at h <;> rename_i hn
      · exact ⟨iff_of_true hm hn, (List.cons.inj h).2⟩
      · exact absurd h.symm (reprMagnitude_ne_minus _ _)
    · split at h <;> rename_i hn
      · exact absurd h (reprMagnitude_ne_minus _ _)
      · exact ⟨iff_of_false hm hn, h⟩
  have habs := reprMagnitude_inj hcases.2
  omega

theorem render_str_inj {s t : String} (h : render (.str s) = render (.str t)) : s = t := by
  rw [render, render] at h
  exact (quoted_append_inj (congrArg (· ++ []) h)).1

theorem render_int_inj {i j : ℤ} (h : render (.int i) = render (.int j)) : i = j := by
  rw [render, render] at h
  exact toString_int_inj (String.toList_inj.mp h)

theorem render_float_inj {m n : ℤ} (h : render (.float m) = render (.float n)) : m = n := by
  rw [render, render] at h
  exact reprFloat_inj h

theorem render_str_ne_float (s : String) (n : ℤ) : render (.str s) ≠ render (.float n) := by
  intro h
  have hquote : '"' ∈ reprFloat n := by
    rw [show reprFloat n = render (.float n) from rfl, ← h]
    exact List.mem_cons_self
  exact absurd (plain_of_mem_reprFloat hquote) (by decide)

end Json
