import Picoin.Lib.JsonScan
import Picoin.Services.Wallet

/-!
# Forms of a timestamp

A timestamp in UTC may be signed with `Z` or with `+00:00`, and with the zeros at the end of its fraction
or without them. `utcText` is what all these forms have in common, so two timestamps with a form in common
are read as one instant.
-/

namespace Picoin

open Json

/-! ## Splitting -/

theorem beforeSuffix?_eq_some {text suffix start : String} :
    beforeSuffix? text suffix = some start ↔ text = start ++ suffix := by
  unfold beforeSuffix?
  dsimp only
  constructor
  · intro h
    split at h
    · next hsuffix =>
      obtain ⟨front, hfront⟩ := List.isSuffixOf_iff_suffix.mp hsuffix
      have hstart : String.ofList front = start := by
        rw [← Option.some.inj h, ← hfront, List.length_append, Nat.add_sub_cancel, List.take_left]
      rw [← String.toList_inj, String.toList_append, ← hstart, String.toList_ofList, hfront]
    · cases h
  · rintro rfl
    rw [if_pos (List.isSuffixOf_iff_suffix.mpr ⟨start.toList, String.toList_append.symm⟩),
      String.toList_append, List.length_append, Nat.add_sub_cancel, List.take_left,
      String.ofList_toList]

/-- The point that `rsplit` splits at is the last one. -/
theorem splitAtLastPoint_append {whole fraction : List Char} (h : '.' ∉ fraction) :
    splitAtLastPoint (whole ++ '.' :: fraction) = some (whole, fraction) := by
  have htake : (whole ++ '.' :: fraction).reverse.takeWhile (· ≠ '.') = fraction.reverse := by
    rw [List.reverse_append, List.reverse_cons, List.append_assoc, List.singleton_append,
      List.takeWhile_append_of_pos]
    · simp
    · intro c hc
      exact decide_eq_true fun hpoint => h (hpoint ▸ List.mem_reverse.mp hc)
  have hlength : whole.length + (fraction.length + 1) - fraction.length - 1 = whole.length := by omega
  unfold splitAtLastPoint
  dsimp only
  rw [htake, if_pos (by simp), List.reverse_reverse, List.length_append, List.length_cons, hlength,
    List.take_left]

theorem splitAtLastPoint_eq_some {text whole fraction : List Char}
    (h : splitAtLastPoint text = some (whole, fraction)) :
    text = whole ++ '.' :: fraction ∧ '.' ∉ fraction := by
  have hmem : '.' ∈ text := by
    by_contra hno
    rw [splitAtLastPoint, if_neg hno] at h
    cases h
  -- the first point of the reversed text is the last one of the text
  obtain ⟨back, front, hreverse, hback⟩ := List.eq_append_cons_of_mem (List.mem_reverse.mpr hmem)
  have htext : text = front.reverse ++ '.' :: back.reverse := by
    rw [← List.reverse_reverse text, hreverse]
    simp
  have hpoint : '.' ∉ back.reverse := fun hin => hback (List.mem_reverse.mp hin)
  rw [htext, splitAtLastPoint_append hpoint] at h
  obtain ⟨rfl, rfl⟩ := Prod.mk.inj (Option.some.inj h)
  exact ⟨htext, hpoint⟩

/-! ## What the forms have in common -/

/-- A time without the zeros at the end of its fraction; the source leaves a fraction of zeros. -/
def trimFraction (text : List Char) : List Char :=
  match splitAtLastPoint text with
  | none => text
  | some (whole, fraction) =>
    if trimZeros fraction = [] then text else whole ++ '.' :: trimZeros fraction

/-- What all forms of a timestamp in UTC have in common. -/
def utcText (timestamp : String) : Option (List Char) :=
  match beforeSuffix? timestamp "Z", beforeSuffix? timestamp "+00:00" with
  | some start, _ => some (trimFraction start.toList)
  | none, some start => some (trimFraction start.toList)
  | none, none => none

theorem trimFraction_cases (text : List Char) :
    trimFraction text = text ∨ ∃ whole fraction zeros, fraction ≠ [] ∧
      text = whole ++ '.' :: fraction ++ List.replicate zeros '0' ∧
      trimFraction text = whole ++ '.' :: fraction := by
  unfold trimFraction
  split
  · exact .inl rfl
  · next whole fraction hsplit =>
    split
    · exact .inl rfl
    · next hzeros =>
      refine .inr ⟨whole, trimZeros fraction, fraction.length - (trimZeros fraction).length, hzeros, ?_,
        rfl⟩
      rw [List.append_assoc, List.cons_append, trimZeros_append]
      exact (splitAtLastPoint_eq_some hsplit).1

theorem trimFraction_trimmed {text whole fraction : List Char}
    (hsplit : splitAtLastPoint text = some (whole, fraction)) (hzeros : trimZeros fraction ≠ []) :
    trimFraction (whole ++ '.' :: trimZeros fraction) = trimFraction text := by
  have hpoint : '.' ∉ trimZeros fraction := fun h =>
    (splitAtLastPoint_eq_some hsplit).2 (mem_of_mem_trimZeros h)
  -- nothing is left to trim in a trimmed fraction
  have hagain : trimZeros (trimZeros fraction) = trimZeros fraction := List.rdropWhile_idempotent _ _
  have hleft : trimFraction (whole ++ '.' :: trimZeros fraction) = whole ++ '.' :: trimZeros fraction := by
    unfold trimFraction
    rw [splitAtLastPoint_append hpoint]
    show (if trimZeros (trimZeros fraction) = [] then _ else _) = _
    rw [hagain, if_neg hzeros]
  have hright : trimFraction text = whole ++ '.' :: trimZeros fraction := by
    unfold trimFraction
    rw [hsplit]
    exact if_neg hzeros
  rw [hleft, hright]

theorem utcText_zulu (start : String) : utcText (start ++ "Z") = some (trimFraction start.toList) := by
  unfold utcText
  rw [beforeSuffix?_eq_some.mpr rfl]

theorem utcText_offset (start : String) :
    utcText (start ++ "+00:00") = some (trimFraction start.toList) := by
  -- a text that ends in a digit does not end in `Z`
  have hzulu : beforeSuffix? (start ++ "+00:00") "Z" = none := by
    rw [Option.eq_none_iff_forall_ne_some]
    intro other hother
    have hlist := congrArg (fun text : String => text.toList.getLast?) (beforeSuffix?_eq_some.mp hother)
    simp at hlist
  unfold utcText
  rw [hzulu, beforeSuffix?_eq_some.mpr rfl]

/-- A form of a timestamp is the timestamp or is in UTC as the timestamp is. -/
theorem utcText_variant {timestamp form : String} (h : form ∈ timestampVariants timestamp) :
    form = timestamp ∨ ∃ text, utcText timestamp = some text ∧ utcText form = some text := by
  have hcompact : ∀ {suffix other : String}, form ∈ compactVariants timestamp suffix other →
      ∃ start compact : String, timestamp = start ++ suffix ∧
        trimFraction compact.toList = trimFraction start.toList ∧
        (form = compact ++ suffix ∨ form = compact ++ other) := by
    intro suffix other hmem
    unfold compactVariants at hmem
    split at hmem
    · cases hmem
    next start hstart =>
    split at hmem
    · cases hmem
    next whole fraction hsplit =>
    dsimp only at hmem
    split at hmem
    · cases hmem
    next hzeros =>
    refine ⟨start, String.ofList (whole ++ '.' :: trimZeros fraction), beforeSuffix?_eq_some.mp hstart,
      ?_, ?_⟩
    · rw [String.toList_ofList]
      exact trimFraction_trimmed hsplit hzeros
    · simpa using hmem
  -- the timestamp, its other suffix, and the trimmed fraction under both suffixes
  unfold timestampVariants at h
  rw [List.mem_append, List.mem_append, List.mem_append] at h
  rcases h with ((h | h) | h) | h
  · exact .inl (List.mem_singleton.mp h)
  · refine .inr ?_
    split at h
    · next start hstart =>
      rw [List.mem_singleton.mp h, beforeSuffix?_eq_some.mp hstart]
      exact ⟨_, utcText_zulu start, utcText_offset start⟩
    · next start _ hstart =>
      rw [List.mem_singleton.mp h, beforeSuffix?_eq_some.mp hstart]
      exact ⟨_, utcText_offset start, utcText_zulu start⟩
    · cases h
  · obtain ⟨start, compact, rfl, htrim, rfl | rfl⟩ := hcompact h
    · exact .inr ⟨_, utcText_zulu start, htrim ▸ utcText_zulu compact⟩
    · exact .inr ⟨_, utcText_zulu start, htrim ▸ utcText_offset compact⟩
  · obtain ⟨start, compact, rfl, htrim, rfl | rfl⟩ := hcompact h
    · exact .inr ⟨_, utcText_offset start, htrim ▸ utcText_offset compact⟩
    · exact .inr ⟨_, utcText_offset start, htrim ▸ utcText_zulu compact⟩

theorem utcText_eq_some {timestamp : String} {text : List Char} (h : utcText timestamp = some text) :
    ∃ start : String, text = trimFraction start.toList ∧
      (timestamp = start ++ "Z" ∨ timestamp = start ++ "+00:00") := by
  unfold utcText at h
  split at h
  · next start hstart =>
    exact ⟨start, (Option.some.inj h).symm, .inl (beforeSuffix?_eq_some.mp hstart)⟩
  · next start _ hstart =>
    exact ⟨start, (Option.some.inj h).symm, .inr (beforeSuffix?_eq_some.mp hstart)⟩
  · cases h

/-! ## Reading -/

/-- A reader of timestamps, as `datetime.fromisoformat` is one: `Z` is the offset zero, and zeros at the
end of a fraction do not change what is read. -/
structure TimestampReader (ι : Type) where
  read : String → Option ι
  read_empty : read "" = none
  read_zulu : ∀ start, read (start ++ "Z") = read (start ++ "+00:00")
  read_zeros : ∀ (whole fraction : List Char) (m n : ℕ) (i j : ι), fraction ≠ [] →
    read (String.ofList (whole ++ '.' :: fraction ++ List.replicate m '0') ++ "Z") = some i →
    read (String.ofList (whole ++ '.' :: fraction ++ List.replicate n '0') ++ "Z") = some j → i = j

section

variable {ι : Type} (reader : TimestampReader ι)

theorem read_of_utcText {timestamp : String} {text : List Char} (h : utcText timestamp = some text) :
    ∃ start : String, text = trimFraction start.toList ∧
      reader.read timestamp = reader.read (start ++ "Z") := by
  obtain ⟨start, htext, rfl | rfl⟩ := utcText_eq_some h
  · exact ⟨start, htext, rfl⟩
  · exact ⟨start, htext, (reader.read_zulu start).symm⟩

/-- Two times that are the same without trailing zeros are read alike. -/
theorem read_trimFraction {start start' : String} {i j : ι}
    (htrim : trimFraction start.toList = trimFraction start'.toList)
    (hi : reader.read (start ++ "Z") = some i) (hj : reader.read (start' ++ "Z") = some j) : i = j := by
  have hread : ∀ (s : String) (t : List Char), s.toList = t → s = String.ofList t := fun s t hst => by
    rw [← hst, String.ofList_toList]
  -- each time is its trimmed form, with or without zeros behind it
  rcases trimFraction_cases start.toList with hsame | ⟨whole, fraction, m, hsome, htext, hfront⟩ <;>
    rcases trimFraction_cases start'.toList with hsame' | ⟨whole', fraction', n, hsome', htext', hfront'⟩
  · rw [hsame, hsame'] at htrim
    rw [String.toList_inj.mp htrim, hj] at hi
    exact (Option.some.inj hi).symm
  · rw [hsame, hfront'] at htrim
    rw [hread start (whole' ++ '.' :: fraction' ++ List.replicate 0 '0') (by simpa using htrim)] at hi
    rw [hread start' _ htext'] at hj
    exact reader.read_zeros whole' fraction' 0 n i j hsome' hi hj
  · rw [hfront, hsame'] at htrim
    rw [hread start' (whole ++ '.' :: fraction ++ List.replicate 0 '0') (by simpa using htrim.symm)] at hj
    rw [hread start _ htext] at hi
    exact reader.read_zeros whole fraction m 0 i j hsome hi hj
  · rw [hfront, hfront'] at htrim
    rw [hread start _ htext, htrim] at hi
    rw [hread start' _ htext'] at hj
    exact reader.read_zeros whole' fraction' m n i j hsome' hi hj

/-- Timestamps with a form in common are read as one instant. -/
theorem read_of_variant {timestamp timestamp' form : String} {i j : ι}
    (h : form ∈ timestampVariants timestamp) (h' : form ∈ timestampVariants timestamp')
    (hi : reader.read timestamp = some i) (hj : reader.read timestamp' = some j) : i = j := by
  have hsame : timestamp = timestamp' ∨
      ∃ text, utcText timestamp = some text ∧ utcText timestamp' = some text := by
    rcases utcText_variant h with rfl | ⟨text, htext, hform⟩ <;>
      rcases utcText_variant h' with hfirst | ⟨text', htext', hform'⟩
    · exact .inl hfirst
    · exact .inr ⟨text', hform', htext'⟩
    · exact .inr ⟨text, htext, hfirst ▸ hform⟩
    · rw [hform] at hform'
      exact .inr ⟨text, htext, Option.some.inj hform' ▸ htext'⟩
  rcases hsame with rfl | ⟨text, htext, htext'⟩
  · exact Option.some.inj (hi.symm.trans hj)
  · obtain ⟨start, htrim, hread⟩ := read_of_utcText reader htext
    obtain ⟨start', htrim', hread'⟩ := read_of_utcText reader htext'
    exact read_trimFraction reader (htrim.symm.trans htrim') (hread ▸ hi) (hread' ▸ hj)

end

end Picoin
