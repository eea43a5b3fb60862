import Picoin.Core.Merkle
import Picoin.Lib.JsonText
import Picoin.Services.LocalNode

/-!
# A Merkle proof that verifies starts at a leaf

With a hash function that does not collide, the texts that are hashed keep leaves and parents
apart and are read back uniquely; so a proof that leads to the root of a segment starts at one of
the segment's leaves, whatever its length, sides and hashes (`verifyMerkleProof_sound`).

The leaves are those of the upper-cased segment. Where one character has several upper-case
characters, the segment has more leaves than characters (`verifyMerkleProof_past_segment`).
-/

namespace Picoin

open MerkleTree

variable {cfg : Config} {cm : CaseMap}

/-! ## The hashed texts -/

theorem render_leaf (digit : String) (position : ℤ) :
    Json.render (.obj [("digit", .str digit), ("position", .int position)]) =
      "\x7b\"digit\":".toList ++ (Json.quoted digit ++
        (",\"position\":".toList ++ ((toString position).toList ++ ['}']))) := by
  have hsorted : ("digit" ≤ "position") = True := by decide
  simp [Json.render, Json.renderEntries, Json.renderFields, Json.commaSeparated, Json.quoted,
    Json.escape, hsorted, List.insertionSort]

theorem render_parent (left right : String) :
    Json.render (.obj [("left", .str left), ("right", .str right)]) =
      "\x7b\"left\":".toList ++ (Json.quoted left ++
        (",\"right\":".toList ++ (Json.quoted right ++ ['}']))) := by
  have hsorted : ("left" ≤ "right") = True := by decide
  simp [Json.render, Json.renderEntries, Json.renderFields, Json.commaSeparated, Json.quoted,
    Json.escape, hsorted, List.insertionSort]

theorem hashJson_inj (hsha : Function.Injective cfg.sha256Text) {a b : Json.Value}
    (h : cfg.hashJson a = cfg.hashJson b) : Json.render a = Json.render b :=
  String.ofList_inj.mp (hsha h)

/-- A leaf's hash determines the position and the upper case of the digit. -/
theorem leafHash_inj (hsha : Function.Injective cfg.sha256Text) {p q : ℤ} {d e : String}
    (h : leafHash cfg cm p d = leafHash cfg cm q e) : p = q ∧ cm.upper d = cm.upper e := by
  have htext := hashJson_inj hsha h
  rw [render_leaf, render_leaf, List.append_cancel_left_eq] at htext
  obtain ⟨hdigit, hrest⟩ := Json.quoted_append_inj htext
  rw [List.append_cancel_left_eq, List.append_cancel_right_eq] at hrest
  exact ⟨Json.toString_int_inj (String.toList_inj.mp hrest), hdigit⟩

theorem parentHash_inj (hsha : Function.Injective cfg.sha256Text) (a b a' b' : String)
    (h : parentHash cfg a b = parentHash cfg a' b') : a = a' ∧ b = b' := by
  have htext := hashJson_inj hsha h
  rw [render_parent, render_parent, List.append_cancel_left_eq] at htext
  obtain ⟨hleft, hrest⟩ := Json.quoted_append_inj htext
  rw [List.append_cancel_left_eq] at hrest
  exact ⟨hleft, (Json.quoted_append_inj hrest).1⟩

/-- A leaf's text begins with another key than a parent's. -/
theorem parentHash_ne_leafHash (hsha : Function.Injective cfg.sha256Text) (a b : String) (p : ℤ)
    (d : String) : parentHash cfg a b ≠ leafHash cfg cm p d := by
  intro h
  have htext := hashJson_inj hsha h
  rw [render_parent, render_leaf] at htext
  have hthird := congrArg (fun text => text[2]?) htext
  simp at hthird

/-! ## The leaves of a segment -/

theorem upper_singleton (cm : CaseMap) {c u : Char} (h : cm.upperChar c = [u]) :
    cm.upper (String.singleton c) = String.singleton u := by
  rw [CaseMap.upper, String.toList_singleton, List.flatMap_singleton, h, String.singleton_eq_ofList]

/-- A text of upper-case characters. -/
def UpperCased (cm : CaseMap) (digits : List Char) : Prop :=
  ∀ c ∈ digits, cm.upper (String.singleton c) = String.singleton c

theorem upperCased_upper (cm : CaseMap) (segment : String) :
    UpperCased cm (cm.upper segment).toList := by
  intro c hc
  rw [CaseMap.upper, String.toList_ofList, List.mem_flatMap] at hc
  obtain ⟨a, -, hc⟩ := hc
  exact upper_singleton cm (cm.upperChar_fixed a c hc)

/-- A hash that is among the leaves is the leaf of the character at its position. -/
theorem mem_segmentLeaves (hsha : Function.Injective cfg.sha256Text) {position : ℤ}
    {digit : String} {digits : List Char} (hupper : UpperCased cm digits) (start : ℤ)
    (h : leafHash cfg cm position digit ∈ segmentLeaves cfg cm start digits) :
    ∃ i : ℕ, position = start + i ∧ ∃ c, digits[i]? = some c ∧
      cm.upper digit = String.singleton c := by
  induction digits generalizing start with
  | nil => exact nomatch h
  | cons c rest ih =>
    rcases List.mem_cons.mp h with hhead | htail
    · obtain ⟨hposition, hdigit⟩ := leafHash_inj hsha hhead
      refine ⟨0, ?_, c, rfl, ?_⟩
      · rw [hposition, Nat.cast_zero, add_zero]
      · rw [hdigit]
        exact hupper c List.mem_cons_self
    · obtain ⟨i, hposition, d, hd, hdigit⟩ :=
        ih (fun d hd => hupper d (List.mem_cons_of_mem c hd)) (start + 1) htail
      refine ⟨i + 1, ?_, d, hd, hdigit⟩
      rw [hposition, Nat.cast_succ]
      ring

theorem parentHash_notMem_leaves (hsha : Function.Injective cfg.sha256Text) (a b : String)
    (start : ℤ) (digits : List Char) :
    parentHash cfg a b ∉ segmentLeaves cfg cm start digits := by
  induction digits generalizing start with
  | nil => exact List.not_mem_nil
  | cons c rest ih =>
    intro h
    rcases List.mem_cons.mp h with hhead | htail
    · exact parentHash_ne_leafHash hsha _ _ _ _ hhead
    · exact ih (start + 1) htail

/-! ## Proofs are paths -/

/-- The items of a proof that has been followed are the steps of a path. -/
theorem exists_climb_of_foldProof {proof : List ProofItem} {start final : String}
    (h : foldProof cfg start proof = some final) :
    ∃ path, climb (parentHash cfg) start path = final := by
  induction proof generalizing start with
  | nil => exact ⟨[], Option.some.inj h⟩
  | cons item rest ih =>
    rw [foldProof] at h
    split_ifs at h with hleft hright
    · obtain ⟨path, hpath⟩ := ih h
      exact ⟨(.left, item.hash) :: path, hpath⟩
    · obtain ⟨path, hpath⟩ := ih h
      exact ⟨(.right, item.hash) :: path, hpath⟩

theorem segmentLeaves_ne_nil {start : ℤ} {digits : List Char} (h : digits ≠ []) :
    segmentLeaves cfg cm start digits ≠ [] := by
  cases digits with
  | nil => exact absurd rfl h
  | cons c rest => exact List.cons_ne_nil _ _

theorem upper_toList_ne_nil {segment : String} (h : segment ≠ "") :
    (cm.upper segment).toList ≠ [] := by
  rw [CaseMap.upper, String.toList_ofList]
  cases hsegment : segment.toList with
  | nil => exact absurd (String.toList_inj.mp hsegment) h
  | cons c rest =>
    rw [List.flatMap_cons]
    exact List.append_ne_nil_of_left_ne_nil (cm.upperChar_ne_nil c) _

/-- A segment that is not empty has a root, the hash at the top of its tree. -/
theorem exists_merkleRoot (cfg : Config) (cm : CaseMap) {segment : String} (h : segment ≠ "")
    (rangeStart : ℤ) :
    ∃ root, merkleRoot cfg cm segment rangeStart = .ok root ∧
      (layersFrom (parentHash cfg)
        (segmentLeaves cfg cm rangeStart (cm.upper segment).toList)).getLast? = some [root] := by
  have hleaves : segmentLeaves cfg cm rangeStart (cm.upper segment).toList ≠ [] :=
    segmentLeaves_ne_nil (upper_toList_ne_nil h)
  obtain ⟨root, hroot⟩ := exists_root (parentHash cfg) _ hleaves
  refine ⟨root, ?_, hroot⟩
  rw [merkleRoot, buildMerkleLayers, if_neg h, pure_bind, hroot]
  rfl

/-- Where every character has one upper-case character, the upper case keeps the positions. -/
theorem getElem?_upper {digits : List Char} (hone : ∀ c ∈ digits, (cm.upperChar c).length = 1)
    (i : ℕ) : (digits.flatMap cm.upperChar)[i]? = (digits[i]?).bind fun c => (cm.upperChar c)[0]? := by
  induction digits generalizing i with
  | nil => rfl
  | cons a rest ih =>
    obtain ⟨u, hu⟩ := List.length_eq_one_iff.mp (hone a List.mem_cons_self)
    rw [List.flatMap_cons, hu]
    cases i with
    | zero => simp [hu]
    | succ i => exact ih (fun c hc => hone c (List.mem_cons_of_mem a hc)) i

/-! ## Soundness -/

/-- A proof of the root of a segment proves a character of the upper-cased segment at its
position; where every character has one upper-case character, it is the segment's own. -/
theorem verifyMerkleProof_sound (cfg : Config) (cm : CaseMap)
    (hsha : Function.Injective cfg.sha256Text) (segment : String) (hsegment : segment ≠ "")
    (rangeStart : ℤ) :
    ∃ root, merkleRoot cfg cm segment rangeStart = .ok root ∧
      ∀ (position : ℤ) (digit : String) (proof : List ProofItem),
        verifyMerkleProof cfg cm position digit proof root = true →
        (rangeStart ≤ position ∧ position < rangeStart + (cm.upper segment).length ∧
          ((cm.upper segment).toList[(position - rangeStart).toNat]?).map String.singleton =
            some (cm.upper digit)) ∧
        ((∀ c ∈ segment.toList, (cm.upperChar c).length = 1) →
          position < rangeStart + segment.length ∧
          (segment.toList[(position - rangeStart).toNat]?).map (cm.upper ∘ String.singleton) =
            some (cm.upper digit)) := by
  obtain ⟨root, hroot, htop⟩ := exists_merkleRoot cfg cm hsegment rangeStart
  refine ⟨root, hroot, ?_⟩
  intro position digit proof hverify
  -- the proof is a path from the digit's leaf to the root, so the leaf is in the tree
  have hleaf : leafHash cfg cm position digit ∈
      segmentLeaves cfg cm rangeStart (cm.upper segment).toList := by
    rw [verifyMerkleProof] at hverify
    split at hverify
    · exact absurd hverify (by decide)
    · next final hfinal =>
      obtain ⟨path, hpath⟩ := exists_climb_of_foldProof hfinal
      have hin : InTree (parentHash cfg)
          (segmentLeaves cfg cm rangeStart (cm.upper segment).toList)
          (climb (parentHash cfg) (leafHash cfg cm position digit) path) := by
        rw [hpath, of_decide_eq_true hverify]
        exact InTree.of_root htop
      have hstart := InTree.of_climb (parentHash_inj hsha)
        (fun a b => parentHash_notMem_leaves hsha a b rangeStart _) path hin
      generalize hhash : leafHash cfg cm position digit = hash at hstart
      cases hstart with
      | leaf hmem => exact hmem
      | node _ _ => exact absurd hhash.symm (parentHash_ne_leafHash hsha _ _ _ _)
  obtain ⟨i, rfl, c, hc, hdigit⟩ :=
    mem_segmentLeaves hsha (upperCased_upper cm segment) rangeStart hleaf
  have hindex : (rangeStart + (i : ℤ) - rangeStart).toNat = i := by omega
  have hlt : i < (cm.upper segment).length := by
    rw [← String.length_toList]
    exact (List.getElem?_eq_some_iff.mp hc).1
  rw [hindex]
  refine ⟨⟨by omega, by omega, ?_⟩, ?_⟩
  · rw [hc, hdigit]
    rfl
  · intro hone
    rw [CaseMap.upper, String.toList_ofList, getElem?_upper hone] at hc
    cases hd : segment.toList[i]? with
    | none => rw [hd] at hc; exact nomatch hc
    | some d =>
      rw [hd, Option.bind_some] at hc
      obtain ⟨hd', hmem⟩ := List.getElem?_eq_some_iff.mp hd
      have hmemd : d ∈ segment.toList := hmem ▸ List.getElem_mem hd'
      obtain ⟨u, hu⟩ := List.length_eq_one_iff.mp (hone d hmemd)
      rw [hu] at hc
      obtain rfl : u = c := Option.some.inj hc
      refine ⟨?_, ?_⟩
      · rw [← String.length_toList]
        omega
      · rw [hdigit]
        show some (cm.upper (String.singleton d)) = some (String.singleton u)
        rw [upper_singleton cm hu]

/-! ## A character with two upper-case characters -/

theorem toUpper_cases (c : Char) :
    c.toUpper = c ∨ (97 ≤ c.toNat ∧ c.toNat ≤ 122 ∧ c.toUpper.toNat = c.toNat - 32) := by
  unfold Char.toUpper
  split
  · next h =>
    right
    have hlow : 97 ≤ c.val.toNat := h.1
    have hhigh : c.val.toNat ≤ 122 := h.2
    refine ⟨hlow, hhigh, ?_⟩
    show (c.val + ('A'.val - 'a'.val)).toNat = c.val.toNat - 32
    rw [UInt32.toNat_add]
    show (c.val.toNat + 4294967264) % 4294967296 = _
    omega
  · exact .inl rfl

theorem toUpper_toUpper (c : Char) : c.toUpper.toUpper = c.toUpper := by
  rcases toUpper_cases c with hself | ⟨hlow, hhigh, hupper⟩
  · rw [hself, hself]
  · rcases toUpper_cases c.toUpper with hself | ⟨hlow', -, -⟩
    · exact hself
    · omega

/-- Upper-casing does not leave ASCII or change a character outside it. -/
theorem toUpper_ne {c e : Char} (he : 122 < e.toNat) (hce : c ≠ e) : c.toUpper ≠ e := by
  intro h
  rcases toUpper_cases c with hself | ⟨hlow, hhigh, hupper⟩
  · exact hce (hself ▸ h)
  · rw [h] at hupper
    omega

/-- The case map of the addresses. -/
def addressCase : CaseMap where
  upperChar := upperChar
  upperChar_ne_nil c := by
    unfold upperChar
    split_ifs <;> exact List.cons_ne_nil _ _
  upperChar_fixed c d hd := by
    unfold upperChar at hd
    split_ifs at hd with hdotless hligature
    · rw [List.mem_singleton.mp hd]
      decide
    · have hF : d = 'F' := by simpa using hd
      rw [hF]
      decide
    · rw [List.mem_singleton.mp hd]
      unfold upperChar
      rw [if_neg (toUpper_ne (by decide) hdotless), if_neg (toUpper_ne (by decide) hligature),
        toUpper_toUpper]

/-- A node whose hash is the text itself. -/
def textConfig : Config := { localConfig with sha256Text := id }

theorem merkleRoot_ligature :
    merkleRoot textConfig addressCase "ﬀ" 0 = .ok (parentHash textConfig
      (leafHash textConfig addressCase 0 "F") (leafHash textConfig addressCase 1 "F")) := by
  have hupper : (addressCase.upper "ﬀ").toList = ['F', 'F'] := by decide +kernel
  rw [merkleRoot, buildMerkleLayers, if_neg (by decide), hupper, segmentLeaves, segmentLeaves,
    segmentLeaves, layersFrom, if_pos (by decide), pairUp, pairUp, layersFrom, if_neg (by decide)]
  rfl

/-- The ligature has two leaves, so that a position behind the segment is proved. -/
theorem verifyMerkleProof_past_segment :
    ¬ ∀ (cfg : Config) (cm : CaseMap), Function.Injective cfg.sha256Text →
      ∀ (segment : String), segment ≠ "" → ∀ (rangeStart : ℤ) (root : String),
        merkleRoot cfg cm segment rangeStart = .ok root →
        ∀ (position : ℤ) (digit : String) (proof : List ProofItem),
          verifyMerkleProof cfg cm position digit proof root = true →
          rangeStart ≤ position ∧ position < rangeStart + segment.length ∧
            (segment.toList[(position - rangeStart).toNat]?).map (cm.upper ∘ String.singleton) =
              some (cm.upper digit) := by
  intro h
  have hpast := h textConfig addressCase (fun _ _ => id) "ﬀ" (by decide) 0 _ merkleRoot_ligature
    1 "F" [⟨some "left", leafHash textConfig addressCase 0 "F"⟩]
    (by simp [verifyMerkleProof, foldProof])
  exact absurd hpast.2.1 (by decide)

/-- Every digit that a proof proves about two digits of pi is one of them. -/
theorem verifyMerkleProof_sound_pi :
    ∃ root, merkleRoot textConfig addressCase "24" 1 = .ok root ∧
      ∀ (position : ℤ) (digit : String) (proof : List ProofItem),
        verifyMerkleProof textConfig addressCase position digit proof root = true →
        1 ≤ position ∧ position < 3 := by
  obtain ⟨root, hroot, hsound⟩ :=
    verifyMerkleProof_sound textConfig addressCase (fun _ _ => id) "24" (by decide) 1
  refine ⟨root, hroot, fun position digit proof hverify => ?_⟩
  have hdigits : ∀ c ∈ "24".toList, (addressCase.upperChar c).length = 1 := by
    intro c hc
    have hlist : "24".toList = ['2', '4'] := rfl
    rw [hlist] at hc
    rcases List.mem_cons.mp hc with h | h
    · rw [h]
      rfl
    · rw [List.mem_singleton.mp h]
      rfl
  have hrange := (hsound position digit proof hverify).2 hdigits
  exact ⟨(hsound position digit proof hverify).1.1, hrange.1⟩

end Picoin
