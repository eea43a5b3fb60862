import Picoin.Proofs.MerkleSound

/-!
# Every position of a segment has a Merkle proof

The prover takes the siblings of a leaf from the layers by their indices, the verifier climbs by the
sides alone. Both walk one path: the sibling that is recorded for an index and the hash at the index
make the hash at half the index in the layer above (`getElem?_pairUp`).

* **`merkleProof_complete`** — its proof of a position verifies, and other positions raise;
* **`merkleProof_of_ligature`** — behind a character with two upper-case characters the leaves are no
  longer those of the segment's characters.
-/

namespace Picoin

open MerkleTree Outcome

/-! ## Paths -/

variable {cfg : Config} {cm : CaseMap}

theorem foldProof_left (current s : String) (items : List ProofItem) :
    foldProof cfg current (⟨some "left", s⟩ :: items) =
      foldProof cfg (parentHash cfg s current) items := by
  rw [foldProof, if_pos rfl]

theorem foldProof_right (current s : String) (items : List ProofItem) :
    foldProof cfg current (⟨some "right", s⟩ :: items) =
      foldProof cfg (parentHash cfg current s) items := by
  have hside : ¬ some "right" = some "left" := by decide
  rw [foldProof, if_neg hside, if_pos rfl]

/-- The items of an index lead from its hash to the hash at the top. -/
theorem foldProof_proofItems (layer : List String) {root : String} {index : ℕ} {h : String}
    (hindex : layer[index]? = some h)
    (hroot : (layersFrom (parentHash cfg) layer).getLast? = some [root]) :
    ∃ items, proofItems (layersFrom (parentHash cfg) layer).dropLast index = .ok items ∧
      foldProof cfg h items = some root := by
  induction layer using layersFrom.induct (parentHash cfg) generalizing index h with
  | case1 layer hlength ih =>
    have hne := layersFrom_ne_nil (parentHash cfg) (pairUp (parentHash cfg) layer)
    rw [layersFrom, if_pos hlength] at hroot ⊢
    rw [List.getLast?_cons_of_ne_nil hne] at hroot
    obtain ⟨s, hs, habove⟩ := getElem?_pairUp (parentHash cfg) layer index hindex
    obtain ⟨items, hitems, hfold⟩ := ih habove hroot
    rw [List.dropLast_cons_of_ne_nil hne, proofItems, hs, hitems]
    refine ⟨_, rfl, ?_⟩
    -- the side that is recorded is the one by which the verifier hashes
    by_cases hside : siblingIndex layer.length index < index
    · rw [if_pos hside] at hfold ⊢
      rw [foldProof_left]
      exact hfold
    · rw [if_neg hside] at hfold ⊢
      rw [foldProof_right]
      exact hfold
  | case2 layer hlength =>
    rw [layersFrom, if_neg hlength] at hroot ⊢
    obtain rfl : layer = [root] := Option.some.inj hroot
    have hzero : index = 0 := by
      have hlt := (List.getElem?_eq_some_iff.mp hindex).1
      simpa using hlt
    rw [hzero] at hindex ⊢
    exact ⟨[], rfl, hindex.symm⟩

/-! ## Segments -/

theorem getElem?_segmentLeaves (cfg : Config) (cm : CaseMap) (start : ℤ) (digits : List Char) (i : ℕ) :
    (segmentLeaves cfg cm start digits)[i]? =
      digits[i]?.map fun c => leafHash cfg cm (start + i) (String.singleton c) := by
  induction digits generalizing start i with
  | nil => rfl
  | cons c rest ih =>
    cases i with
    | zero => simp [segmentLeaves]
    | succ i =>
      rw [segmentLeaves, List.getElem?_cons_succ, List.getElem?_cons_succ, ih, Nat.cast_succ]
      congr 1
      funext d
      congr 1
      ring

/-- The upper case of a text has a character for each of its characters, or more. -/
theorem length_le_upper (cm : CaseMap) (digits : List Char) :
    digits.length ≤ (digits.flatMap cm.upperChar).length := by
  induction digits with
  | nil => exact le_rfl
  | cons c rest ih =>
    have hpos := List.length_pos_iff.mpr (cm.upperChar_ne_nil c)
    rw [List.flatMap_cons, List.length_append, List.length_cons]
    omega

/-- What the prover and the verifier should agree on: a proof of every position of the segment, and
of no other. -/
def CompleteFor (cfg : Config) (cm : CaseMap) (segment : String) (rangeStart : ℤ)
    (characterAt : ℕ → Option Char) : Prop :=
  ∃ root, merkleRoot cfg cm segment rangeStart = .ok root ∧ ∀ position : ℤ,
    (rangeStart ≤ position ∧ position < rangeStart + segment.length →
      ∃ digit proof, characterAt (position - rangeStart).toNat = some digit ∧
        merkleProof cfg cm segment rangeStart position = .ok proof ∧
          verifyMerkleProof cfg cm position (String.singleton digit) proof root = true) ∧
    (¬ (rangeStart ≤ position ∧ position < rangeStart + segment.length) →
      merkleProof cfg cm segment rangeStart position =
        .error "position is outside segment range")

/-- The prover returns a proof of the leaf at the position. -/
theorem exists_merkleProof {segment root : String} (hsegment : segment ≠ "") {rangeStart position : ℤ}
    (hroot : (layersFrom (parentHash cfg)
      (segmentLeaves cfg cm rangeStart (cm.upper segment).toList)).getLast? = some [root])
    (hin : rangeStart ≤ position ∧ position < rangeStart + segment.length) :
    ∃ digit proof, (cm.upper segment).toList[(position - rangeStart).toNat]? = some digit ∧
      merkleProof cfg cm segment rangeStart position = .ok proof ∧
        foldProof cfg (leafHash cfg cm position (String.singleton digit)) proof = some root := by
  have hlength : (position - rangeStart).toNat < (cm.upper segment).toList.length := by
    have hle := length_le_upper cm segment.toList
    rw [String.length_toList] at hle
    rw [CaseMap.upper, String.toList_ofList]
    omega
  have hdigit := List.getElem?_eq_getElem hlength
  have hleaf := getElem?_segmentLeaves cfg cm rangeStart (cm.upper segment).toList
    (position - rangeStart).toNat
  have hposition : rangeStart + ((position - rangeStart).toNat : ℤ) = position := by omega
  rw [hdigit, hposition] at hleaf
  obtain ⟨items, hitems, hfold⟩ := foldProof_proofItems _ hleaf hroot
  refine ⟨_, items, hdigit, ?_, hfold⟩
  rw [merkleProof, if_neg (by omega), buildMerkleLayers, if_neg hsegment]
  exact hitems

theorem merkleProof_outside (segment : String) {rangeStart position : ℤ}
    (hout : ¬ (rangeStart ≤ position ∧ position < rangeStart + segment.length)) :
    merkleProof cfg cm segment rangeStart position = .error "position is outside segment range" := by
  rw [merkleProof, if_pos (by omega)]
  rfl

theorem verifyMerkleProof_of_fold {position : ℤ} {digit root : String} {proof : List ProofItem}
    (h : foldProof cfg (leafHash cfg cm position digit) proof = some root) :
    verifyMerkleProof cfg cm position digit proof root = true := by
  rw [verifyMerkleProof, h]
  exact decide_eq_true rfl

/-- Characters with the same upper case have the same leaf. -/
theorem leafHash_upper (position : ℤ) {c u : Char} (hu : cm.upperChar c = [u]) :
    leafHash cfg cm position (String.singleton u) = leafHash cfg cm position (String.singleton c) := by
  have hfixed := upper_singleton cm (cm.upperChar_fixed c u (hu ▸ List.mem_singleton_self u))
  rw [leafHash, leafHash, hfixed, upper_singleton cm hu]

/-! ## Completeness -/

/-- Every position of a segment has a proof of its upper-case character, every other position raises;
where each character has one upper-case character, the proof is one of the segment's own. -/
theorem merkleProof_complete (cfg : Config) (cm : CaseMap) (segment : String) (hsegment : segment ≠ "")
    (rangeStart : ℤ) :
    CompleteFor cfg cm segment rangeStart (fun i => (cm.upper segment).toList[i]?) ∧
      ((∀ c ∈ segment.toList, (cm.upperChar c).length = 1) →
        CompleteFor cfg cm segment rangeStart (fun i => segment.toList[i]?)) := by
  obtain ⟨root, hroot, htop⟩ := exists_merkleRoot cfg cm hsegment rangeStart
  refine ⟨⟨root, hroot, fun position => ⟨fun hin => ?_, merkleProof_outside segment⟩⟩,
    fun hone => ⟨root, hroot, fun position => ⟨fun hin => ?_, merkleProof_outside segment⟩⟩⟩
  · obtain ⟨digit, proof, hdigit, hproof, hfold⟩ := exists_merkleProof hsegment htop hin
    exact ⟨digit, proof, hdigit, hproof, verifyMerkleProof_of_fold hfold⟩
  · obtain ⟨u, proof, hu, hproof, hfold⟩ := exists_merkleProof hsegment htop hin
    rw [CaseMap.upper, String.toList_ofList, getElem?_upper hone] at hu
    obtain ⟨c, hc, hcu⟩ := Option.bind_eq_some_iff.mp hu
    obtain ⟨only, honly⟩ := List.length_eq_one_iff.mp (hone c (List.mem_of_getElem? hc))
    have heq : only = u := by
      rw [honly] at hcu
      exact Option.some.inj hcu
    refine ⟨c, proof, hc, hproof, verifyMerkleProof_of_fold ?_⟩
    rw [← leafHash_upper position (heq ▸ honly)]
    exact hfold

/-- Two hexadecimal digits from a position on. -/
theorem merkleProof_complete_digits :
    CompleteFor textConfig addressCase "2f" 7 (fun i => (addressCase.upper "2f").toList[i]?) ∧
      CompleteFor textConfig addressCase "2f" 7 (fun i => "2f".toList[i]?) :=
  (merkleProof_complete textConfig addressCase "2f" (by decide) 7).imp_right fun hone => hone (by
    intro c hc
    have hchars : "2f".toList = ['2', 'f'] := by decide
    rw [hchars, List.mem_pair] at hc
    rcases hc with rfl | rfl
    · rfl
    · rfl)

/-! ## A character with two upper-case characters -/

theorem foldProof_inj (hsha : Function.Injective cfg.sha256Text) {proof : List ProofItem}
    {a b root : String} (ha : foldProof cfg a proof = some root)
    (hb : foldProof cfg b proof = some root) : a = b := by
  induction proof generalizing a b with
  | nil =>
    rw [foldProof] at ha hb
    exact Option.some.inj (ha.trans hb.symm)
  | cons item rest ih =>
    rw [foldProof] at ha hb
    split_ifs at ha hb with hleft hright
    · exact (parentHash_inj hsha _ _ _ _ (ih ha hb)).2
    · exact (parentHash_inj hsha _ _ _ _ (ih ha hb)).1

/-- The letter behind the ligature: the leaf at its position is the second half of the ligature. -/
theorem merkleProof_of_ligature :
    ¬ ∀ (cfg : Config) (cm : CaseMap) (segment : String), segment ≠ "" → ∀ rangeStart : ℤ,
      CompleteFor cfg cm segment rangeStart (fun i => segment.toList[i]?) := by
  intro h
  obtain ⟨root, hroot, hall⟩ := h textConfig addressCase "ﬀA" (by decide) 0
  have hsegment : "ﬀA" ≠ "" := by decide
  obtain ⟨root', hroot', htop⟩ := exists_merkleRoot textConfig addressCase hsegment 0
  obtain rfl : root = root' := Except.ok.inj (hroot.symm.trans hroot')
  have hin : (0 : ℤ) ≤ 1 ∧ (1 : ℤ) < 0 + ("ﬀA".length : ℕ) := by decide
  obtain ⟨digit, proof, hdigit, hproof, hverify⟩ := (hall 1).1 hin
  obtain ⟨leaf, proof', hleaf, hproof', hfold⟩ := exists_merkleProof hsegment htop hin
  obtain rfl : proof = proof' := Except.ok.inj (hproof.symm.trans hproof')
  obtain rfl : 'A' = digit := Option.some.inj hdigit
  have hupper : (addressCase.upper "ﬀA").toList = ['F', 'F', 'A'] := by decide +kernel
  rw [hupper] at hleaf
  obtain rfl : 'F' = leaf := Option.some.inj hleaf
  have hfold' : foldProof textConfig (leafHash textConfig addressCase 1 (String.singleton 'A'))
      proof = some root := by
    rw [verifyMerkleProof] at hverify
    split at hverify
    · exact absurd hverify (by decide)
    · next final hfinal => rw [hfinal, of_decide_eq_true hverify]
  have hsame := leafHash_inj (fun _ _ h => h) (foldProof_inj (fun _ _ h => h) hfold' hfold)
  exact absurd hsame.2 (by decide +kernel)

end Picoin
