import Picoin.Lib.Outcome
import Picoin.Lib.Tiling
import Picoin.Pool.Chunks

/-!
# Chunks tile their range

Both ways of splitting give a tiling of the range, and the segment of the range is assembled from
the digits of the chunks of a tiling, in any order, and from nothing else.

* **`tiles_splitRange`**, **`tiles_splitRangeBalanced`** — the chunks of a range;
* **`assembleSegment_eq_ok_iff`** — what is assembled, and from what;
* **`split_and_assemble`** — both together.
-/

namespace Picoin.Pool

open Outcome Tiling

/-! ## Tilings -/

/-- The chunks tile the range: none is empty, each starts right after the one before. -/
def TilesRange (rangeStart rangeEnd : ℤ) (chunks : List WorkChunk) : Prop :=
  Tiles WorkChunk.rangeStart WorkChunk.rangeEnd rangeStart (rangeEnd + 1) chunks

/-- The loop covers what is left, with enough chunks to go. -/
theorem tiles_splitFrom {chunkSize : ℤ} (hsize : 1 ≤ chunkSize) (rangeEnd : ℤ) (fuel : ℕ) :
    ∀ current : ℤ, current ≤ rangeEnd + 1 → rangeEnd + 1 - current ≤ fuel →
      TilesRange current rangeEnd (splitFrom chunkSize current rangeEnd fuel) := by
  induction fuel with
  | zero =>
    intro current hcurrent hfuel
    have heq : current = rangeEnd + 1 := by omega
    rw [heq, splitFrom]
    exact .nil _
  | succ fuel ih =>
    intro current hcurrent hfuel
    rw [splitFrom]
    split
    · next hle =>
      dsimp only
      -- the chunk is not empty, and ends within the range
      refine @Tiles.cons _ WorkChunk.rangeStart WorkChunk.rangeEnd
        ⟨current, min rangeEnd (current + chunkSize - 1)⟩ _ _ ?_ (ih _ ?_ ?_)
      · show current ≤ min rangeEnd (current + chunkSize - 1)
        omega
      · show min rangeEnd (current + chunkSize - 1) + 1 ≤ rangeEnd + 1
        omega
      · show rangeEnd + 1 - (min rangeEnd (current + chunkSize - 1) + 1) ≤ fuel
        push_cast at hfuel
        omega
    · next hend =>
      have heq : current = rangeEnd + 1 := by omega
      rw [heq]
      exact .nil _

/-- The chunks of the balanced loop, from an index on: the first ones have a unit more. -/
theorem tiles_balancedFrom {baseUnits extraUnits : ℤ} (hbase : 1 ≤ baseUnits) (left : ℕ) :
    ∀ (current : ℤ) (index : ℕ), Tiles WorkChunk.rangeStart WorkChunk.rangeEnd current
      (current + left * baseUnits + max 0 (min (left : ℤ) (extraUnits - index)))
      (balancedFrom baseUnits extraUnits current index left) := by
  induction left with
  | zero =>
    intro current index
    have hnone : current + (0 : ℕ) * baseUnits + max 0 (min ((0 : ℕ) : ℤ) (extraUnits - index)) =
        current := by
      push_cast
      omega
    rw [hnone]
    exact .nil current
  | succ left ih =>
    intro current index
    rw [balancedFrom]
    have hnext := ih (current + (baseUnits + if (index : ℤ) < extraUnits then 1 else 0) - 1 + 1)
      (index + 1)
    have hstop : current + (baseUnits + if (index : ℤ) < extraUnits then 1 else 0) - 1 + 1 +
        left * baseUnits + max 0 (min (left : ℤ) (extraUnits - (index + 1 : ℕ))) =
        current + (left + 1 : ℕ) * baseUnits +
          max 0 (min ((left + 1 : ℕ) : ℤ) (extraUnits - index)) := by
      push_cast
      rw [add_mul, one_mul]
      split <;> omega
    rw [hstop] at hnext
    refine @Tiles.cons _ WorkChunk.rangeStart WorkChunk.rangeEnd
      ⟨current, current + (baseUnits + if (index : ℤ) < extraUnits then 1 else 0) - 1⟩ _ _ ?_ hnext
    show current ≤ current + (baseUnits + if (index : ℤ) < extraUnits then 1 else 0) - 1
    split <;> omega

theorem units_balancedFrom {baseUnits extraUnits : ℤ} (left : ℕ) :
    ∀ (current : ℤ) (index : ℕ), ∀ chunk ∈ balancedFrom baseUnits extraUnits current index left,
      baseUnits ≤ chunk.units ∧ chunk.units ≤ baseUnits + 1 := by
  induction left with
  | zero =>
    intro current index chunk hchunk
    cases hchunk
  | succ left ih =>
    intro current index chunk hchunk
    rw [balancedFrom] at hchunk
    rcases List.mem_cons.mp hchunk with rfl | hchunk
    · unfold WorkChunk.units
      dsimp only
      split <;> omega
    · exact ih _ _ chunk hchunk

/-! ## Splitting -/

theorem tiles_splitRange {rangeStart rangeEnd chunkSize : ℤ} (hstart : 1 ≤ rangeStart)
    (hend : rangeStart ≤ rangeEnd) (hsize : 1 ≤ chunkSize) :
    ∃ chunks, splitRange rangeStart rangeEnd chunkSize = .ok chunks ∧
      TilesRange rangeStart rangeEnd chunks := by
  refine ⟨_, ?_, tiles_splitFrom hsize rangeEnd (rangeEnd - rangeStart + 1).toNat rangeStart
    (by omega) (by omega)⟩
  rw [splitRange, if_neg (by omega), if_neg (by omega), if_neg (by omega)]

theorem tiles_splitRangeBalanced {rangeStart rangeEnd : ℤ} (hstart : 1 ≤ rangeStart)
    (hend : rangeStart ≤ rangeEnd) (targetChunks : ℤ) :
    ∃ chunks, splitRangeBalanced rangeStart rangeEnd targetChunks = .ok chunks ∧
      TilesRange rangeStart rangeEnd chunks ∧
      ∀ a ∈ chunks, ∀ b ∈ chunks, a.units ≤ b.units + 1 := by
  generalize hcount : max 1 (min (if targetChunks = 0 then 1 else targetChunks)
    (rangeEnd - rangeStart + 1)) = chunkCount
  have hpositive : 1 ≤ chunkCount := by omega
  have hunits : chunkCount ≤ rangeEnd - rangeStart + 1 := by omega
  refine ⟨balancedFrom ((rangeEnd - rangeStart + 1) / chunkCount)
    ((rangeEnd - rangeStart + 1) % chunkCount) rangeStart 0 chunkCount.toNat, ?_, ?_,
    fun a ha b hb => ?_⟩
  · rw [splitRangeBalanced, if_neg (by omega), if_neg (by omega)]
    dsimp only
    rw [hcount]
  · have hbase : 1 ≤ (rangeEnd - rangeStart + 1) / chunkCount :=
      (Int.le_ediv_iff_mul_le (by omega)).mpr (by omega)
    have htiles := @tiles_balancedFrom _ ((rangeEnd - rangeStart + 1) % chunkCount) hbase
      chunkCount.toNat rangeStart 0
    -- the quotient for every chunk, and the remainder one by one
    have hsum : rangeStart + chunkCount.toNat * ((rangeEnd - rangeStart + 1) / chunkCount) +
        max 0 (min (chunkCount.toNat : ℤ)
          ((rangeEnd - rangeStart + 1) % chunkCount - (0 : ℕ))) = rangeEnd + 1 := by
      have hnonneg := Int.emod_nonneg (rangeEnd - rangeStart + 1) (show chunkCount ≠ 0 by omega)
      have hless := Int.emod_lt_of_pos (rangeEnd - rangeStart + 1) (show 0 < chunkCount by omega)
      have hdivision := Int.mul_ediv_add_emod (rangeEnd - rangeStart + 1) chunkCount
      have hcast : (chunkCount.toNat : ℤ) = chunkCount := Int.toNat_of_nonneg (by omega)
      rw [hcast]
      push_cast
      omega
    rw [hsum] at htiles
    exact htiles
  · have hA := units_balancedFrom _ _ _ a ha
    have hB := units_balancedFrom _ _ _ b hb
    omega

/-! ## Assembling -/

/-- The chunks with their digits tile the range. -/
def SegmentsTile (rangeStart rangeEnd : ℤ) (chunks : List ChunkSegment) : Prop :=
  Tiles ChunkSegment.rangeStart ChunkSegment.rangeEnd rangeStart (rangeEnd + 1) chunks

/-- Each piece is as long as its range. -/
def PiecesFit (chunks : List ChunkSegment) : Prop :=
  ∀ chunk ∈ chunks, (chunk.segment.length : ℤ) = chunk.rangeEnd - chunk.rangeStart + 1

/-- The loop goes through for the tilings with fitting pieces, up to the position it reaches. -/
theorem assembleFrom_eq_ok_iff {chunks : List ChunkSegment} {pieces : List String} :
    ∀ {expected next : ℤ}, assembleFrom expected chunks = .ok (next, pieces) ↔
      Tiles ChunkSegment.rangeStart ChunkSegment.rangeEnd expected next chunks ∧
        PiecesFit chunks ∧ pieces = chunks.map ChunkSegment.segment := by
  -- by induction on the chunks; each of the three checks is one part of the condition
  induction chunks generalizing pieces with
  | nil =>
    intro expected next
    rw [assembleFrom]
    constructor
    · intro h
      cases h
      exact ⟨.nil _, fun _ hmem => absurd hmem List.not_mem_nil, rfl⟩
    · rintro ⟨htiles, -, rfl⟩
      cases htiles
      rfl
  | cons chunk rest ih =>
    intro expected next
    rw [assembleFrom]
    dsimp only
    constructor
    · intro h
      split at h
      · cases h
      next hexpected =>
      split at h
      · cases h
      next hle =>
      split at h
      · cases h
      next hlength =>
      obtain ⟨⟨next', pieces'⟩, hrest, h⟩ := bind_eq_ok.mp h
      cases h
      obtain ⟨htiles, hfit, rfl⟩ := ih.mp hrest
      rw [← not_ne_iff.mp hexpected]
      refine ⟨.cons (not_lt.mp hle) htiles, fun piece hpiece => ?_, rfl⟩
      rcases List.mem_cons.mp hpiece with rfl | hpiece
      · exact not_ne_iff.mp hlength
      · exact hfit piece hpiece
    · rintro ⟨htiles, hfit, rfl⟩
      cases htiles with
      | cons hle htail =>
        have hrest := ih.mpr ⟨htail, fun piece hpiece => hfit piece (List.mem_cons_of_mem _ hpiece),
          rfl⟩
        rw [if_neg (not_ne_iff.mpr rfl), if_neg (not_lt.mpr hle),
          if_neg (not_ne_iff.mpr (hfit chunk List.mem_cons_self)), hrest]
        rfl

/-- A segment is assembled from chunks exactly when some order of them tiles the range with fitting
pieces, and is the pieces in that order. -/
theorem assembleSegment_eq_ok_iff {rangeStart rangeEnd : ℤ} {chunks : List ChunkSegment}
    {segment : String} :
    assembleSegment rangeStart rangeEnd chunks = .ok segment ↔
      ∃ ordered, chunks.Perm ordered ∧ SegmentsTile rangeStart rangeEnd ordered ∧
        PiecesFit ordered ∧ segment = String.join (ordered.map ChunkSegment.segment) := by
  unfold assembleSegment
  dsimp only
  constructor
  · intro h
    obtain ⟨⟨next, pieces⟩, hloop, h⟩ := bind_eq_ok.mp h
    obtain ⟨htiles, hfit, rfl⟩ := assembleFrom_eq_ok_iff.mp hloop
    dsimp only at h
    split at h
    · cases h
    · next hnext =>
      rw [not_ne_iff.mp hnext] at htiles
      exact ⟨_, (List.perm_insertionSort _ _).symm, htiles, hfit, (Except.ok.inj h).symm⟩
  · rintro ⟨ordered, hperm, htiles, hfit, rfl⟩
    rw [htiles.insertionSort_of_perm hperm, assembleFrom_eq_ok_iff.mpr ⟨htiles, hfit, rfl⟩]
    exact if_neg (not_ne_iff.mpr rfl)

/-! ## Digits of a segment -/

/-- The chunk with its digits of a segment that starts at a position. -/
def WorkChunk.carry (rangeStart : ℤ) (segment : String) (chunk : WorkChunk) : ChunkSegment where
  rangeStart := chunk.rangeStart
  rangeEnd := chunk.rangeEnd
  segment := String.ofList
    (piece WorkChunk.rangeStart WorkChunk.rangeEnd rangeStart segment.toList chunk)

/-- The segment is assembled from the digits of the chunks, in any order. -/
theorem assemble_carried {rangeStart rangeEnd : ℤ} {chunks : List WorkChunk}
    (htiles : TilesRange rangeStart rangeEnd chunks) {segment : String}
    (hlength : (segment.length : ℤ) = rangeEnd + 1 - rangeStart) {carried : List ChunkSegment}
    (hperm : carried.Perm (chunks.map (WorkChunk.carry rangeStart segment))) :
    assembleSegment rangeStart rangeEnd carried = .ok segment := by
  have hlist : (segment.toList.length : ℤ) = rangeEnd + 1 - rangeStart := by
    rw [String.length_toList]
    exact hlength
  refine assembleSegment_eq_ok_iff.mpr ⟨_, hperm, (tiles_map _).mpr htiles, ?_, ?_⟩
  · intro item hitem
    obtain ⟨chunk, hchunk, rfl⟩ := List.mem_map.mp hitem
    have hpiece := htiles.length_piece hlist hchunk
    unfold WorkChunk.carry
    dsimp only
    rw [← String.length_toList, String.toList_ofList]
    exact hpiece
  · apply String.toList_injective
    rw [String.toList_join, List.flatMap_def, List.map_map, List.map_map]
    have hpieces : (chunks.map ((String.toList ∘ ChunkSegment.segment) ∘
        WorkChunk.carry rangeStart segment)) = chunks.map
          (piece WorkChunk.rangeStart WorkChunk.rangeEnd rangeStart segment.toList) := by
      refine List.map_congr_left fun chunk _ => ?_
      exact String.toList_ofList
    rw [hpieces, htiles.flatten_pieces hlist]

/-! ## Splitting and assembling -/

/-- Every segment of the range is assembled from the digits of the chunks, in any order. -/
def Reassembles (rangeStart rangeEnd : ℤ) (chunks : List WorkChunk) : Prop :=
  ∀ segment : String, (segment.length : ℤ) = rangeEnd - rangeStart + 1 →
    ∀ carried : List ChunkSegment,
      carried.Perm (chunks.map (WorkChunk.carry rangeStart segment)) →
        assembleSegment rangeStart rangeEnd carried = .ok segment

/-- **Both splittings tile the range** and assemble again, and only tilings with fitting pieces
assemble. -/
theorem split_and_assemble {rangeStart rangeEnd : ℤ} (hstart : 1 ≤ rangeStart)
    (hend : rangeStart ≤ rangeEnd) :
    (∀ chunkSize : ℤ, 1 ≤ chunkSize → ∃ chunks,
      splitRange rangeStart rangeEnd chunkSize = .ok chunks ∧
        TilesRange rangeStart rangeEnd chunks ∧ Reassembles rangeStart rangeEnd chunks) ∧
    (∀ targetChunks : ℤ, ∃ chunks,
      splitRangeBalanced rangeStart rangeEnd targetChunks = .ok chunks ∧
        TilesRange rangeStart rangeEnd chunks ∧ Reassembles rangeStart rangeEnd chunks ∧
          ∀ a ∈ chunks, ∀ b ∈ chunks, a.units ≤ b.units + 1) ∧
    (∀ (chunks : List ChunkSegment) (segment : String),
      assembleSegment rangeStart rangeEnd chunks = .ok segment →
        ∃ ordered, chunks.Perm ordered ∧ SegmentsTile rangeStart rangeEnd ordered ∧
          PiecesFit ordered ∧ segment = String.join (ordered.map ChunkSegment.segment)) := by
  refine ⟨fun chunkSize hsize => ?_, fun targetChunks => ?_,
    fun chunks segment => assembleSegment_eq_ok_iff.mp⟩
  · obtain ⟨chunks, hsplit, htiles⟩ := tiles_splitRange hstart hend hsize
    exact ⟨chunks, hsplit, htiles, fun segment hlength carried hperm =>
      assemble_carried htiles (by omega) hperm⟩
  · obtain ⟨chunks, hsplit, htiles, hbalanced⟩ := tiles_splitRangeBalanced hstart hend targetChunks
    exact ⟨chunks, hsplit, htiles, fun segment hlength carried hperm =>
      assemble_carried htiles (by omega) hperm, hbalanced⟩

theorem split_and_assemble_eight : (1 : ℤ) ≤ 10 ∧ (10 : ℤ) ≤ 17 ∧ ∃ chunks,
    splitRange 10 17 3 = .ok chunks ∧ TilesRange 10 17 chunks ∧ Reassembles 10 17 chunks :=
  ⟨by decide, by decide,
    (split_and_assemble (by decide : (1 : ℤ) ≤ 10) (by decide : (10 : ℤ) ≤ 17)).1 3 (by decide)⟩

end Picoin.Pool
