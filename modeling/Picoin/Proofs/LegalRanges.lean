import Picoin.Services.RangeAssignment
import Picoin.Services.LocalMining

/-!
# Legal ranges

The range of a task lies between the first position and the limit, and starts where no task was
accepted and no block was made. There are two ways out of this:

* the range of a round is not compared with the limit, so that it passes it once the window has
  moved past the limit;
* the range of a task of its own is not compared with the blocks, so that it starts where a block
  does whose task is not among the accepted ones.

* **`ranges_legal_iff`** — the ranges are legal exactly where neither can happen.
-/

namespace Picoin

variable {σ : Type} {rc : RangeConfig} {s : MiningState σ}

/-! ## Legality -/

/-- No accepted task and no block of the algorithm starts here. -/
structure FreshStart (s : MiningState σ) (algorithm : String) (rangeStart : ℤ) : Prop where
  tasks : s.tasks.Forall fun task =>
    task.algorithm = algorithm → task.status = .accepted → task.rangeStart ≠ rangeStart
  blocks : ∀ block ∈ s.blocks, block.algorithm = algorithm → block.rangeStart ≠ rangeStart

/-- A range of the length of a segment, within the limit, at a fresh start. -/
structure LegalRange (rc : RangeConfig) (s : MiningState σ) (params : ProtocolParamsRow)
    (a : Assignment) : Prop where
  positive : 1 ≤ a.rangeStart
  length : a.rangeEnd = a.rangeStart + params.segmentSize - 1
  below : a.rangeEnd ≤ resolveRetargetMaxPiPosition rc params
  fresh : FreshStart s params.algorithm a.rangeStart

/-- The range meets that of no task that is being worked on. -/
def ClearOfActive (s : MiningState σ) (algorithm : String) (a : Assignment) : Prop :=
  s.tasks.Forall fun task => task.algorithm = algorithm → task.status.active = true →
    task.rangeEnd < a.rangeStart ∨ a.rangeEnd < task.rangeStart

theorem rangeStartIsAccepted_eq_false_iff {rangeStart : ℤ} {algorithm : String} :
    rangeStartIsAccepted s rangeStart algorithm = false ↔ FreshStart s algorithm rangeStart := by
  simp only [rangeStartIsAccepted, Bool.or_eq_false_iff, List.any_eq_false, Bool.and_eq_true,
    decide_eq_true_eq, not_and]
  constructor
  · intro h
    exact ⟨fun r hr halgorithm hstatus => h.1 r hr ⟨hstatus, halgorithm⟩, h.2⟩
  · intro h
    exact ⟨fun r hr hboth => h.tasks r hr hboth.2 hboth.1, h.blocks⟩

theorem tasks_fresh_of_not_protected {rangeStart : ℤ} {algorithm : String}
    (h : rangeStartIsProtected s rangeStart algorithm = false) :
    s.tasks.Forall fun task => task.algorithm = algorithm → task.status = .accepted →
      task.rangeStart ≠ rangeStart := by
  intro r hr halgorithm hstatus hstart
  have hnot := List.any_eq_false.mp h r hr
  simp [halgorithm, hstatus, hstart, TaskStatus.holdsStart] at hnot

theorem clearOfActive_of_not_overlaps {algorithm : String} {a : Assignment}
    (h : rangeOverlapsActiveTask s a.rangeStart a.rangeEnd algorithm = false) :
    ClearOfActive s algorithm a := by
  intro r hr halgorithm hactive
  have hnot := List.any_eq_false.mp h r hr
  simp only [halgorithm, hactive, decide_true, Bool.true_and, Bool.and_eq_true,
    decide_eq_true_eq] at hnot
  omega

/-! ## The window -/

/-- The seeds of ranges with another digest. -/
def RangeConfig.withDigest (rc : RangeConfig) (digest : String → String) : RangeConfig :=
  { rc with sha256Text := digest }

section Window

variable {params : ProtocolParamsRow} (hsegment : 0 < params.segmentSize)
include hsegment

theorem minStart_pos : 1 ≤ (rangeAssignmentWindow rc s params).minStart := by
  have hsize : 0 ≤ max rc.rangeStartWindowSize params.segmentSize :=
    hsegment.le.trans (le_max_right _ _)
  have hbase : 0 ≤ ((rangeAssignmentWindow rc s params).windowIndex : ℤ) *
      max rc.rangeStartWindowSize params.segmentSize := mul_nonneg (Int.natCast_nonneg _) hsize
  show 1 ≤ _ * max rc.rangeStartWindowSize params.segmentSize + 1
  exact le_add_of_nonneg_left hbase

omit hsegment in
variable (rc s params) in
theorem maxStart_le : (rangeAssignmentWindow rc s params).maxStart + params.segmentSize - 1 ≤
    resolveRetargetMaxPiPosition rc params := by
  show min _ _ - params.segmentSize + 1 + params.segmentSize - 1 ≤ _
  have hlimit := min_le_left (resolveRetargetMaxPiPosition rc params)
    (max (max (max params.maxPiPosition params.segmentSize)
      ((((rangeAssignmentWindow rc s params).windowIndex : ℤ) + 1) *
        max rc.rangeStartWindowSize params.segmentSize))
      (acceptedRangeFrontier s params.algorithm +
        max (max rc.rangeStartWindowSize params.segmentSize)
          (params.segmentSize * rc.rangeWindowLookaheadMultiplier)))
  omega

omit hsegment in
/-- The window holds a segment unless the limit cuts it off. -/
theorem minStart_le_maxStart_iff :
    (rangeAssignmentWindow rc s params).minStart ≤ (rangeAssignmentWindow rc s params).maxStart ↔
      (rangeAssignmentWindow rc s params).minStart + params.segmentSize - 1 ≤
        resolveRetargetMaxPiPosition rc params := by
  constructor
  · intro h
    have hmax := maxStart_le rc s params
    omega
  · intro h
    set index : ℤ := ((rangeAssignmentWindow rc s params).windowIndex : ℤ) with hindex
    set size := max rc.rangeStartWindowSize params.segmentSize with hsize
    have hmin : (rangeAssignmentWindow rc s params).minStart = index * size + 1 := rfl
    have hwindow : index * size + size ≤ (index + 1) * size := by
      rw [add_mul, one_mul]
    have hlong : params.segmentSize ≤ size := le_max_right _ _
    show _ ≤ min _ (max (max _ ((index + 1) * size)) _) - params.segmentSize + 1
    rw [hmin] at h ⊢
    -- the end of the window is one of the bounds, and a segment fits before it
    have hend : index * size + 1 + params.segmentSize - 1 ≤
        max (max (max params.maxPiPosition params.segmentSize) ((index + 1) * size))
          (acceptedRangeFrontier s params.algorithm +
            max size (params.segmentSize * rc.rangeWindowLookaheadMultiplier)) :=
      le_trans (by omega) ((le_max_right _ _).trans (le_max_left _ _))
    have hboth := le_min h hend
    omega

end Window

/-! ## The range of a round -/

section Round

variable {params : ℤ × ProtocolParamsRow}

theorem attempt_bounds (minStart maxStart : ℤ) (n : ℕ) :
    0 ≤ (n : ℤ) % max 1 (maxStart - minStart + 1) ∧
      (n : ℤ) % max 1 (maxStart - minStart + 1) < max 1 (maxStart - minStart + 1) := by
  have hpos : 0 < max 1 (maxStart - minStart + 1) := lt_of_lt_of_le one_pos (le_max_left _ _)
  exact ⟨Int.emod_nonneg _ hpos.ne', Int.emod_lt_of_pos _ hpos⟩

/-- The range of a round starts in the window, or at the start of an empty one, where no task was
accepted. -/
theorem competitiveRoundAssignment_eq_ok {a : Assignment}
    (h : competitiveRoundAssignment rc s params = .ok a) :
    (rangeAssignmentWindow rc s params.2).minStart ≤ a.rangeStart ∧
      a.rangeStart ≤ max (rangeAssignmentWindow rc s params.2).minStart
        (rangeAssignmentWindow rc s params.2).maxStart ∧
      a.rangeEnd = a.rangeStart + params.2.segmentSize - 1 ∧
      rangeStartIsAccepted s a.rangeStart params.2.algorithm = false := by
  unfold competitiveRoundAssignment at h
  dsimp only at h
  split at h
  · cases h
  · next start hfound =>
    cases h
    have hfree := List.find?_some hfound
    obtain ⟨attempt, -, rfl⟩ := List.mem_map.mp (List.mem_of_find?_eq_some hfound)
    obtain ⟨hlow, hhigh⟩ := attempt_bounds (rangeAssignmentWindow rc s params.2).minStart
      (rangeAssignmentWindow rc s params.2).maxStart
      (intOfHex (attemptSeed rc (roundSeed rc s params) attempt))
    refine ⟨?_, ?_, rfl, by simpa using hfree⟩
    · exact le_add_of_nonneg_right hlow
    · dsimp only
      omega

/-- In an empty window the first attempt gives the window's start. -/
theorem competitiveRoundAssignment_of_empty
    (hempty : (rangeAssignmentWindow rc s params.2).maxStart <
      (rangeAssignmentWindow rc s params.2).minStart)
    (hfree : rangeStartIsAccepted s (rangeAssignmentWindow rc s params.2).minStart
      params.2.algorithm = false) :
    ∃ a, competitiveRoundAssignment rc s params = .ok a ∧
      a.rangeStart = (rangeAssignmentWindow rc s params.2).minStart := by
  have hcount : max 1 ((rangeAssignmentWindow rc s params.2).maxStart -
      (rangeAssignmentWindow rc s params.2).minStart + 1) = 1 := by omega
  obtain ⟨n, hn⟩ : ∃ n, (max 1 (intOr (some params.2.rangeAssignmentMaxAttempts)
      rangeAssignmentMaxAttempts)).toNat = n + 1 := ⟨_, (Nat.succ_pred_eq_of_pos (by omega)).symm⟩
  let start := (rangeAssignmentWindow rc s params.2).minStart
  refine ⟨⟨start, start + params.2.segmentSize - 1, roundSeed rc s params,
    some (s.tip.height + 1), some s.tip.blockHash⟩, ?_, rfl⟩
  unfold competitiveRoundAssignment
  simp only [hcount, hn, Int.emod_one, add_zero, List.range_succ_eq_map, List.map_cons,
    List.find?_cons, hfree, Bool.not_false, start]

end Round

/-! ## The range of a task of its own -/

section Own

variable {params : ℤ × ProtocolParamsRow} {minerId taskId : String}

variable (rc s) in
/-- A draw or the scan can give this start: it lies in the window, no task holds it, and unless
there are draws it is the first of these. -/
structure CanBeAssigned (params : ProtocolParamsRow) (start : ℤ) : Prop where
  low : (rangeAssignmentWindow rc s params).minStart ≤ start
  high : start ≤ (rangeAssignmentWindow rc s params).maxStart
  free : rangeIsAssignable s start (start + params.segmentSize - 1) params.algorithm = true
  drawn : 0 < params.rangeAssignmentMaxAttempts ∨
    ∀ earlier, (rangeAssignmentWindow rc s params).minStart ≤ earlier → earlier < start →
      rangeIsAssignable s earlier (earlier + params.segmentSize - 1) params.algorithm = false

variable (rc) in
/-- The limit is no further condition in the window. -/
theorem startFits_eq {params : ProtocolParamsRow} {start : ℤ}
    (hhigh : start ≤ (rangeAssignmentWindow rc s params).maxStart) :
    startFits s params (rangeAssignmentWindow rc s params).retargetMaxPiPosition start =
      rangeIsAssignable s start (start + params.segmentSize - 1) params.algorithm := by
  have hmax := maxStart_le rc s params
  have hlimit : start + params.segmentSize - 1 ≤
      (rangeAssignmentWindow rc s params).retargetMaxPiPosition := by
    show _ ≤ resolveRetargetMaxPiPosition rc params
    omega
  simp [startFits, hlimit]

/-- What the scan gives is the first start of the window that no task holds. -/
theorem scannedStarts_find?_eq_some {params : ProtocolParamsRow} {start : ℤ × String}
    (h : (scannedStarts rc s minerId taskId params).find? (fun start => startFits s params
      (rangeAssignmentWindow rc s params).retargetMaxPiPosition start.1) = some start) :
    (rangeAssignmentWindow rc s params).minStart ≤ start.1 ∧
      start.1 ≤ (rangeAssignmentWindow rc s params).maxStart ∧
      rangeIsAssignable s start.1 (start.1 + params.segmentSize - 1) params.algorithm = true ∧
      ∀ earlier, (rangeAssignmentWindow rc s params).minStart ≤ earlier → earlier < start.1 →
        rangeIsAssignable s earlier (earlier + params.segmentSize - 1) params.algorithm =
          false := by
  unfold scannedStarts at h
  rw [List.find?_map, Option.map_eq_some_iff] at h
  obtain ⟨k, hk, rfl⟩ := h
  rw [List.find?_range_eq_some] at hk
  obtain ⟨hfits, hmem, hbefore⟩ := hk
  have hlt := List.mem_range.mp hmem
  have hhigh : (rangeAssignmentWindow rc s params).minStart + (k : ℤ) ≤
      (rangeAssignmentWindow rc s params).maxStart := by omega
  refine ⟨by simp, hhigh, ?_, fun earlier hlow hearlier => ?_⟩
  · rw [← startFits_eq rc hhigh]
    exact hfits
  · -- an earlier start of the window is an earlier turn of the scan
    obtain ⟨j, hj⟩ := Int.eq_ofNat_of_zero_le (sub_nonneg.mpr hlow)
    have hstart : earlier = (rangeAssignmentWindow rc s params).minStart + (j : ℤ) := by omega
    have hjk : j < k := by
      dsimp only at hearlier
      omega
    have hskipped := hbefore j hjk
    subst hstart
    rw [← startFits_eq rc (by omega)]
    simpa using hskipped

variable (rc) in
/-- The scan finds a start where there is one. -/
theorem exists_scanned {params : ProtocolParamsRow} {start : ℤ} (minerId taskId : String)
    (hcan : CanBeAssigned rc s params start) :
    ∃ c, (scannedStarts rc s minerId taskId params).find? (fun start => startFits s params
      (rangeAssignmentWindow rc s params).retargetMaxPiPosition start.1) = some c := by
  apply Option.isSome_iff_exists.mp
  rw [List.find?_isSome]
  have hlow := hcan.low
  have hhigh := hcan.high
  obtain ⟨k, hk⟩ := Int.eq_ofNat_of_zero_le (sub_nonneg.mpr hlow)
  have hstart : start = (rangeAssignmentWindow rc s params).minStart + (k : ℤ) := by omega
  refine ⟨_, List.mem_map.mpr ⟨k, List.mem_range.mpr (by omega), rfl⟩, ?_⟩
  dsimp only
  rw [← hstart, startFits_eq rc hhigh]
  exact hcan.free

theorem assignPseudoRandomRange_eq_ok {a : Assignment}
    (h : assignPseudoRandomRange rc s minerId taskId params = .ok a) :
    CanBeAssigned rc s params.2 a.rangeStart ∧
      a.rangeEnd = a.rangeStart + params.2.segmentSize - 1 := by
  unfold assignPseudoRandomRange at h
  dsimp only at h
  split at h
  · cases h
  next hopen =>
  split at h
  · cases h
  next start seed hfound =>
  cases h
  refine ⟨?_, rfl⟩
  rcases Option.or_eq_some_iff.mp hfound with hdrawn | ⟨-, hscanned⟩
  · -- a drawn start is the lowest one plus a remainder
    have hfits := List.find?_some hdrawn
    obtain ⟨nonce, hnonce, hstart⟩ := List.mem_map.mp (List.mem_of_find?_eq_some hdrawn)
    have hattempts := List.mem_range.mp hnonce
    have hcount : 0 < (rangeAssignmentWindow rc s params.2).maxStart -
        (rangeAssignmentWindow rc s params.2).minStart + 1 := by omega
    have hvalue := congrArg Prod.fst hstart
    dsimp only [drawnStart] at hvalue
    have hlow := Int.emod_nonneg (intOfHex (assignmentSeed rc s minerId taskId params.2
      ("nonce", .int nonce))) hcount.ne'
    have hhigh := Int.emod_lt_of_pos (intOfHex (assignmentSeed rc s minerId taskId params.2
      ("nonce", .int nonce))) hcount
    have hin : start ≤ (rangeAssignmentWindow rc s params.2).maxStart := by omega
    refine ⟨by dsimp only; omega, hin, ?_, .inl (by omega)⟩
    rw [← startFits_eq rc hin]
    exact hfits
  · obtain ⟨hlow, hhigh, hfree, hfirst⟩ := scannedStarts_find?_eq_some hscanned
    exact ⟨hlow, hhigh, hfree, .inr hfirst⟩

/-- A first draw that fits is assigned. -/
theorem assignPseudoRandomRange_of_draw {c : ℤ × String}
    (hopen : (rangeAssignmentWindow rc s params.2).minStart ≤
      (rangeAssignmentWindow rc s params.2).maxStart)
    (hattempts : 0 < params.2.rangeAssignmentMaxAttempts)
    (hdraw : drawnStart rc s minerId taskId params.2 0 = c)
    (hfits : startFits s params.2 (rangeAssignmentWindow rc s params.2).retargetMaxPiPosition
      c.1 = true) :
    assignPseudoRandomRange rc s minerId taskId params =
      .ok ⟨c.1, c.1 + params.2.segmentSize - 1, c.2, none, none⟩ := by
  obtain ⟨n, hn⟩ : ∃ n, params.2.rangeAssignmentMaxAttempts.toNat = n + 1 :=
    ⟨_, (Nat.succ_pred_eq_of_pos (by omega)).symm⟩
  unfold assignPseudoRandomRange
  simp only [if_neg (not_lt.mpr hopen), hn, List.range_succ_eq_map, List.map_cons, hdraw,
    List.find?_cons, hfits, Option.some_or]

end Own

/-! ## Digests -/

theorem intOfHex_append (text : List Char) (n : ℕ) (hn : n < 16) :
    intOfHex (String.ofList (text ++ [Json.hexDigit n])) =
      16 * intOfHex (String.ofList text) + n := by
  simp [intOfHex, Json.hexValue_hexDigit hn]

/-- Every number is that of some digest. -/
theorem exists_intOfHex (n : ℕ) : ∃ text : List Char, intOfHex (String.ofList text) = n := by
  induction n using Nat.strongRecOn with
  | ind n ih =>
    by_cases hsmall : n < 16
    · refine ⟨[Json.hexDigit n], ?_⟩
      have h := intOfHex_append [] n hsmall
      have hempty : intOfHex (String.ofList []) = 0 := rfl
      rw [hempty] at h
      simpa using h
    · obtain ⟨text, htext⟩ := ih (n / 16) (by omega)
      refine ⟨text ++ [Json.hexDigit (n % 16)], ?_⟩
      rw [intOfHex_append text (n % 16) (by omega), htext]
      omega

/-! ## The two ways out -/

section Legal

variable {params : ℤ × ProtocolParamsRow}

/-- The first open window holds a segment below the limit, or its start is accepted. -/
def RoomForRound (rc : RangeConfig) (s : MiningState σ) (params : ProtocolParamsRow) : Prop :=
  (rangeAssignmentWindow rc s params).minStart + params.segmentSize - 1 ≤
      resolveRetargetMaxPiPosition rc params ∨
    ¬ FreshStart s params.algorithm (rangeAssignmentWindow rc s params).minStart

/-- No start that can be assigned is that of a block. -/
def BlocksHaveTasks (rc : RangeConfig) (s : MiningState σ) (params : ProtocolParamsRow) : Prop :=
  ∀ start, CanBeAssigned rc s params start →
    ∀ block ∈ s.blocks, block.algorithm = params.algorithm → block.rangeStart ≠ start

variable (hsegment : 0 < params.2.segmentSize)
include hsegment

theorem competitive_legal (hroom : RoomForRound rc s params.2) {a : Assignment}
    (h : competitiveRoundAssignment rc s params = .ok a) : LegalRange rc s params.2 a := by
  obtain ⟨hlow, hhigh, hend, hfree⟩ := competitiveRoundAssignment_eq_ok h
  have hfresh := rangeStartIsAccepted_eq_false_iff.mp hfree
  have hpos := @minStart_pos σ rc s params.2 hsegment
  have hmax := maxStart_le rc s params.2
  refine ⟨hpos.trans hlow, hend, ?_, hfresh⟩
  by_cases hopen : (rangeAssignmentWindow rc s params.2).minStart ≤
      (rangeAssignmentWindow rc s params.2).maxStart
  · omega
  · -- an empty window has one candidate, which is accepted if it does not fit
    have hstart : a.rangeStart = (rangeAssignmentWindow rc s params.2).minStart := by omega
    rcases hroom with hfits | haccepted
    · exact absurd (minStart_le_maxStart_iff.mpr hfits) hopen
    · exact absurd (hstart ▸ hfresh) haccepted

omit hsegment in
theorem roomForRound_of_legal
    (h : ∀ a, competitiveRoundAssignment rc s params = .ok a → LegalRange rc s params.2 a) :
    RoomForRound rc s params.2 := by
  by_contra hnot
  obtain ⟨hlong, hfresh⟩ := not_or.mp hnot
  have hempty := mt minStart_le_maxStart_iff.mp hlong
  obtain ⟨a, ha, hstart⟩ := competitiveRoundAssignment_of_empty (not_le.mp hempty)
    (rangeStartIsAccepted_eq_false_iff.mpr (not_not.mp hfresh))
  have hlegal := h a ha
  have hend := hlegal.length
  have hbelow := hlegal.below
  omega

theorem own_legal (hblocks : BlocksHaveTasks rc s params.2) {minerId taskId : String}
    {a : Assignment} (h : assignPseudoRandomRange rc s minerId taskId params = .ok a) :
    LegalRange rc s params.2 a ∧ ClearOfActive s params.2.algorithm a := by
  obtain ⟨hcan, hend⟩ := assignPseudoRandomRange_eq_ok h
  have hfree := hcan.free
  rw [← hend] at hfree
  simp only [rangeIsAssignable, Bool.and_eq_true, Bool.not_eq_true'] at hfree
  have hpos := @minStart_pos σ rc s params.2 hsegment
  have hmax := maxStart_le rc s params.2
  have hhigh := hcan.high
  refine ⟨⟨hpos.trans hcan.low, hend, by omega, tasks_fresh_of_not_protected hfree.1,
    hblocks _ hcan⟩, clearOfActive_of_not_overlaps hfree.2⟩

omit hsegment in
/-- A start that can be assigned is assigned for some digest. -/
theorem exists_assignPseudoRandomRange {start : ℤ} (hcan : CanBeAssigned rc s params.2 start)
    (minerId taskId : String) :
    ∃ digest a, assignPseudoRandomRange (rc.withDigest digest) s minerId taskId params = .ok a ∧
      a.rangeStart = start := by
  obtain ⟨k, hk⟩ := Int.eq_ofNat_of_zero_le (sub_nonneg.mpr hcan.low)
  -- a digest that is always the number of the start
  obtain ⟨text, htext⟩ := exists_intOfHex k
  let digest : String → String := fun _ => String.ofList text
  have hlow := hcan.low
  have hhigh := hcan.high
  have hopen : ¬ (rangeAssignmentWindow rc s params.2).maxStart <
      (rangeAssignmentWindow rc s params.2).minStart := by omega
  have hwindow : rangeAssignmentWindow (rc.withDigest digest) s params.2 =
      rangeAssignmentWindow rc s params.2 := rfl
  have hfits : startFits s params.2 (rangeAssignmentWindow rc s params.2).retargetMaxPiPosition
      start = true := (startFits_eq rc hhigh).trans hcan.free
  refine ⟨digest, ?_⟩
  by_cases hattempts : 0 < params.2.rangeAssignmentMaxAttempts
  · -- the first draw is the start
    have hdraw : drawnStart (rc.withDigest digest) s minerId taskId params.2 0 =
        (start, String.ofList text) := by
      have hmod : (k : ℤ) % ((rangeAssignmentWindow rc s params.2).maxStart -
          (rangeAssignmentWindow rc s params.2).minStart + 1) = k :=
        Int.emod_eq_of_lt (by omega) (by omega)
      have hseed : assignmentSeed (rc.withDigest digest) s minerId taskId params.2
          ("nonce", .int (0 : ℕ)) = String.ofList text := rfl
      unfold drawnStart
      simp only [hwindow, hseed, htext, hmod]
      rw [← hk]
      simp
    exact ⟨_, assignPseudoRandomRange_of_draw (hlow.trans hhigh) hattempts hdraw hfits, rfl⟩
  · -- there are no draws, and the scan gives the first start that no task holds
    have hnone : params.2.rangeAssignmentMaxAttempts.toNat = 0 := by omega
    have hcan' : CanBeAssigned (rc.withDigest digest) s params.2 start :=
      ⟨hlow, hhigh, hcan.free, hcan.drawn⟩
    obtain ⟨c, hc⟩ := exists_scanned (rc.withDigest digest) minerId taskId hcan'
    obtain ⟨hclow, hchigh, hcfree, hcfirst⟩ := scannedStarts_find?_eq_some hc
    have hfirst := hcan.drawn.resolve_left hattempts
    have hsame : c.1 = start := by
      rcases lt_trichotomy c.1 start with hlt | heq | hgt
      · rw [hfirst c.1 hclow hlt] at hcfree
        cases hcfree
      · exact heq
      · have hfree := hcan.free
        rw [hcfirst start hlow hgt] at hfree
        cases hfree
    rw [hwindow] at hc
    refine ⟨⟨c.1, c.1 + params.2.segmentSize - 1, c.2, none, none⟩, ?_, hsame⟩
    unfold assignPseudoRandomRange
    simp only [hwindow, if_neg hopen, hnone, List.range_zero, List.map_nil, List.find?_nil,
      Option.none_or, hc]

/-- **Ranges** are legal for every digest exactly when the window of a round has room, and no start
that can be assigned is that of a block. -/
theorem ranges_legal_iff :
    (∀ digest,
      (∀ a, competitiveRoundAssignment (rc.withDigest digest) s params = .ok a →
        LegalRange rc s params.2 a) ∧
      ∀ minerId taskId a,
        assignPseudoRandomRange (rc.withDigest digest) s minerId taskId params = .ok a →
          LegalRange rc s params.2 a ∧ ClearOfActive s params.2.algorithm a) ↔
    RoomForRound rc s params.2 ∧ BlocksHaveTasks rc s params.2 := by
  constructor
  · intro h
    refine ⟨roomForRound_of_legal (h rc.sha256Text).1, fun start hcan => ?_⟩
    obtain ⟨digest, a, ha, hstart⟩ := exists_assignPseudoRandomRange hcan "" ""
    have hlegal := ((h digest).2 "" "" a ha).1
    rw [hstart.symm]
    exact hlegal.fresh.blocks
  · rintro ⟨hroom, hblocks⟩ digest
    have hroom' : RoomForRound (rc.withDigest digest) s params.2 := hroom
    have hblocks' : BlocksHaveTasks (rc.withDigest digest) s params.2 := fun start hcan =>
      hblocks start ⟨hcan.low, hcan.high, hcan.free, hcan.drawn⟩
    refine ⟨fun a ha => ?_, fun minerId taskId a ha => ?_⟩
    · have hlegal := competitive_legal hsegment hroom' ha
      exact ⟨hlegal.positive, hlegal.length, hlegal.below, hlegal.fresh⟩
    · obtain ⟨hlegal, hclear⟩ := own_legal hsegment hblocks' ha
      exact ⟨⟨hlegal.positive, hlegal.length, hlegal.below, hlegal.fresh⟩, hclear⟩

end Legal

/-! ## Where ranges are not legal -/

/-- The default settings of windows, with another limit and another age. -/
def localRanges (limit maxAge : ℤ) : RangeConfig :=
  { localMining with
    retargetMaxPiPosition := limit
    rangeStartWindowSize := 10000
    rangeWindowLookaheadMultiplier := 314
    rangeWindowMaxAgeBlocks := maxAge
    belowRetireOccupancy := fun used size => 5 * (used : ℤ) < 4 * size }

theorem ranges_legal_iff_local :
    (∀ digest,
      (∀ a, competitiveRoundAssignment ((localRanges 1000000 525600).withDigest digest)
          (localMiningState none) (1, localParamsRow) = .ok a →
        LegalRange (localRanges 1000000 525600) (localMiningState none) localParamsRow a) ∧
      ∀ minerId taskId a,
        assignPseudoRandomRange ((localRanges 1000000 525600).withDigest digest)
            (localMiningState none) minerId taskId (1, localParamsRow) = .ok a →
          LegalRange (localRanges 1000000 525600) (localMiningState none) localParamsRow a ∧
            ClearOfActive (localMiningState none) localParamsRow.algorithm a) ↔
    RoomForRound (localRanges 1000000 525600) (localMiningState none) localParamsRow ∧
      BlocksHaveTasks (localRanges 1000000 525600) (localMiningState none) localParamsRow :=
  @ranges_legal_iff Unit (localRanges 1000000 525600) (localMiningState none) (1, localParamsRow)
    (by decide)

/-- The block of the first segment. -/
def firstSegmentBlock : MinedBlockRow where
  height := 1
  previousHash := localConfig.genesisHash
  minerId := "miner-1"
  rangeStart := 1
  rangeEnd := 64
  algorithm := "bbp_hex_v1"
  resultHash := "result-1"
  merkleRoot := some "root-1"
  samples := .arr []
  timestamp := "2026-05-10T00:00:00+00:00"
  reward := 314160000
  txMerkleRoot := localTask.txMerkleRoot
  txCount := 0
  txHashes := []
  feeReward := 0
  minerRewardAddress := none
  difficulty := 100000000
  taskId := "task-1"
  protocolParamsId := 1
  protocolVersion := "0.18"
  validationMode := "external_commit_reveal"
  totalBlockMs := some 1200
  blockHash := "block-1"
  validationMs := some 12
  fraudulent := false
  fraudReason := none
  fraudDetectedAt := none

/-- A node with the block, whose task has this status. -/
def afterFirstSegment (status : TaskStatus) : MiningState Unit :=
  { localMiningState none with
    tasks := .upsert .empty "task-1" { localTask with status }
    blocks := [firstSegmentBlock] }

/-- The only window below the limit is retired, and the round gets a range above the limit. A block
came from the network after its task had expired here, and its start is assigned again. -/
theorem ranges_not_legal :
    (¬ ∀ a, competitiveRoundAssignment (localRanges 10000 1) (afterFirstSegment .accepted)
        (1, localParamsRow) = .ok a →
      LegalRange (localRanges 10000 1) (afterFirstSegment .accepted) localParamsRow a) ∧
    ¬ ∀ minerId taskId a,
      assignPseudoRandomRange ((localRanges 1000000 525600).withDigest fun _ => "00")
          (afterFirstSegment .expired) minerId taskId (1, localParamsRow) = .ok a →
        LegalRange (localRanges 1000000 525600) (afterFirstSegment .expired) localParamsRow a ∧
          ClearOfActive (afterFirstSegment .expired) localParamsRow.algorithm a := by
  constructor
  · intro h
    rcases roomForRound_of_legal h with hfits | haccepted
    · exact absurd hfits (by decide)
    · exact haccepted (rangeStartIsAccepted_eq_false_iff.mp (by decide))
  · intro h
    have hdraw : drawnStart ((localRanges 1000000 525600).withDigest fun _ => "00")
        (afterFirstSegment .expired) "miner-1" "task-2" localParamsRow 0 = (1, "00") := by
      decide +kernel
    have hassign := @assignPseudoRandomRange_of_draw Unit
      ((localRanges 1000000 525600).withDigest fun _ => "00") (afterFirstSegment .expired)
      (1, localParamsRow) "miner-1" "task-2" (1, "00") (by decide +kernel) (by decide) hdraw
      (by decide +kernel)
    have hfresh := (h _ _ _ hassign).1.fresh
    exact hfresh.blocks firstSegmentBlock (by simp [afterFirstSegment]) rfl rfl

end Picoin
