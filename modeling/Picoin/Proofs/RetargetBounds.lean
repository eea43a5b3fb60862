import Mathlib.Tactic.Positivity
import Picoin.Services.Difficulty

/-!
# Retargeting keeps its bounds

Two factors change the difficulty and the sample count, and the segment size follows the difficulty.
Whether the blocks are too slow or too fast decides on which side of one both factors are, and all that
comes after them, the rounding, the limits and the step of a segment, keeps this side.

The difficulty is rounded to six digits at the end. This can take it past the factor
(`retarget_past_factor`), by at most half of the last digit.

* **`retarget_eq`** — the parameters where the bucket has blocks and the guardrail is not reached;
* **`retarget_bounded`** — ranges, step, factor and direction.
-/

namespace Picoin.Retarget

open Rounding

/-! ## Numbers -/

theorem quantize_mono {a b : ℚ} (h : a ≤ b) : quantize a ≤ quantize b := by
  have hround : roundAway (a * 10 ^ 6) ≤ roundAway (b * 10 ^ 6) :=
    roundAway_mono (mul_le_mul_of_nonneg_right h (by norm_num))
  exact div_le_div_of_nonneg_right (by exact_mod_cast hround) (by norm_num)

section

variable {current target low high : ℤ}

theorem abs_limitSegmentStep_sub_le (current target : ℤ) :
    |limitSegmentStep current target - current| ≤ 2 := by
  unfold limitSegmentStep maxSegmentStep
  split_ifs <;> rw [abs_le] <;> omega

theorem limitSegmentStep_le (h : target ≤ current) : limitSegmentStep current target ≤ current := by
  unfold limitSegmentStep maxSegmentStep
  split_ifs <;> omega

theorem le_limitSegmentStep (h : current ≤ target) : current ≤ limitSegmentStep current target := by
  unfold limitSegmentStep maxSegmentStep
  split_ifs <;> omega

theorem clampInt_mem (h : low ≤ high) (value : ℤ) :
    low ≤ clampInt value low high ∧ clampInt value low high ≤ high := by
  unfold clampInt
  omega

theorem clampInt_le (hcurrent : low ≤ current) {value : ℤ} (h : value ≤ current) :
    clampInt value low high ≤ current := by
  unfold clampInt
  omega

theorem le_clampInt (hcurrent : current ≤ high) {value : ℤ} (h : current ≤ value) :
    current ≤ clampInt value low high := by
  unfold clampInt
  omega

/-- The limits are around the old value, so that they shorten a step. -/
theorem abs_clampInt_sub_le (hcurrent : low ≤ current ∧ current ≤ high) {value d : ℤ}
    (h : |value - current| ≤ d) : |clampInt value low high - current| ≤ d := by
  rw [abs_le] at h ⊢
  unfold clampInt
  omega

end

/-! ## Factors -/

/-- What is asked of the environment: an adjustment that does not turn the direction, and limits of the
difficulty with six digits. -/
structure RetargetEnv.WellFormed (env : RetargetEnv) : Prop where
  one_le_adjustment : 1 ≤ env.maxAdjustmentFactor
  minDifficulty_pos : 1 / 10 ^ 6 ≤ env.minDifficulty
  minDifficulty_six : quantize env.minDifficulty = env.minDifficulty
  maxDifficulty_six : quantize env.maxDifficulty = env.maxDifficulty

section

variable {env : RetargetEnv} {stats : WindowStats} {f : ℚ}

theorem clampAdjustment_mem (env : RetargetEnv) (value : ℚ) :
    85 / 100 ≤ clampAdjustment env value ∧ clampAdjustment env value ≤ 115 / 100 := by
  unfold clampAdjustment RetargetEnv.maxDifficultyAdjustment maxDecrease maxIncrease
  refine ⟨le_max_left _ _, max_le (by norm_num) ?_⟩
  exact (min_le_left _ _).trans (min_le_right _ _)

/-- Each factor is one or the clamped one. -/
theorem retargetFactors_cases (stats : WindowStats) (f : ℚ) :
    ((retargetFactors stats f).1 = 1 ∨ (retargetFactors stats f).1 = f) ∧
      ((retargetFactors stats f).2.1 = 1 ∨ (retargetFactors stats f).2.1 = f) := by
  unfold retargetFactors
  dsimp only
  constructor
  · split_ifs <;> simp
  · split_ifs <;> simp

theorem clampAdjustment_of_slow (hslow : deadbandHigh < stats.avgTotalBlockMs) :
    clampAdjustment env (targetBlockMs / max 1 stats.avgTotalBlockMs) ≤ 1 := by
  unfold deadbandHigh at hslow
  have hmax : stats.avgTotalBlockMs ≤ max 1 stats.avgTotalBlockMs := le_max_right _ _
  have hraw : targetBlockMs / max 1 stats.avgTotalBlockMs ≤ 1 := by
    unfold targetBlockMs
    rw [div_le_one (by linarith)]
    linarith
  unfold clampAdjustment maxDecrease
  exact max_le (by norm_num) ((min_le_right _ _).trans hraw)

theorem one_le_clampAdjustment_of_fast (henv : env.WellFormed)
    (hfast : stats.avgTotalBlockMs < deadbandLow) :
    1 ≤ clampAdjustment env (targetBlockMs / max 1 stats.avgTotalBlockMs) := by
  unfold deadbandLow at hfast
  have hmax : max 1 stats.avgTotalBlockMs ≤ 60000 := max_le (by norm_num) (by linarith)
  have hpos : (0 : ℚ) < max 1 stats.avgTotalBlockMs := lt_max_of_lt_left (by norm_num)
  have hraw : 1 ≤ targetBlockMs / max 1 stats.avgTotalBlockMs := by
    unfold targetBlockMs
    rw [one_le_div hpos]
    exact hmax
  unfold clampAdjustment RetargetEnv.maxDifficultyAdjustment maxIncrease
  exact le_max_of_le_right (le_min (le_min henv.one_le_adjustment (by norm_num)) hraw)

/-! ## The difficulty -/

variable {old : ℚ}

theorem clampDifficulty_mem (hold : env.minDifficulty ≤ old ∧ old ≤ env.maxDifficulty) (value : ℚ) :
    env.minDifficulty ≤ clampDifficulty env value ∧ clampDifficulty env value ≤ env.maxDifficulty := by
  unfold clampDifficulty
  exact ⟨le_max_left _ _, max_le (hold.1.trans hold.2) (min_le_left _ _)⟩

/-- The limits are around the old difficulty, so that they only lessen a change. -/
theorem clampDifficulty_le (hold : env.minDifficulty ≤ old ∧ old ≤ env.maxDifficulty) {value bound : ℚ}
    (hvalue : value ≤ bound) (hbound : old ≤ bound) : clampDifficulty env value ≤ bound :=
  max_le (hold.1.trans hbound) ((min_le_right _ _).trans hvalue)

theorem le_clampDifficulty (hold : env.minDifficulty ≤ old ∧ old ≤ env.maxDifficulty) {value bound : ℚ}
    (hvalue : bound ≤ value) (hbound : bound ≤ old) : bound ≤ clampDifficulty env value :=
  le_max_of_le_right (le_min (hbound.trans hold.2) hvalue)

end

/-! ## The parameters -/

theorem orElse_of_ne_zero {α : Type} [DecidableEq α] [Zero α] {x : α} (h : x ≠ 0) (default : α) :
    orElse (some x) default = x := if_neg h

section

variable (env : RetargetEnv) (logs : Logarithms) {history : List BlockTiming} {current : RetargetParams}
  {nextRangeStart : ℤ}

/-- The blocks that the averages are taken of. -/
def observedBlocks (history : List BlockTiming) (current : RetargetParams) (nextRangeStart : ℤ) :
    List BlockTiming :=
  bucketHistory env logs history (cappedNextRangeStart env current nextRangeStart)

/-- Where the bucket has blocks, the parameters are the next values for these. -/
theorem retarget_eq {old : ℚ} (hdifficulty : current.difficulty = some old)
    (hobserved : observedBlocks env logs history current nextRangeStart ≠ []) :
    ∃ params : RetargetParams, params.segmentSize = current.segmentSize ∧
      params.sampleCount = current.sampleCount ∧
      let values := nextValues env logs (observedBlocks env logs history current nextRangeStart) current
        params (cappedNextRangeStart env current nextRangeStart)
      let next := (calculateNextProtocolParams env logs history current nextRangeStart).1
      next.difficulty = some (quantize values.difficulty) ∧
        next.segmentSize = some values.segment ∧ next.sampleCount = some values.samples := by
  obtain ⟨refBlock, hlast⟩ : ∃ refBlock, (validHistory env history).getLast? = some refBlock := by
    cases hvalid : validHistory env history with
    | nil =>
      unfold observedBlocks bucketHistory at hobserved
      rw [hvalid] at hobserved
      exact absurd rfl hobserved
    | cons block rest => exact ⟨_, List.getLast?_cons⟩
  unfold calculateNextProtocolParams
  dsimp only
  rw [hlast]
  dsimp only
  rw [if_neg (show bucketHistory env logs history _ ≠ [] from hobserved)]
  refine ⟨_, rfl, rfl, ?_, rfl, rfl⟩
  show (if _ ∧ current.difficulty.isNone = true then none else some (quantize _)) = _
  rw [hdifficulty, if_neg fun h => nomatch h.2]
  rfl

end

/-! ## Bounds -/

/-- The ranges, the step of the segment, the factor of the difficulty up to its rounding, and the
direction. -/
structure RetargetBounds (env : RetargetEnv) (averageBlockMs old : ℚ) (segment samples : ℤ)
    (newDifficulty : ℚ) (newSegment newSamples : ℤ) : Prop where
  difficulty_mem : env.minDifficulty ≤ newDifficulty ∧ newDifficulty ≤ env.maxDifficulty
  segment_mem : minSegmentSize ≤ newSegment ∧ newSegment ≤ env.maxSegmentSize
  samples_mem : minSampleCount ≤ newSamples ∧ newSamples ≤ maxSampleCount
  segment_step : |newSegment - segment| ≤ 2
  factor : ∃ exact : ℚ, 85 / 100 * old ≤ exact ∧ exact ≤ 115 / 100 * old ∧
    newDifficulty = quantize exact
  slow : deadbandHigh < averageBlockMs →
    newDifficulty ≤ quantize old ∧ newSegment ≤ segment ∧ newSamples ≤ samples
  fast : averageBlockMs < deadbandLow →
    quantize old ≤ newDifficulty ∧ segment ≤ newSegment ∧ samples ≤ newSamples

/-- A share of a size on the side of one that its factor is on. -/
theorem roundAway_mul_le {n : ℤ} (hn : 0 ≤ n) {x : ℚ} (hx : x ≤ 1) : roundAway (n * x) ≤ n := by
  have hle : (n : ℚ) * x ≤ n := mul_le_of_le_one_right (by exact_mod_cast hn) hx
  exact (roundAway_mono hle).trans (roundAway_intCast n).le

theorem le_roundAway_mul {n : ℤ} (hn : 0 ≤ n) {x : ℚ} (hx : 1 ≤ x) : n ≤ roundAway (n * x) := by
  have hle : (n : ℚ) ≤ n * x := le_mul_of_one_le_right (by exact_mod_cast hn) hx
  exact (roundAway_intCast n).ge.trans (roundAway_mono hle)

section

variable {env : RetargetEnv} {current params : RetargetParams} {capped : ℤ} {old : ℚ}
  {segment samples : ℤ}

/-- The factor of a window. -/
def windowFactor (env : RetargetEnv) (window : List BlockTiming) : ℚ :=
  clampAdjustment env (targetBlockMs / max 1 (windowStats window).avgTotalBlockMs)

/-- The next values where no default is taken and the guardrail is not reached. -/
theorem nextValues_eq (logs : Logarithms) (window : List BlockTiming)
    (hdifficulty : current.difficulty = some old) (hold : 1 / 1000000 ≤ old)
    (hsegment : current.segmentSize = some segment) (hsegment0 : segment ≠ 0)
    (hsamples : current.sampleCount = some samples) (hsamples0 : samples ≠ 0)
    (hparamsSegment : params.segmentSize = current.segmentSize)
    (hparamsSamples : params.sampleCount = current.sampleCount) (hcapped : capped ≤ piGuardrailStart) :
    let factors := retargetFactors (windowStats window) (windowFactor env window)
    let values := nextValues env logs window current params capped
    values.difficulty = clampDifficulty env (old * factors.1) ∧
      values.segment =
        clampInt (limitSegmentStep segment
          (roundAway (segment * (clampDifficulty env (old * factors.1) / old))))
          minSegmentSize env.maxSegmentSize ∧
      values.samples = clampInt (roundAway (samples * factors.2.1)) minSampleCount maxSampleCount := by
  have hcurrent : currentDifficulty logs current = old := by
    unfold currentDifficulty
    rw [hdifficulty]
  have hcurrentSegment : orElse current.segmentSize 64 = segment := by
    rw [hsegment]
    exact orElse_of_ne_zero hsegment0 64
  have hcurrentSamples : orElse params.sampleCount (orElse current.sampleCount 8) = samples := by
    rw [hparamsSamples, hsamples]
    exact orElse_of_ne_zero hsamples0 _
  -- within the guardrail a proposal is taken as it is
  have hguardrail : ∀ proposed,
      bbpPositionGuardrail env logs window segment proposed capped = (false, proposed) :=
    fun _ => if_pos hcapped
  refine ⟨?_, ?_, ?_⟩
  · unfold nextValues
    dsimp only
    rw [hcurrent]
    rfl
  · unfold nextValues
    dsimp only
    rw [if_pos hparamsSegment, hcurrent, hcurrentSegment, hguardrail, max_eq_left hold]
    rfl
  · unfold nextValues
    dsimp only
    rw [hcurrentSamples]
    rfl

/-- The next values of parameters in their ranges. -/
theorem nextValues_bounded (henv : env.WellFormed) (logs : Logarithms) (window : List BlockTiming)
    (hdifficulty : current.difficulty = some old)
    (hold : env.minDifficulty ≤ old ∧ old ≤ env.maxDifficulty)
    (hsegment : current.segmentSize = some segment)
    (hsegmentMem : minSegmentSize ≤ segment ∧ segment ≤ env.maxSegmentSize)
    (hsamples : current.sampleCount = some samples)
    (hsamplesMem : minSampleCount ≤ samples ∧ samples ≤ maxSampleCount)
    (hparamsSegment : params.segmentSize = current.segmentSize)
    (hparamsSamples : params.sampleCount = current.sampleCount) (hcapped : capped ≤ piGuardrailStart) :
    RetargetBounds env (windowStats window).avgTotalBlockMs old segment samples
      (quantize (nextValues env logs window current params capped).difficulty)
      (nextValues env logs window current params capped).segment
      (nextValues env logs window current params capped).samples := by
  have hsix : 1 / 1000000 ≤ old := by
    have hmin := henv.minDifficulty_pos
    norm_num at hmin ⊢
    exact hmin.trans hold.1
  have hpos : 0 < old := lt_of_lt_of_le (by norm_num) hsix
  have hsegment0 : 0 < segment := lt_of_lt_of_le (by decide) hsegmentMem.1
  have hsamples0 : 0 < samples := lt_of_lt_of_le (by decide) hsamplesMem.1
  obtain ⟨hd, hg, hn⟩ := nextValues_eq logs window hdifficulty hsix hsegment hsegment0.ne' hsamples
    hsamples0.ne' hparamsSegment hparamsSamples hcapped
  rw [hd, hg, hn]
  -- each factor is one or the factor of the window
  obtain ⟨hlow, hhigh⟩ := clampAdjustment_mem env
    (targetBlockMs / max 1 (windowStats window).avgTotalBlockMs)
  obtain ⟨hdf, hsf⟩ := retargetFactors_cases (windowStats window) (windowFactor env window)
  generalize (retargetFactors (windowStats window) (windowFactor env window)).1 = df at hdf
  generalize (retargetFactors (windowStats window) (windowFactor env window)).2.1 = sf at hsf
  have hdfMem : 85 / 100 ≤ df ∧ df ≤ 115 / 100 := by
    rcases hdf with rfl | rfl
    · norm_num
    · exact ⟨hlow, hhigh⟩
  obtain ⟨hdLow, hdHigh⟩ := clampDifficulty_mem hold (old * df)
  refine ⟨⟨?_, ?_⟩, clampInt_mem (hsegmentMem.1.trans hsegmentMem.2) _,
    clampInt_mem (hsamplesMem.1.trans hsamplesMem.2) _,
    abs_clampInt_sub_le hsegmentMem (abs_limitSegmentStep_sub_le _ _), ⟨_, ?_, ?_, rfl⟩,
    fun hslow => ?_, fun hfast => ?_⟩
  · exact henv.minDifficulty_six.ge.trans (quantize_mono hdLow)
  · exact (quantize_mono hdHigh).trans henv.maxDifficulty_six.le
  · exact le_clampDifficulty hold (by nlinarith [hdfMem.1]) (by linarith)
  · exact clampDifficulty_le hold (by nlinarith [hdfMem.2]) (by linarith)
  -- slow blocks: both factors are at most one, and the segment follows the difficulty
  · have hf1 : windowFactor env window ≤ 1 := clampAdjustment_of_slow hslow
    have hdf1 : df ≤ 1 := by rcases hdf with rfl | rfl; exacts [le_rfl, hf1]
    have hsf1 : sf ≤ 1 := by rcases hsf with rfl | rfl; exacts [le_rfl, hf1]
    have hless : clampDifficulty env (old * df) ≤ old :=
      clampDifficulty_le hold (mul_le_of_le_one_right hpos.le hdf1) le_rfl
    refine ⟨quantize_mono hless, clampInt_le hsegmentMem.1 (limitSegmentStep_le ?_),
      clampInt_le hsamplesMem.1 (roundAway_mul_le hsamples0.le hsf1)⟩
    exact roundAway_mul_le hsegment0.le ((div_le_one hpos).mpr hless)
  -- fast blocks: the same on the other side of one
  · have hf1 : 1 ≤ windowFactor env window := one_le_clampAdjustment_of_fast henv hfast
    have hdf1 : 1 ≤ df := by rcases hdf with rfl | rfl; exacts [le_rfl, hf1]
    have hsf1 : 1 ≤ sf := by rcases hsf with rfl | rfl; exacts [le_rfl, hf1]
    have hmore : old ≤ clampDifficulty env (old * df) :=
      le_clampDifficulty hold (le_mul_of_one_le_right hpos.le hdf1) le_rfl
    refine ⟨quantize_mono hmore, le_clampInt hsegmentMem.2 (le_limitSegmentStep ?_),
      le_clampInt hsamplesMem.2 (le_roundAway_mul hsamples0.le hsf1)⟩
    exact le_roundAway_mul hsegment0.le ((one_le_div hpos).mpr hmore)

end

/-- **Retarget bounds**: parameters in their ranges, with blocks in the bucket of a next position that the
guardrail does not concern, have next parameters in their ranges. The segment moves by two at most, the
difficulty by a factor between 0.85 and 1.15 before it is rounded to six digits; slow blocks raise none
of the three and fast blocks lower none. -/
theorem retarget_bounded (env : RetargetEnv) (henv : env.WellFormed) (logs : Logarithms)
    (history : List BlockTiming) (current : RetargetParams) (nextRangeStart : ℤ) (old : ℚ)
    (segment samples : ℤ) (hdifficulty : current.difficulty = some old)
    (hold : env.minDifficulty ≤ old ∧ old ≤ env.maxDifficulty)
    (hsegment : current.segmentSize = some segment)
    (hsegmentMem : minSegmentSize ≤ segment ∧ segment ≤ env.maxSegmentSize)
    (hsamples : current.sampleCount = some samples)
    (hsamplesMem : minSampleCount ≤ samples ∧ samples ≤ maxSampleCount)
    (hobserved : observedBlocks env logs history current nextRangeStart ≠ [])
    (hposition : cappedNextRangeStart env current nextRangeStart ≤ piGuardrailStart) :
    ∃ newDifficulty newSegment newSamples,
      (calculateNextProtocolParams env logs history current nextRangeStart).1.difficulty =
        some newDifficulty ∧
      (calculateNextProtocolParams env logs history current nextRangeStart).1.segmentSize =
        some newSegment ∧
      (calculateNextProtocolParams env logs history current nextRangeStart).1.sampleCount =
        some newSamples ∧
      RetargetBounds env
        (windowStats (observedBlocks env logs history current nextRangeStart)).avgTotalBlockMs old
        segment samples newDifficulty newSegment newSamples := by
  obtain ⟨params, hparamsSegment, hparamsSamples, hd, hg, hn⟩ :=
    retarget_eq env logs hdifficulty hobserved
  exact ⟨_, _, _, hd, hg, hn, nextValues_bounded henv logs _ hdifficulty hold hsegment hsegmentMem hsamples
    hsamplesMem hparamsSegment hparamsSamples hposition⟩

/-! ## A factor that is rounded up -/

/-- The default settings; the logarithm of a number below 100 is not asked for. -/
def localRetarget : RetargetEnv where
  maxAdjustmentFactor := 115 / 100
  windowBlocks := 20
  minDifficulty := 3125 / 100000
  maxDifficulty := 1024
  maxSegmentSize := 256
  maxPiPosition := 1000000

def localLogs : Logarithms := ⟨fun _ => 2, fun _ => 2, fun _ => 1⟩

/-- A block of half the target time. -/
def fastBlock : BlockTiming where
  rangeStart := 1
  rangeEnd := 64
  segmentSize := some 64
  sampleCount := some 8
  difficulty := some 1
  totalTaskMs := some 20000
  validationMs := some 10000
  totalBlockMs := some 30000

/-- Parameters with a difficulty of six digits. -/
def localParams : RetargetParams where
  retargetMaxPiPosition := some 10000
  taskExpirationSeconds := some 600
  difficulty := some (1000004 / 1000000)
  segmentSize := some 64
  sampleCount := some 8
  maxPiPosition := some 10000

theorem localRetarget_wellFormed : localRetarget.WellFormed where
  one_le_adjustment := by norm_num [localRetarget]
  minDifficulty_pos := by norm_num [localRetarget]
  minDifficulty_six := by decide +kernel
  maxDifficulty_six := by decide +kernel

theorem retarget_bounded_local : ∃ newDifficulty newSegment newSamples,
    (calculateNextProtocolParams localRetarget localLogs [fastBlock] localParams 65).1.difficulty =
      some newDifficulty ∧
    (calculateNextProtocolParams localRetarget localLogs [fastBlock] localParams 65).1.segmentSize =
      some newSegment ∧
    (calculateNextProtocolParams localRetarget localLogs [fastBlock] localParams 65).1.sampleCount =
      some newSamples ∧
    RetargetBounds localRetarget
      (windowStats (observedBlocks localRetarget localLogs [fastBlock] localParams 65)).avgTotalBlockMs
      (1000004 / 1000000) 64 8 newDifficulty newSegment newSamples :=
  retarget_bounded localRetarget localRetarget_wellFormed localLogs [fastBlock] localParams 65
    (1000004 / 1000000) 64 8 rfl (by decide +kernel) rfl (by decide) rfl (by decide)
    (by decide +kernel) (by decide +kernel)

/-- The difficulty 1.000004 grows to 1.150005, past 1.15 times itself. -/
theorem retarget_past_factor :
    observedBlocks localRetarget localLogs [fastBlock] localParams 65 ≠ [] ∧
      ∃ newDifficulty,
        (calculateNextProtocolParams localRetarget localLogs [fastBlock] localParams 65).1.difficulty =
          some newDifficulty ∧
        115 / 100 * (1000004 / 1000000) < newDifficulty := by
  have hnext : (calculateNextProtocolParams localRetarget localLogs [fastBlock] localParams 65).1.difficulty =
      some (1150005 / 1000000) := by decide +kernel
  exact ⟨by decide +kernel, _, hnext, by norm_num⟩

end Picoin.Retarget
