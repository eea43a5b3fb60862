import Mathlib.Data.List.Sort
import Picoin.Lib.Rounding

/-!
# Retargeting

After a window of blocks the network sets the difficulty, the segment size and the sample count of the
next tasks by the average times of the blocks in the position bucket it goes on in. All numbers are exact;
logarithms are a parameter.

* **`windowStats`** — the averages of a window;
* **`handleColdStart`**, **`bbpPositionGuardrail`** — the segment size without blocks in the bucket, and
  at deep positions;
* **`calculateNextProtocolParams`** — the next parameters.
-/

namespace Picoin.Retarget

open Rounding

/-! ## Settings -/

/-- What `math.log10` and `math.log` give. -/
structure Logarithms where
  floorLog10 : ℤ → ℕ
  log10 : ℤ → ℚ
  ln : ℤ → ℚ

/-- What the environment sets. -/
structure RetargetEnv where
  maxAdjustmentFactor : ℚ
  windowBlocks : ℕ
  minDifficulty : ℚ
  maxDifficulty : ℚ
  maxSegmentSize : ℤ
  maxPiPosition : ℤ

def targetBlockMs : ℚ := 60000
def targetMinerMs : ℚ := targetBlockMs * (65 / 100)
def deadbandLow : ℚ := 45000
def deadbandHigh : ℚ := 75000
def minSegmentSize : ℤ := 8
def maxSampleCount : ℤ := 64
def minSampleCount : ℤ := 8
def maxDecrease : ℚ := 85 / 100
def maxIncrease : ℚ := 115 / 100
def maxSegmentStep : ℤ := 2
def piPivotPos : ℤ := 10000
def piGuardrailStart : ℤ := 1000000
def emergencyThreshold : ℚ := 3

/-- `MAX_DIFFICULTY_ADJUSTMENT`. -/
def RetargetEnv.maxDifficultyAdjustment (env : RetargetEnv) : ℚ := min env.maxAdjustmentFactor maxIncrease

/-- The parameters that are read and set. The key of the time is absent without one. -/
structure RetargetParams where
  retargetMaxPiPosition : Option ℤ
  taskExpirationSeconds : Option ℤ
  difficulty : Option ℚ
  segmentSize : Option ℤ
  sampleCount : Option ℤ
  maxPiPosition : Option ℤ
deriving DecidableEq

/-- A block of the history. -/
structure BlockTiming where
  rangeStart : ℤ
  rangeEnd : ℤ
  segmentSize : Option ℤ
  sampleCount : Option ℤ
  difficulty : Option ℚ
  totalTaskMs : Option ℚ
  validationMs : Option ℚ
  totalBlockMs : Option ℚ

/-- `value or default`. -/
def orElse {α : Type} [DecidableEq α] [Zero α] (value : Option α) (default : α) : α :=
  match value with
  | none => default
  | some x => if x = 0 then default else x

/-! ## Numbers -/

/-- `quantize(Decimal("0.000001"))`. -/
def quantize (value : ℚ) : ℚ := roundAway (value * 10 ^ 6) / 10 ^ 6

/-- `_clamp_adjustment`. -/
def clampAdjustment (env : RetargetEnv) (value : ℚ) : ℚ :=
  max maxDecrease (min env.maxDifficultyAdjustment value)

/-- `_clamp_difficulty`. -/
def clampDifficulty (env : RetargetEnv) (value : ℚ) : ℚ :=
  max env.minDifficulty (min env.maxDifficulty value)

/-- `_clamp_int`. -/
def clampInt (value minimum maximum : ℤ) : ℤ := max minimum (min maximum value)

/-- `_limit_segment_step`. -/
def limitSegmentStep (current target : ℤ) : ℤ :=
  if current < target then min target (current + maxSegmentStep)
  else if target < current then max target (current - maxSegmentStep)
  else current

/-- `_avg`. -/
def avg (values : List ℚ) : ℚ := if values = [] then 0 else values.sum / values.length

/-! ## Buckets and windows -/

/-- `get_position_bucket`. -/
def getPositionBucket (logs : Logarithms) (pos : ℤ) : ℤ × ℤ :=
  if pos < 100 then (0, 100)
  else
    let base : ℤ := 10 ^ logs.floorLog10 pos
    if 2 * pos < 5 * base then (base, 5 * base / 2)
    else if pos < 5 * base then (5 * base / 2, 5 * base)
    else (5 * base, 10 * base)

/-- `block.get("total_task_ms") or block.get("total_block_ms") or 0`. -/
def BlockTiming.taskMs (block : BlockTiming) : ℚ :=
  orElse block.totalTaskMs (orElse block.totalBlockMs 0)

/-- The segment size of a block, or the length of its range. -/
def BlockTiming.segment (block : BlockTiming) : ℤ :=
  orElse block.segmentSize (block.rangeEnd - block.rangeStart + 1)

structure WindowStats where
  avgTotalBlockMs : ℚ
  avgTaskMs : ℚ
  avgValidationMs : ℚ
  avgSegmentSize : ℚ
  avgSampleCount : ℚ
  avgDifficulty : ℚ
  miningRatio : ℚ
  validationRatio : ℚ

/-- `_window_stats`. -/
def windowStats (history : List BlockTiming) : WindowStats :=
  let avgTotal := avg (history.map fun block => orElse block.totalBlockMs 0)
  let avgTask := avg (history.map BlockTiming.taskMs)
  let avgValidation := avg (history.map fun block => orElse block.validationMs 0)
  { avgTotalBlockMs := avgTotal
    avgTaskMs := avgTask
    avgValidationMs := avgValidation
    avgSegmentSize := avg (history.map fun block => (block.segment : ℚ))
    avgSampleCount := avg (history.map fun block => ((orElse block.sampleCount 8 : ℤ) : ℚ))
    avgDifficulty := avg (history.map fun block => orElse block.difficulty 0)
    miningRatio := avgTask / max 1 avgTotal
    validationRatio := avgValidation / max 1 avgTotal }

/-! ## Special cases -/

/-- `_current_difficulty`. -/
def currentDifficulty (logs : Logarithms) (params : RetargetParams) : ℚ :=
  match params.difficulty with
  | some configured => configured
  | none =>
    let segment : ℚ := (orElse params.segmentSize 64 : ℤ) / 64
    let samples : ℚ := (orElse params.sampleCount 8 : ℤ) / 8
    let maxPos := max 100 (orElse params.maxPiPosition 10000)
    let position : ℚ :=
      if 1000000 < maxPos then (6 / 4) * ((maxPos : ℚ) / 1000000) else logs.log10 maxPos / 4
    quantize (segment * samples * position)

/-- `_handle_cold_start` with a history that is not empty: the parameters, and the reason. -/
def handleColdStart (logs : Logarithms) (refBlock : BlockTiming) (params : RetargetParams)
    (nextPos : ℤ) : RetargetParams × String :=
  let complexityFactor := logs.log10 (max 100 nextPos) / logs.log10 (max 100 refBlock.rangeStart)
  if 105 / 100 < complexityFactor then
    let scaled := ((params.segmentSize.getD 0 : ℤ) : ℚ) / complexityFactor
    let truncated := if 0 ≤ scaled then ⌊scaled⌋ else -⌊-scaled⌋
    ({ params with segmentSize := some (max minSegmentSize truncated) }, "BBP Complexity scaling")
  else (params, "Bucket cold start (no scaling needed)")

/-- `_calculate_bbp_cost_factor`. -/
def calculateBbpCostFactor (logs : Logarithms) (position : ℤ) : ℚ :=
  let safePosition := max 10 (orElse (some position) 10)
  let pivot := max 10 piPivotPos
  (safePosition * logs.ln safePosition) / (pivot * logs.ln pivot)

/-- `statistics.median`. -/
def median (values : List ℚ) : ℚ :=
  let sorted := values.insertionSort (· ≤ ·)
  let n := sorted.length
  if n % 2 = 1 then sorted.getD (n / 2) 0
  else (sorted.getD (n / 2 - 1) 0 + sorted.getD (n / 2) 0) / 2

/-- `history[-RETARGET_WINDOW:]`; a window of zero is the whole history. -/
def lastBlocks (env : RetargetEnv) (history : List BlockTiming) : List BlockTiming :=
  if env.windowBlocks = 0 then history else history.drop (history.length - env.windowBlocks)

/-- What a block costs for a digit at the pivot. -/
def blockCost (logs : Logarithms) (block : BlockTiming) : Option ℚ :=
  let segment := orElse (some block.segment) 1
  if block.taskMs ≤ 0 ∨ segment ≤ 0 then none
  else some (block.taskMs / max 1 (segment : ℚ) /
    max (1 / 1000000) (calculateBbpCostFactor logs block.rangeStart))

/-- `_bbp_position_guardrail`: whether it is active, and the segment size. -/
def bbpPositionGuardrail (env : RetargetEnv) (logs : Logarithms) (history : List BlockTiming)
    (currentSegment proposedSegment nextRangeStart : ℤ) : Bool × ℤ :=
  if nextRangeStart ≤ piGuardrailStart then (false, proposedSegment)
  else
    match (lastBlocks env history).filterMap (blockCost logs) with
    -- no block to tell the cost by
    | [] => (false, proposedSegment)
    | cost :: costs =>
      let costPerSegmentUnit := median (cost :: costs)
      let nextFactor := calculateBbpCostFactor logs nextRangeStart
      let predictedMs := costPerSegmentUnit * max 1 (proposedSegment : ℚ) * nextFactor
      if predictedMs ≤ deadbandHigh then (false, proposedSegment)
      else
        let desiredSegment := max minSegmentSize (min env.maxSegmentSize
          (roundEven (targetMinerMs / max (1 / 1000000) (costPerSegmentUnit * nextFactor))))
        -- at least one less than before, down to the smallest size
        let guardedSegment := max minSegmentSize
          (min (min proposedSegment desiredSegment) (currentSegment - 1))
        if guardedSegment < proposedSegment then (true, guardedSegment) else (false, proposedSegment)

/-- `get_dynamic_expiration`. -/
def getDynamicExpiration (logs : Logarithms) (maxPiPosition : ℤ) : ℤ :=
  if maxPiPosition ≤ 1000000 then 600 else ⌊600 * (logs.log10 maxPiPosition / 6)⌋

/-! ## The next parameters -/

/-- What the details of a retarget say of it. -/
structure RetargetMeta where
  action : String
  reason : List String
  bucket : ℤ × ℤ
  rawAdjustmentFactor : ℚ
  adjustmentFactor : ℚ
  difficultyFactor : ℚ
  sampleFactor : ℚ
  withinHysteresis : Bool
  bbpGuardrailActive : Bool
  oldTaskExpirationSeconds : ℤ
  newTaskExpirationSeconds : ℤ
  taskExpirationChanged : Bool

/-- The position that the next task starts at, within the limit of the parameters. -/
def cappedNextRangeStart (env : RetargetEnv) (params : RetargetParams) (nextRangeStart : ℤ) : ℤ :=
  min (max 1 (orElse (some nextRangeStart) 1)) (max 1 (orElse params.retargetMaxPiPosition env.maxPiPosition))

/-- The blocks of the window that have a time. -/
def validHistory (env : RetargetEnv) (history : List BlockTiming) : List BlockTiming :=
  (lastBlocks env history).filter fun block => 0 < orElse block.totalBlockMs 0

/-- The blocks of the window in the bucket of a position. -/
def bucketHistory (env : RetargetEnv) (logs : Logarithms) (history : List BlockTiming)
    (position : ℤ) : List BlockTiming :=
  (validHistory env history).filter fun block =>
    getPositionBucket logs block.rangeStart = getPositionBucket logs position

/-- The factors that the difficulty and the sample count are changed by, with the reasons. -/
def retargetFactors (stats : WindowStats) (totalFactor : ℚ) : ℚ × ℚ × List String :=
  let withinDeadband := deadbandLow ≤ stats.avgTotalBlockMs ∧ stats.avgTotalBlockMs ≤ deadbandHigh
  let tooSlow := targetBlockMs < stats.avgTotalBlockMs
  let tooFast := stats.avgTotalBlockMs < targetBlockMs
  let miningDominates := 60 / 100 < stats.miningRatio
  let validationDominates := 40 / 100 < stats.validationRatio
  let validationCheap := stats.validationRatio < 20 / 100
  let difficulty : ℚ × List String :=
    if withinDeadband then (1, ["Within hysteresis band"])
    else if tooSlow ∧ miningDominates then (totalFactor, ["mining bottleneck"])
    else if tooSlow ∧ ¬ validationDominates then (totalFactor, ["total block time high"])
    else if tooFast then (totalFactor, ["blocks below target"])
    -- slow, and because of the validation
    else (1, [])
  let sample : ℚ × List String :=
    if withinDeadband then (1, [])
    else if tooSlow ∧ validationDominates then (totalFactor, ["validation bottleneck"])
    else if tooFast ∧ validationCheap then (totalFactor, ["validation cheap"])
    else (1, [])
  (difficulty.1, sample.1, difficulty.2 ++ sample.2)

/-- The new difficulty, before it is rounded, the new segment size and the new sample count. -/
structure NextValues where
  difficulty : ℚ
  segment : ℤ
  samples : ℤ
  guardrailActive : Bool

/-- The values that follow from the blocks of a window; `params` are the parameters after a cold start. -/
def nextValues (env : RetargetEnv) (logs : Logarithms) (window : List BlockTiming)
    (current params : RetargetParams) (capped : ℤ) : NextValues :=
  let stats := windowStats window
  let totalFactor := clampAdjustment env (targetBlockMs / max 1 stats.avgTotalBlockMs)
  let factors := retargetFactors stats totalFactor
  let oldDifficulty := currentDifficulty logs current
  let currentSegment := orElse current.segmentSize 64
  let currentSamples := orElse params.sampleCount (orElse current.sampleCount 8)
  let newDifficulty := clampDifficulty env (oldDifficulty * factors.1)
  let targetSegment := roundAway (currentSegment * (newDifficulty / max oldDifficulty (1 / 1000000)))
  -- a cold start may have lowered the segment
  let targetSegment :=
    if params.segmentSize = current.segmentSize then targetSegment
    else min targetSegment (params.segmentSize.getD 0)
  let guardrail := bbpPositionGuardrail env logs window currentSegment targetSegment capped
  { difficulty := newDifficulty
    segment := clampInt (limitSegmentStep currentSegment guardrail.2) minSegmentSize env.maxSegmentSize
    samples := clampInt (roundAway (currentSamples * factors.2.1)) minSampleCount maxSampleCount
    guardrailActive := guardrail.1 }

/-- The word for the change. -/
def retargetAction (increased decreased : Bool) : String :=
  if decreased then (if increased then "mixed" else "decrease")
  else if increased then "increase" else "keep"

/-- The word for the change, the change of the time included. -/
def retargetActionWithExpiration (action : String) (currentExpiration nextExpiration : ℤ) : String :=
  if nextExpiration = currentExpiration then action
  else
    let expirationAction := if currentExpiration < nextExpiration then "increase" else "decrease"
    if action = "keep" then expirationAction
    else if action = expirationAction then action else "mixed"

/-- The parameters and the details from a window. -/
def retargetFrom (env : RetargetEnv) (logs : Logarithms) (window : List BlockTiming)
    (current params : RetargetParams) (coldReason : List String) (capped currentExpiration : ℤ) :
    RetargetParams × RetargetMeta :=
  let stats := windowStats window
  let rawFactor := targetBlockMs / max 1 stats.avgTotalBlockMs
  let totalFactor := clampAdjustment env rawFactor
  let factors := retargetFactors stats totalFactor
  let nextExpiration := getDynamicExpiration logs capped
  let oldDifficulty := currentDifficulty logs current
  let currentSegment := orElse current.segmentSize 64
  let currentSamples := orElse params.sampleCount (orElse current.sampleCount 8)
  let next := nextValues env logs window current params capped
  let returned := quantize next.difficulty
  let action := retargetActionWithExpiration
    (retargetAction
      (oldDifficulty < returned || currentSegment < next.segment || currentSamples < next.samples)
      (returned < oldDifficulty || next.segment < currentSegment || next.samples < currentSamples))
    currentExpiration nextExpiration
  let reason := factors.2.2 ++ coldReason ++
    (if targetBlockMs * emergencyThreshold < stats.avgTaskMs then ["Emergency"] else []) ++
    (if next.guardrailActive then ["BBP position guardrail"] else []) ++
    (if nextExpiration = currentExpiration then [] else ["dynamic task expiration"]) ++
    (if action = "keep" then ["Within deadband / target envelope"] else [])
  ({ params with
      difficulty := if action = "keep" ∧ current.difficulty.isNone then none else some returned
      segmentSize := some next.segment
      sampleCount := some next.samples },
    { action
      reason
      bucket := getPositionBucket logs capped
      rawAdjustmentFactor := rawFactor
      adjustmentFactor := totalFactor
      difficultyFactor := factors.1
      sampleFactor := factors.2.1
      withinHysteresis := deadbandLow ≤ stats.avgTotalBlockMs ∧ stats.avgTotalBlockMs ≤ deadbandHigh
      bbpGuardrailActive := next.guardrailActive
      oldTaskExpirationSeconds := currentExpiration
      newTaskExpirationSeconds := nextExpiration
      taskExpirationChanged := nextExpiration ≠ currentExpiration })

/-- `calculate_next_protocol_params`. -/
def calculateNextProtocolParams (env : RetargetEnv) (logs : Logarithms) (history : List BlockTiming)
    (current : RetargetParams) (nextRangeStart : ℤ) : RetargetParams × RetargetMeta :=
  let maxPosition := max 1 (orElse current.retargetMaxPiPosition env.maxPiPosition)
  let capped := cappedNextRangeStart env current nextRangeStart
  let nextExpiration := getDynamicExpiration logs capped
  let currentExpiration := orElse current.taskExpirationSeconds nextExpiration
  let setExpiration : Bool :=
    current.taskExpirationSeconds.isSome || nextExpiration ≠ getDynamicExpiration logs 1
  let params := { current with
    retargetMaxPiPosition := some maxPosition
    taskExpirationSeconds :=
      if setExpiration then some nextExpiration else current.taskExpirationSeconds }
  match (validHistory env history).getLast? with
  -- without a timed block nothing is retargeted
  | none =>
    (params,
      { action := "wait"
        reason := ["No valid timing history available"]
        bucket := getPositionBucket logs capped
        rawAdjustmentFactor := 1
        adjustmentFactor := 1
        difficultyFactor := 1
        sampleFactor := 1
        withinHysteresis := false
        bbpGuardrailActive := false
        oldTaskExpirationSeconds := currentExpiration
        newTaskExpirationSeconds := nextExpiration
        taskExpirationChanged := nextExpiration ≠ currentExpiration })
  | some refBlock =>
    -- no block in the bucket: the segment is scaled from the last block outside it
    if bucketHistory env logs history capped = [] then
      let cold := handleColdStart logs refBlock params capped
      retargetFrom env logs (validHistory env history) current cold.1 [cold.2] capped currentExpiration
    else
      retargetFrom env logs (bucketHistory env logs history capped) current params [] capped
        currentExpiration

end Picoin.Retarget
