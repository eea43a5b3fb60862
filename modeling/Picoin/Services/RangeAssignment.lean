import Picoin.Services.Assignment
import Picoin.Services.TaskGossip
import Picoin.Lib.JsonText

/-!
# The ranges of tasks

A task gets a range of positions of π, of the length of a segment. Its start is drawn from a window:
the first one in which there are starts left and which is young enough, or else the window after the
last position that was accepted.

The tasks of a round compete for one range. Otherwise every task has a range of its own, and a scan
of the window follows the draws.
-/

namespace Picoin

variable {σ : Type}

/-! ## Settings -/

/-- The settings of windows, and the comparison of floats that tells whether the starts used in a
window of this size are below the share at which it is retired. -/
structure RangeConfig extends MiningConfig where
  retargetMaxPiPosition : ℤ
  rangeStartWindowSize : ℤ
  rangeWindowLookaheadMultiplier : ℤ
  rangeWindowMaxAgeBlocks : ℤ
  belowRetireOccupancy : ℕ → ℤ → Bool

def rangeAssignmentMaxAttempts : ℤ := 512

/-- `_resolve_RETARGET_MAX_PI_POSITION`. -/
def resolveRetargetMaxPiPosition (rc : RangeConfig) (params : ProtocolParamsRow) : ℤ :=
  max 1 (intOr params.retargetMaxPiPosition rc.retargetMaxPiPosition)

/-- `int(text, 16)` of a digest. -/
def intOfHex (text : String) : ℕ := text.toList.foldl (fun n c => 16 * n + Json.hexValue c) 0

/-! ## What is taken -/

/-- The statuses of a task whose start no other task gets. -/
def TaskStatus.holdsStart (status : TaskStatus) : Bool := status.active || status = .accepted

/-- `_range_start_is_protected`. -/
def rangeStartIsProtected (s : MiningState σ) (rangeStart : ℤ) (algorithm : String) : Bool :=
  s.tasks.rows.any fun r => r.2.algorithm = algorithm && r.2.status.holdsStart &&
    r.2.rangeStart = rangeStart

/-- `_range_start_is_accepted`. -/
def rangeStartIsAccepted (s : MiningState σ) (rangeStart : ℤ) (algorithm : String) : Bool :=
  (s.tasks.rows.any fun r => r.2.status = .accepted && r.2.algorithm = algorithm &&
    r.2.rangeStart = rangeStart) ||
  s.blocks.any fun block => block.algorithm = algorithm && block.rangeStart = rangeStart

/-- `_range_overlaps_active_task`. -/
def rangeOverlapsActiveTask (s : MiningState σ) (rangeStart rangeEnd : ℤ) (algorithm : String) :
    Bool :=
  s.tasks.rows.any fun r => r.2.algorithm = algorithm && r.2.status.active &&
    r.2.rangeStart ≤ rangeEnd && rangeStart ≤ r.2.rangeEnd

/-- `_range_is_assignable`. -/
def rangeIsAssignable (s : MiningState σ) (rangeStart rangeEnd : ℤ) (algorithm : String) : Bool :=
  !rangeStartIsProtected s rangeStart algorithm &&
    !rangeOverlapsActiveTask s rangeStart rangeEnd algorithm

/-! ## The window -/

/-- `_accepted_range_frontier`. -/
def acceptedRangeFrontier (s : MiningState σ) (algorithm : String) : ℤ :=
  let blocks := s.blocks.filter fun block => block.algorithm = algorithm
  let tasks := s.tasks.rows.filter fun r => r.2.algorithm = algorithm && r.2.status = .accepted
  ((blocks.map (·.rangeEnd) ++ tasks.map (·.2.rangeEnd)).max?).getD 0

/-- `_latest_block_height`. -/
def latestBlockHeight (s : MiningState σ) : ℤ := ((s.blocks.map (·.height)).max?).getD 0

/-- The starts that tasks use in a window. -/
def usedStarts (s : MiningState σ) (algorithm : String) (windowStart windowEnd : ℤ) : ℕ :=
  let used := s.tasks.rows.filter fun r => r.2.algorithm = algorithm && r.2.status.holdsStart &&
    windowStart ≤ r.2.rangeStart && r.2.rangeStart ≤ windowEnd
  (used.map (·.2.rangeStart)).dedup.length

/-- How many blocks ago the first block of a window was. -/
def windowAge (s : MiningState σ) (algorithm : String) (windowStart windowEnd latestHeight : ℤ) :
    ℤ :=
  let blocks := s.blocks.filter fun block => block.algorithm = algorithm &&
    windowStart ≤ block.rangeStart && block.rangeStart ≤ windowEnd
  match (blocks.map (·.height)).min? with
  | none => 0
  | some firstHeight => max 0 (latestHeight - firstHeight + 1)

/-- A window that is neither full nor too old. -/
def windowIsOpen (rc : RangeConfig) (s : MiningState σ) (algorithm : String)
    (windowSize latestHeight : ℤ) (windowIndex : ℕ) : Bool :=
  let windowStart := windowIndex * windowSize + 1
  let windowEnd := (windowIndex + 1) * windowSize
  rc.belowRetireOccupancy (usedStarts s algorithm windowStart windowEnd) windowSize &&
    windowAge s algorithm windowStart windowEnd latestHeight < max 1 rc.rangeWindowMaxAgeBlocks

/-- `_first_unretired_range_window`. -/
def firstUnretiredRangeWindow (rc : RangeConfig) (s : MiningState σ) (algorithm : String)
    (windowSize latestHeight : ℤ) (frontierWindowIndex : ℕ) : ℕ :=
  ((List.range (frontierWindowIndex + 1)).find?
    (windowIsOpen rc s algorithm windowSize latestHeight)).getD (frontierWindowIndex + 1)

/-- What `_range_assignment_window` returns. -/
structure RangeWindow where
  retargetMaxPiPosition : ℤ
  effectiveMaxPiPosition : ℤ
  frontier : ℤ
  lookaheadWindow : ℤ
  maxStart : ℤ
  minStart : ℤ
  windowIndex : ℕ
  windowSize : ℤ

/-- `_range_assignment_window`. -/
def rangeAssignmentWindow (rc : RangeConfig) (s : MiningState σ) (params : ProtocolParamsRow) :
    RangeWindow :=
  let segmentSize := params.segmentSize
  let configuredLimit := max params.maxPiPosition segmentSize
  let limit := resolveRetargetMaxPiPosition rc params
  let windowSize := max rc.rangeStartWindowSize segmentSize
  let lookaheadWindow := max windowSize (segmentSize * rc.rangeWindowLookaheadMultiplier)
  let frontier := acceptedRangeFrontier s params.algorithm
  let frontierWindowIndex := ((max frontier 1 - 1) / windowSize).toNat
  let windowIndex := firstUnretiredRangeWindow rc s params.algorithm windowSize
    (latestBlockHeight s) frontierWindowIndex
  let minStart := windowIndex * windowSize + 1
  let currentWindowEnd := (windowIndex + 1) * windowSize
  let effectiveMaxPiPosition :=
    min limit (max (max configuredLimit currentWindowEnd) (frontier + lookaheadWindow))
  { retargetMaxPiPosition := limit
    effectiveMaxPiPosition
    frontier
    lookaheadWindow
    maxStart := effectiveMaxPiPosition - segmentSize + 1
    minStart
    windowIndex
    windowSize }

/-! ## The range of a round -/

/-- The seed of the round that the next block closes. -/
def roundSeed (rc : RangeConfig) (s : MiningState σ) (params : ℤ × ProtocolParamsRow) : String :=
  rc.hashJson (.obj [("mode", .str competitiveRoundAssignmentMode),
    ("network_id", .str rc.networkId), ("chain_id", rc.chainId.toJson),
    ("height", .int (s.tip.height + 1)), ("previous_hash", .str s.tip.blockHash),
    ("algorithm", .str params.2.algorithm), ("segment_size", .int params.2.segmentSize),
    ("protocol_params_id", .int params.1)])

/-- The seed of an attempt of the round. -/
def attemptSeed (rc : RangeConfig) (seed : String) (attempt : ℕ) : String :=
  if attempt = 0 then seed else rc.sha256Text s!"{seed}:{attempt}"

/-- `_competitive_round_assignment`. -/
def competitiveRoundAssignment (rc : RangeConfig) (s : MiningState σ)
    (params : ℤ × ProtocolParamsRow) : Except MiningError Assignment :=
  let window := rangeAssignmentWindow rc s params.2
  let candidateCount := max 1 (window.maxStart - window.minStart + 1)
  let seed := roundSeed rc s params
  let maxAttempts := max 1 (intOr (some params.2.rangeAssignmentMaxAttempts) rangeAssignmentMaxAttempts)
  let candidates := (List.range maxAttempts.toNat).map fun attempt =>
    window.minStart + intOfHex (attemptSeed rc seed attempt) % candidateCount
  match candidates.find? fun start => !rangeStartIsAccepted s start params.2.algorithm with
  | none => .error (.mining 409 "no assignable competitive range available in active window")
  | some rangeStart =>
    .ok
      { rangeStart
        rangeEnd := rangeStart + params.2.segmentSize - 1
        assignmentSeed := seed
        roundHeight := some (s.tip.height + 1)
        previousHash := some s.tip.blockHash }

/-! ## The range of a task of its own -/

/-- `_latest_block_hash`. -/
def latestBlockHash (cfg : Config) (s : MiningState σ) : String :=
  match s.blocks.getLast? with
  | none => cfg.genesisHash
  | some block => block.blockHash

/-- The seed of a draw, or of the scan, of `_assign_pseudo_random_range`. -/
def assignmentSeed (rc : RangeConfig) (s : MiningState σ) (minerId taskId : String)
    (params : ProtocolParamsRow) (draw : String × Json.Value) : String :=
  let window := rangeAssignmentWindow rc s params
  rc.hashJson (.obj [("algorithm", .str params.algorithm),
    ("effective_max_pi_position", .int window.effectiveMaxPiPosition), draw,
    ("min_start", .int window.minStart), ("miner_id", .str minerId),
    ("previous_hash", .str (latestBlockHash rc.toConfig s)),
    ("segment_size", .int params.segmentSize), ("task_counter", .int (s.tasks.rows.length + 1)),
    ("task_id", .str taskId)])

/-- The start that a draw gives, with its seed. -/
def drawnStart (rc : RangeConfig) (s : MiningState σ) (minerId taskId : String)
    (params : ProtocolParamsRow) (nonce : ℕ) : ℤ × String :=
  let window := rangeAssignmentWindow rc s params
  let seed := assignmentSeed rc s minerId taskId params ("nonce", .int nonce)
  (window.minStart + intOfHex seed % (window.maxStart - window.minStart + 1), seed)

/-- The starts of the scan, with its seed. -/
def scannedStarts (rc : RangeConfig) (s : MiningState σ) (minerId taskId : String)
    (params : ProtocolParamsRow) : List (ℤ × String) :=
  let window := rangeAssignmentWindow rc s params
  let seed := assignmentSeed rc s minerId taskId params ("fallback", .bool true)
  (List.range (window.maxStart + 1 - window.minStart).toNat).map fun (k : ℕ) =>
    (window.minStart + (k : ℤ), seed)

/-- A range below the limit that no task holds. -/
def startFits (s : MiningState σ) (params : ProtocolParamsRow) (limit rangeStart : ℤ) : Bool :=
  let rangeEnd := rangeStart + params.segmentSize - 1
  rangeEnd ≤ limit && rangeIsAssignable s rangeStart rangeEnd params.algorithm

/-- `_assign_pseudo_random_range`. -/
def assignPseudoRandomRange (rc : RangeConfig) (s : MiningState σ) (minerId taskId : String)
    (params : ℤ × ProtocolParamsRow) : Except MiningError Assignment :=
  let window := rangeAssignmentWindow rc s params.2
  let limit := window.retargetMaxPiPosition
  if window.maxStart < window.minStart then
    .error (.mining 503
      s!"no assignable range available below RETARGET_MAX_PI_POSITION={limit}")
  else
    let draws := (List.range params.2.rangeAssignmentMaxAttempts.toNat).map
      (drawnStart rc s minerId taskId params.2)
    let fits := fun (start : ℤ × String) => startFits s params.2 limit start.1
    match (draws.find? fits).or ((scannedStarts rc s minerId taskId params.2).find? fits) with
    | none => .error (.mining 503
        s!"could not assign a non-overlapping range below RETARGET_MAX_PI_POSITION={limit}")
    | some (rangeStart, seed) =>
      .ok
        { rangeStart
          rangeEnd := rangeStart + params.2.segmentSize - 1
          assignmentSeed := seed
          roundHeight := none
          previousHash := none }

end Picoin
