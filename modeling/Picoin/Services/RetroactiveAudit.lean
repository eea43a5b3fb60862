import Picoin.Core.PiDigits
import Picoin.Services.Penalties
import Picoin.Services.RangeAssignment
import Picoin.Services.Validators

/-!
# Retroactive audits

An audit calculates the range of an old block again and compares the hash of the result. Every
314th block runs one on a block that the hash of the trigger selects; an operator can run one on
any block. A block that fails is marked, its miner gets penalty points, and the validators that
approved it are slashed.

* **`runRetroactiveAudit`** — one audit, `none` in `calculatePiSegment` is an error of the decimal
  arithmetic;
* **`maybeRunScheduledRetroactiveAudit`** — the audit of a trigger height; a node that imports the
  trigger only writes a marker.

The scheduled audits pay no reward: its share of the block is the constant zero.
-/

namespace Picoin

open Outcome

variable {σ : Type}

def retroactiveAuditIntervalBlocks : ℤ := 314
def retroactiveAuditSampleMultiplier : ℤ := 2
def fraudMinerPenaltyPoints : ℤ := 20

/-- A position that an audit looks at; a marker has no digit. -/
structure AuditSample where
  position : ℤ
  digit : Option Char
deriving DecidableEq

/-- A row of `retroactive_audits`, under its seed. -/
structure AuditRow where
  blockHeight : ℤ
  blockHash : String
  sampleCount : ℤ
  samples : List AuditSample
  expectedHash : String
  actualHash : String
  passed : Bool
  reason : String
  automatic : Bool
  fraudDetected : Bool
  createdAt : String
deriving DecidableEq

/-- A node with its audits. `punished` is the history of `_apply_fraud_penalties`: the heights of
the blocks that it was called for. -/
structure AuditingNode (σ : Type) extends PenalizingNode σ where
  audits : Sql.Table String AuditRow
  punished : List ℤ

/-- What an audit raises. -/
inductive AuditError where
  | mining (error : MiningError)
  | calculation (message : Option String)

/-- The libraries of an audit. -/
structure AuditConfig extends PiConfig where
  config : Config

variable (ac : AuditConfig)

/-! ## Seeds and samples -/

/-- `_protocol_params_for_block`. -/
def protocolParamsForBlock (params : Sql.Table ℤ ProtocolParamsRow) (block : MinedBlockRow) :
    Except MiningError ProtocolParamsRow :=
  match params.find? block.protocolParamsId with
  | some row => .ok row
  | none => (activeProtocolParams params).map Prod.snd

/-- The number of positions that an audit looks at. -/
def auditSampleCount (block : MinedBlockRow) (params : ProtocolParamsRow) (sampleMultiplier : ℤ) :
    ℤ :=
  min (block.rangeEnd - block.rangeStart + 1) (params.sampleCount * sampleMultiplier)

/-- `_scheduled_retroactive_audit_seed`. -/
def scheduledRetroactiveAuditSeed (block : MinedBlockRow) (sampleCount triggerHeight : ℤ)
    (triggerTimestamp : String) : String :=
  ac.config.hashJson (.obj [("audited_block_hash", .str block.blockHash),
    ("audited_block_height", .int block.height), ("automatic", .bool true),
    ("chain_id", ac.config.chainId.toJson), ("created_at", .str triggerTimestamp),
    ("network_id", .str ac.config.networkId), ("sample_count", .int sampleCount),
    ("trigger_height", .int triggerHeight), ("type", .str "scheduled_retroactive_audit")])

/-- The seed of an audit that an operator runs; `auditId` is drawn for it. -/
def manualAuditSeed (auditId : String) (block : MinedBlockRow) (sampleCount : ℤ)
    (timestamp : String) : String :=
  ac.config.hashJson (.obj [("audit_id", .str auditId), ("automatic", .bool false),
    ("block_hash", .str block.blockHash), ("block_height", .int block.height),
    ("created_at", .str timestamp), ("sample_count", .int sampleCount)])

/-- `_build_challenge_samples`. -/
def buildChallengeSamples (rangeStart rangeEnd : ℤ) (challengeSeed : String)
    (requestedSampleCount : ℤ) : List ℤ :=
  let length := (rangeEnd - rangeStart + 1).toNat
  let indexes := ac.sampleIndexes challengeSeed length (min requestedSampleCount.toNat length)
  (indexes.mergeSort (· ≤ ·)).map fun (offset : ℕ) => rangeStart + offset

/-! ## Penalties -/

/-- `_apply_penalty` with a forced cooldown. -/
def applyForcedPenalty (now : Instant) (n : PenalizingNode σ) (minerId taskId : String)
    (points : ℤ) (reason : String) (forceCooldownSeconds : ℤ) : PenalizingNode σ :=
  let cool := fun (standings : Sql.Table String MinerStanding) (length : ℤ) =>
    standings.modify minerId fun row =>
      { row with cooldownUntil := some (isoformat (now + seconds length)) }
  if penalized n.penalties minerId taskId reason then
    refreshTrustScore { n with standings := cool n.standings forceCooldownSeconds } minerId
  else
    let penalties := n.penalties ++ [⟨minerId, taskId, points, reason⟩]
    let standings :=
      if cooldownAfterRejections ≤ penaltyPoints penalties minerId then
        cool n.standings cooldownSeconds
      else n.standings
    refreshTrustScore { n with penalties, standings := cool standings forceCooldownSeconds } minerId

/-- The validators that approved a result of the task. -/
def approvingValidators (votes : List ValidationVoteRow) (taskId : String) : List String :=
  ((votes.filter fun vote => vote.taskId = taskId && vote.approved).map
    ValidationVoteRow.validatorId).dedup

/-- `_apply_fraud_penalties`; a validator that the node does not know raises. -/
def applyFraudPenalties (now : Instant) (n : AuditingNode σ) (block : MinedBlockRow)
    (reason : String) : Except AuditError (AuditingNode σ) := do
  let validatorIds := approvingValidators n.state.votes block.taskId
  let penalizing := applyForcedPenalty now n.toPenalizingNode block.minerId block.taskId
    fraudMinerPenaltyPoints reason fraudCooldownSeconds
  if validatorIds.any fun id => (n.state.validators.find? id).isNone then
    .error (.calculation none)
  else
    let validators := validatorIds.foldl (fun validators id =>
      validators.modify id (ValidatorRow.penalizeFraud now)) n.state.validators
    return { n with
      toPenalizingNode := { penalizing with state := { penalizing.state with validators } }
      punished := n.punished ++ [block.height] }

/-! ## One audit -/

/-- The calculation of a block's range. -/
def auditedSegment (block : MinedBlockRow) : Except AuditError String :=
  match calculatePiSegment ac.toPiConfig block.rangeStart block.rangeEnd block.algorithm with
  | none => .error (.calculation none)
  | some (.error message) => .error (.calculation (some message))
  | some (.ok segment) => .ok segment

/-- A block that fails an audit is marked and penalized, unless it is marked already. -/
def punishBlock (now : Instant) (n : AuditingNode σ) (block : MinedBlockRow) (passed : Bool)
    (timestamp : String) : Except AuditError (AuditingNode σ) :=
  let reason := "fraud detected: result_hash mismatch"
  if passed || block.fraudulent then .ok n
  else
    let blocks := markBlockFraudulent n.state.blocks ⟨block.height, reason, timestamp⟩
    applyFraudPenalties now { n with state := { n.state with blocks } } block reason

/-- The row of an audit that has calculated the range. -/
def auditRow (block : MinedBlockRow) (segment : String) (sampleCount : ℤ)
    (auditSeed timestamp : String) (automatic : Bool) : AuditRow :=
  let actualHash := hashResult ac.config segment block.rangeStart block.rangeEnd block.algorithm
  let positions := buildChallengeSamples ac block.rangeStart block.rangeEnd auditSeed sampleCount
  let passed : Bool := actualHash = block.resultHash
  { blockHeight := block.height
    blockHash := block.blockHash
    sampleCount
    samples := positions.map fun position =>
      ⟨position, segment.toList[(position - block.rangeStart).toNat]?⟩
    expectedHash := block.resultHash
    actualHash
    passed
    reason :=
      if passed then "accepted"
      else if block.fraudulent then "fraud confirmed: result_hash mismatch"
      else "fraud detected: result_hash mismatch"
    automatic
    fraudDetected := !passed
    createdAt := timestamp }

/-- `_run_retroactive_audit_in_connection` from the seed on. -/
def runRetroactiveAudit (now : Instant) (n : AuditingNode σ) (block : MinedBlockRow)
    (sampleCount : ℤ) (auditSeed timestamp : String) (automatic : Bool) :
    Except AuditError (AuditingNode σ) := do
  if (n.audits.find? auditSeed).isSome then return n
  else
    let segment ← auditedSegment ac block
    let row := auditRow ac block segment sampleCount auditSeed timestamp automatic
    let n ← punishBlock now n block row.passed timestamp
    return { n with audits := n.audits.upsert auditSeed row }

/-! ## Scheduled audits -/

/-- The block of a height. -/
def blockAt (blocks : List MinedBlockRow) (height : ℤ) : Option MinedBlockRow :=
  blocks.find? fun block => block.height = height

/-- `_select_scheduled_retroactive_audit_block`. -/
def selectScheduledRetroactiveAuditBlock (blocks : List MinedBlockRow) (triggerHeight : ℤ) :
    Option MinedBlockRow :=
  let maxHeight :=
    if triggerHeight ≤ 0 then (blocks.map fun block => block.height).foldl max 0
    else triggerHeight
  let candidates := (blocks.filter fun block => block.height ≤ maxHeight).mergeSort
    fun a b => a.height ≤ b.height
  let trigger := blockAt blocks maxHeight
  let text := fun (f : MinedBlockRow → String) =>
    trigger.elim Json.Value.null fun block => .str (f block)
  let seed := ac.config.hashJson (.obj [("chain_id", ac.config.chainId.toJson),
    ("network_id", .str ac.config.networkId),
    ("trigger_block_hash", text MinedBlockRow.blockHash), ("trigger_height", .int maxHeight),
    ("trigger_previous_hash", text fun block => block.previousHash),
    ("type", .str "scheduled_retroactive_audit_selection")])
  if candidates = [] then none else candidates[intOfHex (takeChars 16 seed) % candidates.length]?

/-- The reason of a marker. -/
def auditMarkerReason : String := "canonical replay audit marker; verification deferred"

/-- `_record_replayed_scheduled_retroactive_audit_marker`. -/
def recordReplayedScheduledRetroactiveAuditMarker (n : AuditingNode σ) (block : MinedBlockRow)
    (params : ProtocolParamsRow) (triggerHeight : ℤ) (triggerTimestamp : String) :
    AuditingNode σ :=
  let sampleCount := auditSampleCount block params retroactiveAuditSampleMultiplier
  let auditSeed := scheduledRetroactiveAuditSeed ac block sampleCount triggerHeight triggerTimestamp
  let positions := buildChallengeSamples ac block.rangeStart block.rangeEnd auditSeed sampleCount
  let row : AuditRow :=
    { blockHeight := block.height
      blockHash := block.blockHash
      sampleCount
      samples := positions.map fun position => ⟨position, none⟩
      expectedHash := block.resultHash
      actualHash := block.resultHash
      passed := true
      reason := auditMarkerReason
      automatic := true
      fraudDetected := false
      createdAt := triggerTimestamp }
  if (n.audits.find? auditSeed).isSome then n
  else { n with audits := n.audits.upsert auditSeed row }

/-- `_maybe_run_scheduled_retroactive_audit`. -/
def maybeRunScheduledRetroactiveAudit (now : Instant) (n : AuditingNode σ) (currentHeight : ℤ)
    (canonicalReplay : Bool) : Except AuditError (AuditingNode σ) := do
  if currentHeight ≤ 0 ∨ currentHeight % retroactiveAuditIntervalBlocks ≠ 0 then return n
  else
    let trigger := blockAt n.state.blocks currentHeight
    let timestamp := (trigger.map fun block => block.timestamp).getD (isoformat now)
    if canonicalReplay then
      match trigger with
      | none => return n
      | some block =>
        let params ← (protocolParamsForBlock n.state.protocolParams block).mapError .mining
        return recordReplayedScheduledRetroactiveAuditMarker ac n block params currentHeight
          timestamp
    else
      match selectScheduledRetroactiveAuditBlock ac n.state.blocks currentHeight with
      | none => .error (.mining (.mining 404 "block not found for retroactive audit"))
      | some block =>
        let params ← (protocolParamsForBlock n.state.protocolParams block).mapError .mining
        let sampleCount := auditSampleCount block params retroactiveAuditSampleMultiplier
        runRetroactiveAudit ac now n block sampleCount
          (scheduledRetroactiveAuditSeed ac block sampleCount currentHeight timestamp) timestamp
          true

/-- `run_retroactive_audit` of the block with the given height, or with the one that is drawn. -/
def runManualRetroactiveAudit (now : Instant) (n : AuditingNode σ) (auditId : String)
    (blockHeight sampleMultiplier : ℤ) : Except AuditError (AuditingNode σ) := do
  match blockAt n.state.blocks blockHeight with
  | none => .error (.mining (.mining 404 "block not found for retroactive audit"))
  | some block =>
    let params ← (protocolParamsForBlock n.state.protocolParams block).mapError .mining
    let sampleCount := auditSampleCount block params sampleMultiplier
    let timestamp := isoformat now
    runRetroactiveAudit ac now n block sampleCount
      (manualAuditSeed ac auditId block sampleCount timestamp) timestamp false

end Picoin
