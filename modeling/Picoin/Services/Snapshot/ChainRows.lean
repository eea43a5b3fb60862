import Picoin.Services.Snapshot.Rows

/-!
# The rows of a snapshot document that have a numeric id

Protocol parameters, retarget events and pending rewards: a repeated id is an error, and the
normalized rows are listed in the order of their ids.
-/

namespace Picoin

open Decimal Json

/-- Normalize rows one after the other and refuse a repeated id. -/
def collectById {α ρ : Type} (normalizeRow : α → Except String (ℤ × ρ)) (duplicate : ℤ → String)
    (items : List α) : Except String (Sql.Table ℤ ρ) :=
  items.foldlM (fun collected item => do
    let (id, row) ← normalizeRow item
    match collected.insert? id row with
    | none => .error (duplicate id)
    | some collected => return collected) .empty

/-- `round(float(value), 8)` of a required number. -/
def requiredFloat (value : Option Dec) (key : String) : Except String Dec := do
  let x ← snapshotRequired value (missingField key)
  return amountDec (round8 x)

/-- `_snapshot_optional_float`. -/
def optionalFloat (value : Option Dec) : Option Dec := value.map fun x => amountDec (round8 x)

/-! ## Protocol parameters -/

/-- `active` is `_snapshot_bool` of the field; an absent field counts as set. -/
structure RawProtocolParams where
  id : Option ℤ
  protocolVersion : Option String
  algorithm : Option String
  validationMode : Option String
  requiredValidatorApprovals : Option ℤ
  rangeAssignmentMode : Option String
  maxPiPosition : Option ℤ
  rangeAssignmentMaxAttempts : Option ℤ
  segmentSize : Option ℤ
  sampleCount : Option ℤ
  taskExpirationSeconds : Option ℤ
  maxActiveTasksPerMiner : Option ℤ
  baseReward : Option Dec
  difficulty : Option Dec
  retargetMaxPiPosition : Option ℤ
  targetBlockTimeMs : Option ℤ
  retargetReason : Option String
  retargetSourceWindow : Option ℤ
  retargetSourceDetails : Option String
  previousProtocolParamsId : Option ℤ
  active : Option Bool
  createdAt : Option String

/-- `_normalize_protocol_params_snapshot_row`. -/
def normalizeProtocolParamsSnapshotRow (cfg : Config) (item : RawProtocolParams) :
    Except String (ℤ × ProtocolParamsRow) := do
  let id ← snapshotId item.id "protocol params snapshot entry missing id"
  let requiredValidatorApprovals ← snapshotRequired item.requiredValidatorApprovals
    (missingField "required_validator_approvals")
  let maxPiPosition ← snapshotRequired item.maxPiPosition (missingField "max_pi_position")
  let rangeAssignmentMaxAttempts ← snapshotRequired item.rangeAssignmentMaxAttempts
    (missingField "range_assignment_max_attempts")
  let segmentSize ← snapshotRequired item.segmentSize (missingField "segment_size")
  let sampleCount ← snapshotRequired item.sampleCount (missingField "sample_count")
  let taskExpirationSeconds ← snapshotRequired item.taskExpirationSeconds
    (missingField "task_expiration_seconds")
  let maxActiveTasksPerMiner ← snapshotRequired item.maxActiveTasksPerMiner
    (missingField "max_active_tasks_per_miner")
  let baseReward ← requiredFloat item.baseReward "base_reward"
  return (id,
    { protocolVersion := stripOr item.protocolVersion cfg.protocolVersion cfg.protocolVersion
      algorithm := clean item.algorithm
      validationMode := clean item.validationMode
      requiredValidatorApprovals
      rangeAssignmentMode := clean item.rangeAssignmentMode
      maxPiPosition
      rangeAssignmentMaxAttempts
      segmentSize
      sampleCount
      taskExpirationSeconds
      maxActiveTasksPerMiner
      baseReward
      difficulty := optionalFloat item.difficulty
      retargetMaxPiPosition := item.retargetMaxPiPosition
      targetBlockTimeMs := item.targetBlockTimeMs
      retargetReason := cleanOrNone item.retargetReason
      retargetSourceWindow := item.retargetSourceWindow
      retargetSourceDetails := cleanOrNone item.retargetSourceDetails
      previousProtocolParamsId := item.previousProtocolParamsId
      active := item.active.getD true
      createdAt := clean item.createdAt })

/-- `_normalize_snapshot_protocol_params`. -/
def normalizeSnapshotProtocolParams (cfg : Config) (protocolParams : List RawProtocolParams) :
    Except String (List (ℤ × ProtocolParamsRow)) := do
  let normalized ← collectById (normalizeProtocolParamsSnapshotRow cfg)
    (fun id => s!"protocol params snapshot has duplicate id {id}") protocolParams
  let activeCount := (normalized.rows.filter fun r => r.2.active).length
  if normalized.rows ≠ [] ∧ activeCount ≠ 1 then
    .error "protocol params snapshot must contain exactly one active row"
  else return normalized.sorted

def protocolParamsJson (item : ℤ × ProtocolParamsRow) : Value :=
  .obj [("id", .int item.1), ("protocol_version", .str item.2.protocolVersion),
    ("algorithm", .str item.2.algorithm), ("validation_mode", .str item.2.validationMode),
    ("required_validator_approvals", .int item.2.requiredValidatorApprovals),
    ("range_assignment_mode", .str item.2.rangeAssignmentMode),
    ("max_pi_position", .int item.2.maxPiPosition),
    ("range_assignment_max_attempts", .int item.2.rangeAssignmentMaxAttempts),
    ("segment_size", .int item.2.segmentSize), ("sample_count", .int item.2.sampleCount),
    ("task_expiration_seconds", .int item.2.taskExpirationSeconds),
    ("max_active_tasks_per_miner", .int item.2.maxActiveTasksPerMiner),
    ("base_reward", .float (round8 item.2.baseReward)),
    ("difficulty", .optFloat (item.2.difficulty.map round8)),
    ("RETARGET_MAX_PI_POSITION", .optInt item.2.retargetMaxPiPosition),
    ("target_block_time_ms", .optInt item.2.targetBlockTimeMs),
    ("retarget_reason", .optStr item.2.retargetReason),
    ("retarget_source_window", .optInt item.2.retargetSourceWindow),
    ("retarget_source_details", .optStr item.2.retargetSourceDetails),
    ("previous_protocol_params_id", .optInt item.2.previousProtocolParamsId),
    ("active", flagJson item.2.active), ("created_at", .str item.2.createdAt)]

/-- The dict of a row. -/
def ProtocolParamsRow.toRaw (id : ℤ) (row : ProtocolParamsRow) : RawProtocolParams where
  id := some id
  protocolVersion := some row.protocolVersion
  algorithm := some row.algorithm
  validationMode := some row.validationMode
  requiredValidatorApprovals := some row.requiredValidatorApprovals
  rangeAssignmentMode := some row.rangeAssignmentMode
  maxPiPosition := some row.maxPiPosition
  rangeAssignmentMaxAttempts := some row.rangeAssignmentMaxAttempts
  segmentSize := some row.segmentSize
  sampleCount := some row.sampleCount
  taskExpirationSeconds := some row.taskExpirationSeconds
  maxActiveTasksPerMiner := some row.maxActiveTasksPerMiner
  baseReward := some row.baseReward
  difficulty := row.difficulty
  retargetMaxPiPosition := row.retargetMaxPiPosition
  targetBlockTimeMs := row.targetBlockTimeMs
  retargetReason := row.retargetReason
  retargetSourceWindow := row.retargetSourceWindow
  retargetSourceDetails := row.retargetSourceDetails
  previousProtocolParamsId := row.previousProtocolParamsId
  active := some row.active
  createdAt := some row.createdAt

/-! ## Retarget events -/

structure RawRetargetEvent where
  id : Option ℤ
  previousProtocolParamsId : Option ℤ
  newProtocolParamsId : Option ℤ
  epochStartHeight : Option ℤ
  epochEndHeight : Option ℤ
  epochBlockCount : Option ℤ
  averageBlockMs : Option Dec
  targetBlockMs : Option ℤ
  oldDifficulty : Option Dec
  newDifficulty : Option Dec
  adjustmentFactor : Option Dec
  action : Option String
  reason : Option String
  createdAt : Option String

/-- `_normalize_retarget_event_snapshot_row`. -/
def normalizeRetargetEventSnapshotRow (item : RawRetargetEvent) :
    Except String (ℤ × RetargetEventRow) := do
  let id ← snapshotId item.id "retarget event snapshot entry missing id"
  let epochStartHeight ← snapshotRequired item.epochStartHeight (missingField "epoch_start_height")
  let epochEndHeight ← snapshotRequired item.epochEndHeight (missingField "epoch_end_height")
  let epochBlockCount ← snapshotRequired item.epochBlockCount (missingField "epoch_block_count")
  let averageBlockMs ← requiredFloat item.averageBlockMs "average_block_ms"
  let targetBlockMs ← snapshotRequired item.targetBlockMs (missingField "target_block_ms")
  let oldDifficulty ← requiredFloat item.oldDifficulty "old_difficulty"
  let newDifficulty ← requiredFloat item.newDifficulty "new_difficulty"
  let adjustmentFactor ← requiredFloat item.adjustmentFactor "adjustment_factor"
  return (id,
    { previousProtocolParamsId := item.previousProtocolParamsId
      newProtocolParamsId := item.newProtocolParamsId
      epochStartHeight
      epochEndHeight
      epochBlockCount
      averageBlockMs
      targetBlockMs
      oldDifficulty
      newDifficulty
      adjustmentFactor
      action := clean item.action
      reason := clean item.reason
      createdAt := clean item.createdAt })

/-- `_normalize_snapshot_retarget_events`. -/
def normalizeSnapshotRetargetEvents (retargetEvents : List RawRetargetEvent) :
    Except String (List (ℤ × RetargetEventRow)) := do
  let normalized ← collectById normalizeRetargetEventSnapshotRow
    (fun id => s!"retarget event snapshot has duplicate id {id}") retargetEvents
  return normalized.sorted

def retargetEventJson (item : ℤ × RetargetEventRow) : Value :=
  .obj [("id", .int item.1),
    ("previous_protocol_params_id", .optInt item.2.previousProtocolParamsId),
    ("new_protocol_params_id", .optInt item.2.newProtocolParamsId),
    ("epoch_start_height", .int item.2.epochStartHeight),
    ("epoch_end_height", .int item.2.epochEndHeight),
    ("epoch_block_count", .int item.2.epochBlockCount),
    ("average_block_ms", .float (round8 item.2.averageBlockMs)),
    ("target_block_ms", .int item.2.targetBlockMs),
    ("old_difficulty", .float (round8 item.2.oldDifficulty)),
    ("new_difficulty", .float (round8 item.2.newDifficulty)),
    ("adjustment_factor", .float (round8 item.2.adjustmentFactor)),
    ("action", .str item.2.action), ("reason", .str item.2.reason),
    ("created_at", .str item.2.createdAt)]

/-- The dict of a row. -/
def RetargetEventRow.toRaw (id : ℤ) (row : RetargetEventRow) : RawRetargetEvent where
  id := some id
  previousProtocolParamsId := row.previousProtocolParamsId
  newProtocolParamsId := row.newProtocolParamsId
  epochStartHeight := some row.epochStartHeight
  epochEndHeight := some row.epochEndHeight
  epochBlockCount := some row.epochBlockCount
  averageBlockMs := some row.averageBlockMs
  targetBlockMs := some row.targetBlockMs
  oldDifficulty := some row.oldDifficulty
  newDifficulty := some row.newDifficulty
  adjustmentFactor := some row.adjustmentFactor
  action := some row.action
  reason := some row.reason
  createdAt := some row.createdAt

/-! ## Pending rewards -/

structure RawPendingReward where
  id : Option ℤ
  minerId : Option String
  blockHeight : Option ℤ
  amount : RawAmount
  amountUnits : Option ℤ
  accountId : Option String
  accountType : Option String
  maturesAtHeight : Option ℤ
  orphanedAt : Option String
  orphanReason : Option String
  relatedId : Option String
  reason : Option String
  createdAt : Option String

/-- `_normalize_pending_reward_snapshot_row`. -/
def normalizePendingRewardSnapshotRow (item : RawPendingReward) :
    Except String (ℤ × RewardRow) := do
  let id ← snapshotId item.id "pending reward snapshot entry missing id"
  let minerId := clean item.minerId
  if minerId = "" then .error "pending reward snapshot entry missing miner_id"
  else
    let blockHeight ← snapshotRequired item.blockHeight (missingField "block_height")
    let amountUnits ← item.amount.unitsFromDb item.amountUnits
    let maturesAtHeight ← snapshotRequired item.maturesAtHeight (missingField "matures_at_height")
    return (id,
      { minerId
        blockHeight
        amountUnits
        accountId := cleanOrNone item.accountId
        accountType := cleanOrNone item.accountType
        mature := false
        maturesAtHeight := some maturesAtHeight
        orphanedAt := cleanOrNone item.orphanedAt
        orphanReason := cleanOrNone item.orphanReason
        relatedId := cleanOrNone item.relatedId
        reason := stripOr item.reason "block reward" "block reward"
        createdAt := clean item.createdAt })

/-- `_normalize_snapshot_pending_rewards`. -/
def normalizeSnapshotPendingRewards (pendingRewards : List RawPendingReward) :
    Except String (List (ℤ × RewardRow)) := do
  let normalized ← collectById normalizePendingRewardSnapshotRow
    (fun id => s!"pending reward snapshot has duplicate id {id}") pendingRewards
  return normalized.sorted

/-- The JSON form of a normalized reward, which is immature. -/
def pendingRewardJson (item : ℤ × RewardRow) : Value :=
  .obj [("id", .int item.1), ("miner_id", .str item.2.minerId),
    ("block_height", .int item.2.blockHeight),
    ("amount", .str (canonicalAmount item.2.amountUnits)),
    ("amount_units", .int item.2.amountUnits), ("account_id", .optStr item.2.accountId),
    ("account_type", .optStr item.2.accountType), ("status", .str "immature"),
    ("matures_at_height", .optInt item.2.maturesAtHeight), ("matured_at", .null),
    ("orphaned_at", .optStr item.2.orphanedAt), ("orphan_reason", .optStr item.2.orphanReason),
    ("related_id", .optStr item.2.relatedId), ("reason", .str item.2.reason),
    ("created_at", .str item.2.createdAt)]

/-- The dict of a row. The two amount columns agree, so no error shows the amount. -/
def RewardRow.toRaw (id : ℤ) (row : RewardRow) : RawPendingReward where
  id := some id
  minerId := some row.minerId
  blockHeight := some row.blockHeight
  amount := .canonical row.amountUnits
  amountUnits := some row.amountUnits
  accountId := row.accountId
  accountType := row.accountType
  maturesAtHeight := row.maturesAtHeight
  orphanedAt := row.orphanedAt
  orphanReason := row.orphanReason
  relatedId := row.relatedId
  reason := some row.reason
  createdAt := some row.createdAt

end Picoin
