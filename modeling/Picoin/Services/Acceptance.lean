import Picoin.Core.Block
import Picoin.Core.Settings
import Picoin.Core.Text
import Picoin.Lib.MerkleTree
import Picoin.Lib.Outcome
import Picoin.Services.TaskGossip
import Picoin.Services.Wallet

/-!
# The acceptance of a block

`acceptBlock` builds the block of a task from the task's row and the transactions that were frozen
for it, appends it to the chain, closes the round that the task competes in, and refuses the block
in the end if its hash is none that the node's peers would compute (`validatesLocalProposal`).

What the other services do for a block is a parameter: they pay the rewards, execute the
transactions, fill the reserves and audit an older block, on tables of their own and on the
validators (`BlockServices.settle`), and they retarget the protocol parameters for later tasks
(`BlockServices.retarget`).
-/

namespace Picoin

open Outcome Decimal

/-! ## Settings -/

/-- The settings of mining, and what its language and libraries provide: `parse_iso`, `json.loads`
of a list of texts, and the float arithmetic for parameters without a configured difficulty. -/
structure MiningConfig extends Config where
  proofOfPiRewardPercent : Dec
  requiredValidatorApprovals : ℤ
  parseIso : String → Option Instant
  jsonLoads : String → Option (List String)
  workloadDifficulty : ProtocolParamsRow → ℤ

def competitiveRoundAssignmentMode : String := "competitive_round"

/-- What ends the acceptance of a block: it is deferred, its transactions fail, or anything else. -/
inductive AcceptError where
  | deferred (message : String)
  | transaction (reason : String)
  | other (error : MiningError)

/-- A block that an audit found fraudulent. -/
structure FraudMark where
  height : ℤ
  reason : String
  detectedAt : String

/-- What the other services leave for a block. -/
structure Settlement (σ : Type) where
  validators : Sql.Table String ValidatorRow
  services : σ
  fraud : Option FraudMark

/-- The other services, on tables `σ`. -/
structure BlockServices (σ : Type) where
  settle : Sql.Table String ValidatorRow → σ → BlockDraft → Except AcceptError (Settlement σ)
  retarget : Sql.Table ℤ ProtocolParamsRow → List MinedBlockRow → Sql.Table ℤ ProtocolParamsRow

/-! ## Parameters and timing -/

/-- `_active_protocol_params`, with their id. -/
def activeProtocolParams (params : Sql.Table ℤ ProtocolParamsRow) :
    Except MiningError (ℤ × ProtocolParamsRow) :=
  match (activeParamsId params).bind fun id => (params.find? id).map fun row => (id, row) with
  | none => .error (.mining 500 "active protocol params not found")
  | some r => .ok r

/-- `_protocol_params_for_task`. -/
def protocolParamsForTask (params : Sql.Table ℤ ProtocolParamsRow) (task : TaskRow) :
    Except MiningError (ℤ × ProtocolParamsRow) :=
  match task.protocolParamsId with
  | none => activeProtocolParams params
  | some id =>
    match params.find? id with
    | none => activeProtocolParams params
    | some row => .ok (id, row)

/-- `calculate_difficulty`. -/
def calculateDifficulty (mc : MiningConfig) (params : ProtocolParamsRow) : ℤ :=
  match params.difficulty with
  | some configured => max 100000 (configured.quantizeHalfEven 6 * 100)
  | none => mc.workloadDifficulty params

/-- `calculate_miner_reward`. -/
def calculateMinerReward (mc : MiningConfig) (params : ProtocolParamsRow) : ℤ :=
  unitsToFloat (percentUnits (toUnits params.baseReward) mc.proofOfPiRewardPercent)

/-- `_elapsed_iso_ms`. -/
def elapsedIsoMs (mc : MiningConfig) (start stop : String) : Option ℤ :=
  match mc.parseIso start, mc.parseIso stop with
  | some start, some stop => some (max 0 ((stop - start) / 1000))
  | _, _ => none

/-- `_validation_block_elapsed_ms`. -/
def validationBlockElapsedMs (mc : MiningConfig) (task : TaskRow) (timestamp : String) :
    Option ℤ :=
  match task.computeMs with
  | some ms => some (max 0 ms)
  | none => elapsedIsoMs mc task.createdAt timestamp

/-- A time column that holds a time. -/
def timeColumn? (mc : MiningConfig) (value : Option String) : Option String :=
  value.filter fun text => text ≠ "" ∧ (mc.parseIso text).isSome

/-- `_block_timestamp_for_validation_job`. -/
def blockTimestampForValidationJob (mc : MiningConfig) (now : String)
    (job : Option ValidationJobRow) : String :=
  match job with
  | none => now
  | some job =>
    ((timeColumn? mc job.jobCreatedAt).or (timeColumn? mc (some job.createdAt))).getD now

/-! ## Rounds -/

/-- `_is_competitive_task`. -/
def TaskRow.competitive (task : TaskRow) : Bool :=
  task.assignmentMode = some competitiveRoundAssignmentMode

/-- The statuses of a task that is being worked on. -/
def TaskStatus.active : TaskStatus → Bool
  | .assigned | .committed | .revealed => true
  | .accepted | .rejected | .stale | .expired => false

variable {σ : Type}

/-- `_latest_chain_tip_in_connection`. -/
def MiningState.tip (s : MiningState σ) : ChainTip :=
  match s.blocks.getLast? with
  | some block => ⟨block.height, block.blockHash⟩
  | none => s.base

/-- `_block_anchor_for_task`: the tip that the block of the task builds on, and whether the task
names it. -/
def blockAnchorForTask (s : MiningState σ) (task : TaskRow) : ChainTip × Bool :=
  let previousHash := clean task.competitiveRoundPreviousHash
  match task.competitiveRoundHeight with
  | some height =>
    if task.competitive ∧ previousHash ≠ "" then (⟨height - 1, previousHash⟩, true)
    else (s.tip, false)
  | none => (s.tip, false)

/-- `_ensure_block_anchor_is_local_tip`. -/
def ensureBlockAnchorIsLocalTip (s : MiningState σ) (anchor : ChainTip × Bool) :
    Except AcceptError Unit :=
  if anchor.2 = false ∨ anchor.1 = s.tip then .ok ()
  else .error (.deferred "competitive round parent is not local chain tip")

/-- `_competitive_round_winner`: the first block of a task of the round. -/
def competitiveRoundWinner (s : MiningState σ) (task : TaskRow) : Option MinedBlockRow :=
  let assignmentSeed := clean task.assignmentSeed
  if task.competitive = false ∨ assignmentSeed = "" then none
  else s.blocks.find? fun block => (s.tasks.find? block.taskId).any fun other =>
    other.competitive && other.assignmentSeed = some assignmentSeed

/-- `_ensure_competitive_task_can_finalize` without `require_current_round`. The task that it marks
stale is active again when its error rolls back. -/
def ensureCompetitiveTaskCanFinalize (s : MiningState σ) (taskId : String) (task : TaskRow) :
    Except AcceptError Unit :=
  match competitiveRoundWinner s task with
  | none => .ok ()
  | some winner =>
    if winner.taskId = taskId then .ok ()
    else
      let winnerId := winner.taskId
      let height := winner.height
      .error (.transaction s!"competitive round already won by {winnerId} at block {height}")

/-! ## Transactions -/

/-- A selected row given back: pending again, or expired. -/
def SelectableRow.release (timestamp : String) (row : SelectableRow) : SelectableRow :=
  let expiresAt := textOr row.expiresAt ""
  { row with
    status := if expiresAt ≠ "" ∧ expiresAt < timestamp then .expired else .pending
    selectedTaskId := none }

/-- The row is selected for the task. -/
def SelectableRow.selectedFor (taskId : String) (row : SelectableRow) : Bool :=
  row.selectedTaskId = some taskId && row.status = .selected

/-- `release_selected_transactions`. -/
def releaseSelectedTransactions (mempool : Sql.Table String SelectableRow)
    (taskId timestamp : String) : Sql.Table String SelectableRow :=
  mempool.mapRows fun _ row => if row.selectedFor taskId then row.release timestamp else row

/-- `get_task_tx_snapshot`: the hashes of the snapshot of the task, or of the one it names. -/
def taskTxHashes (mc : MiningConfig) (s : MiningState σ) (taskId : String) : List String :=
  let own := s.snapshots.rows.find? fun r => r.2.taskId = taskId
  let named := do
    let task ← s.tasks.find? taskId
    let snapshotId ← task.mempoolSnapshotId
    s.snapshots.find? snapshotId
  match (own.map Prod.snd).or named with
  | none => []
  | some snapshot => (mc.jsonLoads snapshot.txHashesJson).getD []

/-- `load_snapshot_transactions`: the hashes and fees of the snapshot's transactions. -/
def loadSnapshotTransactions (mc : MiningConfig) (s : MiningState σ) (taskId : String) :
    Except AcceptError (List (String × ℤ)) :=
  (taskTxHashes mc s taskId).mapM fun txHash =>
    match s.mempool.find? txHash with
    | none => .error (.transaction s!"snapshot transaction missing: {txHash}")
    | some row => .ok (txHash, row.feeUnits)

/-- `merkle_root` of the transactions. -/
def txMerkleRoot (cfg : Config) (txHashes : List String) : String :=
  let node left right := cfg.hashJson (.obj [("left", .str left), ("right", .str right)])
  if txHashes = [] then cfg.hashJson (.arr [])
  else (((MerkleTree.layersFrom node txHashes).getLast?.getD []).head?).getD ""

/-- `selected_tx_hashes_hash`. -/
def selectedTxHashesHash (cfg : Config) (txHashes : List String) : String :=
  cfg.hashJson (.arr (txHashes.map .str))

/-- `transaction_commitment`. -/
structure TxCommitment where
  txHashes : List String
  txMerkleRoot : String
  selectedTxHashesHash : String
  txFeeTotalUnits : ℤ

def transactionCommitment (cfg : Config) (transactions : List (String × ℤ)) : TxCommitment where
  txHashes := transactions.map Prod.fst
  txMerkleRoot := txMerkleRoot cfg (transactions.map Prod.fst)
  selectedTxHashesHash := selectedTxHashesHash cfg (transactions.map Prod.fst)
  txFeeTotalUnits := (transactions.map Prod.snd).sum

/-- The commitment is the one that the task was assigned with. -/
def TxCommitment.matchesTask (cfg : Config) (c : TxCommitment) (task : TaskRow) : Bool :=
  c.txMerkleRoot = task.txMerkleRoot &&
    c.selectedTxHashesHash =
      textOr task.selectedTxHashesHash (Picoin.selectedTxHashesHash cfg []) &&
    (c.txHashes.length : ℤ) = task.txCount && c.txFeeTotalUnits = task.txFeeTotalUnits

/-! ## The block -/

/-- `_reward_account_for_miner`: the account and its type. -/
def rewardAccountForMiner (cfg : Config) (miners : Sql.Table String MinerRow) (minerId : String) :
    String × String :=
  match (miners.find? minerId).bind MinerRow.rewardAddress with
  | none => (minerId, "miner")
  | some address =>
    if address ≠ "" ∧ isValidAddress cfg (some address) then (address, "wallet")
    else (minerId, "miner")

/-- What the callers of `_accept_block_in_connection` take from the validation job. -/
structure BlockClaim where
  taskId : String
  task : TaskRow
  minerId : String
  resultHash : String
  merkleRoot : Option String
  samples : Json.Value
  jobId : Option String

/-- The columns of the new block. -/
def draftBlock (mc : MiningConfig) (now : String) (s : MiningState σ) (claim : BlockClaim)
    (params : ℤ × ProtocolParamsRow) (anchor : ChainTip) (commitment : TxCommitment) :
    BlockDraft :=
  let timestamp := blockTimestampForValidationJob mc now (claim.jobId.bind s.jobs.find?)
  let account := rewardAccountForMiner mc.toConfig s.miners claim.minerId
  { height := anchor.height + 1
    previousHash := anchor.blockHash
    minerId := claim.minerId
    rangeStart := claim.task.rangeStart
    rangeEnd := claim.task.rangeEnd
    algorithm := claim.task.algorithm
    resultHash := claim.resultHash
    merkleRoot := claim.merkleRoot
    samples := claim.samples
    timestamp
    reward := calculateMinerReward mc params.2
    txMerkleRoot := commitment.txMerkleRoot
    txCount := commitment.txHashes.length
    txHashes := commitment.txHashes
    feeReward := unitsToFloat commitment.txFeeTotalUnits
    minerRewardAddress := if account.2 = "wallet" then some account.1 else none
    difficulty := calculateDifficulty mc params.2
    taskId := claim.taskId
    protocolParamsId := params.1
    protocolVersion := params.2.protocolVersion
    validationMode := params.2.validationMode
    totalBlockMs := validationBlockElapsedMs mc claim.task timestamp }

/-- The row of the new block. -/
def newBlockRow (cfg : Config) (draft : BlockDraft) (validationMs : Option ℤ) : MinedBlockRow where
  toBlockDraft := draft
  blockHash := hashBlock cfg (acceptedPayload draft)
  validationMs := validationMs
  fraudulent := false
  fraudReason := none
  fraudDetectedAt := none

/-- `_mark_block_fraudulent`. -/
def markBlockFraudulent (blocks : List MinedBlockRow) (mark : FraudMark) : List MinedBlockRow :=
  blocks.map fun block =>
    if block.height = mark.height then
      { block with
        fraudulent := true
        fraudReason := some mark.reason
        fraudDetectedAt := some mark.detectedAt }
    else block

/-! ## Closing a round -/

/-- `_mark_competitive_task_stale`. -/
def markCompetitiveTaskStale (s : MiningState σ) (taskId reason timestamp : String) :
    MiningState σ :=
  { s with
    tasks := s.tasks.modify taskId fun task =>
      if task.status.active then
        { task with
          status := .stale
          submittedAt := task.submittedAt.or (some timestamp)
          staleAt := some timestamp
          staleReason := some reason }
      else task
    mempool := releaseSelectedTransactions s.mempool taskId timestamp
    jobs := s.jobs.mapRows fun _ job =>
      if job.taskId = taskId ∧ job.status = .pending then
        { job with
          status := .rejected
          resultReason := some reason
          completedAt := job.completedAt.or (some timestamp) }
      else job }

/-- The other active tasks of the round. -/
def openCompetitors (s : MiningState σ) (taskId : String) (task : TaskRow) : List String :=
  let assignmentSeed := clean task.assignmentSeed
  if task.competitive = false ∨ assignmentSeed = "" then []
  else (s.tasks.rows.filter fun r => r.2.competitive && r.2.assignmentSeed = some assignmentSeed &&
    r.1 ≠ taskId && r.2.status.active).map Prod.fst

/-- `_close_competitive_round_after_block`. -/
def closeCompetitiveRoundAfterBlock (s : MiningState σ) (taskId : String) (task : TaskRow)
    (height : ℤ) (timestamp : String) : MiningState σ :=
  (openCompetitors s taskId task).foldl
    (fun s other => markCompetitiveTaskStale s other
      s!"competitive round won by {taskId} at block {height}" timestamp) s

/-! ## Acceptance -/

/-- The tables with the new block in them, before its round is closed. -/
def insertBlock (services : BlockServices σ) (s : MiningState σ) (block : MinedBlockRow)
    (settlement : Settlement σ) : MiningState σ :=
  let blocks := s.blocks ++ [block]
  { s with
    blocks := settlement.fraud.elim blocks (markBlockFraudulent blocks)
    tasks := s.tasks.modify block.taskId fun task =>
      { task with status := .accepted, submittedAt := some block.timestamp }
    mempool := s.mempool.mapRows fun txHash row =>
      if txHash ∈ block.txHashes then
        { row with status := .confirmed, selectedTaskId := none }
      else row
    protocolParams := services.retarget s.protocolParams blocks
    validators := settlement.validators
    services := settlement.services }

/-- The unique columns of `blocks`. -/
def MinedBlockRow.conflicts (block other : MinedBlockRow) : Bool :=
  other.resultHash = block.resultHash || other.blockHash = block.blockHash ||
    other.taskId = block.taskId

/-- `_accept_block_in_connection`; the block and the tables after it. -/
def acceptBlock (mc : MiningConfig) (services : BlockServices σ) (now : String)
    (s : MiningState σ) (claim : BlockClaim) (params : ℤ × ProtocolParamsRow)
    (validationMs : Option ℤ) : Except AcceptError (MinedBlockRow × MiningState σ) :=
  match s.blocks.find? fun block => block.taskId = claim.taskId with
  | some existing => .ok (existing, s)
  | none => do
    let anchor := blockAnchorForTask s claim.task
    ensureBlockAnchorIsLocalTip s anchor
    ensureCompetitiveTaskCanFinalize s claim.taskId claim.task
    let transactions ← loadSnapshotTransactions mc s claim.taskId
    let commitment := transactionCommitment mc.toConfig transactions
    if !commitment.matchesTask mc.toConfig claim.task then
      let taskId := claim.taskId
      .error (.transaction s!"tx snapshot mismatch for task {taskId}")
    else
      let draft := draftBlock mc now s claim params anchor.1 commitment
      let block := newBlockRow mc.toConfig draft validationMs
      if s.blocks.any block.conflicts then
        .error (.other (.integrity "UNIQUE constraint failed: blocks"))
      else
        let settlement ← services.settle s.validators s.services draft
        let s := insertBlock services s block settlement
        let s := closeCompetitiveRoundAfterBlock s claim.taskId claim.task draft.height
          draft.timestamp
        -- a `ConsensusError`, which none of the callers catches
        if !validatesLocalProposal mc.toConfig block then
          .error (.other (.mining 422 "block_hash does not match canonical payload"))
        else return (block, s)

/-! ## What an acceptance does -/

theorem ensureBlockAnchorIsLocalTip_eq_ok {s : MiningState σ} {task : TaskRow} {u : Unit}
    (h : ensureBlockAnchorIsLocalTip s (blockAnchorForTask s task) = .ok u) :
    (blockAnchorForTask s task).1 = s.tip := by
  unfold ensureBlockAnchorIsLocalTip at h
  split at h
  · next hanchor =>
    rcases hanchor with hfalse | htip
    · unfold blockAnchorForTask at hfalse ⊢
      dsimp only at hfalse ⊢
      split at hfalse
      · split at hfalse
        · cases hfalse
        · next hnot => rw [if_neg hnot]
      · rfl
    · exact htip
  · cases h

/-- The transactions of a snapshot have the hashes that the snapshot lists. -/
theorem loadSnapshotTransactions_eq_ok {mc : MiningConfig} {s : MiningState σ} {taskId : String}
    {transactions : List (String × ℤ)}
    (h : loadSnapshotTransactions mc s taskId = .ok transactions) :
    transactions.map Prod.fst = taskTxHashes mc s taskId := by
  unfold loadSnapshotTransactions at h
  generalize taskTxHashes mc s taskId = txHashes at h ⊢
  induction txHashes generalizing transactions with
  | nil =>
    cases h
    rfl
  | cons txHash rest ih =>
    rw [List.mapM_cons] at h
    obtain ⟨transaction, hfirst, h⟩ := bind_eq_ok.mp h
    obtain ⟨others, hrest, h⟩ := bind_eq_ok.mp h
    cases h
    rw [List.map_cons, ih hrest]
    split at hfirst
    · cases hfirst
    · cases hfirst
      rfl

/-- A new block is built on the tip from the task's frozen transactions; an old one is returned. -/
theorem acceptBlock_eq_ok {mc : MiningConfig} {services : BlockServices σ} {now : String}
    {s s' : MiningState σ} {claim : BlockClaim} {params : ℤ × ProtocolParamsRow}
    {validationMs : Option ℤ} {block : MinedBlockRow}
    (h : acceptBlock mc services now s claim params validationMs = .ok (block, s')) :
    (s.blocks.find? (fun block => block.taskId = claim.taskId) = some block ∧ s' = s) ∨
    ∃ transactions settlement,
      let commitment := transactionCommitment mc.toConfig transactions
      let draft := draftBlock mc now s claim params s.tip commitment
      loadSnapshotTransactions mc s claim.taskId = .ok transactions ∧
      commitment.matchesTask mc.toConfig claim.task = true ∧
      services.settle s.validators s.services draft = .ok settlement ∧
      block = newBlockRow mc.toConfig draft validationMs ∧
      (s.blocks.any block.conflicts = false ∧ validatesLocalProposal mc.toConfig block = true) ∧
      s' = closeCompetitiveRoundAfterBlock (insertBlock services s block settlement) claim.taskId
        claim.task draft.height draft.timestamp := by
  unfold acceptBlock at h
  split at h
  · next existing hexisting =>
    cases h
    exact .inl ⟨hexisting, rfl⟩
  -- the checks in the order of the source
  obtain ⟨_, hanchor, h⟩ := bind_eq_ok.mp h
  obtain ⟨_, -, h⟩ := bind_eq_ok.mp h
  obtain ⟨transactions, hload, h⟩ := bind_eq_ok.mp h
  rw [ensureBlockAnchorIsLocalTip_eq_ok hanchor] at h
  dsimp only at h
  split at h
  · cases h
  next hmatches =>
  split at h
  · cases h
  next hconflicts =>
  obtain ⟨settlement, hsettle, h⟩ := bind_eq_ok.mp h
  split at h
  · cases h
  next hvalidates =>
  cases h
  rw [Bool.not_eq_true, Bool.not_eq_false'] at hmatches hvalidates
  rw [Bool.not_eq_true] at hconflicts
  exact .inr ⟨transactions, settlement, hload, hmatches, hsettle, rfl, ⟨hconflicts, hvalidates⟩, rfl⟩

/-- What closing a round leaves alone. -/
theorem closeCompetitiveRoundAfterBlock_blocks (s : MiningState σ) (taskId : String)
    (task : TaskRow) (height : ℤ) (timestamp : String) :
    (closeCompetitiveRoundAfterBlock s taskId task height timestamp).blocks = s.blocks ∧
      (closeCompetitiveRoundAfterBlock s taskId task height timestamp).base = s.base ∧
      (closeCompetitiveRoundAfterBlock s taskId task height timestamp).validators =
        s.validators := by
  unfold closeCompetitiveRoundAfterBlock
  generalize openCompetitors s taskId task = others
  induction others generalizing s with
  | nil => exact ⟨rfl, rfl, rfl⟩
  | cons other rest ih => exact ih (markCompetitiveTaskStale s other _ timestamp)

end Picoin
