import Picoin.Services.Assignment

/-!
# Assigning, committing and revealing

A miner asks for a task (`createNextTask`), commits to the result (`commitTask`) and reveals the
samples that it is challenged with (`revealTask`), which starts the validation.

An expired task is taken up again while nobody has won its round. What is only recorded about a
submission, and the penalties of miners, are left out.
-/

namespace Picoin

open Outcome

variable {σ : Type}

/-! ## Taking up an expired task -/

/-- `_expired_competitive_task_matches_assignment`. -/
def TaskRow.matchesAssignment (task : TaskRow) (assignment : Assignment) : Bool :=
  textOr task.assignmentSeed "" = assignment.assignmentSeed &&
    task.competitiveRoundHeight = some (assignment.roundHeight.getD 0) &&
    textOr task.competitiveRoundPreviousHash "" = textOr assignment.previousHash "" &&
    task.rangeStart = assignment.rangeStart && task.rangeEnd = assignment.rangeEnd

/-- `_expired_competitive_task_targets_current_tip`. -/
def expiredTaskTargetsCurrentTip (s : MiningState σ) (task : TaskRow) : Bool :=
  let previousHash := textOr task.competitiveRoundPreviousHash ""
  task.competitiveRoundHeight = some (s.tip.height + 1) &&
    (previousHash = "" || previousHash = s.tip.blockHash)

/-- An expired task that may be worked on again, and whether its result is committed. -/
def canReactivate (s : MiningState σ) (taskId : String) (task : TaskRow)
    (assignment : Option Assignment) : Bool :=
  task.status = .expired && task.competitive && (competitiveRoundWinner s task).isNone &&
    !(s.jobs.rows.any fun r => r.2.taskId = taskId) &&
    (assignment.any task.matchesAssignment ||
      ((s.commitments.find? taskId).isSome && expiredTaskTargetsCurrentTip s task))

/-- The row of a task that is taken up again. -/
def TaskRow.reactivate (status : TaskStatus) (now expiresAt : String) (task : TaskRow) : TaskRow :=
  if task.status = .expired then
    { task with
      status
      createdAt := now
      expiresAt := some expiresAt
      submittedAt := none
      staleAt := none
      staleReason := none
      computeMs := none }
  else task

/-- `_reactivate_expired_competitive_task`; `none` leaves the task expired. -/
def reactivateExpiredCompetitiveTask (tc : TaskConfig σ) (now : Instant) (s : MiningState σ)
    (taskId : String) (task : TaskRow) (assignment : Option Assignment)
    (params : ℤ × ProtocolParamsRow) : Except MiningError (Option (MiningState σ)) := do
  if !canReactivate s taskId task assignment then return none
  else
    let expiresAt := tc.taskExpiry now params.2 task.rangeEnd
    let committed := (s.commitments.find? taskId).isSome
    let status : TaskStatus := if committed then .committed else .assigned
    let s := { s with
      tasks := s.tasks.modify taskId (TaskRow.reactivate status (isoformat now) expiresAt) }
    if committed then return some s
    else
      let s := { s with
        mempool := releaseSelectedTransactions s.mempool taskId (isoformat now) }
      let height := (assignment.bind Assignment.roundHeight).getD (task.competitiveRoundHeight.getD 0)
      let seed := (assignment.map Assignment.assignmentSeed).or task.assignmentSeed
      let s ← freezeTransactionsForCompetitiveRoundTask tc s taskId height seed (isoformat now)
      return some s

/-! ## The next task -/

/-- What a miner asks with. The ids are those that the source draws or derives. -/
structure NextTaskRequest where
  minerId : String
  /-- The clean-up is not skipped as recent. -/
  cleanUp : Bool
  taskId : Option Assignment → String
  retryTaskId : Assignment → String

/-- The row of a new task. -/
def assignedTaskRow (now expiresAt minerId assignmentMode : String) (params : ℤ × ProtocolParamsRow)
    (assignment : Assignment) : TaskRow where
  minerId := minerId
  rangeStart := assignment.rangeStart
  rangeEnd := assignment.rangeEnd
  algorithm := params.2.algorithm
  status := .assigned
  assignmentSeed := some assignment.assignmentSeed
  assignmentMode := some assignmentMode
  competitiveRoundHeight := assignment.roundHeight
  competitiveRoundPreviousHash := assignment.previousHash
  assignmentMs := none
  computeMs := none
  protocolParamsId := some params.1
  createdAt := now
  expiresAt := some expiresAt
  submittedAt := none
  staleAt := none
  staleReason := none
  mempoolSnapshotId := none
  selectedTxHashes := "[]"
  txMerkleRoot := ""
  txCount := 0
  txFeeTotalUnits := 0
  selectedTxHashesHash := none

/-- The `INSERT INTO tasks`, and the transactions that are frozen for the task. -/
def insertTask (tc : TaskConfig σ) (now : Instant) (s : MiningState σ) (minerId taskId : String)
    (params : ℤ × ProtocolParamsRow) (assignment : Assignment) : Except MiningError (MiningState σ) :=
  let expiresAt := tc.taskExpiry now params.2 assignment.rangeEnd
  let mode := if tc.competitiveMode then competitiveRoundAssignmentMode
    else params.2.rangeAssignmentMode
  let height := intOr assignment.roundHeight (s.tip.height + 1)
  let task := assignedTaskRow (isoformat now) expiresAt minerId mode params assignment
  let s := { s with tasks := s.tasks.upsert taskId task }
  if mode = competitiveRoundAssignmentMode then
    freezeTransactionsForCompetitiveRoundTask tc s taskId height (some assignment.assignmentSeed)
      (isoformat now)
  else freezeTransactionsForTask tc s taskId height (isoformat now)

/-- A task under a new id; one that is there already is taken up again if that is possible. -/
def assignTask (tc : TaskConfig σ) (now : Instant) (s : MiningState σ) (minerId taskId : String)
    (params : ℤ × ProtocolParamsRow) (assignment : Assignment) :
    Except MiningError (MiningState σ) :=
  match s.tasks.find? taskId with
  | none => insertTask tc now s minerId taskId params assignment
  | some task => do
    let revived ← reactivateExpiredCompetitiveTask tc now s taskId task (some assignment) params
    return revived.getD s

/-- `_competitive_round_has_pending_validation_job`. -/
def roundHasPendingValidationJob (s : MiningState σ) (assignmentSeed : String) : Bool :=
  let seed := strip assignmentSeed
  seed ≠ "" && s.jobs.rows.any fun r => (r.2.status = .pending || r.2.status = .approved) &&
    (s.tasks.find? r.2.taskId).any fun task =>
      task.status = .revealed && task.competitive && task.assignmentSeed = some seed

/-- The new task of `create_next_task`. -/
def assignNextTask (tc : TaskConfig σ) (now : Instant) (s : MiningState σ) (r : NextTaskRequest)
    (params : ℤ × ProtocolParamsRow) : Except MiningError (MiningState σ) := do
  if tc.competitiveMode then
    let assignment ← tc.competitiveRoundAssignment s params
    if roundHasPendingValidationJob s assignment.assignmentSeed then
      .error (.mining 429 "competitive round is waiting for validation; retry after next block")
    else
      let taskId := r.taskId (some assignment)
      match s.tasks.find? taskId with
      | none => assignTask tc now s r.minerId taskId params assignment
      | some task =>
        match ← reactivateExpiredCompetitiveTask tc now s taskId task (some assignment) params with
        | some revived => return revived
        | none =>
          if task.status.active then return s
          else assignTask tc now s r.minerId (r.retryTaskId assignment) params assignment
  else
    let taskId := r.taskId none
    let assignment ← tc.assignPseudoRandomRange s r.minerId taskId params
    assignTask tc now s r.minerId taskId params assignment

/-- The miner's oldest active task. -/
def activeTask (s : MiningState σ) (minerId : String) : Option (String × TaskRow) :=
  let active := s.tasks.rows.filter fun r => r.2.minerId = minerId && r.2.status.active
  (active.mergeSort fun a b => a.2.createdAt ≤ b.2.createdAt).head?

/-- The miner's expired tasks that `_resume_expired_committed_competitive_task_for_miner` tries. -/
def resumableTasks (s : MiningState σ) (minerId : String) : List (String × TaskRow) :=
  let expired := s.tasks.rows.filter fun r => r.2.minerId = minerId && r.2.status = .expired &&
    r.2.competitive && (s.commitments.find? r.1).isSome &&
    !(s.jobs.rows.any fun job => job.2.taskId = r.1)
  let key (r : String × TaskRow) := r.2.competitiveRoundHeight.getD 0
  (expired.mergeSort fun a b => key b < key a || (key a = key b &&
    (b.2.createdAt < a.2.createdAt || (a.2.createdAt = b.2.createdAt && b.1 ≤ a.1)))).take 10

/-- The first of the tasks that can be taken up again. -/
def resumeFirst (tc : TaskConfig σ) (now : Instant) (s : MiningState σ)
    (params : ℤ × ProtocolParamsRow) :
    List (String × TaskRow) → Except MiningError (Option (MiningState σ))
  | [] => .ok none
  | (taskId, task) :: rest => do
    match ← reactivateExpiredCompetitiveTask tc now s taskId task none params with
    | some revived => return some revived
    | none => resumeFirst tc now s params rest

/-- The active task of the miner is handed out again; `none` if its time is up or its round is
closed, with the tables after that. -/
def useActiveTask (tc : TaskConfig σ) (now : Instant) (s : MiningState σ) (minerId : String)
    (params : ℤ × ProtocolParamsRow) : Except MiningError (MiningState σ × Option String) :=
  match activeTask s minerId with
  | none => .ok (s, none)
  | some (taskId, task) =>
    if (task.expiresAt.bind tc.parseIso).any fun expiresAt => expiresAt ≤ now then
      .ok ({ s with
        tasks := s.tasks.modify taskId fun task => { task with status := .expired }
        mempool := releaseSelectedTransactions s.mempool taskId (isoformat now) }, none)
    else do
      let (s, stale) ←
        (if tc.competitiveMode then expireStaleCompetitiveTask tc (isoformat now) s taskId task params
        else .ok (s, false))
      -- the miner gets another task
      if stale then return (s, none)
      else if tc.resolveMaxPosition params.2 < task.rangeEnd then
        .error (.mining 409 "active task exceeds RETARGET_MAX_PI_POSITION")
      else return (s, some taskId)

/-- `create_next_task`: the tables after the request. The checks of the miner are `checkMiner`. -/
def createNextTask (tc : TaskConfig σ) (now swept : Instant) (s : MiningState σ)
    (r : NextTaskRequest) : Except MiningError (MiningState σ) := do
  let s ← (if r.cleanUp then expireAssignedTasks tc now swept s else .ok s)
  tc.checkMiner now s r.minerId
  let params ← activeProtocolParams s.protocolParams
  let resumed ←
    (if tc.competitiveMode then resumeFirst tc now s params (resumableTasks s r.minerId)
    else .ok none)
  match resumed with
  | some revived => return revived
  | none =>
    let (s, active) ← useActiveTask tc now s r.minerId params
    if active.isSome then return s
    else
      let count := s.tasks.rows.countP fun t => t.2.minerId = r.minerId && t.2.status.active
      if params.2.maxActiveTasksPerMiner ≤ (count : ℤ) then
        .error (.mining 429 "miner has too many active tasks")
      else assignNextTask tc now s r params

/-! ## Frozen transactions -/

/-- What a commitment or a reveal says about the transactions of its task. -/
structure FrozenFields where
  txMerkleRoot : String
  mempoolSnapshotId : String
  selectedTxHashesHash : String
  txCount : ℤ
  txFeeTotalUnits : ℤ
deriving DecidableEq

/-- `get_task_tx_snapshot`, as the fields that a commitment has to repeat. -/
def snapshotFields (mc : MiningConfig) (s : MiningState σ) (taskId : String) :
    Option FrozenFields :=
  let own := s.snapshots.rows.find? fun r => r.2.taskId = taskId
  let named := do
    let task ← s.tasks.find? taskId
    let snapshotId ← task.mempoolSnapshotId
    (s.snapshots.find? snapshotId).map fun row => (snapshotId, row)
  (own.or named).map fun r =>
    let txHashes := (mc.jsonLoads r.2.txHashesJson).getD []
    { txMerkleRoot := r.2.txMerkleRoot
      mempoolSnapshotId := r.1
      selectedTxHashesHash := selectedTxHashesHash mc.toConfig txHashes
      txCount := intOr (some r.2.txCount) txHashes.length
      txFeeTotalUnits := r.2.txFeeTotalUnits }

/-- The fields of a stored commitment. -/
def CommitmentRow.frozenFields (row : CommitmentRow) : FrozenFields where
  txMerkleRoot := row.txMerkleRoot
  mempoolSnapshotId := textOr row.mempoolSnapshotId ""
  selectedTxHashesHash := textOr row.selectedTxHashesHash ""
  txCount := row.txCount
  txFeeTotalUnits := row.txFeeTotalUnits

/-! ## Committing -/

/-- What `commit_task` is called with. -/
structure CommitRequest where
  taskId : String
  minerId : String
  resultHash : String
  merkleRoot : String
  signature : String
  signedAt : String
  computeMs : Option ℤ
  frozen : FrozenFields

/-- `build_commit_signature_payload`; the transaction part is left out for a legacy payload. -/
def CommitRequest.payload (mc : MiningConfig) (task : TaskRow) (r : CommitRequest)
    (frozen : FrozenFields) (legacy : Bool) : Json.Value :=
  .obj ([("algorithm", .str task.algorithm), ("merkle_root", .str r.merkleRoot),
    ("miner_id", .str r.minerId), ("range_end", .int task.rangeEnd),
    ("range_start", .int task.rangeStart), ("result_hash", .str r.resultHash),
    ("signed_at", .str r.signedAt), ("task_id", .str r.taskId)] ++
    if legacy then [] else
      [("tx_merkle_root", .str frozen.txMerkleRoot),
        ("mempool_snapshot_id", .str frozen.mempoolSnapshotId),
        ("selected_tx_hashes_hash", .str frozen.selectedTxHashesHash),
        ("tx_count", .int frozen.txCount), ("tx_fee_total_units", .int frozen.txFeeTotalUnits),
        ("chain_id", mc.chainId.toJson), ("network_id", .str mc.networkId)])

/-- The miner has signed the commitment. -/
def CommitRequest.verifies (mc : MiningConfig) (task : TaskRow) (miner : MinerRow)
    (r : CommitRequest) (frozen : FrozenFields) : Bool :=
  let signed (legacy : Bool) := mc.verifyPayloadSignature (textOr miner.publicKey "")
    (r.payload mc task frozen legacy) r.signature
  signed false || (frozen.txCount = 0 && signed true)

/-- What a commitment comes to. -/
inductive CommitDecision where
  | rejected (message : String)
  | known
  | stale (reason : String)
  | roundClosed
  | expired
  | commit (frozen : FrozenFields)

/-- The checks of `commit_task` for a task that is assigned; the time is read again as `later`. -/
def commitAssigned (tc : TaskConfig σ) (later : Instant) (s : MiningState σ) (r : CommitRequest)
    (task : TaskRow) (miner : MinerRow) : CommitDecision :=
  match snapshotFields tc.toMiningConfig s r.taskId with
  | none => .rejected "tx snapshot not found for task"
  | some frozen =>
    if r.frozen ≠ frozen then .rejected "invalid_tx_commitment"
    else if (task.expiresAt.bind tc.parseIso).any fun expiresAt => expiresAt ≤ later then .expired
    else if s.blocks.any fun b => b.resultHash = r.resultHash || b.taskId = r.taskId then
      .rejected "duplicate result or task"
    else if r.verifies tc.toMiningConfig task miner frozen then .commit frozen
    else .rejected "invalid miner signature"

/-- The checks of `commit_task` for a result that is committed already. -/
def commitAgain (tc : TaskConfig σ) (s : MiningState σ) (r : CommitRequest) (task : TaskRow)
    (miner : MinerRow) : CommitDecision :=
  match (s.commitments.find? r.taskId).filter fun row => row.minerId = r.minerId with
  | none => .rejected "commitment not found"
  | some row =>
    -- the same commitment again is answered as the first was
    if r.resultHash ≠ row.resultHash ∨ r.merkleRoot ≠ row.merkleRoot then
      .rejected "commitment mismatch"
    else if r.frozen ≠ row.frozenFields then .rejected "invalid_tx_commitment"
    else if r.verifies tc.toMiningConfig task miner row.frozenFields then .known
    else .rejected "invalid miner signature"

/-- What `commit_task` decides after the clean-up, by the status of the task. -/
def commitDecision (tc : TaskConfig σ) (later : Instant) (s : MiningState σ) (r : CommitRequest)
    (task : TaskRow) (miner : MinerRow) : Except MiningError CommitDecision :=
  match task.status with
  -- no round is looked up for a commitment that is there
  | .committed => .ok (commitAgain tc s r task miner)
  | .stale => .ok (.stale (textOr task.staleReason "competitive round closed"))
  | .assigned => do
    let params ← protocolParamsForTask s.protocolParams task
    let current ←
      (if tc.competitiveMode then competitiveTaskMatchesCurrentRound tc s task params else .ok true)
    return if current then commitAssigned tc later s r task miner else .roundClosed
  | .revealed => .ok (.rejected "task is not active: revealed")
  | .accepted => .ok (.rejected "task is not active: accepted")
  | .rejected => .ok (.rejected "task is not active: rejected")
  | .expired => .ok (.rejected "task is not active: expired")

/-- The row of a commitment. -/
def commitmentRow (tc : TaskConfig σ) (now : String) (s : MiningState σ) (r : CommitRequest)
    (task : TaskRow) (params : ProtocolParamsRow) (frozen : FrozenFields) : CommitmentRow :=
  let previousHash := (s.blocks.getLast?.map MinedBlockRow.blockHash).getD tc.genesisHash
  let challengeSeed := tc.hashJson (.obj [("merkle_root", .str r.merkleRoot),
    ("previous_hash", .str previousHash), ("result_hash", .str r.resultHash),
    ("task_id", .str r.taskId)])
  { minerId := r.minerId
    resultHash := r.resultHash
    merkleRoot := r.merkleRoot
    challengeSeed
    samples := tc.challengeSamples task.rangeStart task.rangeEnd challengeSeed params.sampleCount
    txMerkleRoot := frozen.txMerkleRoot
    mempoolSnapshotId := some frozen.mempoolSnapshotId
    selectedTxHashesHash := some frozen.selectedTxHashesHash
    txCount := frozen.txCount
    txFeeTotalUnits := frozen.txFeeTotalUnits
    signature := r.signature
    signedAt := r.signedAt
    commitMs := none
    createdAt := now }

/-- The `INSERT INTO commitments`, and the committed task. -/
def storeCommitment (tc : TaskConfig σ) (now : String) (s : MiningState σ) (r : CommitRequest)
    (task : TaskRow) (frozen : FrozenFields) : Except MiningError (MiningState σ) := do
  let params ← protocolParamsForTask s.protocolParams task
  match s.commitments.insert? r.taskId (commitmentRow tc now s r task params.2 frozen) with
  | none => .error (.integrity "UNIQUE constraint failed: commitments.task_id")
  | some commitments =>
    return { s with
      commitments
      tasks := s.tasks.modify r.taskId fun task =>
        { task with status := .committed, computeMs := r.computeMs.or task.computeMs } }

/-- The task and the miner of a commitment after the clean-up, and the tables then: an expired task
of an open round is taken up again. -/
def prepareCommit (tc : TaskConfig σ) (now swept : Instant) (s : MiningState σ)
    (r : CommitRequest) : Except MiningError (MiningState σ × Option (TaskRow × MinerRow)) := do
  let s ← expireAssignedTasks tc now swept s
  match (s.tasks.find? r.taskId).filter fun task => task.minerId = r.minerId,
      s.miners.find? r.minerId with
  | some task, some miner =>
    if task.status = .expired ∧ tc.competitiveMode then
      let params ← protocolParamsForTask s.protocolParams task
      match ← reactivateExpiredCompetitiveTask tc now s r.taskId task none params with
      | some revived =>
        return (revived, (revived.tasks.find? r.taskId).map fun task => (task, miner))
      | none => return (s, some (task, miner))
    else return (s, some (task, miner))
  | _, _ => return (s, none)

/-- `commit_task`: the tables after the request. -/
def commitTask (tc : TaskConfig σ) (now swept later : Instant) (s : MiningState σ)
    (r : CommitRequest) : Except MiningError (MiningState σ) := do
  let (s, found) ← prepareCommit tc now swept s r
  match found with
  | none => return s
  | some (task, miner) =>
    match ← commitDecision tc later s r task miner with
    | .rejected _ | .known | .stale _ => return s
    | .roundClosed =>
      return markCompetitiveTaskStale s r.taskId "competitive round closed" (isoformat later)
    | .expired =>
      return { s with
        tasks := s.tasks.modify r.taskId fun task => { task with status := .expired } }
    | .commit frozen => storeCommitment tc (isoformat later) s r task frozen

/-! ## Revealing -/

/-- What `reveal_task` is called with; the positions are those of the samples, and the id of the
validation job is the one that the source draws. -/
structure RevealRequest where
  taskId : String
  minerId : String
  samples : Json.Value
  positions : List ℤ
  signature : String
  signedAt : String
  frozen : FrozenFields
  jobId : String

/-- `build_reveal_signature_payload`; the transaction part is left out for a legacy payload. -/
def RevealRequest.payload (r : RevealRequest) (commitment : CommitmentRow) (frozen : FrozenFields)
    (legacy : Bool) : Json.Value :=
  .obj ([("challenge_seed", .str commitment.challengeSeed),
    ("merkle_root", .str commitment.merkleRoot), ("miner_id", .str r.minerId),
    ("signed_at", .str r.signedAt), ("task_id", .str r.taskId)] ++
    if legacy then [] else
      [("tx_merkle_root", .str frozen.txMerkleRoot),
        ("mempool_snapshot_id", .str frozen.mempoolSnapshotId),
        ("selected_tx_hashes_hash", .str frozen.selectedTxHashesHash)])

/-- The miner has signed the reveal. -/
def RevealRequest.verifies (mc : MiningConfig) (r : RevealRequest) (miner : MinerRow)
    (commitment : CommitmentRow) (frozen : FrozenFields) : Bool :=
  let signed (legacy : Bool) := mc.verifyPayloadSignature (textOr miner.publicKey "")
    (r.payload commitment frozen legacy) r.signature
  signed false || (frozen.txCount = 0 && signed true)

/-- What a reveal comes to. -/
inductive RevealDecision where
  | answer
  /-- The reveal is refused, which releases the transactions of the task. -/
  | release
  /-- The task is rejected for its signature, and its transactions are released. -/
  | reject
  | stale (reason : String)
  | validate (frozen : FrozenFields)

/-- The fields that a reveal has to repeat: those of the commitment, else those of the snapshot. -/
def expectedFields (commitment : CommitmentRow) (snapshot : FrozenFields) : FrozenFields where
  txMerkleRoot := commitment.txMerkleRoot
  mempoolSnapshotId := commitment.mempoolSnapshotId.getD snapshot.mempoolSnapshotId
  selectedTxHashesHash := commitment.selectedTxHashesHash.getD snapshot.selectedTxHashesHash
  txCount := commitment.txCount
  txFeeTotalUnits := commitment.txFeeTotalUnits

/-- `_competitive_round_pending_candidate` finds one. -/
def hasPendingCandidate (s : MiningState σ) (taskId : String) (task : TaskRow) : Bool :=
  let seed := clean task.assignmentSeed
  task.competitive && seed ≠ "" && s.jobs.rows.any fun r => r.2.status = .pending &&
    r.2.taskId ≠ taskId && (s.tasks.find? r.2.taskId).any fun other =>
      other.status = .revealed && other.competitive && other.assignmentSeed = some seed

/-- The checks of `reveal_task` for a task that is committed. -/
def revealCommitted (tc : TaskConfig σ) (s : MiningState σ) (r : RevealRequest) (miner : MinerRow)
    (commitment : CommitmentRow) : RevealDecision :=
  match snapshotFields tc.toMiningConfig s r.taskId with
  | none => .release
  | some snapshot =>
    let frozen := expectedFields commitment snapshot
    if r.frozen ≠ frozen then .release
    else if !r.verifies tc.toMiningConfig miner commitment frozen then .reject
    -- as sets: order and repetitions do not matter
    else if !(((tc.samplePositions commitment.samples).all fun p => p ∈ r.positions) &&
        r.positions.all fun p => p ∈ tc.samplePositions commitment.samples) then .release
    else .validate frozen

/-- What `reveal_task` decides after the clean-up, by the status of the task. -/
def revealDecision (tc : TaskConfig σ) (s : MiningState σ) (r : RevealRequest) (task : TaskRow)
    (miner : MinerRow) (commitment : CommitmentRow) : Except MiningError RevealDecision :=
  let known := s.jobs.rows.any fun job => job.2.taskId = r.taskId
  match task.status with
  | .stale => .ok (.stale (textOr task.staleReason "competitive round closed"))
  | .expired => .ok .answer
  | .revealed | .accepted | .rejected => .ok (if known then .answer else .release)
  | .assigned => .ok .release
  | .committed => do
    let params ← protocolParamsForTask s.protocolParams task
    let current ←
      (if tc.competitiveMode then competitiveTaskMatchesCurrentRound tc s task params else .ok true)
    return if !current then .stale "competitive round closed"
    -- another task of the round is being validated: the miner is told to wait
    else if tc.competitiveMode && hasPendingCandidate s r.taskId task then .answer
    else revealCommitted tc s r miner commitment

/-- The validation job of a reveal. -/
def revealedJobRow (now : String) (r : RevealRequest) (commitment : CommitmentRow)
    (frozen : FrozenFields) : ValidationJobRow where
  taskId := r.taskId
  minerId := r.minerId
  resultHash := commitment.resultHash
  merkleRoot := commitment.merkleRoot
  challengeSeed := commitment.challengeSeed
  samples := r.samples
  txMerkleRoot := frozen.txMerkleRoot
  mempoolSnapshotId := some frozen.mempoolSnapshotId
  selectedTxHashesHash := some frozen.selectedTxHashesHash
  txCount := frozen.txCount
  txFeeTotalUnits := frozen.txFeeTotalUnits
  status := .pending
  assignedValidatorId := none
  resultReason := none
  validatorSignature := none
  validationMs := none
  jobCreatedAt := some now
  createdAt := now
  completedAt := none

/-- The validation of a reveal starts, unless it has started already. -/
def startValidation (tc : TaskConfig σ) (now : Instant) (s : MiningState σ) (r : RevealRequest)
    (task : TaskRow) (commitment : CommitmentRow) (frozen : FrozenFields) :
    Except MiningError (MiningState σ) := do
  if s.jobs.rows.any fun job => job.2.taskId = r.taskId then return s
  else
    match loadSnapshotTransactions tc.toMiningConfig s r.taskId with
    | .error _ => .error (.mining 500 "internal server error")
    | .ok _ =>
      let params ← protocolParamsForTask s.protocolParams task
      let expiresAt := tc.taskExpiry now params.2 task.rangeEnd
      match s.jobs.insert? r.jobId (revealedJobRow (isoformat now) r commitment frozen) with
      | none => .error (.integrity "UNIQUE constraint failed: validation_jobs.job_id")
      | some jobs =>
        return { s with
          jobs
          tasks := s.tasks.modify r.taskId fun task =>
            { task with status := .revealed, expiresAt := some expiresAt } }

/-- A refused reveal gives the transactions of its task back. -/
def refuseReveal (now : String) (s : MiningState σ) (taskId : String) : MiningState σ :=
  { s with mempool := releaseSelectedTransactions s.mempool taskId now }

/-- An expired task of an open round is taken up again for its reveal. -/
def reviveForReveal (tc : TaskConfig σ) (now : Instant) (s : MiningState σ) (taskId : String)
    (task : TaskRow) : Except MiningError (Option (MiningState σ)) :=
  if task.status = .expired ∧ tc.competitiveMode then do
    let params ← protocolParamsForTask s.protocolParams task
    reactivateExpiredCompetitiveTask tc now s taskId task none params
  else .ok none

/-- `reveal_task`: the tables after the request. -/
def revealTask (tc : TaskConfig σ) (now swept : Instant) (s : MiningState σ) (r : RevealRequest) :
    Except MiningError (MiningState σ) := do
  let s ← expireAssignedTasks tc now swept s
  match (s.tasks.find? r.taskId).filter fun task => task.minerId = r.minerId,
      s.commitments.find? r.taskId, s.miners.find? r.minerId with
  | some task, some commitment, some miner =>
    let revived ← reviveForReveal tc now s r.taskId task
    let s := revived.getD s
    let task := if revived.isSome then (s.tasks.find? r.taskId).getD task else task
    match ← revealDecision tc s r task miner commitment with
    | .answer => return s
    | .release => return refuseReveal (isoformat now) s r.taskId
    | .reject => return rejectAndRelease s r.taskId (isoformat now)
    | .stale reason => return markCompetitiveTaskStale s r.taskId reason (isoformat now)
    | .validate frozen => startValidation tc now s r task commitment frozen
  | _, _, _ => return refuseReveal (isoformat now) s r.taskId

end Picoin
