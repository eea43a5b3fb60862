import Picoin.Services.Validation

/-!
# The tasks of miners

A miner is assigned a task, and the pending transactions that a block could execute are frozen for
it: they are selected for the task until its block is accepted, or until they are released. The
tasks of a round share the transactions that were frozen for the first of them.

A task leaves the miner's hands when its time runs out, when its round is won by another task, or
when the validation of its result ends. `expireAssignedTasks` cleans up.
-/

namespace Picoin

open Outcome

/-! ## Settings -/

/-- The range of a task, with the round that it competes in. -/
structure Assignment where
  rangeStart : ℤ
  rangeEnd : ℤ
  assignmentSeed : String
  roundHeight : Option ℤ
  previousHash : Option String

/-- What `select_transactions_for_task` finds among the pending transactions: those that fail, and
those that a block can execute, with their fees. -/
structure TaskSelection where
  failed : List String
  selected : List (String × ℤ)

/-- The settings of tasks, and what depends on tables that are not modelled here: the balances and
nonces that the selection reads, the ranges that are free, the heartbeats of validators. -/
structure TaskConfig (σ : Type) extends MiningConfig where
  competitiveMode : Bool
  maxTransactionsPerBlock : ℕ
  selectTransactionsForTask : MiningState σ → ℕ → ℤ → TaskSelection
  competitiveRoundAssignment : MiningState σ → ℤ × ProtocolParamsRow → Except MiningError Assignment
  assignPseudoRandomRange : MiningState σ → String → String → ℤ × ProtocolParamsRow →
    Except MiningError Assignment
  taskExpiry : Instant → ProtocolParamsRow → ℤ → String
  resolveMaxPosition : ProtocolParamsRow → ℤ
  eligibleValidators : MiningState σ → List String
  assignmentTimedOut : Instant → String → Bool
  checkMiner : Instant → MiningState σ → String → Except MiningError Unit
  challengeSamples : ℤ → ℤ → String → ℤ → String
  samplePositions : String → List ℤ

variable {σ : Type}

/-! ## Snapshots -/

/-- The text of `json.dumps` with the separators of a snapshot. -/
def txHashesJson (txHashes : List String) : String :=
  Json.canonicalJson (.arr (txHashes.map .str))

/-- `_snapshot_id_for_task`. -/
def snapshotIdForTask (mc : MiningConfig) (taskId : String) (blockHeight : ℤ)
    (commitment : TxCommitment) : String :=
  mc.hashJson (.obj [("block_height", .int blockHeight), ("task_id", .str taskId),
    ("tx_hashes", .arr (commitment.txHashes.map .str)),
    ("tx_merkle_root", .str commitment.txMerkleRoot),
    ("tx_fee_total_units", .int commitment.txFeeTotalUnits)])

/-- The columns of a task that name its snapshot. -/
def TaskRow.withSnapshot (snapshotId : String) (commitment : TxCommitment) (task : TaskRow) :
    TaskRow :=
  { task with
    mempoolSnapshotId := some snapshotId
    selectedTxHashes := txHashesJson commitment.txHashes
    txMerkleRoot := commitment.txMerkleRoot
    txCount := commitment.txHashes.length
    txFeeTotalUnits := commitment.txFeeTotalUnits
    selectedTxHashesHash := some commitment.selectedTxHashesHash }

/-- `_apply_task_tx_snapshot`. -/
def applyTaskTxSnapshot (s : MiningState σ) (taskId snapshotId : String)
    (commitment : TxCommitment) : MiningState σ :=
  { s with tasks := s.tasks.modify taskId (TaskRow.withSnapshot snapshotId commitment) }

/-- `_store_task_tx_snapshot`: a task has one snapshot, and a new one takes the old one's place. -/
def storeTaskTxSnapshot (mc : MiningConfig) (s : MiningState σ) (taskId : String)
    (blockHeight : ℤ) (commitment : TxCommitment) (timestamp : String) :
    Except MiningError (MiningState σ) :=
  let snapshotId := snapshotIdForTask mc taskId blockHeight commitment
  let others := s.snapshots.filterRows fun _ row => row.taskId ≠ taskId
  if (others.find? snapshotId).isSome then
    .error (.integrity "UNIQUE constraint failed: task_tx_snapshots.snapshot_id")
  else
    let s := { s with
      snapshots := others.upsert snapshotId
        { taskId
          blockHeight
          txHashesJson := txHashesJson commitment.txHashes
          txMerkleRoot := commitment.txMerkleRoot
          txCount := commitment.txHashes.length
          txFeeTotalUnits := commitment.txFeeTotalUnits
          createdAt := timestamp } }
    .ok (applyTaskTxSnapshot s taskId snapshotId commitment)

/-- The pending rows that fail in a selection. -/
def failTransactions (mempool : Sql.Table String SelectableRow) (failed : List String) :
    Sql.Table String SelectableRow :=
  mempool.mapRows fun txHash row =>
    if txHash ∈ failed ∧ row.status = .pending then { row with status := .failed } else row

/-- The pending rows that are selected for a task. -/
def markSelected (mempool : Sql.Table String SelectableRow) (taskId : String)
    (txHashes : List String) : Sql.Table String SelectableRow :=
  mempool.mapRows fun txHash row =>
    if txHash ∈ txHashes ∧ row.status = .pending then
      { row with status := .selected, selectedTaskId := some taskId }
    else row

/-- `freeze_transactions_for_task`. -/
def freezeTransactionsForTask (tc : TaskConfig σ) (s : MiningState σ) (taskId : String)
    (blockHeight : ℤ) (timestamp : String) : Except MiningError (MiningState σ) := do
  let selection := tc.selectTransactionsForTask s tc.maxTransactionsPerBlock (blockHeight - 1)
  let commitment := transactionCommitment tc.toConfig selection.selected
  let s := { s with mempool := failTransactions s.mempool selection.failed }
  let s ← storeTaskTxSnapshot tc.toMiningConfig s taskId blockHeight commitment timestamp
  return { s with mempool := markSelected s.mempool taskId commitment.txHashes }

/-- The snapshot of another task of the round: the oldest. -/
def roundSnapshot (s : MiningState σ) (taskId : String) (blockHeight : ℤ) (seed : String) :
    Option (String × TaskTxSnapshotRow) :=
  let ofRound := s.snapshots.rows.filter fun r =>
    r.2.blockHeight = blockHeight && r.2.taskId ≠ taskId &&
      (s.tasks.find? r.2.taskId).any fun task =>
        task.competitive && task.assignmentSeed = some seed
  (ofRound.mergeSort fun a b => a.2.createdAt < b.2.createdAt ||
    (a.2.createdAt = b.2.createdAt && a.2.taskId ≤ b.2.taskId)).head?

/-- The commitment that another task of the round hands on. -/
def reusedCommitment (mc : MiningConfig) (source : TaskTxSnapshotRow) : TxCommitment :=
  let txHashes := (mc.jsonLoads source.txHashesJson).getD []
  { txHashes
    txMerkleRoot := textOr (some source.txMerkleRoot) (txMerkleRoot mc.toConfig txHashes)
    selectedTxHashesHash := selectedTxHashesHash mc.toConfig txHashes
    txFeeTotalUnits := source.txFeeTotalUnits }

/-- `freeze_transactions_for_competitive_round_task`: the first task of a round selects, the others
take its snapshot over. -/
def freezeTransactionsForCompetitiveRoundTask (tc : TaskConfig σ) (s : MiningState σ)
    (taskId : String) (blockHeight : ℤ) (assignmentSeed : Option String) (timestamp : String) :
    Except MiningError (MiningState σ) :=
  let seed := clean assignmentSeed
  match if seed = "" then none else roundSnapshot s taskId blockHeight seed with
  | some (snapshotId, source) =>
    .ok (applyTaskTxSnapshot s taskId snapshotId (reusedCommitment tc.toMiningConfig source))
  | none => freezeTransactionsForTask tc s taskId blockHeight timestamp

/-! ## Closed rounds -/

/-- `_competitive_task_matches_current_round`. -/
def competitiveTaskMatchesCurrentRound (tc : TaskConfig σ) (s : MiningState σ) (task : TaskRow)
    (params : ℤ × ProtocolParamsRow) : Except MiningError Bool :=
  if !task.competitive then .ok true
  else do
    let assignment ← tc.competitiveRoundAssignment s params
    let storedPreviousHash := textOr task.competitiveRoundPreviousHash ""
    return task.competitiveRoundHeight.all (fun height => some height = assignment.roundHeight) &&
      (storedPreviousHash = "" || some storedPreviousHash = assignment.previousHash) &&
      textOr task.assignmentSeed "" = assignment.assignmentSeed &&
      task.rangeStart = assignment.rangeStart && task.rangeEnd = assignment.rangeEnd

/-- `_expire_stale_competitive_task`; tells whether the task was marked. -/
def expireStaleCompetitiveTask (tc : TaskConfig σ) (now : String) (s : MiningState σ)
    (taskId : String) (task : TaskRow) (params : ℤ × ProtocolParamsRow) :
    Except MiningError (MiningState σ × Bool) := do
  let current ← competitiveTaskMatchesCurrentRound tc s task params
  if current then return (s, false)
  else return (markCompetitiveTaskStale s taskId "competitive round closed" now,
    (s.tasks.find? taskId).any fun row => row.status.active)

/-- Why the pending job of a competing task is obsolete. -/
def obsoleteReason (tc : TaskConfig σ) (s : MiningState σ) (taskId : String) (task : TaskRow) :
    Except MiningError (Option String) :=
  let canonical := task.competitiveRoundHeight.bind fun height =>
    s.blocks.find? fun block => block.height = height
  let wonBy := (competitiveRoundWinner s task).filter fun block => block.taskId ≠ taskId
  match wonBy.or (canonical.filter fun block => block.taskId ≠ taskId) with
  | some block =>
    let winner := block.taskId
    let height := block.height
    .ok (some s!"competitive round already won by {winner} at block {height}")
  | none => do
    let params ← protocolParamsForTask s.protocolParams task
    let current ← competitiveTaskMatchesCurrentRound tc s task params
    return if current then none else some "competitive round closed"

/-- A task of the list is marked stale if its pending job is obsolete. -/
def closeObsoleteJob (tc : TaskConfig σ) (now : String) (s : MiningState σ)
    (r : String × TaskRow) : Except MiningError (MiningState σ) := do
  match ← obsoleteReason tc s r.1 r.2 with
  | some reason => return markCompetitiveTaskStale s r.1 reason now
  | none => return s

/-- `_close_obsolete_competitive_validation_jobs`. -/
def closeObsoleteCompetitiveValidationJobs (tc : TaskConfig σ) (now : String)
    (s : MiningState σ) : Except MiningError (MiningState σ) :=
  let competing := s.tasks.rows.filter fun r => r.2.status.active && r.2.competitive &&
    s.jobs.rows.any fun job => job.2.taskId = r.1 && job.2.status = .pending
  (competing.mergeSort fun a b => a.2.createdAt < b.2.createdAt ||
    (a.2.createdAt = b.2.createdAt && a.1 ≤ b.1)).foldlM (closeObsoleteJob tc now) s

/-! ## Finished validations -/

/-- A revealed task is closed with the status of its finished job. -/
def TaskRow.closeRevealed (status : TaskStatus) (timestamp : String) (reason : Option String)
    (task : TaskRow) : TaskRow :=
  if task.status = .revealed then
    { task with
      status
      submittedAt := task.submittedAt.or (some timestamp)
      staleAt := if status = .expired then task.staleAt.or (some timestamp) else task.staleAt
      staleReason := task.staleReason.or reason }
  else task

/-- The loop of `_close_terminal_validation_tasks`. -/
def closeTerminalValidationTask (now : String) (s : MiningState σ) (job : ValidationJobRow) :
    MiningState σ :=
  let timestamp := textOr job.completedAt now
  let close (status : TaskStatus) (reason : Option String) :=
    { s with tasks := s.tasks.modify job.taskId (TaskRow.closeRevealed status timestamp reason) }
  let closeAndRelease (status : TaskStatus) (reason : String) :=
    { close status (some (textOr job.resultReason reason)) with
      mempool := releaseSelectedTransactions s.mempool job.taskId timestamp }
  match job.status with
  | .pending => s
  | .approved =>
    if s.blocks.any fun block => block.taskId = job.taskId then close .accepted none
    else closeAndRelease .expired "approved validation job did not finalize canonical block"
  | .rejected => closeAndRelease .rejected "validation job rejected"
  | .expired => closeAndRelease .expired "validation job expired"

/-- `_close_terminal_validation_tasks`; a task has one job, so that the order does not matter. -/
def closeTerminalValidationTasks (now : String) (s : MiningState σ) : MiningState σ :=
  let finished := s.jobs.rows.filter fun r => r.2.status ≠ .pending &&
    (s.tasks.find? r.2.taskId).any fun task => task.status = .revealed
  finished.foldl (fun s r => closeTerminalValidationTask now s r.2) s

/-! ## Expiry -/

/-- `_release_timed_out_validation_assignments`. -/
def releaseTimedOutValidationAssignments (tc : TaskConfig σ) (now : Instant)
    (s : MiningState σ) : MiningState σ :=
  { s with
    jobs := s.jobs.mapRows fun jobId job =>
      if job.status = .pending ∧ tc.assignmentTimedOut now jobId then
        { job with assignedValidatorId := none }
      else job }

/-- `_revealed_task_has_quorum_path`. -/
def revealedTaskHasQuorumPath (tc : TaskConfig σ) (s : MiningState σ) (taskId : String)
    (task : TaskRow) : Except MiningError Bool :=
  match s.jobs.rows.find? fun r => r.2.taskId = taskId && r.2.status = .pending with
  | none => .ok false
  | some (jobId, job) => do
    let params ← protocolParamsForTask s.protocolParams task
    let required := effectiveRequiredApprovals tc.toMiningConfig params.2
    let counts := validationVoteCounts s.votes jobId
    if required ≤ counts.1 ∨ required ≤ counts.2 then return true
    else if counts = (0, 0) ∧ textOr job.assignedValidatorId "" = "" then return false
    else return (tc.eligibleValidators s).any fun validatorId => !hasVoted s.votes jobId validatorId

/-- The time of the task has run out. -/
def TaskRow.pastExpiry (now : String) (task : TaskRow) : Bool :=
  task.expiresAt.any fun expiresAt => expiresAt ≤ now

/-- The task expires in the clean-up: it is past its time and not on its way to a quorum. -/
def expiresNow (tc : TaskConfig σ) (now : String) (s : MiningState σ) (taskId : String)
    (task : TaskRow) : Except MiningError Bool :=
  if !task.pastExpiry now then .ok false
  else match task.status with
    | .assigned | .committed => .ok true
    | .revealed => (revealedTaskHasQuorumPath tc s taskId task).map not
    | .accepted | .rejected | .stale | .expired => .ok false

/-- The tasks among the rows that expire in the clean-up. -/
def expiringTasks (tc : TaskConfig σ) (now : String) (s : MiningState σ) :
    List (String × TaskRow) → Except MiningError (List String)
  | [] => .ok []
  | r :: rest => do
    let expires ← expiresNow tc now s r.1 r.2
    let others ← expiringTasks tc now s rest
    return if expires then r.1 :: others else others

/-- A task of the clean-up: its pending job expires, and its transactions are released. A task that
is revealed expires itself here. -/
def expireTask (now : String) (s : MiningState σ) (taskId : String) : MiningState σ :=
  { s with
    tasks := s.tasks.modify taskId fun task =>
      if task.status = .revealed then { task with status := .expired } else task
    jobs := s.jobs.mapRows fun _ job =>
      if job.taskId = taskId ∧ job.status = .pending then
        { job with status := .expired, completedAt := some now }
      else job
    mempool := releaseSelectedTransactions s.mempool taskId now }

/-- What `_expire_assigned_tasks` does to the tasks whose time it finds run out when it lists
them. -/
def expireListedTasks (tc : TaskConfig σ) (now : Instant) (s : MiningState σ) :
    Except MiningError (MiningState σ) := do
  let s := releaseTimedOutValidationAssignments tc now s
  let s := closeTerminalValidationTasks (isoformat now) s
  let s ← closeObsoleteCompetitiveValidationJobs tc (isoformat now) s
  let expiring ← expiringTasks tc (isoformat now) s s.tasks.rows
  return expiring.foldl (expireTask (isoformat now)) s

/-- The rows that the `UPDATE tasks` of the clean-up takes. -/
def TaskRow.runsOut (swept : Instant) (task : TaskRow) : Bool :=
  (task.status = .assigned || task.status = .committed) && task.pastExpiry (isoformat swept)

/-- The `UPDATE tasks` of the clean-up. It reads the clock again, and not the list. -/
def expireRunOutTasks (swept : Instant) (s : MiningState σ) : MiningState σ :=
  { s with
    tasks := s.tasks.mapRows fun _ task =>
      if task.runsOut swept then { task with status := .expired } else task }

/-- `_expire_assigned_tasks`, which looks at the clock `now` and again when it has been `swept`. The
`UPDATE tasks` comes before the releases in the source; the two touch different columns and, in
`tasks`, different rows. -/
def expireAssignedTasks (tc : TaskConfig σ) (now swept : Instant) (s : MiningState σ) :
    Except MiningError (MiningState σ) := do
  let s ← expireListedTasks tc now s
  return expireRunOutTasks swept s

end Picoin
