import Picoin.Services.Validation

/-!
# Gossip about validation jobs

A node tells its peers about the validation jobs it knows. `receiveValidationJobGossip` stores the
job, and its task and miner if they are unknown. Nothing in the message is signed, and the row that
comes first stays.
-/

namespace Picoin

open Outcome

variable {σ : Type}

/-! ## Messages -/

/-- The job of a message, with what a key holds modelled by its column's type. -/
structure JobMessage where
  jobId : Option String := none
  taskId : Option String := none
  minerId : Option String := none
  status : Option String := none
  resultHash : Option String := none
  merkleRoot : Option String := none
  challengeSeed : Option String := none
  samples : Json.Value := .arr []
  txMerkleRoot : Option String := none
  mempoolSnapshotId : Option String := none
  selectedTxHashesHash : Option String := none
  txCount : Option ℤ := none
  txFeeTotalUnits : Option ℤ := none
  resultReason : Option String := none
  validatorSignature : Option String := none
  validationMs : Option ℤ := none
  jobCreatedAt : Option String := none
  createdAt : Option String := none
  completedAt : Option String := none

structure JobEnvelope where
  job : JobMessage
  task : TaskMessage := {}
  miner : Option MinerMessage := none

/-- `job_id` of a message. -/
def JobEnvelope.jobId (e : JobEnvelope) : String := clean e.job.jobId

/-- `str(job.get("task_id") or task.get("task_id") or "").strip()`. -/
def JobEnvelope.taskId (e : JobEnvelope) : String :=
  strip (textOr e.job.taskId (textOr e.task.taskId ""))

/-- `str(job.get("miner_id") or task.get("miner_id") or "").strip()`. -/
def JobEnvelope.minerId (e : JobEnvelope) : String :=
  strip (textOr e.job.minerId (textOr e.task.minerId ""))

/-- `task.get("tx_merkle_root") or job.get("tx_merkle_root") or ""`. -/
def JobEnvelope.txMerkleRoot (e : JobEnvelope) : String :=
  textOr e.task.txMerkleRoot (textOr e.job.txMerkleRoot "")

def ValidationJobStatus.parse (text : String) : Option ValidationJobStatus :=
  match text with
  | "pending" => some .pending
  | "approved" => some .approved
  | "rejected" => some .rejected
  | "expired" => some .expired
  | _ => none

/-! ## Rows -/

/-- The loop over the columns of a known task: the first that differs. -/
def jobTaskMismatch (row : TaskRow) (task : TaskMessage) : Option String :=
  if row.minerId ≠ task.minerId.getD row.minerId then some "miner_id"
  else if toString row.rangeStart ≠ task.rangeStart.intStrOr row.rangeStart then some "range_start"
  else if toString row.rangeEnd ≠ task.rangeEnd.intStrOr row.rangeEnd then some "range_end"
  else if row.algorithm ≠ task.algorithm.strOr row.algorithm then some "algorithm"
  else none

/-- `_promote_task_for_pending_validation_job_gossip`; `expiry` is the end of the usual time for
the task. -/
def TaskRow.promote (expiry : String) (incoming : TaskMessage) (row : TaskRow) : TaskRow :=
  if row.status ∈ [TaskStatus.assigned, .committed, .expired] then
    { row with
      status := .revealed
      expiresAt := some (textOr incoming.expiresAt expiry)
      staleAt := none
      staleReason := none }
  else row

/-- The task that a message inserts. Texts that name no status are not modelled. -/
def gossipedTaskRow (gc : GossipConfig) (now : String) (params : Sql.Table ℤ ProtocolParamsRow)
    (e : JobEnvelope) : TaskRow where
  minerId := e.minerId
  rangeStart := intOr e.task.rangeStart.get 0
  rangeEnd := intOr e.task.rangeEnd.get 0
  algorithm := textOr e.task.algorithm.get "bbp_hex_v1"
  status := (TaskStatus.parse (textOr e.task.status "revealed")).getD .revealed
  assignmentSeed := e.task.assignmentSeed
  assignmentMode := e.task.assignmentMode
  competitiveRoundHeight := e.task.competitiveRoundHeight
  competitiveRoundPreviousHash := e.task.competitiveRoundPreviousHash
  assignmentMs := e.task.assignmentMs
  computeMs := e.task.computeMs
  protocolParamsId := gossipTaskProtocolParamsId params e.task
  createdAt := textOr e.task.createdAt (textOr e.job.createdAt now)
  expiresAt := e.task.expiresAt
  submittedAt := e.task.submittedAt
  staleAt := e.task.staleAt
  staleReason := e.task.staleReason
  mempoolSnapshotId := e.task.mempoolSnapshotId.or e.job.mempoolSnapshotId
  selectedTxHashes := jsonPayloadText gc e.task.selectedTxHashes
  txMerkleRoot := e.txMerkleRoot
  txCount := intOr e.task.txCount (intOr e.job.txCount 0)
  txFeeTotalUnits := intOr e.task.txFeeTotalUnits (intOr e.job.txFeeTotalUnits 0)
  selectedTxHashesHash := e.task.selectedTxHashesHash.or e.job.selectedTxHashesHash

/-- The job that a message inserts. -/
def gossipedJobRow (now : String) (e : JobEnvelope) (status : ValidationJobStatus) :
    ValidationJobRow where
  taskId := e.taskId
  minerId := e.minerId
  resultHash := textOr e.job.resultHash ""
  merkleRoot := textOr e.job.merkleRoot ""
  challengeSeed := textOr e.job.challengeSeed ""
  samples := e.job.samples
  txMerkleRoot := textOr e.job.txMerkleRoot ""
  mempoolSnapshotId := e.job.mempoolSnapshotId
  selectedTxHashesHash := e.job.selectedTxHashesHash
  txCount := intOr e.job.txCount 0
  txFeeTotalUnits := intOr e.job.txFeeTotalUnits 0
  status := status
  assignedValidatorId := none
  resultReason := e.job.resultReason
  validatorSignature := e.job.validatorSignature
  validationMs := e.job.validationMs
  jobCreatedAt := some (textOr e.job.jobCreatedAt (textOr e.job.createdAt now))
  createdAt := textOr e.job.createdAt now
  completedAt := e.job.completedAt

/-! ## Receiving a message -/

/-- The known task after its check and promotion, or the inserted one. -/
def ensureJobTask (gc : GossipConfig) (now expiry : String) (s : MiningState σ) (e : JobEnvelope)
    (status : ValidationJobStatus) : Except MiningError (MiningState σ) :=
  match s.tasks.find? e.taskId with
  | some row =>
    match jobTaskMismatch row e.task with
    | some column => .error (.mining 409 ("validation job task mismatch: " ++ column))
    | none =>
      let effective := ((s.jobs.find? e.jobId).map ValidationJobRow.status).getD status
      if effective = .pending then
        .ok { s with tasks := s.tasks.modify e.taskId (TaskRow.promote expiry e.task) }
      else .ok s
  | none =>
    .ok { s with
      miners := insertGossipMinerIfMissing now s.miners e.miner e.minerId
      tasks := s.tasks.upsert e.taskId (gossipedTaskRow gc now s.protocolParams e) }

/-- `receive_validation_job_gossip`: the tables after the message. -/
def receiveValidationJobGossip (gc : GossipConfig) (now expiry : String) (s : MiningState σ)
    (e : JobEnvelope) : Except MiningError (MiningState σ) :=
  if e.jobId = "" ∨ e.taskId = "" ∨ e.minerId = "" then
    .error (.mining 422 "validation job gossip requires job_id, task_id, and miner_id")
  else if textOr e.task.taskId e.taskId ≠ e.taskId then
    .error (.mining 409 "validation job task_id mismatch")
  else match ValidationJobStatus.parse (textOr e.job.status "pending") with
    | none => .error (.mining 422 "invalid validation job status")
    | some status => do
      let s ← ensureJobTask gc now expiry s e status
      match s.jobs.find? e.jobId with
      | some _ => return s
      | none =>
        if s.jobs.rows.any fun r => r.2.taskId = e.taskId then
          .error (.integrity "UNIQUE constraint failed: validation_jobs.task_id")
        else return { s with jobs := s.jobs.upsert e.jobId (gossipedJobRow now e status) }

/-! ## Task gossip -/

/-- The tables that task gossip works on. -/
def MiningState.taskTables (s : MiningState σ) : TaskTables where
  tasks := s.tasks
  miners := s.miners
  commitments := s.commitments
  snapshots := s.snapshots
  protocolParams := s.protocolParams

/-- `receive_task_gossip` on the node's tables. -/
def receiveTaskGossipOnNode (gc : GossipConfig) (now : String) (s : MiningState σ)
    (e : TaskEnvelope) : Except MiningError (MiningState σ) := do
  let result ← receiveTaskGossip gc now s.taskTables e
  return { s with
    tasks := result.tables.tasks
    miners := result.tables.miners
    commitments := result.tables.commitments
    snapshots := result.tables.snapshots }

end Picoin
