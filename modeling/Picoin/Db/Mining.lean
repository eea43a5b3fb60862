import Picoin.Db.Schema

/-!
# The tables of mining

Tasks, the miners they are assigned to, the commitments to their results and the snapshots of the
transactions that were frozen for them; the validation of their results, and the blocks made of
them.

The columns that only measure how long a validation took are left out, but for those of a block.
-/

namespace Picoin

inductive TaskStatus where
  | assigned
  | committed
  | revealed
  | accepted
  | rejected
  | stale
  | expired
deriving DecidableEq

/-- A row of `tasks`, under its task id. -/
structure TaskRow where
  minerId : String
  rangeStart : ℤ
  rangeEnd : ℤ
  algorithm : String
  status : TaskStatus
  assignmentSeed : Option String
  assignmentMode : Option String
  competitiveRoundHeight : Option ℤ
  competitiveRoundPreviousHash : Option String
  assignmentMs : Option ℤ
  computeMs : Option ℤ
  protocolParamsId : Option ℤ
  createdAt : String
  expiresAt : Option String
  submittedAt : Option String
  staleAt : Option String
  staleReason : Option String
  mempoolSnapshotId : Option String
  selectedTxHashes : String
  txMerkleRoot : String
  txCount : ℤ
  txFeeTotalUnits : ℤ
  selectedTxHashesHash : Option String
deriving DecidableEq

/-- A row of `miners`, under its miner id. -/
structure MinerRow where
  name : String
  publicKey : Option String
  rewardAddress : Option String
  registeredAt : String
deriving DecidableEq

/-- A row of `commitments`, under its task id. -/
structure CommitmentRow where
  minerId : String
  resultHash : String
  merkleRoot : String
  challengeSeed : String
  samples : String
  txMerkleRoot : String
  mempoolSnapshotId : Option String
  selectedTxHashesHash : Option String
  txCount : ℤ
  txFeeTotalUnits : ℤ
  signature : String
  signedAt : String
  commitMs : Option ℤ
  createdAt : String
deriving DecidableEq

/-- A row of `task_tx_snapshots`, under its snapshot id. -/
structure TaskTxSnapshotRow where
  taskId : String
  blockHeight : ℤ
  txHashesJson : String
  txMerkleRoot : String
  txCount : ℤ
  txFeeTotalUnits : ℤ
  createdAt : String
deriving DecidableEq

structure TaskTables where
  tasks : Sql.Table String TaskRow
  miners : Sql.Table String MinerRow
  commitments : Sql.Table String CommitmentRow
  snapshots : Sql.Table String TaskTxSnapshotRow
  protocolParams : Sql.Table ℤ ProtocolParamsRow

/-! ## Validation -/

inductive ValidationJobStatus where
  | pending
  | approved
  | rejected
  | expired
deriving DecidableEq

/-- A row of `validation_jobs`, under its job id; `task_id` is unique. The samples are the JSON
value that the column's text denotes. -/
structure ValidationJobRow where
  taskId : String
  minerId : String
  resultHash : String
  merkleRoot : String
  challengeSeed : String
  samples : Json.Value
  txMerkleRoot : String
  mempoolSnapshotId : Option String
  selectedTxHashesHash : Option String
  txCount : ℤ
  txFeeTotalUnits : ℤ
  status : ValidationJobStatus
  assignedValidatorId : Option String
  resultReason : Option String
  validatorSignature : Option String
  validationMs : Option ℤ
  jobCreatedAt : Option String
  createdAt : String
  completedAt : Option String

/-- A row of `validation_votes`; a validator has one vote for a job. -/
structure ValidationVoteRow where
  jobId : String
  taskId : String
  validatorId : String
  approved : Bool
  reason : String
  signature : String
  signedAt : String
  validationMs : ℤ
  createdAt : String
deriving DecidableEq

/-! ## Blocks -/

/-- The columns of `blocks` that a new block is made of. -/
structure BlockDraft where
  height : ℤ
  previousHash : String
  minerId : String
  rangeStart : ℤ
  rangeEnd : ℤ
  algorithm : String
  resultHash : String
  merkleRoot : Option String
  samples : Json.Value
  timestamp : String
  reward : ℤ
  txMerkleRoot : String
  txCount : ℤ
  txHashes : List String
  feeReward : ℤ
  minerRewardAddress : Option String
  difficulty : ℤ
  taskId : String
  protocolParamsId : ℤ
  protocolVersion : String
  validationMode : String
  totalBlockMs : Option ℤ

/-- A row of `blocks`. -/
structure MinedBlockRow extends BlockDraft where
  blockHash : String
  validationMs : Option ℤ
  fraudulent : Bool
  fraudReason : Option String
  fraudDetectedAt : Option String

/-- The last block, or what is below the first one: the genesis or a restored snapshot. -/
structure ChainTip where
  height : ℤ
  blockHash : String
deriving DecidableEq

/-- A row of `mempool_transactions` as the selection for a task sees it, under its hash. -/
structure SelectableRow where
  feeUnits : ℤ
  status : MempoolStatus
  selectedTaskId : Option String
  expiresAt : Option String
deriving DecidableEq

/-- The tables that the validation of a result and the acceptance of its block work on. `blocks` is
in the order of the heights, `votes` in that of their ids; `services` are the tables of the other
services. -/
structure MiningState (σ : Type) where
  tasks : Sql.Table String TaskRow
  miners : Sql.Table String MinerRow
  commitments : Sql.Table String CommitmentRow
  snapshots : Sql.Table String TaskTxSnapshotRow
  protocolParams : Sql.Table ℤ ProtocolParamsRow
  validators : Sql.Table String ValidatorRow
  jobs : Sql.Table String ValidationJobRow
  votes : List ValidationVoteRow
  mempool : Sql.Table String SelectableRow
  blocks : List MinedBlockRow
  base : ChainTip
  services : σ

/-! ## Errors -/

/-- What the mining service raises. -/
inductive MiningError where
  | mining (statusCode : ℕ) (detail : String)
  | integrity (message : String)
deriving DecidableEq

end Picoin
