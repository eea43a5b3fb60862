import Picoin.Core.Transaction
import Picoin.Lib.Table

/-!
# The tables of a node

The rows of the tables that transaction execution, the treasury and the snapshots read and write.
Each row type has the columns these read; a table with a primary key is a `Sql.Table`. Money
columns that exist twice, as a float and as units, are kept as units.

A `NodeState` groups the tables by the module that owns them.
-/

namespace Picoin

open Decimal

/-! ## Balances and ledger entries -/

structure BalanceRow where
  accountType : String
  balanceUnits : ℤ
deriving DecidableEq

/-- What a writer puts into a ledger entry; the balance after it is computed. -/
structure Posting where
  accountId : String
  accountType : String
  amountUnits : ℤ
  entryType : String
  blockHeight : Option ℤ
  relatedId : Option String
  description : Option String
  createdAt : String
deriving DecidableEq

structure LedgerEntry extends Posting where
  balanceAfterUnits : ℤ
deriving DecidableEq

/-- The tables `balances` and `ledger_entries`; entries in the order of their ids. -/
structure Ledger where
  balances : Sql.Table String BalanceRow
  entries : List LedgerEntry
deriving DecidableEq

/-! ## Validators -/

structure ValidatorRow where
  name : String
  publicKey : String
  rewardAddress : Option String
  registeredAt : String
  acceptedJobs : ℤ
  rejectedJobs : ℤ
  invalidResults : ℤ
  trustScore : Dec
  cooldownUntil : Option String
  lastSeenAt : Option String
  totalValidationMs : ℤ
  stakeLocked : ℤ
  walletStakeLocked : ℤ
  stakeOwnerAddress : Option String
  slashedAmount : ℤ
  isBanned : Bool
  enabled : Bool
  protocolVersion : Option String
deriving DecidableEq

/-! ## Science -/

inductive ScienceTier where
  | researcher
  | lab
  | institution
deriving DecidableEq

inductive ScienceAccountStatus where
  | active
  | unstaking
deriving DecidableEq

/-- A row of `science_stake_accounts`, under its address. -/
structure ScienceAccountRow where
  accountId : String
  stakeAmount : ℤ
  tier : Option ScienceTier
  computeMultiplier : ℤ
  monthlyQuotaUsed : ℤ
  monthlyQuotaEpoch : String
  status : ScienceAccountStatus
deriving DecidableEq

inductive JobStatus where
  | created
  | queued
  | assigned
  | committed
  | submitted
  | verified
  | accepted
  | rejected
  | disputed
  | expired
  | paid
deriving DecidableEq

/-- A row of `science_jobs`, under its job id; the last columns have the defaults of the table. -/
structure ScienceJobRow where
  requesterAddress : String
  tierAtCreation : Option ScienceTier
  jobType : String
  metadataHash : String
  storagePointer : String
  maxComputeUnits : ℤ
  rewardPerComputeUnit : ℤ
  maxReward : ℤ
  status : JobStatus
  paid : Bool
  computeUnitsUsed : ℤ := 0
  payoutAmount : ℤ := 0
  workerAddress : Option String := none
  resultHash : Option String := none
  proofHash : Option String := none
  paidAmount : ℤ := 0
  paidAt : Option String := none
deriving DecidableEq

/-- A row of `science_reward_reserve`, under its month. -/
structure ReserveRow where
  totalReserved : ℤ
  totalPaid : ℤ
  totalPending : ℤ
deriving DecidableEq

inductive ReserveStatus where
  | reserveLocked
  | l2Pending
  | l2Active
  | emergencyPaused
deriving DecidableEq

/-- The one row of `science_reserve_governance`. -/
structure GovernanceRow where
  status : ReserveStatus
  activationRequestedAt : Option Instant
  activationAvailableAt : Option Instant
  activatedAt : Option Instant
  approvals : List String
  authorizedSigners : List String
  payoutsEnabled : Bool
  emergencyPaused : Bool
deriving DecidableEq

structure ScienceTables where
  stakeAccounts : Sql.Table String ScienceAccountRow
  jobs : Sql.Table String ScienceJobRow
  rewardReserve : Sql.Table String ReserveRow
  reserveGovernance : GovernanceRow
deriving DecidableEq

/-! ## Development treasury -/

structure TreasuryRow where
  totalAccumulated : ℤ
  totalClaimed : ℤ
  lockedBalance : ℤ
  unlockedBalance : ℤ
  currentEpoch : String
  epochStartBlock : ℤ
  epochEndBlock : ℤ
  nextUnlockAt : Instant
  lastClaimAt : Option Instant
  treasuryWallet : String
  governanceWallet : String
deriving DecidableEq

inductive EpochStatus where
  | locked
  | unlocked
  | claimed
deriving DecidableEq

/-- A row of `scientific_development_treasury_epochs`, under its quarter. -/
structure EpochRow where
  startBlock : ℤ
  endBlock : ℤ
  lockedAmount : ℤ
  unlockedAmount : ℤ
  claimedAmount : ℤ
  unlockAt : Instant
  status : EpochStatus
deriving DecidableEq

structure ClaimRow where
  amount : ℤ
  claimTo : String
  requestedBy : String
  createdAt : Instant
deriving DecidableEq

structure TreasuryTables where
  treasury : Option TreasuryRow
  epochs : Sql.Table String EpochRow
  claims : Sql.Table String ClaimRow
deriving DecidableEq

/-! ## Chain -/

/-- A row of `rewards`, under its id. -/
structure RewardRow where
  minerId : String
  blockHeight : ℤ
  amountUnits : ℤ
  accountId : Option String
  accountType : Option String
  mature : Bool
  maturesAtHeight : Option ℤ
  orphanedAt : Option String
  orphanReason : Option String
  relatedId : Option String
  reason : String
  createdAt : String
deriving DecidableEq

/-- A row of `protocol_params`, under its id. -/
structure ProtocolParamsRow where
  protocolVersion : String
  algorithm : String
  validationMode : String
  requiredValidatorApprovals : ℤ
  rangeAssignmentMode : String
  maxPiPosition : ℤ
  rangeAssignmentMaxAttempts : ℤ
  segmentSize : ℤ
  sampleCount : ℤ
  taskExpirationSeconds : ℤ
  maxActiveTasksPerMiner : ℤ
  baseReward : Dec
  difficulty : Option Dec
  retargetMaxPiPosition : Option ℤ
  targetBlockTimeMs : Option ℤ
  retargetReason : Option String
  retargetSourceWindow : Option ℤ
  retargetSourceDetails : Option String
  previousProtocolParamsId : Option ℤ
  active : Bool
  createdAt : String
deriving DecidableEq

/-- A row of `retarget_events`, under its id. -/
structure RetargetEventRow where
  previousProtocolParamsId : Option ℤ
  newProtocolParamsId : Option ℤ
  epochStartHeight : ℤ
  epochEndHeight : ℤ
  epochBlockCount : ℤ
  averageBlockMs : Dec
  targetBlockMs : ℤ
  oldDifficulty : Dec
  newDifficulty : Dec
  adjustmentFactor : Dec
  action : String
  reason : String
  createdAt : String
deriving DecidableEq

/-- A row of `blocks`, under its height. -/
structure BlockRow where
  blockHash : String
  previousHash : String
  timestamp : String
  stateRoot : Option String
deriving DecidableEq

structure ChainTables where
  blocks : Sql.Table ℤ BlockRow
  rewards : Sql.Table ℤ RewardRow
  protocolParams : Sql.Table ℤ ProtocolParamsRow
  retargetEvents : Sql.Table ℤ RetargetEventRow
deriving DecidableEq

/-! ## The node -/

inductive MempoolStatus where
  | pending
  | propagated
  | selected
  | released
  | confirmed
  | failed
  | rejected
  | expired
deriving DecidableEq

/-- A row of `mempool_transactions`, under its transaction hash. -/
structure MempoolRow where
  tx : Tx
  status : MempoolStatus
  blockHeight : Option ℤ
  failureReason : Option String

structure NodeState where
  ledger : Ledger
  accountNonces : Sql.Table String ℤ
  mempool : Sql.Table String MempoolRow
  validators : Sql.Table String ValidatorRow
  science : ScienceTables
  treasury : TreasuryTables
  chain : ChainTables

end Picoin
