import Picoin.Services.BlockHash
import Picoin.Services.BlockRewards

/-!
# What an imported block pays

An imported block brings its rewards along. The miner's reward, the pool of the validators, the
part of each of them, who they are and where they are paid are read from the block; what is missing
is made up from the miner's reward, from which the total is computed back.

* **`readValidatorRewards`** reads the validators' part, with its fallbacks;
* **`payImportedBlock`** is what `_import_finalized_block` does with coins, in its order.
-/

namespace Picoin

open Json Outcome Decimal

/-- The transactions that the payload of a block lists are read by the transaction service. -/
structure ImportRewardConfig extends Client.ClientConfig, RewardConfig where
  decodeTransactions : Value → Except Client.PyError (List Tx)

/-- `total_units_from_miner_reward_units`. -/
def totalUnitsFromMinerRewardUnits (rc : RewardConfig) (minerUnits : ℤ) : ℤ :=
  roundHalfUp (minerUnits * basisPointsPerUnit) (basisPoints rc.proofOfPiRewardPercent).toNat

/-! ## The validators' part -/

/-- A value that is bound to a text column. -/
def columnText : Value → Except Client.PyError String
  | .str s => .ok s
  | .int i => .ok (toString i)
  | _ => .error .type

/-- A field that has to be a dictionary; any other value counts as an empty one. -/
def dictField (value : Value) (key : String) : Except Client.PyError (List (String × Value)) := do
  match ← Client.get value key with
  | .obj fields => return fields
  | _ => return []

/-- What the validators of an imported block get: a pool, and a part for each but the last. -/
structure ValidatorRewards where
  validatorIds : List String
  poolUnits : ℤ
  perValidatorUnits : ℤ
  rewardAddresses : List (String × Value)

/-- The validators' part of a block, with the fallbacks of `_apply_distributed_validator_rewards`.
`approvers` are the validators that approved the block's proposal, as many as are required; without
validators nothing is read. -/
def readValidatorRewards (pc : ImportRewardConfig) (approvers : List String)
    (totalUnits : ℤ) (block : Value) : Except Client.PyError (Option ValidatorRewards) := do
  let payload := Value.obj (← dictField block "validator_reward")
  let listed ← (← Client.toList (← fieldOr payload "validator_ids" (.arr []))).mapM columnText
  let validatorIds := if listed = [] then approvers else listed
  if validatorIds = [] then return none
  else
    let pool ← Client.toUnitsOf pc.toClientConfig (← fieldOr payload "pool" (.int 0))
    let poolUnits :=
      if pool ≤ 0 then percentUnits totalUnits pc.validatorRewardPercentOfBlock else pool
    let perValidator ←
      Client.toUnitsOf pc.toClientConfig (← fieldOr payload "per_validator" (.int 0))
    let perValidatorUnits :=
      if perValidator ≤ 0 then poolUnits / validatorIds.length else perValidator
    return some ⟨validatorIds, poolUnits, perValidatorUnits,
      ← dictField payload "reward_addresses"⟩

/-- The address that the block gives for a validator, if any. -/
def rewardAddressOf (rewardAddresses : List (String × Value)) (validatorId : String) :
    Except Client.PyError (Option String) := do
  match rewardAddresses.lookup validatorId with
  | none => return none
  | some address =>
    if Client.truthy address then return some (← columnText address) else return none

/-- The row of a validator that the node does not know. -/
def distributedValidatorRow (cfg : Config) (validatorId timestamp : String) : ValidatorRow where
  name := s!"distributed:{validatorId}"
  publicKey := ""
  rewardAddress := none
  registeredAt := timestamp
  acceptedJobs := 0
  rejectedJobs := 0
  invalidResults := 0
  trustScore := 1
  cooldownUntil := none
  lastSeenAt := some timestamp
  totalValidationMs := 0
  stakeLocked := cfg.validatorRegistrationStake
  walletStakeLocked := 0
  stakeOwnerAddress := none
  slashedAmount := 0
  isBanned := false
  enabled := true
  protocolVersion := some cfg.protocolVersion

/-- `_ensure_validator`, and the job that the validator has accepted. -/
def countAcceptedJob (cfg : Config) (validators : Sql.Table String ValidatorRow)
    (validatorId timestamp : String) : Sql.Table String ValidatorRow :=
  (validators.insertNew validatorId (distributedValidatorRow cfg validatorId timestamp)).modify
    validatorId fun row =>
      { row with acceptedJobs := row.acceptedJobs + 1, lastSeenAt := some timestamp }

/-- What is the same for all validators of a block. -/
structure DistributedReward where
  blockHeight : ℤ
  proposalId : String
  timestamp : String

/-- The credit of a validator; `_apply_account_delta` checks nothing and overwrites the account
type. An id that is itself an address is paid as a wallet, and is no validator. -/
def distributedPosting (cfg : Config) (d : DistributedReward) (validatorId : String)
    (address : Option String) (amountUnits : ℤ) : Posting where
  accountId := address.getD validatorId
  accountType :=
    if address.isSome || isValidAddress cfg (some validatorId) then "wallet" else "validator"
  amountUnits := unitsOf (unitsToFloat amountUnits)
  entryType := "validator_reward"
  blockHeight := some d.blockHeight
  relatedId := some d.proposalId
  description := some "distributed consensus validator reward"
  createdAt := d.timestamp

/-- One turn of the loop of `_apply_distributed_validator_rewards`. -/
def payDistributedValidator (cfg : Config) (d : DistributedReward)
    (rewardAddresses : List (String × Value)) (s : NodeState) (part : String × ℤ) :
    Except Client.PyError NodeState := do
  let address ← rewardAddressOf rewardAddresses part.1
  let posting := distributedPosting cfg d part.1 address part.2
  let legacyRewardWallet := address = none ∧ isValidAddress cfg (some part.1) = true
  return { s with
    ledger := s.ledger.write posting.accountType posting
    validators := if legacyRewardWallet then s.validators
      else countAcceptedJob cfg s.validators part.1 d.timestamp }

/-- `_apply_distributed_validator_rewards`. -/
def applyDistributedValidatorRewards (pc : ImportRewardConfig) (approvers : List String)
    (totalUnits : ℤ) (d : DistributedReward) (s : NodeState) (block : Value) :
    Except Client.PyError NodeState := do
  match ← readValidatorRewards pc approvers totalUnits block with
  | none => return s
  | some r =>
    (validatorParts r.poolUnits r.perValidatorUnits r.validatorIds 0).foldlM
      (payDistributedValidator pc.toConfig d r.rewardAddresses) s

/-! ## A block -/

/-- An imported block, and what the import knows of it: the time, its height, and the validators
that approved its proposal. -/
structure ImportedBlock where
  block : Value
  proposalId : String
  height : ℤ
  timestamp : Timestamp
  now : Instant
  approvers : List String

/-- The account of the miner's reward, and its type. -/
def ImportedBlock.minerAccount (b : ImportedBlock) : Except Client.PyError (String × String) := do
  let address ← Client.get b.block "miner_reward_address"
  if Client.truthy address then return (← columnText address, "wallet")
  else return (← columnText (← Client.item b.block "miner_id"), "miner")

/-- The units of the reward that the block names. -/
def ImportedBlock.minerUnits (cc : Client.ClientConfig) (b : ImportedBlock) :
    Except Client.PyError ℤ := do
  Client.toUnitsOf cc (← Client.item b.block "reward")

/-- The reward of the block's miner. -/
def ImportedBlock.minerReward (b : ImportedBlock) (minerId : String) (account : String × String)
    (minerUnits : ℤ) : MinerReward where
  minerId := minerId
  accountId := account.1
  accountType := account.2
  blockHeight := b.height
  amount := unitsToFloat minerUnits
  reason := "distributed block finalized"
  relatedId := some b.proposalId
  description := "distributed finalized miner reward"
  timestamp := b.timestamp.text

/-- The context that the block's transactions are executed in. -/
def ImportedBlock.context (b : ImportedBlock) (account : String × String) : BlockContext where
  minerId := account.1
  minerAccountType := account.2
  blockHeight := b.height
  timestamp := b.timestamp
  canonicalReplay := true

/-- An error of another service ends the import. -/
def ExecError.ofImport : ExecError → ImportError
  | .transactionExecution detail | .science _ detail | .treasury _ detail | .integrity detail
  | .value detail => .other detail

/-- The transactions of an imported block. -/
def applyImportedTransactions (pc : ImportRewardConfig) (b : ImportedBlock)
    (account : String × String) (s : NodeState) : Except ImportError NodeState := do
  let transactions ← python (fieldOr b.block "transactions" (.arr []))
  if Client.truthy transactions then
    let decoded ← python (pc.decodeTransactions transactions)
    (applyBlockTransactions pc.toConfig b.now (b.context account) s decoded).mapError
      ExecError.ofImport
  else return s

/-- The accruals of an imported block. -/
def accrueImportedBlock (pc : ImportRewardConfig) (b : ImportedBlock) (totalUnits : ℤ)
    (s : NodeState) : Except ImportError NodeState := do
  let totalBlockReward := unitsToFloat totalUnits
  let (ledger, science) ← (recordScienceReserveForBlock pc.toMarketConfig b.now s.ledger s.science
    b.height totalBlockReward).mapError ExecError.ofImport
  let (treasury, ledger) ← (recordScientificDevelopmentTreasuryForBlock pc.toConfig b.now
    s.treasury ledger b.height totalBlockReward).mapError ExecError.ofImport
  return { s with ledger, science, treasury }

/-- The coins of `_import_finalized_block`; the audit that a replay may run pays nothing. -/
def payImportedBlock (pc : ImportRewardConfig) (s : NodeState) (b : ImportedBlock) :
    Except ImportError NodeState := do
  let minerUnits ← python (b.minerUnits pc.toClientConfig)
  let account ← python b.minerAccount
  let minerId ← python (do columnText (← Client.item b.block "miner_id"))
  let s := recordMinerBlockReward pc.toRewardConfig s (b.minerReward minerId account minerUnits)
  let s ← applyImportedTransactions pc b account s
  let totalUnits := totalUnitsFromMinerRewardUnits pc.toRewardConfig minerUnits
  let s ← accrueImportedBlock pc b totalUnits s
  let s ← python (applyDistributedValidatorRewards pc b.approvers totalUnits
    ⟨b.height, b.proposalId, b.timestamp.text⟩ s b.block)
  return matureBlockRewards b.height b.timestamp.text s

end Picoin
