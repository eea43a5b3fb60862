import Picoin.Services.Acceptance
import Picoin.Services.BlockRewards
import Picoin.Services.LocalNode
import Picoin.Services.Validation

/-!
# Mining on a local network

A small network for the results about mining: one set of protocol parameters, a task without
transactions, and the wallets of the local node.
-/

namespace Picoin

/-- The local network profile. The only time that is read is the one the rows below hold. -/
def localMining : MiningConfig :=
  { localConfig with
    proofOfPiRewardPercent := ⟨80, 2⟩
    requiredValidatorApprovals := 3
    parseIso := fun text => if text = "2026-05-10T00:00:00+00:00" then some 1778371200000000 else none
    jsonLoads := fun text => if text = "[]" then some [] else none
    workloadDifficulty := fun _ => 100000000 }

/-- A stand-in for SHA-256 where the only digests that are compared are those of one block. -/
def blockSha256Text (text : String) : String :=
  if text = aliceKey ∨ text = bobKey ∨ text = "[]" then localSha256Text text else "digest"

/-- The local network, for runs that accept a single block. -/
def votingMining : MiningConfig := { localMining with sha256Text := blockSha256Text }

/-- The local network profile; a reward matures at the next block. -/
def localRewards : RewardConfig :=
  { localMining with
    scienceComputeRewardPercentOfBlock := ⟨7, 2⟩
    scienceMaxPayoutPerEpoch := 31416000000
    scienceAllowSelfWork := false
    validatorRewardPercentOfBlock := ⟨10, 2⟩
    blockMaturityDepth := 1 }

def localParamsRow : ProtocolParamsRow where
  protocolVersion := "0.18"
  algorithm := "bbp_hex_v1"
  validationMode := "external_commit_reveal"
  requiredValidatorApprovals := 1
  rangeAssignmentMode := "competitive_round"
  maxPiPosition := 10000
  rangeAssignmentMaxAttempts := 64
  segmentSize := 64
  sampleCount := 8
  taskExpirationSeconds := 600
  maxActiveTasksPerMiner := 1
  baseReward := ⟨31416, 4⟩
  difficulty := some ⟨1, 0⟩
  retargetMaxPiPosition := none
  targetBlockTimeMs := some 60000
  retargetReason := none
  retargetSourceWindow := none
  retargetSourceDetails := none
  previousProtocolParamsId := none
  active := true
  createdAt := "2026-05-10T00:00:00+00:00"

/-- A revealed task without transactions. -/
def localTask : TaskRow where
  minerId := "miner-1"
  rangeStart := 1
  rangeEnd := 64
  algorithm := "bbp_hex_v1"
  status := .revealed
  assignmentSeed := none
  assignmentMode := none
  competitiveRoundHeight := none
  competitiveRoundPreviousHash := none
  assignmentMs := some 3
  computeMs := some 1200
  protocolParamsId := some 1
  createdAt := "2026-05-10T00:00:00+00:00"
  expiresAt := none
  submittedAt := none
  staleAt := none
  staleReason := none
  mempoolSnapshotId := none
  selectedTxHashes := "[]"
  txMerkleRoot := txMerkleRoot localConfig []
  txCount := 0
  txFeeTotalUnits := 0
  selectedTxHashesHash := none

/-- A miner with an address for its rewards, or without. -/
def localMiner (rewardAddress : Option String) : MinerRow where
  name := "miner-1"
  publicKey := some aliceKey
  rewardAddress := rewardAddress
  registeredAt := "2026-05-10T00:00:00+00:00"

/-- The other services for blocks without transactions: nothing that they write is looked at. -/
def localServices : BlockServices Unit where
  settle validators _ draft :=
    if draft.txCount = 0 then .ok ⟨validators, (), none⟩
    else .error (.transaction "no transactions are expected")
  retarget params _ := params

/-- A node on which the miner has revealed its task. -/
def localMiningState (rewardAddress : Option String) : MiningState Unit where
  tasks := .upsert .empty "task-1" localTask
  miners := .upsert .empty "miner-1" (localMiner rewardAddress)
  commitments := .empty
  snapshots := .empty
  protocolParams := .upsert .empty 1 localParamsRow
  validators := .empty
  jobs := .empty
  votes := []
  mempool := .empty
  blocks := []
  base := ⟨0, localConfig.genesisHash⟩
  services := ()

/-- The result of the task. -/
def localClaim : BlockClaim where
  taskId := "task-1"
  task := localTask
  minerId := "miner-1"
  resultHash := "result-1"
  merkleRoot := some "root-1"
  samples := .arr []
  jobId := none

/-- A validator with the stake of its registration. -/
def localValidator (publicKey : String) : ValidatorRow where
  name := "validator"
  publicKey := publicKey
  rewardAddress := none
  registeredAt := "2026-05-10T00:00:00+00:00"
  acceptedJobs := 0
  rejectedJobs := 0
  invalidResults := 0
  trustScore := ⟨1, 0⟩
  cooldownUntil := none
  lastSeenAt := none
  totalValidationMs := 0
  stakeLocked := 3141600000
  walletStakeLocked := 3141600000
  stakeOwnerAddress := none
  slashedAmount := 0
  isBanned := false
  enabled := true
  protocolVersion := none

/-- The validation job of the local task. -/
def localJob : ValidationJobRow where
  taskId := "task-1"
  minerId := "miner-1"
  resultHash := "result-1"
  merkleRoot := "root-1"
  challengeSeed := "seed-1"
  samples := .arr []
  txMerkleRoot := txMerkleRoot localConfig []
  mempoolSnapshotId := none
  selectedTxHashesHash := none
  txCount := 0
  txFeeTotalUnits := 0
  status := .pending
  assignedValidatorId := none
  resultReason := none
  validatorSignature := none
  validationMs := none
  jobCreatedAt := some "2026-05-10T00:00:00+00:00"
  createdAt := "2026-05-10T00:00:00+00:00"
  completedAt := none

/-- Two validators are registered, and the job of the local task is pending. -/
def localVoting : MiningState Unit :=
  { localMiningState none with
    validators := (Sql.Table.empty.upsert "validator-1" (localValidator aliceKey)).upsert
      "validator-2" (localValidator bobKey)
    jobs := .upsert .empty "job-1" localJob }

/-- An approval of the job in a validator's name. -/
def localApproval (validatorId signature : String) : SubmitRequest where
  jobId := "job-1"
  validatorId := validatorId
  approved := true
  reason := "valid"
  signature := signature
  signedAt := "2026-05-10T00:00:00+00:00"

end Picoin
