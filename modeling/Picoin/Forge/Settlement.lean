import Picoin.Forge.WorkerRegistry
import Picoin.Forge.AiAccessQueue

/-!
# The settlement of an epoch

The reward of an epoch is shared out by the scores of the workers. A share is rounded to eight digits,
and the last worker gets what is left of the reward, if anything. A settlement holds the shares and a
hash of them. Rewards and scores in a settlement are whole numbers of `10 ^ -8`.

* **`calculateEpochRewards`** — the shares;
* **`buildSettlement`**, **`settlementJson`**, **`validateSettlement`** — what is hashed, written and
  read back;
* **`verifySettlement`** — the checks on a settlement.
-/

namespace Picoin.Forge.Coordinator

open Json

/-! ## Shares -/

structure EpochReward where
  workerId : String
  wallet : String
  verifiedComputeScore : ℤ
  rewardPi : ℤ
deriving DecidableEq

/-- The entry of a worker. -/
def epochReward (state : WorkerState) (rewardPi : ℤ) : EpochReward where
  workerId := state.registration.workerId
  wallet := state.registration.wallet
  verifiedComputeScore := roundSteps state.verifiedComputeScore
  rewardPi := rewardPi

/-- The sum of the positive scores. -/
def totalScore (workerStates : List WorkerState) : ℚ :=
  (workerStates.map fun state => max 0 state.verifiedComputeScore).sum

/-- `round(epoch_reward * share, 8)`. -/
def roundedShare (epochReward : ℤ) (total : ℚ) (state : WorkerState) : ℤ :=
  roundSteps ((epochReward : ℚ) / 10 ^ 8 * (state.verifiedComputeScore / total))

/-- The loop of `calculate_epoch_rewards`: the last worker gets what is left. -/
def shareOut (reward : ℤ) (total : ℚ) : List WorkerState → ℤ → List EpochReward
  | [], _ => []
  | [state], runningTotal => [epochReward state (max 0 (reward - runningTotal))]
  | state :: rest, runningTotal =>
    let share := roundedShare reward total state
    epochReward state (max 0 share) :: shareOut reward total rest (runningTotal + share)

/-- `calculate_epoch_rewards`. -/
def calculateEpochRewards (workerStates : List WorkerState) (reward : ℤ) : List EpochReward :=
  let total := totalScore workerStates
  if total ≤ 0 then workerStates.map fun state => epochReward state 0
  else shareOut reward total workerStates 0

/-! ## Settlements -/

structure EpochSettlement where
  epochId : ℤ
  epochReward : ℤ
  totalVerifiedCompute : ℤ
  workers : List EpochReward
  resultHash : String
  timestamp : String
  l1SettlementReady : Bool
  l1Note : String
deriving DecidableEq

/-- `reward.model_dump(mode="json")`. -/
def epochRewardJson (reward : EpochReward) : Value :=
  .obj [("worker_id", .str reward.workerId), ("wallet", .str reward.wallet),
    ("verified_compute_score", .float reward.verifiedComputeScore),
    ("reward_pi", .float reward.rewardPi)]

/-- What `result_hash` is the hash of. -/
def resultPayload (epochId reward totalVerifiedCompute : ℤ) (workers : List EpochReward) : Value :=
  .obj [("epoch_id", .int epochId), ("epoch_reward", .float reward),
    ("total_verified_compute", .float totalVerifiedCompute),
    ("workers", .arr (workers.map epochRewardJson))]

/-- The sum of the scores in a settlement. -/
def sumScores (workers : List EpochReward) : ℤ := (workers.map EpochReward.verifiedComputeScore).sum

/-- The sum of the rewards in a settlement. -/
def sumRewards (workers : List EpochReward) : ℤ := (workers.map EpochReward.rewardPi).sum

def l1NoteText : String := "Simulated only; no Picoin L1 transaction was created."

/-- `build_settlement`, at the time that the text says. -/
def buildSettlement (fc : ForgeConfig) (timestamp : String) (epochId reward : ℤ)
    (rewards : List EpochReward) : EpochSettlement where
  epochId := epochId
  epochReward := reward
  totalVerifiedCompute := sumScores rewards
  workers := rewards
  resultHash := fc.hashJson (resultPayload epochId reward (sumScores rewards) rewards)
  timestamp := timestamp
  l1SettlementReady := false
  l1Note := l1NoteText

/-- What `write_settlement` writes. -/
def settlementJson (settlement : EpochSettlement) : Value :=
  .obj [("epoch_id", .int settlement.epochId), ("epoch_reward", .float settlement.epochReward),
    ("total_verified_compute", .float settlement.totalVerifiedCompute),
    ("workers", .arr (settlement.workers.map epochRewardJson)),
    ("result_hash", .str settlement.resultHash), ("timestamp", .str settlement.timestamp),
    ("l1_settlement_ready", .bool settlement.l1SettlementReady), ("l1_note", .str settlement.l1Note)]

/-! ## Reading back -/

/-- A field that must be there. -/
def field (fields : List (String × Value)) (key : String) : Except String Value :=
  match fields.lookup key with
  | some value => .ok value
  | none => .error s!"{key}: field required"

def textField (fields : List (String × Value)) (key : String) : Except String String := do
  match ← field fields key with
  | .str s => return s
  | _ => throw s!"{key}: input should be a valid string"

def intField (fields : List (String × Value)) (key : String) : Except String ℤ := do
  match ← field fields key with
  | .int i => return i
  | _ => throw s!"{key}: input should be a valid integer"

/-- A float; a whole number is one, too. -/
def floatField (fields : List (String × Value)) (key : String) : Except String ℤ := do
  match ← field fields key with
  | .float x => return x
  | .int i => return i * 10 ^ 8
  | _ => throw s!"{key}: input should be a valid number"

def boolField (fields : List (String × Value)) (key : String) : Except String Bool := do
  match ← field fields key with
  | .bool b => return b
  | _ => throw s!"{key}: input should be a valid boolean"

/-- `EpochReward.model_validate`. -/
def validateReward : Value → Except String EpochReward
  | .obj fields => do
    let workerId ← textField fields "worker_id"
    let wallet ← textField fields "wallet"
    let verifiedComputeScore ← floatField fields "verified_compute_score"
    let rewardPi ← floatField fields "reward_pi"
    return { workerId, wallet, verifiedComputeScore, rewardPi }
  | _ => throw "input should be a valid dictionary"

def rewardsField (fields : List (String × Value)) (key : String) :
    Except String (List EpochReward) := do
  match ← field fields key with
  | .arr items => items.mapM validateReward
  | _ => throw s!"{key}: input should be a valid list"

/-- `EpochSettlement.model_validate_json` of a text that `write_settlement` has written. -/
def validateSettlement : Value → Except String EpochSettlement
  | .obj fields => do
    let epochId ← intField fields "epoch_id"
    let epochReward ← floatField fields "epoch_reward"
    let totalVerifiedCompute ← floatField fields "total_verified_compute"
    let workers ← rewardsField fields "workers"
    let resultHash ← textField fields "result_hash"
    let timestamp ← textField fields "timestamp"
    let l1SettlementReady ← boolField fields "l1_settlement_ready"
    let l1Note ← textField fields "l1_note"
    return ⟨epochId, epochReward, totalVerifiedCompute, workers, resultHash, timestamp,
      l1SettlementReady, l1Note⟩
  | _ => throw "input should be a valid dictionary"

/-! ## Checks -/

/-- What the preview's `payload_hash` is the hash of. -/
def previewPayload (settlement : EpochSettlement) : Value :=
  .obj [("schema_version", .str "picoin-forge-l2-settlement-preview-v1"),
    ("payload_type", .str "l2_epoch_settlement_preview"),
    ("epoch_id", .int settlement.epochId), ("epoch_reward", .float settlement.epochReward),
    ("total_verified_compute", .float settlement.totalVerifiedCompute),
    ("worker_count", .int settlement.workers.length),
    ("settlement_result_hash", .str settlement.resultHash),
    ("worker_rewards", .arr (settlement.workers.map epochRewardJson)),
    ("signatures", .arr []), ("no_l1_transaction_created", .bool true)]

/-- `payload_hash` of `build_settlement_payload_preview`. -/
def previewHash (fc : ForgeConfig) (settlement : EpochSettlement) : String :=
  fc.hashJson (previewPayload settlement)

/-- The checks of `verify_settlement`; the hash of the preview is reported with them. -/
structure SettlementChecks where
  totalVerifiedComputeMatches : Bool
  resultHashMatches : Bool
  rewardSumNotAboveEpochReward : Bool
  previewPayloadHash : String
  noL1TransactionCreated : Bool

def settlementChecks (fc : ForgeConfig) (settlement : EpochSettlement) : SettlementChecks where
  totalVerifiedComputeMatches := sumScores settlement.workers = settlement.totalVerifiedCompute
  resultHashMatches :=
    -- with the sum of the scores, not with the stored total
    fc.hashJson (resultPayload settlement.epochId settlement.epochReward
      (sumScores settlement.workers) settlement.workers) = settlement.resultHash
  rewardSumNotAboveEpochReward := sumRewards settlement.workers ≤ settlement.epochReward
  previewPayloadHash := previewHash fc settlement
  noL1TransactionCreated := true

/-- `verify_settlement(…)["valid"]`. -/
def verifySettlement (fc : ForgeConfig) (settlement : EpochSettlement) : Bool :=
  let checks := settlementChecks fc settlement
  checks.totalVerifiedComputeMatches && checks.resultHashMatches &&
    checks.rewardSumNotAboveEpochReward && checks.noL1TransactionCreated

end Picoin.Forge.Coordinator
