import Picoin.Core.Settings

/-!
# Transactions

`Tx` is a transaction as it travels between nodes and as it is read back from the mempool. Its
two money fields come twice, as a number and as units, and nothing ties the two together: the
`txAmountUnits` that is signed and checked, and the `txAmount` that most handlers move.
-/

namespace Picoin

open Decimal Json

inductive TxType where
  | transfer
  | stake
  | unstake
  | scienceJobCreate
  | governanceAction
  | treasuryClaim
  | faucet
  | unsupported (name : String)
deriving DecidableEq

def TxType.name : TxType → String
  | .transfer => "transfer"
  | .stake => "stake"
  | .unstake => "unstake"
  | .scienceJobCreate => "science_job_create"
  | .governanceAction => "governance_action"
  | .treasuryClaim => "treasury_claim"
  | .faucet => "faucet"
  | .unsupported name => name

/-- Membership in `SUPPORTED_BLOCK_TX_TYPES`. -/
def TxType.supported : TxType → Bool
  | .unsupported _ => false
  | _ => true

/-- The payload keys that the handlers read; an absent key is `none`. -/
structure Payload where
  stakeType : Option String := none
  type : Option String := none
  validatorId : Option String := none
  validatorName : Option String := none
  name : Option String := none
  validatorPublicKey : Option String := none
  publicKey : Option String := none
  rewardAddress : Option String := none
  jobType : Option String := none
  metadataHash : Option String := none
  storagePointer : Option String := none
  rewardBudget : Option ℤ := none
  maxComputeUnits : Option ℤ := none
  rewardPerComputeUnit : Option ℤ := none
  maxReward : Option ℤ := none
  jobId : Option String := none
  scope : Option String := none
  action : Option String := none
  threshold : Option ℤ := none
  claimTo : Option String := none
  claimId : Option String := none

def Payload.toJson (p : Payload) : Value :=
  let text (key : String) (v : Option String) := Value.field? key (v.map .str)
  let amount (key : String) (v : Option ℤ) := Value.field? key (v.map .float)
  .obj (text "stake_type" p.stakeType ++ text "type" p.type ++ text "validator_id" p.validatorId ++
    text "validator_name" p.validatorName ++ text "name" p.name ++
    text "validator_public_key" p.validatorPublicKey ++ text "public_key" p.publicKey ++
    text "reward_address" p.rewardAddress ++ text "job_type" p.jobType ++
    text "metadata_hash" p.metadataHash ++ text "storage_pointer" p.storagePointer ++
    amount "reward_budget" p.rewardBudget ++ amount "max_compute_units" p.maxComputeUnits ++
    amount "reward_per_compute_unit" p.rewardPerComputeUnit ++ amount "max_reward" p.maxReward ++
    text "job_id" p.jobId ++ text "scope" p.scope ++ text "action" p.action ++
    Value.field? "threshold" (p.threshold.map .int) ++ text "claim_to" p.claimTo ++
    text "claim_id" p.claimId)

/-- A transaction dict; `none` for an absent key. -/
structure Tx where
  txHash : String
  txType : TxType
  sender : String
  recipient : Option String := none
  amount : Option Dec := none
  amountUnits : Option ℤ := none
  fee : Option Dec := none
  feeUnits : Option ℤ := none
  nonce : ℤ
  payload : Payload := {}
  timestamp : Timestamp
  publicKey : String
  signature : String
  networkId : Option String := none
  chainId : Option ChainId := none

/-- `_tx_amount_units`. -/
def txAmountUnits (tx : Tx) : ℤ := tx.amountUnits.getD (toUnits (tx.amount.getD 0))

/-- `_tx_fee_units`. -/
def txFeeUnits (tx : Tx) : ℤ := tx.feeUnits.getD (toUnits (tx.fee.getD 0))

/-- `round(float(tx.get("amount", 0)), 8)`. -/
def txAmount (tx : Tx) : ℤ := round8 (tx.amount.getD 0)

/-- `round(float(tx.get("fee", 0)), 8)`. -/
def txFee (tx : Tx) : ℤ := round8 (tx.fee.getD 0)

/-- The transaction with the money fields `decode_mempool_transaction` gives it: the units, and
the numbers they stand for. -/
def decodeMempoolTransaction (tx : Tx) : Tx :=
  { tx with
    amount := some (canonicalDec (txAmountUnits tx))
    amountUnits := some (txAmountUnits tx)
    fee := some (canonicalDec (txFeeUnits tx))
    feeUnits := some (txFeeUnits tx) }

/-- A transaction in decoded form: its numbers are the canonical values of its units. -/
structure Tx.Decoded (tx : Tx) : Prop where
  amount : tx.amount = some (canonicalDec (txAmountUnits tx))
  fee : tx.fee = some (canonicalDec (txFeeUnits tx))

@[simp] theorem txAmountUnits_decode (tx : Tx) :
    txAmountUnits (decodeMempoolTransaction tx) = txAmountUnits tx := by
  rw [txAmountUnits, decodeMempoolTransaction, Option.getD_some]

@[simp] theorem txFeeUnits_decode (tx : Tx) :
    txFeeUnits (decodeMempoolTransaction tx) = txFeeUnits tx := by
  rw [txFeeUnits, decodeMempoolTransaction, Option.getD_some]

theorem decoded_decodeMempoolTransaction (tx : Tx) : (decodeMempoolTransaction tx).Decoded where
  amount := by rw [txAmountUnits_decode, decodeMempoolTransaction]
  fee := by rw [txFeeUnits_decode, decodeMempoolTransaction]

theorem Tx.Decoded.txAmount_eq {tx : Tx} (h : tx.Decoded) :
    txAmount tx = unitsToFloat (txAmountUnits tx) := by
  rw [txAmount, h.amount, Option.getD_some, round8_canonicalDec]

theorem Tx.Decoded.txFee_eq {tx : Tx} (h : tx.Decoded) :
    txFee tx = unitsToFloat (txFeeUnits tx) := by
  rw [txFee, h.fee, Option.getD_some, round8_canonicalDec]

end Picoin
