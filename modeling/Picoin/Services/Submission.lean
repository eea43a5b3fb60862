import Picoin.Services.BlockImport
import Picoin.Services.Mempool

/-!
# Transactions of a peer

A peer sends a transaction as any JSON object. `submit_transaction` looks at its envelope and its
signature; its payload, its timestamp and its recipient stay the values that they are, and the checks
of a selection read them.

* **`receiveTransaction`** is the admission to the mempool;
* **`readKind`** is what the check of a transaction's kind reads of these values, and what it raises;
* **`selectReceived`** is `select_transactions_for_task`.
-/

namespace Picoin

open Json Outcome

/-- A time as `datetime.fromisoformat` reads it; without an offset it is not aware. -/
structure IsoTime where
  instant : Instant
  aware : Bool

/-- What `datetime.fromisoformat` and `float` give for a text, the texts that UTF-8 encodes, the
first and the last time that a `datetime` holds, and the limits of the mempool. A text of Python may
have an unpaired surrogate, as JSON's `"\ud800"` does: the model's text stands for it, and it is not
`encodable`. -/
structure SubmissionConfig extends Client.ClientConfig where
  fromIsoformat : String → Option IsoTime
  floatOfText : String → Option ℤ
  encodable : String → Bool
  earliest : Instant
  latest : Instant
  maxTxSizeBytes : ℕ
  mempoolMaxFee : ℤ
  mempoolTxTtlSeconds : ℕ

/-! ## Admission -/

/-- A row of `mempool_transactions` as a selection decodes it. -/
structure ReceivedRow where
  txHash : String
  txType : TxType
  sender : String
  recipient : Value
  amountUnits : ℤ
  feeUnits : ℤ
  nonce : ℤ
  payload : Value
  timestamp : Value
  publicKey : Value
  signature : Value
  networkId : Value
  chainId : Value

def TxType.parse (text : String) : TxType :=
  match text with
  | "transfer" => .transfer
  | "stake" => .stake
  | "unstake" => .unstake
  | "science_job_create" => .scienceJobCreate
  | "governance_action" => .governanceAction
  | "treasury_claim" => .treasuryClaim
  | "faucet" => .faucet
  | name => .unsupported name

/-- The required fields of a transaction, sorted. -/
def transactionRequiredFields : List String :=
  ["chain_id", "fee", "network_id", "nonce", "payload", "public_key", "sender", "signature",
    "timestamp", "tx_hash", "tx_type"]

/-- `canonical_transaction_timestamp`: a time without an offset is one of UTC. -/
def canonicalTransactionTimestamp (sc : SubmissionConfig) (value : Value) : Option Instant :=
  let timestamp := (Client.toText sc.toClientConfig value).toList
  let timestamp :=
    if timestamp.getLast? = some 'Z' then timestamp.dropLast ++ "+00:00".toList else timestamp
  (sc.fromIsoformat (String.ofList timestamp)).map IsoTime.instant

/-- `tx["tx_type"]`, looked up in a set; what cannot be hashed raises. -/
def readTxType (tx : Value) : Except Client.PyError TxType := do
  match ← Client.item tx "tx_type" with
  | .str name => return .parse name
  | .arr _ | .obj _ => .error .type
  | _ => return .unsupported ""

/-- The text of a value that is one. -/
def textValue : Value → Option String
  | .str s => some s
  | _ => none

/-- The value can be bound to a column. -/
def bindable (sc : SubmissionConfig) : Value → Bool
  | .arr _ | .obj _ => false
  | .int i => -2 ^ 63 ≤ i && i < 2 ^ 63
  | .str text => sc.encodable text
  | _ => true

/-- The checks of `_validate_signed_transaction` on the units of the transaction. -/
def checkUnits (sc : SubmissionConfig) (nonce feeUnits amountUnits : ℤ) :
    Except ImportError Unit :=
  if nonce < 1 then .error (.network 422 "nonce must be >= 1")
  else if feeUnits < 0 ∨ sc.mempoolMaxFee < unitsToFloat feeUnits then
    .error (.network 422 "invalid fee")
  else if feeUnits < sc.minTxFeeUnits then
    let minimum := sc.minTxFeeUnits
    .error (.network 422 s!"transaction fee below minimum ({minimum} units)")
  else if amountUnits < 0 then .error (.network 422 "amount must be >= 0")
  else .ok ()

/-- `expires_at` is a time. -/
def expires (sc : SubmissionConfig) (timestamp : Value) : Bool :=
  (canonicalTransactionTimestamp sc timestamp).any fun instant =>
    instant + seconds sc.mempoolTxTtlSeconds ≤ sc.latest

/-- `_validate_signed_transaction`, and the row that `submit_transaction` inserts. -/
def receiveTransaction (sc : SubmissionConfig) (tx : Value) : Except ImportError ReceivedRow := do
  let missing := transactionRequiredFields.filter fun key => (Client.item tx key).toOption.isNone
  if missing ≠ [] then
    let names := ", ".intercalate missing
    .error (.network 422 s!"missing transaction fields: {names}")
  else if sc.maxTxSizeBytes < (canonicalJson tx).length then
    .error (.network 413 "transaction payload too large")
  else
    let txType ← python (readTxType tx)
    if !txType.supported then .error (.network 422 "unsupported transaction type")
    else
      let nonce ← python (do Client.toInt sc.toClientConfig (← Client.item tx "nonce"))
      let feeUnits ← python (Client.moneyUnits sc.toClientConfig tx "fee_units" "fee")
      let amountUnits ← python (Client.moneyUnits sc.toClientConfig tx "amount_units" "amount")
      checkUnits sc nonce feeUnits amountUnits
      let timestamp ← python (Client.item tx "timestamp")
      let recipient ← python (Client.get tx "recipient")
      if (canonicalTransactionTimestamp sc timestamp).isNone then
        .error (.network 422 "invalid transaction timestamp")
      -- only a transfer needs a recipient
      else if txType = .transfer ∧ isValidAddress sc.toConfig (textValue recipient) = false then
        .error (.network 422 "transfer transaction requires a valid PI recipient")
      else
        let sender ← python (Client.item tx "sender")
        let publicKey ← python (Client.item tx "public_key")
        if !Client.addressMatches sc.toConfig sender publicKey then
          .error (.network 401 "sender address does not match public key")
        else
          let networkId ← python (Client.item tx "network_id")
          let chainId ← python (Client.item tx "chain_id")
          if !Client.sameValue networkId (.str sc.networkId) ||
              Client.toText sc.toClientConfig chainId ≠ sc.chainId.str then
            .error (.network 409 "transaction network or chain mismatch")
          else
            let unsigned ← python (Client.unsignedFromValue sc.toClientConfig tx)
            let txHash ← python (Client.item tx "tx_hash")
            let signature ← python (Client.item tx "signature")
            match Client.matchingSignaturePayload sc.toConfig unsigned publicKey txHash with
            | none => .error (.network 401 "transaction hash mismatch")
            | some payload =>
              if !Client.verifyPayload sc.toConfig publicKey payload signature then
                .error (.network 401 "invalid transaction signature")
              -- what `datetime` and SQLite cannot hold raises
              else if !expires sc timestamp then .error (.other "date value out of range")
              else if !([recipient, .int nonce, .int feeUnits, .int amountUnits].all (bindable sc)) then
                .error (.other "Error binding parameter")
              else
                return {
                  txHash := Client.toText sc.toClientConfig txHash
                  txType
                  sender := Client.toText sc.toClientConfig sender
                  recipient
                  amountUnits
                  feeUnits
                  nonce
                  payload := unsigned.payload
                  timestamp := unsigned.timestamp
                  publicKey
                  signature
                  networkId
                  chainId }

/-! ## What a selection reads -/

/-- The dictionary of a row, for the check of its signature. -/
def ReceivedRow.toValue (row : ReceivedRow) : Value :=
  .obj [("tx_hash", .str row.txHash), ("tx_type", .str row.txType.name),
    ("sender", .str row.sender), ("recipient", row.recipient), ("amount_units", .int row.amountUnits),
    ("fee_units", .int row.feeUnits), ("nonce", .int row.nonce), ("payload", row.payload),
    ("timestamp", row.timestamp), ("public_key", row.publicKey), ("signature", row.signature),
    ("network_id", row.networkId), ("chain_id", row.chainId)]

/-- `payload or {}`. -/
def ReceivedRow.payloadOrEmpty (row : ReceivedRow) : Value :=
  Client.orElse row.payload (.obj [])

/-- `int(value)`, which a float that is not finite does not have. -/
def readInt (sc : SubmissionConfig) : Value → Except Client.PyError ℤ
  | .float x =>
    if |x| < floatLimit then Client.toInt sc.toClientConfig (.float x) else .error .value
  | value => Client.toInt sc.toClientConfig value

/-- `float(value or 0)`. An integer that no float holds is refused by `float`. -/
def floatOrZero (sc : SubmissionConfig) (value : Value) : Except Client.PyError ℤ :=
  if !Client.truthy value then .ok 0
  else match value with
    | .bool _ => .ok (10 ^ 8)
    | .int i => if |i| < floatBound then .ok (i * 10 ^ 8) else .error .value
    | .float x => .ok x
    | .str text => match sc.floatOfText text with
      | none => .error .value
      | some x => .ok x
    | _ => .error .type

/-- The text of a payload field; an absent one is `none`. -/
def textOfField (sc : SubmissionConfig) (fields : List (String × Value)) (key : String) :
    Option String :=
  (fields.lookup key).bind fun value =>
    if Client.truthy value then some (Client.toText sc.toClientConfig value) else none

/-- The number of a payload field. -/
def numberOfField (sc : SubmissionConfig) (fields : List (String × Value)) (key : String) :
    Option ℤ :=
  match fields.lookup key with
  | none | some .null => none
  | some value => (floatOrZero sc value).toOption

/-- The reward of a payload field. No comparison with `NaN` holds, so that a job with it passes the
checks that one without reward passes. -/
def rewardOfField (sc : SubmissionConfig) (fields : List (String × Value)) (key : String) :
    Option ℤ :=
  (numberOfField sc fields key).map fun reward => if reward = nanUnits then 0 else reward

/-- A required field counts as soon as the key is there. -/
def presentText (fields : List (String × Value)) (sc : SubmissionConfig) (key : String) :
    Option String :=
  (fields.lookup key).map fun value => Client.toText sc.toClientConfig value

/-- The payload that the checks read where they raise nothing. -/
def ReceivedRow.readPayload (sc : SubmissionConfig) (row : ReceivedRow) : Payload :=
  match row.payloadOrEmpty with
  | .obj fields =>
    { stakeType := textOfField sc fields "stake_type"
      type := textOfField sc fields "type"
      validatorId := textOfField sc fields "validator_id"
      jobType := presentText fields sc "job_type"
      metadataHash := presentText fields sc "metadata_hash"
      storagePointer := presentText fields sc "storage_pointer"
      rewardBudget := rewardOfField sc fields "reward_budget"
      maxComputeUnits := numberOfField sc fields "max_compute_units"
      rewardPerComputeUnit := numberOfField sc fields "reward_per_compute_unit"
      maxReward := rewardOfField sc fields "max_reward"
      jobId := textOfField sc fields "job_id"
      scope := textOfField sc fields "scope"
      action := textOfField sc fields "action"
      threshold := (fields.lookup "threshold").bind fun value =>
        (readInt sc (Client.orElse value (.int 2))).toOption
      claimTo := textOfField sc fields "claim_to"
      claimId := textOfField sc fields "claim_id" }
  | _ => {}

/-- The transaction that the checks read where they raise nothing. -/
def ReceivedRow.toTx (sc : SubmissionConfig) (row : ReceivedRow) : Tx :=
  decodeMempoolTransaction
    { txHash := row.txHash
      txType := row.txType
      sender := row.sender
      recipient := match row.recipient with
        | .null => none
        | value => some (Client.toText sc.toClientConfig value)
      amountUnits := some row.amountUnits
      feeUnits := some row.feeUnits
      nonce := row.nonce
      payload := row.readPayload sc
      timestamp := ⟨Client.toText sc.toClientConfig row.timestamp,
        (canonicalTransactionTimestamp sc row.timestamp).getD 0⟩
      publicKey := Client.toText sc.toClientConfig row.publicKey
      signature := Client.toText sc.toClientConfig row.signature
      networkId := some (Client.toText sc.toClientConfig row.networkId)
      chainId := some (.text (Client.toText sc.toClientConfig row.chainId)) }

/-- `payload.get(…)`. -/
def ReceivedRow.readFields (row : ReceivedRow) : Except Client.PyError (List (String × Value)) :=
  match row.payloadOrEmpty with
  | .obj fields => .ok fields
  | _ => .error .attribute

/-- `datetime.fromisoformat(tx["timestamp"])`, compared with times that have an offset. -/
def readTimestamp (sc : SubmissionConfig) (row : ReceivedRow) (compared : Bool) :
    Except Client.PyError Unit :=
  match row.timestamp with
  | .str text => match sc.fromIsoformat text with
    | none => .error .value
    | some time => if compared ∧ time.aware = false then .error .type else .ok ()
  | _ => .error .type

/-- A text that a query binds. -/
def bindText (sc : SubmissionConfig) (text : String) : Except Client.PyError Unit :=
  if sc.encodable text then .ok () else .error .value

/-- What the checks of a stake and an unstake read: the query for the validator binds its id. -/
def readStake (sc : SubmissionConfig) (row : ReceivedRow) : Except Client.PyError Unit := do
  let _ ← row.readFields
  let tx := row.toTx sc
  -- the check of a stake has looked at its amount before
  let binds := isValidatorStakeTx tx && startsWith (validatorStakeValidatorId tx) "validator_" &&
    (row.txType = .unstake || 0 < txAmountUnits tx)
  if binds then bindText sc (validatorStakeValidatorId tx) else return ()

/-- The numbers of a budget in the order of `_normalize_compute_budget`, which stops at the first
negative one. -/
def readBudget (sc : SubmissionConfig) : List Value → Except Client.PyError Unit
  | [] => .ok ()
  | value :: rest => do
    if (← floatOrZero sc value) < 0 then return () else readBudget sc rest

/-- `set(payload)`: the keys that it has, of those that a job needs. -/
def readKeys : Value → Except Client.PyError (List String)
  | .obj fields => .ok (fields.map Prod.fst)
  | .str text => .ok (text.toList.map String.singleton)
  | .arr items => items.mapM fun item => match item with
    | .str s => .ok s
    | .arr _ | .obj _ => .error .type
    | _ => .ok ""
  | _ => .error .type

/-- The science account of the sender is active. -/
def scienceActive (s : NodeState) (sender : String) : Bool :=
  (s.science.stakeAccounts.find? sender).any fun account =>
    account.status = .active && account.tier.isSome

/-- The reward cap of a job is `NaN`. -/
def capIsNan (sc : SubmissionConfig) (row : ReceivedRow) : Bool :=
  match row.payloadOrEmpty with
  | .obj fields =>
    (numberOfField sc fields "max_reward").or (numberOfField sc fields "reward_budget") =
      some nanUnits
  | _ => false

/-- The job has a reward cap that is not zero. -/
def capCounts (sc : SubmissionConfig) (row : ReceivedRow) : Bool :=
  capIsNan sc row ||
    match scienceJobBudgetFromPayload sc.toConfig (row.readPayload sc) with
    | .ok budget => 0 < budget.rewardCap
    | .error _ => false

/-- What `_science_job_create_rejection_reason` reads: its last query binds the id of the job. -/
def readScienceJob (sc : SubmissionConfig) (now : Instant) (s : NodeState) (row : ReceivedRow) :
    Except Client.PyError Unit := do
  let keys ← readKeys row.payloadOrEmpty
  if !(["job_type", "metadata_hash", "storage_pointer"].all fun key => key ∈ keys) then return ()
  else if !scienceActive s row.sender then return ()
  else
    let fields ← row.readFields
    let field (key : String) := (fields.lookup key).getD .null
    readBudget sc [field "reward_budget", field "max_reward", field "max_compute_units",
      field "reward_per_compute_unit"]
    let reason := scienceJobCreateRejectionReason sc.toConfig now s (row.toTx sc)
    if capCounts sc row ∧ (reason = none ∨ reason = some "science job already exists") then
      bindText sc (scienceJobId (row.toTx sc))
    else return ()

/-- The execution of an activation gets as far as the threshold. -/
def readsThreshold (s : NodeState) (tx : Tx) : Bool :=
  let governance := s.science.reserveGovernance
  lower (clean tx.payload.scope) = "science_reserve" &&
    governanceAction tx = some .executeActivation &&
    (governance.authorizedSigners = [] || tx.sender ∈ governance.authorizedSigners) &&
    governance.status ≠ .l2Active && governance.activationAvailableAt.isSome

/-- What `_governance_action_rejection_reason` reads. -/
def readGovernanceAction (sc : SubmissionConfig) (s : NodeState) (row : ReceivedRow) :
    Except Client.PyError Unit := do
  let fields ← row.readFields
  if !readsThreshold s (row.toTx sc) then return ()
  else
    let threshold ← readInt sc (Client.orElse ((fields.lookup "threshold").getD .null) (.int 2))
    if (s.science.reserveGovernance.approvals.length : ℤ) < threshold then return ()
    else readTimestamp sc row true

/-- What `_treasury_claim_rejection_reason` reads: its last query binds the id of the claim. -/
def readTreasuryClaim (sc : SubmissionConfig) (now : Instant) (s : NodeState)
    (row : ReceivedRow) : Except Client.PyError Unit := do
  let _ ← row.readFields
  let claimTo :=
    strip (textOr (row.readPayload sc).claimTo sc.scientificDevelopmentTreasuryWallet)
  if row.sender ≠ sc.scientificDevelopmentGovernanceWallet ∨
      claimTo ≠ sc.scientificDevelopmentTreasuryWallet then return ()
  else
    readTimestamp sc row (s.treasury.epochs.rows.any fun r => r.2.isLocked)
    let reason := treasuryClaimRejectionReason sc.toConfig now s (row.toTx sc)
    if reason = none ∨ reason = some "treasury claim already exists" then
      bindText sc (treasuryClaimId (row.toTx sc))
    else return ()

/-- `_faucet_rejection_reason` gets as far as its window. -/
def readsWindow (sc : SubmissionConfig) (s : NodeState) (tx : Tx) : Bool :=
  sc.networkId ∈ sc.faucetAllowedNetworks && 0 < txAmount tx && txAmount tx ≤ faucetMaxAmount &&
    (tx.recipient = none || tx.recipient = some "" || tx.recipient = some tx.sender) &&
    txFee tx = 0 && txAmount tx ≤ s.ledger.balance genesisAccountId

/-- What `_faucet_rejection_reason` computes: the start of its window has to be a date. -/
def readFaucet (sc : SubmissionConfig) (s : NodeState) (row : ReceivedRow) :
    Except Client.PyError Unit :=
  let tx := row.toTx sc
  if readsWindow sc s tx = true ∧
      tx.timestamp.instant - seconds faucetRateLimitWindowSeconds < sc.earliest then .error .value
  else .ok ()

/-- What the check of a transaction's kind reads. -/
def readKind (sc : SubmissionConfig) (now : Instant) (s : NodeState) (row : ReceivedRow) :
    Except Client.PyError Unit :=
  match row.txType with
  | .stake | .unstake => readStake sc row
  | .scienceJobCreate => readScienceJob sc now s row
  | .governanceAction => readGovernanceAction sc s row
  | .treasuryClaim => readTreasuryClaim sc now s row
  | .faucet => readFaucet sc s row
  | .transfer | .unsupported _ => .ok ()

/-- The check of a transaction's kind where it can read it. A job whose reward cap is `NaN` still
gets to the look-up of its id, which one without reward does not. -/
def receivedKindReason (sc : SubmissionConfig) (now : Instant) (s : NodeState) (row : ReceivedRow)
    (reserved : List Instant) : Option String :=
  let tx := row.toTx sc
  (kindRejectionReason sc.toConfig now s tx reserved false).or <|
    if row.txType = .scienceJobCreate ∧ capIsNan sc row ∧
        (s.science.jobs.find? (scienceJobId tx)).isSome then some "science job already exists"
    else none

/-! ## The selection -/

/-- `_basic_transaction_rejection_reason`. -/
def receivedBasicReason (sc : SubmissionConfig) (row : ReceivedRow) : Option String :=
  if !row.txType.supported then some "unsupported transaction type for block execution"
  else if !Client.isSignatureValidValue sc.toClientConfig row.toValue then
    some "invalid transaction signature"
  else if !Client.sameValue row.networkId (.str sc.networkId) ||
      Client.toText sc.toClientConfig row.chainId ≠ sc.chainId.str then
    some "transaction network or chain mismatch"
  else if row.feeUnits < sc.minTxFeeUnits then some "transaction fee below minimum"
  else if row.amountUnits < 0 then some "amount must be non-negative"
  else none

/-- The checks of `_transaction_rejection_reason` before that of the transaction's kind. -/
def receivedCommonReason (s : NodeState) (tx : Tx) (expected : ExpectedNonces) : Option String :=
  let next := expectedNonce s expected tx.sender
  if txFeeUnits tx < 0 then some "fee must be non-negative"
  else if tx.nonce ≠ next then some s!"invalid nonce, expected {next}"
  else if s.ledger.balance tx.sender < unitsToFloat (totalDebitUnits tx) then
    some "insufficient balance"
  else none

/-- `_transaction_rejection_reason`, for a transaction whose signature has been checked. -/
def receivedReason (sc : SubmissionConfig) (now : Instant) (s : NodeState) (row : ReceivedRow)
    (expected : ExpectedNonces) (reserved : List Instant) :
    Except Client.PyError (Option String) := do
  let tx := row.toTx sc
  match receivedCommonReason s tx expected with
  | some reason => return some reason
  | none =>
    readKind sc now s row
    return receivedKindReason sc now s row reserved

/-- One row of a pass. -/
def considerReceived (sc : SubmissionConfig) (now : Instant) (s : NodeState) (maxCount : ℕ)
    (sel : Selection) (row : ReceivedRow) : Except Client.PyError Selection := do
  let tx := row.toTx sc
  let s := { s with mempool := sel.mempool }
  let next := expectedNonce s sel.expected tx.sender
  if maxCount ≤ sel.selected.length ∨ tx.txHash ∈ sel.selected.map Tx.txHash then return sel
  else match receivedBasicReason sc row with
    | some reason => return sel.fail tx reason
    | none =>
      if tx.nonce < next then return sel.fail tx s!"invalid nonce, expected {next}"
      -- it waits for the sender's earlier ones, in a later pass
      else if next < tx.nonce then return sel
      else match ← receivedReason sc now s row sel.expected (sel.reservedFaucet tx.sender) with
        | some reason => return sel.fail tx reason
        | none =>
          -- not rejected: the balance may be enough for another block
          if s.ledger.balanceUnits tx.sender <
              sel.reservedUnits tx.sender + totalDebitUnits tx then return sel
          else return sel.take tx

/-- The passes over the pending rows. -/
def receivedPasses (sc : SubmissionConfig) (now : Instant) (s : NodeState) (maxCount : ℕ)
    (rows : List ReceivedRow) : ℕ → Selection → Except Client.PyError Selection
  | 0, sel => .ok sel
  -- each pass but the last takes a transaction, so `maxCount` passes are enough
  | fuel + 1, sel => do
    let sel ← rows.foldlM (considerReceived sc now s maxCount) { sel with progress := false }
    if sel.progress ∧ sel.selected.length < maxCount then
      receivedPasses sc now s maxCount rows fuel sel
    else return sel

/-- `select_transactions_for_task`, for the pending rows in selection order. -/
def selectReceived (sc : SubmissionConfig) (now : Instant) (s : NodeState) (maxCount : ℕ)
    (rows : List ReceivedRow) : Except Client.PyError (List Tx) := do
  return (← receivedPasses sc now s maxCount rows maxCount (emptySelection s.mempool)).selected

end Picoin
