import Picoin.Services.Rejection

/-!
# Executing the transactions of a block

`applyBlockTransactions` checks and executes the transactions of a block in order; the first one
that fails makes the whole block fail, and the caller's transaction rolls the database back. Each
kind has its handler, which works on the tables it needs; `executeTransaction` puts them back into
the node's state.

A block is executed with `canonicalReplay` when it comes from another node: nonce gaps are then
allowed, and a stake on an unknown validator registers the validator.
-/

namespace Picoin

open Outcome

/-- The data of the block that a transaction is executed in. -/
structure BlockContext where
  minerId : String
  minerAccountType : String
  blockHeight : ℤ
  timestamp : Timestamp
  canonicalReplay : Bool

/-! ## Handlers that only move coins -/

/-- `_apply_transfer_transaction`. -/
def applyTransferTransaction (ctx : BlockContext) (l : Ledger) (tx : Tx) :
    Except ExecError Ledger := do
  let amount := txAmount tx
  let fee := txFee tx
  let recipient := tx.recipient.getD ""
  let sender := tx.sender
  let l ← applyAccountDelta l sender "wallet" (-(amount + fee)) "transfer_debit" ctx.blockHeight
    tx.txHash s!"transfer debit to {recipient}" ctx.timestamp.text
  applyAccountDelta l recipient "wallet" amount "transfer_credit" ctx.blockHeight tx.txHash
    s!"transfer credit from {sender}" ctx.timestamp.text

/-- `_apply_faucet_transaction`. -/
def applyFaucetTransaction (cfg : Config) (ctx : BlockContext) (l : Ledger) (tx : Tx) :
    Except ExecError Ledger := do
  let amount := txAmount tx
  let network := cfg.networkId
  let l ← applyAccountDelta l genesisAccountId "genesis" (-amount) "faucet_debit" ctx.blockHeight
    tx.txHash s!"{network} faucet debit for wallet" ctx.timestamp.text
  applyAccountDelta l tx.sender "wallet" amount "faucet_credit" ctx.blockHeight tx.txHash
    s!"{network} faucet credit" ctx.timestamp.text

/-- The fee debit of the handlers that move no other coins of the sender. -/
def applyFeeDebit (ctx : BlockContext) (l : Ledger) (tx : Tx) (fee : ℤ)
    (entryType description : String) : Except ExecError Ledger :=
  if 0 < fee then
    applyAccountDelta l tx.sender "wallet" (-fee) entryType ctx.blockHeight tx.txHash description
      ctx.timestamp.text
  else .ok l

/-- `_apply_fee_reward`. -/
def applyFeeReward (ctx : BlockContext) (l : Ledger) (tx : Tx) : Except ExecError Ledger :=
  if txFee tx ≤ 0 then .ok l
  else
    applyAccountDelta l ctx.minerId ctx.minerAccountType (txFee tx) "transaction_fee_reward"
      ctx.blockHeight tx.txHash "transaction fee reward" ctx.timestamp.text

/-! ## Science handlers -/

/-- `_apply_science_stake_transaction`. -/
def applyScienceStakeTransaction (cfg : Config) (now : Instant) (ctx : BlockContext) (l : Ledger)
    (sci : ScienceTables) (tx : Tx) : Except ExecError (Ledger × ScienceTables) := do
  let amount := txAmount tx
  let fee := txFee tx
  let existingAmount :=
    ((sci.stakeAccounts.find? tx.sender).map ScienceAccountRow.stakeAmount).getD 0
  let l ← applyAccountDelta l tx.sender "wallet" (-(amount + fee)) "science_stake_debit"
    ctx.blockHeight tx.txHash "science stake lock" ctx.timestamp.text
  let l ← applyAccountDelta l (scienceStakeAccountId tx.sender) "science_stake" amount
    "science_stake_lock" ctx.blockHeight tx.txHash "science stake lock" ctx.timestamp.text
  -- the tier is chosen for the whole stake
  let sci ← stakeScienceAccessInConnection now sci tx.sender (existingAmount + amount)
    ("science_" ++ takeChars 16 (cfg.sha256Text tx.sender))
  return (l, sci)

/-- `_apply_science_unstake_transaction`. -/
def applyScienceUnstakeTransaction (ctx : BlockContext) (l : Ledger) (sci : ScienceTables)
    (tx : Tx) : Except ExecError (Ledger × ScienceTables) := do
  match sci.stakeAccounts.find? tx.sender with
  | none => .error (.value "science stake account is missing")
  | some account =>
    -- all of it; the amount of the transaction is not read
    let amount := account.stakeAmount
    let l ← applyFeeDebit ctx l tx (txFee tx) "science_unstake_fee_debit" "science unstake fee"
    let l ← applyAccountDelta l (scienceStakeAccountId tx.sender) "science_stake" (-amount)
      "science_stake_unlock" ctx.blockHeight tx.txHash "science stake unlock" ctx.timestamp.text
    let l ← applyAccountDelta l tx.sender "wallet" amount "science_unstake_credit" ctx.blockHeight
      tx.txHash "science stake unlock" ctx.timestamp.text
    let sci ← unstakeScienceAccessInConnection sci tx.sender
    return (l, sci)

/-- What `_apply_science_job_create_transaction` and `_apply_governance_action_transaction` make
of an error of the science service. -/
def scienceErrorAsExecution {α : Type} (x : Except ExecError α) : Except ExecError α :=
  match x with
  | .error (.science _ detail) => .error (.transactionExecution detail)
  | x => x

/-- What `_apply_treasury_claim_transaction` makes of an error of the treasury service. -/
def treasuryErrorAsExecution {α : Type} (x : Except ExecError α) : Except ExecError α :=
  match x with
  | .error (.treasury _ detail) => .error (.transactionExecution detail)
  | x => x

/-- `_apply_science_job_create_transaction`. -/
def applyScienceJobCreateTransaction (cfg : Config) (now : Instant) (ctx : BlockContext)
    (l : Ledger) (sci : ScienceTables) (tx : Tx) :
    Except ExecError (Ledger × ScienceTables) := do
  let l ← applyFeeDebit ctx l tx (txFee tx) "science_job_fee_debit" "science job create fee"
  let p := tx.payload
  let sci ← scienceErrorAsExecution <|
    createScienceJobInConnection cfg now sci tx.sender (p.jobType.getD "")
      (p.metadataHash.getD "") (p.storagePointer.getD "") p.rewardBudget p.maxComputeUnits
      p.rewardPerComputeUnit p.maxReward (scienceJobId tx)
  return (l, sci)

/-- The governance operation of an action. -/
def runGovernanceAction (cfg : Config) (ctx : BlockContext) (governance : GovernanceRow)
    (sender : String) : Option GovernanceAction → Except ExecError GovernanceRow
  | some .proposeActivation =>
    proposeScienceReserveActivation cfg governance sender ctx.timestamp.instant
  | some .approveActivation => approveScienceReserveActivation cfg governance sender
  | some .executeActivation => executeScienceReserveActivation governance ctx.timestamp.instant
  | some .pause => pauseScienceReserve cfg governance sender
  | some .unpause => unpauseScienceReserve cfg governance sender
  | none => .error (.transactionExecution "unsupported science reserve governance action")

/-- `_apply_governance_action_transaction`. -/
def applyGovernanceActionTransaction (cfg : Config) (ctx : BlockContext) (l : Ledger)
    (sci : ScienceTables) (tx : Tx) : Except ExecError (Ledger × ScienceTables) := do
  let l ← applyFeeDebit ctx l tx (txFee tx) "governance_action_fee_debit" "governance action fee"
  let reserveGovernance ← scienceErrorAsExecution <|
    runGovernanceAction cfg ctx sci.reserveGovernance tx.sender (governanceAction tx)
  return (l, { sci with reserveGovernance })

/-! ## Validator handlers -/

/-- The row that canonical replay registers for an unknown validator. -/
def canonicalReplayValidatorRow (cfg : Config) (tx : Tx) (timestamp : String) : ValidatorRow :=
  let validatorId := validatorStakeValidatorId tx
  let rewardAddress := cleanOrNone tx.payload.rewardAddress
  { name := takeChars 80 (textOr tx.payload.validatorName
      (textOr tx.payload.name s!"canonical-replay:{validatorId}"))
    publicKey := takeChars 256 (textOr tx.payload.validatorPublicKey
      (textOr tx.payload.publicKey s!"ed25519:canonical-replay:{validatorId}"))
    rewardAddress := if isValidAddress cfg rewardAddress then rewardAddress else none
    registeredAt := timestamp
    acceptedJobs := 0
    rejectedJobs := 0
    invalidResults := 0
    trustScore := 1
    cooldownUntil := none
    lastSeenAt := some timestamp
    totalValidationMs := 0
    stakeLocked := cfg.validatorRegistrationStake
    walletStakeLocked := 0
    stakeOwnerAddress := none
    slashedAmount := 0
    isBanned := false
    enabled := true
    protocolVersion := some cfg.protocolVersion }

/-- `_ensure_canonical_replay_validator_registration`. -/
def ensureCanonicalReplayValidatorRegistration (cfg : Config)
    (validators : Sql.Table String ValidatorRow) (tx : Tx) (timestamp : String) :
    Sql.Table String ValidatorRow :=
  let validatorId := validatorStakeValidatorId tx
  if startsWith validatorId "validator_" then
    validators.insertNew validatorId (canonicalReplayValidatorRow cfg tx timestamp)
  else validators

/-- The validators' table that a stake works on. -/
def stakeValidators (cfg : Config) (ctx : BlockContext)
    (validators : Sql.Table String ValidatorRow) (tx : Tx) : Sql.Table String ValidatorRow :=
  if ctx.canonicalReplay then
    ensureCanonicalReplayValidatorRegistration cfg validators tx ctx.timestamp.text
  else validators

/-- The effect of a stake on the validator's row. -/
def ValidatorRow.stake (amount : ℤ) (sender timestamp : String) (row : ValidatorRow) :
    ValidatorRow :=
  { row with
    stakeLocked := row.stakeLocked + amount
    walletStakeLocked := row.walletStakeLocked + amount
    stakeOwnerAddress :=
      if row.walletStakeLocked ≤ 0 ∨ row.stakeOwnerAddress.getD "" = "" then some sender
      else row.stakeOwnerAddress
    lastSeenAt := some timestamp }

/-- `_apply_validator_stake_transaction`. -/
def applyValidatorStakeTransaction (cfg : Config) (ctx : BlockContext) (l : Ledger)
    (validators : Sql.Table String ValidatorRow) (tx : Tx) :
    Except ExecError (Ledger × Sql.Table String ValidatorRow) := do
  let amount := unitsToFloat (txAmountUnits tx)
  let sender := tx.sender
  let validatorId := validatorStakeValidatorId tx
  let validators := stakeValidators cfg ctx validators tx
  let l ← applyAccountDelta l sender "wallet" (-unitsToFloat (txAmountUnits tx + txFeeUnits tx))
    "validator_stake_debit" ctx.blockHeight tx.txHash s!"validator stake lock for {validatorId}"
    ctx.timestamp.text
  let l ← applyAccountDelta l validatorId "validator" amount "validator_stake_lock"
    ctx.blockHeight tx.txHash s!"validator stake lock from {sender}" ctx.timestamp.text
  if validators.find? validatorId = none then
    .error (.transactionExecution "validator stake requires registered validator")
  else
    return (l, validators.modify validatorId (.stake amount sender ctx.timestamp.text))

/-- The effect of an unstake on the validator's row. -/
def ValidatorRow.unstake (amountUnits : ℤ) (timestamp : String) (row : ValidatorRow) :
    ValidatorRow :=
  let remainingUnits := max 0 (unitsOf row.stakeLocked - amountUnits)
  let remainingWalletUnits := max 0 (unitsOf row.walletStakeLocked - amountUnits)
  { row with
    stakeLocked := unitsToFloat remainingUnits
    walletStakeLocked := unitsToFloat remainingWalletUnits
    stakeOwnerAddress := if 0 < remainingWalletUnits then row.stakeOwnerAddress else none
    lastSeenAt := some timestamp }

/-- `_apply_validator_unstake_transaction`. -/
def applyValidatorUnstakeTransaction (cfg : Config) (ctx : BlockContext) (l : Ledger)
    (validators : Sql.Table String ValidatorRow) (tx : Tx) :
    Except ExecError (Ledger × Sql.Table String ValidatorRow) := do
  match validatorUnstakeRow validators tx with
  | none => .error (.transactionExecution "validator unstake requires registered validator")
  | some row =>
    let validatorId := validatorStakeValidatorId tx
    let sender := tx.sender
    let amountUnits := validatorUnstakeAmountUnits cfg tx row
    let amount := unitsToFloat amountUnits
    let l ← applyFeeDebit ctx l tx (unitsToFloat (txFeeUnits tx)) "validator_unstake_fee_debit"
      "validator unstake fee"
    let l ← applyAccountDelta l validatorId "validator" (-amount) "validator_stake_unlock"
      ctx.blockHeight tx.txHash s!"validator stake unlock to {sender}" ctx.timestamp.text
    let l ← applyAccountDelta l sender "wallet" amount "validator_unstake_credit" ctx.blockHeight
      tx.txHash s!"validator stake unlock from {validatorId}" ctx.timestamp.text
    return (l, validators.modify validatorId (.unstake amountUnits ctx.timestamp.text))

/-! ## Treasury handler -/

/-- `_apply_treasury_claim_transaction`. The aggregate row that the preceding check inserts when
there is none is inserted here. -/
def applyTreasuryClaimTransaction (cfg : Config) (now : Instant) (ctx : BlockContext) (l : Ledger)
    (t : TreasuryTables) (tx : Tx) : Except ExecError (Ledger × TreasuryTables) := do
  let t := { t with treasury := some (t.treasury.getD (bootstrapTreasuryRow cfg now)) }
  let l ← applyFeeDebit ctx l tx (txFee tx) "treasury_claim_fee_debit"
    "scientific development treasury claim fee"
  let (t, l) ← treasuryErrorAsExecution <|
    claimScientificDevelopmentTreasuryInConnection cfg now t l (some tx.sender)
      tx.payload.claimTo (treasuryClaimId tx) ctx.timestamp.instant
  return (l, t)

/-! ## A block -/

/-- The handler of the transaction's kind. -/
def executeTransaction (cfg : Config) (now : Instant) (ctx : BlockContext) (s : NodeState)
    (tx : Tx) : Except ExecError NodeState :=
  match tx.txType with
  | .transfer => do
    let ledger ← applyTransferTransaction ctx s.ledger tx
    return { s with ledger }
  | .stake =>
    if isValidatorStakeTx tx then do
      let (ledger, validators) ← applyValidatorStakeTransaction cfg ctx s.ledger s.validators tx
      return { s with ledger, validators }
    else do
      let (ledger, science) ← applyScienceStakeTransaction cfg now ctx s.ledger s.science tx
      return { s with ledger, science }
  | .unstake =>
    if isValidatorStakeTx tx then do
      let (ledger, validators) ← applyValidatorUnstakeTransaction cfg ctx s.ledger s.validators tx
      return { s with ledger, validators }
    else do
      let (ledger, science) ← applyScienceUnstakeTransaction ctx s.ledger s.science tx
      return { s with ledger, science }
  | .scienceJobCreate => do
    let (ledger, science) ← applyScienceJobCreateTransaction cfg now ctx s.ledger s.science tx
    return { s with ledger, science }
  | .governanceAction => do
    let (ledger, science) ← applyGovernanceActionTransaction cfg ctx s.ledger s.science tx
    return { s with ledger, science }
  | .treasuryClaim => do
    let (ledger, treasury) ← applyTreasuryClaimTransaction cfg now ctx s.ledger s.treasury tx
    return { s with ledger, treasury }
  | .faucet => do
    let ledger ← applyFaucetTransaction cfg ctx s.ledger tx
    return { s with ledger }
  -- the checks before have refused it
  | .unsupported _ => return s

/-- The bookkeeping after a handler: the fee goes to the miner, the mempool row and the nonce are
confirmed. -/
def settleTransaction (ctx : BlockContext) (s : NodeState) (tx : Tx) :
    Except ExecError NodeState := do
  let ledger ← applyFeeReward ctx s.ledger tx
  return { s with
    ledger
    mempool := s.mempool.modify tx.txHash fun row =>
      { row with status := .confirmed, blockHeight := some ctx.blockHeight, failureReason := none }
    accountNonces := recordConfirmedNonce s.accountNonces tx.sender tx.nonce }

/-- The state of the loop over a block: the database and the expected nonces. -/
structure BlockProgress where
  state : NodeState
  expected : ExpectedNonces

/-- One turn of the loop, for the outcome of the checks. -/
def applyCheckedTransaction (cfg : Config) (now : Instant) (ctx : BlockContext)
    (b : BlockProgress) (tx : Tx) (reason : Option String) : Except ExecError BlockProgress := do
  guardNone <| reason.map fun reason =>
    .transactionExecution ("block transaction " ++ tx.txHash ++ " is invalid: " ++ reason)
  let s ← executeTransaction cfg now ctx b.state tx
  let s ← settleTransaction ctx s tx
  return ⟨s, b.expected.set tx.sender (tx.nonce + 1)⟩

/-- One turn of the loop. -/
def applyBlockTransaction (cfg : Config) (now : Instant) (ctx : BlockContext) (b : BlockProgress)
    (tx : Tx) : Except ExecError BlockProgress :=
  applyCheckedTransaction cfg now ctx b tx <|
    transactionRejectionReason cfg now b.state tx b.expected [] ctx.canonicalReplay
      ctx.canonicalReplay

/-- `apply_block_transactions`. -/
def applyBlockTransactions (cfg : Config) (now : Instant) (ctx : BlockContext) (s : NodeState)
    (transactions : List Tx) : Except ExecError NodeState := do
  let b ← transactions.foldlM (applyBlockTransaction cfg now ctx) ⟨s, fun _ => none⟩
  return b.state

/-! ## Blocks with valid signatures -/

/-- One turn of the loop over transactions whose signatures are known to be valid. -/
def applySignedTransaction (cfg : Config) (now : Instant) (ctx : BlockContext)
    (b : BlockProgress) (tx : Tx) : Except ExecError BlockProgress :=
  applyCheckedTransaction cfg now ctx b tx <|
    if !tx.txType.supported then some "unsupported transaction type for block execution"
    else signedRejectionReason cfg now b.state tx b.expected [] ctx.canonicalReplay
      ctx.canonicalReplay

/-- The execution of a block without its signature checks. -/
def applySignedTransactions (cfg : Config) (now : Instant) (ctx : BlockContext) (s : NodeState)
    (transactions : List Tx) : Except ExecError NodeState := do
  let b ← transactions.foldlM (applySignedTransaction cfg now ctx) ⟨s, fun _ => none⟩
  return b.state

/-- Where all signatures are valid, checking them changes nothing. -/
theorem applyBlockTransactions_of_signed {cfg : Config} {transactions : List Tx}
    (hsigned : ∀ tx ∈ transactions, isSignatureValid cfg tx = true) (now : Instant)
    (ctx : BlockContext) (s : NodeState) :
    applyBlockTransactions cfg now ctx s transactions =
      applySignedTransactions cfg now ctx s transactions := by
  unfold applyBlockTransactions applySignedTransactions
  congr 1
  refine foldlM_congr transactions (fun tx htx b => ?_) _
  simp [applyBlockTransaction, applySignedTransaction, transactionRejectionReason, hsigned tx htx]

end Picoin
