import Picoin.Db.Schema
import Picoin.Services.Science
import Picoin.Services.Treasury
import Picoin.Services.Wallet

/-!
# Why a transaction is rejected

The checks that selection and execution share: `transactionRejectionReason` looks at the
signature, the fee, the nonce and the balance, and then at what the kind of transaction asks for.
`none` means that the transaction passes.

The expected nonces of a block are a function from senders to the next nonce, `none` for a sender
without an earlier transaction in the block.
-/

namespace Picoin

/-! ## What a transaction says -/

/-- `_stake_type`. -/
def stakeType (tx : Tx) : String :=
  lower (strip (textOr tx.payload.stakeType (textOr tx.payload.type "science")))

/-- `_is_validator_stake_tx`. -/
def isValidatorStakeTx (tx : Tx) : Bool := stakeType tx = "validator"

/-- `_validator_stake_validator_id`. -/
def validatorStakeValidatorId (tx : Tx) : String :=
  strip (textOr tx.payload.validatorId (textOr tx.recipient ""))

/-- `_science_job_id`. -/
def scienceJobId (tx : Tx) : String :=
  let explicit := clean tx.payload.jobId
  if explicit ≠ "" then explicit else "science_job_" ++ takeChars 16 tx.txHash

/-- `_treasury_claim_id`. -/
def treasuryClaimId (tx : Tx) : String :=
  let explicit := clean tx.payload.claimId
  if explicit ≠ "" then explicit else "treasury_claim_" ++ takeChars 16 tx.txHash

/-- `_total_debit_units`. -/
def totalDebitUnits (tx : Tx) : ℤ :=
  match tx.txType with
  | .transfer | .stake => txAmountUnits tx + txFeeUnits tx
  | .faucet => 0
  | _ => txFeeUnits tx

/-- The account that holds a science stake. -/
def scienceStakeAccountId (sender : String) : String := "science_stake:" ++ sender

/-! ## Nonces -/

/-- The largest confirmed nonce of a sender in the mempool. -/
def confirmedMempoolNonce (mempool : Sql.Table String MempoolRow) (sender : String) : ℤ :=
  let confirmed := (mempool.rows.map Prod.snd).filter fun row =>
    row.tx.sender = sender && row.status = .confirmed
  ((confirmed.map fun row => row.tx.nonce).max?).getD 0

/-- `_confirmed_nonce`. -/
def confirmedNonce (s : NodeState) (sender : String) : ℤ :=
  max ((s.accountNonces.find? sender).getD 0) (confirmedMempoolNonce s.mempool sender)

/-- `_next_selectable_nonce`; no status consumes a nonce. -/
def nextSelectableNonce (s : NodeState) (sender : String) : ℤ := confirmedNonce s sender + 1

/-- `_record_confirmed_nonce`. -/
def recordConfirmedNonce (nonces : Sql.Table String ℤ) (sender : String) (nonce : ℤ) :
    Sql.Table String ℤ :=
  nonces.upsert sender ((nonces.find? sender).elim nonce (max nonce))

/-- The expected nonces of a block. -/
abbrev ExpectedNonces := String → Option ℤ

/-- The expected nonces after a transaction of the sender. -/
def ExpectedNonces.set (expected : ExpectedNonces) (sender : String) (nonce : ℤ) :
    ExpectedNonces :=
  fun a => if a = sender then some nonce else expected a

/-- The nonce that is expected of a sender. -/
def expectedNonce (s : NodeState) (expected : ExpectedNonces) (sender : String) : ℤ :=
  (expected sender).getD (nextSelectableNonce s sender)

/-! ## Checks of each kind -/

/-- `_transfer_rejection_reason`. -/
def transferRejectionReason (cfg : Config) (tx : Tx) : Option String :=
  if txAmountUnits tx ≤ 0 then some "transfer amount must be positive"
  else if !isValidAddress cfg tx.recipient then
    some "transfer transaction requires a valid PI recipient"
  else none

/-- The faucet credits of an account since the text of a timestamp. -/
def recentFaucetCredits (l : Ledger) (sender windowStart : String) : ℕ :=
  l.entries.countP fun e =>
    e.accountId = sender && e.entryType = "faucet_credit" && windowStart ≤ e.createdAt

/-- `_faucet_rejection_reason`. `reserved` are the timestamps of the sender's faucet transactions
that a selection has already taken. -/
def faucetRejectionReason (cfg : Config) (l : Ledger) (tx : Tx) (reserved : List Instant) :
    Option String :=
  let windowStart := tx.timestamp.instant - seconds faucetRateLimitWindowSeconds
  let reservedCount := reserved.countP fun t => windowStart ≤ t && t ≤ tx.timestamp.instant
  if cfg.networkId ∉ cfg.faucetAllowedNetworks then
    some ("faucet is disabled on network '" ++ cfg.networkId ++ "'")
  else if txAmount tx ≤ 0 then some "faucet amount must be positive"
  else if faucetMaxAmount < txAmount tx then some "faucet amount exceeds max 3.1416"
  else if tx.recipient ≠ none ∧ tx.recipient ≠ some "" ∧ tx.recipient ≠ some tx.sender then
    some "faucet transaction recipient must be empty or sender"
  else if txFee tx ≠ 0 then some "faucet transaction fee must be zero"
  else if l.balance genesisAccountId < txAmount tx then
    some "genesis faucet balance is insufficient"
  else if faucetRateLimitMaxRequests ≤
      recentFaucetCredits l tx.sender (isoformat windowStart) + reservedCount then
    some "faucet rate limit exceeded for account"
  else none

/-- `_validator_stake_rejection_reason`. -/
def validatorStakeRejectionReason (validators : Sql.Table String ValidatorRow) (tx : Tx)
    (allowMissingRegistration : Bool) : Option String :=
  let validatorId := validatorStakeValidatorId tx
  if txAmountUnits tx ≤ 0 then some "validator stake amount must be positive"
  else if !startsWith validatorId "validator_" then some "validator stake requires validator_id"
  else match validators.find? validatorId with
    | none =>
      if allowMissingRegistration then none
      else some "validator stake requires registered validator"
    | some row =>
      let stakeOwner := clean row.stakeOwnerAddress
      if 0 < unitsOf row.walletStakeLocked ∧ stakeOwner ≠ "" ∧ stakeOwner ≠ tx.sender then
        some "validator stake owner mismatch"
      else none

/-- `_stake_rejection_reason`. -/
def stakeRejectionReason (s : NodeState) (tx : Tx) (allowMissingRegistration : Bool) :
    Option String :=
  if stakeType tx = "validator" then
    validatorStakeRejectionReason s.validators tx allowMissingRegistration
  else if stakeType tx ≠ "science" then some "unsupported stake_type"
  else if txAmount tx ≤ 0 then some "stake amount must be positive"
  else
    let existingAmount :=
      ((s.science.stakeAccounts.find? tx.sender).map ScienceAccountRow.stakeAmount).getD 0
    if determineScienceTier (existingAmount + txAmount tx) = none then
      some "science stake is below researcher minimum"
    else none

/-- `_validator_unstake_row`. -/
def validatorUnstakeRow (validators : Sql.Table String ValidatorRow) (tx : Tx) :
    Option ValidatorRow :=
  let validatorId := validatorStakeValidatorId tx
  if !startsWith validatorId "validator_" then none else validators.find? validatorId

/-- `_validator_unstake_amount_units`. -/
def validatorUnstakeAmountUnits (cfg : Config) (tx : Tx) (row : ValidatorRow) : ℤ :=
  let stakeUnits := unitsOf row.stakeLocked
  let walletStakeUnits := unitsOf row.walletStakeLocked
  if 0 < txAmountUnits tx then txAmountUnits tx
  else if row.enabled && !row.isBanned then
    min walletStakeUnits (max 0 (stakeUnits - unitsOf cfg.minValidatorStake))
  else walletStakeUnits

/-- `_validator_unstake_rejection_reason`. -/
def validatorUnstakeRejectionReason (cfg : Config) (s : NodeState) (tx : Tx) : Option String :=
  match validatorUnstakeRow s.validators tx with
  | none => some "validator unstake requires registered validator"
  | some row =>
    let stakeOwner := clean row.stakeOwnerAddress
    let stakeUnits := unitsOf row.stakeLocked
    let walletStakeUnits := unitsOf row.walletStakeLocked
    let amountUnits := validatorUnstakeAmountUnits cfg tx row
    let remainingUnits := stakeUnits - amountUnits
    let serving := row.enabled && !row.isBanned
    if stakeOwner = "" then some "validator stake owner is not set"
    else if stakeOwner ≠ tx.sender then some "validator unstake requires stake owner wallet"
    else if stakeUnits ≤ 0 then some "validator has no locked stake"
    else if walletStakeUnits ≤ 0 then some "validator has no wallet-backed stake"
    else if amountUnits ≤ 0 then some "validator stake has no withdrawable excess"
    else if walletStakeUnits < amountUnits then
      some "validator unstake amount exceeds wallet-backed stake"
    else if serving ∧ 0 < remainingUnits ∧ remainingUnits < unitsOf cfg.minValidatorStake then
      some "disable validator before unstaking below minimum"
    else if serving ∧ remainingUnits = 0 then some "disable validator before full unstake"
    else if s.ledger.balanceUnits (validatorStakeValidatorId tx) < amountUnits then
      some "validator stake ledger balance is insufficient"
    else none

/-- `_unstake_rejection_reason`. -/
def unstakeRejectionReason (cfg : Config) (s : NodeState) (tx : Tx) : Option String :=
  if stakeType tx = "validator" then validatorUnstakeRejectionReason cfg s tx
  else if stakeType tx ≠ "science" then some "unsupported stake_type"
  else match s.science.stakeAccounts.find? tx.sender with
    | none => some "active science stake is required"
    | some account =>
      let lockedAmount := account.stakeAmount
      if lockedAmount ≤ 0 then some "active science stake is required"
      else if txAmount tx ≠ 0 ∧ txAmount tx ≠ lockedAmount then
        some "partial science unstake is not supported"
      else if s.ledger.balance (scienceStakeAccountId tx.sender) < lockedAmount then
        some "science stake ledger balance is insufficient"
      else if activeJobs s.science tx.sender ≠ [] then
        some "cannot unstake while science jobs are active"
      else none

/-- `_science_job_budget_from_payload`. -/
def scienceJobBudgetFromPayload (cfg : Config) (p : Payload) : Except ExecError ComputeBudget :=
  normalizeComputeBudget cfg p.rewardBudget p.maxComputeUnits p.rewardPerComputeUnit p.maxReward

/-- The required job fields that a payload lacks, sorted. -/
def missingJobFields (p : Payload) : List String :=
  (if p.jobType = none then ["job_type"] else []) ++
    (if p.metadataHash = none then ["metadata_hash"] else []) ++
    (if p.storagePointer = none then ["storage_pointer"] else [])

/-- The text that a service error is reported with. -/
def ExecError.detail : ExecError → String
  | .transactionExecution message => message
  | .science _ detail => detail
  | .treasury _ detail => detail
  | .integrity message => message
  | .value message => message

/-- `_science_job_create_rejection_reason`. -/
def scienceJobCreateRejectionReason (cfg : Config) (now : Instant) (s : NodeState) (tx : Tx) :
    Option String :=
  let sci := s.science
  if missingJobFields tx.payload ≠ [] then
    some ("missing science job fields: " ++ ", ".intercalate (missingJobFields tx.payload))
  else match sci.stakeAccounts.find? tx.sender with
    | none => some "active science stake is required"
    | some account =>
      if account.status ≠ .active ∨ account.tier = none then
        some "active science stake is required"
      else match scienceJobBudgetFromPayload cfg tx.payload with
        | .error e => some e.detail
        | .ok budget =>
          let quotaUsed := (resetQuotaIfNeeded now account).monthlyQuotaUsed
          let available :=
            ((sci.rewardReserve.find? (monthEpoch now)).map ReserveRow.available).getD 0
          if monthlyQuotaLimit account < quotaUsed + 1 then some "monthly science quota exceeded"
          else if budget.rewardCap ≤ 0 then none
          else if cfg.scienceMaxPendingPerRequester <
              pendingRewards sci tx.sender + budget.rewardCap then
            some "requester science pending rewards exceed max_pending_per_requester"
          else if available < budget.rewardCap then
            some "science compute reserve is insufficient for reward budget"
          else if (sci.jobs.find? (scienceJobId tx)).isSome then some "science job already exists"
          else none

/-- The actions of `SCIENCE_RESERVE_GOVERNANCE_ACTIONS`. -/
inductive GovernanceAction where
  | proposeActivation
  | approveActivation
  | executeActivation
  | pause
  | unpause
deriving DecidableEq

def GovernanceAction.parse (text : String) : Option GovernanceAction :=
  match text with
  | "propose_activation" => some .proposeActivation
  | "approve_activation" => some .approveActivation
  | "execute_activation" => some .executeActivation
  | "pause" => some .pause
  | "unpause" => some .unpause
  | _ => none

/-- The action that a payload asks for. -/
def governanceAction (tx : Tx) : Option GovernanceAction :=
  GovernanceAction.parse (lower (clean tx.payload.action))

/-- The threshold of an execution, 2 unless the payload has another. -/
def payloadThreshold (p : Payload) : ℤ :=
  match p.threshold with
  | none => 2
  | some 0 => 2
  | some n => n

/-- `_governance_action_rejection_reason`. -/
def governanceActionRejectionReason (s : NodeState) (tx : Tx) : Option String :=
  let governance := s.science.reserveGovernance
  if lower (clean tx.payload.scope) ≠ "science_reserve" then some "unsupported governance scope"
  else match governanceAction tx with
    | none => some "unsupported science reserve governance action"
    | some action =>
      if governance.authorizedSigners ≠ [] ∧ tx.sender ∉ governance.authorizedSigners then
        some "signer is not authorized for science reserve governance"
      else match action with
        | .proposeActivation =>
          if governance.status = .l2Active then some "science reserve is already active" else none
        | .approveActivation =>
          if governance.status = .l2Active then some "science reserve is already active"
          else if governance.activationRequestedAt = none then
            some "science reserve activation has not been proposed"
          else none
        | .executeActivation =>
          if governance.status = .l2Active then none
          else match governance.activationAvailableAt with
            | none => some "science reserve activation has not been proposed"
            | some availableAt =>
              if (governance.approvals.length : ℤ) < payloadThreshold tx.payload then
                some "science reserve activation lacks multisig approvals"
              else if tx.timestamp.instant < availableAt then
                some ("science reserve activation timelock active until " ++ isoformat availableAt)
              else none
        | .pause | .unpause => none

/-- `_treasury_claim_rejection_reason`. The source inserts the aggregate row when there is none;
here the check reads the row it would insert, and the claim inserts it. -/
def treasuryClaimRejectionReason (cfg : Config) (now : Instant) (s : NodeState) (tx : Tx) :
    Option String :=
  let claimTo :=
    strip (textOr tx.payload.claimTo cfg.scientificDevelopmentTreasuryWallet)
  let row := treasuryRow cfg now s.treasury
  let claimable := row.unlockedBalance + maturedTotal tx.timestamp.instant s.treasury.epochs
  if tx.sender ≠ cfg.scientificDevelopmentGovernanceWallet then
    some "treasury claim requires configured governance wallet"
  else if claimTo ≠ cfg.scientificDevelopmentTreasuryWallet then
    some "treasury claim destination must match configured treasury wallet"
  else if claimable ≤ 0 then
    some ("treasury funds are locked until " ++ isoformat row.nextUnlockAt)
  else if s.ledger.balance treasuryAccountId < claimable then
    some "treasury ledger balance is lower than unlocked treasury balance"
  else if (s.treasury.claims.find? (treasuryClaimId tx)).isSome then
    some "treasury claim already exists"
  else none

/-- The check of a transaction's own kind. -/
def kindRejectionReason (cfg : Config) (now : Instant) (s : NodeState) (tx : Tx)
    (reserved : List Instant) (allowMissingRegistration : Bool) : Option String :=
  match tx.txType with
  | .transfer => transferRejectionReason cfg tx
  | .stake => stakeRejectionReason s tx allowMissingRegistration
  | .unstake => unstakeRejectionReason cfg s tx
  | .scienceJobCreate => scienceJobCreateRejectionReason cfg now s tx
  | .governanceAction => governanceActionRejectionReason s tx
  | .treasuryClaim => treasuryClaimRejectionReason cfg now s tx
  | .faucet => faucetRejectionReason cfg s.ledger tx reserved
  | .unsupported _ => none

/-- The checks of `_transaction_rejection_reason` behind the signature. -/
def signedRejectionReason (cfg : Config) (now : Instant) (s : NodeState) (tx : Tx)
    (expected : ExpectedNonces) (reserved : List Instant)
    (allowNonceGap allowMissingRegistration : Bool) : Option String :=
  let next := expectedNonce s expected tx.sender
  if txFeeUnits tx < 0 then some "fee must be non-negative"
  else if tx.nonce ≠ next ∧ ¬(allowNonceGap ∧ next < tx.nonce) then
    some s!"invalid nonce, expected {next}"
  else if s.ledger.balance tx.sender < unitsToFloat (totalDebitUnits tx) then
    some "insufficient balance"
  else kindRejectionReason cfg now s tx reserved allowMissingRegistration

/-- `_transaction_rejection_reason`. With a nonce gap allowed, the source also moves the expected
nonce up to the transaction's; the caller overwrites that after the transaction. -/
def transactionRejectionReason (cfg : Config) (now : Instant) (s : NodeState) (tx : Tx)
    (expected : ExpectedNonces) (reserved : List Instant)
    (allowNonceGap allowMissingRegistration : Bool) : Option String :=
  if !tx.txType.supported then some "unsupported transaction type for block execution"
  else if !isSignatureValid cfg tx then some "invalid transaction signature"
  else signedRejectionReason cfg now s tx expected reserved allowNonceGap allowMissingRegistration

/-- What passing the checks says. -/
theorem transactionRejectionReason_eq_none {cfg : Config} {now : Instant} {s : NodeState}
    {tx : Tx} {expected : ExpectedNonces} {reserved : List Instant}
    {allowNonceGap allowMissingRegistration : Bool} :
    transactionRejectionReason cfg now s tx expected reserved allowNonceGap
        allowMissingRegistration = none ↔
      tx.txType.supported = true ∧ isSignatureValid cfg tx = true ∧ 0 ≤ txFeeUnits tx ∧
        (tx.nonce = expectedNonce s expected tx.sender ∨
          allowNonceGap = true ∧ expectedNonce s expected tx.sender < tx.nonce) ∧
        totalDebitUnits tx ≤ s.ledger.balanceUnits tx.sender ∧
        kindRejectionReason cfg now s tx reserved allowMissingRegistration = none := by
  simp only [transactionRejectionReason, signedRejectionReason, Ledger.balance, unitsToFloat_lt_iff]
  constructor
  · intro h
    repeat' (split at h; · cases h)
    next h₁ h₂ h₃ h₄ h₅ =>
    refine ⟨by simpa using h₁, by simpa using h₂, not_lt.mp h₃, ?_, not_lt.mp h₅, h⟩
    tauto
  · rintro ⟨h₁, h₂, h₃, h₄, h₅, h₆⟩
    rw [if_neg (by simp [h₁]), if_neg (by simp [h₂]), if_neg (not_lt.mpr h₃), if_neg (by tauto),
      if_neg (not_lt.mpr h₅), h₆]

/-- A faucet transaction that passes carries no fee. -/
theorem faucetRejectionReason_eq_none {cfg : Config} {l : Ledger} {tx : Tx}
    {reserved : List Instant} (h : faucetRejectionReason cfg l tx reserved = none) :
    0 < txAmount tx ∧ txFee tx = 0 ∧ txAmount tx ≤ l.balance genesisAccountId := by
  unfold faucetRejectionReason at h
  dsimp only at h
  repeat' (split at h; · cases h)
  next h₁ h₂ h₃ h₄ h₅ h₆ h₇ =>
  exact ⟨not_le.mp h₂, not_not.mp h₅, not_lt.mp h₆⟩

end Picoin
