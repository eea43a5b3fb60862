import Picoin.Core.Text
import Picoin.Services.Ledger

/-!
# Science stakes, jobs and the reserve's governance

The science service keeps stake accounts under cleaned addresses, the jobs of their owners, a
monthly reward reserve and one governance row. Its operations on these tables are below; the coins
that go with them are moved by the transaction handlers.

Functions that read the clock take its value as `now`.
-/

namespace Picoin

open Outcome Decimal

/-! ## Cleaning -/

/-- `_clean_address` of the science module. -/
def scienceCleanAddress (address : String) : Except ExecError String :=
  let value := strip address
  if value = "" then .error (.science 400 "address is required")
  else if 128 < value.length then .error (.science 400 "address is too long")
  else .ok value

/-- `_clean_text`. -/
def cleanText (value field : String) : Except ExecError String :=
  let text := strip value
  if text = "" then .error (.science 400 s!"{field} is required")
  else if 512 < text.length then .error (.science 400 s!"{field} is too long")
  else .ok text

/-- `_clean_non_negative` of an amount. -/
def cleanNonNegative (value : ℤ) (field : String) : Except ExecError ℤ :=
  if value < 0 then .error (.science 400 s!"{field} cannot be negative") else .ok value

/-! ## Tiers -/

/-- `stake_required`. -/
def ScienceTier.stakeRequired : ScienceTier → ℤ
  | .researcher => 314160000000
  | .lab => 3141600000000
  | .institution => 31416000000000

/-- `compute_multiplier`. -/
def ScienceTier.computeMultiplier : ScienceTier → ℤ
  | .researcher => 1
  | .lab => 10
  | .institution => 100

def determineScienceTier (stakeAmount : ℤ) : Option ScienceTier :=
  if ScienceTier.institution.stakeRequired ≤ stakeAmount then some .institution
  else if ScienceTier.lab.stakeRequired ≤ stakeAmount then some .lab
  else if ScienceTier.researcher.stakeRequired ≤ stakeAmount then some .researcher
  else none

/-- `_monthly_quota_limit`. -/
def monthlyQuotaLimit (account : ScienceAccountRow) : ℤ :=
  scienceBaseMonthlyQuotaUnits * account.computeMultiplier

/-! ## Stake accounts -/

def JobStatus.active : JobStatus → Bool
  | .created | .queued | .assigned | .committed | .submitted | .verified | .accepted => true
  | .rejected | .disputed | .expired | .paid => false

/-- The unpaid jobs in progress of a requester. -/
def activeJobs (sci : ScienceTables) (address : String) : List ScienceJobRow :=
  (sci.jobs.rows.map Prod.snd).filter fun job =>
    job.requesterAddress = address && job.status.active && !job.paid

/-- `stake_science_access_in_connection`. -/
def stakeScienceAccessInConnection (now : Instant) (sci : ScienceTables) (address : String)
    (stakeAmount : ℤ) (accountId : String) : Except ExecError ScienceTables := do
  let address ← scienceCleanAddress address
  if stakeAmount ≤ 0 then .error (.science 400 "stake amount must be positive")
  else match determineScienceTier stakeAmount with
    | none => .error (.science 400 "stake amount is below researcher minimum")
    | some tier =>
      let existing := sci.stakeAccounts.find? address
      let epoch := monthEpoch now
      let quotaUsed := match existing with
        | some row => if row.monthlyQuotaEpoch = epoch then row.monthlyQuotaUsed else 0
        | none => 0
      -- another row may hold the account id, which is the table's primary key
      if existing = none ∧ sci.stakeAccounts.rows.any (fun r => r.2.accountId = accountId) then
        .error (.integrity "science_stake_accounts.account_id")
      else
        let account : ScienceAccountRow :=
          { accountId := (existing.map ScienceAccountRow.accountId).getD accountId
            stakeAmount
            tier := some tier
            computeMultiplier := tier.computeMultiplier
            monthlyQuotaUsed := quotaUsed
            monthlyQuotaEpoch := epoch
            status := .active }
        .ok { sci with stakeAccounts := sci.stakeAccounts.upsert address account }

/-- `unstake_science_access_in_connection`. -/
def unstakeScienceAccessInConnection (sci : ScienceTables) (address : String) :
    Except ExecError ScienceTables := do
  let address ← scienceCleanAddress address
  match sci.stakeAccounts.find? address with
  | none => .error (.science 404 "science stake account not found")
  | some _ =>
    if activeJobs sci address ≠ [] then
      .error (.science 409 "cannot unstake while science jobs are active")
    else
      let stakeAccounts := sci.stakeAccounts.modify address fun row =>
        { row with stakeAmount := 0, tier := none, computeMultiplier := 0, status := .unstaking }
      .ok { sci with stakeAccounts }

/-! ## Jobs -/

/-- The compute budget of a job: units, reward for each unit, and the cap on the reward. -/
structure ComputeBudget where
  computeUnits : ℤ
  rewardPerUnit : ℤ
  rewardCap : ℤ
deriving DecidableEq

/-- The amount of one compute unit. -/
def oneComputeUnit : ℤ := 10 ^ 8

/-- `_normalize_compute_budget`. -/
def normalizeComputeBudget (cfg : Config)
    (rewardBudget maxComputeUnits rewardPerComputeUnit maxReward : Option ℤ) :
    Except ExecError ComputeBudget := do
  let legacyBudget ← match rewardBudget with
    | none => pure none
    | some budget => do pure (some (← cleanNonNegative budget "reward_budget"))
  let maxReward := maxReward.or legacyBudget
  let rewardCap ← cleanNonNegative (maxReward.getD 0) "max_reward"
  let defaultUnits := if 0 < rewardCap ∧ maxComputeUnits = none then oneComputeUnit else 0
  let computeUnits ← cleanNonNegative (maxComputeUnits.getD defaultUnits) "max_compute_units"
  let defaultRewardPerUnit :=
    if 0 < rewardCap ∧ computeUnits = oneComputeUnit ∧ rewardPerComputeUnit = none then rewardCap
    else 0
  let rewardPerUnit ←
    cleanNonNegative (rewardPerComputeUnit.getD defaultRewardPerUnit) "reward_per_compute_unit"
  if cfg.scienceMaxRewardPerJob < rewardCap then
    .error (.science 400 "max_reward exceeds protocol max_reward_per_job")
  else if 0 < rewardCap ∧ (computeUnits ≤ 0 ∨ rewardPerUnit ≤ 0) then
    .error (.science 400
      "max_compute_units and reward_per_compute_unit are required for paid science jobs")
  else if roundHalfEven (computeUnits * rewardPerUnit) (10 ^ 8) < rewardCap then
    .error (.science 400 "max_reward cannot exceed max_compute_units * reward_per_compute_unit")
  else .ok ⟨computeUnits, rewardPerUnit, rewardCap⟩

/-- The rewards of a requester's unpaid jobs in progress. -/
def pendingRewards (sci : ScienceTables) (address : String) : ℤ :=
  ((activeJobs sci address).map ScienceJobRow.maxReward).sum

/-- What a month's reserve can still promise. -/
def ReserveRow.available (row : ReserveRow) : ℤ :=
  row.totalReserved - row.totalPaid - row.totalPending

/-- `_reset_quota_if_needed`. -/
def resetQuotaIfNeeded (now : Instant) (account : ScienceAccountRow) : ScienceAccountRow :=
  if account.monthlyQuotaEpoch = monthEpoch now then account
  else { account with monthlyQuotaUsed := 0, monthlyQuotaEpoch := monthEpoch now }

/-- `_require_active_science_account`: the account, its quota reset for a new month. -/
def requireActiveScienceAccount (now : Instant) (sci : ScienceTables) (address : String) :
    Except ExecError ScienceAccountRow :=
  match sci.stakeAccounts.find? address with
  | none => .error (.science 403 "science stake account is required")
  | some row =>
    let account := resetQuotaIfNeeded now row
    if account.status ≠ .active then
      .error (.science 403 "science stake account is not active")
    else if determineScienceTier account.stakeAmount = none ∨ account.tier = none then
      .error (.science 403 "science stake is below active tier minimum")
    else .ok account

/-- `_reserve_science_job_budget`. -/
def reserveScienceJobBudget (now : Instant) (sci : ScienceTables) (amount : ℤ) :
    Except ExecError ScienceTables :=
  let epoch := monthEpoch now
  let reserve := sci.rewardReserve.insertNew epoch ⟨0, 0, 0⟩
  let row := (reserve.find? epoch).getD ⟨0, 0, 0⟩
  if row.available < amount then
    .error (.science 409 "science compute reserve is insufficient for reward budget")
  else
    let rewardReserve := reserve.upsert epoch { row with totalPending := row.totalPending + amount }
    .ok { sci with rewardReserve }

/-- The limit check and the reservation of a job with a reward. -/
def reserveReward (cfg : Config) (now : Instant) (sci : ScienceTables) (requester : String)
    (rewardCap : ℤ) : Except ExecError ScienceTables :=
  if rewardCap ≤ 0 then .ok sci
  else if cfg.scienceMaxPendingPerRequester < pendingRewards sci requester + rewardCap then
    .error (.science 429 "requester science pending rewards exceed max_pending_per_requester")
  else reserveScienceJobBudget now sci rewardCap

/-- `create_science_job_in_connection`. -/
def createScienceJobInConnection (cfg : Config) (now : Instant) (sci : ScienceTables)
    (requesterAddress jobType metadataHash storagePointer : String)
    (rewardBudget maxComputeUnits rewardPerComputeUnit maxReward : Option ℤ) (jobId : String) :
    Except ExecError ScienceTables := do
  let requester ← scienceCleanAddress requesterAddress
  let jobType ← cleanText jobType "job_type"
  let metadataHash ← cleanText metadataHash "metadata_hash"
  let storagePointer ← cleanText storagePointer "storage_pointer"
  let budget ←
    normalizeComputeBudget cfg rewardBudget maxComputeUnits rewardPerComputeUnit maxReward
  let account ← requireActiveScienceAccount now sci requester
  if monthlyQuotaLimit account < account.monthlyQuotaUsed + 1 then
    .error (.science 429 "monthly science quota exceeded")
  else
    let sci ← reserveReward cfg now sci requester budget.rewardCap
    let job : ScienceJobRow :=
      { requesterAddress := requester
        tierAtCreation := account.tier
        jobType
        metadataHash
        storagePointer
        maxComputeUnits := budget.computeUnits
        rewardPerComputeUnit := budget.rewardPerUnit
        maxReward := budget.rewardCap
        status := .created
        paid := false }
    let charged := { account with monthlyQuotaUsed := account.monthlyQuotaUsed + 1 }
    match sci.jobs.insert? jobId job with
    | none => .error (.integrity "science_jobs.job_id")
    | some jobs =>
      .ok { sci with jobs, stakeAccounts := sci.stakeAccounts.upsert requester charged }

/-! ## Governance of the reserve -/

/-- The row that `_science_reserve_governance` inserts when there is none. -/
def lockedGovernanceRow (cfg : Config) : GovernanceRow where
  status := .reserveLocked
  activationRequestedAt := none
  activationAvailableAt := none
  activatedAt := none
  approvals := []
  authorizedSigners := cfg.scienceReserveAuthorizedSigners
  payoutsEnabled := false
  emergencyPaused := false

/-- `_authorized_signers`: the configured signers stand in for an empty list. -/
def authorizedSigners (cfg : Config) (governance : GovernanceRow) : List String :=
  if governance.authorizedSigners = [] then cfg.scienceReserveAuthorizedSigners
  else governance.authorizedSigners

/-- `_require_authorized_signer`. -/
def requireAuthorizedSigner (cfg : Config) (governance : GovernanceRow) (signer : String) :
    Except ExecError Unit :=
  let authorized := authorizedSigners cfg governance
  if authorized ≠ [] ∧ signer ∉ authorized then
    .error (.science 403 "signer is not authorized for science reserve governance")
  else .ok ()

/-- The approvals with the signer's among them. -/
def addApproval (approvals : List String) (signer : String) : List String :=
  if signer ∈ approvals then approvals else approvals ++ [signer]

/-- `propose_science_reserve_activation_in_connection`. -/
def proposeScienceReserveActivation (cfg : Config) (governance : GovernanceRow) (signer : String)
    (now : Instant) : Except ExecError GovernanceRow := do
  let signer ← scienceCleanAddress signer
  if governance.status = .l2Active then .error (.science 409 "science reserve is already active")
  else
    requireAuthorizedSigner cfg governance signer
    return { governance with
      status := .l2Pending
      activationRequestedAt := some now
      activationAvailableAt := some (now + seconds scienceReserveGovernanceTimelockSeconds)
      approvals := addApproval governance.approvals signer
      payoutsEnabled := false }

/-- `approve_science_reserve_activation_in_connection`. -/
def approveScienceReserveActivation (cfg : Config) (governance : GovernanceRow)
    (signer : String) : Except ExecError GovernanceRow := do
  let signer ← scienceCleanAddress signer
  if governance.status = .l2Active then .error (.science 409 "science reserve is already active")
  else if governance.activationRequestedAt = none then
    .error (.science 409 "science reserve activation has not been proposed")
  else
    requireAuthorizedSigner cfg governance signer
    return { governance with approvals := addApproval governance.approvals signer }

/-- `execute_science_reserve_activation_in_connection`. -/
def executeScienceReserveActivation (governance : GovernanceRow) (now : Instant) :
    Except ExecError GovernanceRow :=
  if governance.status = .l2Active then .ok governance
  else match governance.activationAvailableAt with
    | none => .error (.science 409 "science reserve activation has not been proposed")
    | some availableAt =>
      if governance.approvals.length < scienceReserveGovernanceMultisigThreshold then
        .error (.science 409 "science reserve activation lacks multisig approvals")
      else if now < availableAt then
        let text := isoformat availableAt
        .error (.science 423 s!"science reserve activation timelock active until {text}")
      else .ok { governance with
        status := .l2Active
        activatedAt := some now
        payoutsEnabled := true
        emergencyPaused := false }

/-- `pause_science_reserve_in_connection`. -/
def pauseScienceReserve (cfg : Config) (governance : GovernanceRow) (signer : String) :
    Except ExecError GovernanceRow := do
  let signer ← scienceCleanAddress signer
  requireAuthorizedSigner cfg governance signer
  return { governance with
    status := .emergencyPaused
    emergencyPaused := true
    payoutsEnabled := false }

/-- `unpause_science_reserve_in_connection`. -/
def unpauseScienceReserve (cfg : Config) (governance : GovernanceRow) (signer : String) :
    Except ExecError GovernanceRow := do
  let signer ← scienceCleanAddress signer
  requireAuthorizedSigner cfg governance signer
  return { governance with
    status := if governance.activatedAt = none then .reserveLocked else .l2Active
    emergencyPaused := false
    payoutsEnabled := governance.activatedAt.isSome }

end Picoin
