import Picoin.Core.Settings
import Picoin.Services.Science

/-!
# The life of a science job

A job is created with its reward reserved from the month's reserve, is worked on step by step, and
ends paid, rejected, disputed or expired. The operations below belong to the API; only the creation
of a job is also a transaction.
-/

namespace Picoin

open Outcome Decimal

/-- The settings of the science market. -/
structure MarketConfig extends Config where
  scienceComputeRewardPercentOfBlock : Dec
  scienceMaxPayoutPerEpoch : ℤ
  scienceAllowSelfWork : Bool

def scienceReserveAccountId : String := "science_compute_reserve"

/-! ## Statuses -/

def JobStatus.text : JobStatus → String
  | .created => "created"
  | .queued => "queued"
  | .assigned => "assigned"
  | .committed => "committed"
  | .submitted => "submitted"
  | .verified => "verified"
  | .accepted => "accepted"
  | .rejected => "rejected"
  | .disputed => "disputed"
  | .expired => "expired"
  | .paid => "paid"

/-- The statuses that a job can go to. -/
def JobStatus.allowed : JobStatus → List JobStatus
  | .created => [.queued, .rejected, .expired]
  | .queued => [.assigned, .rejected, .expired, .disputed]
  | .assigned => [.committed, .rejected, .expired, .disputed]
  | .committed => [.submitted, .rejected, .expired, .disputed]
  | .submitted => [.verified, .rejected, .disputed]
  | .verified => [.accepted, .rejected, .disputed]
  | .accepted | .paid | .rejected | .disputed | .expired => []

/-- The status among the allowed ones with the text. -/
def JobStatus.next? (current : JobStatus) (text : String) : Option JobStatus :=
  current.allowed.find? fun status => status.text = text

/-- `TERMINAL_JOB_STATUSES`. -/
def JobStatus.terminal (status : JobStatus) : Bool := !status.active

/-! ## Transitions -/

/-- What a transition is called with besides the job and the status. -/
structure TransitionArgs where
  workerAddress : Option String := none
  resultHash : Option String := none
  proofHash : Option String := none
  computeUnitsUsed : Option ℤ := none

/-- `_clean_optional_hash`. -/
def cleanOptionalHash (value : Option String) (field : String) :
    Except ExecError (Option String) :=
  match value with
  | none => .ok none
  | some value => do
    let text ← cleanText value field
    if 256 < text.length then .error (.science 400 s!"{field} is too long") else .ok (some text)

/-- The check of the worker in `_validate_science_transition`. -/
def checkTransitionWorker (mc : MarketConfig) (job : ScienceJobRow) (status : JobStatus)
    (args : TransitionArgs) : Except ExecError Unit :=
  if status ∈ [JobStatus.assigned, .committed, .submitted, .verified, .accepted] then do
    let candidate := textOr args.workerAddress (job.workerAddress.getD "")
    if candidate = "" then
      .error (.science 400 "worker_address is required for this transition")
    else if mc.scienceAllowSelfWork then .ok ()
    else
      let worker ← scienceCleanAddress candidate
      if worker = job.requesterAddress then
        .error (.science 403 "requester cannot be paid as worker for its own job")
      else .ok ()
  else .ok ()

/-- The check of the hashes in `_validate_science_transition`. -/
def checkTransitionHashes (job : ScienceJobRow) (status : JobStatus) (args : TransitionArgs) :
    Except ExecError Unit :=
  if status ∈ [JobStatus.submitted, .verified, .accepted] then
    if textOr args.resultHash (job.resultHash.getD "") = "" then
      .error (.science 400 "result_hash is required for submitted or later jobs")
    else if textOr args.proofHash (job.proofHash.getD "") = "" then
      .error (.science 400 "proof_hash is required for submitted or later jobs")
    else .ok ()
  else .ok ()

/-- The check of the compute units in `_validate_science_transition`. -/
def checkTransitionUnits (job : ScienceJobRow) (status : JobStatus) (args : TransitionArgs) :
    Except ExecError Unit :=
  if status = .accepted then do
    let units ← cleanNonNegative (args.computeUnitsUsed.getD 0) "compute_units_used"
    if units ≤ 0 then
      .error (.science 400 "compute_units_used must be positive when accepting a science job")
    else if job.maxComputeUnits < units then
      .error (.science 400 "compute_units_used cannot exceed max_compute_units")
    else .ok ()
  else .ok ()

/-- `_validate_science_transition`; the new status. -/
def validateScienceTransition (mc : MarketConfig) (job : ScienceJobRow) (statusText : String)
    (args : TransitionArgs) : Except ExecError JobStatus :=
  match job.status.next? statusText with
  | none =>
    let current := job.status.text
    .error (.science 409 s!"invalid science job transition {current} -> {statusText}")
  | some status => do
    checkTransitionWorker mc job status args
    checkTransitionHashes job status args
    checkTransitionUnits job status args
    return status

/-- `_payout_amount`. -/
def payoutAmount (job : ScienceJobRow) (computeUnitsUsed : ℤ) : ℤ :=
  roundHalfEven (min (computeUnitsUsed * job.rewardPerComputeUnit) (job.maxReward * 10 ^ 8)) (10 ^ 8)

/-- The row after a transition. -/
def ScienceJobRow.transition (status : JobStatus) (worker result proof : Option String)
    (computeUnitsUsed payoutAmount : ℤ) (job : ScienceJobRow) : ScienceJobRow :=
  { job with
    status
    workerAddress := worker
    resultHash := result
    proofHash := proof
    computeUnitsUsed
    payoutAmount }

/-- The reserve row of a month, which `_ensure_reserve_epoch` inserts when there is none. -/
def ensureReserveEpoch (reserve : Sql.Table String ReserveRow) (epoch : String) :
    Sql.Table String ReserveRow :=
  reserve.insertNew epoch ⟨0, 0, 0⟩

/-- `_release_science_job_budget`. -/
def releaseScienceJobBudget (now : Instant) (sci : ScienceTables) (job : ScienceJobRow) :
    ScienceTables :=
  if job.maxReward ≤ 0 ∨ job.paid then sci
  else
    let epoch := monthEpoch now
    { sci with
      rewardReserve := (ensureReserveEpoch sci.rewardReserve epoch).modify epoch fun row =>
        { row with totalPending := max 0 (row.totalPending - job.maxReward) } }

/-- `transition_science_job`. -/
def transitionScienceJob (mc : MarketConfig) (now : Instant) (sci : ScienceTables)
    (jobId status : String) (args : TransitionArgs) : Except ExecError ScienceTables :=
  match sci.jobs.find? jobId with
  | none => .error (.science 404 "science job not found")
  | some job => do
    let status ← validateScienceTransition mc job (lower (strip status)) args
    let nextWorker ← match args.workerAddress with
      | none | some "" => pure job.workerAddress
      | some worker => do pure (some (← scienceCleanAddress worker))
    let nextResult ← cleanOptionalHash args.resultHash "result_hash"
    let nextProof ← cleanOptionalHash args.proofHash "proof_hash"
    let nextUnits ←
      if status = .accepted then
        cleanNonNegative (args.computeUnitsUsed.getD 0) "compute_units_used"
      else pure job.computeUnitsUsed
    let nextPayout := if status = .accepted then payoutAmount job nextUnits else job.payoutAmount
    let updated := job.transition status nextWorker (nextResult.or job.resultHash)
      (nextProof.or job.proofHash) nextUnits nextPayout
    let sci := { sci with jobs := sci.jobs.modify jobId fun _ => updated }
    return if status.terminal then releaseScienceJobBudget now sci updated else sci

/-! ## Coins -/

/-- `_apply_ledger_entry` of the science module: an existing row keeps its account type. -/
def applyScienceLedgerEntry (l : Ledger) (posting : Posting) : Except ExecError Ledger :=
  match l.post ((l.accountType? posting.accountId).getD posting.accountType) posting with
  | none => .error (.science 409 "science ledger operation would create a negative balance")
  | some l' => .ok l'

def scienceReserveUnitsFromTotal (mc : MarketConfig) (totalRewardUnits : ℤ) : ℤ :=
  percentUnits totalRewardUnits mc.scienceComputeRewardPercentOfBlock

/-- `record_science_reserve_for_block`. -/
def recordScienceReserveForBlock (mc : MarketConfig) (now : Instant) (l : Ledger)
    (sci : ScienceTables) (blockHeight blockReward : ℤ) :
    Except ExecError (Ledger × ScienceTables) :=
  let amountUnits := scienceReserveUnitsFromTotal mc (unitsOf blockReward)
  let amount := unitsToFloat amountUnits
  if amountUnits ≤ 0 then .ok (l, sci)
  else do
    let epoch := monthEpoch now
    let rewardReserve := (ensureReserveEpoch sci.rewardReserve epoch).modify epoch fun row =>
      { row with totalReserved := row.totalReserved + amount }
    let l ← applyScienceLedgerEntry l
      { accountId := scienceReserveAccountId
        accountType := "science_reserve"
        amountUnits := unitsOf amount
        entryType := "science_reserve_accrual"
        blockHeight := some blockHeight
        relatedId := some s!"block:{blockHeight}"
        description := some "science compute reserve accrual"
        createdAt := isoformat now }
    return (l, { sci with rewardReserve })

/-! ## Payment -/

/-- `_require_science_payouts_enabled`. -/
def requireSciencePayoutsEnabled (governance : GovernanceRow) : Except ExecError Unit :=
  if governance.status ≠ .l2Active then
    .error (.science 423 "science compute reserve is locked until L2 marketplace activation")
  else if governance.emergencyPaused then
    .error (.science 423 "science compute reserve is emergency paused")
  else if !governance.payoutsEnabled then
    .error (.science 423 "science compute reserve payouts are disabled")
  else .ok ()

/-- `_validate_epoch_payout_limit`. -/
def validateEpochPayoutLimit (mc : MarketConfig) (now : Instant)
    (reserve : Sql.Table String ReserveRow) (amount : ℤ) : Except ExecError Unit :=
  let row := (reserve.find? (monthEpoch now)).getD ⟨0, 0, 0⟩
  if mc.scienceMaxPayoutPerEpoch < row.totalPaid + amount then
    .error (.science 429 "science compute reserve max_payout_per_epoch exceeded")
  else .ok ()

/-- `_update_reserve_paid`. -/
def updateReservePaid (now : Instant) (reserve : Sql.Table String ReserveRow) (amount : ℤ) :
    Sql.Table String ReserveRow :=
  let epoch := monthEpoch now
  (ensureReserveEpoch reserve epoch).modify epoch fun row =>
    { row with
      totalPaid := row.totalPaid + amount
      totalPending := max 0 (row.totalPending - amount) }

/-- A posting of a worker's payment. -/
def workerPayment (now : Instant) (jobId accountId accountType : String) (amount : ℤ)
    (description : String) : Posting :=
  { accountId, accountType
    amountUnits := unitsOf amount
    entryType := "science_worker_payment"
    blockHeight := none
    relatedId := some jobId
    description := some description
    createdAt := isoformat now }

/-- The row of a job that has been paid. -/
def ScienceJobRow.pay (now : Instant) (amount : ℤ) (job : ScienceJobRow) : ScienceJobRow :=
  { job with status := .paid, paid := true, paidAmount := amount, paidAt := some (isoformat now) }

/-- `pay_science_worker`. -/
def payScienceWorker (mc : MarketConfig) (now : Instant) (l : Ledger) (sci : ScienceTables)
    (jobId : String) : Except ExecError (Ledger × ScienceTables) := do
  requireSciencePayoutsEnabled sci.reserveGovernance
  match sci.jobs.find? jobId with
  | none => .error (.science 404 "science job not found")
  | some job =>
    let worker := textOr job.workerAddress ""
    let amount := job.payoutAmount
    if job.status ≠ .accepted then
      .error (.science 409 "science job must be accepted before payment")
    else if job.paid then .error (.science 409 "science job has already been paid")
    else if worker = "" then .error (.science 409 "science job has no worker")
    else if amount ≤ 0 then .error (.science 409 "science job has no payable compute units")
    else
      validateEpochPayoutLimit mc now sci.rewardReserve amount
      let l ← applyScienceLedgerEntry l (workerPayment now jobId scienceReserveAccountId
        "science_reserve" (-amount) "science worker payment debit")
      let l ← applyScienceLedgerEntry l (workerPayment now jobId worker "science_worker" amount
        "science worker payment")
      return (l, { sci with
        rewardReserve := updateReservePaid now sci.rewardReserve amount
        jobs := sci.jobs.modify jobId (ScienceJobRow.pay now amount) })

end Picoin
