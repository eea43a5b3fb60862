import Mathlib.Data.List.Sort
import Mathlib.Data.Rat.Floor
import Picoin.Lib.Table
import Picoin.Core.Text

/-!
# Rewards by round windows

The pool shares the reward of a task among the workers whose shares came after the completion of the
task before and until its own. Amounts are rationals; what is shown is rounded to 10⁻⁸.

* **`playRound`** — one reward: the shares of its window, and what their workers get;
* **`recordPayout`** — one payout, off what is pending;
* **`summarizeRoundWindowPayouts`** — all rewards, all payouts, and what is shown of them.

A text of a time is read by `timestamp`, which gives 0 where there is none.
-/

namespace Picoin.Pool

/-! ## Rows -/

structure TaskReward where
  poolTaskId : Option String
  mainnetTaskId : Option String
  height : Option ℤ
  blockHash : Option String
  reward : ℚ
  completedAt : String
deriving DecidableEq

structure WorkShare where
  workerId : String
  units : ℤ
  createdAt : String
deriving DecidableEq

structure WorkerName where
  workerId : String
  name : Option String
  payoutAddress : Option String
deriving DecidableEq

/-- A payout row; the amount and the fee, where both are numbers. -/
structure PaidRow where
  workerId : String
  name : Option String
  payoutAddress : Option String
  amounts : Option (ℚ × ℚ)
deriving DecidableEq

/-- What a worker has earned and got. -/
structure WorkerAccount where
  workerId : String
  name : Option String
  payoutAddress : Option String
  units : ℤ
  acceptedTasks : ℤ
  grossAmount : ℚ
  poolFeeAmount : ℚ
  paidAmount : ℚ
  pendingAmount : ℚ
deriving DecidableEq

def WorkerAccount.new (workerId : String) (name payoutAddress : Option String) : WorkerAccount where
  workerId
  name
  payoutAddress
  units := 0
  acceptedTasks := 0
  grossAmount := 0
  poolFeeAmount := 0
  paidAmount := 0
  pendingAmount := 0

/-- A quotient of 10⁻⁸, rounded towards zero. -/
def roundDown (value : ℚ) : ℤ := if 0 ≤ value then ⌊value * 10 ^ 8⌋ else ⌈value * 10 ^ 8⌉

/-- What is shown of a round. -/
structure RoundRow where
  poolTaskId : Option String
  mainnetTaskId : Option String
  height : Option ℤ
  blockHash : Option String
  reward : ℤ
  roundStartAt : Option String
  roundEndAt : String
  totalUnits : ℤ
  workerCount : ℕ
deriving DecidableEq

abbrev Accounts := Sql.Table String WorkerAccount

/-- What the rewards before have left. -/
structure RoundState where
  workers : Accounts
  totalGross : ℚ
  totalFee : ℚ
  rounds : List RoundRow
  previousCompletedAt : Option String
  previousCompletedTs : ℤ

/-! ## Rounds -/

section Rounds

variable (timestamp : String → ℤ)

def rewardKey (row : TaskReward) : String := row.poolTaskId.getD ""

/-- The order of the rewards: by completion, then by task. -/
def rewardBefore (a b : TaskReward) : Prop :=
  timestamp a.completedAt < timestamp b.completedAt ∨
    (timestamp a.completedAt = timestamp b.completedAt ∧ rewardKey a ≤ rewardKey b)

instance : DecidableRel (rewardBefore timestamp) := fun a b => by
  unfold rewardBefore; infer_instance

/-- The rewards that count, in their order. -/
def timedRewards (taskRewards : List TaskReward) : List TaskReward :=
  (taskRewards.filter fun row => 0 < row.reward && 0 < timestamp row.completedAt).insertionSort
    (rewardBefore timestamp)

/-- The share counts. -/
def WorkShare.counts (share : WorkShare) : Bool := 0 < share.units && 0 < timestamp share.createdAt

def timedShares (shareRows : List WorkShare) : List WorkShare :=
  shareRows.filter (WorkShare.counts timestamp)

/-- The share is in the window after the completion before, if there is one, until this one. -/
def WorkShare.inWindow (previousTs completedTs : ℤ) (share : WorkShare) : Bool :=
  !(0 < previousTs && timestamp share.createdAt ≤ previousTs) &&
    timestamp share.createdAt ≤ completedTs

/-- The units of the workers in a round. -/
def roundShares (previousTs completedTs : ℤ) (shares : List WorkShare) : Sql.Table String ℤ :=
  (shares.filter (WorkShare.inWindow timestamp previousTs completedTs)).foldl
    (fun units share => units.upsert share.workerId
      ((units.find? share.workerId).getD 0 + share.units)) .empty

/-- What a worker gets for its units of a round. -/
def WorkerAccount.earn (feeRate reward : ℚ) (roundUnits units : ℤ) (worker : WorkerAccount) :
    WorkerAccount :=
  let gross := reward * units / roundUnits
  let fee := gross * feeRate
  { worker with
    units := worker.units + units
    acceptedTasks := worker.acceptedTasks + 1
    grossAmount := worker.grossAmount + gross
    poolFeeAmount := worker.poolFeeAmount + fee
    pendingAmount := worker.pendingAmount + (gross - fee) }

/-- The reward goes to the workers of the round. -/
def shareReward (feeRate reward : ℚ) (roundUnits : ℤ) (rows : List (String × ℤ)) (workers : Accounts) :
    Accounts :=
  rows.foldl (fun workers row => workers.upsert row.1
    (((workers.find? row.1).getD (.new row.1 none none)).earn feeRate reward roundUnits row.2)) workers

/-- One reward. -/
def playRound (feeRate : ℚ) (shares : List WorkShare) (s : RoundState) (row : TaskReward) :
    RoundState :=
  let completedTs := timestamp row.completedAt
  let units := roundShares timestamp s.previousCompletedTs completedTs shares
  let roundUnits := units.sum id
  let rounds := s.rounds ++
    [{ poolTaskId := row.poolTaskId
       mainnetTaskId := row.mainnetTaskId
       height := row.height
       blockHash := row.blockHash
       reward := roundDown row.reward
       roundStartAt := s.previousCompletedAt
       roundEndAt := row.completedAt
       totalUnits := roundUnits
       workerCount := units.rows.length }]
  if 0 < roundUnits then
    { workers := shareReward feeRate row.reward roundUnits units.rows s.workers
      totalGross := s.totalGross +
        (units.rows.map fun r => row.reward * r.2 / roundUnits).sum
      totalFee := s.totalFee +
        (units.rows.map fun r => row.reward * r.2 / roundUnits * feeRate).sum
      rounds
      previousCompletedAt := some row.completedAt
      previousCompletedTs := completedTs }
  else
    { s with
      rounds
      previousCompletedAt := some row.completedAt
      previousCompletedTs := completedTs }

/-- `workers`, before the first round. A later row of a worker takes the place of an earlier one. -/
def startWorkers (workerRows : List WorkerName) : Accounts :=
  workerRows.foldl (fun workers row =>
    workers.upsert row.workerId (.new row.workerId row.name row.payoutAddress)) .empty

def feeRate (poolFeePercent : ℚ) : ℚ := max 0 (min 100 poolFeePercent) / 100

/-- All rewards, one after another. -/
def playRounds (poolFeePercent : ℚ) (taskRewards : List TaskReward) (shareRows : List WorkShare)
    (workerRows : List WorkerName) : RoundState :=
  (timedRewards timestamp taskRewards).foldl
    (playRound timestamp (feeRate poolFeePercent) (timedShares timestamp shareRows))
    { workers := startWorkers workerRows
      totalGross := 0
      totalFee := 0
      rounds := []
      previousCompletedAt := none
      previousCompletedTs := 0 }

end Rounds

/-! ## Payouts -/

/-- A payout that counts, with its worker, its amount and its fee. -/
structure Payout where
  row : PaidRow
  amount : ℚ
  fee : ℚ

/-- The row counts as a payout. -/
def PaidRow.payout (row : PaidRow) : Option Payout :=
  if row.workerId = "" then none
  else row.amounts.bind fun (amount, fee) => if amount ≤ 0 then none else some ⟨row, amount, fee⟩

def WorkerAccount.pay (amount : ℚ) (worker : WorkerAccount) : WorkerAccount :=
  { worker with
    paidAmount := worker.paidAmount + amount
    pendingAmount := max 0 (worker.pendingAmount - amount) }

/-- One payout. -/
def recordPayout (workers : Accounts) (payout : Payout) : Accounts :=
  workers.upsert payout.row.workerId
    (((workers.find? payout.row.workerId).getD
      (.new payout.row.workerId payout.row.name payout.row.payoutAddress)).pay payout.amount)

def recordPayouts (payoutRows : List PaidRow) (workers : Accounts) : Accounts :=
  (payoutRows.filterMap PaidRow.payout).foldl recordPayout workers

/-! ## The summary -/

/-- What is shown of a worker. -/
structure WorkerSummary where
  workerId : String
  name : Option String
  payoutAddress : Option String
  units : ℤ
  acceptedTasks : ℤ
  grossAmount : ℤ
  poolFeeAmount : ℤ
  paidAmount : ℤ
  pendingAmount : ℤ
  payable : Bool
deriving DecidableEq

def WorkerAccount.summary (minPayout : ℚ) (worker : WorkerAccount) : WorkerSummary where
  workerId := worker.workerId
  name := worker.name
  payoutAddress := worker.payoutAddress
  units := worker.units
  acceptedTasks := worker.acceptedTasks
  grossAmount := roundDown worker.grossAmount
  poolFeeAmount := roundDown worker.poolFeeAmount
  paidAmount := roundDown worker.paidAmount
  pendingAmount := roundDown worker.pendingAmount
  payable := if 0 < minPayout then minPayout ≤ worker.pendingAmount else 0 < worker.pendingAmount

/-- The order of the workers: by what is pending, the most first, then by id. -/
def summaryBefore (a b : WorkerSummary) : Prop :=
  b.pendingAmount < a.pendingAmount ∨
    (a.pendingAmount = b.pendingAmount ∧ a.workerId ≤ b.workerId)

instance : DecidableRel summaryBefore := fun a b => by
  unfold summaryBefore; infer_instance

/-- The workers with something pending. -/
def payoutWorkers (minPayout : ℚ) (workers : Accounts) : List WorkerSummary :=
  ((workers.rows.filter fun r => 0 < r.2.pendingAmount).map fun r => r.2.summary minPayout)
    |>.insertionSort summaryBefore

structure PayoutSummary where
  poolFeePercent : ℚ
  minPayoutAmount : ℚ
  grossTotal : ℤ
  poolFeeTotal : ℤ
  netTotal : ℤ
  paidTotal : ℤ
  payoutFeeTotal : ℤ
  payoutSpendTotal : ℤ
  operatorFeeAfterPayoutFees : ℤ
  workerOverpaymentTopUpTotal : ℤ
  pendingTotal : ℤ
  operatorTopUpTotal : ℤ
  rounds : List RoundRow
  workers : List WorkerSummary
deriving DecidableEq

/-- The last twenty rounds, the latest first. -/
def lastRounds (rounds : List RoundRow) : List RoundRow :=
  (rounds.drop (rounds.length - 20)).reverse

/-- What is shown after all rounds and payouts. -/
def summarize (poolFeePercent minPayoutAmount : ℚ) (payouts : List Payout) (workers : Accounts)
    (s : RoundState) : PayoutSummary :=
  let minPayout := max 0 minPayoutAmount
  let totalPaid := (payouts.map Payout.amount).sum
  let totalPayoutFee := (payouts.map fun payout => max 0 payout.fee).sum
  let totalPending := (workers.rows.map fun r => r.2.pendingAmount).sum
  let netTotal := s.totalGross - s.totalFee
  { poolFeePercent
    minPayoutAmount := minPayout
    grossTotal := roundDown s.totalGross
    poolFeeTotal := roundDown s.totalFee
    netTotal := roundDown netTotal
    paidTotal := roundDown totalPaid
    payoutFeeTotal := roundDown totalPayoutFee
    payoutSpendTotal := roundDown (totalPaid + totalPayoutFee)
    operatorFeeAfterPayoutFees := roundDown (s.totalFee - totalPayoutFee)
    workerOverpaymentTopUpTotal := roundDown (max 0 (totalPaid + totalPending - netTotal))
    pendingTotal := roundDown totalPending
    operatorTopUpTotal :=
      roundDown (max 0 (totalPaid + totalPayoutFee + totalPending - s.totalGross))
    rounds := lastRounds s.rounds
    workers := payoutWorkers minPayout workers }

/-- `summarize_round_window_payouts`. -/
def summarizeRoundWindowPayouts (timestamp : String → ℤ) (taskRewards : List TaskReward)
    (shareRows : List WorkShare) (workerRows : List WorkerName) (payoutRows : List PaidRow)
    (poolFeePercent minPayoutAmount : ℚ) : PayoutSummary :=
  let s := playRounds timestamp poolFeePercent taskRewards shareRows workerRows
  summarize poolFeePercent minPayoutAmount (payoutRows.filterMap PaidRow.payout)
    (recordPayouts payoutRows s.workers) s

end Picoin.Pool
