import Mathlib.Data.String.Basic
import Picoin.Lib.Dict
import Picoin.Pool.RoundWindows

/-!
# What the rounds pay

Each share counts in one round, what the workers earn in the rounds is what the rounds share out, and
a worker is owed what it has earned less the fee and less what it was paid. The order in which the
rows are read does not matter, where no two rewards have the same place among the rewards and no
worker has two rows.

* **`windows`** — the windows of the rewards, and **`countP_windows`** the number of them that hold a
  time;
* **`Earned`**, **`Balanced`** — what holds of the account of a worker after the rounds, and after the
  payouts;
* **`round_windows_account`** — the accounts, and the same summary for every order of the rows;
* **`twin_rewards_order`** — two rewards of one task and one time are taken in the order of their
  rows.
-/

namespace Picoin.Pool

open Sql

variable (timestamp : String → ℤ)

/-! ## Windows -/

/-- The window of a reward. -/
structure Window where
  previousTs : ℤ
  completedTs : ℤ
  reward : ℚ

/-- The windows of rewards in their order, after a completion. -/
def windows : ℤ → List TaskReward → List Window
  | _, [] => []
  | previousTs, row :: rest =>
    ⟨previousTs, timestamp row.completedAt, row.reward⟩ ::
      windows (timestamp row.completedAt) rest

/-- The share is counted in the round of the window. -/
def WorkShare.countsIn (share : WorkShare) (window : Window) : Bool :=
  share.inWindow timestamp window.previousTs window.completedTs && share.counts timestamp

/-- The units that are counted in the round of the window. -/
def windowUnits (shareRows : List WorkShare) (window : Window) : ℤ :=
  ((shareRows.filter fun share => share.countsIn timestamp window).map WorkShare.units).sum

/-- A share after the completion before is in one window, if a reward comes at its time or later. -/
theorem countP_windows (share : WorkShare) (hshare : share.counts timestamp = true) :
    ∀ (rewards : List TaskReward) (previousTs : ℤ),
      rewards.Pairwise (rewardBefore timestamp) →
      (∀ row ∈ rewards, 0 < timestamp row.completedAt ∧ previousTs ≤ timestamp row.completedAt) →
      (windows timestamp previousTs rewards).countP (share.countsIn timestamp) =
        if ¬ (0 < previousTs ∧ timestamp share.createdAt ≤ previousTs) ∧
          (∃ row ∈ rewards, timestamp share.createdAt ≤ timestamp row.completedAt) then 1 else 0
  | [], _, _, _ => by simp [windows]
  | row :: rest, previousTs, hsorted, hfrom => by
    obtain ⟨hfirst, hlater⟩ := List.pairwise_cons.mp hsorted
    have hle : ∀ later ∈ rest, timestamp row.completedAt ≤ timestamp later.completedAt :=
      fun later hmem => by
        rcases hfirst later hmem with hlt | ⟨heq, -⟩
        · exact hlt.le
        · exact heq.le
    have hrest := countP_windows share hshare rest (timestamp row.completedAt) hlater
      fun later hmem => ⟨(hfrom later (List.mem_cons_of_mem _ hmem)).1, hle later hmem⟩
    obtain ⟨hpositive, hprevious⟩ := hfrom row List.mem_cons_self
    rw [windows, List.countP_cons]
    -- the first window counts the share, or a later one, and none counts it twice
    by_cases hcomplete : timestamp share.createdAt ≤ timestamp row.completedAt
    · -- the later windows start after the share
      rw [hrest.trans (if_neg fun h => h.1 ⟨hpositive, hcomplete⟩), zero_add]
      by_cases hbefore : 0 < previousTs ∧ timestamp share.createdAt ≤ previousTs
      · have hhead : share.countsIn timestamp
            ⟨previousTs, timestamp row.completedAt, row.reward⟩ = false := by
          simp [WorkShare.countsIn, WorkShare.inWindow, hbefore]
        rw [hhead, if_neg Bool.false_ne_true, if_neg fun h => h.1 hbefore]
      · have hafter : previousTs ≤ 0 ∨ previousTs < timestamp share.createdAt := by omega
        have hhead : share.countsIn timestamp
            ⟨previousTs, timestamp row.completedAt, row.reward⟩ = true := by
          simpa [WorkShare.countsIn, WorkShare.inWindow, hshare, hcomplete] using hafter
        rw [hhead, if_pos rfl, if_pos ⟨hbefore, row, List.mem_cons_self, hcomplete⟩]
    · have hhead : share.countsIn timestamp
          ⟨previousTs, timestamp row.completedAt, row.reward⟩ = false := by
        simp [WorkShare.countsIn, WorkShare.inWindow, hcomplete]
      rw [hhead, if_neg Bool.false_ne_true, add_zero, hrest]
      have hnow : ¬ (0 < previousTs ∧ timestamp share.createdAt ≤ previousTs) :=
        fun h => hcomplete (h.2.trans hprevious)
      have hnext : ¬ (0 < timestamp row.completedAt ∧
          timestamp share.createdAt ≤ timestamp row.completedAt) := fun h => hcomplete h.2
      by_cases hmore : ∃ later ∈ rest, timestamp share.createdAt ≤ timestamp later.completedAt
      · obtain ⟨later, hmem, hreached⟩ := hmore
        rw [if_pos ⟨hnext, later, hmem, hreached⟩,
          if_pos ⟨hnow, later, List.mem_cons_of_mem _ hmem, hreached⟩]
      · rw [if_neg fun h => hmore h.2]
        refine (if_neg ?_).symm
        rintro ⟨-, later, hmem, hreached⟩
        rcases List.mem_cons.mp hmem with rfl | hmem
        · exact hcomplete hreached
        · exact hmore ⟨later, hmem, hreached⟩

/-! ## The order of the rewards -/

instance : Std.Total (rewardBefore timestamp) where
  total a b := by
    unfold rewardBefore
    rcases lt_trichotomy (timestamp a.completedAt) (timestamp b.completedAt) with h | h | h
    · exact .inl (.inl h)
    · rcases le_total (rewardKey a) (rewardKey b) with hkey | hkey
      · exact .inl (.inr ⟨h, hkey⟩)
      · exact .inr (.inr ⟨h.symm, hkey⟩)
    · exact .inr (.inl h)

instance : IsTrans TaskReward (rewardBefore timestamp) where
  trans a b c hab hbc := by
    unfold rewardBefore at *
    rcases hab with hab | ⟨hab, hkey⟩ <;> rcases hbc with hbc | ⟨hbc, hkey'⟩
    · exact .inl (hab.trans hbc)
    · exact .inl (hbc ▸ hab)
    · exact .inl (hab ▸ hbc)
    · exact .inr ⟨hab.trans hbc, hkey.trans hkey'⟩

/-- A reward is played if it is positive and has a time. -/
theorem mem_timedRewards {taskRewards : List TaskReward} {row : TaskReward} :
    row ∈ timedRewards timestamp taskRewards ↔
      row ∈ taskRewards ∧ 0 < row.reward ∧ 0 < timestamp row.completedAt := by
  unfold timedRewards
  rw [List.mem_insertionSort, List.mem_filter, Bool.and_eq_true, decide_eq_true_eq,
    decide_eq_true_eq]

/-- No two rewards have one place. -/
def DistinctRewards (taskRewards : List TaskReward) : Prop :=
  ∀ a ∈ taskRewards, ∀ b ∈ taskRewards,
    timestamp a.completedAt = timestamp b.completedAt → rewardKey a = rewardKey b → a = b

/-- Distinct rewards are played in one order, however they are listed. -/
theorem timedRewards_perm {taskRewards taskRewards' : List TaskReward}
    (hdistinct : DistinctRewards timestamp taskRewards) (h : taskRewards.Perm taskRewards') :
    timedRewards timestamp taskRewards = timedRewards timestamp taskRewards' := by
  refine List.Perm.eq_of_pairwise (fun a b ha hb hab hba => ?_)
    (List.pairwise_insertionSort _ _) (List.pairwise_insertionSort _ _)
    ((List.perm_insertionSort _ _).trans
      ((h.filter _).trans (List.perm_insertionSort _ _).symm))
  have hmemA := ((mem_timedRewards timestamp).mp ha).1
  have hmemB := h.symm.mem_iff.mp ((mem_timedRewards timestamp).mp hb).1
  -- two rows each of which may come before the other have one time and one key
  rcases hab with hab | ⟨htime, hkey⟩ <;> rcases hba with hba | ⟨htime', hkey'⟩
  · exact absurd hba hab.asymm
  · omega
  · omega
  · exact hdistinct a hmemA b hmemB htime (le_antisymm hkey hkey')

/-! ## Rounds -/

/-- The shares of a worker add up, in any order. -/
theorem find?_roundShares_perm {shares shares' : List WorkShare} (h : shares.Perm shares')
    (previousTs completedTs : ℤ) (workerId : String) :
    (roundShares timestamp previousTs completedTs shares).find? workerId =
      (roundShares timestamp previousTs completedTs shares').find? workerId := by
  have hfind := Table.find?_foldl_upsert WorkShare.workerId
    (fun share (row : Option ℤ) => row.getD 0 + share.units) workerId
  refine (hfind _ _).trans (((((h.filter _).filter _).foldl_eq' fun a _ b _ row => ?_) _).trans
    (hfind _ _).symm)
  show some (row.getD 0 + a.units + b.units) = some (row.getD 0 + b.units + a.units)
  rw [add_right_comm]

/-- The units of the round are those of the shares in its window. -/
theorem sum_roundShares (previousTs completedTs : ℤ) (shares : List WorkShare) :
    (roundShares timestamp previousTs completedTs shares).sum id =
      ((shares.filter (WorkShare.inWindow timestamp previousTs completedTs)).map
        WorkShare.units).sum := by
  have hsum : ∀ (counted : List WorkShare) (units : Table String ℤ),
      (counted.foldl (fun units share => units.upsert share.workerId
        ((units.find? share.workerId).getD 0 + share.units)) units).sum id =
        units.sum id + (counted.map WorkShare.units).sum := by
    intro counted
    induction counted with
    | nil => simp
    | cons share rest ih =>
      intro units
      rw [List.foldl_cons, ih, Table.sum_upsert, List.map_cons, List.sum_cons, Option.map_id]
      simp only [id]
      ring
  rw [roundShares, hsum]
  simp

/-- A worker with units earns its part of a reward, and nobody else. -/
theorem find?_shareReward (feeRate reward : ℚ) (roundUnits : ℤ) (units : Table String ℤ)
    (workers : Accounts) (workerId : String) :
    (shareReward feeRate reward roundUnits units.rows workers).find? workerId =
      ((units.find? workerId).toList.map fun n => (workerId, n)).foldl
        (fun worker row => some ((worker.getD (.new row.1 none none)).earn feeRate reward roundUnits
          row.2)) (workers.find? workerId) := by
  rw [← Table.filter_rows_eq]
  exact Table.find?_foldl_upsert Prod.fst
    (fun row (worker : Option WorkerAccount) =>
      (worker.getD (.new row.1 none none)).earn feeRate reward roundUnits row.2)
    workerId units.rows workers

/-- Two states that are shown in the same way. -/
structure RoundState.Agrees (s s' : RoundState) : Prop where
  workers : ∀ workerId, s.workers.find? workerId = s'.workers.find? workerId
  totalGross : s.totalGross = s'.totalGross
  totalFee : s.totalFee = s'.totalFee
  rounds : s.rounds = s'.rounds
  previousCompletedAt : s.previousCompletedAt = s'.previousCompletedAt
  previousCompletedTs : s.previousCompletedTs = s'.previousCompletedTs

/-- A round goes the same way for shares in another order. -/
theorem RoundState.Agrees.play {s s' : RoundState} (h : s.Agrees s') {shares shares' : List WorkShare}
    (hshares : shares.Perm shares') (feeRate : ℚ) (row : TaskReward) :
    (playRound timestamp feeRate shares s row).Agrees (playRound timestamp feeRate shares' s' row) := by
  have hfind := find?_roundShares_perm timestamp hshares s.previousCompletedTs
    (timestamp row.completedAt)
  have hperm := Table.rows_perm hfind
  have hsum : (roundShares timestamp s.previousCompletedTs (timestamp row.completedAt) shares).sum id =
      (roundShares timestamp s.previousCompletedTs (timestamp row.completedAt) shares').sum id :=
    (hperm.map _).sum_eq
  unfold playRound
  simp only [← h.previousCompletedTs, ← h.previousCompletedAt, ← h.rounds, ← hsum, ← hperm.length_eq]
  -- a round whose window has no units only moves the window
  split
  · refine ⟨fun workerId => ?_, ?_, ?_, rfl, rfl, rfl⟩
    · show (shareReward _ _ _ _ _).find? workerId = (shareReward _ _ _ _ _).find? workerId
      rw [find?_shareReward, find?_shareReward, hfind, h.workers]
    · show s.totalGross + _ = s'.totalGross + _
      rw [h.totalGross, (hperm.map _).sum_eq]
    · show s.totalFee + _ = s'.totalFee + _
      rw [h.totalFee, (hperm.map _).sum_eq]
  · exact ⟨h.workers, h.totalGross, h.totalFee, rfl, rfl, rfl⟩

/-- So do all rounds. -/
theorem RoundState.Agrees.playAll {shares shares' : List WorkShare} (hshares : shares.Perm shares')
    (feeRate : ℚ) : ∀ (rewards : List TaskReward) {s s' : RoundState}, s.Agrees s' →
      (rewards.foldl (playRound timestamp feeRate shares) s).Agrees
        (rewards.foldl (playRound timestamp feeRate shares') s')
  | [], _, _, h => h
  | row :: rest, _, _, h => playAll hshares feeRate rest (h.play timestamp hshares feeRate row)

/-- A later row of a worker does not differ from an earlier one. -/
def DistinctWorkers (workerRows : List WorkerName) : Prop :=
  ∀ a ∈ workerRows, ∀ b ∈ workerRows, a.workerId = b.workerId → a = b

/-- Distinct workers start with the same accounts in any order. -/
theorem find?_startWorkers_perm {workerRows workerRows' : List WorkerName}
    (hdistinct : DistinctWorkers workerRows) (h : workerRows.Perm workerRows') (workerId : String) :
    (startWorkers workerRows).find? workerId = (startWorkers workerRows').find? workerId := by
  have hfind := Table.find?_foldl_upsert WorkerName.workerId
    (fun row (_ : Option WorkerAccount) => WorkerAccount.new row.workerId row.name row.payoutAddress)
    workerId
  refine (hfind _ _).trans ((((h.filter _).foldl_eq' fun a ha b hb row => ?_) _).trans
    (hfind _ _).symm)
  obtain ⟨hmemA, hidA⟩ := List.mem_filter.mp ha
  obtain ⟨hmemB, hidB⟩ := List.mem_filter.mp hb
  rw [hdistinct a hmemA b hmemB ((of_decide_eq_true hidA).trans (of_decide_eq_true hidB).symm)]

/-- The rounds end with the same accounts in any order of the rows. -/
theorem playRounds_agrees {taskRewards taskRewards' : List TaskReward}
    {shareRows shareRows' : List WorkShare} {workerRows workerRows' : List WorkerName}
    (hrewards : DistinctRewards timestamp taskRewards) (hworkers : DistinctWorkers workerRows)
    (htask : taskRewards.Perm taskRewards') (hshare : shareRows.Perm shareRows')
    (hworker : workerRows.Perm workerRows') (poolFeePercent : ℚ) :
    (playRounds timestamp poolFeePercent taskRewards shareRows workerRows).Agrees
      (playRounds timestamp poolFeePercent taskRewards' shareRows' workerRows') := by
  unfold playRounds
  rw [timedRewards_perm timestamp hrewards htask]
  exact RoundState.Agrees.playAll timestamp (hshare.filter _) _ _
    ⟨find?_startWorkers_perm hworkers hworker, rfl, rfl, rfl, rfl, rfl⟩

/-! ## Accounts -/

/-- The account of a worker after the rounds. -/
structure Earned (workerId : String) (worker : WorkerAccount) : Prop where
  workerId : worker.workerId = workerId
  paid : worker.paidAmount = 0
  pending : worker.pendingAmount = worker.grossAmount - worker.poolFeeAmount
  fee_le : worker.poolFeeAmount ≤ worker.grossAmount

/-- The account of a worker after the payouts. -/
structure Balanced (workerId : String) (worker : WorkerAccount) : Prop where
  workerId : worker.workerId = workerId
  pending : worker.pendingAmount =
    max 0 (worker.grossAmount - worker.poolFeeAmount - worker.paidAmount)

/-- A new account has earned nothing. -/
theorem Earned.new (workerId : String) (name payoutAddress : Option String) :
    Earned workerId (.new workerId name payoutAddress) :=
  ⟨rfl, rfl, (sub_self _).symm, le_refl _⟩

/-- An account that was not paid has all it earned pending. -/
theorem Earned.balanced {workerId : String} {worker : WorkerAccount} (h : Earned workerId worker) :
    Balanced workerId worker := by
  refine ⟨h.workerId, ?_⟩
  rw [h.paid, sub_zero, h.pending, max_eq_right (sub_nonneg.mpr h.fee_le)]

/-- A part of a reward keeps an account earned. -/
theorem Earned.earn {workerId : String} {worker : WorkerAccount} (h : Earned workerId worker)
    {feeRate reward : ℚ} {roundUnits units : ℤ} (hrate : feeRate ≤ 1) (hreward : 0 ≤ reward)
    (hround : 0 ≤ roundUnits) (hunits : 0 ≤ units) :
    Earned workerId (worker.earn feeRate reward roundUnits units) := by
  have hgross : 0 ≤ reward * units / roundUnits :=
    div_nonneg (mul_nonneg hreward (Int.cast_nonneg hunits)) (Int.cast_nonneg hround)
  refine ⟨h.workerId, h.paid, ?_, ?_⟩
  · show worker.pendingAmount + _ = worker.grossAmount + _ - (worker.poolFeeAmount + _)
    rw [h.pending]
    ring
  · exact add_le_add h.fee_le (mul_le_of_le_one_right hgross hrate)

/-- A payout keeps an account balanced. -/
theorem Balanced.pay {workerId : String} {worker : WorkerAccount} (h : Balanced workerId worker)
    {amount : ℚ} (hamount : 0 < amount) : Balanced workerId (worker.pay amount) := by
  refine ⟨h.workerId, ?_⟩
  show max 0 (worker.pendingAmount - amount) =
    max 0 (worker.grossAmount - worker.poolFeeAmount - (worker.paidAmount + amount))
  rw [h.pending, ← sub_sub]
  rcases le_total 0 (worker.grossAmount - worker.poolFeeAmount - worker.paidAmount) with hle | hle
  · rw [max_eq_right hle]
  · rw [max_eq_left hle, max_eq_left (by linarith), max_eq_left (by linarith)]

/-- The pool keeps no more than there is. -/
theorem feeRate_le_one (poolFeePercent : ℚ) : feeRate poolFeePercent ≤ 1 := by
  unfold feeRate
  rw [div_le_one (by norm_num)]
  exact max_le (by norm_num) (min_le_left _ _)

/-- The units of a round are not negative. -/
theorem roundShares_nonneg {shares : List WorkShare} (hshares : ∀ share ∈ shares, 0 < share.units)
    (previousTs completedTs : ℤ) (workerId : String) (units : ℤ)
    (hrow : (roundShares timestamp previousTs completedTs shares).find? workerId = some units) :
    0 ≤ units := by
  refine Table.forall_foldl_upsert (fun _ units => 0 ≤ units) WorkShare.workerId
    (fun share row => row.getD 0 + share.units) _ .empty (fun share hmem row hold => ?_)
    (fun _ _ h => nomatch h) workerId units hrow
  have hshare := hshares share (List.mem_filter.mp hmem).1
  cases row with
  | none =>
    rw [Option.getD_none, zero_add]
    exact hshare.le
  | some old => exact add_nonneg (hold old rfl) hshare.le

/-- What a round shares out is its reward. -/
theorem sum_shared (reward : ℚ) (roundUnits : ℤ) (rows : List (String × ℤ)) :
    (rows.map fun r => reward * r.2 / roundUnits).sum =
      reward * ((rows.map Prod.snd).sum : ℤ) / roundUnits := by
  induction rows with
  | nil => simp
  | cons r rest ih =>
    rw [List.map_cons, List.sum_cons, ih, List.map_cons, List.sum_cons]
    push_cast
    ring

/-- The gross amounts of all workers. -/
def grossSum (workers : Accounts) : ℚ := (workers.rows.map fun r => r.2.grossAmount).sum

/-- The sum changes with the account that is written. -/
theorem grossSum_upsert (workers : Accounts) (workerId : String) (worker : WorkerAccount) :
    grossSum (workers.upsert workerId worker) = grossSum workers + worker.grossAmount -
      ((workers.find? workerId).map WorkerAccount.grossAmount).getD 0 :=
  Table.sum_map_upsert workers WorkerAccount.grossAmount workerId worker

/-- A reward adds the parts of the workers to the sum. -/
theorem grossSum_shareReward (feeRate reward : ℚ) (roundUnits : ℤ) :
    ∀ (rows : List (String × ℤ)) (workers : Accounts),
      grossSum (shareReward feeRate reward roundUnits rows workers) =
        grossSum workers + (rows.map fun r => reward * r.2 / roundUnits).sum
  | [], workers => (add_zero _).symm
  | r :: rest, workers => by
    have hrest := grossSum_shareReward feeRate reward roundUnits rest
    unfold shareReward at hrest ⊢
    rw [List.foldl_cons, hrest, grossSum_upsert, List.map_cons, List.sum_cons]
    cases workers.find? r.1 with
    | none =>
      show _ + (0 + _) - (0 : ℚ) + _ = _
      ring
    | some worker =>
      show _ + (worker.grossAmount + _) - worker.grossAmount + _ = _
      ring

/-- Nothing is earned at the start. -/
theorem grossSum_startWorkers (workerRows : List WorkerName) :
    grossSum (startWorkers workerRows) = 0 := by
  refine List.sum_eq_zero fun amount hamount => ?_
  obtain ⟨r, hr, rfl⟩ := List.mem_map.mp hamount
  have hfind : (startWorkers workerRows).find? r.1 = some r.2 := Table.find?_eq_some_iff.mpr hr
  exact Table.forall_foldl_upsert (fun _ (worker : WorkerAccount) => worker.grossAmount = 0)
    WorkerName.workerId (fun row _ => .new row.workerId row.name row.payoutAddress) workerRows .empty
    (fun _ _ _ _ => rfl) (fun _ _ h => nomatch h) r.1 r.2 hfind

/-- A payout changes nothing that was earned. -/
theorem grossSum_recordPayouts (payoutRows : List PaidRow) (workers : Accounts) :
    grossSum (recordPayouts payoutRows workers) = grossSum workers := by
  unfold recordPayouts
  generalize payoutRows.filterMap PaidRow.payout = payouts
  induction payouts generalizing workers with
  | nil => rfl
  | cons payout rest ih =>
    rw [List.foldl_cons, ih, recordPayout, grossSum_upsert]
    cases workers.find? payout.row.workerId with
    | none =>
      show _ + (0 : ℚ) - 0 = _
      ring
    | some worker =>
      show _ + worker.grossAmount - worker.grossAmount = _
      ring

/-- The rewards of the windows that have shares. -/
def sharedRewards (shareRows : List WorkShare) (rounds : List Window) : ℚ :=
  ((rounds.filter fun window => 0 < windowUnits timestamp shareRows window).map Window.reward).sum

/-- The shares of a window are those with a time in it. -/
theorem filter_timedShares (shareRows : List WorkShare) (previousTs completedTs : ℤ) :
    (timedShares timestamp shareRows).filter
        (WorkShare.inWindow timestamp previousTs completedTs) =
      shareRows.filter fun share => share.inWindow timestamp previousTs completedTs &&
        share.counts timestamp := by
  unfold timedShares
  exact List.filter_filter

/-- The units of a round, and of its window. -/
theorem sum_roundShares_eq (shareRows : List WorkShare) (window : Window) :
    (roundShares timestamp window.previousTs window.completedTs
      (timedShares timestamp shareRows)).sum id = windowUnits timestamp shareRows window := by
  rw [sum_roundShares, filter_timedShares]
  rfl

/-- The rounds that are played are those of the windows, and the gross amounts grow by the rewards
that they share out. -/
theorem play_windows (rate : ℚ) (shareRows : List WorkShare) :
    ∀ (rewards : List TaskReward) (s : RoundState),
      (rewards.foldl (playRound timestamp rate (timedShares timestamp shareRows)) s).rounds.map
          RoundRow.totalUnits =
        s.rounds.map RoundRow.totalUnits ++
          (windows timestamp s.previousCompletedTs rewards).map (windowUnits timestamp shareRows) ∧
      grossSum (rewards.foldl (playRound timestamp rate (timedShares timestamp shareRows)) s).workers =
        grossSum s.workers +
          sharedRewards timestamp shareRows (windows timestamp s.previousCompletedTs rewards)
  | [], s => by simp [windows, sharedRewards]
  | row :: rest, s => by
    obtain ⟨hrounds, hgross⟩ := play_windows rate shareRows rest
      (playRound timestamp rate (timedShares timestamp shareRows) s row)
    have hunits := sum_roundShares_eq timestamp shareRows
      ⟨s.previousCompletedTs, timestamp row.completedAt, row.reward⟩
    -- the next window starts where this one ends, paid or not
    have hprevious : (playRound timestamp rate (timedShares timestamp shareRows) s
        row).previousCompletedTs = timestamp row.completedAt := by
      unfold playRound
      simp only
      split <;> rfl
    have hrow : (playRound timestamp rate (timedShares timestamp shareRows) s row).rounds.map
        RoundRow.totalUnits = s.rounds.map RoundRow.totalUnits ++ [windowUnits timestamp shareRows
          ⟨s.previousCompletedTs, timestamp row.completedAt, row.reward⟩] := by
      rw [← hunits]
      unfold playRound
      simp only
      split <;> exact List.map_append
    refine ⟨?_, ?_⟩
    · rw [List.foldl_cons, hrounds, hprevious, hrow, windows, List.map_cons, List.append_assoc]
      rfl
    · rw [List.foldl_cons, hgross, hprevious, windows]
      unfold playRound sharedRewards
      simp only
      rw [hunits, List.filter_cons]
      -- a window without units pays nobody
      by_cases hpositive : 0 < windowUnits timestamp shareRows
          ⟨s.previousCompletedTs, timestamp row.completedAt, row.reward⟩
      · rw [if_pos hpositive, if_pos (decide_eq_true hpositive), List.map_cons, List.sum_cons]
        show grossSum (shareReward _ _ _ _ _) + _ = _
        have hsum : ((roundShares timestamp s.previousCompletedTs (timestamp row.completedAt)
            (timedShares timestamp shareRows)).rows.map Prod.snd).sum =
              windowUnits timestamp shareRows
                ⟨s.previousCompletedTs, timestamp row.completedAt, row.reward⟩ := hunits
        have hne : ((windowUnits timestamp shareRows
            ⟨s.previousCompletedTs, timestamp row.completedAt, row.reward⟩ : ℤ) : ℚ) ≠ 0 :=
          Int.cast_ne_zero.mpr hpositive.ne'
        rw [grossSum_shareReward, sum_shared, hsum, mul_div_assoc, div_self hne, mul_one, add_assoc]
      · rw [if_neg hpositive, if_neg (by simpa using hpositive)]

/-- The workers have earned what they have. -/
def AllEarned (workers : Accounts) : Prop :=
  ∀ workerId worker, workers.find? workerId = some worker → Earned workerId worker

/-- All accounts are earned at the start. -/
theorem earned_startWorkers (workerRows : List WorkerName) : AllEarned (startWorkers workerRows) :=
  Table.forall_foldl_upsert Earned WorkerName.workerId
    (fun row _ => .new row.workerId row.name row.payoutAddress) _ _
    (fun row _ _ _ => Earned.new row.workerId row.name row.payoutAddress) fun _ _ h => nomatch h

/-- A round keeps all accounts earned. -/
theorem AllEarned.play {shares : List WorkShare} (hshares : ∀ share ∈ shares, 0 < share.units)
    {rate : ℚ} (hrate : rate ≤ 1) {s : RoundState} (h : AllEarned s.workers) {row : TaskReward}
    (hreward : 0 < row.reward) : AllEarned (playRound timestamp rate shares s row).workers := by
  unfold playRound
  simp only
  split
  · rename_i hpositive
    refine Table.forall_foldl_upsert Earned Prod.fst
      (fun row worker => (worker.getD (.new row.1 none none)).earn rate _ _ row.2) _ _
      (fun unitsRow hmem worker hold => ?_) h
    have hunits := roundShares_nonneg timestamp hshares _ _ unitsRow.1 unitsRow.2
      (Table.find?_eq_some_iff.mpr hmem)
    have hearned : Earned unitsRow.1 (worker.getD (.new unitsRow.1 none none)) := by
      cases worker with
      | none => exact Earned.new _ _ _
      | some worker => exact hold worker rfl
    exact hearned.earn hrate hreward.le hpositive.le hunits
  · exact h

/-- They are earned after all rounds. -/
theorem earned_playRounds (poolFeePercent : ℚ) (taskRewards : List TaskReward)
    (shareRows : List WorkShare) (workerRows : List WorkerName) :
    AllEarned (playRounds timestamp poolFeePercent taskRewards shareRows workerRows).workers := by
  have hshares : ∀ share ∈ timedShares timestamp shareRows, 0 < share.units := fun share hmem => by
    have hcounts := (List.mem_filter.mp hmem).2
    exact of_decide_eq_true (Bool.and_eq_true_iff.mp hcounts).1
  unfold playRounds
  refine List.foldlRecOn _ _ (motive := fun s : RoundState => AllEarned s.workers)
    (earned_startWorkers workerRows) fun s hs row hrow => ?_
  exact AllEarned.play timestamp hshares (feeRate_le_one poolFeePercent) hs
    ((mem_timedRewards timestamp).mp hrow).2.1

/-! ## Payouts -/

/-- A payout that is recorded is positive. -/
theorem payout_pos {payoutRows : List PaidRow} {payout : Payout}
    (h : payout ∈ payoutRows.filterMap PaidRow.payout) : 0 < payout.amount := by
  obtain ⟨row, -, hpayout⟩ := List.mem_filterMap.mp h
  unfold PaidRow.payout at hpayout
  split at hpayout
  · cases hpayout
  · obtain ⟨⟨amount, fee⟩, -, hamount⟩ := Option.bind_eq_some_iff.mp hpayout
    change (if amount ≤ 0 then none else some _) = _ at hamount
    by_cases hle : amount ≤ 0
    · rw [if_pos hle] at hamount
      cases hamount
    · rw [if_neg hle] at hamount
      cases hamount
      exact not_le.mp hle

/-- An account that is paid was earned, and is balanced. -/
theorem balanced_recordPayouts (payoutRows : List PaidRow) {workers : Accounts}
    (h : AllEarned workers) (workerId : String) (worker : WorkerAccount)
    (hfind : (recordPayouts payoutRows workers).find? workerId = some worker) :
    Balanced workerId worker := by
  refine Table.forall_foldl_upsert Balanced (fun payout : Payout => payout.row.workerId)
    (fun payout worker => (worker.getD
      (.new payout.row.workerId payout.row.name payout.row.payoutAddress)).pay payout.amount) _ _
    (fun payout hmem row hold => ?_) (fun k x hx => (h k x hx).balanced) workerId worker hfind
  have hbalanced : Balanced payout.row.workerId (row.getD
      (.new payout.row.workerId payout.row.name payout.row.payoutAddress)) := by
    cases row with
    | none => exact (Earned.new _ _ _).balanced
    | some old => exact hold old rfl
  exact hbalanced.pay (payout_pos hmem)

/-- What payouts to one worker make of its account. -/
def payAll (payouts : List Payout) (worker : Option WorkerAccount) : Option WorkerAccount :=
  payouts.foldl (fun worker payout => some ((worker.getD
    (.new payout.row.workerId payout.row.name payout.row.payoutAddress)).pay payout.amount)) worker

/-- Payouts are taken off one after another, but never below zero. -/
theorem payAll_some : ∀ (payouts : List Payout) (worker : WorkerAccount), 0 ≤ worker.pendingAmount →
    (∀ payout ∈ payouts, 0 < payout.amount) → payAll payouts (some worker) = some { worker with
      paidAmount := worker.paidAmount + (payouts.map Payout.amount).sum
      pendingAmount := max 0 (worker.pendingAmount - (payouts.map Payout.amount).sum) }
  | [], worker, hpending, _ => by
    rw [List.map_nil, List.sum_nil, add_zero, sub_zero, max_eq_right hpending]
    rfl
  | payout :: rest, worker, hpending, hpositive => by
    have hrest := payAll_some rest (worker.pay payout.amount) (le_max_left _ _)
      fun later hlater => hpositive later (List.mem_cons_of_mem _ hlater)
    have hsum : 0 ≤ (rest.map Payout.amount).sum := List.sum_nonneg fun amount hamount => by
      obtain ⟨later, hlater, rfl⟩ := List.mem_map.mp hamount
      exact (hpositive later (List.mem_cons_of_mem _ hlater)).le
    refine hrest.trans ?_
    rw [List.map_cons, List.sum_cons]
    unfold WorkerAccount.pay
    simp only
    rw [add_assoc, ← sub_sub]
    rcases le_total 0 (worker.pendingAmount - payout.amount) with hle | hle
    · rw [max_eq_right hle]
    · rw [max_eq_left hle, max_eq_left (by linarith), max_eq_left (by linarith)]

/-- A worker that only payouts name has nothing pending. -/
theorem payAll_none : ∀ (payouts : List Payout), (∀ payout ∈ payouts, 0 < payout.amount) →
    (payAll payouts none).filter (fun worker => 0 < worker.pendingAmount) = none
  | [], _ => rfl
  | payout :: rest, hpositive => by
    have hfirst : payAll (payout :: rest) none = payAll rest (some ((WorkerAccount.new
      payout.row.workerId payout.row.name payout.row.payoutAddress).pay payout.amount)) := rfl
    have hzero : ((WorkerAccount.new payout.row.workerId payout.row.name
        payout.row.payoutAddress).pay payout.amount).pendingAmount = 0 := by
      have hamount := hpositive payout List.mem_cons_self
      exact max_eq_left (by show (0 : ℚ) - _ ≤ 0; linarith)
    have hsum : 0 ≤ (rest.map Payout.amount).sum := List.sum_nonneg fun amount hamount => by
      obtain ⟨later, hlater, rfl⟩ := List.mem_map.mp hamount
      exact (hpositive later (List.mem_cons_of_mem _ hlater)).le
    rw [hfirst, payAll_some rest _ hzero.ge fun later hlater =>
      hpositive later (List.mem_cons_of_mem _ hlater), hzero, Option.filter_some, if_neg]
    rw [decide_eq_true_eq, not_lt]
    exact (max_eq_left (by linarith)).le

/-- A worker is paid the payouts that name it. -/
theorem find?_recordPayouts (payoutRows : List PaidRow) (workers : Accounts) (workerId : String) :
    (recordPayouts payoutRows workers).find? workerId =
      payAll ((payoutRows.filterMap PaidRow.payout).filter fun payout =>
        payout.row.workerId = workerId) (workers.find? workerId) :=
  Table.find?_foldl_upsert (fun payout : Payout => payout.row.workerId)
    (fun payout (worker : Option WorkerAccount) => (worker.getD
      (.new payout.row.workerId payout.row.name payout.row.payoutAddress)).pay payout.amount)
    workerId _ _

/-- The workers with something pending do not depend on the order of the payouts. -/
theorem filter_recordPayouts {payoutRows payoutRows' : List PaidRow} {workers workers' : Accounts}
    (hearned : AllEarned workers)
    (hworkers : ∀ workerId, workers.find? workerId = workers'.find? workerId)
    (hpayouts : payoutRows.Perm payoutRows') (workerId : String) :
    ((recordPayouts payoutRows workers).find? workerId).filter
        (fun worker => 0 < worker.pendingAmount) =
      ((recordPayouts payoutRows' workers').find? workerId).filter
        fun worker => 0 < worker.pendingAmount := by
  rw [find?_recordPayouts, find?_recordPayouts, ← hworkers]
  have hperm : ((payoutRows.filterMap PaidRow.payout).filter fun payout =>
      payout.row.workerId = workerId).Perm ((payoutRows'.filterMap PaidRow.payout).filter
        fun payout => payout.row.workerId = workerId) := (hpayouts.filterMap _).filter _
  have hpositive : ∀ payout ∈ (payoutRows.filterMap PaidRow.payout).filter
      (fun payout => payout.row.workerId = workerId), 0 < payout.amount := fun payout hmem =>
    payout_pos (List.mem_filter.mp hmem).1
  have hpositive' : ∀ payout ∈ (payoutRows'.filterMap PaidRow.payout).filter
      (fun payout => payout.row.workerId = workerId), 0 < payout.amount := fun payout hmem =>
    hpositive payout (hperm.symm.mem_iff.mp hmem)
  cases hfind : workers.find? workerId with
  | none => rw [payAll_none _ hpositive, payAll_none _ hpositive']
  | some worker =>
    have hpending : 0 ≤ worker.pendingAmount := by
      have hworker := hearned workerId worker hfind
      rw [hworker.pending]
      exact sub_nonneg.mpr hworker.fee_le
    rw [payAll_some _ _ hpending hpositive, payAll_some _ _ hpending hpositive',
      (hperm.map Payout.amount).sum_eq]

/-! ## The summary -/

instance : Std.Total summaryBefore where
  total a b := by
    unfold summaryBefore
    rcases lt_trichotomy a.pendingAmount b.pendingAmount with h | h | h
    · exact .inr (.inl h)
    · rcases le_total a.workerId b.workerId with hid | hid
      · exact .inl (.inr ⟨h, hid⟩)
      · exact .inr (.inr ⟨h.symm, hid⟩)
    · exact .inl (.inl h)

instance : IsTrans WorkerSummary summaryBefore where
  trans a b c hab hbc := by
    unfold summaryBefore at *
    rcases hab with hab | ⟨hab, hid⟩ <;> rcases hbc with hbc | ⟨hbc, hid'⟩
    · exact .inl (hbc.trans hab)
    · exact .inl (hbc ▸ hab)
    · exact .inl (hab ▸ hbc)
    · exact .inr ⟨hab.trans hbc, hid.trans hid'⟩

/-- The accounts are in order. -/
def AllBalanced (workers : Accounts) : Prop :=
  ∀ workerId worker, workers.find? workerId = some worker → Balanced workerId worker

/-- The workers to be paid are the same in any order. -/
theorem payoutWorkers_perm {workers workers' : Accounts} (hbalanced : AllBalanced workers)
    (h : (workers.rows.filter fun r => 0 < r.2.pendingAmount).Perm
      (workers'.rows.filter fun r => 0 < r.2.pendingAmount)) (minPayout : ℚ) :
    payoutWorkers minPayout workers = payoutWorkers minPayout workers' := by
  have hperm := h.map fun r : String × WorkerAccount => r.2.summary minPayout
  refine List.Perm.eq_of_pairwise (fun a b ha hb hab hba => ?_)
    (List.pairwise_insertionSort _ _) (List.pairwise_insertionSort _ _)
    ((List.perm_insertionSort _ _).trans (hperm.trans (List.perm_insertionSort _ _).symm))
  have hrow : ∀ x ∈ (workers.rows.filter fun r => 0 < r.2.pendingAmount).map
      (fun r => r.2.summary minPayout), ∃ worker, workers.find? x.workerId = some worker ∧
        x = worker.summary minPayout := by
    intro x hx
    obtain ⟨r, hr, rfl⟩ := List.mem_map.mp hx
    have hfind := Table.find?_eq_some_iff.mpr (List.mem_filter.mp hr).1
    have hid : r.2.workerId = r.1 := (hbalanced _ _ hfind).workerId
    refine ⟨r.2, ?_, rfl⟩
    rw [show (r.2.summary minPayout).workerId = r.1 from hid]
    exact hfind
  obtain ⟨workerA, hfindA, rfl⟩ := hrow a ((List.mem_insertionSort _).mp ha)
  obtain ⟨workerB, hfindB, rfl⟩ := hrow b (hperm.symm.mem_iff.mp ((List.mem_insertionSort _).mp hb))
  have hid : (workerA.summary minPayout).workerId = (workerB.summary minPayout).workerId := by
    rcases hab with hab | ⟨hsame, hid⟩ <;> rcases hba with hba | ⟨hsame', hid'⟩
    · exact absurd hba hab.asymm
    · omega
    · omega
    · exact le_antisymm hid hid'
  rw [hid, hfindB] at hfindA
  rw [Option.some.inj hfindA]

/-- Rows with nothing pending do not count in the sum. -/
theorem sum_pending_filter : ∀ rows : List (String × WorkerAccount),
    (∀ r ∈ rows, 0 ≤ r.2.pendingAmount) → (rows.map fun r => r.2.pendingAmount).sum =
      ((rows.filter fun r => 0 < r.2.pendingAmount).map fun r => r.2.pendingAmount).sum
  | [], _ => rfl
  | r :: rest, h => by
    have hrest := sum_pending_filter rest fun r hr => h r (List.mem_cons_of_mem _ hr)
    rw [List.map_cons, List.sum_cons, hrest, List.filter_cons]
    by_cases hpositive : 0 < r.2.pendingAmount
    · rw [if_pos (decide_eq_true hpositive), List.map_cons, List.sum_cons]
    · have hzero : r.2.pendingAmount = 0 := le_antisymm (not_lt.mp hpositive) (h r List.mem_cons_self)
      rw [if_neg (by simpa using hpositive), hzero, zero_add]

/-- Nothing negative is pending. -/
theorem AllBalanced.pending_nonneg {workers : Accounts} (h : AllBalanced workers) :
    ∀ r ∈ workers.rows, 0 ≤ r.2.pendingAmount := fun r hr => by
  rw [(h r.1 r.2 (Table.find?_eq_some_iff.mpr hr)).pending]
  exact le_max_left _ _

/-- The summary does not depend on the order of the rows. -/
theorem summarize_perm {taskRewards taskRewards' : List TaskReward}
    {shareRows shareRows' : List WorkShare} {workerRows workerRows' : List WorkerName}
    {payoutRows payoutRows' : List PaidRow}
    (hrewards : DistinctRewards timestamp taskRewards) (hworkers : DistinctWorkers workerRows)
    (htask : taskRewards.Perm taskRewards') (hshare : shareRows.Perm shareRows')
    (hworker : workerRows.Perm workerRows') (hpayout : payoutRows.Perm payoutRows')
    (poolFeePercent minPayoutAmount : ℚ) :
    summarizeRoundWindowPayouts timestamp taskRewards shareRows workerRows payoutRows poolFeePercent
        minPayoutAmount =
      summarizeRoundWindowPayouts timestamp taskRewards' shareRows' workerRows' payoutRows'
        poolFeePercent minPayoutAmount := by
  have hagrees := playRounds_agrees timestamp hrewards hworkers htask hshare hworker poolFeePercent
  have hearned := earned_playRounds timestamp poolFeePercent taskRewards shareRows workerRows
  have hearned' := earned_playRounds timestamp poolFeePercent taskRewards' shareRows' workerRows'
  have hbalanced : AllBalanced (recordPayouts payoutRows _) :=
    balanced_recordPayouts payoutRows hearned
  have hbalanced' : AllBalanced (recordPayouts payoutRows' _) :=
    balanced_recordPayouts payoutRows' hearned'
  have hrows := Table.filter_rows_perm (filter_recordPayouts hearned hagrees.workers hpayout)
  have hpaid := hpayout.filterMap PaidRow.payout
  have hpending : ((recordPayouts payoutRows (playRounds timestamp poolFeePercent taskRewards
        shareRows workerRows).workers).rows.map fun r => r.2.pendingAmount).sum =
      ((recordPayouts payoutRows' (playRounds timestamp poolFeePercent taskRewards' shareRows'
        workerRows').workers).rows.map fun r => r.2.pendingAmount).sum := by
    rw [sum_pending_filter _ hbalanced.pending_nonneg, sum_pending_filter _ hbalanced'.pending_nonneg,
      (hrows.map fun r => r.2.pendingAmount).sum_eq]
  unfold summarizeRoundWindowPayouts summarize
  simp only
  rw [hagrees.totalGross, hagrees.totalFee, hagrees.rounds, hpending,
    (hpaid.map Payout.amount).sum_eq, (hpaid.map fun payout => max 0 payout.fee).sum_eq,
    payoutWorkers_perm hbalanced hrows]

/-- A share that counts lies in one window. -/
theorem countP_windows_timedRewards (taskRewards : List TaskReward) (share : WorkShare) :
    (windows timestamp 0 (timedRewards timestamp taskRewards)).countP (share.countsIn timestamp) =
      if share.counts timestamp = true ∧ (∃ row ∈ timedRewards timestamp taskRewards,
        timestamp share.createdAt ≤ timestamp row.completedAt) then 1 else 0 := by
  by_cases hshare : share.counts timestamp = true
  · have hfrom : ∀ row ∈ timedRewards timestamp taskRewards,
        0 < timestamp row.completedAt ∧ 0 ≤ timestamp row.completedAt := fun row hrow =>
      have hpositive := ((mem_timedRewards timestamp).mp hrow).2.2
      ⟨hpositive, hpositive.le⟩
    refine (countP_windows timestamp share hshare (timedRewards timestamp taskRewards) 0
      (List.pairwise_insertionSort _ _) hfrom).trans ?_
    exact if_congr (and_congr_left fun _ => by simp [hshare]) rfl rfl
  · rw [if_neg fun h => hshare h.1]
    refine List.countP_eq_zero.mpr fun window _ hcounts => hshare ?_
    exact (Bool.and_eq_true_iff.mp hcounts).2

/-- The accounts after all rewards and payouts, and the summary for every order of the rows. -/
theorem round_windows_account (taskRewards : List TaskReward) (shareRows : List WorkShare)
    (workerRows : List WorkerName) (payoutRows : List PaidRow) (poolFeePercent minPayoutAmount : ℚ) :
    let rounds := windows timestamp 0 (timedRewards timestamp taskRewards)
    let played := playRounds timestamp poolFeePercent taskRewards shareRows workerRows
    let workers := recordPayouts payoutRows played.workers
    (∀ share : WorkShare, rounds.countP (share.countsIn timestamp) = if share.counts timestamp = true ∧
        (∃ row ∈ timedRewards timestamp taskRewards,
          timestamp share.createdAt ≤ timestamp row.completedAt) then 1 else 0) ∧
      played.rounds.map RoundRow.totalUnits = rounds.map (windowUnits timestamp shareRows) ∧
      grossSum workers = sharedRewards timestamp shareRows rounds ∧
      (∀ workerId worker, workers.find? workerId = some worker → worker.pendingAmount =
        max 0 (worker.grossAmount - worker.poolFeeAmount - worker.paidAmount)) ∧
      (DistinctRewards timestamp taskRewards → DistinctWorkers workerRows →
        ∀ taskRewards' shareRows' workerRows' payoutRows', taskRewards.Perm taskRewards' →
        shareRows.Perm shareRows' → workerRows.Perm workerRows' → payoutRows.Perm payoutRows' →
          summarizeRoundWindowPayouts timestamp taskRewards shareRows workerRows payoutRows
              poolFeePercent minPayoutAmount =
            summarizeRoundWindowPayouts timestamp taskRewards' shareRows' workerRows' payoutRows'
              poolFeePercent minPayoutAmount) := by
  intro rounds played workers
  obtain ⟨hrounds, hgross⟩ := play_windows timestamp (feeRate poolFeePercent) shareRows
    (timedRewards timestamp taskRewards) ⟨startWorkers workerRows, 0, 0, [], none, 0⟩
  refine ⟨countP_windows_timedRewards timestamp taskRewards, hrounds, ?_, fun workerId worker hfind => ?_,
    fun hrewards hworkers _ _ _ _ htask hshare hworker hpayout => ?_⟩
  · rw [grossSum_recordPayouts]
    refine hgross.trans ?_
    rw [grossSum_startWorkers, zero_add]
  · exact (balanced_recordPayouts payoutRows (earned_playRounds timestamp poolFeePercent taskRewards
      shareRows workerRows) workerId worker hfind).pending
  · exact summarize_perm timestamp hrewards hworkers htask hshare hworker hpayout poolFeePercent
      minPayoutAmount

/-! ## Two rewards, and twin rewards -/

/-- A reward of an amount, with the same task and the same completion as any other of them. -/
def twinReward (reward : ℚ) : TaskReward := ⟨some "task", none, none, none, reward, "noon"⟩

/-- A time in seconds after the start of a day. -/
def clockOf (text : String) : ℤ := if text = "noon" then 43200 else if text = "nine" then 32400 else 0

def morningShare : WorkShare := ⟨"ann", 2, "nine"⟩

/-- The reward of another task in the morning. -/
def morningReward : TaskReward := ⟨some "task-2", none, none, none, 2, "nine"⟩

/-- Two rewards, three shares of two workers, and a payout to one of them. -/
theorem round_windows_account_local :
    let shares := [morningShare, ⟨"bob", 1, "noon"⟩, ⟨"ann", 3, "noon"⟩]
    let rewards := [twinReward 1, morningReward]
    let workers : List WorkerName := [⟨"ann", some "Ann", none⟩, ⟨"bob", none, none⟩]
    let payouts : List PaidRow := [⟨"ann", none, none, some (1, 0)⟩]
    (windows clockOf 0 (timedRewards clockOf rewards)).countP (morningShare.countsIn clockOf) = 1 ∧
      grossSum (recordPayouts payouts (playRounds clockOf 1 rewards shares workers).workers) = 3 ∧
      summarizeRoundWindowPayouts clockOf rewards shares workers payouts 1 0 =
        summarizeRoundWindowPayouts clockOf rewards.reverse shares.reverse workers.reverse payouts 1
          0 := by
  intro shares rewards workers payouts
  obtain ⟨hcount, -, hgross, -, hperm⟩ := round_windows_account clockOf rewards shares workers payouts
    1 0
  have hrewards : DistinctRewards clockOf rewards := by
    unfold DistinctRewards
    decide +kernel
  have hworkers : DistinctWorkers workers := by
    unfold DistinctWorkers
    decide +kernel
  refine ⟨(hcount morningShare).trans ?_, hgross.trans ?_, hperm hrewards hworkers _ _ _ _ (List.reverse_perm _).symm
    (List.reverse_perm _).symm (List.reverse_perm _).symm (.refl _)⟩ <;> decide +kernel

/-- The share goes to the reward whose row comes first. -/
theorem twin_rewards_order :
    ¬ ∀ (timestamp : String → ℤ) (taskRewards taskRewards' : List TaskReward)
      (shareRows : List WorkShare) (workerRows : List WorkerName) (payoutRows : List PaidRow)
      (poolFeePercent minPayoutAmount : ℚ),
      (∀ row ∈ taskRewards, 0 < row.reward ∧ 0 < timestamp row.completedAt) →
        taskRewards.Perm taskRewards' →
          summarizeRoundWindowPayouts timestamp taskRewards shareRows workerRows payoutRows
              poolFeePercent minPayoutAmount =
            summarizeRoundWindowPayouts timestamp taskRewards' shareRows workerRows payoutRows
              poolFeePercent minPayoutAmount := by
  intro hall
  have h := hall clockOf [twinReward 1, twinReward 2] [twinReward 2, twinReward 1] [morningShare] [] []
    0 0 (by decide +kernel) (List.Perm.swap _ _ _)
  exact absurd (congrArg PayoutSummary.grossTotal h) (by decide +kernel)

end Picoin.Pool
