import Picoin.Proofs.RoundPayouts

/-!
# Rewards that are settled late

A reward that is settled late splits a window in two. The workers of the window shared one reward and
now share two, and nobody gets less: what a worker gets of a window is at most what it gets of the
two parts together.

* **`Units`** — the units of a worker and of all workers between two times;
* **`roundGross_split`** — the inequality of a window and its parts;
* **`late_reward_keeps_gross`** — one more reward, in every order of the rewards.
-/

namespace Picoin.Pool

open Sql

variable (timestamp : String → ℤ)

/-! ## Units between two times -/

/-- The share counts, is of a worker that is asked for, and came after one time until another. -/
def WorkShare.within (who : String → Bool) (after upto : ℤ) (share : WorkShare) : Bool :=
  who share.workerId && share.counts timestamp &&
    (after < timestamp share.createdAt && timestamp share.createdAt ≤ upto)

/-- The units of the shares between two times. -/
def unitsWithin (shareRows : List WorkShare) (who : String → Bool) (after upto : ℤ) : ℤ :=
  ((shareRows.filter (WorkShare.within timestamp who after upto)).map WorkShare.units).sum

variable {timestamp}

/-- The units of two stretches of time add up. -/
theorem unitsWithin_add (shareRows : List WorkShare) (who : String → Bool) {p t q : ℤ} (hpt : p ≤ t)
    (htq : t ≤ q) : unitsWithin timestamp shareRows who p q =
      unitsWithin timestamp shareRows who p t + unitsWithin timestamp shareRows who t q := by
  unfold unitsWithin
  induction shareRows with
  | nil => rfl
  | cons share rest ih =>
    rw [List.filter_cons, List.filter_cons, List.filter_cons]
    by_cases hwho : (who share.workerId && share.counts timestamp) = true
    · unfold WorkShare.within at ih ⊢
      -- a share is in one of the stretches at most
      rcases le_or_gt (timestamp share.createdAt) p with hp | hp
      · rw [if_neg (by simp [hp.not_gt]), if_neg (by simp [hp.not_gt]),
          if_neg (by simp [(hp.trans hpt).not_gt]), ih]
      · rcases le_or_gt (timestamp share.createdAt) t with ht | ht
        · rw [if_pos (by simp only [hwho, hp, ht.trans htq, decide_true, Bool.and_self]),
            if_pos (by simp only [hwho, hp, ht, decide_true, Bool.and_self]),
            if_neg (by simp [ht.not_gt]), List.map_cons, List.sum_cons, List.map_cons,
            List.sum_cons, ih, add_assoc]
        · rcases le_or_gt (timestamp share.createdAt) q with hq | hq
          · rw [if_pos (by simp only [hwho, hp, hq, decide_true, Bool.and_self]),
              if_neg (by simp [ht.not_ge]),
              if_pos (by simp only [hwho, ht, hq, decide_true, Bool.and_self]), List.map_cons,
              List.sum_cons, List.map_cons, List.sum_cons, ih]
            ring
          · rw [if_neg (by simp [hq.not_ge]), if_neg (by simp [ht.not_ge]),
              if_neg (by simp [hq.not_ge]), ih]
    · have hnot : ∀ after upto, ¬ share.within timestamp who after upto = true := by
        intro after upto hwithin
        unfold WorkShare.within at hwithin
        exact hwho (Bool.and_eq_true_iff.mp hwithin).1
      rw [if_neg (hnot p q), if_neg (hnot p t), if_neg (hnot t q), ih]

theorem unitsWithin_nonneg (shareRows : List WorkShare) (who : String → Bool) (after upto : ℤ) :
    0 ≤ unitsWithin timestamp shareRows who after upto := by
  refine List.sum_nonneg fun units hunits => ?_
  obtain ⟨share, hshare, rfl⟩ := List.mem_map.mp hunits
  have hwithin := (List.mem_filter.mp hshare).2
  unfold WorkShare.within WorkShare.counts at hwithin
  simp only [Bool.and_eq_true, decide_eq_true_eq] at hwithin
  exact hwithin.1.2.1.le

/-- The units of some workers are among those of all. -/
theorem unitsWithin_le_all (shareRows : List WorkShare) (who : String → Bool) (after upto : ℤ) :
    unitsWithin timestamp shareRows who after upto ≤
      unitsWithin timestamp shareRows (fun _ => true) after upto := by
  have hsub : (shareRows.filter (WorkShare.within timestamp who after upto)).Sublist
      (shareRows.filter (WorkShare.within timestamp (fun _ => true) after upto)) := by
    refine List.monotone_filter_right _ fun share hwithin => ?_
    unfold WorkShare.within at hwithin ⊢
    simp only [Bool.and_eq_true] at hwithin ⊢
    exact ⟨⟨trivial, hwithin.1.2⟩, hwithin.2⟩
  refine (hsub.map WorkShare.units).sum_le_sum fun units hunits => ?_
  obtain ⟨share, hshare, rfl⟩ := List.mem_map.mp hunits
  have hwithin := (List.mem_filter.mp hshare).2
  unfold WorkShare.within WorkShare.counts at hwithin
  simp only [Bool.and_eq_true, decide_eq_true_eq] at hwithin
  exact hwithin.1.2.1.le

/-! ## One window and its parts -/

variable (timestamp) in
/-- What a worker gets of a reward for the time after one completion until another. -/
def roundGross (shareRows : List WorkShare) (reward : ℚ) (workerId : String) (after upto : ℤ) : ℚ :=
  if 0 < unitsWithin timestamp shareRows (fun _ => true) after upto then
    reward * unitsWithin timestamp shareRows (fun id => id = workerId) after upto /
      unitsWithin timestamp shareRows (fun _ => true) after upto
  else 0

theorem roundGross_nonneg (shareRows : List WorkShare) {reward : ℚ} (hreward : 0 ≤ reward)
    (workerId : String) (after upto : ℤ) :
    0 ≤ roundGross timestamp shareRows reward workerId after upto := by
  unfold roundGross
  split
  · next hpositive =>
    exact div_nonneg (mul_nonneg hreward (Int.cast_nonneg (unitsWithin_nonneg _ _ _ _)))
      (Int.cast_nonneg hpositive.le)
  · exact le_refl 0

/-- A part of the whole, in one share of it or in two. -/
theorem share_le_split {reward : ℚ} (hreward : 0 ≤ reward) {a b : ℤ} {A B : ℤ} (ha : 0 ≤ a)
    (haA : a ≤ A) (hb : 0 ≤ b) (hbB : b ≤ B) :
    (if 0 < A + B then reward * ((a + b : ℤ) : ℚ) / ((A + B : ℤ) : ℚ) else 0) ≤
      (if 0 < A then reward * a / A else 0) + (if 0 < B then reward * b / B else 0) := by
  have hA : 0 ≤ A := ha.trans haA
  have hB : 0 ≤ B := hb.trans hbB
  rcases hA.eq_or_lt with hzero | hpositive
  · -- nothing in the first part
    have hnone : a = 0 := by omega
    rw [← hzero, hnone, zero_add, zero_add, if_neg (lt_irrefl _), zero_add]
  · rcases hB.eq_or_lt with hzero | hpositive'
    · have hnone : b = 0 := by omega
      rw [← hzero, hnone, add_zero, add_zero, if_neg (lt_irrefl (0 : ℤ)), add_zero]
    · rw [if_pos (add_pos hpositive hpositive'), if_pos hpositive, if_pos hpositive']
      have hAq : (0 : ℚ) < A := by exact_mod_cast hpositive
      have hBq : (0 : ℚ) < B := by exact_mod_cast hpositive'
      have haq : 0 ≤ reward * a := mul_nonneg hreward (by exact_mod_cast ha)
      have hbq : 0 ≤ reward * b := mul_nonneg hreward (by exact_mod_cast hb)
      push_cast
      -- each part has the smaller divisor
      calc reward * ((a : ℚ) + b) / (A + B)
          = reward * a / (A + B) + reward * b / (A + B) := by rw [mul_add, add_div]
        _ ≤ reward * a / A + reward * b / B :=
            add_le_add (div_le_div_of_nonneg_left haq hAq (by linarith))
              (div_le_div_of_nonneg_left hbq hBq (by linarith))

theorem roundGross_split (shareRows : List WorkShare) {reward : ℚ} (hreward : 0 ≤ reward)
    (workerId : String) {p t q : ℤ} (hpt : p ≤ t) (htq : t ≤ q) :
    roundGross timestamp shareRows reward workerId p q ≤
      roundGross timestamp shareRows reward workerId p t +
        roundGross timestamp shareRows reward workerId t q := by
  unfold roundGross
  rw [unitsWithin_add shareRows _ hpt htq, unitsWithin_add shareRows _ hpt htq]
  exact share_le_split hreward (unitsWithin_nonneg _ _ _ _) (unitsWithin_le_all _ _ _ _)
    (unitsWithin_nonneg _ _ _ _) (unitsWithin_le_all _ _ _ _)

/-! ## All windows -/

variable (timestamp) in
/-- What a worker gets of one reward at each of the times, in their order. -/
def grossAlong (shareRows : List WorkShare) (reward : ℚ) (workerId : String) : ℤ → List ℤ → ℚ
  | _, [] => 0
  | after, upto :: rest =>
    roundGross timestamp shareRows reward workerId after upto +
      grossAlong shareRows reward workerId upto rest

/-- One more time splits the window it falls into. -/
theorem grossAlong_orderedInsert (shareRows : List WorkShare) {reward : ℚ} (hreward : 0 ≤ reward)
    (workerId : String) (t : ℤ) : ∀ (times : List ℤ) (after : ℤ), after ≤ t →
      grossAlong timestamp shareRows reward workerId after times ≤
        grossAlong timestamp shareRows reward workerId after (times.orderedInsert (· ≤ ·) t)
  | [], after, _ => add_nonneg (roundGross_nonneg shareRows hreward workerId after t) (le_refl 0)
  | upto :: rest, after, hafter => by
    rw [List.orderedInsert_cons]
    split
    · next hle =>
      rw [grossAlong, grossAlong, grossAlong, ← add_assoc]
      exact add_le_add_left (roundGross_split shareRows hreward workerId hafter hle) _
    · next hlater =>
      rw [grossAlong, grossAlong]
      exact add_le_add_right (grossAlong_orderedInsert shareRows hreward workerId t rest upto
        (not_le.mp hlater).le) _

/-! ## The rounds -/

/-- The gross amount of a worker; nothing without an account. -/
def grossOf (workers : Accounts) (workerId : String) : ℚ :=
  ((workers.find? workerId).map WorkerAccount.grossAmount).getD 0

/-- The shares of a window are those between its times. -/
theorem filter_inWindow (shareRows : List WorkShare) {previousTs : ℤ} (hprevious : 0 ≤ previousTs)
    (completedTs : ℤ) (who : String → Bool) :
    ((timedShares timestamp shareRows).filter
        (WorkShare.inWindow timestamp previousTs completedTs)).filter (fun share =>
          who share.workerId) =
      shareRows.filter (WorkShare.within timestamp who previousTs completedTs) := by
  rw [filter_timedShares, List.filter_filter]
  refine List.filter_congr fun share _ => ?_
  unfold WorkShare.within WorkShare.inWindow WorkShare.counts
  rw [Bool.eq_iff_iff]
  simp only [Bool.and_eq_true, Bool.not_eq_true', Bool.and_eq_false_iff, decide_eq_true_eq,
    decide_eq_false_iff_not]
  constructor
  · rintro ⟨hwho, ⟨hwindow, hupto⟩, hunits, hcreated⟩
    refine ⟨⟨hwho, hunits, hcreated⟩, ?_, hupto⟩
    omega
  · rintro ⟨⟨hwho, hunits, hcreated⟩, hafter, hupto⟩
    exact ⟨hwho, ⟨.inr (by omega), hupto⟩, hunits, hcreated⟩

theorem roundShares_all (shareRows : List WorkShare) {previousTs : ℤ} (hprevious : 0 ≤ previousTs)
    (completedTs : ℤ) :
    (roundShares timestamp previousTs completedTs (timedShares timestamp shareRows)).sum id =
      unitsWithin timestamp shareRows (fun _ => true) previousTs completedTs := by
  have hfilter := @filter_inWindow timestamp shareRows _ hprevious completedTs
    fun _ => true
  rw [List.filter_true] at hfilter
  rw [sum_roundShares, hfilter, unitsWithin]

theorem roundShares_worker (shareRows : List WorkShare) {previousTs : ℤ}
    (hprevious : 0 ≤ previousTs) (completedTs : ℤ) (workerId : String) :
    ((roundShares timestamp previousTs completedTs (timedShares timestamp shareRows)).find?
        workerId).getD 0 =
      unitsWithin timestamp shareRows (fun id => id = workerId) previousTs completedTs := by
  have hfold : ∀ (shares : List WorkShare) (row : Option ℤ),
      (shares.foldl (fun row share => some (row.getD 0 + share.units)) row).getD 0 =
        row.getD 0 + (shares.map WorkShare.units).sum := by
    intro shares
    induction shares with
    | nil => simp
    | cons share rest ih =>
      intro row
      rw [List.foldl_cons, ih, Option.getD_some, List.map_cons, List.sum_cons, add_assoc]
  have hfind := Table.find?_foldl_upsert WorkShare.workerId
    (fun share (row : Option ℤ) => row.getD 0 + share.units) workerId
    ((timedShares timestamp shareRows).filter
      (WorkShare.inWindow timestamp previousTs completedTs)) .empty
  unfold roundShares
  rw [hfind, hfold, filter_inWindow shareRows hprevious completedTs fun id => id = workerId]
  exact zero_add _

/-- What one reward adds to the gross amount of a worker. -/
theorem grossOf_playRound (rate : ℚ) (shareRows : List WorkShare) (s : RoundState)
    (hprevious : 0 ≤ s.previousCompletedTs) (row : TaskReward) (workerId : String) :
    grossOf (playRound timestamp rate (timedShares timestamp shareRows) s row).workers workerId =
      grossOf s.workers workerId + roundGross timestamp shareRows row.reward workerId
        s.previousCompletedTs (timestamp row.completedAt) := by
  have hall := @roundShares_all timestamp shareRows _ hprevious
    (timestamp row.completedAt)
  have hworker := @roundShares_worker timestamp shareRows _ hprevious
    (timestamp row.completedAt) workerId
  unfold playRound roundGross
  dsimp only
  rw [hall]
  split
  · show grossOf (shareReward _ _ _ _ _) workerId = _
    unfold grossOf
    rw [find?_shareReward, ← hworker]
    -- the worker has units in the round, or it has not
    cases (roundShares timestamp s.previousCompletedTs (timestamp row.completedAt)
        (timedShares timestamp shareRows)).find? workerId with
    | none => simp
    | some units =>
      cases s.workers.find? workerId with
      | none => simp [WorkerAccount.earn, WorkerAccount.new]
      | some worker => simp [WorkerAccount.earn]
  · exact (add_zero _).symm

theorem previousCompletedTs_playRound (rate : ℚ) (shares : List WorkShare) (s : RoundState)
    (row : TaskReward) :
    (playRound timestamp rate shares s row).previousCompletedTs = timestamp row.completedAt := by
  unfold playRound
  dsimp only
  split <;> rfl

theorem grossOf_playAll (rate : ℚ) (shareRows : List WorkShare) {reward : ℚ} (workerId : String) :
    ∀ (rewards : List TaskReward) (s : RoundState), 0 ≤ s.previousCompletedTs →
      (∀ row ∈ rewards, row.reward = reward ∧ 0 < timestamp row.completedAt) →
      grossOf (rewards.foldl (playRound timestamp rate (timedShares timestamp shareRows)) s).workers
          workerId =
        grossOf s.workers workerId + grossAlong timestamp shareRows reward workerId
          s.previousCompletedTs (rewards.map fun row => timestamp row.completedAt)
  | [], s, _, _ => (add_zero _).symm
  | row :: rest, s, hprevious, hrewards => by
    obtain ⟨hreward, hpositive⟩ := hrewards row List.mem_cons_self
    rw [List.foldl_cons, grossOf_playAll rate shareRows workerId rest _ (by
        rw [previousCompletedTs_playRound]
        exact hpositive.le) fun later hlater => hrewards later (List.mem_cons_of_mem _ hlater),
      grossOf_playRound rate shareRows s hprevious, previousCompletedTs_playRound, hreward,
      List.map_cons, grossAlong, add_assoc]

theorem grossOf_startWorkers (workerRows : List WorkerName) (workerId : String) :
    grossOf (startWorkers workerRows) workerId = 0 := by
  have hzero : ∀ id worker, (startWorkers workerRows).find? id = some worker →
      worker.grossAmount = 0 :=
    Table.forall_foldl_upsert (fun _ (worker : WorkerAccount) => worker.grossAmount = 0)
      WorkerName.workerId (fun row _ => WorkerAccount.new row.workerId row.name row.payoutAddress) _ _ (fun _ _ _ _ => rfl)
      fun _ _ h => nomatch h
  unfold grossOf
  cases hfind : (startWorkers workerRows).find? workerId with
  | none => rfl
  | some worker => exact hzero workerId worker hfind

/-! ## One more reward -/

variable (timestamp) in
/-- The times of the rewards that count, in their order. -/
def rewardTimes (taskRewards : List TaskReward) : List ℤ :=
  (timedRewards timestamp taskRewards).map fun row => timestamp row.completedAt

theorem grossOf_playRounds (poolFeePercent : ℚ) {taskRewards : List TaskReward}
    (shareRows : List WorkShare) (workerRows : List WorkerName) {reward : ℚ}
    (hrewards : ∀ row ∈ taskRewards, row.reward = reward) (workerId : String) :
    grossOf (playRounds timestamp poolFeePercent taskRewards shareRows workerRows).workers workerId =
      grossAlong timestamp shareRows reward workerId 0 (rewardTimes timestamp taskRewards) := by
  unfold playRounds
  rw [grossOf_playAll _ shareRows workerId _ _ (le_refl 0) (fun row hrow => ?_),
    grossOf_startWorkers, zero_add]
  · rfl
  · obtain ⟨hmem, -, hpositive⟩ := (mem_timedRewards timestamp).mp hrow
    exact ⟨hrewards row hmem, hpositive⟩

theorem rewardTimes_sorted (taskRewards : List TaskReward) :
    (rewardTimes timestamp taskRewards).Pairwise (· ≤ ·) := by
  unfold rewardTimes
  rw [List.pairwise_map]
  refine (List.pairwise_insertionSort (rewardBefore timestamp) _).imp fun {a b} hab => ?_
  rcases hab with hlt | ⟨heq, -⟩
  · exact hlt.le
  · exact heq.le

/-- One more reward is one more time, or does not count. -/
theorem rewardTimes_more {taskRewards taskRewards' : List TaskReward} {row : TaskReward}
    (hmore : taskRewards'.Perm (row :: taskRewards)) :
    rewardTimes timestamp taskRewards' = rewardTimes timestamp taskRewards ∨
      0 < timestamp row.completedAt ∧ rewardTimes timestamp taskRewards' =
        (rewardTimes timestamp taskRewards).orderedInsert (· ≤ ·) (timestamp row.completedAt) := by
  have hperm : ∀ rewards : List TaskReward, (rewardTimes timestamp rewards).Perm
      ((rewards.filter fun row => 0 < row.reward && 0 < timestamp row.completedAt).map fun row =>
        timestamp row.completedAt) :=
    fun rewards => (List.perm_insertionSort _ _).map _
  have htimes := (hperm taskRewards').trans ((hmore.filter _).map _)
  rw [List.filter_cons] at htimes
  -- lists of times in their order are one list where they have the same times
  have hunique : ∀ {times times' : List ℤ}, times.Perm times' → times.Pairwise (· ≤ ·) →
      times'.Pairwise (· ≤ ·) → times = times' := fun hsame hsorted hsorted' =>
    hsame.eq_of_pairwise (fun a b _ _ => le_antisymm) hsorted hsorted'
  by_cases hcounts : (0 < row.reward && 0 < timestamp row.completedAt) = true
  · rw [if_pos hcounts, List.map_cons] at htimes
    refine .inr ⟨of_decide_eq_true (Bool.and_eq_true_iff.mp hcounts).2, ?_⟩
    refine hunique (htimes.trans (((hperm taskRewards).symm.cons _).trans
      (List.perm_orderedInsert _ _ _).symm)) (rewardTimes_sorted _) ?_
    exact (rewardTimes_sorted taskRewards).orderedInsert _ _
  · rw [if_neg hcounts] at htimes
    exact .inl (hunique (htimes.trans (hperm taskRewards).symm) (rewardTimes_sorted _)
      (rewardTimes_sorted _))

theorem grossOf_more (poolFeePercent : ℚ) {taskRewards taskRewards' : List TaskReward}
    {row : TaskReward} (hmore : taskRewards'.Perm (row :: taskRewards))
    (shareRows : List WorkShare) (workerRows : List WorkerName) {reward : ℚ} (hreward : 0 < reward)
    (hrewards : ∀ row ∈ taskRewards, row.reward = reward) (hrow : row.reward = reward)
    (workerId : String) :
    grossOf (playRounds timestamp poolFeePercent taskRewards shareRows workerRows).workers workerId ≤
      grossOf (playRounds timestamp poolFeePercent taskRewards' shareRows workerRows).workers
        workerId := by
  have hrewards' : ∀ later ∈ taskRewards', later.reward = reward := fun later hlater => by
    rcases List.mem_cons.mp (hmore.mem_iff.mp hlater) with rfl | hlater
    · exact hrow
    · exact hrewards later hlater
  rw [grossOf_playRounds poolFeePercent shareRows workerRows hrewards,
    grossOf_playRounds poolFeePercent shareRows workerRows hrewards']
  rcases @rewardTimes_more timestamp _ _ _ hmore with hsame | ⟨hpositive, htimes⟩
  · rw [hsame]
  · rw [htimes]
    exact grossAlong_orderedInsert shareRows hreward.le workerId _ _ 0 hpositive.le

/-! ## The summary -/

theorem roundDown_mono {a b : ℚ} (h : a ≤ b) : roundDown a ≤ roundDown b := by
  have hscaled : a * 10 ^ 8 ≤ b * 10 ^ 8 := mul_le_mul_of_nonneg_right h (by norm_num)
  unfold roundDown
  by_cases ha : 0 ≤ a
  · rw [if_pos ha, if_pos (ha.trans h)]
    exact Int.floor_le_floor hscaled
  · rw [if_neg ha]
    split
    · next hb =>
      -- a loss is rounded up to zero at most, a gain down to zero at least
      have hloss : ⌈a * 10 ^ 8⌉ ≤ 0 := Int.ceil_le.mpr (by push_cast; linarith)
      have hgain : 0 ≤ ⌊b * 10 ^ 8⌋ := Int.floor_nonneg.mpr (mul_nonneg hb (by norm_num))
      exact hloss.trans hgain
    · exact Int.ceil_le_ceil hscaled

theorem payAll_gross : ∀ (payouts : List Payout) (worker : Option WorkerAccount),
    ((payAll payouts worker).map WorkerAccount.grossAmount).getD 0 =
      (worker.map WorkerAccount.grossAmount).getD 0
  | [], _ => rfl
  | payout :: rest, worker => by
    refine (payAll_gross rest _).trans ?_
    cases worker <;> rfl

/-- A payout leaves what has been earned. -/
theorem grossOf_recordPayouts (payoutRows : List PaidRow) (workers : Accounts) (workerId : String) :
    grossOf (recordPayouts payoutRows workers) workerId = grossOf workers workerId := by
  unfold grossOf
  rw [find?_recordPayouts]
  exact payAll_gross _ _

/-- The fee is its part of the gross amount. -/
def FeePart (rate : ℚ) (_ : String) (worker : WorkerAccount) : Prop :=
  worker.poolFeeAmount = worker.grossAmount * rate

theorem FeePart.new (rate : ℚ) (workerId : String) (name payoutAddress : Option String) :
    FeePart rate workerId (.new workerId name payoutAddress) := (zero_mul rate).symm

theorem FeePart.earn {rate : ℚ} {workerId : String} {worker : WorkerAccount}
    (h : FeePart rate workerId worker) (reward : ℚ) (roundUnits units : ℤ) :
    FeePart rate workerId (worker.earn rate reward roundUnits units) := by
  unfold FeePart at h ⊢
  show _ + _ = (_ + _) * _
  rw [h, add_mul]

/-- The fee is the same part of every gross amount. -/
def FeeOf (rate : ℚ) (workers : Accounts) : Prop :=
  ∀ workerId worker, workers.find? workerId = some worker → FeePart rate workerId worker

theorem feeOf_playRounds (poolFeePercent : ℚ) (taskRewards : List TaskReward)
    (shareRows : List WorkShare) (workerRows : List WorkerName) :
    FeeOf (feeRate poolFeePercent)
      (playRounds timestamp poolFeePercent taskRewards shareRows workerRows).workers := by
  unfold playRounds
  refine List.foldlRecOn _ _
    (motive := fun s : RoundState => FeeOf (feeRate poolFeePercent) s.workers) ?_
    fun s hs row _ => ?_
  · exact Table.forall_foldl_upsert (FeePart _) WorkerName.workerId
      (fun row _ => WorkerAccount.new row.workerId row.name row.payoutAddress) _ _
      (fun row _ _ _ => FeePart.new _ row.workerId row.name row.payoutAddress) fun _ _ h => nomatch h
  · unfold playRound
    dsimp only
    split
    · refine Table.forall_foldl_upsert (FeePart _) Prod.fst
        (fun row worker => (worker.getD (.new row.1 none none)).earn _ _ _ row.2) _ _
        (fun unitsRow _ worker hold => ?_) hs
      refine FeePart.earn ?_ _ _ _
      cases worker with
      | none => exact FeePart.new _ _ _ _
      | some worker => exact hold worker rfl
    · exact hs

/-- A worker with something pending after the payouts has earned more than they are. -/
theorem pending_recordPayouts {payoutRows : List PaidRow} {workers : Accounts}
    (hearned : AllEarned workers) {workerId : String} {worker : WorkerAccount}
    (hfind : (recordPayouts payoutRows workers).find? workerId = some worker)
    (hpending : 0 < worker.pendingAmount) :
    ∃ before, workers.find? workerId = some before ∧ worker.grossAmount = before.grossAmount ∧
      (((payoutRows.filterMap PaidRow.payout).filter fun payout =>
        payout.row.workerId = workerId).map Payout.amount).sum < before.pendingAmount := by
  rw [find?_recordPayouts] at hfind
  have hpositive : ∀ payout ∈ (payoutRows.filterMap PaidRow.payout).filter
      (fun payout => payout.row.workerId = workerId), 0 < payout.amount := fun payout hmem =>
    payout_pos (List.mem_filter.mp hmem).1
  cases hbefore : workers.find? workerId with
  | none =>
    have hnone := payAll_none _ hpositive
    rw [hbefore] at hfind
    rw [hfind, Option.filter_some, if_pos (decide_eq_true hpending)] at hnone
    cases hnone
  | some before =>
    have hstart := hearned workerId before hbefore
    have hnonneg : 0 ≤ before.pendingAmount := by
      rw [hstart.pending]
      exact sub_nonneg.mpr hstart.fee_le
    rw [hbefore, payAll_some _ _ hnonneg hpositive] at hfind
    cases hfind
    refine ⟨before, rfl, rfl, ?_⟩
    rcases lt_max_iff.mp hpending with hzero | hmore
    · exact absurd hzero (lt_irrefl _)
    · exact sub_pos.mp hmore

/-- What is pending before the payouts is the gross amount less the fee. -/
theorem pendingAmount_playRounds (poolFeePercent : ℚ) (taskRewards : List TaskReward)
    (shareRows : List WorkShare) (workerRows : List WorkerName) {workerId : String}
    {worker : WorkerAccount}
    (hfind : (playRounds timestamp poolFeePercent taskRewards shareRows workerRows
      ).workers.find? workerId = some worker) :
    worker.pendingAmount = worker.grossAmount * (1 - feeRate poolFeePercent) := by
  have hearned := earned_playRounds timestamp poolFeePercent taskRewards shareRows workerRows
  have hfee : worker.poolFeeAmount = worker.grossAmount * feeRate poolFeePercent :=
    feeOf_playRounds poolFeePercent taskRewards shareRows workerRows workerId worker hfind
  rw [(hearned workerId worker hfind).pending, hfee]
  ring

/-- The payouts to a worker. -/
def paidTo (payoutRows : List PaidRow) (workerId : String) : List Payout :=
  (payoutRows.filterMap PaidRow.payout).filter fun payout => payout.row.workerId = workerId

theorem paidTo_pos {payoutRows : List PaidRow} {workerId : String} :
    ∀ payout ∈ paidTo payoutRows workerId, 0 < payout.amount :=
  fun _ hmem => payout_pos (List.mem_filter.mp hmem).1

theorem sum_paidTo_nonneg (payoutRows : List PaidRow) (workerId : String) :
    0 ≤ ((paidTo payoutRows workerId).map Payout.amount).sum :=
  List.sum_nonneg fun amount hamount => by
    obtain ⟨payout, hpayout, rfl⟩ := List.mem_map.mp hamount
    exact (paidTo_pos payout hpayout).le

/-- A worker that has earned more than its payouts is shown with its gross amount. -/
theorem shown_of_pending (timestamp : String → ℤ) (taskRewards : List TaskReward)
    (shareRows : List WorkShare) (workerRows : List WorkerName) (payoutRows : List PaidRow)
    (poolFeePercent minPayoutAmount : ℚ) {workerId : String} {worker : WorkerAccount}
    (hfind : (playRounds timestamp poolFeePercent taskRewards shareRows workerRows
      ).workers.find? workerId = some worker)
    (hpending : ((paidTo payoutRows workerId).map Payout.amount).sum < worker.pendingAmount) :
    ∃ shown ∈ (summarizeRoundWindowPayouts timestamp taskRewards shareRows workerRows payoutRows
        poolFeePercent minPayoutAmount).workers,
      shown.workerId = workerId ∧ shown.grossAmount = roundDown worker.grossAmount := by
  have hearned := earned_playRounds timestamp poolFeePercent taskRewards shareRows workerRows
  have hnonneg := (sum_paidTo_nonneg payoutRows workerId).trans hpending.le
  have hfind' := (find?_recordPayouts payoutRows _ workerId).trans
    ((congrArg (payAll _) hfind).trans (payAll_some _ worker hnonneg paidTo_pos))
  refine ⟨_, (List.mem_insertionSort _).mpr (List.mem_map_of_mem (List.mem_filter.mpr
    ⟨Table.find?_eq_some_iff.mp hfind',
      decide_eq_true (lt_max_of_lt_right (sub_pos.mpr hpending))⟩)), ?_, rfl⟩
  exact (hearned workerId worker hfind).workerId

/-- One more reward of the same amount, whenever it was completed: no worker has earned less, and
each worker that is shown is shown again, with at least the gross amount. -/
theorem late_reward_keeps_gross (timestamp : String → ℤ) {taskRewards taskRewards' : List TaskReward}
    {row : TaskReward} (hmore : taskRewards'.Perm (row :: taskRewards))
    (shareRows : List WorkShare) (workerRows : List WorkerName) (payoutRows : List PaidRow)
    (poolFeePercent minPayoutAmount : ℚ) {reward : ℚ} (hreward : 0 < reward)
    (hrewards : ∀ row ∈ taskRewards, row.reward = reward) (hrow : row.reward = reward) :
    (∀ workerId, grossOf (recordPayouts payoutRows
          (playRounds timestamp poolFeePercent taskRewards shareRows workerRows).workers) workerId ≤
        grossOf (recordPayouts payoutRows
          (playRounds timestamp poolFeePercent taskRewards' shareRows workerRows).workers)
            workerId) ∧
      ∀ shown ∈ (summarizeRoundWindowPayouts timestamp taskRewards shareRows workerRows payoutRows
          poolFeePercent minPayoutAmount).workers,
        ∃ shown' ∈ (summarizeRoundWindowPayouts timestamp taskRewards' shareRows workerRows payoutRows
            poolFeePercent minPayoutAmount).workers,
          shown'.workerId = shown.workerId ∧ shown.grossAmount ≤ shown'.grossAmount := by
  have hgross := @grossOf_more timestamp poolFeePercent _ _ _ hmore shareRows workerRows _ hreward
    hrewards hrow
  refine ⟨fun workerId => ?_, fun shown hshown => ?_⟩
  · rw [grossOf_recordPayouts, grossOf_recordPayouts]
    exact hgross workerId
  · have hearned := earned_playRounds timestamp poolFeePercent taskRewards shareRows workerRows
    -- the account behind what is shown
    obtain ⟨⟨workerId, worker⟩, hmem, rfl⟩ :=
      List.mem_map.mp ((List.mem_insertionSort _).mp hshown)
    obtain ⟨hrows, hshows⟩ := List.mem_filter.mp hmem
    have hpending : 0 < worker.pendingAmount := of_decide_eq_true hshows
    have hfind := Table.find?_eq_some_iff.mpr hrows
    obtain ⟨before, hbefore, hsame, hpaid⟩ := pending_recordPayouts hearned hfind hpending
    have hid := (balanced_recordPayouts payoutRows hearned workerId worker hfind).workerId
    have hrate := sub_nonneg.mpr (feeRate_le_one poolFeePercent)
    have hsum := sum_paidTo_nonneg payoutRows workerId
    have hstart := pendingAmount_playRounds poolFeePercent taskRewards shareRows workerRows hbefore
    have hnow := hgross workerId
    unfold grossOf at hnow
    rw [hbefore] at hnow
    cases hafter : (playRounds timestamp poolFeePercent taskRewards' shareRows workerRows
        ).workers.find? workerId with
    | none =>
      -- without an account the worker would have earned nothing
      rw [hafter] at hnow
      have hless : before.grossAmount ≤ 0 := hnow
      have hnothing := mul_nonpos_of_nonpos_of_nonneg hless hrate
      rw [hstart] at hpaid
      exact absurd (hpaid.trans_le hnothing) hsum.not_gt
    | some after =>
      rw [hafter] at hnow
      have hearns : before.grossAmount ≤ after.grossAmount := hnow
      have hmuch : before.pendingAmount ≤ after.pendingAmount := by
        rw [hstart, pendingAmount_playRounds poolFeePercent taskRewards' shareRows workerRows hafter]
        exact mul_le_mul_of_nonneg_right hearns hrate
      obtain ⟨shown', hshown', hworker, hamount⟩ := shown_of_pending timestamp taskRewards' shareRows
        workerRows payoutRows poolFeePercent minPayoutAmount hafter (hpaid.trans_le hmuch)
      refine ⟨shown', hshown', hworker.trans hid.symm, ?_⟩
      show roundDown worker.grossAmount ≤ shown'.grossAmount
      rw [hsame, hamount]
      exact roundDown_mono hearns

/-- A reward at nine, before one at noon that is there already. -/
theorem late_reward_local :
    grossOf (recordPayouts [] (playRounds clockOf 1 [twinReward 1] [morningShare]
        []).workers) morningShare.workerId ≤
      grossOf (recordPayouts [] (playRounds clockOf 1
        [⟨some "early", none, none, none, 1, "nine"⟩, twinReward 1] [morningShare] []).workers)
          morningShare.workerId :=
  (late_reward_keeps_gross clockOf (.refl _) [morningShare] [] [] 1 0 (by norm_num)
    (fun row hrow => by rw [List.mem_singleton.mp hrow]; rfl) rfl).1 morningShare.workerId

end Picoin.Pool
