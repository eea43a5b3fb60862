import Picoin.Forge.Settlement
import Picoin.Proofs.RequestLifeCycle

/-!
# The shares of an epoch

Each share but the last is rounded on its own, and the last worker gets what the rounding leaves of the
reward. When the shares before it are rounded up by more than its own share, nothing is left and the
rewards are more than the epoch's (`shares_exceed_reward`); when its score is zero, it gets what they are
rounded down by.

* **`roundingError`** — by how much the shares before the last one are rounded up;
* **`calculateEpochRewards_eq`** — the rewards without the loop;
* **`epoch_rewards_exact_iff`** — the rewards are exact if and only if the rounding error fits into the
  share of the last worker, and is zero where its score is zero.
-/

namespace Picoin.Forge.Coordinator

open Rounding

/-! ## Rounded shares -/

/-- The share of a worker, in steps of `10 ^ -8`. -/
def exactShare (reward : ℤ) (total : ℚ) (state : WorkerState) : ℚ :=
  reward * (state.verifiedComputeScore / total)

theorem roundedShare_eq (reward : ℤ) (total : ℚ) (state : WorkerState) :
    roundedShare reward total state = roundEven (exactShare reward total state) := by
  unfold roundedShare roundSteps exactShare
  congr 1
  ring

theorem exactShare_nonneg {reward : ℤ} (hreward : 0 ≤ reward) {total : ℚ} (htotal : 0 < total)
    {state : WorkerState} (hstate : 0 ≤ state.verifiedComputeScore) :
    0 ≤ exactShare reward total state :=
  mul_nonneg (by exact_mod_cast hreward) (div_nonneg hstate htotal.le)

theorem roundedShare_nonneg {reward : ℤ} (hreward : 0 ≤ reward) {total : ℚ} (htotal : 0 < total)
    {state : WorkerState} (hstate : 0 ≤ state.verifiedComputeScore) :
    0 ≤ roundedShare reward total state := by
  rw [roundedShare_eq]
  exact roundEven_nonneg (exactShare_nonneg hreward htotal hstate)

theorem roundedShare_of_zero (reward : ℤ) (total : ℚ) {state : WorkerState}
    (hstate : state.verifiedComputeScore = 0) : roundedShare reward total state = 0 := by
  rw [roundedShare_eq, exactShare, hstate, zero_div, mul_zero]
  exact_mod_cast roundEven_intCast 0

/-- The rounded shares together. -/
def sumRounded (reward : ℤ) (total : ℚ) (states : List WorkerState) : ℤ :=
  (states.map (roundedShare reward total)).sum

/-- By how much the shares are rounded up together. -/
def roundingError (reward : ℤ) (total : ℚ) (states : List WorkerState) : ℚ :=
  (states.map fun state =>
    (roundedShare reward total state : ℚ) - exactShare reward total state).sum

theorem roundingError_eq (reward : ℤ) (total : ℚ) (states : List WorkerState) :
    roundingError reward total states =
      sumRounded reward total states - (states.map (exactShare reward total)).sum := by
  induction states with
  | nil => simp [roundingError, sumRounded]
  | cons state rest ih =>
    unfold roundingError sumRounded at ih ⊢
    rw [List.map_cons, List.sum_cons, ih, List.map_cons, List.sum_cons, List.map_cons, List.sum_cons]
    push_cast
    ring

/-- Each share is rounded by at most one half. -/
theorem abs_roundingError_le (reward : ℤ) (total : ℚ) (states : List WorkerState) :
    |roundingError reward total states| ≤ states.length / 2 := by
  induction states with
  | nil => simp [roundingError]
  | cons state rest ih =>
    have hup := roundEven_le (exactShare reward total state)
    have hdown := le_roundEven (exactShare reward total state)
    rw [← roundedShare_eq] at hup hdown
    have hsplit : roundingError reward total (state :: rest) =
        ((roundedShare reward total state : ℚ) - exactShare reward total state) +
          roundingError reward total rest := rfl
    obtain ⟨hlow, hhigh⟩ := abs_le.mp ih
    rw [hsplit, abs_le, List.length_cons]
    push_cast
    constructor <;> linarith

/-! ## The loop -/

/-- The rewards of a list of workers and the last one. -/
theorem shareOut_concat (reward : ℤ) (total : ℚ) (last : WorkerState) (states : List WorkerState)
    (runningTotal : ℤ) :
    shareOut reward total (states ++ [last]) runningTotal =
      states.map (fun state => epochReward state (max 0 (roundedShare reward total state))) ++
        [epochReward last (max 0 (reward - (runningTotal + sumRounded reward total states)))] := by
  induction states generalizing runningTotal with
  | nil => simp [shareOut, sumRounded]
  | cons state rest ih =>
    have hsum : sumRounded reward total (state :: rest) =
        roundedShare reward total state + sumRounded reward total rest := rfl
    cases hrest : rest ++ [last] with
    | nil => exact absurd hrest (List.append_ne_nil_of_right_ne_nil _ (List.cons_ne_nil _ _))
    | cons next others =>
      rw [List.cons_append, hrest, shareOut, ← hrest, ih, hsum, List.map_cons, List.cons_append,
        add_assoc]
      exact List.cons_ne_nil _ _

/-- What a reward list with these shares is. -/
theorem calculateEpochRewards_eq {states : List WorkerState} {last : WorkerState} {reward : ℤ}
    (hreward : 0 ≤ reward) (htotal : 0 < totalScore (states ++ [last]))
    (hscores : ∀ state ∈ states ++ [last], 0 ≤ state.verifiedComputeScore) :
    calculateEpochRewards (states ++ [last]) reward =
      states.map (fun state =>
        epochReward state (roundedShare reward (totalScore (states ++ [last])) state)) ++
        [epochReward last
          (max 0 (reward - sumRounded reward (totalScore (states ++ [last])) states))] := by
  unfold calculateEpochRewards
  dsimp only
  rw [if_neg (not_le.mpr htotal), shareOut_concat, zero_add]
  congr 1
  refine List.map_congr_left fun state hstate => ?_
  rw [max_eq_right (roundedShare_nonneg hreward htotal
    (hscores state (List.mem_append_left _ hstate)))]

/-- The exact shares of all workers are the reward. -/
theorem sum_exactShare {states : List WorkerState} (reward : ℤ) (htotal : 0 < totalScore states)
    (hscores : ∀ state ∈ states, 0 ≤ state.verifiedComputeScore) :
    (states.map (exactShare reward (totalScore states))).sum = reward := by
  have hsum : totalScore states = (states.map WorkerState.verifiedComputeScore).sum :=
    congrArg List.sum (List.map_congr_left fun state hstate => max_eq_right (hscores state hstate))
  have hshare : ∀ total : ℚ, (states.map (exactShare reward total)).sum =
      reward * ((states.map WorkerState.verifiedComputeScore).sum / total) := by
    intro total
    clear hscores hsum htotal
    induction states with
    | nil => simp
    | cons state rest ih =>
      rw [List.map_cons, List.sum_cons, ih, List.map_cons, List.sum_cons, exactShare]
      ring
  rw [hshare, ← hsum, div_self htotal.ne', mul_one]

/-! ## A settlement that is written and read back -/

theorem validateReward_json (reward : EpochReward) :
    validateReward (epochRewardJson reward) = .ok reward := rfl

theorem mapM_validateReward (rewards : List EpochReward) :
    (rewards.map epochRewardJson).mapM validateReward = .ok rewards := by
  induction rewards with
  | nil => rfl
  | cons reward rest ih =>
    rw [List.map_cons, List.mapM_cons, validateReward_json, ih]
    rfl

/-- What is written is read back. -/
theorem validateSettlement_json (settlement : EpochSettlement) :
    validateSettlement (settlementJson settlement) = .ok settlement := by
  have hrewards : rewardsField [("epoch_id", .int settlement.epochId),
      ("epoch_reward", .float settlement.epochReward),
      ("total_verified_compute", .float settlement.totalVerifiedCompute),
      ("workers", .arr (settlement.workers.map epochRewardJson)),
      ("result_hash", .str settlement.resultHash), ("timestamp", .str settlement.timestamp),
      ("l1_settlement_ready", .bool settlement.l1SettlementReady),
      ("l1_note", .str settlement.l1Note)] "workers" = .ok settlement.workers :=
    mapM_validateReward settlement.workers
  unfold settlementJson validateSettlement
  dsimp only
  rw [hrewards]
  rfl

/-- A settlement that is built passes the checks unless its rewards are more than the epoch's. -/
theorem verifySettlement_build (fc : ForgeConfig) (timestamp : String) (epochId reward : ℤ)
    (rewards : List EpochReward) :
    verifySettlement fc (buildSettlement fc timestamp epochId reward rewards) = true ↔
      sumRewards rewards ≤ reward := by
  unfold verifySettlement settlementChecks buildSettlement
  simp

/-! ## Exactness -/

/-- The rewards of an epoch are exact: none is negative, they are the reward together, a score of zero
gets nothing, more score gets no less but for a step for each worker, and the settlement that is built,
written and read back passes its checks. -/
structure ExactRewards (fc : ForgeConfig) (timestamp : String) (epochId : ℤ)
    (workerStates : List WorkerState) (reward : ℤ) : Prop where
  nonneg : ∀ entry ∈ calculateEpochRewards workerStates reward, 0 ≤ entry.rewardPi
  sum_eq : sumRewards (calculateEpochRewards workerStates reward) = reward
  zero : ∀ p ∈ workerStates.zip (calculateEpochRewards workerStates reward),
    p.1.verifiedComputeScore = 0 → p.2.rewardPi = 0
  monotone : ∀ p ∈ workerStates.zip (calculateEpochRewards workerStates reward),
    ∀ q ∈ workerStates.zip (calculateEpochRewards workerStates reward),
      q.1.verifiedComputeScore ≤ p.1.verifiedComputeScore →
        q.2.rewardPi ≤ p.2.rewardPi + workerStates.length
  verified : ∃ settlement,
    validateSettlement (settlementJson (buildSettlement fc timestamp epochId reward
      (calculateEpochRewards workerStates reward))) = .ok settlement ∧
    verifySettlement fc settlement = true

/-- The workers before the last one with their entries, and the last one with its own. -/
theorem zip_rewards {states : List WorkerState} {last : WorkerState} {reward : ℤ} (hreward : 0 ≤ reward)
    (htotal : 0 < totalScore (states ++ [last]))
    (hscores : ∀ state ∈ states ++ [last], 0 ≤ state.verifiedComputeScore)
    {p : WorkerState × EpochReward} (hp : p ∈ (states ++ [last]).zip
      (calculateEpochRewards (states ++ [last]) reward)) :
    (p.1 ∈ states ∧ p.2.rewardPi = roundedShare reward (totalScore (states ++ [last])) p.1) ∨
      p.1 = last ∧ p.2.rewardPi =
        max 0 (reward - sumRounded reward (totalScore (states ++ [last])) states) := by
  rw [calculateEpochRewards_eq hreward htotal hscores,
    List.zip_append (by rw [List.length_map])] at hp
  rcases List.mem_append.mp hp with hfirst | hlast
  · left
    have hzip := List.zip_map' (f := id) (l := states) (g := fun state =>
      epochReward state (roundedShare reward (totalScore (states ++ [last])) state))
    rw [List.map_id] at hzip
    rw [hzip] at hfirst
    obtain ⟨state, hstate, rfl⟩ := List.mem_map.mp hfirst
    exact ⟨hstate, rfl⟩
  · right
    obtain rfl := List.mem_singleton.mp hlast
    exact ⟨rfl, rfl⟩

/-- The rounding error fits into the share of the last worker, and is zero where its score is. -/
def RoundingFits (reward : ℤ) (workerStates : List WorkerState) : Prop :=
  ∀ last ∈ workerStates.getLast?,
    roundingError reward (totalScore workerStates) workerStates.dropLast ≤
      exactShare reward (totalScore workerStates) last ∧
    (last.verifiedComputeScore = 0 →
      roundingError reward (totalScore workerStates) workerStates.dropLast = 0)

section

variable {states : List WorkerState} {last : WorkerState} {reward : ℤ}

theorem roundingFits_concat : RoundingFits reward (states ++ [last]) ↔
    roundingError reward (totalScore (states ++ [last])) states ≤
      exactShare reward (totalScore (states ++ [last])) last ∧
    (last.verifiedComputeScore = 0 →
      roundingError reward (totalScore (states ++ [last])) states = 0) := by
  unfold RoundingFits
  simp

/-- The last worker's exact share is what the exact shares before it leave. -/
theorem roundingError_concat (reward : ℤ) (htotal : 0 < totalScore (states ++ [last]))
    (hscores : ∀ state ∈ states ++ [last], 0 ≤ state.verifiedComputeScore) :
    roundingError reward (totalScore (states ++ [last])) states =
      exactShare reward (totalScore (states ++ [last])) last -
        (reward - sumRounded reward (totalScore (states ++ [last])) states : ℤ) := by
  have hsum := sum_exactShare reward htotal hscores
  rw [List.map_append, List.sum_append, List.map_singleton, List.sum_singleton] at hsum
  rw [roundingError_eq]
  push_cast
  linarith

theorem sumRewards_concat (hreward : 0 ≤ reward) (htotal : 0 < totalScore (states ++ [last]))
    (hscores : ∀ state ∈ states ++ [last], 0 ≤ state.verifiedComputeScore) :
    sumRewards (calculateEpochRewards (states ++ [last]) reward) =
      sumRounded reward (totalScore (states ++ [last])) states +
        max 0 (reward - sumRounded reward (totalScore (states ++ [last])) states) := by
  rw [calculateEpochRewards_eq hreward htotal hscores, sumRewards, List.map_append, List.sum_append,
    List.map_map, List.map_singleton, List.sum_singleton]
  rfl

/-- Where something is left, each reward is within one half for each worker of the exact share. -/
theorem abs_reward_sub_le (hreward : 0 ≤ reward) (htotal : 0 < totalScore (states ++ [last]))
    (hscores : ∀ state ∈ states ++ [last], 0 ≤ state.verifiedComputeScore)
    (hleft : sumRounded reward (totalScore (states ++ [last])) states ≤ reward)
    {p : WorkerState × EpochReward} (hp : p ∈ (states ++ [last]).zip
      (calculateEpochRewards (states ++ [last]) reward)) :
    |(p.2.rewardPi : ℚ) - exactShare reward (totalScore (states ++ [last])) p.1| ≤
      ((states ++ [last]).length : ℚ) / 2 := by
  have hlength : ((states ++ [last]).length : ℚ) = states.length + 1 := by simp
  have hmany : (0 : ℚ) ≤ states.length := Nat.cast_nonneg _
  rw [hlength]
  rcases zip_rewards hreward htotal hscores hp with ⟨-, heq⟩ | ⟨hlast, heq⟩
  · have hup := roundEven_le (exactShare reward (totalScore (states ++ [last])) p.1)
    have hdown := le_roundEven (exactShare reward (totalScore (states ++ [last])) p.1)
    rw [heq, roundedShare_eq, abs_le]
    constructor <;> linarith
  · have herror := roundingError_concat reward htotal hscores
    obtain ⟨hlow, hhigh⟩ := abs_le.mp
      (abs_roundingError_le reward (totalScore (states ++ [last])) states)
    rw [herror] at hlow hhigh
    rw [heq, max_eq_right (sub_nonneg.mpr hleft), hlast, abs_le]
    constructor <;> linarith

/-- A share grows with the score. -/
theorem exactShare_le (hreward : 0 ≤ reward) {total : ℚ} (htotal : 0 < total) {a b : WorkerState}
    (h : a.verifiedComputeScore ≤ b.verifiedComputeScore) :
    exactShare reward total a ≤ exactShare reward total b :=
  mul_le_mul_of_nonneg_left (div_le_div_of_nonneg_right h htotal.le) (by exact_mod_cast hreward)

end

/-- **Exact rewards**: for workers whose scores are not negative and not all zero, the rewards of an epoch
are exact if and only if the rounding error of the shares before the last one fits into the share of the
last worker. -/
theorem epoch_rewards_exact_iff (fc : ForgeConfig) (timestamp : String) (epochId : ℤ)
    (workerStates : List WorkerState) (reward : ℤ) (hreward : 0 ≤ reward)
    (htotal : 0 < totalScore workerStates)
    (hscores : ∀ state ∈ workerStates, 0 ≤ state.verifiedComputeScore) :
    ExactRewards fc timestamp epochId workerStates reward ↔ RoundingFits reward workerStates := by
  rcases List.eq_nil_or_concat workerStates with rfl | ⟨states, last, rfl⟩
  · exact absurd htotal (lt_irrefl 0)
  rw [List.concat_eq_append] at *
  have herror := roundingError_concat reward htotal hscores
  have hsum := sumRewards_concat hreward htotal hscores
  have hlast : (last, epochReward last (max 0 (reward -
      sumRounded reward (totalScore (states ++ [last])) states))) ∈
      (states ++ [last]).zip (calculateEpochRewards (states ++ [last]) reward) := by
    rw [calculateEpochRewards_eq hreward htotal hscores,
      List.zip_append (by rw [List.length_map])]
    exact List.mem_append_right _ (List.mem_singleton_self _)
  rw [roundingFits_concat, herror]
  constructor
  -- a sum that is exact leaves no less than nothing for the last worker
  · intro hexact
    have hleft : sumRounded reward (totalScore (states ++ [last])) states ≤ reward := by
      have heq := hexact.sum_eq
      rw [hsum] at heq
      have hmax := le_max_left 0 (reward - sumRounded reward (totalScore (states ++ [last])) states)
      omega
    have hleft' : (0 : ℚ) ≤
        (reward - sumRounded reward (totalScore (states ++ [last])) states : ℤ) := by
      exact_mod_cast sub_nonneg.mpr hleft
    refine ⟨by linarith, fun hzero => ?_⟩
    have hnothing : max 0 (reward - sumRounded reward (totalScore (states ++ [last])) states) = 0 :=
      hexact.zero _ hlast hzero
    rw [max_eq_right (sub_nonneg.mpr hleft)] at hnothing
    rw [exactShare, hzero, zero_div, mul_zero, hnothing]
    norm_num
  -- what is left is the last share without the rounding error, so it is not cut off at zero
  · rintro ⟨hfits, hzero⟩
    have hleft : sumRounded reward (totalScore (states ++ [last])) states ≤ reward := by
      have hcast : (0 : ℚ) ≤
          (reward - sumRounded reward (totalScore (states ++ [last])) states : ℤ) := by linarith
      exact sub_nonneg.mp (by exact_mod_cast hcast)
    rw [max_eq_right (sub_nonneg.mpr hleft)] at hsum
    have hexactly : sumRewards (calculateEpochRewards (states ++ [last]) reward) = reward := by
      omega
    refine ⟨fun entry hentry => ?_, hexactly, fun p hp hscore => ?_, fun p hp q hq hle => ?_, ?_⟩
    · rw [calculateEpochRewards_eq hreward htotal hscores] at hentry
      rcases List.mem_append.mp hentry with hfirst | hlast
      · obtain ⟨state, hstate, rfl⟩ := List.mem_map.mp hfirst
        exact roundedShare_nonneg hreward htotal (hscores state (List.mem_append_left _ hstate))
      · obtain rfl := List.mem_singleton.mp hlast
        exact le_max_left _ _
    · rcases zip_rewards hreward htotal hscores hp with ⟨-, heq⟩ | ⟨hsame, heq⟩
      · rw [heq]
        exact roundedShare_of_zero _ _ hscore
      · have hshare : exactShare reward (totalScore (states ++ [last])) last = 0 := by
          rw [exactShare, ← hsame, hscore, zero_div, mul_zero]
        have hnothing := hzero (hsame ▸ hscore)
        rw [hshare, zero_sub, neg_eq_zero] at hnothing
        rw [heq, max_eq_right (sub_nonneg.mpr hleft)]
        exact_mod_cast hnothing
    -- each reward is near its exact share, and these are in the order of the scores
    · have hp' := (abs_le.mp (abs_reward_sub_le hreward htotal hscores hleft hp)).1
      have hq' := (abs_le.mp (abs_reward_sub_le hreward htotal hscores hleft hq)).2
      have hshare := exactShare_le hreward htotal hle
      have hcast : (q.2.rewardPi : ℚ) ≤ p.2.rewardPi + (states ++ [last]).length := by linarith
      exact_mod_cast hcast
    · exact ⟨_, validateSettlement_json _, (verifySettlement_build _ _ _ _ _).mpr hexactly.le⟩

/-! ## Shares that are rounded up -/

/-- A worker with a score. -/
def scoredWorker (workerId : String) (score : ℚ) : WorkerState :=
  { newWorkerState ⟨workerId, "PI_" ++ workerId, "ed25519:" ++ workerId, .online⟩ with
    verifiedComputeScore := score }

/-- Shares without a rest are exact. -/
theorem epoch_rewards_exact_local :
    ExactRewards localForge "2026-05-10T00:00:00Z" 1
        [scoredWorker "ann" 1, scoredWorker "bob" 1, scoredWorker "cid" 2] 4 ↔
      RoundingFits 4 [scoredWorker "ann" 1, scoredWorker "bob" 1, scoredWorker "cid" 2] :=
  epoch_rewards_exact_iff localForge "2026-05-10T00:00:00Z" 1 _ 4 (by decide) (by decide +kernel)
    (by decide +kernel)

/-- Seven workers with equal scores and one without a score. -/
def sevenWorkers : List WorkerState :=
  (["ann", "bea", "cid", "dan", "eve", "fay", "gus"].map fun workerId => scoredWorker workerId 1) ++
    [scoredWorker "hal" 0]

/-- Of a reward of 100 coins each of the seven gets 14.28571429. -/
theorem shares_exceed_reward :
    ¬ ExactRewards localForge "2026-05-10T00:00:00Z" 1 sevenWorkers 10000000000 := by
  intro h
  have hsum := h.sum_eq
  revert hsum
  decide +kernel

end Picoin.Forge.Coordinator
