import Picoin.Proofs.Conservation
import Picoin.Proofs.TreasuryAccounting
import Picoin.Services.BlockRewards
import Picoin.Services.LocalMining

/-!
# The supply follows the schedule, up to rounding

The supply is the sum of all balances and of the rewards that are still immature. A block changes
it by the four parts of its reward: the miner's part enters as an immature reward and matures
exactly once, the validators' pool is paid out without loss, and the transactions move coins that
exist. `RewardsUnpaid` is what a run keeps so that no reward is skipped or paid twice.

Each part is rounded half up on its own, so the parts add up to the reward for some rewards only:
`partsAddUp_iff` says for which.
-/

namespace Picoin

open Outcome Decimal

/-! ## Paid rewards -/

/-- The related ids of the block rewards among postings. -/
def rewardKeys (ps : List Posting) : List (Option String) :=
  (ps.filter fun p => p.entryType = "block_reward").map Posting.relatedId

/-- The related ids of the block rewards that the ledger has paid. -/
def Ledger.paidRewards (l : Ledger) : List (Option String) :=
  rewardKeys (l.entries.map LedgerEntry.toPosting)

theorem Written.paidRewards {l l' : Ledger} {ps : List Posting} (h : Written l l' ps) :
    l'.paidRewards = l.paidRewards ++ rewardKeys ps := by
  unfold Ledger.paidRewards rewardKeys
  rw [h.entries, List.filter_append, List.map_append]

theorem rewardKeys_eq_nil {ps : List Posting} (h : ∀ p ∈ ps, p.entryType ≠ "block_reward") :
    rewardKeys ps = [] := by
  unfold rewardKeys
  rw [List.filter_eq_nil_iff.mpr (by simpa using h), List.map_nil]

/-- A credit that the ledger has already is one of its paid rewards. -/
theorem mem_paidRewards_of_hasReward {l : Ledger} {p : Posting} (h : l.hasReward p = true) :
    p.relatedId ∈ l.paidRewards := by
  unfold Ledger.hasReward at h
  rw [List.any_eq_true] at h
  obtain ⟨e, he, hmatch⟩ := h
  simp only [Bool.and_eq_true, decide_eq_true_eq] at hmatch
  unfold Ledger.paidRewards rewardKeys
  simp only [List.mem_map, List.mem_filter]
  exact ⟨e.toPosting, ⟨⟨e, he, rfl⟩, by simpa using hmatch.1.1.1⟩, hmatch.1.2⟩

/-- The entries that mint coins, but for the miner's. -/
def mintTypes : List String :=
  ["validator_reward", "science_reserve_accrual", treasuryEventAccrual]

/-- No transaction pays a part of a block's reward. -/
theorem transactionPostings_entryType {cfg : Config} {now : Instant} {ctx : BlockContext}
    {s : NodeState} {tx : Tx} {p : Posting} (hp : p ∈ transactionPostings cfg now ctx s tx) :
    p.entryType ∉ "block_reward" :: mintTypes := by
  have hdebit : ∀ fee entryType description, entryType ∉ "block_reward" :: mintTypes →
      p ∈ feeDebitPostings ctx tx fee entryType description →
        p.entryType ∉ "block_reward" :: mintTypes := by
    intro fee entryType description hne hmem
    unfold feeDebitPostings at hmem
    split at hmem
    · rw [List.mem_singleton.mp hmem]
      exact hne
    · cases hmem
  unfold transactionPostings at hp
  -- the postings of each type of transaction, then the fee
  rcases List.mem_append.mp hp with hkind | hfee
  · unfold kindPostings at hkind
    split at hkind
    · simp only [transferPostings, List.mem_cons, List.not_mem_nil, or_false] at hkind
      rcases hkind with rfl | rfl <;>
        simp [BlockContext.posting, mintTypes, treasuryEventAccrual]
    · split at hkind <;>
      · simp only [validatorStakePostings, scienceStakePostings, List.mem_cons, List.not_mem_nil,
          or_false] at hkind
        rcases hkind with rfl | rfl <;>
          simp [BlockContext.posting, mintTypes, treasuryEventAccrual]
    · split at hkind <;>
      · simp only [validatorUnstakePostings, scienceUnstakePostings, List.mem_append,
          List.mem_cons, List.not_mem_nil, or_false] at hkind
        rcases hkind with hfee | rfl | rfl
        · exact hdebit _ _ _ (by decide) hfee
        · simp [BlockContext.posting, mintTypes, treasuryEventAccrual]
        · simp [BlockContext.posting, mintTypes, treasuryEventAccrual]
    · exact hdebit _ _ _ (by decide) hkind
    · exact hdebit _ _ _ (by decide) hkind
    · simp only [treasuryClaimPostings, List.mem_append, List.mem_cons, List.not_mem_nil,
        or_false] at hkind
      rcases hkind with hfee | rfl | rfl
      · exact hdebit _ _ _ (by decide) hfee
      · simp [claimPostings, treasuryEventClaim, mintTypes, treasuryEventAccrual]
      · simp [claimPostings, treasuryEventClaim, mintTypes, treasuryEventAccrual]
    · simp only [faucetPostings, List.mem_cons, List.not_mem_nil, or_false] at hkind
      rcases hkind with rfl | rfl <;>
        simp [BlockContext.posting, mintTypes, treasuryEventAccrual]
    · cases hkind
  · unfold feeRewardPostings at hfee
    split at hfee
    · cases hfee
    · rw [List.mem_singleton.mp hfee]
      simp [BlockContext.posting, mintTypes, treasuryEventAccrual]

/-- The transactions of a block pay no block reward and keep the sum of all balances. -/
theorem applyBlockTransactions_written {cfg : Config} {now : Instant} {ctx : BlockContext}
    {s s' : NodeState} {transactions : List Tx} (hdecoded : ∀ tx ∈ transactions, tx.Decoded)
    (h : applyBlockTransactions cfg now ctx s transactions = .ok s') :
    s'.ledger.totalUnits = s.ledger.totalUnits ∧ s'.ledger.paidRewards = s.ledger.paidRewards ∧
      s'.chain = s.chain := by
  obtain ⟨b, hloop, rfl⟩ := applyBlockTransactions_eq_ok.mp h
  refine foldlM_relates (fun b b' : BlockProgress =>
    b'.state.ledger.totalUnits = b.state.ledger.totalUnits ∧
      b'.state.ledger.paidRewards = b.state.ledger.paidRewards ∧ b'.state.chain = b.state.chain)
    (fun b => ⟨rfl, rfl, rfl⟩)
    (fun h h' => ⟨h'.1.trans h.1, h'.2.1.trans h.2.1, h'.2.2.trans h.2.2⟩)
    (fun tx htx b b' hstep => ?_) hloop
  have hwritten := Written.of_posts (applyBlockTransaction_posts hstep)
  obtain ⟨hpass, s₁, hexecute, hsettle, -⟩ := applyBlockTransaction_eq_ok hstep
  refine ⟨?_, ?_, ?_⟩
  · rw [hwritten.total, posted_transactionPostings (hdecoded tx htx) hpass, add_zero]
  · rw [hwritten.paidRewards, rewardKeys_eq_nil fun p hp =>
      List.ne_of_not_mem_cons (transactionPostings_entryType hp),
      List.append_nil]
  · obtain ⟨l, -, hok⟩ := bind_eq_ok.mp hsettle
    rw [← pure_eq_ok.mp hok]
    exact (executeTransaction_frame hexecute).2.2

/-! ## Each reward is paid once -/

/-- The immature rewards together. -/
def immatureUnits (rewards : Sql.Table ℤ RewardRow) : ℤ :=
  rewards.sum fun row => if row.mature then 0 else row.amountUnits

/-- The sum of all balances and of the immature rewards. -/
def NodeState.supply (s : NodeState) : ℤ :=
  s.ledger.totalUnits + immatureUnits s.chain.rewards

/-- The rewards of a node whose blocks have the given task ids: a paid one and an immature one are
of blocks, no immature one has been paid, and no two immature ones are of one block. -/
structure RewardsUnpaid (tasks : List String) (s : NodeState) : Prop where
  paid : ∀ key ∈ s.ledger.paidRewards, ∃ task ∈ tasks, key = some task
  immature : ∀ r ∈ s.chain.rewards.rows, r.2.mature = false →
    ∃ task ∈ tasks, task ≠ "" ∧ r.2.relatedId = some task
  unpaid : ∀ r ∈ s.chain.rewards.rows, r.2.mature = false →
    r.2.relatedId ∉ s.ledger.paidRewards
  distinct : ∀ r ∈ s.chain.rewards.rows, ∀ r' ∈ s.chain.rewards.rows, r.2.mature = false →
    r'.2.mature = false → r.2.relatedId = r'.2.relatedId → r.1 = r'.1

/-- The rows of a table after the update of one. -/
theorem mem_rows_modify {t : Sql.Table ℤ RewardRow} {k : ℤ} {f : RewardRow → RewardRow}
    {r : ℤ × RewardRow} (h : r ∈ (t.modify k f).rows) :
    ∃ row, (r.1, row) ∈ t.rows ∧ r.2 = if r.1 = k then f row else row := by
  unfold Sql.Table.modify Sql.Table.mapRows at h
  obtain ⟨r', hr', rfl⟩ := List.mem_map.mp h
  exact ⟨r'.2, hr', rfl⟩

/-- Marking a reward mature leaves the immature others. -/
theorem mem_rows_mature {t : Sql.Table ℤ RewardRow} {k : ℤ} {r : ℤ × RewardRow}
    (h : r ∈ (t.modify k fun row => { row with mature := true }).rows)
    (himmature : r.2.mature = false) : r ∈ t.rows ∧ r.1 ≠ k := by
  obtain ⟨row, hrow, hr⟩ := mem_rows_modify h
  by_cases hk : r.1 = k
  · rw [hr, if_pos hk] at himmature
    cases himmature
  · rw [if_neg hk] at hr
    rw [← hr] at hrow
    exact ⟨hrow, hk⟩

/-- An immature reward matures: it is credited, no other one is, and the supply is kept. -/
theorem matureReward_step {tasks : List String} {s : NodeState} (height : ℤ) (timestamp : String)
    {r : ℤ × RewardRow} (hs : RewardsUnpaid tasks s) (hr : r ∈ s.chain.rewards.rows)
    (himmature : r.2.mature = false) :
    RewardsUnpaid tasks (matureReward height timestamp s r) ∧
      (matureReward height timestamp s r).supply = s.supply := by
  obtain ⟨task, htask, hne, hrelated⟩ := hs.immature r hr himmature
  have hkey : (maturedPosting height timestamp r).relatedId = r.2.relatedId := by
    show some (textOr r.2.relatedId _) = r.2.relatedId
    rw [hrelated, textOr_some_of_ne hne]
  -- the guard of the loop lets the reward through
  have hnew : s.ledger.hasReward (maturedPosting height timestamp r) = false := by
    rw [← Bool.not_eq_true]
    intro hpaid
    have hmem := mem_paidRewards_of_hasReward hpaid
    rw [hkey] at hmem
    exact hs.unpaid r hr himmature hmem
  have hwritten := Written.of_credit s.ledger (maturedPosting height timestamp r)
  have hledger : (matureReward height timestamp s r).ledger =
      creditLedgerEntry s.ledger (maturedPosting height timestamp r) := by
    simp [matureReward, hnew]
  have hpaid : (matureReward height timestamp s r).ledger.paidRewards =
      s.ledger.paidRewards ++ [r.2.relatedId] := by
    rw [hledger, hwritten.paidRewards, ← hkey]
    rfl
  refine ⟨⟨fun key hmem => ?_, fun r' hr' hi => ?_, fun r' hr' hi hmem => ?_,
    fun r₁ hr₁ r₂ hr₂ hi₁ hi₂ heq => ?_⟩, ?_⟩
  · rw [hpaid] at hmem
    rcases List.mem_append.mp hmem with hold | hnew
    · exact hs.paid key hold
    · rw [List.mem_singleton.mp hnew]
      exact ⟨task, htask, hrelated⟩
  · exact hs.immature r' (mem_rows_mature hr' hi).1 hi
  · have ⟨hold, hother⟩ := mem_rows_mature hr' hi
    rw [hpaid] at hmem
    rcases List.mem_append.mp hmem with hpaid | hself
    · exact hs.unpaid r' hold hi hpaid
    · -- another immature reward of the same block would be the same row
      exact hother (hs.distinct r' hold r hr hi himmature (List.mem_singleton.mp hself))
  · exact hs.distinct r₁ (mem_rows_mature hr₁ hi₁).1 r₂ (mem_rows_mature hr₂ hi₂).1 hi₁ hi₂ heq
  · have hfind : s.chain.rewards.find? r.1 = some r.2 := Sql.Table.find?_eq_some_iff.mpr hr
    have htotal : (matureReward height timestamp s r).ledger.totalUnits =
        s.ledger.totalUnits + r.2.amountUnits := by
      rw [hledger, hwritten.total]
      simp [maturedPosting]
    unfold NodeState.supply
    rw [htotal]
    unfold immatureUnits matureReward
    rw [Sql.Table.sum_modify, hfind]
    simp only [himmature, Option.map_some, Option.getD_some, if_true, Bool.false_eq_true, if_false]
    ring

/-- A loop over distinct immature rewards. -/
theorem foldl_matureReward {tasks : List String} {height : ℤ} {timestamp : String}
    (rs : List (ℤ × RewardRow)) :
    ∀ s : NodeState, RewardsUnpaid tasks s → (rs.map Prod.fst).Nodup →
      (∀ r ∈ rs, r ∈ s.chain.rewards.rows ∧ r.2.mature = false) →
      RewardsUnpaid tasks (rs.foldl (matureReward height timestamp) s) ∧
        (rs.foldl (matureReward height timestamp) s).supply = s.supply := by
  induction rs with
  | nil => exact fun s hs _ _ => ⟨hs, rfl⟩
  | cons r rest ih =>
    intro s hs hnodup hrows
    have ⟨hr, hi⟩ := hrows r List.mem_cons_self
    have ⟨hs', hsupply⟩ := matureReward_step height timestamp hs hr hi
    rw [List.map_cons, List.nodup_cons] at hnodup
    have hrest : ∀ r' ∈ rest, r' ∈ (matureReward height timestamp s r).chain.rewards.rows ∧
        r'.2.mature = false := by
      intro r' hr'
      have ⟨hmem, hi'⟩ := hrows r' (List.mem_cons_of_mem _ hr')
      have hne : r'.1 ≠ r.1 := fun heq => hnodup.1 (heq ▸ List.mem_map_of_mem hr')
      refine ⟨List.mem_map.mpr ⟨r', hmem, ?_⟩, hi'⟩
      simp [hne]
    have ⟨hfinal, hsame⟩ := ih _ hs' hnodup.2 hrest
    exact ⟨hfinal, hsame.trans hsupply⟩

/-- Maturation keeps the supply. -/
theorem matureBlockRewards_supply {tasks : List String} {s : NodeState} (height : ℤ)
    (timestamp : String) (hs : RewardsUnpaid tasks s) :
    RewardsUnpaid tasks (matureBlockRewards height timestamp s) ∧
      (matureBlockRewards height timestamp s).supply = s.supply := by
  have hperm : (maturingRewards s.chain.rewards height).Perm
      (s.chain.rewards.rows.filter fun r => r.2.maturesBy height) := List.mergeSort_perm _ _
  refine foldl_matureReward _ s hs ?_ fun r hr => ?_
  · rw [(hperm.map Prod.fst).nodup_iff]
    exact s.chain.rewards.nodup.sublist (List.filter_sublist.map Prod.fst)
  · have hmem := List.mem_filter.mp (hperm.mem_iff.mp hr)
    refine ⟨hmem.1, ?_⟩
    have hmatures := hmem.2
    unfold RewardRow.maturesBy at hmatures
    rw [Bool.and_eq_true, Bool.not_eq_true'] at hmatures
    exact hmatures.1

/-! ## A new reward -/

theorem le_foldl_max (l : List ℤ) (a : ℤ) : a ≤ l.foldl max a ∧ ∀ x ∈ l, x ≤ l.foldl max a := by
  induction l generalizing a with
  | nil => exact ⟨le_refl a, fun x hx => nomatch hx⟩
  | cons y rest ih =>
    have ⟨hacc, hrest⟩ := ih (max a y)
    refine ⟨(le_max_left a y).trans hacc, fun x hx => ?_⟩
    rcases List.mem_cons.mp hx with rfl | hx
    · exact (le_max_right a x).trans hacc
    · exact hrest x hx

/-- The next id is not taken. -/
theorem find?_nextId {ρ : Type} (t : Sql.Table ℤ ρ) : t.find? (nextId t) = none := by
  rw [Sql.Table.find?_eq_none_iff]
  intro hmem
  have hle := (le_foldl_max (t.rows.map Prod.fst) 0).2 _ hmem
  unfold nextId at hle
  omega

/-- The miner's part of a new block enters the supply, at once or as an immature reward. -/
theorem recordMinerBlockReward_step (rc : RewardConfig) (r : MinerReward) {tasks : List String}
    {s : NodeState} {task : String} (hs : RewardsUnpaid tasks s)
    (hrelated : r.relatedId = some task) (hne : task ≠ "") (hnew : task ∉ tasks) :
    RewardsUnpaid (task :: tasks) (recordMinerBlockReward rc s r) ∧
      (recordMinerBlockReward rc s r).supply = s.supply + unitsOf r.amount := by
  have hfresh := find?_nextId s.chain.rewards
  have hrows : (recordMinerBlockReward rc s r).chain.rewards.rows =
      s.chain.rewards.rows ++ [(nextId s.chain.rewards, r.row rc)] :=
    Sql.Table.upsertRows_of_none hfresh
  have hensure := Written.of_ensure s.ledger r.accountId r.accountType
  -- what the ledger has paid, and what the row adds to the immature rewards
  have hledger : (recordMinerBlockReward rc s r).ledger.paidRewards = s.ledger.paidRewards ++
        (if rc.blockMaturityDepth = 0 then [r.relatedId] else []) ∧
      (recordMinerBlockReward rc s r).ledger.totalUnits =
        s.ledger.totalUnits + if rc.blockMaturityDepth = 0 then unitsOf r.amount else 0 := by
    unfold recordMinerBlockReward
    by_cases hdepth : rc.blockMaturityDepth = 0
    · have hwritten := hensure.trans (Written.of_credit _ r.posting)
      simp only [if_pos hdepth]
      refine ⟨hwritten.paidRewards, ?_⟩
      rw [hwritten.total]
      simp [MinerReward.posting]
    · simp only [if_neg hdepth]
      exact ⟨by rw [hensure.paidRewards]; rfl, by rw [hensure.total]; rfl⟩
  have hold : ∀ row ∈ (recordMinerBlockReward rc s r).chain.rewards.rows,
      row ∈ s.chain.rewards.rows ∨ row = (nextId s.chain.rewards, r.row rc) := by
    intro row hrow
    rw [hrows] at hrow
    simpa using hrow
  have hnotPaid : some task ∉ s.ledger.paidRewards := by
    intro hmem
    obtain ⟨other, hother, heq⟩ := hs.paid _ hmem
    rw [Option.some.inj heq] at hnew
    exact hnew hother
  have hnotRow : ∀ row ∈ s.chain.rewards.rows, row.2.mature = false →
      row.2.relatedId ≠ some task := by
    intro row hrow hi heq
    obtain ⟨other, hother, -, hrow'⟩ := hs.immature row hrow hi
    rw [heq] at hrow'
    rw [Option.some.inj hrow'] at hnew
    exact hnew hother
  refine ⟨⟨fun key hmem => ?_, fun row hrow hi => ?_, fun row hrow hi hmem => ?_,
    fun r₁ hr₁ r₂ hr₂ hi₁ hi₂ heq => ?_⟩, ?_⟩
  · rw [hledger.1] at hmem
    rcases List.mem_append.mp hmem with hmem | hmem
    · obtain ⟨other, hother, hkey⟩ := hs.paid key hmem
      exact ⟨other, List.mem_cons_of_mem _ hother, hkey⟩
    · split at hmem
      · rw [List.mem_singleton.mp hmem]
        exact ⟨task, List.mem_cons_self, hrelated⟩
      · cases hmem
  · rcases hold row hrow with hrow | rfl
    · obtain ⟨other, hother, hrest⟩ := hs.immature row hrow hi
      exact ⟨other, List.mem_cons_of_mem _ hother, hrest⟩
    · exact ⟨task, List.mem_cons_self, hne, hrelated⟩
  · rw [hledger.1] at hmem
    rcases hold row hrow with hrow | rfl
    · rcases List.mem_append.mp hmem with hmem | hmem
      · exact hs.unpaid row hrow hi hmem
      · split at hmem
        · exact hnotRow row hrow hi ((List.mem_singleton.mp hmem).trans hrelated)
        · cases hmem
    · have hdepth : rc.blockMaturityDepth ≠ 0 := by simpa [MinerReward.row] using hi
      rw [if_neg hdepth, List.append_nil] at hmem
      exact hnotPaid (by simpa [MinerReward.row, hrelated] using hmem)
  · rcases hold r₁ hr₁ with hr₁ | rfl <;> rcases hold r₂ hr₂ with hr₂ | rfl
    · exact hs.distinct r₁ hr₁ r₂ hr₂ hi₁ hi₂ heq
    · exact absurd (heq.trans hrelated) (hnotRow r₁ hr₁ hi₁)
    · exact absurd (heq.symm.trans hrelated) (hnotRow r₂ hr₂ hi₂)
    · rfl
  · unfold NodeState.supply
    rw [hledger.2]
    unfold immatureUnits recordMinerBlockReward
    rw [Sql.Table.sum_upsert, hfresh]
    by_cases hdepth : rc.blockMaturityDepth = 0
    · simp [MinerReward.row, hdepth]
      ring
    · simp [MinerReward.row, hdepth]
      ring

/-! ## The validators' pool -/

/-- The pool is split without loss. -/
theorem sum_validatorParts (poolUnits perValidatorUnits : ℤ) (validatorIds : List String)
    (distributedUnits : ℤ) (hids : validatorIds ≠ []) :
    ((validatorParts poolUnits perValidatorUnits validatorIds distributedUnits).map
      Prod.snd).sum = poolUnits - distributedUnits := by
  induction validatorIds generalizing distributedUnits with
  | nil => exact absurd rfl hids
  | cons validatorId rest ih =>
    cases rest with
    | nil => simp [validatorParts]
    | cons next rest =>
      rw [validatorParts, List.map_cons, List.sum_cons, ih _ (List.cons_ne_nil _ _)]
      · ring
      · simp

/-- What an approved block pays to its validators. -/
theorem posted_validatorRewardPostings {rc : RewardConfig} {now : Instant}
    {validators : Sql.Table String ValidatorRow} {votes : List ValidationVoteRow}
    {jobId : String} {blockHeight : ℤ} {params : ProtocolParamsRow}
    (hvotes : approvedValidatorIdsForJob votes jobId ≠ []) :
    posted (validatorRewardPostings rc now validators votes jobId blockHeight params) =
      max 0 (validatorRewardPoolUnits rc params) := by
  unfold validatorRewardPostings
  by_cases hpool : validatorRewardPoolUnits rc params ≤ 0
  · rw [if_pos (.inr hpool), posted_nil, max_eq_left hpool]
  · rw [if_neg (by simp [hvotes, hpool]), max_eq_right (not_le.mp hpool).le]
    have hsum := sum_validatorParts (validatorRewardPoolUnits rc params)
      (validatorRewardPoolUnits rc params / (approvedValidatorIdsForJob votes jobId).length) _ 0
      hvotes
    rw [sub_zero] at hsum
    refine Eq.trans ?_ hsum
    rw [posted, List.map_map]
    congr 1
    exact List.map_congr_left fun (part : String × ℤ) _ => unitsOf_unitsToFloat part.2

theorem rewardKeys_validatorRewardPostings (rc : RewardConfig) (now : Instant)
    (validators : Sql.Table String ValidatorRow) (votes : List ValidationVoteRow)
    (jobId : String) (blockHeight : ℤ) (params : ProtocolParamsRow) :
    rewardKeys (validatorRewardPostings rc now validators votes jobId blockHeight params) =
      [] := by
  refine rewardKeys_eq_nil fun p hp => ?_
  unfold validatorRewardPostings at hp
  dsimp only at hp
  split at hp
  · cases hp
  · obtain ⟨part, -, rfl⟩ := List.mem_map.mp hp
    show "validator_reward" ≠ "block_reward"
    decide

/-! ## The accruals -/

theorem applyScienceLedgerEntry_posts {l l' : Ledger} {p : Posting}
    (h : applyScienceLedgerEntry l p = .ok l') : Posts l l' [p] := by
  unfold applyScienceLedgerEntry at h
  split at h
  · cases h
  · next hpost =>
    cases h
    exact .of_post hpost

theorem recordScienceReserveForBlock_written {mc : MarketConfig} {now : Instant}
    {l l' : Ledger} {sci sci' : ScienceTables} {blockHeight blockReward : ℤ}
    (h : recordScienceReserveForBlock mc now l sci blockHeight blockReward = .ok (l', sci')) :
    l'.totalUnits = l.totalUnits + max 0 (scienceReserveUnitsFromTotal mc (unitsOf blockReward)) ∧
      l'.paidRewards = l.paidRewards := by
  unfold recordScienceReserveForBlock at h
  dsimp only at h
  split at h
  · next hzero =>
    cases h
    rw [max_eq_left hzero, add_zero]
    exact ⟨rfl, rfl⟩
  · next hpos =>
    obtain ⟨l₁, hpost, h⟩ := bind_eq_ok.mp h
    cases h
    have hwritten := Written.of_posts (applyScienceLedgerEntry_posts hpost)
    rw [hwritten.total, hwritten.paidRewards, max_eq_right (not_le.mp hpos).le]
    exact ⟨by simp, by simp [rewardKeys]⟩

theorem recordScientificDevelopmentTreasuryForBlock_written {cfg : Config} {now : Instant}
    {t t' : TreasuryTables} {l l' : Ledger} {blockHeight blockReward : ℤ}
    (h : recordScientificDevelopmentTreasuryForBlock cfg now t l blockHeight blockReward =
      .ok (t', l')) :
    l'.totalUnits =
        l.totalUnits + max 0 (scientificDevelopmentUnitsFromTotal cfg (unitsOf blockReward)) ∧
      l'.paidRewards = l.paidRewards := by
  unfold recordScientificDevelopmentTreasuryForBlock at h
  dsimp only at h
  split at h
  · next hzero =>
    cases h
    rw [max_eq_left hzero, add_zero]
    exact ⟨rfl, rfl⟩
  · next hpos =>
    obtain ⟨l₁, hpost, h⟩ := bind_eq_ok.mp h
    cases h
    have hwritten := Written.of_posts (applyLedgerEntry_posts hpost)
    rw [hwritten.total, hwritten.paidRewards, max_eq_right (not_le.mp hpos).le]
    exact ⟨by simp, by simp [rewardKeys, treasuryEventAccrual]⟩

/-! ## A block -/

/-- The four parts of a block's reward together. -/
def rewardParts (rc : RewardConfig) (params : ProtocolParamsRow) : ℤ :=
  let totalRewardUnits := unitsOf (round8 params.baseReward)
  percentUnits (toUnits params.baseReward) rc.proofOfPiRewardPercent +
    max 0 (validatorRewardPoolUnits rc params) +
    max 0 (scienceReserveUnitsFromTotal rc.toMarketConfig totalRewardUnits) +
    max 0 (scientificDevelopmentUnitsFromTotal rc.toConfig totalRewardUnits)

/-- The block has a job that some validator approved. -/
def RewardedBlock.Approved (b : RewardedBlock) : Prop :=
  ∃ jobId, b.jobId = some jobId ∧ approvedValidatorIdsForJob b.votes jobId ≠ []

/-- An approved block of a new task adds its four parts to the supply. -/
theorem payAcceptedBlock_step {rc : RewardConfig} {tasks : List String} {s s' : NodeState}
    {b : RewardedBlock} (hs : RewardsUnpaid tasks s) (hnew : b.taskId ∉ tasks)
    (hb : b.Approved) (h : payAcceptedBlock rc s b = .ok s') :
    RewardsUnpaid (b.taskId :: tasks) s' ∧ s'.supply = s.supply + rewardParts rc b.params := by
  obtain ⟨s₁, hblock, h⟩ := bind_eq_ok.mp h
  obtain ⟨⟨l₂, science⟩, hscience, h⟩ := bind_eq_ok.mp h
  obtain ⟨⟨treasury, l₃⟩, htreasury, h⟩ := bind_eq_ok.mp h
  obtain ⟨jobId, hjob, hvotes⟩ := hb
  rw [hjob] at h
  dsimp only [Option.elim_some] at h
  rw [← pure_eq_ok.mp h]
  have ⟨hrecorded, hminer⟩ := recordMinerBlockReward_step rc (b.minerReward rc) hs rfl
    b.taskId_ne hnew
  have hdecoded : ∀ tx ∈ b.rows.map decodeMempoolTransaction, tx.Decoded := by
    intro tx htx
    obtain ⟨row, -, rfl⟩ := List.mem_map.mp htx
    exact decoded_decodeMempoolTransaction row
  have ⟨htotal₁, hpaid₁, hchain⟩ := applyBlockTransactions_written hdecoded hblock
  have ⟨htotal₂, hpaid₂⟩ := recordScienceReserveForBlock_written hscience
  have ⟨htotal₃, hpaid₃⟩ := recordScientificDevelopmentTreasuryForBlock_written htreasury
  have hvalidators := Written.of_credits (validatorRewardPostings rc b.now s₁.validators b.votes
    jobId b.height b.params) l₃
  -- the state in which the rewards mature
  generalize hl₄ : applyValidatorRewards rc b.now l₃ s₁.validators b.votes jobId b.height
    b.params = l₄
  have hpaid₄ : l₄.paidRewards = (recordMinerBlockReward rc s (b.minerReward rc)).ledger.paidRewards := by
    rw [← hl₄, applyValidatorRewards, hvalidators.paidRewards, rewardKeys_validatorRewardPostings,
      List.append_nil, hpaid₃, hpaid₂, hpaid₁]
  have hready : RewardsUnpaid (b.taskId :: tasks)
      { s₁ with ledger := l₄, science, treasury } := by
    refine ⟨fun key hmem => ?_, ?_, fun r hr hi hmem => ?_, ?_⟩
    · exact hrecorded.paid key (hpaid₄ ▸ hmem)
    · rw [hchain]
      exact hrecorded.immature
    · rw [hchain] at hr
      exact hrecorded.unpaid r hr hi (hpaid₄ ▸ hmem)
    · rw [hchain]
      exact hrecorded.distinct
  have ⟨hfinal, hkept⟩ := matureBlockRewards_supply b.height b.timestamp.text hready
  refine ⟨hfinal, hkept.trans ?_⟩
  have htotal₄ : l₄.totalUnits = l₃.totalUnits + max 0 (validatorRewardPoolUnits rc b.params) := by
    rw [← hl₄, applyValidatorRewards, hvalidators.total, posted_validatorRewardPostings hvotes]
  have hunits : unitsOf (b.minerReward rc).amount =
      percentUnits (toUnits b.params.baseReward) rc.proofOfPiRewardPercent :=
    unitsOf_unitsToFloat _
  rw [hunits] at hminer
  unfold NodeState.supply at hminer ⊢
  show l₄.totalUnits + immatureUnits s₁.chain.rewards = _
  rw [hchain, htotal₄, htotal₃, htotal₂, htotal₁]
  unfold rewardParts
  linarith

/-! ## Rounding -/

/-- The shares of every network profile: 80, 10, 7 and 3 percent. -/
structure RewardConfig.ProfileShares (rc : RewardConfig) : Prop where
  proofOfPi : basisPoints rc.proofOfPiRewardPercent = 8000
  validator : basisPoints rc.validatorRewardPercentOfBlock = 1000
  science : basisPoints rc.scienceComputeRewardPercentOfBlock = 700
  development : basisPoints rc.scientificDevelopmentRewardPercent = 300

/-- The base rewards whose parts add up. The four parts of `t` units leave the remainders of
`80 t + 50`, `10 t + 50`, `7 t + 50` and `3 t + 50` modulo 100, which must be 200 together; of a
reward with more than eight digits, the last two parts see the rounded value. Nothing but the
miner's part is taken from a negative reward. -/
def PartsAddUp (baseReward : Dec) : Prop :=
  let units := toUnits baseReward
  let rounded := unitsOf (round8 baseReward)
  if 0 ≤ baseReward.mantissa then
    (80 * units + 50) % 100 + (10 * units + 50) % 100 + (7 * rounded + 50) % 100 +
      (3 * rounded + 50) % 100 = 200 + 10 * (rounded - units)
  else -2 ≤ units

instance (baseReward : Dec) : Decidable (PartsAddUp baseReward) := by
  unfold PartsAddUp
  dsimp only
  infer_instance

theorem percentUnits_of_nonneg {units : ℤ} {percent : Dec} (share : ℤ) (hunits : 0 ≤ units)
    (hshare : 0 ≤ share) (hpercent : basisPoints percent = 100 * share) :
    percentUnits units percent = (share * units + 50) / 100 := by
  have hprod : 0 ≤ share * units := mul_nonneg hshare hunits
  have hnumerator : units * (100 * share) = 100 * (share * units) := by ring
  unfold percentUnits roundHalfUp basisPointsPerUnit
  rw [hpercent, hnumerator, if_pos (by omega)]
  omega

theorem percentUnits_of_nonpos {units : ℤ} {percent : Dec} (share : ℤ) (hunits : units ≤ 0)
    (hshare : 0 ≤ share) (hpercent : basisPoints percent = 100 * share) :
    percentUnits units percent = -((share * -units + 50) / 100) := by
  have hprod : 0 ≤ share * -units := mul_nonneg hshare (by omega)
  have hnumerator : units * (100 * share) = -(100 * (share * -units)) := by ring
  unfold percentUnits
  rw [hpercent, hnumerator, roundHalfUp_neg]
  unfold roundHalfUp basisPointsPerUnit
  rw [if_pos (by omega)]
  omega

theorem toUnits_nonneg {value : Dec} (h : 0 ≤ value.mantissa) : 0 ≤ toUnits value :=
  roundHalfUp_nonneg _ (mul_nonneg h (by positivity))

theorem toUnits_nonpos {value : Dec} (h : value.mantissa ≤ 0) : toUnits value ≤ 0 :=
  roundHalfUp_nonpos _ (mul_nonpos_of_nonpos_of_nonneg h (by positivity))

theorem unitsOf_round8_nonneg {value : Dec} (h : 0 ≤ value.mantissa) :
    0 ≤ unitsOf (round8 value) :=
  roundHalfUp_nonneg _ (roundHalfEven_nonneg _ (mul_nonneg h (by positivity)))

theorem unitsOf_round8_nonpos {value : Dec} (h : value.mantissa ≤ 0) :
    unitsOf (round8 value) ≤ 0 :=
  roundHalfUp_nonpos _ (roundHalfEven_nonpos _ (by positivity)
    (mul_nonpos_of_nonpos_of_nonneg h (by positivity)))

/-- The parts of a reward are the reward exactly where the remainders say so. -/
theorem partsAddUp_iff {rc : RewardConfig} (hshares : rc.ProfileShares)
    (params : ProtocolParamsRow) :
    rewardParts rc params = toUnits params.baseReward ↔ PartsAddUp params.baseReward := by
  obtain ⟨hminer, hvalidator, hscience, hdevelopment⟩ := hshares
  unfold rewardParts PartsAddUp validatorRewardPoolUnits scienceReserveUnitsFromTotal
    scientificDevelopmentUnitsFromTotal
  dsimp only
  by_cases hsign : 0 ≤ params.baseReward.mantissa
  · have hunits := toUnits_nonneg hsign
    have hrounded := unitsOf_round8_nonneg hsign
    generalize toUnits params.baseReward = units at hunits ⊢
    generalize unitsOf (round8 params.baseReward) = rounded at hrounded ⊢
    rw [percentUnits_of_nonneg 80 hunits (by decide) hminer,
      percentUnits_of_nonneg 10 hunits (by decide) hvalidator,
      percentUnits_of_nonneg 7 hrounded (by decide) hscience,
      percentUnits_of_nonneg 3 hrounded (by decide) hdevelopment, if_pos hsign]
    omega
  · have hunits := toUnits_nonpos (not_le.mp hsign).le
    have hrounded := unitsOf_round8_nonpos (not_le.mp hsign).le
    generalize toUnits params.baseReward = units at hunits ⊢
    generalize unitsOf (round8 params.baseReward) = rounded at hrounded ⊢
    rw [percentUnits_of_nonpos 80 hunits (by decide) hminer,
      percentUnits_of_nonpos 10 hunits (by decide) hvalidator,
      percentUnits_of_nonpos 7 hrounded (by decide) hscience,
      percentUnits_of_nonpos 3 hrounded (by decide) hdevelopment, if_neg hsign]
    omega

/-! ## Runs -/

/-- A node with the task ids of its blocks. -/
structure RewardedChain where
  node : NodeState
  tasks : List String

/-- The acceptance of a block; `task_id` is unique in `blocks`. -/
def acceptRewardedBlock (rc : RewardConfig) (s : RewardedChain) (b : RewardedBlock) :
    Except ExecError RewardedChain :=
  if b.taskId ∈ s.tasks then .error (.integrity "UNIQUE constraint failed: blocks.task_id")
  else do
    let node ← payAcceptedBlock rc s.node b
    return ⟨node, b.taskId :: s.tasks⟩

/-- What the schedule allots to blocks. -/
def scheduledUnits (blocks : List RewardedBlock) : ℤ :=
  (blocks.map fun b => toUnits b.params.baseReward).sum

/-- A run of approved blocks adds their parts to the supply. -/
theorem acceptRewardedBlocks_supply {rc : RewardConfig} (blocks : List RewardedBlock) :
    ∀ s s' : RewardedChain, RewardsUnpaid s.tasks s.node → (∀ b ∈ blocks, b.Approved) →
      blocks.foldlM (acceptRewardedBlock rc) s = .ok s' →
      RewardsUnpaid s'.tasks s'.node ∧
        s'.node.supply = s.node.supply + (blocks.map fun b => rewardParts rc b.params).sum := by
  induction blocks with
  | nil =>
    intro s s' hs _ h
    cases h
    exact ⟨hs, by simp⟩
  | cons b rest ih =>
    intro s s' hs happroved h
    rw [List.foldlM_cons] at h
    obtain ⟨s₁, hblock, hrest⟩ := bind_eq_ok.mp h
    unfold acceptRewardedBlock at hblock
    split at hblock
    · cases hblock
    · next hnew =>
      obtain ⟨node, hpay, hok⟩ := bind_eq_ok.mp hblock
      rw [← pure_eq_ok.mp hok] at hrest
      have ⟨hs₁, hsupply⟩ := payAcceptedBlock_step hs hnew (happroved b List.mem_cons_self) hpay
      have ⟨hs', hsupply'⟩ :=
        ih _ s' hs₁ (fun b' hb' => happroved b' (List.mem_cons_of_mem _ hb')) hrest
      refine ⟨hs', ?_⟩
      rw [hsupply', hsupply, List.map_cons, List.sum_cons, add_assoc]

theorem profileShares_localRewards : localRewards.ProfileShares where
  proofOfPi := by decide
  validator := by decide
  science := by decide
  development := by decide

/-- A validator's approval of a job. -/
def localVote (jobId : String) : ValidationVoteRow where
  jobId := jobId
  taskId := "task-1"
  validatorId := "validator_1"
  approved := true
  reason := "valid"
  signature := "signed"
  signedAt := "2026-05-10T00:00:00+00:00"
  validationMs := 5
  createdAt := "2026-05-10T00:00:00+00:00"

/-- A block without transactions that one validator approved. -/
def localRewardedBlock (taskId : String) (taskId_ne : taskId ≠ "") (height : ℤ)
    (baseReward : Dec) : RewardedBlock where
  taskId := taskId
  taskId_ne := taskId_ne
  minerId := "miner_local"
  account := ("miner_local", "miner")
  height := height
  timestamp := .ofInstant 0
  now := 0
  params := { localParamsRow with baseReward }
  rows := []
  jobId := some "job-1"
  votes := [localVote "job-1"]

theorem approved_localRewardedBlock (taskId : String) (taskId_ne : taskId ≠ "") (height : ℤ)
    (baseReward : Dec) : (localRewardedBlock taskId taskId_ne height baseReward).Approved := by
  refine ⟨"job-1", rfl, ?_⟩
  simp [approvedValidatorIdsForJob, localRewardedBlock, localVote]

/-- A node without rewards. -/
theorem rewardsUnpaid_localNode : RewardsUnpaid [] (localNode []) where
  paid _ hkey := nomatch hkey
  immature _ hr := nomatch hr
  unpaid _ hr := nomatch hr
  distinct _ hr := nomatch hr

end Picoin
