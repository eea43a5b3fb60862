import Picoin.Proofs.QueuedBlocks
import Picoin.Proofs.SupplySchedule
import Picoin.Services.ImportRewards

/-!
# An import and the schedule

An imported block should mint what the schedule says: the miner's reward, the validators' parts and
the two accruals together are the base reward of its height, and none of them is negative. All of
them are read from the block, so this holds exactly where the block's own fields say so.

* **`MintsSchedule`** — the recorded reward and the minted entries add up to the base reward, none
  is negative, and no balance is;
* **`MeetsSchedule`** — the fields of the block do;
* **`mintsSchedule_iff`** — an import mints the schedule if and only if its block meets it;
* **`inflated_import`** — a block that names a reward of its own choice is paid it.
-/

namespace Picoin

open Json Outcome Decimal

/-! ## Minted entries -/

/-- The amounts of the minting entries that a ledger has gained. -/
def mintedBy (l l' : Ledger) : List ℤ :=
  ((l'.entries.drop l.entries.length).filter fun e => e.entryType ∈ mintTypes).map fun e =>
    e.amountUnits

def mintedAmounts (ps : List Posting) : List ℤ :=
  (ps.filter fun p => p.entryType ∈ mintTypes).map Posting.amountUnits

/-- The mints of two lists follow each other. -/
@[simp] theorem mintedAmounts_append (ps qs : List Posting) :
    mintedAmounts (ps ++ qs) = mintedAmounts ps ++ mintedAmounts qs := by
  simp [mintedAmounts]

/-- Postings of other types mint nothing. -/
theorem mintedAmounts_of_none {ps : List Posting} (h : ∀ p ∈ ps, p.entryType ∉ mintTypes) :
    mintedAmounts ps = [] := by
  unfold mintedAmounts
  rw [List.filter_eq_nil_iff.mpr (by simpa using h), List.map_nil]

/-- The gained entries are the postings. -/
theorem mintedBy_of_written {l l' : Ledger} {ps : List Posting} (h : Written l l' ps) :
    mintedBy l l' = mintedAmounts ps := by
  have hgained : (l'.entries.drop l.entries.length).map LedgerEntry.toPosting = ps := by
    rw [List.map_drop, h.entries, List.drop_left' (List.length_map _)]
  unfold mintedBy mintedAmounts
  rw [← hgained, List.filter_map, List.map_map]
  rfl

/-! ## Steps that mint -/

/-- Credits make no balance negative. -/
theorem Written.nonNegative {l l' : Ledger} {ps : List Posting} (h : Written l l' ps)
    (hl : l.NonNegative) (hps : ∀ p ∈ ps, 0 ≤ p.amountUnits) : l'.NonNegative := by
  intro a
  rw [h.balance]
  exact Int.add_nonneg (hl a) (postedTo_nonneg hps a)

/-- A posting is written as one entry. -/
theorem Written.of_write (l : Ledger) (rowType : String) (p : Posting) :
    Written l (l.write rowType p) [p] where
  entries := by simp [Ledger.write]
  balance a := by simp [Ledger.balanceUnits_write]
  total := by simp [Ledger.totalUnits_write]

/-- `l'` is `l` after minting entries of the given amounts, and possibly others. Where the amounts
are not negative, no balance becomes negative. -/
structure Mints (l l' : Ledger) (amounts : List ℤ) : Prop where
  written : ∃ ps, Written l l' ps ∧ mintedAmounts ps = amounts
  nonneg : (∀ amount ∈ amounts, 0 ≤ amount) → l.NonNegative → l'.NonNegative

namespace Mints

variable {l l₁ l₂ l' : Ledger} {ps : List Posting} {amounts amounts' : List ℤ}

/-- A ledger that stays mints nothing. -/
theorem refl (l : Ledger) : Mints l l [] where
  written := ⟨[], .refl l, rfl⟩
  nonneg _ := id

/-- Mints follow each other. -/
theorem trans (h : Mints l l₁ amounts) (h' : Mints l₁ l₂ amounts') :
    Mints l l₂ (amounts ++ amounts') where
  written := by
    obtain ⟨ps, hps, rfl⟩ := h.written
    obtain ⟨qs, hqs, rfl⟩ := h'.written
    exact ⟨ps ++ qs, hps.trans hqs, mintedAmounts_append ps qs⟩
  nonneg hamounts hl :=
    h'.nonneg (fun amount hmem => hamounts amount (List.mem_append_right _ hmem))
      (h.nonneg (fun amount hmem => hamounts amount (List.mem_append_left _ hmem)) hl)

/-- The checked writers refuse a negative balance, whatever they mint. -/
theorem of_posts (h : Posts l l' ps) : Mints l l' (mintedAmounts ps) where
  written := ⟨ps, .of_posts h, rfl⟩
  nonneg _ := h.nonneg

/-- The credits of rewards that are no minting entries. -/
theorem of_rewards (h : Written l l' ps) (htype : ∀ p ∈ ps, p.entryType ∉ mintTypes)
    (hps : ∀ p ∈ ps, 0 ≤ p.amountUnits) : Mints l l' [] where
  written := ⟨ps, h, mintedAmounts_of_none htype⟩
  nonneg _ hl := h.nonNegative hl hps

/-- A minting entry that is written without a check. -/
theorem of_write (l : Ledger) (rowType : String) {p : Posting} (htype : p.entryType ∈ mintTypes) :
    Mints l (l.write rowType p) [p.amountUnits] where
  written := by
    refine ⟨[p], .of_write l rowType p, ?_⟩
    simp [mintedAmounts, htype]
  nonneg hamounts hl :=
    (Written.of_write l rowType p).nonNegative hl fun q hq => by
      rw [List.mem_singleton.mp hq]
      exact hamounts _ List.mem_cons_self

/-- The mints are read off the two ledgers. -/
theorem mintedBy (h : Mints l l' amounts) : mintedBy l l' = amounts := by
  obtain ⟨ps, hps, rfl⟩ := h.written
  exact mintedBy_of_written hps

end Mints

/-! ## The parts of the validators -/

/-- No part is negative where the equal parts are not, and leave something for the last. -/
theorem validatorParts_nonneg_iff (poolUnits perValidatorUnits : ℤ) :
    ∀ (validatorIds : List String) (distributedUnits : ℤ), validatorIds ≠ [] →
      ((∀ part ∈ validatorParts poolUnits perValidatorUnits validatorIds distributedUnits,
        0 ≤ part.2) ↔ (2 ≤ validatorIds.length → 0 ≤ perValidatorUnits) ∧
          distributedUnits + perValidatorUnits * (validatorIds.length - 1) ≤ poolUnits)
  | [], _, h => absurd rfl h
  | [id], distributedUnits, _ => by
    simp only [validatorParts, List.mem_singleton, forall_eq, List.length_singleton]
    constructor
    · intro h
      refine ⟨fun hlength => absurd hlength (by decide), ?_⟩
      simp only [Nat.cast_one, sub_self, mul_zero, add_zero]
      omega
    · rintro ⟨-, h⟩
      simp only [Nat.cast_one, sub_self, mul_zero, add_zero] at h
      omega
  | id :: next :: rest, distributedUnits, _ => by
    have ih := validatorParts_nonneg_iff poolUnits perValidatorUnits (next :: rest)
      (distributedUnits + perValidatorUnits) (List.cons_ne_nil _ _)
    have hsplit : distributedUnits + perValidatorUnits * ((id :: next :: rest).length - 1 : ℤ) =
        distributedUnits + perValidatorUnits +
          perValidatorUnits * ((next :: rest).length - 1 : ℤ) := by
      simp only [List.length_cons]
      push_cast
      ring
    rw [validatorParts, List.forall_mem_cons, ih, hsplit]
    · constructor
      · rintro ⟨hper, -, hrest⟩
        exact ⟨fun _ => hper, hrest⟩
      · rintro ⟨hper, hrest⟩
        have hper := hper (by simp)
        exact ⟨hper, fun _ => hper, hrest⟩
    · simp

/-! ## The steps of an import -/

section

variable {pc : ImportRewardConfig} {b : ImportedBlock} {s s' : NodeState}

/-- The transactions of a block mint nothing. -/
theorem applyBlockTransactions_mints {cfg : Config} {now : Instant} {ctx : BlockContext}
    {transactions : List Tx} (h : applyBlockTransactions cfg now ctx s transactions = .ok s') :
    Mints s.ledger s'.ledger [] ∧ s'.chain = s.chain := by
  obtain ⟨b, hloop, rfl⟩ := applyBlockTransactions_eq_ok.mp h
  refine foldlM_relates (fun b b' : BlockProgress =>
    Mints b.state.ledger b'.state.ledger [] ∧ b'.state.chain = b.state.chain)
    (fun b => ⟨.refl _, rfl⟩) (fun h h' => ⟨h.1.trans h'.1, h'.2.trans h.2⟩)
    (fun tx _ b b' hstep => ?_) hloop
  have hnone : mintedAmounts (transactionPostings cfg now ctx b.state tx) = [] :=
    mintedAmounts_of_none fun p hp hmem =>
      transactionPostings_entryType hp (List.mem_cons_of_mem _ hmem)
  obtain ⟨-, s₁, hexecute, hsettle, -⟩ := applyBlockTransaction_eq_ok hstep
  refine ⟨hnone ▸ .of_posts (applyBlockTransaction_posts hstep), ?_⟩
  obtain ⟨l, -, hok⟩ := bind_eq_ok.mp hsettle
  rw [← pure_eq_ok.mp hok]
  exact (executeTransaction_frame hexecute).2.2

/-- The transactions of a block mint nothing. -/
theorem applyImportedTransactions_mints {account : String × String}
    (h : applyImportedTransactions pc b account s = .ok s') :
    Mints s.ledger s'.ledger [] ∧ s'.chain = s.chain := by
  obtain ⟨transactions, -, h⟩ := bind_eq_ok.mp h
  split at h
  · obtain ⟨decoded, -, h⟩ := bind_eq_ok.mp h
    exact applyBlockTransactions_mints (mapError_eq_ok.mp h)
  · rw [← pure_eq_ok.mp h]
    exact ⟨.refl _, rfl⟩

/-- What an accrual of these units mints. -/
def accrued (units : ℤ) : List ℤ := if units ≤ 0 then [] else [units]

/-- An accrual adds its units, where they are positive. -/
theorem sum_accrued (units : ℤ) : (accrued units).sum = max 0 units := by
  unfold accrued
  split
  · next h => rw [List.sum_nil, max_eq_left h]
  · next h => rw [List.sum_singleton, max_eq_right (not_le.mp h).le]

/-- It is not negative. -/
theorem accrued_nonneg (units : ℤ) : ∀ amount ∈ accrued units, 0 ≤ amount := by
  intro amount hmem
  unfold accrued at hmem
  split at hmem
  · cases hmem
  · next h =>
    rw [List.mem_singleton.mp hmem]
    omega

/-- The accrual of the reserve mints its part. -/
theorem recordScienceReserveForBlock_mints {mc : MarketConfig} {now : Instant} {l l' : Ledger}
    {sci sci' : ScienceTables} {blockHeight blockReward : ℤ}
    (h : recordScienceReserveForBlock mc now l sci blockHeight blockReward = .ok (l', sci')) :
    Mints l l' (accrued (scienceReserveUnitsFromTotal mc (unitsOf blockReward))) := by
  unfold recordScienceReserveForBlock at h
  unfold accrued
  dsimp only at h
  split at h
  · next hzero =>
    cases h
    rw [if_pos hzero]
    exact .refl l
  · next hpos =>
    obtain ⟨l₁, hpost, h⟩ := bind_eq_ok.mp h
    cases h
    have hmints := Mints.of_posts (applyScienceLedgerEntry_posts hpost)
    simpa [mintedAmounts, mintTypes, if_neg hpos] using hmints

/-- The accrual of the treasury mints its part. -/
theorem recordScientificDevelopmentTreasuryForBlock_mints {cfg : Config} {now : Instant}
    {t t' : TreasuryTables} {l l' : Ledger} {blockHeight blockReward : ℤ}
    (h : recordScientificDevelopmentTreasuryForBlock cfg now t l blockHeight blockReward =
      .ok (t', l')) :
    Mints l l' (accrued (scientificDevelopmentUnitsFromTotal cfg (unitsOf blockReward))) := by
  unfold recordScientificDevelopmentTreasuryForBlock at h
  unfold accrued
  dsimp only at h
  split at h
  · next hzero =>
    cases h
    rw [if_pos hzero]
    exact .refl l
  · next hpos =>
    obtain ⟨l₁, hpost, h⟩ := bind_eq_ok.mp h
    cases h
    have hmints := Mints.of_posts (applyLedgerEntry_posts hpost)
    simpa [mintedAmounts, mintTypes, if_neg hpos] using hmints

/-- The two accruals of a total. -/
def accruals (pc : ImportRewardConfig) (totalUnits : ℤ) : List ℤ :=
  accrued (scienceReserveUnitsFromTotal pc.toMarketConfig totalUnits) ++
    accrued (scientificDevelopmentUnitsFromTotal pc.toRewardConfig.toConfig totalUnits)

/-- An imported block accrues both. -/
theorem accrueImportedBlock_mints {totalUnits : ℤ}
    (h : accrueImportedBlock pc b totalUnits s = .ok s') :
    Mints s.ledger s'.ledger (accruals pc totalUnits) ∧ s'.chain = s.chain := by
  obtain ⟨⟨l₁, science⟩, hscience, h⟩ := bind_eq_ok.mp h
  obtain ⟨⟨treasury, l₂⟩, htreasury, h⟩ := bind_eq_ok.mp h
  rw [← pure_eq_ok.mp h]
  have hsci := recordScienceReserveForBlock_mints (mapError_eq_ok.mp hscience)
  have htre := recordScientificDevelopmentTreasuryForBlock_mints (mapError_eq_ok.mp htreasury)
  rw [unitsOf_unitsToFloat] at hsci htre
  exact ⟨hsci.trans htre, rfl⟩

/-- A validator of the block is paid its part. -/
theorem payDistributedValidator_mints {cfg : Config} {d : DistributedReward}
    {rewardAddresses : List (String × Value)} {part : String × ℤ}
    (h : payDistributedValidator cfg d rewardAddresses s part = .ok s') :
    Mints s.ledger s'.ledger [part.2] ∧ s'.chain = s.chain := by
  obtain ⟨address, -, h⟩ := bind_eq_ok.mp h
  rw [← pure_eq_ok.mp h]
  have htype : (distributedPosting cfg d part.1 address part.2).entryType ∈ mintTypes :=
    List.mem_cons_self
  have hmints := Mints.of_write s.ledger
    (distributedPosting cfg d part.1 address part.2).accountType htype
  have hunits : (distributedPosting cfg d part.1 address part.2).amountUnits = part.2 :=
    unitsOf_unitsToFloat part.2
  rw [hunits] at hmints
  exact ⟨hmints, rfl⟩

/-- Each validator is minted its part. -/
theorem payDistributedValidators_mints {cfg : Config} {d : DistributedReward}
    {rewardAddresses : List (String × Value)} (parts : List (String × ℤ)) :
    ∀ s s' : NodeState,
      parts.foldlM (payDistributedValidator cfg d rewardAddresses) s = .ok s' →
        Mints s.ledger s'.ledger (parts.map Prod.snd) ∧ s'.chain = s.chain := by
  induction parts with
  | nil =>
    intro s s' h
    cases h
    exact ⟨.refl _, rfl⟩
  | cons part rest ih =>
    intro s s' h
    rw [List.foldlM_cons] at h
    obtain ⟨s₁, hpay, hrest⟩ := bind_eq_ok.mp h
    have ⟨hone, hchain⟩ := payDistributedValidator_mints hpay
    have ⟨hmany, hchain'⟩ := ih s₁ s' hrest
    exact ⟨hone.trans hmany, hchain'.trans hchain⟩

/-- What the validators of a block are paid. -/
def ValidatorRewards.amounts (r : ValidatorRewards) : List ℤ :=
  (validatorParts r.poolUnits r.perValidatorUnits r.validatorIds 0).map Prod.snd

/-- So it is with the validators that the block names. -/
theorem applyDistributedValidatorRewards_mints {approvers : List String} {totalUnits : ℤ}
    {d : DistributedReward} {block : Value}
    (h : applyDistributedValidatorRewards pc approvers totalUnits d s block = .ok s') :
    ∃ rewards, readValidatorRewards pc approvers totalUnits block = .ok rewards ∧
      Mints s.ledger s'.ledger (rewards.elim [] ValidatorRewards.amounts) ∧
        s'.chain = s.chain := by
  obtain ⟨rewards, hread, h⟩ := bind_eq_ok.mp h
  refine ⟨rewards, hread, ?_⟩
  cases rewards with
  | none =>
    rw [← pure_eq_ok.mp h]
    exact ⟨.refl _, rfl⟩
  | some r => exact payDistributedValidators_mints _ s s' h

end

/-! ## Rewards -/

/-- No reward that has still to mature is negative. -/
def ImmatureNonNegative (s : NodeState) : Prop :=
  ∀ r ∈ s.chain.rewards.rows, r.2.mature = false → 0 ≤ r.2.amountUnits

/-- The amount of a recorded reward. -/
def rewardUnits (s : NodeState) (key : ℤ) : Option ℤ :=
  (s.chain.rewards.find? key).map RewardRow.amountUnits

/-- A reward that matures keeps its amount. -/
theorem rewardUnits_matureBlockRewards (height : ℤ) (timestamp : String) (s : NodeState)
    (key : ℤ) : rewardUnits (matureBlockRewards height timestamp s) key = rewardUnits s key := by
  unfold matureBlockRewards
  generalize maturingRewards s.chain.rewards height = rs
  induction rs generalizing s with
  | nil => rfl
  | cons r rest ih =>
    refine (ih (matureReward height timestamp s r)).trans ?_
    have hkept : ∀ row : RewardRow, ({ row with mature := true } : RewardRow).amountUnits =
        row.amountUnits := fun _ => rfl
    exact Sql.Table.map_find?_modify s.chain.rewards r.1 hkept key

/-- Rewards that mature are minted one after the other. -/
theorem foldl_matureReward_mints {height : ℤ} {timestamp : String} (rs : List (ℤ × RewardRow))
    (hrs : ∀ r ∈ rs, 0 ≤ r.2.amountUnits) :
    ∀ s : NodeState, Mints s.ledger (rs.foldl (matureReward height timestamp) s).ledger [] := by
  induction rs with
  | nil => exact fun s => .refl _
  | cons r rest ih =>
    intro s
    have hrest := ih (fun r' hr' => hrs r' (List.mem_cons_of_mem _ hr'))
      (matureReward height timestamp s r)
    have hone : Mints s.ledger (matureReward height timestamp s r).ledger [] := by
      unfold matureReward
      dsimp only
      split
      · exact .refl _
      · refine .of_rewards (.of_credit s.ledger (maturedPosting height timestamp r))
          (fun p hp => ?_) fun p hp => ?_
        · rw [List.mem_singleton.mp hp]
          simp [maturedPosting, mintTypes, treasuryEventAccrual]
        · rw [List.mem_singleton.mp hp]
          show 0 ≤ unitsOf (unitsToFloat r.2.amountUnits)
          rw [unitsOf_unitsToFloat]
          exact hrs r List.mem_cons_self
    exact hone.trans hrest

/-- Rewards that are not negative mature without minting. -/
theorem matureBlockRewards_mints {s : NodeState} (height : ℤ) (timestamp : String)
    (hs : ImmatureNonNegative s) :
    Mints s.ledger (matureBlockRewards height timestamp s).ledger [] := by
  have hperm : (maturingRewards s.chain.rewards height).Perm
      (s.chain.rewards.rows.filter fun r => r.2.maturesBy height) := List.mergeSort_perm _ _
  refine foldl_matureReward_mints _ (fun r hr => ?_) s
  have hmem := List.mem_filter.mp (hperm.mem_iff.mp hr)
  have hmatures := hmem.2
  unfold RewardRow.maturesBy at hmatures
  rw [Bool.and_eq_true, Bool.not_eq_true'] at hmatures
  exact hs r hmem.1 hmatures.1

/-- The reward of the miner is stored with its units. -/
theorem rewardUnits_recordMinerBlockReward (rc : RewardConfig) (s : NodeState) (r : MinerReward) :
    rewardUnits (recordMinerBlockReward rc s r) (nextId s.chain.rewards) =
      some (unitsOf r.amount) := by
  unfold rewardUnits recordMinerBlockReward
  simp [MinerReward.row]

/-- A reward that is not negative is recorded, and credited where it need not mature. -/
theorem recordMinerBlockReward_mints (rc : RewardConfig) {s : NodeState} {r : MinerReward}
    (hs : ImmatureNonNegative s) (hr : 0 ≤ unitsOf r.amount) :
    Mints s.ledger (recordMinerBlockReward rc s r).ledger [] ∧
      ImmatureNonNegative (recordMinerBlockReward rc s r) := by
  have hensure := Written.of_ensure s.ledger r.accountId r.accountType
  constructor
  · unfold recordMinerBlockReward
    dsimp only
    split
    · refine .of_rewards (hensure.trans (.of_credit _ r.posting)) (fun p hp => ?_) fun p hp => ?_
      · rw [List.mem_singleton.mp hp]
        simp [MinerReward.posting, mintTypes, treasuryEventAccrual]
      · rw [List.mem_singleton.mp hp]
        exact hr
    · exact .of_rewards hensure (fun p hp => absurd hp List.not_mem_nil) fun p hp =>
        absurd hp List.not_mem_nil
  · intro row hrow hi
    have hrows : (recordMinerBlockReward rc s r).chain.rewards.rows =
        s.chain.rewards.rows ++ [(nextId s.chain.rewards, r.row rc)] :=
      Sql.Table.upsertRows_of_none (find?_nextId s.chain.rewards)
    rw [hrows] at hrow
    rcases List.mem_append.mp hrow with hold | hnew
    · exact hs row hold hi
    · rw [List.mem_singleton.mp hnew]
      exact hr

/-! ## An import -/

/-- The parts of the reward of a block, as its fields give them. -/
structure BlockParts where
  minerUnits : ℤ
  rewards : Option ValidatorRewards

/-- The fields of a block are read as these parts. -/
def ImportedBlock.HasParts (pc : ImportRewardConfig) (b : ImportedBlock) (parts : BlockParts) :
    Prop :=
  b.minerUnits pc.toClientConfig = .ok parts.minerUnits ∧
    readValidatorRewards pc b.approvers
      (totalUnitsFromMinerRewardUnits pc.toRewardConfig parts.minerUnits) b.block =
        .ok parts.rewards

/-- What an import mints besides the miner's reward. -/
def BlockParts.minted (pc : ImportRewardConfig) (parts : BlockParts) : List ℤ :=
  accruals pc (totalUnitsFromMinerRewardUnits pc.toRewardConfig parts.minerUnits) ++
    parts.rewards.elim [] ValidatorRewards.amounts

/-- The recorded reward, the minting entries and the balances after an import. -/
theorem payImportedBlock_mints {pc : ImportRewardConfig} {b : ImportedBlock} {s s' : NodeState}
    (hs : ImmatureNonNegative s) (h : payImportedBlock pc s b = .ok s') :
    ∃ parts, b.HasParts pc parts ∧
      rewardUnits s' (nextId s.chain.rewards) = some parts.minerUnits ∧
        (0 ≤ parts.minerUnits → Mints s.ledger s'.ledger (parts.minted pc)) := by
  obtain ⟨minerUnits, hunits, h⟩ := bind_eq_ok.mp h
  obtain ⟨account, -, h⟩ := bind_eq_ok.mp h
  obtain ⟨minerId, -, h⟩ := bind_eq_ok.mp h
  obtain ⟨s₁, htransactions, h⟩ := bind_eq_ok.mp h
  obtain ⟨s₂, haccrue, h⟩ := bind_eq_ok.mp h
  obtain ⟨s₃, hvalidators, h⟩ := bind_eq_ok.mp h
  rw [← pure_eq_ok.mp h]
  obtain ⟨rewards, hread, hpaid, hchain₃⟩ :=
    applyDistributedValidatorRewards_mints (mapError_eq_ok.mp hvalidators)
  have ⟨hexecuted, hchain₁⟩ := applyImportedTransactions_mints htransactions
  have ⟨haccrued, hchain₂⟩ := accrueImportedBlock_mints haccrue
  have hchain := hchain₃.trans (hchain₂.trans hchain₁)
  have hamount : unitsOf (b.minerReward minerId account minerUnits).amount = minerUnits :=
    unitsOf_unitsToFloat minerUnits
  refine ⟨⟨minerUnits, rewards⟩, ⟨mapError_eq_ok.mp hunits, hread⟩, ?_, fun hminer => ?_⟩
  · have hrecorded := rewardUnits_recordMinerBlockReward pc.toRewardConfig s
      (b.minerReward minerId account minerUnits)
    rw [hamount] at hrecorded
    rw [rewardUnits_matureBlockRewards, rewardUnits, hchain]
    exact hrecorded
  · have ⟨hrecord, himmature⟩ := recordMinerBlockReward_mints pc.toRewardConfig hs
      (hamount.symm ▸ hminer)
    have hmature := matureBlockRewards_mints (s := s₃) b.height b.timestamp.text
      (by unfold ImmatureNonNegative; rw [hchain]; exact himmature)
    have hall := hrecord.trans (hexecuted.trans (haccrued.trans (hpaid.trans hmature)))
    simpa [BlockParts.minted] using hall

/-! ## The schedule -/

/-- An import minted the base reward: the recorded reward and the minting entries add up to it,
and neither they nor the balances are negative. -/
structure MintsSchedule (baseUnits : ℤ) (s s' : NodeState) : Prop where
  total : ∃ recorded, rewardUnits s' (nextId s.chain.rewards) = some recorded ∧ 0 ≤ recorded ∧
    recorded + (mintedBy s.ledger s'.ledger).sum = baseUnits
  nonneg : ∀ amount ∈ mintedBy s.ledger s'.ledger, 0 ≤ amount
  balances : s'.ledger.NonNegative

/-- The parts leave something for every validator. -/
def ValidatorRewards.Payable (r : ValidatorRewards) : Prop :=
  (2 ≤ r.validatorIds.length → 0 ≤ r.perValidatorUnits) ∧
    r.perValidatorUnits * (r.validatorIds.length - 1) ≤ r.poolUnits

/-- The fields of a block name parts that are the base reward together. -/
def MeetsSchedule (pc : ImportRewardConfig) (baseUnits : ℤ) (b : ImportedBlock) : Prop :=
  ∃ parts, b.HasParts pc parts ∧ 0 ≤ parts.minerUnits ∧ (∀ r ∈ parts.rewards, r.Payable) ∧
    let totalUnits := totalUnitsFromMinerRewardUnits pc.toRewardConfig parts.minerUnits
    parts.minerUnits + (parts.rewards.elim 0 ValidatorRewards.poolUnits +
      max 0 (scienceReserveUnitsFromTotal pc.toMarketConfig totalUnits) +
      max 0 (scientificDevelopmentUnitsFromTotal pc.toRewardConfig.toConfig totalUnits)) =
        baseUnits

/-- A block is read in one way. -/
theorem ImportedBlock.HasParts.unique {pc : ImportRewardConfig} {b : ImportedBlock}
    {parts parts' : BlockParts} (h : b.HasParts pc parts) (h' : b.HasParts pc parts') :
    parts = parts' := by
  obtain ⟨minerUnits, rewards⟩ := parts
  obtain ⟨minerUnits', rewards'⟩ := parts'
  obtain rfl : minerUnits = minerUnits' := Except.ok.inj (h.1.symm.trans h'.1)
  obtain rfl : rewards = rewards' := Except.ok.inj (h.2.symm.trans h'.2)
  rfl

/-- Without validators nothing is read. -/
theorem validatorIds_ne_nil {pc : ImportRewardConfig} {approvers : List String}
    {totalUnits : ℤ} {block : Value} {r : ValidatorRewards}
    (h : readValidatorRewards pc approvers totalUnits block = .ok (some r)) :
    r.validatorIds ≠ [] := by
  obtain ⟨payload, -, h⟩ := bind_eq_ok.mp h
  obtain ⟨ids, -, h⟩ := bind_eq_ok.mp h
  obtain ⟨items, -, h⟩ := bind_eq_ok.mp h
  obtain ⟨listed, -, h⟩ := bind_eq_ok.mp h
  dsimp only at h
  generalize (if listed = [] then approvers else listed) = validatorIds at h
  split at h
  · cases pure_eq_ok.mp h
  · next hids =>
    obtain ⟨poolValue, -, h⟩ := bind_eq_ok.mp h
    obtain ⟨pool, -, h⟩ := bind_eq_ok.mp h
    obtain ⟨perValue, -, h⟩ := bind_eq_ok.mp h
    obtain ⟨per, -, h⟩ := bind_eq_ok.mp h
    obtain ⟨addresses, -, h⟩ := bind_eq_ok.mp h
    cases pure_eq_ok.mp h
    exact hids

/-- The validators' parts are the pool together. -/
theorem sum_amounts {r : ValidatorRewards} (h : r.validatorIds ≠ []) :
    r.amounts.sum = r.poolUnits := by
  unfold ValidatorRewards.amounts
  rw [sum_validatorParts _ _ _ _ h, sub_zero]

/-- No part is negative exactly if the pool can pay the shares. -/
theorem amounts_nonneg_iff {r : ValidatorRewards} (h : r.validatorIds ≠ []) :
    (∀ amount ∈ r.amounts, 0 ≤ amount) ↔ r.Payable := by
  unfold ValidatorRewards.amounts ValidatorRewards.Payable
  rw [List.forall_mem_map, validatorParts_nonneg_iff _ _ _ _ h, zero_add]

/-- What is minted is not negative where the validators' parts are not. -/
theorem minted_nonneg_iff {pc : ImportRewardConfig} {b : ImportedBlock} {parts : BlockParts}
    (h : b.HasParts pc parts) :
    (∀ amount ∈ parts.minted pc, 0 ≤ amount) ↔ ∀ r ∈ parts.rewards, r.Payable := by
  have haccruals : ∀ amount ∈ accruals pc
      (totalUnitsFromMinerRewardUnits pc.toRewardConfig parts.minerUnits), 0 ≤ amount := by
    intro amount hmem
    rcases List.mem_append.mp hmem with hmem | hmem <;> exact accrued_nonneg _ amount hmem
  unfold BlockParts.minted
  rw [List.forall_mem_append, and_iff_right haccruals]
  cases hrewards : parts.rewards with
  | none => simp
  | some r =>
    have hids := validatorIds_ne_nil (hrewards ▸ h.2)
    simpa using amounts_nonneg_iff hids

/-- The mints of a block sum up to its parts. -/
theorem sum_minted {pc : ImportRewardConfig} {b : ImportedBlock} {parts : BlockParts}
    (h : b.HasParts pc parts) :
    let totalUnits := totalUnitsFromMinerRewardUnits pc.toRewardConfig parts.minerUnits
    (parts.minted pc).sum = parts.rewards.elim 0 ValidatorRewards.poolUnits +
      max 0 (scienceReserveUnitsFromTotal pc.toMarketConfig totalUnits) +
      max 0 (scientificDevelopmentUnitsFromTotal pc.toRewardConfig.toConfig totalUnits) := by
  have hpaid : (parts.rewards.elim [] ValidatorRewards.amounts).sum =
      parts.rewards.elim 0 ValidatorRewards.poolUnits := by
    cases hrewards : parts.rewards with
    | none => rfl
    | some r => exact sum_amounts (validatorIds_ne_nil (hrewards ▸ h.2))
  unfold BlockParts.minted accruals
  dsimp only
  rw [List.sum_append, List.sum_append, sum_accrued, sum_accrued, hpaid]
  ring

/-- **An import mints the schedule** if and only if the fields of its block meet it. -/
theorem mintsSchedule_iff {pc : ImportRewardConfig} {s s' : NodeState} {b : ImportedBlock}
    (params : ProtocolParamsRow) (hledger : s.ledger.NonNegative) (hs : ImmatureNonNegative s)
    (h : payImportedBlock pc s b = .ok s') :
    MintsSchedule (toUnits params.baseReward) s s' ↔
      MeetsSchedule pc (toUnits params.baseReward) b := by
  obtain ⟨parts, hparts, hrecorded, hmints⟩ := payImportedBlock_mints hs h
  constructor
  · rintro ⟨⟨recorded, hreward, hnonneg, htotal⟩, hminted, -⟩
    rw [hrecorded, Option.some.injEq] at hreward
    subst hreward
    rw [(hmints hnonneg).mintedBy] at htotal hminted
    refine ⟨parts, hparts, hnonneg, (minted_nonneg_iff hparts).mp hminted, ?_⟩
    rw [← htotal, sum_minted hparts]
  · rintro ⟨parts', hparts', hnonneg, hpayable, htotal⟩
    obtain rfl := hparts.unique hparts'
    have hminted := (minted_nonneg_iff hparts).mpr hpayable
    have hby := (hmints hnonneg).mintedBy
    refine ⟨⟨parts.minerUnits, hrecorded, hnonneg, ?_⟩, hby ▸ hminted,
      (hmints hnonneg).nonneg hminted hledger⟩
    rw [hby, sum_minted hparts]
    exact htotal

/-! ## A local import -/

/-- The local network, where zero and the two rewards below are written as Python writes them. -/
def localImportRewards : ImportRewardConfig :=
  { localHashClient, localRewards with
    textOf := fun value => match value with
      | .float x =>
        if x = 251328000 then "2.51328" else if x = 100000000000000 then "1000000.0" else ""
      | .int i => if i = 0 then "0" else ""
      | value => localHashClient.textOf value
    textOf_null := localHashClient.textOf_null
    decimalOfText := fun text =>
      if text = "2.51328" then some ⟨251328, 5⟩ else if text = "1000000.0" then some ⟨10000000, 1⟩
      else if text = "0" then some ⟨0, 0⟩ else none
    decodeTransactions := fun _ => .ok [] }

/-- The first block, with a reward in units of `10 ^ -8`, and with one validator. -/
def localRewardBlock (reward : ℤ) : Value :=
  .obj [("algorithm", .str "bbp_hex_v1"), ("block_hash", .str localDigest), ("height", .int 1),
    ("miner_id", .str "miner-1"), ("previous_hash", .str legacyZeroGenesisHash),
    ("range_end", .int 64), ("range_start", .int 1), ("result_hash", .str "result-1"),
    ("reward", .float reward), ("samples", .arr []),
    ("timestamp", .str "2026-05-10T00:00:00+00:00"),
    ("validator_reward", .obj [("validator_ids", .arr [.str "validator-1"])])]

def localImportedBlock (reward : ℤ) : ImportedBlock where
  block := localRewardBlock reward
  proposalId := "proposal-1"
  height := 1
  timestamp := .ofInstant 0
  now := 0
  approvers := []

/-- A block whose miner gets 80 percent of the base reward. -/
theorem mintsSchedule_local :
    ∃ s', payImportedBlock localImportRewards (localNode []) (localImportedBlock 251328000) =
        .ok s' ∧
      MintsSchedule (toUnits localParamsRow.baseReward) (localNode []) s' := by
  have hruns : returns (payImportedBlock localImportRewards (localNode [])
      (localImportedBlock 251328000)) (fun _ => true) = true := by
    decide +kernel
  obtain ⟨s', hs', -⟩ := exists_of_returns hruns
  have hledger : (localNode []).ledger.NonNegative :=
    Ledger.nonNegative_of_rows fun r hr => nomatch hr
  refine ⟨s', hs', (mintsSchedule_iff localParamsRow hledger (fun r hr => nomatch hr) hs').mpr ?_⟩
  refine ⟨⟨2513280, some ⟨["validator-1"], 314160, 314160, []⟩⟩, ⟨by rfl, by rfl⟩, by decide,
    fun r hr => ?_, by decide⟩
  rw [← Option.some.inj hr]
  exact ⟨by decide, by decide⟩

/-- The first block comes with a reward of a million coins. It passes every check of a block, and
its miner is paid the million. -/
theorem inflated_import :
    Passes localHashClient (localRewardBlock 100000000000000) ∧
    returns (importFinalizedBlock localHashes.toImportConfig (localConsensusNode []).toImportNode
      (localRewardBlock 100000000000000) "peer-1") Prod.snd = true ∧
    ∃ s', payImportedBlock localImportRewards (localNode []) (localImportedBlock 100000000000000) =
        .ok s' ∧
      rewardUnits s' (nextId (localNode []).chain.rewards) = some 1000000000000 ∧
      ¬MintsSchedule (toUnits localParamsRow.baseReward) (localNode []) s' := by
  have hruns : returns (payImportedBlock localImportRewards (localNode [])
      (localImportedBlock 100000000000000)) (fun _ => true) = true := by
    decide +kernel
  obtain ⟨s', hs', -⟩ := exists_of_returns hruns
  have himmature : ImmatureNonNegative (localNode []) := fun r hr => nomatch hr
  obtain ⟨parts, hparts, hrecorded, hmints⟩ := payImportedBlock_mints himmature hs'
  have hread : (localImportedBlock 100000000000000).HasParts localImportRewards
      ⟨1000000000000, some ⟨["validator-1"], 125000000000, 125000000000, []⟩⟩ :=
    ⟨by rfl, by rfl⟩
  obtain rfl := hparts.unique hread
  refine ⟨by decide +kernel, by decide +kernel, s', hs', hrecorded, ?_⟩
  rintro ⟨⟨recorded, hreward, -, htotal⟩, -, -⟩
  rw [hrecorded, Option.some.injEq] at hreward
  rw [(hmints (by decide)).mintedBy, ← hreward] at htotal
  revert htotal
  decide

end Picoin
