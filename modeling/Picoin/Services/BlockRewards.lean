import Picoin.Services.Acceptance
import Picoin.Services.Execution
import Picoin.Services.ScienceMarket

/-!
# What a block pays

The acceptance of a block mints its reward in four parts:

* **`recordMinerBlockReward`** — the miner's part, which waits as an immature reward until
  **`matureBlockRewards`** credits it;
* **`applyValidatorRewards`** — the pool of the validators that approved the block's job;
* `recordScienceReserveForBlock` and `recordScientificDevelopmentTreasuryForBlock` — the accruals
  of the science reserve and of the development treasury.

`payAcceptedBlock` is what `_accept_block_in_connection` does with coins, in its order.
-/

namespace Picoin

open Outcome Decimal

/-- The settings that a block's reward is split by. A negative maturity depth is refused when the
settings are loaded. -/
structure RewardConfig extends MiningConfig, MarketConfig where
  validatorRewardPercentOfBlock : Dec
  blockMaturityDepth : ℕ

/-! ## Credits -/

/-- `_apply_ledger_entry` of the mining module and `_apply_reward_ledger_entry`: the new balance
is not checked, and an existing row keeps its account type. -/
def creditLedgerEntry (l : Ledger) (posting : Posting) : Ledger :=
  l.write ((l.accountType? posting.accountId).getD posting.accountType) posting

/-- `_ensure_balance_account`. -/
def ensureBalanceAccount (l : Ledger) (accountId accountType : String) : Ledger :=
  { l with balances := l.balances.insertNew accountId ⟨accountType, 0⟩ }

/-! ## The miner's part -/

/-- The key of the next inserted row. -/
def nextId {ρ : Type} (t : Sql.Table ℤ ρ) : ℤ := (t.rows.map Prod.fst).foldl max 0 + 1

/-- The arguments of `record_miner_block_reward`. -/
structure MinerReward where
  minerId : String
  accountId : String
  accountType : String
  blockHeight : ℤ
  amount : ℤ
  reason : String
  relatedId : Option String
  description : String
  timestamp : String

/-- The row of `rewards` that is inserted for a miner. -/
def MinerReward.row (rc : RewardConfig) (r : MinerReward) : RewardRow where
  minerId := r.minerId
  blockHeight := r.blockHeight
  amountUnits := unitsOf r.amount
  accountId := some r.accountId
  accountType := some r.accountType
  mature := rc.blockMaturityDepth = 0
  maturesAtHeight := some (r.blockHeight + rc.blockMaturityDepth)
  orphanedAt := none
  orphanReason := none
  relatedId := r.relatedId
  reason := r.reason
  createdAt := r.timestamp

/-- The credit of a miner's reward. -/
def MinerReward.posting (r : MinerReward) : Posting where
  accountId := r.accountId
  accountType := r.accountType
  amountUnits := unitsOf r.amount
  entryType := "block_reward"
  blockHeight := some r.blockHeight
  relatedId := r.relatedId
  description := some r.description
  createdAt := r.timestamp

/-- `record_miner_block_reward`: without a maturity depth the reward is credited at once. -/
def recordMinerBlockReward (rc : RewardConfig) (s : NodeState) (r : MinerReward) : NodeState :=
  let ledger := ensureBalanceAccount s.ledger r.accountId r.accountType
  { s with
    ledger := if rc.blockMaturityDepth = 0 then creditLedgerEntry ledger r.posting else ledger
    chain := { s.chain with
      rewards := s.chain.rewards.upsert (nextId s.chain.rewards) (r.row rc) } }

/-! ## Maturation -/

/-- An immature reward whose height has come. -/
def RewardRow.maturesBy (currentHeight : ℤ) (row : RewardRow) : Bool :=
  !row.mature && row.maturesAtHeight.any (· ≤ currentHeight)

/-- The rewards that mature at a height, in the order of the query. -/
def maturingRewards (rewards : Sql.Table ℤ RewardRow) (currentHeight : ℤ) :
    List (ℤ × RewardRow) :=
  (rewards.rows.filter fun r => r.2.maturesBy currentHeight).mergeSort fun a b =>
    let ha := a.2.maturesAtHeight.getD 0
    let hb := b.2.maturesAtHeight.getD 0
    ha < hb || ha = hb && a.1 ≤ b.1

/-- The credit of a matured reward. -/
def maturedPosting (currentHeight : ℤ) (timestamp : String) (r : ℤ × RewardRow) : Posting :=
  let accountId := textOr r.2.accountId r.2.minerId
  let rewardId := r.1
  let blockHeight := r.2.blockHeight
  { accountId
    accountType :=
      textOr r.2.accountType (if startsWith accountId "PI" then "wallet" else "miner")
    amountUnits := unitsOf (unitsToFloat r.2.amountUnits)
    entryType := "block_reward"
    blockHeight := some currentHeight
    relatedId := some (textOr r.2.relatedId s!"reward:{rewardId}")
    description := some s!"matured miner block reward from block {blockHeight}"
    createdAt := timestamp }

/-- The ledger has an entry of this credit already. -/
def Ledger.hasReward (l : Ledger) (posting : Posting) : Bool :=
  l.entries.any fun e => e.entryType = "block_reward" && e.accountId = posting.accountId &&
    e.relatedId = posting.relatedId && e.amountUnits = posting.amountUnits

/-- One turn of the loop of `mature_block_rewards`. -/
def matureReward (currentHeight : ℤ) (timestamp : String) (s : NodeState) (r : ℤ × RewardRow) :
    NodeState :=
  let posting := maturedPosting currentHeight timestamp r
  { s with
    ledger := if s.ledger.hasReward posting then s.ledger else creditLedgerEntry s.ledger posting
    chain := { s.chain with
      rewards := s.chain.rewards.modify r.1 fun row => { row with mature := true } } }

/-- `mature_block_rewards`. -/
def matureBlockRewards (currentHeight : ℤ) (timestamp : String) (s : NodeState) : NodeState :=
  (maturingRewards s.chain.rewards currentHeight).foldl (matureReward currentHeight timestamp) s

/-! ## The validators' part -/

/-- `_approved_validator_ids_for_job`: the votes come in the order of their ids. -/
def approvedValidatorIdsForJob (votes : List ValidationVoteRow) (jobId : String) : List String :=
  ((votes.filter fun vote => vote.jobId = jobId && vote.approved).mergeSort
    fun a b => a.createdAt ≤ b.createdAt).map ValidationVoteRow.validatorId

/-- `_reward_account_for_validator`: the account and its type. -/
def rewardAccountForValidator (cfg : Config) (validators : Sql.Table String ValidatorRow)
    (validatorId : String) : String × String :=
  match (validators.find? validatorId).bind ValidatorRow.rewardAddress with
  | none => (validatorId, "validator")
  | some address =>
    if address ≠ "" ∧ isValidAddress cfg (some address) then (address, "wallet")
    else (validatorId, "validator")

/-- The credit of a validator's part. -/
def validatorRewardPosting (cfg : Config) (validators : Sql.Table String ValidatorRow)
    (now : Instant) (jobId : String) (blockHeight : ℤ) (validatorId : String)
    (amountUnits : ℤ) : Posting :=
  let account := rewardAccountForValidator cfg validators validatorId
  { accountId := account.1
    accountType := account.2
    amountUnits := unitsOf (unitsToFloat amountUnits)
    entryType := "validator_reward"
    blockHeight := some blockHeight
    relatedId := some jobId
    description := some "additional validator reward"
    createdAt := isoformat now }

/-- The parts of the validators: equal ones, and what is left of the pool for the last. -/
def validatorParts (poolUnits perValidatorUnits : ℤ) : List String → ℤ → List (String × ℤ)
  | [], _ => []
  | [validatorId], distributedUnits => [(validatorId, poolUnits - distributedUnits)]
  | validatorId :: rest, distributedUnits =>
    (validatorId, perValidatorUnits) ::
      validatorParts poolUnits perValidatorUnits rest (distributedUnits + perValidatorUnits)

/-- `validator_reward_pool_units`. -/
def validatorRewardPoolUnits (rc : RewardConfig) (params : ProtocolParamsRow) : ℤ :=
  percentUnits (toUnits params.baseReward) rc.validatorRewardPercentOfBlock

/-- The postings of `_apply_validator_rewards`. -/
def validatorRewardPostings (rc : RewardConfig) (now : Instant)
    (validators : Sql.Table String ValidatorRow) (votes : List ValidationVoteRow)
    (jobId : String) (blockHeight : ℤ) (params : ProtocolParamsRow) : List Posting :=
  let validatorIds := approvedValidatorIdsForJob votes jobId
  let poolUnits := validatorRewardPoolUnits rc params
  if validatorIds = [] ∨ poolUnits ≤ 0 then []
  else
    (validatorParts poolUnits (poolUnits / validatorIds.length) validatorIds 0).map fun part =>
      validatorRewardPosting rc.toConfig validators now jobId blockHeight part.1 part.2

/-- `_apply_validator_rewards`. -/
def applyValidatorRewards (rc : RewardConfig) (now : Instant) (l : Ledger)
    (validators : Sql.Table String ValidatorRow) (votes : List ValidationVoteRow)
    (jobId : String) (blockHeight : ℤ) (params : ProtocolParamsRow) : Ledger :=
  (validatorRewardPostings rc now validators votes jobId blockHeight params).foldl
    creditLedgerEntry l

/-! ## A block -/

/-- What the acceptance of a block pays for. `rows` are the mempool rows of the snapshot's
transactions; a task has an id. -/
structure RewardedBlock where
  taskId : String
  taskId_ne : taskId ≠ ""
  minerId : String
  account : String × String
  height : ℤ
  timestamp : Timestamp
  now : Instant
  params : ProtocolParamsRow
  rows : List Tx
  jobId : Option String
  votes : List ValidationVoteRow

/-- The context that the block's transactions are executed in. -/
def RewardedBlock.context (b : RewardedBlock) : BlockContext where
  minerId := b.account.1
  minerAccountType := b.account.2
  blockHeight := b.height
  timestamp := b.timestamp
  canonicalReplay := false

/-- The reward of the block's miner. -/
def RewardedBlock.minerReward (rc : RewardConfig) (b : RewardedBlock) : MinerReward where
  minerId := b.minerId
  accountId := b.account.1
  accountType := b.account.2
  blockHeight := b.height
  amount := calculateMinerReward rc.toMiningConfig b.params
  reason := "block accepted"
  relatedId := some b.taskId
  description := "miner block reward"
  timestamp := b.timestamp.text

/-- The coins of `_accept_block_in_connection`. -/
def payAcceptedBlock (rc : RewardConfig) (s : NodeState) (b : RewardedBlock) :
    Except ExecError NodeState := do
  let totalBlockReward := round8 b.params.baseReward
  let s := recordMinerBlockReward rc s (b.minerReward rc)
  let s ← applyBlockTransactions rc.toConfig b.now b.context s
    (b.rows.map decodeMempoolTransaction)
  let (ledger, science) ← recordScienceReserveForBlock rc.toMarketConfig b.now s.ledger s.science
    b.height totalBlockReward
  let (treasury, ledger) ← recordScientificDevelopmentTreasuryForBlock rc.toConfig b.now
    s.treasury ledger b.height totalBlockReward
  let ledger := b.jobId.elim ledger fun jobId =>
    applyValidatorRewards rc b.now ledger s.validators b.votes jobId b.height b.params
  return matureBlockRewards b.height b.timestamp.text { s with ledger, science, treasury }

/-! ## Writes without a check -/

/-- `l'` is `l` after the postings `ps`. -/
structure Written (l l' : Ledger) (ps : List Posting) : Prop where
  entries : l'.entries.map LedgerEntry.toPosting = l.entries.map LedgerEntry.toPosting ++ ps
  balance : ∀ a, l'.balanceUnits a = l.balanceUnits a + postedTo ps a
  total : l'.totalUnits = l.totalUnits + posted ps

namespace Written

theorem refl (l : Ledger) : Written l l [] where
  entries := (List.append_nil _).symm
  balance _ := (add_zero _).symm
  total := (add_zero _).symm

theorem trans {l₁ l₂ l₃ : Ledger} {ps qs : List Posting} (h : Written l₁ l₂ ps)
    (h' : Written l₂ l₃ qs) : Written l₁ l₃ (ps ++ qs) where
  entries := by rw [h'.entries, h.entries, List.append_assoc]
  balance a := by rw [h'.balance, h.balance, postedTo_append, add_assoc]
  total := by rw [h'.total, h.total, posted_append, add_assoc]

theorem of_posts {l l' : Ledger} {ps : List Posting} (h : Posts l l' ps) : Written l l' ps where
  entries := by
    obtain ⟨es, hes, hps⟩ := h.entries
    rw [hes, List.map_append, hps]
  balance := h.balance
  total := h.total

theorem of_credit (l : Ledger) (p : Posting) : Written l (creditLedgerEntry l p) [p] where
  entries := by simp [creditLedgerEntry, Ledger.write]
  balance a := by simp [creditLedgerEntry, Ledger.balanceUnits_write]
  total := by simp [creditLedgerEntry, Ledger.totalUnits_write]

theorem of_credits (ps : List Posting) (l : Ledger) :
    Written l (ps.foldl creditLedgerEntry l) ps := by
  induction ps generalizing l with
  | nil => exact refl l
  | cons p rest ih => exact (of_credit l p).trans (ih _)

theorem of_ensure (l : Ledger) (accountId accountType : String) :
    Written l (ensureBalanceAccount l accountId accountType) [] where
  entries := (List.append_nil _).symm
  balance a := by
    rw [postedTo_nil, add_zero]
    unfold ensureBalanceAccount Ledger.balanceUnits
    dsimp only
    rw [Sql.Table.find?_insertNew]
    split
    · next heq =>
      rw [heq]
      cases l.balances.find? accountId <;> rfl
    · rfl
  total := by
    have hrow : BalanceRow.balanceUnits ⟨accountType, 0⟩ = 0 := rfl
    simp [ensureBalanceAccount, Ledger.totalUnits, Sql.Table.sum_insertNew _ _ hrow]

end Written

end Picoin
