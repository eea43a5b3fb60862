import Picoin.Services.BlockRewards

/-!
# Removing an orphaned tip

A reorganisation of depth one removes the local tip before it imports the two blocks of the other
branch. The removal does not undo what the block did; it deletes what is stamped with the block's
height and computes the rest again:

* **`rebuildBalancesFromLedger`** — balances are the sums of the entries that are left;
* **`rebuildAccountNonces`** — nonces are the largest ones that the mempool still has confirmed;
* **`releaseOrphanedBlockTransactions`** — the block's transactions are pending again;
* **`reverseReorgSideTableAccruals`** — the accruals of the reserve and the treasury are subtracted.

`removalBlockers` are the checks on the local block that come before: the block may only have had
transfers and faucet payments, and only entries of a fixed list of types.

* **`acceptTip`** — what is removed: a block with its coins, the retarget behind it and the audit that
  it may trigger.
-/

namespace Picoin

/-! ## The tip -/

/-- What `_retarget_preview` proposes at the end of an epoch: the id of the active parameters, those
that take their place unless they are kept, and the row of the event up to its ids. -/
structure RetargetPlan where
  previousId : ℤ
  newParams : Option ProtocolParamsRow
  event : RetargetEventRow

/-- What follows the coins of a block: the preview of a retarget, which reads the active parameters,
and the scheduled audit. -/
structure TipConfig extends RewardConfig where
  retarget : NodeState → Except ExecError (Option RetargetPlan)
  retarget_active : ∀ s plan, retarget s = .ok (some plan) →
    (s.chain.protocolParams.find? plan.previousId).any ProtocolParamsRow.active = true
  audit : ℤ → NodeState → NodeState

/-- The parameters after a retarget, and the id of the active ones. -/
def RetargetPlan.params (plan : RetargetPlan) (params : Sql.Table ℤ ProtocolParamsRow) :
    Sql.Table ℤ ProtocolParamsRow × ℤ :=
  match plan.newParams with
  | none => (params, plan.previousId)
  | some row =>
    let row := { row with previousProtocolParamsId := some plan.previousId, active := true }
    let inactive := params.mapRows fun _ old => { old with active := false }
    (inactive.upsert (nextId params) row, nextId params)

/-- The tables after a retarget. -/
def RetargetPlan.apply (plan : RetargetPlan) (c : ChainTables) : ChainTables :=
  let event := { plan.event with
    previousProtocolParamsId := some plan.previousId
    newProtocolParamsId := some (plan.params c.protocolParams).2 }
  { c with
    protocolParams := (plan.params c.protocolParams).1
    retargetEvents := c.retargetEvents.upsert (nextId c.retargetEvents) event }

/-- `_maybe_retarget_after_block`. -/
def maybeRetargetAfterBlock (tc : TipConfig) (s : NodeState) : Except ExecError NodeState := do
  match ← tc.retarget s with
  | none => return s
  | some plan => return { s with chain := plan.apply s.chain }

/-- What `_accept_block_in_connection` does to the tables that a removal looks at. -/
def acceptTip (tc : TipConfig) (s : NodeState) (b : RewardedBlock) : Except ExecError NodeState := do
  let s ← payAcceptedBlock tc.toRewardConfig s b
  let s ← maybeRetargetAfterBlock tc s
  return tc.audit b.height s

/-- The kinds of transactions that a removal can take back, as the column has them. -/
def reorgSafeTxTypes : List TxType := [.transfer, .faucet]

/-- The types of entries that a removal can take back. -/
def reorgSafeLedgerEntryTypes : List String :=
  ["block_reward", "validator_reward", "science_reserve_accrual",
    "scientific_development_treasury_accrual", "transfer_debit", "transfer_credit", "faucet_debit",
    "faucet_credit", "transaction_fee_reward"]

/-- `block_height >= ?`, false for no height. -/
def stampedFrom (height : ℤ) (blockHeight : Option ℤ) : Bool := blockHeight.any (height ≤ ·)

/-- What a removal takes from elsewhere: the height and the time, the month of the reserve that was
updated last, and the column `expires_at` of a mempool row. -/
structure OrphanRemoval where
  height : ℤ
  timestamp : String
  reserveEpoch : String
  expiresAt : String → String

variable (o : OrphanRemoval)

/-! ## The checks -/

/-- `_reorg_safe_local_transaction_blockers`; `txCount` are the transactions of the block. -/
def reorgSafeLocalTransactionBlockers (mempool : Sql.Table String MempoolRow) (txCount : ℕ) :
    List String :=
  if txCount = 0 then []
  else
    let rows := mempool.rows.filter fun r =>
      stampedFrom o.height r.2.blockHeight && r.2.status = .confirmed
    (if rows.length < txCount then ["local_orphan_transactions_missing"] else []) ++
      (rows.filter fun r => r.2.tx.txType ∉ reorgSafeTxTypes).map fun r =>
        let hash := r.1
        let txType := r.2.tx.txType.name
        s!"local_orphan_unsupported_tx_type:{hash}:{txType}"

/-- The types of entries that are in the way. -/
def unsupportedLedgerEntryTypes (l : Ledger) : List String :=
  ((l.entries.filter fun e => stampedFrom o.height e.blockHeight).map fun e => e.entryType).filter
    (· ∉ reorgSafeLedgerEntryTypes)

/-- The blocker for them, if there are any. -/
def ledgerBlockers (l : Ledger) : List String :=
  let types := ((unsupportedLedgerEntryTypes o l).mergeSort (· ≤ ·)).dedup
  if types = [] then [] else ["unsupported_ledger_entries:" ++ ",".intercalate types]

/-- The blockers of `_orphan_reorg_apply_blockers` that look at what the local block has done. -/
def removalBlockers (s : NodeState) (txCount : ℕ) : List String :=
  reorgSafeLocalTransactionBlockers o s.mempool txCount ++ ledgerBlockers o s.ledger

/-! ## The ledger -/

/-- One turn of the loop of `_rebuild_balances_from_ledger`. -/
def addToBalance (balances : Sql.Table String BalanceRow) (entry : LedgerEntry) :
    Sql.Table String BalanceRow :=
  let row := (balances.find? entry.accountId).getD ⟨entry.accountType, 0⟩
  balances.upsert entry.accountId
    ⟨if entry.accountType = "" then row.accountType else entry.accountType,
      row.balanceUnits + entry.amountUnits⟩

/-- `_rebuild_balances_from_ledger`; an account without coins gets no row. -/
def rebuildBalancesFromLedger (entries : List LedgerEntry) : Sql.Table String BalanceRow :=
  (entries.foldl addToBalance .empty).filterRows fun _ row => row.balanceUnits ≠ 0

/-- The ledger without the entries from the height on. -/
def removeLedgerEntries (l : Ledger) : Ledger :=
  let entries := l.entries.filter fun e => !stampedFrom o.height e.blockHeight
  ⟨rebuildBalancesFromLedger entries, entries⟩

/-- The sum of `_ledger_summary_from_height` for a type of entries. -/
def ledgerSummaryFromHeight (l : Ledger) (entryType : String) : ℤ :=
  ((l.entries.filter fun e => stampedFrom o.height e.blockHeight && e.entryType = entryType).map
    fun e => e.amountUnits).sum

/-! ## The mempool and the nonces -/

/-- The row of a transaction that is released, or expires. -/
def MempoolRow.release (hash : String) (row : MempoolRow) : MempoolRow :=
  { row with
    status := if o.expiresAt hash ≠ "" ∧ o.expiresAt hash < o.timestamp then .expired else .pending
    blockHeight := none
    failureReason := some "orphaned by certified branch reorg" }

/-- `_release_orphaned_block_transactions`. -/
def releaseOrphanedBlockTransactions (mempool : Sql.Table String MempoolRow) :
    Sql.Table String MempoolRow :=
  mempool.mapRows fun hash row =>
    if stampedFrom o.height row.blockHeight ∧ row.status = .confirmed then row.release o hash else row

/-- The confirmed transactions of the mempool, by sender and nonce. -/
def confirmedNonces (mempool : Sql.Table String MempoolRow) : List (String × ℤ) :=
  (mempool.rows.filter fun r => r.2.status = .confirmed).map fun r => (r.2.tx.sender, r.2.tx.nonce)

/-- `_rebuild_account_nonces_from_confirmed_mempool`. -/
def rebuildAccountNonces (mempool : Sql.Table String MempoolRow) : Sql.Table String ℤ :=
  ((confirmedNonces mempool).foldl (fun nonces r => recordConfirmedNonce nonces r.1 r.2)
    .empty).filterRows fun _ nonce => 0 < nonce

/-! ## Rewards and parameters -/

/-- The rewards without those of the height on; what matured from the height on is immature. -/
def removeRewards (rewards : Sql.Table ℤ RewardRow) : Sql.Table ℤ RewardRow :=
  (rewards.mapRows fun _ row =>
    if row.mature ∧ stampedFrom o.height row.maturesAtHeight ∧ row.blockHeight < o.height then
      { row with mature := false }
    else row).filterRows fun _ row => row.blockHeight < o.height

/-- `_rollback_reorg_retarget_events`. -/
def rollbackReorgRetargetEvents (c : ChainTables) : ChainTables :=
  let events := (c.retargetEvents.rows.filter fun r => o.height ≤ r.2.epochEndHeight).mergeSort
    fun a b => a.2.epochEndHeight < b.2.epochEndHeight ||
      a.2.epochEndHeight = b.2.epochEndHeight && a.1 ≤ b.1
  match events with
  | [] => c
  | first :: _ =>
    let deactivated := c.protocolParams.mapRows fun id row =>
      if some id ∈ events.map fun r => r.2.newProtocolParamsId then { row with active := false }
      else row
    { c with
      retargetEvents := c.retargetEvents.filterRows fun _ row => row.epochEndHeight < o.height
      protocolParams := first.2.previousProtocolParamsId.elim deactivated fun previous =>
        deactivated.mapRows fun id row => { row with active := id = previous } }

/-! ## Accruals -/

/-- `_reverse_reorg_side_table_accruals` for the science reserve. -/
def reverseReserveAccrual (l : Ledger) (reserve : Sql.Table String ReserveRow) :
    Sql.Table String ReserveRow :=
  let units := ledgerSummaryFromHeight o l "science_reserve_accrual"
  if units = 0 then reserve
  else reserve.modify o.reserveEpoch fun row =>
    { row with totalReserved := max 0 (row.totalReserved - unitsToFloat units) }

/-- `_reverse_reorg_side_table_accruals` for the treasury. -/
def reverseTreasuryAccrual (l : Ledger) (t : TreasuryTables) : TreasuryTables :=
  let units := ledgerSummaryFromHeight o l treasuryEventAccrual
  if units = 0 then t
  else
    { t with
      treasury := t.treasury.map fun row =>
        { row with
          totalAccumulated := max 0 (row.totalAccumulated - unitsToFloat units)
          lockedBalance := max 0 (row.lockedBalance - unitsToFloat units) }
      epochs := t.treasury.elim t.epochs fun row => t.epochs.modify row.currentEpoch fun epoch =>
        { epoch with lockedAmount := max 0 (epoch.lockedAmount - unitsToFloat units) } }

/-! ## The removal -/

/-- `_remove_local_orphan_tip_for_reorg`, on the tables of the node's state. -/
def removeLocalOrphanTip (s : NodeState) : NodeState :=
  let mempool := releaseOrphanedBlockTransactions o s.mempool
  { s with
    ledger := removeLedgerEntries o s.ledger
    accountNonces := rebuildAccountNonces mempool
    mempool
    science := { s.science with
      rewardReserve := reverseReserveAccrual o s.ledger s.science.rewardReserve }
    treasury := reverseTreasuryAccrual o s.ledger s.treasury
    chain := rollbackReorgRetargetEvents o { s.chain with
      blocks := s.chain.blocks.filterRows fun height _ => height ≠ o.height
      rewards := removeRewards o s.chain.rewards } }

end Picoin
