import Picoin.Services.Snapshot.Export

/-!
# The restore of a snapshot

`applyImportedSnapshotState` writes the rows of an accepted document into the tables of a node.
With `replace_existing` it first empties the tables of the local chain; without, the node must not
have blocks. Foreign keys are off during a replacing restore and are not modelled.
-/

namespace Picoin

open Decimal

/-! ## Clearing -/

/-- `_clear_local_chain_state_for_snapshot_restore`. -/
def clearLocalChainState (s : NodeState) : NodeState :=
  { s with
    accountNonces := .empty
    mempool := .empty
    science := { s.science with stakeAccounts := .empty, jobs := .empty, rewardReserve := .empty }
    treasury := ⟨none, .empty, .empty⟩
    chain := { s.chain with blocks := .empty, rewards := .empty } }

/-- `DELETE FROM table` if the document has rows for it. -/
def clearIf {κ ρ α : Type} (rows : List α) (t : Sql.Table κ ρ) : Sql.Table κ ρ :=
  if rows = [] then t else .empty

/-! ## Rows as they are restored -/

/-- `_insert_snapshot_balance_ledger_entry`. -/
def snapshotBalanceLedgerEntry (accountId accountType : String) (amountUnits balanceAfterUnits : ℤ)
    (entryType : String) (blockHeight : ℤ) (snapshotHash description timestamp : String) :
    LedgerEntry :=
  { accountId, accountType, amountUnits, entryType
    blockHeight := some blockHeight, relatedId := some snapshotHash
    description := some description, createdAt := timestamp
    balanceAfterUnits }

/-- `_restore_snapshot_balance_ledger_entries`: the balance of a validator is split into its wallet
stake and the rest. -/
def restoreSnapshotBalanceLedgerEntries (item : String × BalanceRow)
    (validators : List (String × SnapshotValidator)) (blockHeight : ℤ)
    (snapshotHash timestamp : String) : List LedgerEntry :=
  let accountId := item.1
  let accountType := item.2.accountType
  let balanceUnits := item.2.balanceUnits
  if accountType ≠ "validator" then
    [snapshotBalanceLedgerEntry accountId accountType balanceUnits balanceUnits
      "snapshot_state_import" blockHeight snapshotHash "canonical snapshot state import" timestamp]
  else
    let walletStakeUnits := min balanceUnits
      (((validators.lookup accountId).map SnapshotValidator.walletStakeLockedUnits).getD 0)
    let remainingUnits := balanceUnits - walletStakeUnits
    (if walletStakeUnits ≠ 0 then
      [snapshotBalanceLedgerEntry accountId accountType walletStakeUnits walletStakeUnits
        "validator_stake_lock" blockHeight snapshotHash
        "canonical snapshot validator wallet stake import" timestamp]
      else []) ++
    (if remainingUnits ≠ 0 then
      [snapshotBalanceLedgerEntry accountId accountType remainingUnits
        (walletStakeUnits + remainingUnits) "snapshot_state_import" blockHeight snapshotHash
        "canonical snapshot validator state import" timestamp]
      else [])

/-- The row that `_restore_snapshot_validator` writes. -/
def restoreSnapshotValidator (timestamp : String) (v : SnapshotValidator) : ValidatorRow where
  name := v.name
  publicKey := v.publicKey
  rewardAddress := v.rewardAddress
  registeredAt := textOr (some v.registeredAt) timestamp
  acceptedJobs := v.acceptedJobs
  rejectedJobs := v.rejectedJobs
  invalidResults := v.invalidResults
  trustScore := amountDec v.trustScore
  cooldownUntil := v.cooldownUntil
  lastSeenAt := none
  totalValidationMs := v.totalValidationMs
  stakeLocked := unitsToFloat v.stakeLockedUnits
  walletStakeLocked := unitsToFloat v.walletStakeLockedUnits
  stakeOwnerAddress := v.stakeOwnerAddress
  slashedAmount := unitsToFloat v.slashedAmountUnits
  isBanned := v.isBanned
  enabled := v.enabled
  protocolVersion := some v.protocolVersion

/-- The row that `_restore_snapshot_protocol_params` writes. -/
def restoreSnapshotProtocolParams (now : String) (row : ProtocolParamsRow) : ProtocolParamsRow :=
  { row with createdAt := textOr (some row.createdAt) now }

/-- The row that `_restore_snapshot_retarget_event` writes. -/
def restoreSnapshotRetargetEvent (now : String) (row : RetargetEventRow) : RetargetEventRow :=
  { row with createdAt := textOr (some row.createdAt) now }

/-- The row that `_restore_snapshot_pending_reward` writes. -/
def restoreSnapshotPendingReward (now : String) (row : RewardRow) : RewardRow :=
  { row with createdAt := textOr (some row.createdAt) now }

/-- `INSERT` the rows one after the other. -/
def insertRows {κ ρ : Type} [DecidableEq κ] (table : String) (t : Sql.Table κ ρ)
    (rows : List (κ × ρ)) : Except SnapshotError (Sql.Table κ ρ) :=
  match t.insertAll? rows with
  | none => .error (.integrity ("UNIQUE constraint failed: " ++ table))
  | some t' => .ok t'

theorem insertRows_eq_ok {κ ρ : Type} [DecidableEq κ] {table : String} {t t' : Sql.Table κ ρ}
    {rows : List (κ × ρ)} :
    insertRows table t rows = .ok t' ↔ t.insertAll? rows = some t' := by
  unfold insertRows
  cases t.insertAll? rows <;> simp

/-! ## The restore -/

/-- The rows of a document as they are restored. -/
structure RestoredRows where
  balances : List (String × BalanceRow)
  nonces : List (String × ℤ)
  validators : List (String × SnapshotValidator)
  protocolParams : List (ℤ × ProtocolParamsRow)
  retargetEvents : List (ℤ × RetargetEventRow)
  pendingRewards : List (ℤ × RewardRow)

/-- Normalize the lists of a document for the restore. -/
def restoredRows (cfg : Config) (doc : SnapshotDocument) : Except String RestoredRows := do
  let balances ← normalizeSnapshotBalancesWithType (listOrEmpty doc.balances)
  let nonces ← normalizeSnapshotNonces (listOrEmpty doc.nonces)
  let validators ← normalizeSnapshotValidators cfg (listOrEmpty doc.validators)
  let protocolParams ← normalizeSnapshotProtocolParams cfg (listOrEmpty doc.protocolParams)
  let retargetEvents ← normalizeSnapshotRetargetEvents (listOrEmpty doc.retargetEvents)
  let pendingRewards ← normalizeSnapshotPendingRewards (listOrEmpty doc.pendingRewards)
  return { balances, nonces, validators, protocolParams, retargetEvents, pendingRewards }

/-- Write the rows into the tables. -/
def restoreRows (timestamp : String) (s : NodeState) (cp : Checkpoint) (rows : RestoredRows) :
    Except SnapshotError NodeState := do
  let entries := rows.balances.flatMap fun item =>
    restoreSnapshotBalanceLedgerEntries item rows.validators cp.height (cp.snapshotHash.getD "")
      timestamp
  let balances ← insertRows "balances.account_id" .empty rows.balances
  let accountNonces ← insertRows "account_nonces.account_id" .empty rows.nonces
  let protocolParams ← insertRows "protocol_params.id"
    (clearIf rows.protocolParams s.chain.protocolParams)
    (rows.protocolParams.map fun r => (r.1, restoreSnapshotProtocolParams timestamp r.2))
  let retargetEvents ← insertRows "retarget_events.id"
    (clearIf rows.protocolParams s.chain.retargetEvents)
    (rows.retargetEvents.map fun r => (r.1, restoreSnapshotRetargetEvent timestamp r.2))
  let rewards ← insertRows "rewards.id" .empty
    (rows.pendingRewards.map fun r => (r.1, restoreSnapshotPendingReward timestamp r.2))
  let validators := rows.validators.foldl
    (fun t r => t.upsert r.1 (restoreSnapshotValidator timestamp r.2))
    (clearIf rows.validators s.validators)
  return { s with
    ledger := ⟨balances, entries⟩
    accountNonces
    validators
    chain := { s.chain with rewards, protocolParams, retargetEvents } }

/-- `apply_imported_snapshot_state` on an imported document, at a time. -/
def applyImportedSnapshotState (cfg : Config) (timestamp : String) (s : NodeState)
    (doc : SnapshotDocument) (replaceExisting : Bool) : Except SnapshotError NodeState := do
  if s.chain.blocks.rows ≠ [] ∧ replaceExisting = false then
    .error (.state 409 "cannot apply snapshot state after local blocks exist")
  else if doc.valid cfg = false then
    .error (.state 422 ("invalid imported snapshot: " ++ ", ".intercalate (doc.issues cfg)))
  else
    let rows ← raiseValue (restoredRows cfg doc)
    restoreRows timestamp (if replaceExisting then clearLocalChainState s else s) doc.checkpoint rows

end Picoin
