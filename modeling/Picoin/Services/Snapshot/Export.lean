import Picoin.Db.Schema
import Picoin.Services.Ledger
import Picoin.Services.Snapshot.Document

/-!
# The export of a snapshot

The canonical balances of a height are summed up from the ledger entries, by account and by the
account type of the entries. The checkpoint hashes them as they are; the exported rows carry the
account type of the `balances` table instead.
-/

namespace Picoin

open Decimal Json

/-- What the state module raises. -/
inductive SnapshotError where
  | state (statusCode : ℕ) (detail : String)
  | value (message : String)
  | integrity (message : String)
deriving DecidableEq

/-- Pass a `ValueError` on. -/
def raiseValue {α : Type} : Except String α → Except SnapshotError α
  | .ok a => .ok a
  | .error message => .error (.value message)

/-! ## Balances and the state root -/

/-- `account_type or _infer_account_type(account_id)` of an entry, with its amount. -/
def LedgerEntry.keyed (e : LedgerEntry) : AccountKey × ℤ :=
  (⟨e.accountId, if e.accountType = "" then inferAccountType e.accountId else e.accountType⟩,
    e.amountUnits)

/-- The entry belongs to the blocks up to the height, or to none but was made by then. -/
def LedgerEntry.includedAt (blockHeight : ℤ) (blockTimestamp : Option String) (e : LedgerEntry) :
    Bool :=
  match e.blockHeight, blockTimestamp with
  | some h, _ => h ≤ blockHeight
  | none, some timestamp => e.createdAt ≤ timestamp
  | none, none => false

/-- The entries that count at a height. -/
def Ledger.includedEntries (l : Ledger) (blockHeight : ℤ) (blockTimestamp : Option String) :
    List LedgerEntry :=
  l.entries.filter (LedgerEntry.includedAt blockHeight blockTimestamp)

/-- `canonical_balance_snapshot`. The sums do not depend on the order of the entries. -/
def canonicalBalanceSnapshot (l : Ledger) (blockHeight : ℤ) (blockTimestamp : Option String) :
    Except SnapshotError (List (AccountKey × ℤ)) :=
  if blockHeight < 0 then .error (.value "block_height must be >= 0")
  else .ok (Sql.groupSum ((l.includedEntries blockHeight blockTimestamp).map LedgerEntry.keyed))

/-- `calculate_state_root`. -/
def calculateStateRoot (cfg : Config) (l : Ledger) (blockHeight : ℤ)
    (blockTimestamp : Option String) : Except SnapshotError String := do
  let balances ← canonicalBalanceSnapshot l blockHeight blockTimestamp
  return balancesHash cfg blockHeight balances

/-! ## The other lists -/

/-- `account_nonce_snapshot`. -/
def accountNonceSnapshot (nonces : Sql.Table String ℤ) : List (String × ℤ) :=
  nonces.sorted.filter fun r => 0 < r.2

/-- `validator_snapshot`. -/
def validatorSnapshot (cfg : Config) (validators : Sql.Table String ValidatorRow) :
    Except String (List (String × SnapshotValidator)) :=
  validators.sorted.mapM fun r => normalizeValidatorSnapshotRow cfg (r.2.toRaw r.1)

/-- `protocol_params_snapshot`. -/
def protocolParamsSnapshot (cfg : Config) (protocolParams : Sql.Table ℤ ProtocolParamsRow) :
    Except String (List (ℤ × ProtocolParamsRow)) :=
  protocolParams.sorted.mapM fun r => normalizeProtocolParamsSnapshotRow cfg (r.2.toRaw r.1)

/-- `retarget_events_snapshot`. -/
def retargetEventsSnapshot (retargetEvents : Sql.Table ℤ RetargetEventRow) :
    Except String (List (ℤ × RetargetEventRow)) :=
  retargetEvents.sorted.mapM fun r => normalizeRetargetEventSnapshotRow (r.2.toRaw r.1)

/-- The reward is earned by the height, matures after it and is not orphaned. -/
def RewardRow.pendingAt (blockHeight : ℤ) (row : RewardRow) : Bool :=
  row.blockHeight ≤ blockHeight && row.maturesAtHeight.any (blockHeight < ·) &&
    row.orphanedAt.getD "" = ""

/-- The pending rewards, ordered by the height they mature at and then by id. -/
def orderedPendingRewards (rewards : Sql.Table ℤ RewardRow) (blockHeight : ℤ) :
    List (ℤ × RewardRow) :=
  (rewards.rows.filter fun r => r.2.pendingAt blockHeight).insertionSort fun a b =>
    a.2.maturesAtHeight.getD 0 < b.2.maturesAtHeight.getD 0 ∨
      (a.2.maturesAtHeight.getD 0 = b.2.maturesAtHeight.getD 0 ∧ a.1 ≤ b.1)

/-- `pending_rewards_snapshot`. -/
def pendingRewardsSnapshot (rewards : Sql.Table ℤ RewardRow) (blockHeight : ℤ) :
    Except String (List (ℤ × RewardRow)) :=
  (orderedPendingRewards rewards blockHeight).mapM fun r =>
    normalizePendingRewardSnapshotRow (r.2.toRaw r.1)

/-! ## The document -/

/-- The rows that the checkpoint of an export hashes, in the order of the queries. -/
def snapshotRows (cfg : Config) (s : NodeState) (height : ℤ) (timestamp : String) :
    Except SnapshotError NormalizedSnapshot := do
  let balances ← canonicalBalanceSnapshot s.ledger height (some timestamp)
  let validators ← raiseValue (validatorSnapshot cfg s.validators)
  let protocolParams ← raiseValue (protocolParamsSnapshot cfg s.chain.protocolParams)
  let retargetEvents ← raiseValue (retargetEventsSnapshot s.chain.retargetEvents)
  let pendingRewards ← raiseValue (pendingRewardsSnapshot s.chain.rewards height)
  return { balances, nonces := accountNonceSnapshot s.accountNonces, validators, protocolParams
           retargetEvents, pendingRewards }

/-- The commitment to a list of rows. -/
def commitTo (cfg : Config) (height : ℤ) (name : String) (rows : List Value) : SectionCommitment :=
  ⟨some (sectionHash cfg height name rows), some rows.length⟩

/-- The keys of the dict that `create_canonical_checkpoint_in_connection` stores. -/
def exportedCheckpointKeys : List String :=
  ["chain_id", "network_id", "genesis_hash", "protocol_version", "height", "block_hash",
    "previous_hash", "state_root", "balances_hash", "balances_count", "nonces_hash",
    "nonces_count", "validators_hash", "validators_count", "protocol_params_hash",
    "protocol_params_count", "retarget_events_hash", "retarget_events_count",
    "pending_rewards_hash", "pending_rewards_count", "ledger_entries_count", "total_balance",
    "total_balance_units", "snapshot_hash"]

/-- The checkpoint of a block for the rows, without its snapshot hash. -/
def unhashedCheckpoint (cfg : Config) (s : NodeState) (height : ℤ) (block : BlockRow)
    (stateRoot : String) (rows : NormalizedSnapshot) : Checkpoint where
  keys := exportedCheckpointKeys
  chainId := some cfg.chainId
  networkId := some cfg.networkId
  genesisHash := some cfg.genesisHash
  protocolVersion := some cfg.protocolVersion
  height
  blockHash := some block.blockHash
  previousHash := some block.previousHash
  stateRoot := some stateRoot
  balancesHash := some (balancesHash cfg height rows.balances)
  balancesCount := rows.balances.length
  nonces := commitTo cfg height "nonces" (rows.nonces.map nonceJson)
  validators := commitTo cfg height "validators" (rows.validators.map validatorJson)
  protocolParams :=
    commitTo cfg height "protocol_params" (rows.protocolParams.map protocolParamsJson)
  retargetEvents :=
    commitTo cfg height "retarget_events" (rows.retargetEvents.map retargetEventJson)
  pendingRewards :=
    commitTo cfg height "pending_rewards" (rows.pendingRewards.map pendingRewardJson)
  ledgerEntriesCount := (s.ledger.includedEntries height (some block.timestamp)).length
  totalBalance := canonicalDec rows.totalBalanceUnits
  totalBalanceUnits := rows.totalBalanceUnits
  snapshotHash := none

/-- The checkpoint with its snapshot hash. -/
def exportCheckpoint (cfg : Config) (s : NodeState) (height : ℤ) (block : BlockRow)
    (stateRoot : String) (rows : NormalizedSnapshot) : Checkpoint :=
  let cp := unhashedCheckpoint cfg s height block stateRoot rows
  let payload := payloadJson cp (balancesHash cfg height rows.balances) rows.balances.length
    rows.totalBalanceUnits ((rows.sections cfg cp none).flatMap Section.fields)
  { cp with snapshotHash := some (cfg.hashJson payload) }

/-- `block.get("state_root") or update_block_state_root(…)`. -/
def blockStateRoot (cfg : Config) (l : Ledger) (height : ℤ) (block : BlockRow) :
    Except SnapshotError String :=
  match block.stateRoot with
  | some root =>
    if root = "" then calculateStateRoot cfg l height (some block.timestamp) else .ok root
  | none => calculateStateRoot cfg l height (some block.timestamp)

end Picoin
