import Picoin.Lib.Outcome
import Picoin.Lib.Run
import Picoin.Services.Rejection
import Picoin.Services.Snapshot.Export

/-!
# Canonical checkpoints

A node keeps a checkpoint for some of its heights: the hashes and the counts of the rows that a
snapshot of that height would have. Verification computes them again from the tables and reports
what no longer matches. The balances and the pending rewards are those of the height; the nonces,
the validators, the protocol parameters and the retarget events are read as they are.

The recomputed values that a verification also returns are read by no other code, and the columns
that only say who made a checkpoint and when are left out.
-/

namespace Picoin

open Run

/-- A node with its `canonical_checkpoints`, under their heights. -/
structure CheckpointedNode where
  node : NodeState
  canonicalCheckpoints : Sql.Table ℤ Checkpoint

/-! ## Creation -/

/-- `create_canonical_checkpoint_in_connection`, with the block's state root written. -/
def createCanonicalCheckpoint (cfg : Config) (n : CheckpointedNode) (height : ℤ) :
    Except SnapshotError CheckpointedNode :=
  if height ≤ 0 then .error (.state 422 "checkpoint height must be a mined block height")
  else
    match n.node.chain.blocks.find? height with
    | none => .error (.state 404 "block not found for checkpoint")
    | some block => do
      let stateRoot ← blockStateRoot cfg n.node.ledger height block
      let rows ← snapshotRows cfg n.node height block.timestamp
      let blocks := n.node.chain.blocks.modify height fun b => { b with stateRoot := some stateRoot }
      return {
        node := { n.node with chain := { n.node.chain with blocks } }
        canonicalCheckpoints := n.canonicalCheckpoints.upsert height
          (exportCheckpoint cfg n.node height block stateRoot rows) }

/-! ## Verification -/

/-- What `verify_checkpoint` reports. -/
structure CheckpointReport where
  height : ℤ
  checkpoint : Checkpoint
  issues : List String

def CheckpointReport.valid (report : CheckpointReport) : Bool := report.issues.isEmpty

/-- `int(total_balance_units or to_units(total_balance))` of a stored checkpoint. -/
def Checkpoint.storedTotalUnits (cp : Checkpoint) : ℤ :=
  if cp.totalBalanceUnits ≠ 0 then cp.totalBalanceUnits else toUnits cp.totalBalance

/-- The lists that a stored checkpoint commits to. -/
def committedSections (cfg : Config) (cp : Checkpoint) (height : ℤ) (rows : NormalizedSnapshot) :
    List Section :=
  (rows.sections cfg { cp with height } none).filter fun s => isSet s.stored.hash

/-- The issues of a stored checkpoint, against the rows and what a checkpoint of them says. -/
def checkpointIssues (cfg : Config) (cp computed : Checkpoint) (rows : NormalizedSnapshot) :
    List String :=
  let sections := committedSections cfg cp computed.height rows
  let payload := payloadJson computed (balancesHash cfg computed.height rows.balances)
    rows.balances.length rows.totalBalanceUnits (sections.flatMap Section.fields)
  SnapshotDocument.issueUnless (cp.blockHash = computed.blockHash) "block_hash mismatch" ++
    SnapshotDocument.issueUnless (cp.previousHash = computed.previousHash)
      "previous_hash mismatch" ++
    SnapshotDocument.issueUnless (cp.stateRoot = computed.stateRoot) "state_root mismatch" ++
    SnapshotDocument.issueUnless (cp.balancesHash = computed.balancesHash)
      "balances_hash mismatch" ++
    SnapshotDocument.issueUnless (cp.balancesCount = computed.balancesCount)
      "balances_count mismatch" ++
    SnapshotDocument.issueUnless (cp.ledgerEntriesCount = computed.ledgerEntriesCount)
      "ledger_entries_count mismatch" ++
    SnapshotDocument.issueUnless (cp.storedTotalUnits = rows.totalBalanceUnits)
      "total_balance mismatch" ++
    sections.flatMap Section.issues ++
    SnapshotDocument.issueUnless (cp.snapshotHash = some (cfg.hashJson payload))
      "snapshot_hash mismatch"

/-- `verify_checkpoint`. -/
def verifyCheckpoint (cfg : Config) (n : CheckpointedNode) (height : ℤ) :
    Except SnapshotError CheckpointReport :=
  match n.canonicalCheckpoints.find? height with
  | none => .error (.state 404 "checkpoint not found")
  | some cp =>
    match n.node.chain.blocks.find? height with
    | none => .error (.state 404 "checkpoint block not found")
    | some block => do
      let rows ← snapshotRows cfg n.node height block.timestamp
      let stateRoot ← calculateStateRoot cfg n.node.ledger height (some block.timestamp)
      let computed := unhashedCheckpoint cfg n.node height block stateRoot rows
      return ⟨height, cp, checkpointIssues cfg cp computed rows⟩

/-! ## What a node writes -/

/-- One statement that a node without reorg and restore issues against its tables: an operation is
a sequence of these. `other` stands for the tables that no checkpoint reads. -/
inductive TableWrite where
  /-- `INSERT INTO ledger_entries`. -/
  | ledgerEntry (entry : LedgerEntry)
  /-- `_record_confirmed_nonce`. -/
  | confirmedNonce (sender : String) (nonce : ℤ)
  /-- `INSERT INTO validators` and `UPDATE validators`. -/
  | validator (validatorId : String) (row : ValidatorRow)
  /-- `DELETE FROM validators`, row by row. -/
  | removeValidator (validatorId : String)
  /-- `INSERT INTO protocol_params` and `UPDATE protocol_params`. -/
  | protocolParams (id : ℤ) (row : ProtocolParamsRow)
  /-- `INSERT INTO retarget_events`. -/
  | retargetEvent (id : ℤ) (row : RetargetEventRow)
  /-- `INSERT INTO rewards` and `UPDATE rewards`. -/
  | reward (id : ℤ) (row : RewardRow)
  /-- `INSERT INTO blocks` and `UPDATE blocks`. -/
  | block (height : ℤ) (row : BlockRow)
  /-- `create_canonical_checkpoint_in_connection`. -/
  | checkpoint (height : ℤ)
  | other (balances : Sql.Table String BalanceRow) (mempool : Sql.Table String MempoolRow)
      (science : ScienceTables) (treasury : TreasuryTables)

/-- The tables after a write; a checkpoint that cannot be made changes nothing. -/
def TableWrite.apply (cfg : Config) (n : CheckpointedNode) : TableWrite → CheckpointedNode
  | .ledgerEntry entry =>
    { n with
      node.ledger := { n.node.ledger with entries := n.node.ledger.entries ++ [entry] } }
  | .confirmedNonce sender nonce =>
    { n with node.accountNonces := recordConfirmedNonce n.node.accountNonces sender nonce }
  | .validator validatorId row =>
    { n with node.validators := n.node.validators.upsert validatorId row }
  | .removeValidator validatorId =>
    { n with node.validators := n.node.validators.filterRows fun id _ => id ≠ validatorId }
  | .protocolParams id row =>
    { n with node.chain.protocolParams := n.node.chain.protocolParams.upsert id row }
  | .retargetEvent id row =>
    { n with node.chain.retargetEvents := n.node.chain.retargetEvents.upsert id row }
  | .reward id row => { n with node.chain.rewards := n.node.chain.rewards.upsert id row }
  | .block height row => { n with node.chain.blocks := n.node.chain.blocks.upsert height row }
  | .checkpoint height => attempt (createCanonicalCheckpoint cfg n height) n
  | .other balances mempool science treasury =>
    { n with
      node := { n.node with
        ledger := { n.node.ledger with balances }
        mempool
        science
        treasury } }

end Picoin
