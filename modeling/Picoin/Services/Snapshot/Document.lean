import Picoin.Services.Snapshot.ChainRows

/-!
# Snapshot documents and their validation

A document consists of a checkpoint and the six lists of rows. The checkpoint commits to each list
by the hash and the number of its normalized rows, and to itself by the snapshot hash. Validation
normalizes the lists, recomputes the hashes and reports everything that does not match. The
recomputed values that it also returns are read by no other code and are left out.
-/

namespace Picoin

open Decimal Json

/-! ## Documents -/

/-- What a checkpoint says of a list that older checkpoints do not commit to. -/
structure SectionCommitment where
  hash : Option String
  count : Option ℤ
deriving DecidableEq

/-- The checkpoint of a document. `keys` are the keys of the dict; a number that is absent reads
as zero. -/
structure Checkpoint where
  keys : List String
  chainId : Option ChainId
  networkId : Option String
  genesisHash : Option String
  protocolVersion : Option String
  height : ℤ
  blockHash : Option String
  previousHash : Option String
  stateRoot : Option String
  balancesHash : Option String
  balancesCount : ℤ
  nonces : SectionCommitment
  validators : SectionCommitment
  protocolParams : SectionCommitment
  retargetEvents : SectionCommitment
  pendingRewards : SectionCommitment
  ledgerEntriesCount : ℤ
  totalBalance : Dec
  totalBalanceUnits : ℤ
  snapshotHash : Option String

/-- A snapshot document; a list is `none` where the document has something else. -/
structure SnapshotDocument where
  type : Option String
  snapshotVersion : ℤ
  checkpoint : Checkpoint
  balances : Option (List RawBalance)
  nonces : Option (List RawNonce)
  validators : Option (List RawValidator)
  protocolParams : Option (List RawProtocolParams)
  retargetEvents : Option (List RawRetargetEvent)
  pendingRewards : Option (List RawPendingReward)

def snapshotDocumentType : String := "picoin_canonical_snapshot"

def requiredCheckpointFields : List String :=
  ["chain_id", "network_id", "genesis_hash", "protocol_version", "height", "block_hash",
    "previous_hash", "state_root", "balances_hash", "balances_count", "total_balance",
    "snapshot_hash"]

/-- `sorted(required - set(checkpoint))`. -/
def Checkpoint.missingFields (cp : Checkpoint) : List String :=
  (requiredCheckpointFields.filter fun key => key ∉ cp.keys).mergeSort (· ≤ ·)

/-- The truth value of a text that may be absent. -/
def isSet (text : Option String) : Bool := text.getD "" ≠ ""

/-! ## Normalized lists -/

/-- The rows of a document as they are hashed. -/
structure NormalizedSnapshot where
  balances : List (AccountKey × ℤ)
  nonces : List (String × ℤ)
  validators : List (String × SnapshotValidator)
  protocolParams : List (ℤ × ProtocolParamsRow)
  retargetEvents : List (ℤ × RetargetEventRow)
  pendingRewards : List (ℤ × RewardRow)

/-- The text of the `ValueError`, if one is raised. -/
def errorIssues {α : Type} : Except String α → List String
  | .ok _ => []
  | .error message => [message]

/-- The rows of a list; none when it cannot be normalized. -/
def rowsOrEmpty {α : Type} : Except String (List α) → List α
  | .ok rows => rows
  | .error _ => []

/-- A list of a document that is missing or no list counts as empty. -/
def listOrEmpty {α : Type} (items : Option (List α)) : List α := items.getD []

namespace SnapshotDocument

/-- The normalized rows of a document; a list that cannot be normalized counts as empty. -/
def normalized (cfg : Config) (doc : SnapshotDocument) : NormalizedSnapshot where
  balances := rowsOrEmpty (normalizeSnapshotBalances (listOrEmpty doc.balances))
  nonces := rowsOrEmpty (normalizeSnapshotNonces (listOrEmpty doc.nonces))
  validators := rowsOrEmpty (normalizeSnapshotValidators cfg (listOrEmpty doc.validators))
  protocolParams :=
    rowsOrEmpty (normalizeSnapshotProtocolParams cfg (listOrEmpty doc.protocolParams))
  retargetEvents := rowsOrEmpty (normalizeSnapshotRetargetEvents (listOrEmpty doc.retargetEvents))
  pendingRewards := rowsOrEmpty (normalizeSnapshotPendingRewards (listOrEmpty doc.pendingRewards))

/-- The errors of the normalizations. -/
def normalizationIssues (cfg : Config) (doc : SnapshotDocument) : List String :=
  errorIssues (normalizeSnapshotBalances (listOrEmpty doc.balances)) ++
    errorIssues (normalizeSnapshotNonces (listOrEmpty doc.nonces)) ++
    errorIssues (normalizeSnapshotValidators cfg (listOrEmpty doc.validators)) ++
    errorIssues (normalizeSnapshotProtocolParams cfg (listOrEmpty doc.protocolParams)) ++
    errorIssues (normalizeSnapshotRetargetEvents (listOrEmpty doc.retargetEvents)) ++
    errorIssues (normalizeSnapshotPendingRewards (listOrEmpty doc.pendingRewards))

end SnapshotDocument

/-! ## Hashes -/

/-- The hash of a list of rows at a height. -/
def sectionHash (cfg : Config) (height : ℤ) (name : String) (rows : List Value) : String :=
  cfg.hashJson (.obj [("height", .int height), (name, .arr rows)])

/-- The hash of balances, which is also the state root. -/
def balancesHash (cfg : Config) (height : ℤ) (balances : List (AccountKey × ℤ)) : String :=
  sectionHash cfg height "balances" (balances.map balanceJson)

/-- `_raw_snapshot_validators_hash`: over the dicts as they are. -/
def rawSnapshotValidatorsHash (cfg : Config) (height : ℤ) (validators : List RawValidator) :
    Option String :=
  let raw := validators.foldl (fun (t : Sql.Table String Value) item =>
    let validatorId := clean item.validatorId
    if validatorId = "" then t else t.upsert validatorId item.raw) .empty
  match raw.sorted with
  | [] => none
  | rows => some (sectionHash cfg height "validators" (rows.map Prod.snd))

/-- An optional list: what the checkpoint says of it, the hash of its normalized rows, another hash
that is accepted in its place, and the number of its rows. -/
structure Section where
  name : String
  stored : SectionCommitment
  hash : String
  otherHash : Option String
  count : ℕ

namespace Section

/-- The stored hash is one of the recomputed ones. -/
def matchesHash (s : Section) : Bool := s.stored.hash = some s.hash || s.stored.hash = s.otherHash

/-- The hash that goes into the payload. -/
def payloadHash (s : Section) : String :=
  if isSet s.stored.hash ∧ s.matchesHash then s.stored.hash.getD "" else s.hash

/-- The list is part of the payload. -/
def inPayload (s : Section) : Bool := isSet s.stored.hash || s.count ≠ 0

def issues (s : Section) : List String :=
  if isSet s.stored.hash then
    (if s.matchesHash then [] else [s.name ++ "_hash mismatch"]) ++
      (if s.stored.count = some (s.count : ℤ) then [] else [s.name ++ "_count mismatch"])
  else []

/-- The fields that a checkpoint has for a list. -/
def fields (s : Section) : List (String × Value) :=
  [(s.name ++ "_hash", .str s.hash), (s.name ++ "_count", .int s.count)]

/-- The fields that a document's checkpoint must have had for a list. -/
def payloadFields (s : Section) : List (String × Value) :=
  if s.inPayload then { s with hash := s.payloadHash }.fields else []

end Section

/-- The dict that the snapshot hash is over. Canonical JSON sorts the keys. -/
def payloadJson (cp : Checkpoint) (balancesHash : String) (balancesCount : ℕ)
    (totalBalanceUnits : ℤ) (sectionFields : List (String × Value)) : Value :=
  .obj ([("chain_id", cp.chainId.elim .null ChainId.toJson), ("network_id", .optStr cp.networkId),
    ("genesis_hash", .optStr cp.genesisHash), ("protocol_version", .optStr cp.protocolVersion),
    ("height", .int cp.height), ("block_hash", .optStr cp.blockHash),
    ("previous_hash", .optStr cp.previousHash), ("state_root", .optStr cp.stateRoot),
    ("balances_hash", .str balancesHash), ("balances_count", .int balancesCount),
    ("ledger_entries_count", .int cp.ledgerEntriesCount),
    ("total_balance", .float (unitsToFloat totalBalanceUnits)),
    ("total_balance_units", .int totalBalanceUnits)] ++ sectionFields)

/-! ## Validation -/

namespace NormalizedSnapshot

/-- The five optional lists, under the commitments of a checkpoint. -/
def sections (n : NormalizedSnapshot) (cfg : Config) (cp : Checkpoint)
    (rawValidatorsHash : Option String) : List Section :=
  [⟨"nonces", cp.nonces, sectionHash cfg cp.height "nonces" (n.nonces.map nonceJson), none,
      n.nonces.length⟩,
    ⟨"validators", cp.validators,
      sectionHash cfg cp.height "validators" (n.validators.map validatorJson), rawValidatorsHash,
      n.validators.length⟩,
    ⟨"protocol_params", cp.protocolParams,
      sectionHash cfg cp.height "protocol_params" (n.protocolParams.map protocolParamsJson), none,
      n.protocolParams.length⟩,
    ⟨"retarget_events", cp.retargetEvents,
      sectionHash cfg cp.height "retarget_events" (n.retargetEvents.map retargetEventJson), none,
      n.retargetEvents.length⟩,
    ⟨"pending_rewards", cp.pendingRewards,
      sectionHash cfg cp.height "pending_rewards" (n.pendingRewards.map pendingRewardJson), none,
      n.pendingRewards.length⟩]

def totalBalanceUnits (n : NormalizedSnapshot) : ℤ := (n.balances.map Prod.snd).sum

end NormalizedSnapshot

namespace SnapshotDocument

/-- The optional lists of a document. -/
def sections (cfg : Config) (doc : SnapshotDocument) : List Section :=
  (doc.normalized cfg).sections cfg doc.checkpoint
    (rawSnapshotValidatorsHash cfg doc.checkpoint.height (listOrEmpty doc.validators))

/-- The recomputed hash of the balances. -/
def computedBalancesHash (cfg : Config) (doc : SnapshotDocument) : String :=
  balancesHash cfg doc.checkpoint.height (doc.normalized cfg).balances

/-- The recomputed snapshot hash. -/
def computedSnapshotHash (cfg : Config) (doc : SnapshotDocument) : String :=
  cfg.hashJson (payloadJson doc.checkpoint (doc.computedBalancesHash cfg)
    (doc.normalized cfg).balances.length (doc.normalized cfg).totalBalanceUnits
    ((doc.sections cfg).flatMap Section.payloadFields))

/-- `int(total_balance_units or to_units(total_balance or 0))`. -/
def statedTotalUnits (doc : SnapshotDocument) : ℤ :=
  if doc.checkpoint.totalBalanceUnits ≠ 0 then doc.checkpoint.totalBalanceUnits
  else toUnits doc.checkpoint.totalBalance

/-- `int(balances_count or -1)`. -/
def statedBalancesCount (doc : SnapshotDocument) : ℤ :=
  if doc.checkpoint.balancesCount ≠ 0 then doc.checkpoint.balancesCount else -1

/-- Report the issue if the check fails. -/
def issueUnless (check : Bool) (issue : String) : List String := if check then [] else [issue]

theorem issueUnless_eq_nil {check : Bool} {issue : String} :
    issueUnless check issue = [] ↔ check = true := by
  cases check <;> simp [issueUnless]

/-- The checks on the frame of the document. -/
def frameIssues (cfg : Config) (doc : SnapshotDocument) : List String :=
  issueUnless (doc.type = some snapshotDocumentType) "invalid snapshot type" ++
    issueUnless (doc.snapshotVersion = 1) "unsupported snapshot version" ++
    issueUnless doc.balances.isSome "balances must be a list" ++
    issueUnless doc.nonces.isSome "nonces must be a list" ++
    issueUnless doc.validators.isSome "validators must be a list" ++
    issueUnless doc.protocolParams.isSome "protocol_params must be a list" ++
    issueUnless doc.retargetEvents.isSome "retarget_events must be a list" ++
    issueUnless doc.pendingRewards.isSome "pending_rewards must be a list" ++
    issueUnless (doc.checkpoint.missingFields = [])
      ("missing checkpoint fields: " ++ ", ".intercalate doc.checkpoint.missingFields) ++
    issueUnless (doc.checkpoint.chainId = some cfg.chainId) "chain_id mismatch" ++
    issueUnless (doc.checkpoint.networkId = some cfg.networkId) "network_id mismatch" ++
    issueUnless (doc.checkpoint.genesisHash = some cfg.genesisHash) "genesis_hash mismatch"

/-- The checks of the checkpoint against the rows. -/
def commitmentIssues (cfg : Config) (doc : SnapshotDocument) : List String :=
  issueUnless (doc.checkpoint.balancesHash = some (doc.computedBalancesHash cfg))
      "balances_hash mismatch" ++
    issueUnless (doc.checkpoint.stateRoot = some (doc.computedBalancesHash cfg))
      "state_root mismatch" ++
    issueUnless (doc.statedBalancesCount = (doc.normalized cfg).balances.length)
      "balances_count mismatch" ++
    (doc.sections cfg).flatMap Section.issues ++
    issueUnless (doc.statedTotalUnits = (doc.normalized cfg).totalBalanceUnits)
      "total_balance mismatch" ++
    issueUnless (doc.checkpoint.snapshotHash = some (doc.computedSnapshotHash cfg))
      "snapshot_hash mismatch"

/-- The issues that `validate_snapshot_document` reports. -/
def issues (cfg : Config) (doc : SnapshotDocument) : List String :=
  doc.frameIssues cfg ++ doc.normalizationIssues cfg ++
    issueUnless ((doc.normalized cfg).pendingRewards.all fun r =>
      doc.checkpoint.height < r.2.maturesAtHeight.getD 0)
      "pending reward matures_at_height must be after snapshot height" ++
    doc.commitmentIssues cfg

/-- `validate_snapshot_document(document)["valid"]`. -/
def valid (cfg : Config) (doc : SnapshotDocument) : Bool := (doc.issues cfg).isEmpty

end SnapshotDocument

end Picoin
