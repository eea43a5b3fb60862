import Picoin.Db.Mining
import Picoin.Services.ValidatorClient

/-!
# Imported blocks

A block that another node mined comes as JSON, and `_import_finalized_block` appends it to the local
chain. Its finality certificate, if it has one, is checked against the block and against itself:
the required number of approvals, the votes and the keys that verify them are all the block's own.

* **`validateFinalityCertificate`** is the check of a certificate;
* **`importFinalizedBlock`** appends a block to the chain and stores its certificate.
-/

namespace Picoin

open Json Outcome

variable {σ : Type}

/-! ## Tables -/

/-- A row of `blocks`, as far as an import reads it. -/
structure ChainBlockRow where
  height : ℤ
  blockHash : String
  resultHash : String
  taskId : String
deriving DecidableEq

/-- A row of `finality_certificates`, under the height of its block. -/
structure FinalityCertificateRow where
  blockHash : String
  taskId : String
  jobId : String
  certificateHash : String
  requiredApprovals : ℤ
  approvalCount : ℤ
  payload : Value
  votes : List Value

inductive HeaderStatus where
  | pendingReplay
  | pendingMissingAncestors
  | skippedPreSnapshot
  | imported
  | known
deriving DecidableEq

/-- A row of `network_block_headers`, under its block hash; the payload is the decoded text. -/
structure HeaderRow where
  height : ℤ
  previousHash : String
  status : HeaderStatus
  payload : Value
  receivedAt : String

inductive ProposalStatus where
  | known
  | pending
  | pendingMissingAncestors
  | finalized
  | imported
  | rejected
deriving DecidableEq

/-- A row of `consensus_block_proposals`, under its block hash, with the column `imported` of its
row of `consensus_finalizations`, if it has one. -/
structure ProposalRow where
  proposalId : String
  height : ℤ
  previousHash : String
  status : ProposalStatus
  payload : Value
  finalization : Option Bool
  createdAt : String
  updatedAt : String

/-- A row of `consensus_votes`. -/
structure ConsensusVoteRow where
  proposalId : String
  blockHash : String
  validatorId : String
  approved : Bool
  reason : String
  signature : String
  signedAt : String

/-- `consensus_vote_payload`. -/
def consensusVotePayload (vote : ConsensusVoteRow) (height : ℤ) : Value :=
  .obj [("approved", .bool vote.approved), ("block_hash", .str vote.blockHash),
    ("height", .int height), ("proposal_id", .str vote.proposalId), ("reason", .str vote.reason),
    ("signed_at", .str vote.signedAt), ("validator_id", .str vote.validatorId)]

/-- The active snapshot base. -/
structure SnapshotBase where
  height : ℤ
  blockHash : String
  stateApplied : Bool

/-- The tables of an import; of `validators` the column `public_key`. The other tables are `σ`. -/
structure ImportNode (σ : Type) where
  blocks : List ChainBlockRow
  certificates : Sql.Table ℤ FinalityCertificateRow
  headers : Sql.Table String HeaderRow
  proposals : Sql.Table String ProposalRow
  votes : List ConsensusVoteRow
  validatorKeys : Sql.Table String String
  base : Option SnapshotBase
  services : σ

/-! ## Errors -/

/-- What an import raises: an error of its own, of an access or a conversion, or of another
service. -/
inductive ImportError where
  | consensus (statusCode : ℕ) (detail : String)
  | network (statusCode : ℕ) (detail : String)
  | python (error : Client.PyError)
  | other (detail : String)

/-- The error of an access ends the import. -/
def python {α : Type} (x : Except Client.PyError α) : Except ImportError α :=
  x.mapError .python

/-- `ConsensusError`. -/
def refuse {α : Type} (statusCode : ℕ) (detail : String) : Except ImportError α :=
  .error (.consensus statusCode detail)

/-- `_is_missing_ancestor_replay_error`. -/
def ImportError.missesAncestor : ImportError → Bool
  | .consensus _ detail | .network _ detail | .other detail =>
    detail = "cannot import block before ancestors" ||
      detail = "finalized block previous_hash does not match local chain tip"
  | .python _ => false

/-! ## Services -/

/-- The local tip that a certified branch replaces, and the branch. -/
structure ReorgPlan where
  localHeight : ℤ
  localHash : String
  parentHash : String
  childHash : String

/-- The setting `REQUIRED_VALIDATOR_APPROVALS` and the parts of an import that look at no
certificate: the canonical forms that hash to the block hash, the rows that a block needs, its
transactions, rewards and state root, the validation job of a certificate, and for a
reorganisation what is undone with the local tip, the tasks of the branch and the blockers. A
settled block leaves the keys of the registered validators as they are. -/
structure ImportConfig (σ : Type) extends Client.ClientConfig where
  requiredValidatorApprovals : ℕ
  validateBlockHash : Value → Except ImportError Unit
  ensureRows : σ → Value → Except ImportError σ
  settle : ImportNode σ → Value → String → Except ImportError (Sql.Table String String × σ)
  settle_keeps : ∀ n block sourceId settled, settle n block sourceId = .ok settled →
    ∀ validatorId key, n.validatorKeys.find? validatorId = some key →
      settled.1.find? validatorId = some key
  storeJob : σ → Value → Except ImportError σ
  removeTip : σ → ChainBlockRow → Except ImportError σ
  acceptTask : σ → Value → σ
  applyBlocked : ImportNode σ → ReorgPlan → Bool

/-! ## Certificates -/

/-- `value.get(key) or default`. -/
def fieldOr (value : Value) (key : String) (default : Value) : Except Client.PyError Value := do
  return Client.orElse (← Client.get value key) default

/-- `int(value.get(key) or 0)`. -/
def numberField (cc : Client.ClientConfig) (value : Value) (key : String) :
    Except Client.PyError ℤ := do
  Client.toInt cc (← fieldOr value key (.int 0))

/-- `_finality_certificate_hash`. -/
def finalityCertificateHash (cfg : Config) (payload : Value) (votes : List Value) : String :=
  cfg.hashJson (.obj [("payload", payload), ("votes", .arr votes)])

/-- `verify_payload_signature`; a key or a signature that is no text verifies nothing. -/
def verifyVote (cfg : Config) (publicKey payload signature : Value) : Bool :=
  match publicKey, signature with
  | .str publicKey, .str signature => cfg.verifyPayloadSignature publicKey payload signature
  | _, _ => false

/-- The loop over the votes of a certificate. -/
def validateCertificateVote (ic : ImportConfig σ) (certificate taskId vote : Value) :
    Except ImportError Unit := do
  match vote with
  | .obj _ =>
    let signaturePayload ← python (fieldOr vote "signature_payload" (.obj []))
    let approved ← python (Client.get vote "approved")
    if !Client.truthy approved then
      refuse 422 "finality certificate vote payload mismatch"
    else
      let jobId ← python (Client.get signaturePayload "job_id")
      let votedTask ← python (Client.get signaturePayload "task_id")
      let voter ← python (Client.get signaturePayload "validator_id")
      if !Client.sameValue jobId (← python (Client.get certificate "job_id")) ||
          !Client.sameValue votedTask taskId ||
          !Client.sameValue voter (← python (Client.get vote "validator_id")) then
        refuse 422 "finality certificate vote payload mismatch"
      else
        let publicKey ← python (Client.get vote "validator_public_key")
        let signature ← python (Client.get vote "signature")
        if !Client.truthy publicKey || !Client.truthy signature ||
            !verifyVote ic.toConfig publicKey signaturePayload signature then
          refuse 422 "finality certificate vote signature invalid"
        else return ()
  | _ => refuse 422 "invalid finality certificate vote"

/-- The checks of a certificate before its votes. -/
def validateCertificateFields (ic : ImportConfig σ) (block certificate taskId payload : Value)
    (votes : List Value) : Except ImportError Unit := do
  let blockPayload ← python (fieldOr payload "block" (.obj []))
  let validation ← python (fieldOr payload "validation" (.obj []))
  let blockHash ← python (Client.item block "block_hash")
  if (← python (numberField ic.toClientConfig certificate "block_height")) ≠
      (← python (do Client.toInt ic.toClientConfig (← Client.item block "height"))) then
    refuse 422 "finality certificate height mismatch"
  else if !Client.sameValue (← python (Client.get certificate "block_hash")) blockHash ||
      !Client.sameValue (← python (Client.get blockPayload "block_hash")) blockHash then
    refuse 422 "finality certificate block hash mismatch"
  else if !Client.sameValue (← python (Client.get certificate "task_id")) taskId ||
      !Client.sameValue (← python (Client.get blockPayload "task_id")) taskId then
    refuse 422 "finality certificate task mismatch"
  else if !Client.sameValue (← python (Client.get certificate "job_id"))
      (← python (Client.get validation "job_id")) then
    refuse 422 "finality certificate job mismatch"
  else if !Client.sameValue (← python (Client.get certificate "miner_id"))
      (← python (Client.item block "miner_id")) then
    refuse 422 "finality certificate miner mismatch"
  else if !Client.sameValue (.str (finalityCertificateHash ic.toConfig payload votes))
      (← python (Client.get certificate "certificate_hash")) then
    refuse 422 "finality certificate hash mismatch"
  else
    let required ← python (numberField ic.toClientConfig certificate "required_approvals")
    let approvalCount ← python (numberField ic.toClientConfig certificate "approval_count")
    -- the votes are counted, not their voters
    if required ≤ 0 ∨ approvalCount < required ∨ (votes.length : ℤ) < required then
      refuse 422 "finality certificate does not contain quorum approvals"
    else if (← python (numberField ic.toClientConfig validation "required_approvals")) ≠ required then
      refuse 422 "finality certificate required approval mismatch"
    else if (← python (numberField ic.toClientConfig validation "approval_count")) ≠
        approvalCount then
      refuse 422 "finality certificate approval count mismatch"
    else return ()

/-- `_validate_finality_certificate_for_block`: a block without a certificate passes. -/
def validateFinalityCertificate (ic : ImportConfig σ) (block taskId : Value) :
    Except ImportError Unit := do
  let certificate ← python (Client.get block "finality_certificate")
  match certificate with
  -- no certificate is asked for, whatever the height
  | .null => return ()
  | .obj _ =>
    let payload ← python (fieldOr certificate "payload" (.obj []))
    let votes ← python (fieldOr certificate "votes" (.arr []))
    match payload, votes with
    | .obj _, .arr votes =>
      validateCertificateFields ic block certificate taskId payload votes
      votes.forM (validateCertificateVote ic certificate taskId)
    | _, _ => refuse 422 "invalid finality certificate payload"
  | _ => refuse 422 "invalid finality_certificate"

/-- The columns of a certificate; its height and its block hash are the block's. -/
def certificateRow (cc : Client.ClientConfig) (certificate : Value) (blockHash taskId : String) :
    Except Client.PyError FinalityCertificateRow := do
  let payload ← fieldOr certificate "payload" (.obj [])
  let votes ← Client.toList (← fieldOr certificate "votes" (.arr []))
  let jobId ← Client.item certificate "job_id"
  let certificateHash ← Client.item certificate "certificate_hash"
  let requiredApprovals ← Client.toInt cc (← Client.item certificate "required_approvals")
  let approvalCount ← Client.toInt cc (← Client.item certificate "approval_count")
  return {
    blockHash
    taskId
    jobId := Client.toText cc jobId
    certificateHash := Client.toText cc certificateHash
    requiredApprovals
    approvalCount
    payload
    votes }

/-- `_store_finality_certificate_for_block`. -/
def storeFinalityCertificate (ic : ImportConfig σ) (n : ImportNode σ) (block taskId : Value)
    (height : ℤ) (blockHash : String) : Except ImportError (ImportNode σ) := do
  let certificate ← python (Client.get block "finality_certificate")
  match certificate with
  | .null => return n
  | _ =>
    validateFinalityCertificate ic block taskId
    let row ← python (certificateRow ic.toClientConfig certificate blockHash
      (Client.toText ic.toClientConfig taskId))
    let services ← ic.storeJob n.services block
    -- the unique columns; a row of this height is replaced
    if n.certificates.rows.any fun r => r.1 ≠ height && (r.2.blockHash = row.blockHash ||
        r.2.taskId = row.taskId || r.2.jobId = row.jobId ||
        r.2.certificateHash = row.certificateHash) then
      .error (.other "UNIQUE constraint failed: finality_certificates")
    else return { n with certificates := n.certificates.upsert height row, services }

/-! ## The import -/

/-- `LEGACY_ZERO_GENESIS_HASH`. -/
def legacyZeroGenesisHash : String := String.ofList (List.replicate 64 '0')

/-- The higher of the latest block so far and a block. -/
def higherBlock (latest : Option ChainBlockRow) (block : ChainBlockRow) : Option ChainBlockRow :=
  match latest with
  | none => some block
  | some best => if best.height < block.height then some block else some best

/-- `SELECT … FROM blocks ORDER BY height DESC LIMIT 1`. -/
def latestBlock (n : ImportNode σ) : Option ChainBlockRow := n.blocks.foldl higherBlock none

/-- `_latest_tip`. -/
def latestTip (cfg : Config) (n : ImportNode σ) : ChainTip :=
  match latestBlock n, n.base with
  | some block, _ => ⟨block.height, block.blockHash⟩
  | none, some base =>
    if base.stateApplied then ⟨base.height, base.blockHash⟩ else ⟨0, cfg.genesisHash⟩
  | none, none => ⟨0, cfg.genesisHash⟩

/-- A number in units of `10 ^ -8`; other values do not compare with a height. -/
def heightUnits : Value → Except Client.PyError ℤ
  | .int i => .ok (i * 10 ^ 8)
  | .bool b => .ok (if b then 10 ^ 8 else 0)
  | .float x => .ok x
  | _ => .error .type

/-- A text of the block. -/
def textItem (block : Value) (key : String) : Except Client.PyError String := do
  match ← Client.item block key with
  | .str s => return s
  | _ => .error .type

/-- The height and the hash of a block that continues the local chain; nothing for a block that the
chain has already. -/
def placeOnTip (ic : ImportConfig σ) (n : ImportNode σ) (block : Value) :
    Except ImportError (Option (ℤ × String)) := do
  let tip := latestTip ic.toConfig n
  let blockHash ← python (textItem block "block_hash")
  let height ← python (do heightUnits (← Client.item block "height"))
  if height ≤ tip.height * 10 ^ 8 then
    if n.blocks.any fun b => b.height * 10 ^ 8 = height && b.blockHash = blockHash then return none
    else refuse 409 "finalized block conflicts with local chain"
  else if height ≠ (tip.height + 1) * 10 ^ 8 then refuse 409 "cannot import block before ancestors"
  else
    let previousHash :=
      Client.toText ic.toClientConfig (← python (Client.item block "previous_hash"))
    -- the first block may also name the genesis hash of older nodes
    if previousHash = tip.blockHash ∨
        (tip.height = 0 ∧ previousHash = legacyZeroGenesisHash) then
      return some (tip.height + 1, blockHash)
    else refuse 409 "finalized block previous_hash does not match local chain tip"

/-- The task of a block, which a block without one is given. -/
def taskIdOf (cc : Client.ClientConfig) (block : Value) (blockHash : String) :
    Except Client.PyError Value := do
  let height := Client.toText cc (← Client.item block "height")
  let start := String.ofList (blockHash.toList.take 12)
  fieldOr block "task_id" (.str s!"distributed_task_{height}_{start}")

/-- `_import_finalized_block`; tells whether the block was imported. -/
def importFinalizedBlock (ic : ImportConfig σ) (n : ImportNode σ) (block : Value)
    (sourceId : String) : Except ImportError (ImportNode σ × Bool) := do
  ic.validateBlockHash block
  match ← placeOnTip ic n block with
  | none => return (n, false)
  | some (height, blockHash) =>
    let resultHash := Client.toText ic.toClientConfig (← python (Client.item block "result_hash"))
    if n.blocks.any fun b => b.resultHash = resultHash then refuse 409 "duplicate result_hash"
    else
      let services ← ic.ensureRows n.services block
      let taskId ← python (taskIdOf ic.toClientConfig block blockHash)
      validateFinalityCertificate ic block taskId
      let row : ChainBlockRow :=
        ⟨height, blockHash, resultHash, Client.toText ic.toClientConfig taskId⟩
      if n.blocks.any fun b => b.blockHash = row.blockHash || b.taskId = row.taskId then
        .error (.other "UNIQUE constraint failed: blocks")
      else
        let blocks := n.blocks ++ [row]
        let settled ← ic.settle { n with blocks, services } block sourceId
        let n := { n with blocks, validatorKeys := settled.1, services := settled.2 }
        return (← storeFinalityCertificate ic n block taskId height blockHash, true)

end Picoin
