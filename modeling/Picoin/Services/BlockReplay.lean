import Picoin.Lib.Run
import Picoin.Services.BlockImport

/-!
# Queued blocks

A block reaches the import by three routes: as a header that a peer has sent, as a proposal that
has been finalized, and as one of the two blocks of a branch that replaces the local tip. The
payload of a header is completed by the payload of the proposal with the same block hash.

* **`receiveBlockHeader`** queues whatever a peer sends;
* **`replayFinalizedBlocks`** imports finalized proposals and queued headers;
* **`applyOrphanReorg`** replaces the local tip by a queued parent and its child.
-/

namespace Picoin

open Json Outcome Run

variable {σ : Type}

/-! ## Headers -/

/-- The fields that a header has to have, in the order of their names. -/
def headerRequiredFields : List String := ["block_hash", "height", "previous_hash", "timestamp"]

/-- The status of a header that is not queued yet. -/
def headerStatus (cfg : Config) (n : ImportNode σ) (height : ℤ) (blockHash previousHash : String) :
    Except ImportError HeaderStatus :=
  let atHeight (h : ℤ) := n.blocks.find? fun b => b.height = h
  let latestHeight := (latestBlock n).elim 0 ChainBlockRow.height
  let latestHash := (latestBlock n).elim cfg.genesisHash ChainBlockRow.blockHash
  let continuesBase := n.base.any fun base =>
    latestHeight = 0 && height = base.height + 1 && previousHash = base.blockHash
  match atHeight height with
  | some block =>
    if block.blockHash = blockHash then .ok .known
    else
      let expected := if 0 < height - 1 then (atHeight (height - 1)).map ChainBlockRow.blockHash
        else some cfg.genesisHash
      if height = latestHeight ∧ some previousHash = expected then .ok .pendingMissingAncestors
      else .error (.network 409 "conflicting block at height")
  | none =>
    if n.base.any fun base => height ≤ base.height then .ok .skippedPreSnapshot
    else if height = latestHeight + 1 ∧ previousHash ≠ latestHash then
      .ok (if continuesBase then .pendingReplay else .pendingMissingAncestors)
    else if height > latestHeight + 1 then
      .ok (if continuesBase then .pendingReplay else .pendingMissingAncestors)
    else .ok .pendingReplay

/-- A text of 64 characters of a header. -/
def headerHash (block : Value) (key : String) : Except ImportError String :=
  match Client.item block key with
  | .ok (.str s) =>
    if s.length = 64 then .ok s else .error (.network 422 s!"invalid {key}")
  | _ => .error (.network 422 s!"invalid {key}")

/-- `receive_block_header`: a header that is queued keeps its status. -/
def receiveBlockHeader (ic : ImportConfig σ) (now : String) (n : ImportNode σ) (block : Value) :
    Except ImportError (ImportNode σ) := do
  let missing := headerRequiredFields.filter fun key =>
    (Client.item block key).toOption.isNone
  if missing ≠ [] then
    let names := ", ".intercalate missing
    .error (.network 422 s!"missing block fields: {names}")
  else
    let height ← python (do Client.toInt ic.toClientConfig (← Client.item block "height"))
    if height < 1 then .error (.network 422 "block height must be positive")
    else
      let blockHash ← headerHash block "block_hash"
      let previousHash ← headerHash block "previous_hash"
      let known := n.blocks.any fun b => b.height = height && b.blockHash = blockHash
      let status ← match known, n.headers.find? blockHash with
        | false, some queued => .ok queued.status
        | _, _ => headerStatus ic.toConfig n height blockHash previousHash
      let row : HeaderRow := ⟨height, previousHash, status, block, now⟩
      return { n with headers := n.headers.upsert blockHash row }

/-! ## The replay -/

/-- The dictionary `{**block, **other}`. -/
def mergeFields (block other : Value) : Value :=
  match block, other with
  | .obj fields, .obj others =>
    .obj (others ++ fields.filter fun f => (others.lookup f.1).isNone)
  | _, _ => block

/-- `_replay_payload_for_block_header`. -/
def replayPayload (n : ImportNode σ) (blockHash : String) (payload : Value) : Value :=
  match n.proposals.find? blockHash with
  | none => payload
  | some proposal =>
    let named := (Client.get proposal.payload "block_hash").toOption.any fun hash =>
      Client.sameValue hash (.str blockHash)
    if proposal.status ≠ .rejected ∧ named = true then mergeFields payload proposal.payload
    else payload

/-- `_promote_ready_missing_ancestor_proposals`. -/
def promoteReadyProposals (cfg : Config) (now : String) (n : ImportNode σ) : ImportNode σ :=
  let ready (row : ProposalRow) : Bool :=
    (row.height = 1 &&
        (row.previousHash = cfg.genesisHash || row.previousHash = legacyZeroGenesisHash)) ||
      (n.blocks.any fun b => b.height = row.height - 1 && b.blockHash = row.previousHash) ||
      n.base.any fun base => base.height = row.height - 1 && base.blockHash = row.previousHash
  { n with
    proposals := n.proposals.mapRows fun _ row =>
      if row.status = .pendingMissingAncestors ∧ ready row = true then
        { row with status := .pending, updatedAt := now }
      else row }

/-- `_mark_existing_block_proposals_imported`. -/
def markExistingProposalsImported (now : String) (n : ImportNode σ) : ImportNode σ :=
  { n with
    proposals := n.proposals.mapRows fun blockHash row =>
      if row.status ≠ .imported ∧ row.status ≠ .rejected ∧
          (n.blocks.any fun b => b.blockHash = blockHash) = true then
        { row with status := .imported, updatedAt := now }
      else row }

/-- The height of the snapshot base whose state is applied, or zero. -/
def snapshotHeight (n : ImportNode σ) : ℤ :=
  n.base.elim 0 fun base => if base.stateApplied then base.height else 0

/-- The header waits for its import. -/
def HeaderStatus.waits : HeaderStatus → Bool
  | .pendingReplay | .pendingMissingAncestors => true
  | .skippedPreSnapshot | .imported | .known => false

/-- `_quarantine_pre_snapshot_headers`. -/
def quarantinePreSnapshotHeaders (n : ImportNode σ) : ImportNode σ :=
  if n.base.any SnapshotBase.stateApplied then
    { n with
      headers := n.headers.mapRows fun _ row =>
        if row.status.waits ∧ row.height ≤ snapshotHeight n then
          { row with status := .skippedPreSnapshot }
        else row }
  else n

/-- One finalized proposal of the replay. -/
def replayProposal (ic : ImportConfig σ) (now : String) (n : ImportNode σ)
    (r : String × ProposalRow) : ImportNode σ :=
  match importFinalizedBlock ic n r.2.payload r.2.proposalId with
  -- what the import had written is rolled back to the savepoint
  | .error e =>
    { n with
      proposals := n.proposals.modify r.1 fun row =>
        { row with
          status := if e.missesAncestor then .pendingMissingAncestors else row.status
          updatedAt := now } }
  | .ok (n, true) =>
    let n := promoteReadyProposals ic.toConfig now n
    { n with
      proposals := n.proposals.modify r.1 fun row =>
        { row with
          status := .imported
          finalization := row.finalization.map fun _ => true
          updatedAt := now } }
  | .ok (n, false) => n

/-- One queued header of the replay. -/
def replayHeader (ic : ImportConfig σ) (now : String) (n : ImportNode σ)
    (r : String × HeaderRow) : ImportNode σ :=
  let blockHash := r.1
  let withStatus (n : ImportNode σ) (status : HeaderStatus) : ImportNode σ :=
    { n with headers := n.headers.modify blockHash fun row => { row with status } }
  match importFinalizedBlock ic n (replayPayload n blockHash r.2.payload) s!"header:{blockHash}" with
  | .error e =>
    withStatus n (if e.missesAncestor then .pendingMissingAncestors else .pendingReplay)
  | .ok (n, true) =>
    let n := withStatus (promoteReadyProposals ic.toConfig now n) .imported
    { n with
      proposals := n.proposals.modify blockHash fun row =>
        if row.status ≠ .imported ∧ row.status ≠ .rejected then
          { row with status := .imported, updatedAt := now }
        else row }
  | .ok (n, false) => withStatus n .known

/-- The finalized proposals that are not imported, by height. -/
def finalizedProposals (n : ImportNode σ) : List (String × ProposalRow) :=
  (n.proposals.rows.filter fun r => r.2.status = .finalized && r.2.finalization ≠ some true)
    |>.mergeSort fun a b => a.2.height ≤ b.2.height

/-- The queued headers, by height and age. -/
def queuedHeaders (n : ImportNode σ) : List (String × HeaderRow) :=
  (n.headers.rows.filter fun r => r.2.status.waits && snapshotHeight n < r.2.height)
    |>.mergeSort fun a b => a.2.height < b.2.height ||
      (a.2.height = b.2.height && a.2.receivedAt ≤ b.2.receivedAt)

/-- `replay_finalized_blocks`; every proposal counts as imported or skipped. -/
def replayFinalizedBlocks (ic : ImportConfig σ) (now : String) (limit : ℤ) (n : ImportNode σ) :
    ImportNode σ :=
  let limit := (max 1 (min limit 200)).toNat
  let n := quarantinePreSnapshotHeaders (markExistingProposalsImported now n)
  let proposals := (finalizedProposals n).take limit
  let n := proposals.foldl (replayProposal ic now) n
  ((queuedHeaders n).take (limit - proposals.length)).foldl (replayHeader ic now) n

/-! ## The reorganisation -/

/-- `quorum_met` of `_block_finality_certificate_summary`. -/
def quorumMet (cc : Client.ClientConfig) (block : Value) : Bool :=
  let certificate := (fieldOr block "finality_certificate" (.obj [])).toOption.getD (.obj [])
  let number (key : String) : ℤ := (numberField cc certificate key).toOption.getD 0
  0 < number "required_approvals" && number "required_approvals" ≤ number "approval_count"

/-- `_json_block_payload`. -/
def jsonBlockPayload : Value → Value
  | .obj fields => .obj fields
  | _ => .obj []

/-- A queued block, from a proposal or from a header. -/
structure QueuedBlock where
  fromProposal : Bool
  id : String
  blockHash : String
  height : ℤ
  previousHash : String
  seenAt : String
  block : Value

def ProposalRow.queued (blockHash : String) (row : ProposalRow) : QueuedBlock :=
  ⟨true, row.proposalId, blockHash, row.height, row.previousHash, row.updatedAt,
    jsonBlockPayload row.payload⟩

def HeaderRow.queued (blockHash : String) (row : HeaderRow) : QueuedBlock :=
  ⟨false, blockHash, blockHash, row.height, row.previousHash, row.receivedAt,
    jsonBlockPayload row.payload⟩

/-- `_find_queued_block_by_hash`: a block with a quorum first, and a proposal before a header. -/
def findQueuedBlock (cc : Client.ClientConfig) (n : ImportNode σ) (blockHash : String) :
    Option QueuedBlock :=
  let proposal := ((n.proposals.find? blockHash).filter fun row => row.status ≠ .rejected).map
    (ProposalRow.queued blockHash)
  let header := (n.headers.find? blockHash).map (HeaderRow.queued blockHash)
  match proposal, header with
  -- the header wins only with a quorum that the proposal has not
  | some p, some h => if !quorumMet cc p.block && quorumMet cc h.block then some h else some p
  | some p, none => some p
  | none, h => h

/-- `_queued_block_candidates`. -/
def queuedBlockCandidates (cc : Client.ClientConfig) (n : ImportNode σ) (limit : ℕ) :
    List QueuedBlock :=
  let newest (a b : QueuedBlock) : Bool :=
    a.height < b.height || (a.height = b.height && b.seenAt ≤ a.seenAt)
  let proposals := ((n.proposals.rows.filter fun r =>
    r.2.status ≠ .rejected && r.2.status ≠ .imported).map fun r => r.2.queued r.1).mergeSort newest
  let headers := ((n.headers.rows.filter fun r => r.2.status.waits).map fun r =>
    r.2.queued r.1).mergeSort newest
  let rank (b : QueuedBlock) : ℕ := if quorumMet cc b.block then 0 else 1
  let first (a b : QueuedBlock) : Bool :=
    a.height < b.height || (a.height = b.height && (rank a < rank b || (rank a = rank b &&
      (a.seenAt < b.seenAt || (a.seenAt = b.seenAt && (!a.fromProposal || b.fromProposal))))))
  ((proposals.take limit ++ headers.take limit).mergeSort first).take limit

/-- A local block whose hash is not the one that a queued child continues. -/
structure OrphanCandidate where
  localBlock : ChainBlockRow
  parentHash : String
  childHash : String
  certified : Bool

/-- The candidate of a queued block. -/
def orphanCandidate (cc : Client.ClientConfig) (n : ImportNode σ) (queued : QueuedBlock) :
    Option OrphanCandidate := do
  let fields (key : String) (default : Value) :=
    (fieldOr queued.block key default).toOption.getD default
  let height ← (Client.toInt cc (fields "height" (.int queued.height))).toOption
  let parentHash := Client.toText cc (fields "previous_hash" (.str queued.previousHash))
  if height ≤ 1 ∨ parentHash = "" then none
  else
    let parent ← n.blocks.find? fun b => b.height = height - 1
    -- the child continues the local chain: nothing is orphaned
    if parent.blockHash = parentHash then none
    else
      let childHash := Client.toText cc (fields "block_hash" (.str queued.blockHash))
      return ⟨parent, parentHash, childHash, quorumMet cc queued.block⟩

/-- The first candidate of a local block and of a parent hash, up to a limit. -/
def firstCandidates (limit : ℕ) (candidates : List OrphanCandidate) : List OrphanCandidate :=
  let sameKey (c k : OrphanCandidate) : Bool := k.localBlock.height = c.localBlock.height &&
    k.localBlock.blockHash = c.localBlock.blockHash && k.parentHash = c.parentHash
  (candidates.foldl (fun kept c => if kept.any (sameKey c) then kept else kept ++ [c]) []).take limit

/-- `list_orphan_candidates`. -/
def listOrphanCandidates (cc : Client.ClientConfig) (n : ImportNode σ) (limit : ℕ) :
    List OrphanCandidate :=
  firstCandidates limit ((queuedBlockCandidates cc n (limit * 3)).filterMap (orphanCandidate cc n))

/-- `can_apply` of `_orphan_candidate_reorg_plan`: the candidate is the local tip, parent and child
are queued and follow it, the child claims a quorum, and so does the parent or the child continues
it. -/
def canApply (ic : ImportConfig σ) (n : ImportNode σ) (maxDepth : ℤ) (c : OrphanCandidate) : Bool :=
  let tip := latestTip ic.toConfig n
  let depth := tip.height - c.localBlock.height + 1
  match findQueuedBlock ic.toClientConfig n c.parentHash,
      findQueuedBlock ic.toClientConfig n c.childHash with
  | some parent, some child =>
    let previous := (Client.get child.block "previous_hash").toOption
    let follows := previous.any fun hash => Client.sameValue hash (.str c.parentHash)
    let childCertified := quorumMet ic.toClientConfig child.block
    0 < c.localBlock.height && tip.height = c.localBlock.height &&
      tip.blockHash = c.localBlock.blockHash && 1 ≤ depth && depth ≤ maxDepth &&
      parent.height = c.localBlock.height && child.height = c.localBlock.height + 1 &&
      (follows || !Client.truthy child.block) &&
      (quorumMet ic.toClientConfig parent.block || (childCertified && follows)) && childCertified
  | _, _ => false

/-- `plan_orphan_reorg`: the first plan that can be applied. -/
def planOrphanReorg (ic : ImportConfig σ) (n : ImportNode σ) (limit maxDepth : ℤ) :
    Option ReorgPlan :=
  let limit := (max 1 (min limit 100)).toNat
  let maxDepth := max 1 (min maxDepth 10)
  ((listOrphanCandidates ic.toClientConfig n limit).find? fun c =>
    c.certified && canApply ic n maxDepth c).map fun c =>
      ⟨c.localBlock.height, c.localBlock.blockHash, c.parentHash, c.childHash⟩

/-- `_remove_local_orphan_tip_for_reorg`. -/
def removeLocalTip (ic : ImportConfig σ) (now : String) (n : ImportNode σ) (height : ℤ)
    (blockHash : String) : Except ImportError (ImportNode σ) := do
  match n.blocks.find? fun b => b.height = height && b.blockHash = blockHash with
  | none => refuse 404 "local orphan block not found"
  | some block =>
    let services ← ic.removeTip n.services block
    return { n with
      blocks := n.blocks.filter fun b => !(b.height = height && b.blockHash = blockHash)
      certificates := n.certificates.filterRows fun h row =>
        !(h = height && row.blockHash = blockHash)
      proposals := n.proposals.modify blockHash fun row =>
        { row with status := .rejected, updatedAt := now }
      services }

/-- `_mark_reorg_source_imported`. -/
def markReorgSourceImported (now : String) (n : ImportNode σ) (blockHash : String) :
    ImportNode σ :=
  { n with
    headers := n.headers.modify blockHash fun row => { row with status := .imported }
    proposals := n.proposals.modify blockHash fun row =>
      if row.status ≠ .rejected then { row with status := .imported, updatedAt := now } else row }

/-- One block of the branch is imported. -/
def importBranchBlock (ic : ImportConfig σ) (now : String) (n : ImportNode σ)
    (queued : QueuedBlock) : Except ImportError (ImportNode σ) := do
  let source := if queued.fromProposal then "proposal" else "header"
  let sourceId := queued.id
  let (n, _) ← importFinalizedBlock ic n queued.block s!"reorg:{source}:{sourceId}"
  let blockHash ← python (textItem queued.block "block_hash")
  let n := markReorgSourceImported now n blockHash
  return { n with services := ic.acceptTask n.services queued.block }

/-- `_apply_selected_orphan_reorg`. -/
def applySelectedReorg (ic : ImportConfig σ) (now : String) (n : ImportNode σ)
    (plan : ReorgPlan) : Except ImportError (ImportNode σ) := do
  if ic.applyBlocked n plan then refuse 409 "orphan reorg apply blocked"
  else
    match findQueuedBlock ic.toClientConfig n plan.parentHash,
        findQueuedBlock ic.toClientConfig n plan.childHash with
    | some parent, some child =>
      let n ← removeLocalTip ic now n plan.localHeight plan.localHash
      let n ← importBranchBlock ic now n parent
      let n ← importBranchBlock ic now n child
      -- an import raises nothing for a block that is there already, but the tip tells
      let tip := latestTip ic.toConfig n
      if tip.height ≠ (← python (do
            Client.toInt ic.toClientConfig (← Client.item child.block "height"))) ∨
          tip.blockHash ≠ (← python (textItem child.block "block_hash")) then
        refuse 500 "orphan reorg apply did not end at selected remote child"
      else return promoteReadyProposals ic.toConfig now n
    | _, _ => refuse 404 "selected reorg branch payload is missing"

/-- `apply_orphan_reorg`: nothing is done without a plan, and an error rolls back. -/
def applyOrphanReorg (ic : ImportConfig σ) (now : String) (limit maxDepth : ℤ) (n : ImportNode σ) :
    Except ImportError (ImportNode σ) :=
  match planOrphanReorg ic n limit maxDepth with
  | none => .ok n
  | some plan => if ic.applyBlocked n plan then .ok n else applySelectedReorg ic now n plan

/-! ## Requests -/

/-- The calls by which blocks reach the chain. -/
inductive ImportCall where
  | receive (block : Value)
  | replay (limit : ℤ)
  | reorg (limit maxDepth : ℤ)

/-- One call at a time; a call that raises changes nothing. -/
def ImportCall.step (ic : ImportConfig σ) (n : ImportNode σ) (call : String × ImportCall) :
    ImportNode σ :=
  match call.2 with
  | .receive block => attempt (receiveBlockHeader ic call.1 n block) n
  | .replay limit => replayFinalizedBlocks ic call.1 limit n
  | .reorg limit maxDepth => attempt (applyOrphanReorg ic call.1 limit maxDepth n) n

end Picoin
