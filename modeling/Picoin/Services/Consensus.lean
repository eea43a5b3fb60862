import Mathlib.Data.List.Sort
import Picoin.Services.BlockReplay

/-!
# Proposals and votes

A block that a miner proposes waits for the votes of the registered validators. The vote that
completes the quorum finalizes the proposal: of the proposals for the same place it has to be the
one that the fork choice prefers, and its block is imported.

* **`proposeBlock`** records a proposal, under its block hash;
* **`voteOnProposal`** records a signed vote, once for each validator and place;
* **`finalizeProposal`** imports a proposal with a quorum.
-/

namespace Picoin

open Json Outcome Run Decimal

variable {σ : Type}

/-! ## Tables -/

/-- A row of `validators`, as far as the votes on blocks read it; its key is in `validatorKeys`,
and of its stakes it has the one that makes a validator eligible. -/
structure ConsensusValidatorRow where
  isBanned : Bool
  enabled : Bool
  onlineStatus : String
  syncStatus : String
  protocolVersion : Option String
  eligibilityStake : ℤ
  trustScore : Dec
deriving DecidableEq

/-- The columns of a proposal that only the votes write, under its proposal id. -/
structure ProposalTally where
  proposerNodeId : String
  approvals : ℕ
  rejections : ℕ
deriving DecidableEq

/-- The tables of an import and the tallies of the proposals. -/
structure VotingNode (σ : Type) extends ImportNode σ where
  tallies : Sql.Table String ProposalTally

/-- The form in which a proposed block is stored, and the table `validators`, which blocks and the
other services write. -/
structure VotingConfig (σ : Type) extends ImportConfig σ where
  normalizeBlock : Value → Except ImportError Value
  validators : σ → Sql.Table String ConsensusValidatorRow

def ProposalStatus.text : ProposalStatus → String
  | .known => "known"
  | .pending => "pending"
  | .pendingMissingAncestors => "pending_missing_ancestors"
  | .finalized => "finalized"
  | .imported => "imported"
  | .rejected => "rejected"

/-- Nobody votes any more on the proposal. -/
def ProposalStatus.closed : ProposalStatus → Bool
  | .finalized | .imported | .rejected => true
  | .known | .pending | .pendingMissingAncestors => false

/-- `_proposal_by_id`, with the block hash of the proposal. -/
def VotingNode.proposalById (n : VotingNode σ) (proposalId : String) :
    Option (String × ProposalRow) :=
  n.proposals.rows.find? fun r => r.2.proposalId = proposalId

def VotingNode.tally (n : VotingNode σ) (proposalId : String) : ProposalTally :=
  (n.tallies.find? proposalId).getD ⟨"", 0, 0⟩

/-! ## The quorum -/

/-- The validator is up and speaks the protocol of the node. -/
def ConsensusValidatorRow.live (cfg : Config) (row : ConsensusValidatorRow) : Bool :=
  !row.isBanned && row.enabled && row.onlineStatus = "online" && row.syncStatus ≠ "out_of_sync" &&
    row.protocolVersion = some cfg.protocolVersion

/-- `VALIDATOR_MIN_TRUST_SCORE`. -/
def validatorMinTrustScore : Dec := ⟨25, 2⟩

/-- `x >= y` of two decimals. -/
def Dec.atLeast (x y : Dec) : Bool := y.mantissa * 10 ^ x.scale ≤ x.mantissa * 10 ^ y.scale

/-- The validator counts for the size of the quorum. -/
def ConsensusValidatorRow.eligible (cfg : Config) (row : ConsensusValidatorRow) : Bool :=
  row.live cfg && cfg.minValidatorStake ≤ row.eligibilityStake &&
    Dec.atLeast row.trustScore validatorMinTrustScore

/-- `_eligible_validator_count_for_quorum`. -/
def eligibleValidatorCount (vc : VotingConfig σ) (n : ImportNode σ) : ℕ :=
  ((vc.validators n.services).rows.filter fun r => r.2.eligible vc.toConfig).length

/-- `_required_validator_approvals_for_quorum`. -/
def requiredApprovals (vc : VotingConfig σ) (n : ImportNode σ) : ℕ :=
  let eligibleCount := eligibleValidatorCount vc n
  if eligibleCount = 0 then vc.requiredValidatorApprovals
  else max 1 (min vc.requiredValidatorApprovals (max 1 eligibleCount))

/-! ## The fork choice -/

/-- `_validator_weight`, in units of `10 ^ -8`: the trust score, and up to a hundred times more for
the stake. -/
def validatorWeight (cfg : Config) (row : ConsensusValidatorRow) : ℤ :=
  let trust := max 0 row.trustScore.mantissa
  let stake := max 0 row.eligibilityStake
  if 0 < cfg.minValidatorStake then
    roundHalfEven
      (trust * (cfg.minValidatorStake + min stake (100 * cfg.minValidatorStake)) * 10 ^ 8)
      (10 ^ row.trustScore.scale * cfg.minValidatorStake.toNat)
  else roundHalfEven (trust * 10 ^ 8) (10 ^ row.trustScore.scale)

/-- `_proposal_vote_weight`; a validator that is not registered any more weighs nothing. -/
def proposalVoteWeight (vc : VotingConfig σ) (n : VotingNode σ) (proposalId : String)
    (approved : Bool) : ℤ :=
  ((n.votes.filter fun v => v.proposalId = proposalId && v.approved = approved).map fun v =>
    ((vc.validators n.services).find? v.validatorId).elim 0 (validatorWeight vc.toConfig)).sum

/-- `_fork_choice_status_rank`. -/
def ProposalStatus.forkChoiceRank : ProposalStatus → ℤ
  | .imported => 0
  | .finalized => 1
  | .pending => 4
  | .pendingMissingAncestors => 5
  | .known | .rejected => 7

/-- `_fork_choice_sort_key`. -/
structure ForkChoiceKey where
  numbers : List ℤ
  createdAt : String
  blockHash : String

def forkChoiceKey (vc : VotingConfig σ) (n : VotingNode σ) (r : String × ProposalRow) :
    ForkChoiceKey :=
  let tally := n.tally r.2.proposalId
  ⟨[r.2.status.forkChoiceRank, -proposalVoteWeight vc n r.2.proposalId true,
      proposalVoteWeight vc n r.2.proposalId false, -tally.approvals, tally.rejections],
    r.2.createdAt, r.1⟩

/-- The order of two keys. -/
def ForkChoiceKey.le (a b : ForkChoiceKey) : Bool :=
  a.numbers < b.numbers || (a.numbers = b.numbers && (a.createdAt < b.createdAt ||
    (a.createdAt = b.createdAt && a.blockHash ≤ b.blockHash)))

/-- `select_fork_choice` for one place: no other block is at its height. -/
def selectForkChoice (vc : VotingConfig σ) (n : VotingNode σ) (height : ℤ)
    (previousHash : String) : Option (String × ProposalRow) :=
  let choices := n.proposals.rows.filter fun r =>
    r.2.height = height && r.2.previousHash = previousHash && r.2.status ≠ .rejected &&
      !(n.blocks.any fun b => b.height = r.2.height && b.blockHash ≠ r.1)
  (choices.insertionSort fun a b => (forkChoiceKey vc n a).le (forkChoiceKey vc n b)).head?

/-! ## Proposals -/

/-- `_proposal_id`. -/
def proposalIdOf (cfg : Config) (blockHash : String) : String :=
  cfg.sha256Text s!"proposal:{blockHash}"

/-- The status of a block that is proposed. -/
def proposalStatus (cfg : Config) (n : ImportNode σ) (height : ℤ)
    (blockHash previousHash : String) : Except ImportError ProposalStatus :=
  let tip := latestTip cfg n
  if height ≤ tip.height then
    let known := (n.blocks.find? fun b => b.height = height).any fun b => b.blockHash = blockHash
    if known || n.base.any fun base => base.height = height && base.blockHash = blockHash then
      .ok .known
    else refuse 409 "proposal conflicts with local finalized chain"
  else if height = tip.height + 1 ∧ ¬(previousHash = tip.blockHash ∨
      (height = 1 ∧ tip.height = 0 ∧ previousHash = legacyZeroGenesisHash)) then
    .ok .pendingMissingAncestors
  else if height > tip.height + 1 then .ok .pendingMissingAncestors
  else .ok .pending

/-- The row of a proposal, new or written again; a closed proposal keeps its status. -/
def recordProposal (n : VotingNode σ) (proposalId blockHash : String) (proposerNodeId : String)
    (row : ProposalRow) : Except ImportError (VotingNode σ) :=
  match n.proposalById proposalId with
  | some (storedHash, _) =>
    let rewrite (old : ProposalRow) : ProposalRow :=
      { old with
        status := if old.status.closed then old.status else row.status
        payload := row.payload
        updatedAt := row.updatedAt }
    .ok { n with
      proposals := n.proposals.modify storedHash rewrite
      tallies := n.tallies.modify proposalId fun tally => { tally with proposerNodeId } }
  | none =>
    match n.proposals.insert? blockHash row with
    | none => .error (.other "UNIQUE constraint failed: consensus_block_proposals.block_hash")
    | some proposals =>
      .ok { n with proposals, tallies := n.tallies.upsert proposalId ⟨proposerNodeId, 0, 0⟩ }

/-- `propose_block`; the ancestors that are missing come with what the peers then send. -/
def proposeBlock (vc : VotingConfig σ) (now : String) (n : VotingNode σ) (block : Value)
    (proposerNodeId : String) (sync : List (String × ImportCall)) :
    Except ImportError (VotingNode σ) := do
  let normalized ← vc.normalizeBlock block
  vc.validateBlockHash normalized
  let blockHash ← python (textItem normalized "block_hash")
  let height ← python (do Client.toInt vc.toClientConfig (← Client.item normalized "height"))
  let previousHash ← python (textItem normalized "previous_hash")
  let status ← proposalStatus vc.toConfig n.toImportNode height blockHash previousHash
  let proposalId := proposalIdOf vc.toConfig blockHash
  let n ← recordProposal n proposalId blockHash proposerNodeId
    ⟨proposalId, height, previousHash, status, normalized, none, now, now⟩
  if status = .pendingMissingAncestors then
    let synced := sync.foldl (ImportCall.step vc.toImportConfig) n.toImportNode
    return { n with toImportNode := promoteReadyProposals vc.toConfig now synced }
  else return n

/-! ## Finalization -/

/-- `finalize_proposal`. -/
def finalizeProposal (vc : VotingConfig σ) (now : String) (n : VotingNode σ)
    (proposalId : String) : Except ImportError (VotingNode σ) := do
  match n.proposalById proposalId with
  | none => refuse 404 "block proposal not found"
  | some (blockHash, proposal) =>
    if proposal.status = .finalized ∨ proposal.status = .imported then return n
    else if (n.tally proposalId).approvals < requiredApprovals vc n.toImportNode then
      refuse 409 "validator quorum not reached"
    else
      let winner := selectForkChoice vc n proposal.height proposal.previousHash
      if winner.any fun w => w.2.proposalId ≠ proposalId then
        refuse 409 "proposal is not fork-choice winner"
      else
        let (m, imported) ←
          importFinalizedBlock vc.toImportConfig n.toImportNode proposal.payload proposalId
        let m := if imported then promoteReadyProposals vc.toConfig now m else m
        let finalize (row : ProposalRow) : ProposalRow :=
          { row with
            status := if imported then .imported else .finalized
            finalization := some imported
            updatedAt := now }
        return { n with
          toImportNode := { m with proposals := m.proposals.modify blockHash finalize } }

/-! ## Votes -/

/-- The body of a vote on a proposal. -/
structure VoteRequest where
  proposalId : String
  validatorId : String
  approved : Bool
  reason : String
  signature : String
  signedAt : String

/-- The vote that the request asks to record for a block. -/
def VoteRequest.vote (request : VoteRequest) (blockHash : String) : ConsensusVoteRow where
  proposalId := request.proposalId
  blockHash := blockHash
  validatorId := request.validatorId
  approved := request.approved
  reason := request.reason
  signature := request.signature
  signedAt := request.signedAt

/-- The validator has a vote on another proposal for the same place that is not rejected. -/
def votedOnFork (n : VotingNode σ) (validatorId proposalId : String) (proposal : ProposalRow) :
    Bool :=
  n.votes.any fun v => v.validatorId = validatorId && v.proposalId ≠ proposalId &&
    (n.proposalById v.proposalId).any fun p => p.2.height = proposal.height &&
      p.2.previousHash = proposal.previousHash && p.2.status ≠ .rejected

/-- The refusal of a validator that may not vote. -/
def ConsensusValidatorRow.refusal (cfg : Config) (row : ConsensusValidatorRow) : Option String :=
  let status := row.onlineStatus
  if row.isBanned then some "validator is banned"
  else if !row.enabled then some "validator is disabled"
  else if row.onlineStatus ≠ "online" then some s!"validator is {status}"
  else if row.syncStatus = "out_of_sync" then some "validator is out_of_sync"
  else if row.protocolVersion ≠ some cfg.protocolVersion then
    some "validator protocol version is incompatible"
  else none

/-- The checks of a vote; the proposal that it is about, with its block hash. -/
def checkVote (vc : VotingConfig σ) (n : VotingNode σ) (request : VoteRequest) :
    Except ImportError (String × ProposalRow) :=
  match n.proposalById request.proposalId with
  | none => refuse 404 "block proposal not found"
  | some (blockHash, proposal) =>
    let status := proposal.status.text
    if proposal.status.closed then refuse 409 s!"proposal already {status}"
    else
      match (vc.validators n.services).find? request.validatorId,
          n.validatorKeys.find? request.validatorId with
      | some validator, some publicKey =>
        match validator.refusal vc.toConfig with
        | some detail => refuse 403 detail
        | none =>
          if n.votes.any fun v => v.proposalId = request.proposalId &&
              v.validatorId = request.validatorId then
            refuse 409 "validator already voted on proposal"
          else if votedOnFork n request.validatorId request.proposalId proposal then
            refuse 409 "validator already voted on competing fork"
          else if !vc.verifyPayloadSignature publicKey
              (consensusVotePayload (request.vote blockHash) proposal.height)
              request.signature then
            refuse 401 "invalid consensus vote signature"
          else .ok (blockHash, proposal)
      | _, _ => refuse 404 "validator not found"

/-- The votes of one kind on a proposal. -/
def countVotes (votes : List ConsensusVoteRow) (proposalId : String) (approved : Bool) : ℕ :=
  (votes.filter fun v => v.proposalId = proposalId && v.approved = approved).length

/-- The vote is stored, and `_refresh_vote_counts` counts the votes on its proposal. -/
def recordConsensusVote (n : VotingNode σ) (vote : ConsensusVoteRow) : VotingNode σ :=
  let votes := n.votes ++ [vote]
  let refresh (tally : ProposalTally) : ProposalTally :=
    { tally with
      approvals := countVotes votes vote.proposalId true
      rejections := countVotes votes vote.proposalId false }
  { n with votes, tallies := n.tallies.modify vote.proposalId refresh }

/-- `vote_on_proposal`: an error of the finalization takes the vote back. -/
def voteOnProposal (vc : VotingConfig σ) (now : String) (n : VotingNode σ)
    (request : VoteRequest) : Except ImportError (VotingNode σ) := do
  let (blockHash, _) ← checkVote vc n request
  let n := recordConsensusVote n (request.vote blockHash)
  let tally := n.tally request.proposalId
  let required := requiredApprovals vc n.toImportNode
  if required ≤ tally.approvals then finalizeProposal vc now n request.proposalId
  else if required ≤ tally.rejections then
    let reject (row : ProposalRow) : ProposalRow :=
      { row with status := .rejected, updatedAt := now }
    return { n with proposals := n.proposals.modify blockHash reject }
  else return n

/-! ## Requests -/

/-- What reaches a node: proposals, votes, requests to finalize, blocks by the other routes, and
what the other services write. -/
inductive ConsensusCall (σ : Type) where
  | propose (block : Value) (proposerNodeId : String) (sync : List (String × ImportCall))
  | vote (request : VoteRequest)
  | finalize (proposalId : String)
  | receive (call : ImportCall)
  | services (validatorKeys : Sql.Table String String) (services : σ)

/-- One call at a time; a call that raises changes nothing. -/
def ConsensusCall.step (vc : VotingConfig σ) (n : VotingNode σ)
    (call : String × ConsensusCall σ) : VotingNode σ :=
  match call.2 with
  | .propose block proposerNodeId sync =>
    attempt (proposeBlock vc call.1 n block proposerNodeId sync) n
  | .vote request => attempt (voteOnProposal vc call.1 n request) n
  | .finalize proposalId => attempt (finalizeProposal vc call.1 n proposalId) n
  | .receive importCall =>
    { n with
      toImportNode := ImportCall.step vc.toImportConfig n.toImportNode (call.1, importCall) }
  | .services validatorKeys tables => { n with validatorKeys, services := tables }

end Picoin
