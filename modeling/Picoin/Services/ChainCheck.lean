import Picoin.Services.Acceptance

/-!
# Verifying the stored chain

`verifyChain` goes through the stored blocks and reports what does not fit: a height, the hash of
the block before, a result that occurs twice, and a block hash that is none of the hashes rebuilt
from the row. A block hash is also taken from a proposal or a header of the block that a peer sent,
if the hash is rebuilt from that. The state roots are checked against the ledger elsewhere.
-/

namespace Picoin

inductive ChainIssue where
  | height
  | previousHash
  | duplicateResult
  | blockHash
deriving DecidableEq

/-- `_matches_imported_proposal_payload`, over the payloads of the stored proposals and headers. -/
def matchesImportedProposalPayload (cfg : Config) (proposals : List MinedBlockRow)
    (block : MinedBlockRow) : Bool :=
  proposals.any fun proposal => proposal.blockHash = block.blockHash &&
    proposal.height = block.height &&
    (rebuiltPayloads proposal).any fun payload => hashBlock cfg payload = block.blockHash

/-- The block hash is one that is rebuilt. -/
def blockHashMatches (cfg : Config) (proposals : List MinedBlockRow) (block : MinedBlockRow) :
    Bool :=
  (rebuiltPayloads block).any (fun payload => hashBlock cfg payload = block.blockHash) ||
    matchesImportedProposalPayload cfg proposals block

/-- The issues of a block after a tip and the results before it. -/
def blockIssues (cfg : Config) (proposals : List MinedBlockRow) (tip : ChainTip)
    (seen : List String) (block : MinedBlockRow) : List ChainIssue :=
  (if block.height ≠ tip.height + 1 then [.height] else []) ++
  (if block.previousHash ≠ tip.blockHash then [.previousHash] else []) ++
  (if block.resultHash ∈ seen then [.duplicateResult] else []) ++
  (if blockHashMatches cfg proposals block then [] else [.blockHash])

/-- The loop of `verify_chain`: the height that it expects goes up by one, and the hash is that of
the block before. -/
def chainIssues (cfg : Config) (proposals : List MinedBlockRow) :
    ChainTip → List String → List MinedBlockRow → List (ℤ × ChainIssue)
  | _, _, [] => []
  | tip, seen, block :: rest =>
    (blockIssues cfg proposals tip seen block).map (fun issue => (block.height, issue)) ++
      chainIssues cfg proposals ⟨tip.height + 1, block.blockHash⟩ (block.resultHash :: seen) rest

variable {σ : Type}

/-- What `verify_chain` starts from: the base if the first block is above it, else the genesis. -/
def verifyStart (cfg : Config) (s : MiningState σ) : ChainTip :=
  if s.blocks.head?.any fun block => block.height = s.base.height + 1 then s.base
  else ⟨0, cfg.genesisHash⟩

/-- `verify_chain`. -/
def verifyChain (cfg : Config) (proposals : List MinedBlockRow) (s : MiningState σ) :
    List (ℤ × ChainIssue) :=
  chainIssues cfg proposals (verifyStart cfg s) [] s.blocks

end Picoin
