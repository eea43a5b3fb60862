import Picoin.Core.Settings
import Picoin.Core.Text
import Picoin.Db.Mining

/-!
# The payload of a block

A block's hash is the hash of a dict with its columns. The dict is built three times:
`acceptedPayload` when the block is accepted, `blockPayload` from the stored row when the chain is
verified, and in all its historical forms (`localVariantPayloads`) when the node proposes the block
to its peers. A key whose value is missing is left out of the dict, under conditions that the three
do not share.
-/

namespace Picoin

/-- `hash_block`. -/
def hashBlock (cfg : Config) (payload : List (String × Json.Value)) : String :=
  cfg.hashJson (.obj payload)

/-- The keys about the transactions of a block. -/
def transactionFields (block : BlockDraft) : List (String × Json.Value) :=
  [("tx_merkle_root", .str block.txMerkleRoot),
    ("tx_count", .int block.txCount),
    ("tx_hashes", .arr (block.txHashes.map .str)),
    ("fee_reward", .float block.feeReward)]

/-- `block_payload` of `_accept_block_in_connection`. -/
def acceptedPayload (block : BlockDraft) : List (String × Json.Value) :=
  [("algorithm", .str block.algorithm),
    ("height", .int block.height),
    ("miner_id", .str block.minerId),
    ("previous_hash", .str block.previousHash),
    ("range_end", .int block.rangeEnd),
    ("range_start", .int block.rangeStart),
    ("result_hash", .str block.resultHash),
    ("reward", .float block.reward),
    ("difficulty", .float block.difficulty),
    ("samples", block.samples),
    ("timestamp", .str block.timestamp),
    ("protocol_params_id", .int block.protocolParamsId),
    ("protocol_version", .str block.protocolVersion),
    ("total_block_ms", .optInt block.totalBlockMs),
    ("validation_mode", .str block.validationMode)] ++
  Json.Value.field? "miner_reward_address" (block.minerRewardAddress.map .str) ++
  Json.Value.field? "merkle_root"
    ((block.merkleRoot.filter fun root => root ≠ "").map .str) ++
  if block.txCount ≠ 0 then transactionFields block else []

/-- `_block_payload`. -/
def blockPayload (block : BlockDraft) (includeProtocol : Bool) : List (String × Json.Value) :=
  [("algorithm", .str block.algorithm),
    ("height", .int block.height),
    ("miner_id", .str block.minerId),
    ("previous_hash", .str block.previousHash),
    ("range_end", .int block.rangeEnd),
    ("range_start", .int block.rangeStart),
    ("result_hash", .str block.resultHash),
    ("reward", .float block.reward),
    ("samples", block.samples),
    ("timestamp", .str block.timestamp),
    ("difficulty", .float block.difficulty),
    ("protocol_params_id", .int block.protocolParamsId)] ++
  Json.Value.field? "total_block_ms" (block.totalBlockMs.map .int) ++
  Json.Value.field? "merkle_root"
    ((block.merkleRoot.filter fun root => root ≠ "").map .str) ++
  (if 0 < block.txCount then transactionFields block else []) ++
  if includeProtocol then
    [("protocol_version", .str block.protocolVersion),
      ("validation_mode", .str block.validationMode)]
  else []

/-- The keys about a fraud, which `verify_chain` adds for a block that was marked fraudulent. -/
def fraudFields (block : MinedBlockRow) : List (String × Json.Value) :=
  [("fraudulent", .bool block.fraudulent),
    ("fraud_reason", .optStr block.fraudReason),
    ("fraud_detected_at", .optStr block.fraudDetectedAt)]

/-- The payloads whose hashes `verify_chain` takes for the block's. -/
def rebuiltPayloads (block : MinedBlockRow) : List (List (String × Json.Value)) :=
  [blockPayload block.toBlockDraft true,
    blockPayload block.toBlockDraft false,
    blockPayload block.toBlockDraft true ++ fraudFields block,
    blockPayload block.toBlockDraft false ++ fraudFields block]

/-! ## The node's own proposal -/

/-- `VALIDATION_MODE`. -/
def validationMode : String := "external_commit_reveal"

/-- The fields that every form of a proposed block has. -/
def localMandatoryFields (block : BlockDraft) : List (String × Json.Value) :=
  [("algorithm", .str block.algorithm),
    ("height", .int block.height),
    ("miner_id", .str block.minerId),
    ("previous_hash", .str block.previousHash),
    ("range_end", .int block.rangeEnd),
    ("range_start", .int block.rangeStart),
    ("result_hash", .str block.resultHash),
    ("reward", .float block.reward),
    ("samples", block.samples),
    ("timestamp", .str block.timestamp)]

/-- The optional groups of fields before those of the protocol; an empty group is left out. -/
def localLeadingGroups (block : BlockDraft) : List (List (String × Json.Value)) :=
  [[("difficulty", .float block.difficulty)],
    [("protocol_params_id", .int block.protocolParamsId)],
    Json.Value.field? "total_block_ms" (block.totalBlockMs.map .int),
    Json.Value.field? "merkle_root"
      ((block.merkleRoot.filter fun root => root ≠ "").map .str),
    Json.Value.field? "miner_reward_address"
      ((block.minerRewardAddress.filter fun address => address ≠ "").map fun address =>
        .str (upper (strip address)))]

/-- The groups of the protocol, with the defaults of `_normalize_block`. -/
def localProtocolGroups (cfg : Config) (block : BlockDraft) : List (List (String × Json.Value)) :=
  [[("protocol_version", .str (textOr (some block.protocolVersion) cfg.protocolVersion))],
    [("validation_mode", .str (textOr (some block.validationMode) validationMode))]]

/-- `_block_hash_variant_payloads` of a block that the node has built itself. -/
def localVariantPayloads (cfg : Config) (block : MinedBlockRow) :
    List (List (String × Json.Value)) :=
  let mandatory := localMandatoryFields block.toBlockDraft
  let leading := localLeadingGroups block.toBlockDraft
  let protocol := localProtocolGroups cfg block.toBlockDraft
  let transactions := if 0 < block.txCount then transactionFields block.toBlockDraft else []
  let canonical := mandatory ++ leading.flatten ++ transactions
  [canonical ++ protocol.flatten, canonical] ++
    (leading ++ protocol ++ [transactions, fraudFields block]).sublists.map fun combination =>
      mandatory ++ combination.flatten

/-- The check of `_validate_block_hash` in `record_local_block_proposal`. Hashes have 64 digits, so
its check of their length does not fail here. -/
def validatesLocalProposal (cfg : Config) (block : MinedBlockRow) : Bool :=
  (localVariantPayloads cfg block).any fun payload => hashBlock cfg payload = block.blockHash

end Picoin
