import Picoin.Services.Consensus

/-!
# The hash of a received block

The hash of a block is the hash of a dictionary made of the block's fields. Which fields are in it
has changed over time, so a received block is accepted when its hash is the one of any selection
of the optional groups of fields. Its transactions are not part of the hash: only their number,
their hashes and their Merkle root are, and the import compares these with the transactions.

* **`validateBlockHash`** is the check of the hash;
* **`checkBlockTransactions`** is the check of the transactions.
-/

namespace Picoin

open Json Outcome

/-- `BLOCK_REQUIRED_FIELDS`, in the order of their names. -/
def blockRequiredFields : List String :=
  ["algorithm", "block_hash", "height", "miner_id", "previous_hash", "range_end", "range_start",
    "result_hash", "reward", "samples", "timestamp"]

/-! ## The fields -/

/-- `round(float(value), 8)`. -/
def toFloat (cc : Client.ClientConfig) : Value → Except Client.PyError ℤ
  | .int i => .ok (i * 10 ^ 8)
  | .bool b => .ok (if b then 10 ^ 8 else 0)
  | .float x => .ok x
  | .str s => match cc.decimalOfText (strip s) with
    | none => .error .value
    | some amount => .ok (round8 amount)
  | _ => .error .type

def asFloat (cc : Client.ClientConfig) (value : Value) : Except Client.PyError Value := do
  return .float (← toFloat cc value)

def asInt (cc : Client.ClientConfig) (value : Value) : Except Client.PyError Value := do
  return .int (← Client.toInt cc value)

/-- `str(value).strip().upper()`. -/
def asAddress (cc : Client.ClientConfig) (value : Value) : Except Client.PyError Value :=
  .ok (.str (cc.caseMap.upper (strip (Client.toText cc value))))

/-- A field that is left out when it is null. -/
def presentField (block : Value) (key : String)
    (convert : Value → Except Client.PyError Value) :
    Except Client.PyError (List (String × Value)) := do
  match ← Client.get block key with
  | .null => return []
  | value => return [(key, ← convert value)]

/-- A field that is left out when it is empty. -/
def nonemptyField (block : Value) (key : String)
    (convert : Value → Except Client.PyError Value) :
    Except Client.PyError (List (String × Value)) := do
  let value ← Client.get block key
  if Client.truthy value then return [(key, ← convert value)] else return []

/-- `int(block.get("tx_count") or 0)`. -/
def blockTxCount (cc : Client.ClientConfig) (block : Value) : Except Client.PyError ℤ := do
  Client.toInt cc (← fieldOr block "tx_count" (.int 0))

/-- The fields that every form of the dictionary has. -/
def mandatoryFields (cc : Client.ClientConfig) (block : Value) :
    Except Client.PyError (List (String × Value)) := do
  return [("algorithm", ← Client.item block "algorithm"),
    ("height", ← asInt cc (← Client.item block "height")),
    ("miner_id", ← Client.item block "miner_id"),
    ("previous_hash", ← Client.item block "previous_hash"),
    ("range_end", ← asInt cc (← Client.item block "range_end")),
    ("range_start", ← asInt cc (← Client.item block "range_start")),
    ("result_hash", ← Client.item block "result_hash"),
    ("reward", ← asFloat cc (← Client.item block "reward")),
    ("samples", ← Client.item block "samples"),
    ("timestamp", ← Client.item block "timestamp")]

/-- The fields about the transactions, of a block that has some. -/
def transactionsGroup (cc : Client.ClientConfig) (block : Value) :
    Except Client.PyError (List (String × Value)) := do
  let txCount ← blockTxCount cc block
  if 0 < txCount then
    return [("tx_merkle_root", ← Client.get block "tx_merkle_root"), ("tx_count", .int txCount),
      ("tx_hashes", ← fieldOr block "tx_hashes" (.arr [])),
      ("fee_reward", ← asFloat cc (← fieldOr block "fee_reward" (.int 0)))]
  else return []

/-- The optional groups before those of the protocol. -/
def leadingGroups (cc : Client.ClientConfig) (block : Value) :
    Except Client.PyError (List (List (String × Value))) := do
  return [← presentField block "difficulty" (asFloat cc),
    ← presentField block "protocol_params_id" (asInt cc),
    ← presentField block "total_block_ms" (asInt cc),
    ← nonemptyField block "merkle_root" .ok,
    ← nonemptyField block "miner_reward_address" (asAddress cc)]

/-- The groups of the protocol. -/
def protocolGroups (cc : Client.ClientConfig) (block : Value) :
    Except Client.PyError (List (List (String × Value))) := do
  return [
    [("protocol_version", ← Client.get block "protocol_version" (.str cc.protocolVersion))],
    [("validation_mode", ← Client.get block "validation_mode" (.str validationMode))]]

/-- The group of the fields about a fraud. -/
def fraudGroup (block : Value) : Except Client.PyError (List (String × Value)) := do
  return [
    ("fraudulent", .bool (Client.truthy (← Client.get block "fraudulent" (.bool false)))),
    ("fraud_reason", ← Client.get block "fraud_reason"),
    ("fraud_detected_at", ← Client.get block "fraud_detected_at")]

/-! ## The hash -/

/-- `_block_hash_variant_payloads`: the two canonical forms, and the mandatory fields with every
selection of the optional groups. A group without fields stands for one that is left out. -/
def blockHashVariantPayloads (cc : Client.ClientConfig) (block : Value) :
    Except Client.PyError (List (List (String × Value))) := do
  let mandatory ← mandatoryFields cc block
  let leading ← leadingGroups cc block
  let protocol ← protocolGroups cc block
  let transactions ← transactionsGroup cc block
  let fraud ← fraudGroup block
  let groups := leading ++ protocol ++ [transactions, fraud]
  let canonical := mandatory ++ leading.flatten ++ transactions
  return [canonical ++ protocol.flatten, canonical] ++
    groups.sublists.map fun combination => mandatory ++ combination.flatten

/-- `_block_hash_candidates`. -/
def blockHashCandidates (cc : Client.ClientConfig) (block : Value) :
    Except Client.PyError (List String) := do
  return (← blockHashVariantPayloads cc block).map fun payload => cc.hashJson (.obj payload)

/-- `_validate_block_hash`, without the diagnostics that its last refusal ends with. -/
def validateBlockHash (cc : Client.ClientConfig) (block : Value) : Except ImportError Unit := do
  let missing := blockRequiredFields.filter fun key => (Client.item block key).toOption.isNone
  if missing ≠ [] then
    let names := ", ".intercalate missing
    refuse 422 s!"missing block fields: {names}"
  else
    let blockHash ← python (Client.item block "block_hash")
    let previousHash ← python (Client.item block "previous_hash")
    if (Client.toText cc blockHash).length ≠ 64 ∨ (Client.toText cc previousHash).length ≠ 64 then
      refuse 422 "invalid block hash length"
    else
      let candidates ← python (blockHashCandidates cc block)
      if candidates.any fun candidate => Client.sameValue blockHash (.str candidate) then return ()
      else refuse 422 "block_hash does not match canonical payload"

/-- The check of the transactions in `_import_finalized_block`. -/
def checkBlockTransactions (cc : Client.ClientConfig) (block : Value) :
    Except ImportError Unit := do
  let transactions ← python (fieldOr block "transactions" (.arr []))
  let txCount ← python (blockTxCount cc block)
  if 0 < txCount then
    let commitment ← python (do Client.jobCommitment cc (← Client.toList transactions))
    if (commitment.txHashes.length : ℤ) ≠ txCount then
      refuse 422 "block transactions are missing from proposal payload"
    else if !Client.sameValue (.str commitment.txMerkleRoot)
        (← python (Client.get block "tx_merkle_root")) then
      refuse 422 "block transaction merkle root mismatch"
    else return ()
  else return ()

end Picoin
