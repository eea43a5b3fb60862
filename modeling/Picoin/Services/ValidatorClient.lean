import Picoin.Core.Merkle
import Picoin.Services.Acceptance

/-!
# The validator client

The client of a validator takes a job from a server, as JSON, and decides whether to approve it.
It builds the unsigned payloads of the job's transactions itself, and checks the samples that the
miner revealed.

The job is any JSON value, so the definitions work on values: `get` and `item` are the accesses of
a dictionary, and a conversion that the language refuses raises.

* **`validateJob`** is the client's decision;
* **`isSignatureValidValue`** is the node's own check of a transaction that came as JSON.
-/

namespace Picoin.Client

open Json Outcome Decimal

/-- What the client's language and libraries provide: `int` and `Decimal` of a text, `str` of a
value that is no text, `str.upper`, the current time, and the digit that `calculate_pi_segment`
gives for one position, if it gives any. -/
structure ClientConfig extends Config where
  caseMap : CaseMap
  intOfText : String → Option ℤ
  intOfText_empty : intOfText "" = none
  decimalOfText : String → Option Dec
  textOf : Value → String
  textOf_null : textOf .null = "None"
  piDigit : ℤ → Value → Option String
  utcNow : String

/-- What an access or a conversion raises. -/
inductive PyError where
  | key (name : String)
  | type
  | value
  | attribute
deriving DecidableEq

/-! ## The language -/

/-- The truth value. -/
def truthy : Value → Bool
  | .null => false
  | .bool b => b
  | .int i => i ≠ 0
  | .float x => x ≠ 0
  | .str s => s ≠ ""
  | .arr items => !items.isEmpty
  | .obj fields => !fields.isEmpty

/-- `value or default`. -/
def orElse (value default : Value) : Value := if truthy value then value else default

/-- `value.get(key, default)`. -/
def get (value : Value) (key : String) (default : Value := .null) : Except PyError Value :=
  match value with
  | .obj fields => .ok ((fields.lookup key).getD default)
  | _ => .error .attribute

/-- `value[key]`. -/
def item (value : Value) (key : String) : Except PyError Value :=
  match value with
  | .obj fields =>
    match fields.lookup key with
    | none => .error (.key key)
    | some v => .ok v
  | _ => .error .type

/-- `list(value)`. -/
def toList : Value → Except PyError (List Value)
  | .arr items => .ok items
  | .str s => .ok (s.toList.map fun c => .str (String.singleton c))
  | .obj fields => .ok (fields.map fun f => .str f.1)
  | _ => .error .type

/-- `int(value)`. -/
def toInt (cc : ClientConfig) : Value → Except PyError ℤ
  | .int i => .ok i
  | .bool b => .ok (if b then 1 else 0)
  | .float x => .ok (x.tdiv (10 ^ 8))
  | .str s => match cc.intOfText s with
    | none => .error .value
    | some i => .ok i
  | _ => .error .type

/-- `str(value)`. -/
def toText (cc : ClientConfig) : Value → String
  | .str s => s
  | v => cc.textOf v

/-- `to_units(value)`. -/
def toUnitsOf (cc : ClientConfig) (value : Value) : Except PyError ℤ :=
  match value with
  | .null => .ok 0
  | v => match cc.decimalOfText (strip (toText cc v)) with
    | none => .error .value
    | some amount => .ok (toUnits amount)

/-- Equal values; numbers of different types are told apart. -/
def sameValue (v w : Value) : Bool := canonicalJson v = canonicalJson w

/-- Equal lists. -/
def sameValues : List Value → List Value → Bool
  | [], [] => true
  | v :: vs, w :: ws => sameValue v w && sameValues vs ws
  | _, _ => false

/-! ## The wallet's functions on JSON -/

/-- The dictionary of `unsigned_transaction_payload`. -/
structure UnsignedDict where
  amount : Value
  amountUnits : ℤ
  chainId : Value
  fee : Value
  feeUnits : ℤ
  networkId : Value
  nonce : ℤ
  payload : Value
  recipient : Value
  sender : Value
  timestamp : Value
  txType : Value
  withUnits : Bool
  withNullRecipient : Bool

def UnsignedDict.toJson (d : UnsignedDict) : Value :=
  .obj ([("amount", d.amount)] ++
    (if d.withUnits then [("amount_units", .int d.amountUnits)] else []) ++
    [("chain_id", d.chainId), ("fee", d.fee)] ++
    (if d.withUnits then [("fee_units", .int d.feeUnits)] else []) ++
    [("network_id", d.networkId), ("nonce", .int d.nonce), ("payload", d.payload)] ++
    (if d.withNullRecipient then [("recipient", d.recipient)] else []) ++
    [("sender", d.sender), ("timestamp", d.timestamp), ("tx_type", d.txType)])

/-- The arguments of `unsigned_transaction_payload`. -/
structure UnsignedArgs where
  txType : Value
  sender : Value
  recipient : Value
  amountUnits : ℤ
  nonce : ℤ
  feeUnits : ℤ
  payload : Value
  timestamp : Value
  networkId : Value
  chainId : Value

/-- `unsigned_transaction_payload`. -/
def unsignedTransactionPayload (cc : ClientConfig) (a : UnsignedArgs) : UnsignedDict where
  amount := .str (canonicalAmount a.amountUnits)
  amountUnits := a.amountUnits
  chainId := a.chainId
  fee := .str (canonicalAmount a.feeUnits)
  feeUnits := a.feeUnits
  networkId := a.networkId
  nonce := a.nonce
  payload := orElse a.payload (.obj [])
  recipient := a.recipient
  sender := a.sender
  timestamp := orElse a.timestamp (.str cc.utcNow)
  txType := a.txType
  withUnits := true
  withNullRecipient := true

def timestampValues : Value → List Value
  | .str t => (timestampVariants t).map .str
  | v => [v]

def chainIdValues : Value → List Value
  | .int n => [.int n, .str (toString n)]
  | .bool b => [.bool b, .str (if b then "True" else "False")]
  | .str s => (chainIdVariants (.text s)).map ChainId.toJson
  | v => [v]

def moneyValues (units : ℤ) : List Value :=
  [.str (canonicalAmount units), .float (unitsToFloat units)]

/-- The values of `recipient_modes`: a null recipient can be left out. -/
def recipientValues : Value → List Bool
  | .null => [true, false]
  | _ => [true]

/-- `transaction_signature_payload_candidates`, with the forms that the source leaves out as
repeated. -/
def signaturePayloadCandidates (base : UnsignedDict) : List UnsignedDict :=
  (timestampValues base.timestamp).flatMap fun timestamp =>
    (chainIdValues base.chainId).flatMap fun chainId =>
      (moneyValues base.amountUnits).flatMap fun amount =>
        (moneyValues base.feeUnits).flatMap fun fee =>
          [true, false].flatMap fun withUnits =>
            (recipientValues base.recipient).map fun withNullRecipient =>
              { base with timestamp, chainId, amount, fee, withUnits, withNullRecipient }

/-- `matching_transaction_signature_payload`. -/
def matchingSignaturePayload (cfg : Config) (unsigned : UnsignedDict) (publicKey txHash : Value) :
    Option UnsignedDict :=
  (signaturePayloadCandidates unsigned).find? fun candidate =>
    sameValue (.str (cfg.hashJson (.obj [("public_key", publicKey), ("tx", candidate.toJson)])))
      txHash

/-- `verify_payload_signature`; a key or a signature that is no text verifies nothing. -/
def verifyPayload (cfg : Config) (publicKey : Value) (payload : UnsignedDict) (signature : Value) :
    Bool :=
  match publicKey, signature with
  | .str publicKey, .str signature => cfg.verifyPayloadSignature publicKey payload.toJson signature
  | _, _ => false

/-- `address_matches_public_key`. -/
def addressMatches (cfg : Config) (address publicKey : Value) : Bool :=
  match address, publicKey with
  | .str address, .str publicKey => addressMatchesPublicKey cfg address publicKey
  | _, _ => false

/-! ## The node's check of a transaction -/

/-- `_tx_amount_units` and `_tx_fee_units`: the units of a money field. -/
def moneyUnits (cc : ClientConfig) (tx : Value) (units amount : String) : Except PyError ℤ := do
  match ← get tx units with
  | .null => toUnitsOf cc (← get tx amount (.int 0))
  | v => toInt cc (orElse v (.int 0))

/-- `_unsigned_from_tx`. -/
def unsignedFromValue (cc : ClientConfig) (tx : Value) : Except PyError UnsignedDict := do
  let txType ← item tx "tx_type"
  let sender ← item tx "sender"
  let recipient ← get tx "recipient"
  let amountUnits ← moneyUnits cc tx "amount_units" "amount"
  let nonce ← toInt cc (← item tx "nonce")
  let feeUnits ← moneyUnits cc tx "fee_units" "fee"
  let payload ← get tx "payload"
  let timestamp ← item tx "timestamp"
  let networkId ← get tx "network_id" (.str cc.networkId)
  let chainId ← get tx "chain_id" cc.chainId.toJson
  return unsignedTransactionPayload cc
    { txType, sender, recipient, amountUnits, nonce, feeUnits, payload, timestamp, networkId
      chainId }

/-- The body of `_is_signature_valid`. -/
def checkSignature (cc : ClientConfig) (tx : Value) : Except PyError Bool := do
  let unsigned ← unsignedFromValue cc tx
  let publicKey ← item tx "public_key"
  let txHash ← item tx "tx_hash"
  let networkId ← get tx "network_id"
  let chainId ← get tx "chain_id"
  let sender ← get tx "sender"
  if !(sameValue networkId (.str cc.networkId) && toText cc chainId = cc.chainId.str &&
      addressMatches cc.toConfig sender publicKey) then return false
  else match matchingSignaturePayload cc.toConfig unsigned publicKey txHash with
    | none => return false
    | some payload => return verifyPayload cc.toConfig publicKey payload (← item tx "signature")

/-- `_is_signature_valid`: what it raises is a refusal. -/
def isSignatureValidValue (cc : ClientConfig) (tx : Value) : Bool :=
  match checkSignature cc tx with
  | .ok valid => valid
  | .error _ => false

/-! ## The commitment to the transactions -/

/-- `canonical_tx_hashes`. -/
def canonicalTxHashes (cc : ClientConfig) (txHashes : List Value) : List String :=
  txHashes.map (toText cc)

/-- `selected_tx_hashes_hash`. -/
def selectedHashesHash (cc : ClientConfig) (txHashes : List Value) : String :=
  selectedTxHashesHash cc.toConfig (canonicalTxHashes cc txHashes)

/-- `transaction_commitment`. -/
def jobCommitment (cc : ClientConfig) (transactions : List Value) : Except PyError TxCommitment := do
  let txHashes ← transactions.mapM fun tx => item tx "tx_hash"
  let fees ← transactions.mapM fun tx => moneyUnits cc tx "fee_units" "fee"
  return transactionCommitment cc.toConfig ((canonicalTxHashes cc txHashes).zip fees)

/-! ## The client's checks -/

/-- The client's units of a money field. -/
def clientUnits (cc : ClientConfig) (tx : Value) (units amount : String) : Except PyError ℤ := do
  match ← get tx units with
  | .null => toUnitsOf cc (← get tx amount (.int 0))
  | v => toInt cc v

/-- The client's unsigned payload of a transaction. -/
def clientUnsigned (cc : ClientConfig) (tx : Value) : Except PyError UnsignedDict := do
  let amountUnits ← clientUnits cc tx "amount_units" "amount"
  let feeUnits ← clientUnits cc tx "fee_units" "fee"
  let txType ← get tx "tx_type"
  let sender ← get tx "sender"
  let recipient ← get tx "recipient"
  let nonce ← toInt cc (orElse (← get tx "nonce") (.int 0))
  let payload ← get tx "payload"
  let timestamp ← get tx "timestamp"
  let networkId ← get tx "network_id"
  let chainId ← get tx "chain_id"
  return unsignedTransactionPayload cc
    { txType, sender, recipient, amountUnits, nonce, feeUnits, payload := orElse payload (.obj [])
      timestamp, networkId, chainId }

/-- One turn of the loop over the transactions; the reason of a refusal. -/
def clientChecksTx (cc : ClientConfig) (tx : Value) : Except PyError (Option String) := do
  let unsigned ← clientUnsigned cc tx
  if toText cc unsigned.chainId ≠ cc.chainId.str ∨
      sameValue unsigned.networkId (.str cc.networkId) = false then
    return some "invalid_tx_payload"
  else
    let publicKey ← get tx "public_key" (.str "")
    let txHash ← get tx "tx_hash" (.str "")
    match matchingSignaturePayload cc.toConfig unsigned publicKey txHash with
    | none => return some "invalid_tx_payload"
    | some payload =>
      let signature ← get tx "signature" (.str "")
      if verifyPayload cc.toConfig publicKey payload signature then return none
      else return some "invalid_tx_signature"

/-- The first refusal of a list of checks. -/
def firstRefusal {α : Type} (check : α → Except PyError (Option String)) :
    List α → Except PyError (Option String)
  | [] => .ok none
  | x :: rest => do
    match ← check x with
    | some reason => return some reason
    | none => firstRefusal check rest

/-- The items of a proof. -/
def proofItems (proof : Value) : Except PyError (List (Value × Value)) := do
  (← toList proof).mapM fun entry => do return (← get entry "side", ← get entry "hash")

/-- The loop of `verify_merkle_proof` on JSON. -/
def foldProofValues (cfg : Config) (current : Value) : List (Value × Value) → Option Value
  | [] => some current
  | (side, hash) :: rest =>
    let parent left right := Value.str (cfg.hashJson (.obj [("left", left), ("right", right)]))
    if sameValue side (.str "left") then foldProofValues cfg (parent hash current) rest
    else if sameValue side (.str "right") then foldProofValues cfg (parent current hash) rest
    else none

/-- `verify_merkle_proof` on JSON. -/
def verifyProofValue (cc : ClientConfig) (position : Value) (digit : String) (proof root : Value) :
    Except PyError Bool := do
  let leaf := cc.hashJson (.obj [("digit", .str (cc.caseMap.upper digit)), ("position", position)])
  match foldProofValues cc.toConfig (.str leaf) (← proofItems proof) with
  | none => return false
  | some current => return sameValue current root

/-- The number of a position; only integers count positions. -/
def positionNumber : Value → Except PyError ℤ
  | .int i => .ok i
  | .bool b => .ok (if b then 1 else 0)
  | _ => .error .type

/-- `validate_sample`; the reason of a refusal. -/
def validateSample (cc : ClientConfig) (algorithm merkleRoot sample : Value) :
    Except PyError (Option String) := do
  let position ← item sample "position"
  let digit := cc.caseMap.upper (toText cc (← item sample "digit"))
  match cc.piDigit (← positionNumber position) algorithm with
  | none => .error .value
  | some expected =>
    let place := toText cc position
    if digit ≠ expected then return some s!"digit mismatch at position {place}"
    else if ← verifyProofValue cc position digit (← item sample "proof") merkleRoot then
      return none
    else return some s!"invalid merkle proof at position {place}"

/-- `validate_samples`: with several workers all samples are checked before the results are read
in order. -/
def validateSamples (cc : ClientConfig) (job : Value) (workers : ℤ) :
    Except PyError (Option String) := do
  let samples ← toList (← item job "samples")
  let algorithm ← item job "algorithm"
  let merkleRoot ← item job "merkle_root"
  if workers ≤ 1 ∨ samples.length ≤ 1 then
    firstRefusal (validateSample cc algorithm merkleRoot) samples
  else firstRefusal id (samples.map (validateSample cc algorithm merkleRoot))

/-- The checks of `validate_job` on listed transactions. -/
def validateTransactions (cc : ClientConfig) (job : Value) (transactions txHashes : List Value) :
    Except PyError (Option String) := do
  if transactions.isEmpty then return none
  else
    let actualHashes ← transactions.mapM fun tx => get tx "tx_hash"
    if !sameValues actualHashes txHashes then return some "invalid_tx_order"
    else match ← firstRefusal (clientChecksTx cc) transactions with
      | some reason => return some reason
      | none =>
        let commitment ← jobCommitment cc transactions
        if !sameValue (.str commitment.txMerkleRoot)
            (orElse (← get job "tx_merkle_root") (.str "")) then
          return some "invalid_tx_merkle_root"
        else if commitment.txFeeTotalUnits ≠
            (← toInt cc (orElse (← get job "tx_fee_total_units") (.int 0))) then
          return some "invalid_fee_total"
        else return none

/-- The list that a job holds under a key. -/
def jobList (job : Value) (key : String) : Except PyError (List Value) := do
  toList (orElse (← get job key) (.arr []))

/-- `validate_job`; the reason of a refusal. -/
def validateJob (cc : ClientConfig) (job : Value) (workers : ℤ) :
    Except PyError (Option String) := do
  let txHashes ← jobList job "selected_tx_hashes"
  let transactions ← jobList job "transactions"
  let txCount ← toInt cc (orElse (← get job "tx_count") (.int 0))
  let stated := orElse (← get job "selected_tx_hashes_hash") (.str (selectedHashesHash cc []))
  if (txHashes.length : ℤ) ≠ txCount then return some "tx_snapshot_mismatch"
  else if !sameValue (.str (selectedHashesHash cc txHashes)) stated then
    return some "tx_snapshot_mismatch"
  else match ← validateTransactions cc job transactions txHashes with
    | some reason => return some reason
    | none => validateSamples cc job workers

end Picoin.Client
