import Picoin.Core.Transaction
import Picoin.Core.Text

/-!
# Addresses and signed payloads

An address is `PI` followed by hexadecimal digits taken from the hash of a public key, with or
without a checksum. A transaction's hash and signature are over one of several JSON forms of its
unsigned payload, which differ in how they write the timestamp, the chain id and the money
fields; `matchingTransactionSignaturePayload` finds the form that the hash is of.
-/

namespace Picoin

open Json

/-! ## Addresses -/

def addressHashLength : ℕ := 38
def addressChecksumLength : ℕ := 8

/-- `[0-9A-F]`. -/
def isUpperHex (c : Char) : Bool := (48 ≤ c.toNat ∧ c.toNat ≤ 57) || (65 ≤ c.toNat ∧ c.toNat ≤ 70)

/-- The address pattern with `digits` hexadecimal digits. -/
def matchesAddressPattern (digits : ℕ) (text : String) : Bool :=
  match text.toList with
  | 'P' :: 'I' :: rest => rest.length = digits && rest.all isUpperHex
  | _ => false

def addressChecksum (cfg : Config) (addressBody : String) : String :=
  takeChars addressChecksumLength (upper (cfg.sha256Text addressBody))

/-- `legacy_address_from_public_key` without its prefix. -/
def addressBody (cfg : Config) (publicKey : String) : String :=
  takeChars addressHashLength (upper (cfg.sha256Text publicKey))

def legacyAddressFromPublicKey (cfg : Config) (publicKey : String) : String :=
  "PI" ++ addressBody cfg publicKey

def addressFromPublicKey (cfg : Config) (publicKey : String) : String :=
  let body := addressBody cfg publicKey
  "PI" ++ body ++ addressChecksum cfg body

def isValidAddress (cfg : Config) (address : Option String) : Bool :=
  match address with
  | none => false
  | some text =>
    let normalized := upper (strip text)
    if matchesAddressPattern addressHashLength normalized then true
    else if matchesAddressPattern (addressHashLength + addressChecksumLength) normalized then
      let digits := normalized.toList.drop 2
      let body := String.ofList (digits.take addressHashLength)
      String.ofList (digits.drop addressHashLength) = addressChecksum cfg body
    else false

def addressMatchesPublicKey (cfg : Config) (address publicKey : String) : Bool :=
  isValidAddress cfg (some address) &&
    (upper (strip address) = addressFromPublicKey cfg publicKey ||
      upper (strip address) = legacyAddressFromPublicKey cfg publicKey)

/-! ## The unsigned payload and its forms -/

/-- A money field of a payload: the canonical text of some units, or the number. -/
inductive MoneyValue where
  | canonical (units : ℤ)
  | float (units : ℤ)
deriving DecidableEq

def MoneyValue.units : MoneyValue → ℤ
  | .canonical u => u
  | .float u => u

def MoneyValue.toJson : MoneyValue → Value
  | .canonical u => .str (canonicalAmount u)
  | .float u => .float (unitsToFloat u)

/-- A payload that may have been signed. The units keys and a null recipient can be left out. -/
structure UnsignedPayload where
  amount : MoneyValue
  chainId : ChainId
  fee : MoneyValue
  networkId : String
  nonce : ℤ
  payload : Payload
  recipient : Option String
  sender : String
  timestamp : String
  txType : TxType
  withUnits : Bool
  withNullRecipient : Bool

/-- The units that a payload commits to. -/
def UnsignedPayload.amountUnits (p : UnsignedPayload) : ℤ := p.amount.units

def UnsignedPayload.feeUnits (p : UnsignedPayload) : ℤ := p.fee.units

def UnsignedPayload.toJson (p : UnsignedPayload) : Value :=
  .obj ([("amount", p.amount.toJson)] ++
    (if p.withUnits then [("amount_units", .int p.amountUnits)] else []) ++
    [("chain_id", p.chainId.toJson), ("fee", p.fee.toJson)] ++
    (if p.withUnits then [("fee_units", .int p.feeUnits)] else []) ++
    [("network_id", .str p.networkId), ("nonce", .int p.nonce), ("payload", p.payload.toJson)] ++
    (if p.recipient = none ∧ p.withNullRecipient = false then []
      else [("recipient", Value.optStr p.recipient)]) ++
    [("sender", .str p.sender), ("timestamp", .str p.timestamp), ("tx_type", .str p.txType.name)])

/-- What `transaction_hash` is the hash of. -/
def hashedPayload (p : UnsignedPayload) (publicKey : String) : Value :=
  .obj [("public_key", .str publicKey), ("tx", p.toJson)]

def transactionHash (cfg : Config) (p : UnsignedPayload) (publicKey : String) : String :=
  cfg.hashJson (hashedPayload p publicKey)

/-- `text.endswith(suffix)`, with the text before it. -/
def beforeSuffix? (text suffix : String) : Option String :=
  let cs := text.toList
  let n := cs.length - suffix.toList.length
  if suffix.toList.isSuffixOf cs then some (String.ofList (cs.take n)) else none

/-- `text.rsplit(".", 1)`. -/
def splitAtLastPoint (text : List Char) : Option (List Char × List Char) :=
  let fraction := (text.reverse.takeWhile (· ≠ '.')).reverse
  if '.' ∈ text then some (text.take (text.length - fraction.length - 1), fraction) else none

/-- The fraction of a timestamp without its trailing zeros, under both suffixes. -/
def compactVariants (value suffix other : String) : List String :=
  match beforeSuffix? value suffix with
  | none => []
  | some start =>
    match splitAtLastPoint start.toList with
    | none => []
    | some (whole, fraction) =>
      let trimmed := trimZeros fraction
      if trimmed = [] then []
      else [String.ofList (whole ++ '.' :: trimmed) ++ suffix,
        String.ofList (whole ++ '.' :: trimmed) ++ other]

def timestampVariants (value : String) : List String :=
  [value] ++
    (match beforeSuffix? value "Z", beforeSuffix? value "+00:00" with
      | some start, _ => [start ++ "+00:00"]
      | none, some start => [start ++ "Z"]
      | none, none => []) ++
    compactVariants value "Z" "+00:00" ++ compactVariants value "+00:00" "Z"

/-- The number that a text of decimal digits denotes. -/
def digitsValue (digits : List Char) : ℤ :=
  digits.foldl (fun n c => 10 * n + (c.toNat - 48)) 0

def chainIdVariants : ChainId → List ChainId
  | .number n => [.number n, .text (toString n)]
  | .text s =>
    if s ≠ "" ∧ s.toList.all Char.isDigit then [.text s, .number (digitsValue s.toList)]
    else [.text s]

def moneyVariants (units : ℤ) : List MoneyValue := [.canonical units, .float units]

def recipientModes (p : UnsignedPayload) : List Bool :=
  if p.recipient = none then [true, false] else [true]

/-- The forms in the order they are tried. The source leaves repeated forms out of the list,
which does not change the first one with a given hash. -/
def transactionSignaturePayloadCandidates (base : UnsignedPayload) : List UnsignedPayload :=
  (timestampVariants base.timestamp).flatMap fun timestamp =>
    (chainIdVariants base.chainId).flatMap fun chainId =>
      (moneyVariants base.amountUnits).flatMap fun amount =>
        (moneyVariants base.feeUnits).flatMap fun fee =>
          [true, false].flatMap fun withUnits =>
            (recipientModes base).map fun withNullRecipient =>
              { base with timestamp, chainId, amount, fee, withUnits, withNullRecipient }

def matchingTransactionSignaturePayload (cfg : Config) (unsigned : UnsignedPayload)
    (publicKey txHash : String) : Option UnsignedPayload :=
  (transactionSignaturePayloadCandidates unsigned).find? fun candidate =>
    transactionHash cfg candidate publicKey = txHash

/-- `_unsigned_from_tx`. -/
def unsignedFromTx (cfg : Config) (tx : Tx) : UnsignedPayload where
  amount := .canonical (txAmountUnits tx)
  chainId := tx.chainId.getD cfg.chainId
  fee := .canonical (txFeeUnits tx)
  networkId := tx.networkId.getD cfg.networkId
  nonce := tx.nonce
  payload := tx.payload
  recipient := tx.recipient
  sender := tx.sender
  timestamp := tx.timestamp.text
  txType := tx.txType
  withUnits := true
  withNullRecipient := true

/-- The payload that a transaction's hash is of. -/
def signedPayload (cfg : Config) (tx : Tx) : Option UnsignedPayload :=
  matchingTransactionSignaturePayload cfg (unsignedFromTx cfg tx) tx.publicKey tx.txHash

/-- `_is_signature_valid`. -/
def isSignatureValid (cfg : Config) (tx : Tx) : Bool :=
  tx.networkId = some cfg.networkId &&
    (tx.chainId.elim "None" ChainId.str) = cfg.chainId.str &&
    addressMatchesPublicKey cfg tx.sender tx.publicKey &&
    match signedPayload cfg tx with
    | none => false
    | some p => cfg.verifyPayloadSignature tx.publicKey p.toJson tx.signature

/-! ## What a valid signature says -/

/-- Every form agrees with the transaction on all but the way fields are written. -/
theorem mem_candidates {base p : UnsignedPayload}
    (h : p ∈ transactionSignaturePayloadCandidates base) :
    p.amountUnits = base.amountUnits ∧ p.feeUnits = base.feeUnits ∧ p.sender = base.sender ∧
      p.nonce = base.nonce ∧ p.recipient = base.recipient ∧ p.payload = base.payload ∧
      p.txType = base.txType := by
  simp only [transactionSignaturePayloadCandidates, List.mem_flatMap, List.mem_map] at h
  obtain ⟨_, -, _, -, amount, hamount, fee, hfee, _, -, _, -, rfl⟩ := h
  simp only [moneyVariants, List.mem_cons, List.not_mem_nil, or_false] at hamount hfee
  refine ⟨?_, ?_, rfl, rfl, rfl, rfl, rfl⟩
  · rcases hamount with rfl | rfl <;> rfl
  · rcases hfee with rfl | rfl <;> rfl

theorem signedPayload_spec {cfg : Config} {tx : Tx} {p : UnsignedPayload}
    (h : signedPayload cfg tx = some p) :
    transactionHash cfg p tx.publicKey = tx.txHash ∧ p.amountUnits = txAmountUnits tx ∧
      p.feeUnits = txFeeUnits tx ∧ p.sender = tx.sender ∧ p.nonce = tx.nonce := by
  have hmem := mem_candidates (List.mem_of_find?_eq_some h)
  refine ⟨by simpa using List.find?_some h, hmem.1, hmem.2.1, hmem.2.2.1, hmem.2.2.2.1⟩

/-- A valid signature is over a payload with the transaction's hash. -/
theorem isSignatureValid_signed {cfg : Config} {tx : Tx} (h : isSignatureValid cfg tx = true) :
    ∃ p, signedPayload cfg tx = some p ∧
      cfg.verifyPayloadSignature tx.publicKey p.toJson tx.signature = true := by
  unfold isSignatureValid at h
  cases hp : signedPayload cfg tx with
  | none => simp [hp] at h
  | some p => exact ⟨p, rfl, by simp_all⟩

end Picoin
