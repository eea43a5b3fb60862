import Picoin.Services.Wallet

/-!
# Signing a transaction

`signTransaction` is how a wallet makes a transaction: it writes the canonical money fields and
takes the hash of the unsigned payload. Such a transaction passes the signature check whenever its
sender is the key's address and the signature verifies.
-/

namespace Picoin

open Decimal

/-- The hash of a transaction's unsigned payload. -/
def unsignedHash (cfg : Config) (tx : Tx) : String :=
  transactionHash cfg (unsignedFromTx cfg tx) tx.publicKey

/-- The payload as it is written comes first among the forms. -/
theorem candidates_head (cfg : Config) (tx : Tx) :
    ∃ rest, transactionSignaturePayloadCandidates (unsignedFromTx cfg tx) =
      unsignedFromTx cfg tx :: rest := by
  have hchain : ∀ c, ∃ rest, chainIdVariants c = c :: rest := by
    intro c
    cases c with
    | number n => exact ⟨_, rfl⟩
    | text s =>
      rw [chainIdVariants]
      split <;> exact ⟨_, rfl⟩
  have hmodes : ∃ rest, recipientModes (unsignedFromTx cfg tx) = true :: rest := by
    unfold recipientModes
    split <;> exact ⟨_, rfl⟩
  obtain ⟨chains, hchains⟩ := hchain (unsignedFromTx cfg tx).chainId
  obtain ⟨modes, hmodes⟩ := hmodes
  unfold transactionSignaturePayloadCandidates timestampVariants
  rw [hchains, hmodes]
  exact ⟨_, rfl⟩

theorem isSignatureValid_of_unsignedHash {cfg : Config} {tx : Tx}
    (hnetwork : tx.networkId = some cfg.networkId) (hchain : tx.chainId = some cfg.chainId)
    (haddress : addressMatchesPublicKey cfg tx.sender tx.publicKey = true)
    (hhash : tx.txHash = unsignedHash cfg tx)
    (hverify : cfg.verifyPayloadSignature tx.publicKey (unsignedFromTx cfg tx).toJson tx.signature
      = true) :
    isSignatureValid cfg tx = true := by
  have hsigned : signedPayload cfg tx = some (unsignedFromTx cfg tx) := by
    obtain ⟨rest, hrest⟩ := candidates_head cfg tx
    unfold signedPayload matchingTransactionSignaturePayload
    rw [hrest, List.find?_cons_of_pos]
    simpa [unsignedHash] using hhash.symm
  simp [isSignatureValid, hsigned, hnetwork, hchain, haddress, hverify]

/-- What a wallet asks to be signed. -/
structure SigningRequest where
  publicKey : String
  signature : String
  txType : TxType
  sender : String
  nonce : ℤ
  feeUnits : ℤ := 0
  recipient : Option String := none
  amountUnits : ℤ := 0
  payload : Payload := {}
  timestamp : Timestamp

/-- The transaction of a request, before its hash is known. -/
def SigningRequest.unhashed (cfg : Config) (r : SigningRequest) : Tx where
  txHash := ""
  txType := r.txType
  sender := r.sender
  recipient := r.recipient
  amount := some (canonicalDec r.amountUnits)
  amountUnits := some r.amountUnits
  fee := some (canonicalDec r.feeUnits)
  feeUnits := some r.feeUnits
  nonce := r.nonce
  payload := r.payload
  timestamp := r.timestamp
  publicKey := r.publicKey
  signature := r.signature
  networkId := some cfg.networkId
  chainId := some cfg.chainId

/-- `sign_transaction`; the signature is the wallet's. -/
def signTransaction (cfg : Config) (r : SigningRequest) : Tx :=
  { r.unhashed cfg with txHash := unsignedHash cfg (r.unhashed cfg) }

theorem decoded_signTransaction (cfg : Config) (r : SigningRequest) :
    (signTransaction cfg r).Decoded where
  amount := by simp [txAmountUnits, signTransaction, SigningRequest.unhashed]
  fee := by simp [txFeeUnits, signTransaction, SigningRequest.unhashed]

/-- A signed transaction is in the form the mempool gives it. -/
theorem decodeMempoolTransaction_signTransaction (cfg : Config) (r : SigningRequest) :
    decodeMempoolTransaction (signTransaction cfg r) = signTransaction cfg r := rfl

theorem isSignatureValid_signTransaction {cfg : Config} {r : SigningRequest}
    (haddress : addressMatchesPublicKey cfg r.sender r.publicKey = true)
    (hverify : ∀ payload, cfg.verifyPayloadSignature r.publicKey payload r.signature = true) :
    isSignatureValid cfg (signTransaction cfg r) = true :=
  isSignatureValid_of_unsignedHash rfl rfl haddress rfl (hverify _)

end Picoin
