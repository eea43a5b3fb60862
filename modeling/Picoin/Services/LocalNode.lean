import Picoin.Services.Execution
import Picoin.Services.Signing

/-!
# A node on the local network

The settings of the local network profile, two wallets and a node that has just been set up. The
concrete runs of the development take place here. The node's cryptography is a stand-in that is
easy to evaluate: a digest for the two public keys, and one signature that verifies.
-/

namespace Picoin

/-! ## Settings and wallets -/

def aliceKey : String := "alice"
def bobKey : String := "bob"

/-- A stand-in for SHA-256: a digest for the two keys, and the text itself otherwise. -/
def localSha256Text (text : String) : String :=
  if text = aliceKey then "aaaaaaaaaaaaaaaaaaaaaaaaaaaaaaaaaaaaaaaaaaaaaaaaaaaaaaaaaaaaaaaa"
  else if text = bobKey then "bbbbbbbbbbbbbbbbbbbbbbbbbbbbbbbbbbbbbbbbbbbbbbbbbbbbbbbbbbbbbbbb"
  else text

def aliceAddress : String := "PIAAAAAAAAAAAAAAAAAAAAAAAAAAAAAAAAAAAAAA"
def bobAddress : String := "PIBBBBBBBBBBBBBBBBBBBBBBBBBBBBBBBBBBBBBB"

/-- The local network profile, with the wallets of the treasury taken from the environment. -/
def localConfig : Config where
  networkId := "local"
  chainId := .text "picoin-local-testnet"
  genesisHash := "genesis-hash"
  protocolVersion := "0.18"
  minTxFeeUnits := 0
  faucetAllowedNetworks := ["local"]
  scientificDevelopmentTreasuryWallet := bobAddress
  scientificDevelopmentGovernanceWallet := aliceAddress
  scientificDevelopmentRewardPercent := ⟨3, 2⟩
  scienceReserveAuthorizedSigners := ["signer-1", "signer-2"]
  scienceMaxRewardPerJob := 31416000000
  scienceMaxPendingPerRequester := 31416000000
  minValidatorStake := 3141600000
  validatorRegistrationStake := 3141600000
  sha256Text := localSha256Text
  verifyPayloadSignature _ _ signature := signature = "signed"

theorem addressMatchesPublicKey_alice :
    addressMatchesPublicKey localConfig aliceAddress aliceKey = true := by decide +kernel

/-- A request of the first wallet. -/
def aliceRequest (txType : TxType) (nonce feeUnits amountUnits : ℤ) (recipient : Option String)
    (payload : Payload) (timestamp : Timestamp) : SigningRequest where
  publicKey := aliceKey
  signature := "signed"
  txType := txType
  sender := aliceAddress
  nonce := nonce
  feeUnits := feeUnits
  recipient := recipient
  amountUnits := amountUnits
  payload := payload
  timestamp := timestamp

theorem isSignatureValid_aliceRequest (txType : TxType) (nonce feeUnits amountUnits : ℤ)
    (recipient : Option String) (payload : Payload) (timestamp : Timestamp) :
    isSignatureValid localConfig (signTransaction localConfig
      (aliceRequest txType nonce feeUnits amountUnits recipient payload timestamp)) = true :=
  isSignatureValid_signTransaction addressMatchesPublicKey_alice fun _ => rfl

/-! ## The node -/

/-- The balance rows and entries of an allocation of units to wallets. -/
def allocate (l : Ledger) (accountId : String) (units : ℤ) : Ledger :=
  l.write "wallet"
    { accountId, accountType := "wallet", amountUnits := units, entryType := "genesis_allocation"
      blockHeight := none, relatedId := some "genesis", description := none
      createdAt := "1970-01-01T00:00:00+00:00" }

/-- The database that `init_db` sets up, with the given allocations. -/
def localNode (allocations : List (String × ℤ)) : NodeState where
  ledger := allocations.foldl (fun l a => allocate l a.1 a.2) ⟨.empty, []⟩
  accountNonces := .empty
  mempool := .empty
  validators := .empty
  science :=
    { stakeAccounts := .empty
      jobs := .empty
      rewardReserve := .empty
      reserveGovernance :=
        { status := .reserveLocked
          activationRequestedAt := none
          activationAvailableAt := none
          activatedAt := none
          approvals := []
          authorizedSigners := localConfig.scienceReserveAuthorizedSigners
          payoutsEnabled := false
          emergencyPaused := false } }
  treasury := { treasury := some (bootstrapTreasuryRow localConfig 0), epochs := .empty, claims := .empty }
  chain := { blocks := .empty, rewards := .empty, protocolParams := .empty, retargetEvents := .empty }

/-- The block that the local miner builds at a height and an instant. -/
def localBlock (blockHeight : ℤ) (at' : Instant) (canonicalReplay : Bool) : BlockContext where
  minerId := "miner_local"
  minerAccountType := "miner"
  blockHeight := blockHeight
  timestamp := .ofInstant at'
  canonicalReplay := canonicalReplay

end Picoin
