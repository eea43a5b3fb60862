import Picoin.Core.Money
import Picoin.Core.Clock
import Picoin.Lib.Json

/-!
# Settings

`Config` holds what a node reads from its environment and its network profile, together with the
two primitives of cryptography libraries: SHA-256 of a text and the verification of a signature.
The constants are the settings that no deployment can change.
-/

namespace Picoin

open Decimal

/-- A chain id as JSON has it: a number or a text. -/
inductive ChainId where
  | number (n : ℤ)
  | text (s : String)
deriving DecidableEq

/-- `str(chain_id)`. -/
def ChainId.str : ChainId → String
  | .number n => toString n
  | .text s => s

def ChainId.toJson : ChainId → Json.Value
  | .number n => .int n
  | .text s => .str s

/-- The settings of a deployment and its cryptographic primitives. -/
structure Config where
  networkId : String
  chainId : ChainId
  genesisHash : String
  protocolVersion : String
  minTxFeeUnits : ℤ
  faucetAllowedNetworks : List String
  scientificDevelopmentTreasuryWallet : String
  scientificDevelopmentGovernanceWallet : String
  scientificDevelopmentRewardPercent : Dec
  scienceReserveAuthorizedSigners : List String
  scienceMaxRewardPerJob : ℤ
  scienceMaxPendingPerRequester : ℤ
  minValidatorStake : ℤ
  validatorRegistrationStake : ℤ
  sha256Text : String → String
  verifyPayloadSignature : String → Json.Value → String → Bool

/-- `sha256_text(canonical_json(data))`. -/
def Config.hashJson (cfg : Config) (data : Json.Value) : String :=
  cfg.sha256Text (Json.canonicalJson data)

def genesisAccountId : String := "genesis"
def treasuryAccountId : String := "scientific_development_treasury"

/-- The largest faucet amount, 3.1416 coins. -/
def faucetMaxAmount : ℤ := 314160000
def faucetRateLimitWindowSeconds : ℤ := 60 * 60
def faucetRateLimitMaxRequests : ℕ := 3

def scientificDevelopmentUnlockIntervalDays : ℤ := 90
def scienceBaseMonthlyQuotaUnits : ℤ := 100
def scienceReserveGovernanceTimelockSeconds : ℤ := 24 * 60 * 60
def scienceReserveGovernanceMultisigThreshold : ℕ := 2

/-! ## Shares of the block reward

The treasury's share of a block reward, in units: a percentage in basis points, rounded half up. -/

def basisPointsPerUnit : ℕ := 10000

/-- `_basis_points`. -/
def basisPoints (percent : Dec) : ℤ := percent.quantizeHalfUp 4

/-- `_percent_units`. -/
def percentUnits (totalUnits : ℤ) (percent : Dec) : ℤ :=
  roundHalfUp (totalUnits * basisPoints percent) basisPointsPerUnit

def scientificDevelopmentUnitsFromTotal (cfg : Config) (totalRewardUnits : ℤ) : ℤ :=
  percentUnits totalRewardUnits cfg.scientificDevelopmentRewardPercent

end Picoin
