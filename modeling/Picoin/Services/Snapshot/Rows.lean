import Mathlib.Data.Prod.Lex
import Mathlib.Data.String.Basic
import Picoin.Db.Schema
import Picoin.Core.Text
import Picoin.Lib.Tally

/-!
# The rows of a snapshot document

A snapshot document has six lists of rows. A row of the document is a dict with optional keys; a
`Raw…` structure holds what the coercions `str`, `int`, `float` and `bool` make of its values, so
an absent key and an absent value are `none`. Normalization cleans the texts, fills the defaults
and raises a `ValueError`, here its text, on a row that cannot be used.

The same normalization runs on database rows at export and on document rows at validation and
restore; the `toRaw` of a row type says how a row is read as a dict.
-/

namespace Picoin

open Decimal Json

/-! ## Fields -/

/-- What `item.get(key) or 0` holds of an amount, and how an error shows it. -/
structure RawAmount where
  value : Dec
  repr : String

/-- An amount written by `canonical_amount`. -/
def RawAmount.canonical (units : ℤ) : RawAmount :=
  ⟨canonicalDec units, "'" ++ canonicalAmount units ++ "'"⟩

/-- `units_from_db`, with its error. -/
def RawAmount.unitsFromDb (amount : RawAmount) (units : Option ℤ) : Except String ℤ :=
  match Picoin.unitsFromDb amount.value units with
  | some u => .ok u
  | none => .error s!"amount/unit mismatch: {amount.repr} != {units.getD 0}"

@[simp] theorem RawAmount.unitsFromDb_canonical (units : ℤ) :
    (RawAmount.canonical units).unitsFromDb (some units) = .ok units := by
  simp [RawAmount.unitsFromDb, RawAmount.canonical]

/-- `str(value or default).strip() or fallback`. -/
def stripOr (text : Option String) (default fallback : String) : String :=
  let stripped := strip (textOr text default)
  if stripped = "" then fallback else stripped

/-- `_snapshot_required_int` and `_snapshot_required_float`. -/
def snapshotRequired {α : Type} (value : Option α) (message : String) : Except String α :=
  match value with
  | some x => .ok x
  | none => .error message

/-- The message of a missing field. -/
def missingField (key : String) : String := s!"protocol snapshot entry missing {key}"

/-- The id of a row; ids are positive. -/
def snapshotId (id : Option ℤ) (message : String) : Except String ℤ := do
  let id ← snapshotRequired id message
  if id ≤ 0 then .error message else return id

/-- `_infer_account_type`. -/
def inferAccountType (accountId : String) : String :=
  if accountId = "genesis" then "genesis"
  else if accountId = "science_compute_reserve" then "science_reserve"
  else if accountId = "scientific_development_treasury" then "scientific_development_treasury"
  else if accountId = "audit_treasury" then "audit"
  else if startsWith accountId "science_stake:" then "science_stake"
  else if startsWith accountId "PI" then "wallet"
  else if startsWith accountId "validator" then "validator"
  else "miner"

/-! ## Balances -/

/-- What balances are grouped by. -/
structure AccountKey where
  accountId : String
  accountType : String
deriving DecidableEq

/-- Keys are ordered by id, then by type. -/
def AccountKey.sortKey (k : AccountKey) : String ×ₗ String := toLex (k.accountId, k.accountType)

theorem AccountKey.sortKey_injective : Function.Injective AccountKey.sortKey := by
  rintro ⟨a, t⟩ ⟨b, u⟩ h
  cases h
  rfl

instance : LinearOrder AccountKey := LinearOrder.lift' _ AccountKey.sortKey_injective

theorem AccountKey.lt_of_accountId_lt {k k' : AccountKey} (h : k.accountId < k'.accountId) :
    k < k' :=
  Prod.Lex.toLex_lt_toLex.mpr (.inl h)

structure RawBalance where
  accountId : Option String
  accountType : Option String
  balance : RawAmount
  balanceUnits : Option ℤ

/-- The account type that a row of a document stands for. -/
def snapshotAccountType (accountType : Option String) (accountId : String) : String :=
  stripOr accountType (inferAccountType accountId) "wallet"

/-- The key and the units of a row; a row without an account id is skipped. -/
def RawBalance.keyed (item : RawBalance) : Except String (Option (AccountKey × ℤ)) :=
  let accountId := clean item.accountId
  if accountId = "" then .ok none
  else do
    let units ← item.balance.unitsFromDb item.balanceUnits
    return some (⟨accountId, snapshotAccountType item.accountType accountId⟩, units)

/-- The keys and units of the rows that are not skipped. -/
def keyedBalances (balances : List RawBalance) : Except String (List (AccountKey × ℤ)) := do
  let rows ← balances.mapM RawBalance.keyed
  return rows.reduceOption

/-- `_normalize_snapshot_balances`: the hashed form, merged by account and type. -/
def normalizeSnapshotBalances (balances : List RawBalance) :
    Except String (List (AccountKey × ℤ)) := do
  let rows ← keyedBalances balances
  return Sql.groupSum rows

/-- One row of the merge by account: the first row decides the type. -/
def mergeByAccount (merged : Sql.Table String BalanceRow) (row : AccountKey × ℤ) :
    Sql.Table String BalanceRow :=
  match merged.find? row.1.accountId with
  | none => merged.upsert row.1.accountId ⟨row.1.accountType, row.2⟩
  | some existing =>
    merged.upsert row.1.accountId { existing with balanceUnits := existing.balanceUnits + row.2 }

/-- `_normalize_snapshot_balances_with_type`: the restored form, merged by account. -/
def normalizeSnapshotBalancesWithType (balances : List RawBalance) :
    Except String (List (String × BalanceRow)) := do
  let rows ← keyedBalances balances
  return (rows.foldl mergeByAccount .empty).sorted.filter fun item => item.2.balanceUnits ≠ 0

/-- A row of `balance_snapshot`. -/
def balanceJson (item : AccountKey × ℤ) : Value :=
  .obj [("account_id", .str item.1.accountId), ("account_type", .str item.1.accountType),
    ("balance", .str (canonicalAmount item.2)), ("balance_units", .int item.2)]

/-! ## Nonces -/

/-- `nonce` is `none` where `int(value or 0)` raises. -/
structure RawNonce where
  accountId : Option String
  nonce : Option ℤ

/-- One row of the merge: the largest nonce of an account stays. -/
def mergeNonce (merged : Sql.Table String ℤ) (item : RawNonce) :
    Except String (Sql.Table String ℤ) :=
  let accountId := clean item.accountId
  if accountId = "" then .ok merged
  else
    match item.nonce with
    | none => .error s!"invalid nonce for {accountId}"
    | some nonce =>
      if nonce < 0 then .error s!"negative nonce for {accountId}"
      else if nonce = 0 then .ok merged
      else .ok (merged.upsert accountId (max ((merged.find? accountId).getD 0) nonce))

/-- `_normalize_snapshot_nonces`. -/
def normalizeSnapshotNonces (nonces : List RawNonce) : Except String (List (String × ℤ)) := do
  let merged ← nonces.foldlM mergeNonce .empty
  return merged.sorted

def nonceJson (item : String × ℤ) : Value :=
  .obj [("account_id", .str item.1), ("nonce", .int item.2)]

/-! ## Validators -/

/-- `raw` is the whole dict, which one of the two accepted hashes is over. -/
structure RawValidator where
  validatorId : Option String
  name : Option String
  publicKey : Option String
  rewardAddress : Option String
  registeredAt : Option String
  acceptedJobs : ℤ
  rejectedJobs : ℤ
  invalidResults : ℤ
  trustScore : Option Dec
  cooldownUntil : Option String
  totalValidationMs : ℤ
  stakeLocked : RawAmount
  stakeLockedUnits : Option ℤ
  walletStakeLocked : RawAmount
  walletStakeLockedUnits : Option ℤ
  stakeOwnerAddress : Option String
  slashedAmount : RawAmount
  slashedAmountUnits : Option ℤ
  isBanned : Bool
  enabled : Option Bool
  protocolVersion : Option String
  raw : Value

/-- A normalized validator, under its id. -/
structure SnapshotValidator where
  name : String
  publicKey : String
  rewardAddress : Option String
  registeredAt : String
  acceptedJobs : ℤ
  rejectedJobs : ℤ
  invalidResults : ℤ
  trustScore : ℤ
  cooldownUntil : Option String
  totalValidationMs : ℤ
  stakeLockedUnits : ℤ
  walletStakeLockedUnits : ℤ
  stakeOwnerAddress : Option String
  slashedAmountUnits : ℤ
  isBanned : Bool
  enabled : Bool
  protocolVersion : String
deriving DecidableEq

/-- `_normalize_validator_snapshot_row`. -/
def normalizeValidatorSnapshotRow (cfg : Config) (item : RawValidator) :
    Except String (String × SnapshotValidator) := do
  let validatorId := clean item.validatorId
  if validatorId = "" then .error "validator snapshot entry missing validator_id"
  else
    let stakeUnits ← item.stakeLocked.unitsFromDb item.stakeLockedUnits
    let walletStakeUnits ← item.walletStakeLocked.unitsFromDb item.walletStakeLockedUnits
    let slashedUnits ← item.slashedAmount.unitsFromDb item.slashedAmountUnits
    return (validatorId,
      { name := stripOr item.name validatorId validatorId
        publicKey := clean item.publicKey
        rewardAddress := cleanOrNone item.rewardAddress
        registeredAt := clean item.registeredAt
        acceptedJobs := max 0 item.acceptedJobs
        rejectedJobs := max 0 item.rejectedJobs
        invalidResults := max 0 item.invalidResults
        trustScore := round8 (item.trustScore.getD 1)
        cooldownUntil := cleanOrNone item.cooldownUntil
        totalValidationMs := max 0 item.totalValidationMs
        stakeLockedUnits := stakeUnits
        walletStakeLockedUnits := walletStakeUnits
        stakeOwnerAddress := cleanOrNone item.stakeOwnerAddress
        slashedAmountUnits := slashedUnits
        isBanned := item.isBanned
        enabled := item.enabled.getD true
        protocolVersion := stripOr item.protocolVersion cfg.protocolVersion cfg.protocolVersion })

/-- `_normalize_snapshot_validators`: the last row of an id stays. -/
def normalizeSnapshotValidators (cfg : Config) (validators : List RawValidator) :
    Except String (List (String × SnapshotValidator)) := do
  let rows ← validators.mapM (normalizeValidatorSnapshotRow cfg)
  return (rows.foldl (fun t row => t.upsert row.1 row.2) Sql.Table.empty).sorted

/-- `1 if flag else 0`. -/
def flagJson (flag : Bool) : Value := .int (if flag then 1 else 0)

def validatorJson (item : String × SnapshotValidator) : Value :=
  .obj [("validator_id", .str item.1), ("name", .str item.2.name),
    ("public_key", .str item.2.publicKey), ("reward_address", .optStr item.2.rewardAddress),
    ("registered_at", .str item.2.registeredAt), ("accepted_jobs", .int item.2.acceptedJobs),
    ("rejected_jobs", .int item.2.rejectedJobs), ("invalid_results", .int item.2.invalidResults),
    ("trust_score", .float item.2.trustScore), ("cooldown_until", .optStr item.2.cooldownUntil),
    ("total_validation_ms", .int item.2.totalValidationMs),
    ("stake_locked", .str (canonicalAmount item.2.stakeLockedUnits)),
    ("stake_locked_units", .int item.2.stakeLockedUnits),
    ("wallet_stake_locked", .str (canonicalAmount item.2.walletStakeLockedUnits)),
    ("wallet_stake_locked_units", .int item.2.walletStakeLockedUnits),
    ("stake_owner_address", .optStr item.2.stakeOwnerAddress),
    ("slashed_amount", .str (canonicalAmount item.2.slashedAmountUnits)),
    ("slashed_amount_units", .int item.2.slashedAmountUnits),
    ("is_banned", flagJson item.2.isBanned), ("enabled", flagJson item.2.enabled),
    ("protocol_version", .str item.2.protocolVersion)]

/-- The dict of a row of the `validators` table. -/
def ValidatorRow.toRaw (validatorId : String) (row : ValidatorRow) : RawValidator where
  validatorId := some validatorId
  name := some row.name
  publicKey := some row.publicKey
  rewardAddress := row.rewardAddress
  registeredAt := some row.registeredAt
  acceptedJobs := row.acceptedJobs
  rejectedJobs := row.rejectedJobs
  invalidResults := row.invalidResults
  trustScore := some row.trustScore
  cooldownUntil := row.cooldownUntil
  totalValidationMs := row.totalValidationMs
  stakeLocked := ⟨amountDec row.stakeLocked, String.ofList (reprFloat row.stakeLocked)⟩
  stakeLockedUnits := none
  walletStakeLocked :=
    ⟨amountDec row.walletStakeLocked, String.ofList (reprFloat row.walletStakeLocked)⟩
  walletStakeLockedUnits := none
  stakeOwnerAddress := row.stakeOwnerAddress
  slashedAmount := ⟨amountDec row.slashedAmount, String.ofList (reprFloat row.slashedAmount)⟩
  slashedAmountUnits := none
  isBanned := row.isBanned
  enabled := some row.enabled
  protocolVersion := row.protocolVersion
  raw := .null

end Picoin
