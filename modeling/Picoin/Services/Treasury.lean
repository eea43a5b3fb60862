import Picoin.Core.Settings
import Picoin.Core.Text
import Picoin.Services.Ledger

/-!
# The development treasury

A share of every block reward is locked in the epoch of the current quarter and can be unlocked
once the epoch's `unlockAt` has passed; a claim pays out what is unlocked. The figures are kept
three times: per epoch, in the aggregate row, and as the balance of the treasury account.

* **`recordScientificDevelopmentTreasuryForBlock`** accrues;
* **`unlockMaturedEpochs`** moves matured amounts from locked to unlocked;
* **`claimScientificDevelopmentTreasuryInConnection`** unlocks and pays out.

The functions that read the clock take its value as the argument `now`.
-/

namespace Picoin

open Outcome

def treasuryEventAccrual : String := "scientific_development_treasury_accrual"
def treasuryEventClaim : String := "scientific_development_treasury_claim"
def treasuryAccountType : String := "scientific_development_treasury"

/-- `_clean_address` of the treasury module. -/
def treasuryCleanAddress (address : String) : Except ExecError String :=
  let value := strip address
  if value = "" then .error (.treasury 400 "address is required")
  else if 128 < value.length then .error (.treasury 400 "address is too long")
  else .ok value

/-! ## The aggregate row and the epochs -/

/-- The row that is inserted when there is none. -/
def bootstrapTreasuryRow (cfg : Config) (now : Instant) : TreasuryRow where
  totalAccumulated := 0
  totalClaimed := 0
  lockedBalance := 0
  unlockedBalance := 0
  currentEpoch := "bootstrap"
  epochStartBlock := 0
  epochEndBlock := 0
  nextUnlockAt := now
  lastClaimAt := none
  treasuryWallet := cfg.scientificDevelopmentTreasuryWallet
  governanceWallet := cfg.scientificDevelopmentGovernanceWallet

/-- `_treasury_row`, after `_ensure_treasury`. -/
def treasuryRow (cfg : Config) (now : Instant) (t : TreasuryTables) : TreasuryRow :=
  match t.treasury with
  | none => bootstrapTreasuryRow cfg now
  | some row =>
    { row with
      treasuryWallet := cfg.scientificDevelopmentTreasuryWallet
      governanceWallet := cfg.scientificDevelopmentGovernanceWallet }

/-- The row that `_ensure_epoch` inserts. -/
def newEpochRow (blockHeight : ℤ) (unlockAt : Instant) : EpochRow where
  startBlock := blockHeight
  endBlock := blockHeight
  lockedAmount := 0
  unlockedAmount := 0
  claimedAmount := 0
  unlockAt := unlockAt
  status := .locked

/-- An epoch that still holds a locked amount. -/
def EpochRow.isLocked (row : EpochRow) : Bool := row.status = .locked && 0 < row.lockedAmount

/-- An epoch whose locked amount can be unlocked at an instant. -/
def EpochRow.matured (now : Instant) (row : EpochRow) : Bool :=
  row.isLocked && row.unlockAt ≤ now

/-- `_earliest_locked_unlock_at`. -/
def earliestLockedUnlockAt (epochs : Sql.Table String EpochRow) : Option Instant :=
  ((epochs.rows.filter fun r => r.2.isLocked).map fun r => r.2.unlockAt).min?

/-! ## Accrual -/

/-- The effect of an accrual on its epoch. -/
def EpochRow.accrue (amount blockHeight : ℤ) (row : EpochRow) : EpochRow :=
  { row with
    lockedAmount := row.lockedAmount + amount
    endBlock := max row.endBlock blockHeight
    status := .locked }

/-- `record_scientific_development_treasury_for_block`. -/
def recordScientificDevelopmentTreasuryForBlock (cfg : Config) (now : Instant)
    (t : TreasuryTables) (l : Ledger) (blockHeight blockReward : ℤ) :
    Except ExecError (TreasuryTables × Ledger) :=
  let amountUnits := scientificDevelopmentUnitsFromTotal cfg (unitsOf blockReward)
  let amount := unitsToFloat amountUnits
  if amountUnits ≤ 0 then .ok (t, l)
  else do
    let epoch := quarterEpoch now
    let unlockAt := now + days scientificDevelopmentUnlockIntervalDays
    let row := treasuryRow cfg now t
    let epochs := t.epochs.insertNew epoch (newEpochRow blockHeight unlockAt)
    let epochRow := (epochs.find? epoch).getD (newEpochRow blockHeight unlockAt)
    let nextUnlockAt := (earliestLockedUnlockAt epochs).getD epochRow.unlockAt
    let ledger ← applyLedgerEntry l
      { accountId := treasuryAccountId
        accountType := treasuryAccountType
        amountUnits := unitsOf amount
        entryType := treasuryEventAccrual
        blockHeight := some blockHeight
        relatedId := some s!"block:{blockHeight}"
        description := some "scientific development fund time-locked accrual"
        createdAt := isoformat now }
    return (
      { t with
        epochs := epochs.modify epoch (EpochRow.accrue amount blockHeight)
        treasury := some
          { row with
            totalAccumulated := row.totalAccumulated + amount
            lockedBalance := row.lockedBalance + amount
            currentEpoch := epoch
            epochStartBlock := epochRow.startBlock
            epochEndBlock := blockHeight
            nextUnlockAt } },
      ledger)

/-! ## Unlocking -/

/-- The effect of unlocking on an epoch. -/
def EpochRow.unlock (now : Instant) (row : EpochRow) : EpochRow :=
  if row.matured now then
    { row with
      lockedAmount := 0
      unlockedAmount := row.unlockedAmount + row.lockedAmount
      status := .unlocked }
  else row

/-- The locked amounts of the matured epochs together. -/
def maturedTotal (now : Instant) (epochs : Sql.Table String EpochRow) : ℤ :=
  epochs.sum fun row => if row.matured now then row.lockedAmount else 0

/-- `_unlock_matured_epochs`. -/
def unlockMaturedEpochs (now : Instant) (t : TreasuryTables) : TreasuryTables :=
  let totalUnlocked := maturedTotal now t.epochs
  let epochs := t.epochs.mapRows fun _ row => row.unlock now
  if 0 < totalUnlocked then
    { t with
      epochs
      treasury := t.treasury.map fun row =>
        { row with
          lockedBalance := max 0 (row.lockedBalance - totalUnlocked)
          unlockedBalance := row.unlockedBalance + totalUnlocked
          nextUnlockAt := (earliestLockedUnlockAt epochs).getD row.nextUnlockAt } }
  else { t with epochs }

/-! ## Claims -/

/-- The effect of a claim on an epoch. -/
def EpochRow.claim (row : EpochRow) : EpochRow :=
  if 0 < row.unlockedAmount then
    { row with
      claimedAmount := row.claimedAmount + row.unlockedAmount
      unlockedAmount := 0
      status := .claimed }
  else row

/-- The two postings of a claim. -/
def claimPostings (cfg : Config) (amount : ℤ) (claimId : String) (now : Instant) :
    Posting × Posting :=
  ({ accountId := treasuryAccountId
     accountType := treasuryAccountType
     amountUnits := unitsOf (-amount)
     entryType := treasuryEventClaim
     blockHeight := none
     relatedId := some claimId
     description := some "scientific development treasury claim debit"
     createdAt := isoformat now },
   { accountId := cfg.scientificDevelopmentTreasuryWallet
     accountType := "treasury_wallet"
     amountUnits := unitsOf amount
     entryType := treasuryEventClaim
     blockHeight := none
     relatedId := some claimId
     description := some "scientific development treasury claim"
     createdAt := isoformat now })

/-- The checks on the two addresses of a claim. -/
def checkClaimAddresses (cfg : Config) (requestedBy claimTo : Option String) :
    Except ExecError String := do
  let requestedBy ← treasuryCleanAddress
    (textOr requestedBy cfg.scientificDevelopmentGovernanceWallet)
  let claimTo ← treasuryCleanAddress (textOr claimTo cfg.scientificDevelopmentTreasuryWallet)
  if requestedBy ≠ cfg.scientificDevelopmentGovernanceWallet then
    .error (.treasury 403 "treasury claim requires configured governance wallet")
  else if claimTo ≠ cfg.scientificDevelopmentTreasuryWallet then
    .error (.treasury 403 "treasury claim destination must match configured treasury wallet")
  else .ok requestedBy

/-- `claim_scientific_development_treasury_in_connection`. `nowDt` is the claim's timestamp, or
the clock for a claim without one. -/
def claimScientificDevelopmentTreasuryInConnection (cfg : Config) (now : Instant)
    (t : TreasuryTables) (l : Ledger) (requestedBy claimTo : Option String) (claimId : String)
    (nowDt : Instant) : Except ExecError (TreasuryTables × Ledger) := do
  let requestedBy ← checkClaimAddresses cfg requestedBy claimTo
  let t := unlockMaturedEpochs nowDt t
  let row := treasuryRow cfg now t
  let amount := row.unlockedBalance
  if amount ≤ 0 then
    let unlockAt := isoformat row.nextUnlockAt
    .error (.treasury 423 s!"treasury funds are locked until {unlockAt}")
  else if l.balance treasuryAccountId < amount then
    .error (.treasury 500 "treasury ledger balance is lower than unlocked treasury balance")
  else
    let (debit, credit) := claimPostings cfg amount claimId nowDt
    let l ← applyLedgerEntry l debit
    let l ← applyLedgerEntry l credit
    match t.claims.insert? claimId
        ⟨amount, cfg.scientificDevelopmentTreasuryWallet, requestedBy, nowDt⟩ with
    | none => .error (.integrity "scientific_development_treasury_claims.claim_id")
    | some claims => .ok (
        { epochs := t.epochs.mapRows fun _ epoch => epoch.claim
          claims
          treasury := some
            { row with
              totalClaimed := row.totalClaimed + amount
              unlockedBalance := 0
              lastClaimAt := some nowDt } },
        l)

end Picoin
