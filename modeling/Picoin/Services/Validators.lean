import Picoin.Db.Schema

/-!
# What a node does to its own validator rows

The operator's switch, the penalty for a vote whose signature is invalid, and the book-keeping of
a recorded vote. None of these comes from a block: each node does them to its own rows.
-/

namespace Picoin

/-- `VALIDATOR_SLASH_INVALID_SIGNATURE`, 3.1416 coins. -/
def validatorSlashInvalidSignature : ℤ := 314160000
def validatorPenaltyInvalidSignature : ℤ := 2
def validatorCooldownAfterInvalidResults : ℤ := 3
def validatorBanAfterInvalidResults : ℤ := 9
def validatorCooldownSeconds : ℤ := 10 * 60

/-- `set_validator_enabled`. -/
def ValidatorRow.setEnabled (enabled : Bool) (row : ValidatorRow) : ValidatorRow :=
  { row with enabled }

/-- `_refresh_validator_trust_score`. -/
def ValidatorRow.refreshTrustScore (row : ValidatorRow) : ValidatorRow :=
  let completed := row.acceptedJobs + row.rejectedJobs
  let invalidWeight := row.invalidResults * validatorPenaltyInvalidSignature
  { row with
    trustScore :=
      ⟨Decimal.roundHalfEven ((completed + 1) * 10 ^ 4) (completed + 1 + invalidWeight).toNat, 4⟩ }

/-- `_apply_validator_penalty`. -/
def ValidatorRow.penalize (now : Instant) (row : ValidatorRow) : ValidatorRow :=
  let slashAmount := min row.stakeLocked validatorSlashInvalidSignature
  let walletSlashAmount := min row.walletStakeLocked slashAmount
  let invalidResults := row.invalidResults + 1
  ValidatorRow.refreshTrustScore
    { row with
      invalidResults
      stakeLocked := max 0 (row.stakeLocked - slashAmount)
      walletStakeLocked := max 0 (row.walletStakeLocked - walletSlashAmount)
      slashedAmount := row.slashedAmount + slashAmount
      lastSeenAt := some (isoformat now)
      cooldownUntil :=
        if validatorCooldownAfterInvalidResults ≤ invalidResults then
          some (isoformat (now + seconds validatorCooldownSeconds))
        else row.cooldownUntil
      isBanned := row.isBanned || validatorBanAfterInvalidResults ≤ invalidResults }

def fraudValidatorInvalidResults : ℤ := 3
def fraudCooldownSeconds : ℤ := 60 * 60

/-- `_apply_validator_fraud_penalty`: the same slash, three invalid results, and always a
cooldown. -/
def ValidatorRow.penalizeFraud (now : Instant) (row : ValidatorRow) : ValidatorRow :=
  let slashAmount := min row.stakeLocked validatorSlashInvalidSignature
  let walletSlashAmount := min row.walletStakeLocked slashAmount
  let invalidResults := row.invalidResults + fraudValidatorInvalidResults
  ValidatorRow.refreshTrustScore
    { row with
      invalidResults
      stakeLocked := max 0 (row.stakeLocked - slashAmount)
      walletStakeLocked := max 0 (row.walletStakeLocked - walletSlashAmount)
      slashedAmount := row.slashedAmount + slashAmount
      lastSeenAt := some (isoformat now)
      cooldownUntil := some (isoformat (now + seconds fraudCooldownSeconds))
      isBanned := row.isBanned || validatorBanAfterInvalidResults ≤ invalidResults }

/-- `_record_validator_completed_vote`. -/
def ValidatorRow.recordCompletedVote (approved : Bool) (validationMs : ℤ) (now : Instant)
    (row : ValidatorRow) : ValidatorRow :=
  ValidatorRow.refreshTrustScore
    { row with
      acceptedJobs := if approved then row.acceptedJobs + 1 else row.acceptedJobs
      rejectedJobs := if approved then row.rejectedJobs else row.rejectedJobs + 1
      totalValidationMs := row.totalValidationMs + validationMs
      lastSeenAt := some (isoformat now) }

/-- What a node does to the row of a validator on its own. -/
inductive LocalAction where
  | setEnabled (enabled : Bool)
  | penalize (now : Instant)
  | recordCompletedVote (approved : Bool) (validationMs : ℤ) (now : Instant)
  | seen (now : Instant)

/-- The row after the action; a sign of life writes `last_seen_at`. -/
def LocalAction.apply : LocalAction → ValidatorRow → ValidatorRow
  | .setEnabled enabled, row => row.setEnabled enabled
  | .penalize now, row => row.penalize now
  | .recordCompletedVote approved validationMs now, row =>
    row.recordCompletedVote approved validationMs now
  | .seen now, row => { row with lastSeenAt := some (isoformat now) }

end Picoin
