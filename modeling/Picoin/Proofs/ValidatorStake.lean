import Picoin.Lib.Run
import Picoin.Proofs.Postings
import Picoin.Services.BlockRewards
import Picoin.Services.LocalMining
import Picoin.Services.Validators

/-!
# The accounting of validator stake

A validator's stake is kept in three places: `stake_locked`, the part of it that a wallet paid in,
and the balance of the validator's account, which also receives rewards. `StakeSound` ties them to
the entries of the ledger: what wallets locked and what was unlocked again. Registration, stakes,
unstakes, rewards and both penalties keep it, in any order.
-/

namespace Picoin

open Outcome Run

/-! ## The operations -/

/-- The row that `register_validator` inserts. -/
def registeredValidatorRow (cfg : Config) (name publicKey : String)
    (rewardAddress : Option String) (timestamp : String) : ValidatorRow where
  name := name
  publicKey := publicKey
  rewardAddress := rewardAddress
  registeredAt := timestamp
  acceptedJobs := 0
  rejectedJobs := 0
  invalidResults := 0
  trustScore := 1
  cooldownUntil := none
  lastSeenAt := some timestamp
  totalValidationMs := 0
  stakeLocked := cfg.validatorRegistrationStake
  walletStakeLocked := 0
  stakeOwnerAddress := none
  slashedAmount := 0
  isBanned := false
  enabled := true
  protocolVersion := some cfg.protocolVersion

/-- The inserts of `register_validator`, for a public key and an address that it has checked;
`suffix` are the hexadecimal digits of the new id. -/
def registerValidator (cfg : Config) (s : NodeState) (suffix name publicKey : String)
    (rewardAddress : Option String) (timestamp : String) : Except ExecError NodeState :=
  let validatorId := "validator_" ++ suffix
  let row := registeredValidatorRow cfg name publicKey rewardAddress timestamp
  match s.validators.insert? validatorId row with
  | none => .error (.integrity "UNIQUE constraint failed: validators.validator_id")
  | some validators =>
    let ledger := ensureBalanceAccount s.ledger validatorId "validator"
    .ok { s with
      validators
      ledger := match rewardAddress with
        | none | some "" => ledger
        | some address => ensureBalanceAccount ledger address "wallet" }

/-- A stake or an unstake on a validator. -/
def IsValidatorStake (tx : Tx) : Prop :=
  (tx.txType = .stake ∨ tx.txType = .unstake) ∧ isValidatorStakeTx tx = true

/-- What moves or slashes the stake of validators. -/
inductive StakeStep where
  | register (suffix name publicKey : String) (rewardAddress : Option String) (timestamp : String)
  | transaction (now : Instant) (ctx : BlockContext) (expected : ExpectedNonces)
      (tx : { tx : Tx // IsValidatorStake tx })
  | reward (now : Instant) (votes : List ValidationVoteRow) (jobId : String) (blockHeight : ℤ)
      (params : ProtocolParamsRow)
  | penalize (now : Instant) (validatorId : String)
  | penalizeFraud (now : Instant) (validatorId : String)

def StakeStep.run (rc : RewardConfig) (s : NodeState) : StakeStep → Except ExecError NodeState
  | .register suffix name publicKey rewardAddress timestamp =>
    registerValidator rc.toConfig s suffix name publicKey rewardAddress timestamp
  | .transaction now ctx expected tx => do
    let b ← applyBlockTransaction rc.toConfig now ctx ⟨s, expected⟩ tx.val
    return b.state
  | .reward now votes jobId blockHeight params =>
    .ok { s with
      ledger := applyValidatorRewards rc now s.ledger s.validators votes jobId blockHeight params }
  | .penalize now validatorId =>
    .ok { s with validators := s.validators.modify validatorId (ValidatorRow.penalize now) }
  | .penalizeFraud now validatorId =>
    .ok { s with validators := s.validators.modify validatorId (ValidatorRow.penalizeFraud now) }

/-- One step; a step that raises changes nothing. -/
def stakeStep (rc : RewardConfig) (s : NodeState) (step : StakeStep) : NodeState :=
  attempt (step.run rc s) s

/-! ## The figures -/

/-- The sum of the postings that satisfy a condition. -/
def postingSum (p : Posting → Bool) (ps : List Posting) : ℤ :=
  ((ps.filter p).map Posting.amountUnits).sum

/-- The sum of the entries that satisfy a condition. -/
def Ledger.entrySum (l : Ledger) (p : Posting → Bool) : ℤ :=
  postingSum p (l.entries.map LedgerEntry.toPosting)

/-- The entry locks a stake on the validator. -/
def Posting.locks (validatorId : String) (p : Posting) : Bool :=
  p.entryType = "validator_stake_lock" && p.accountId = validatorId

/-- The entry unlocks a stake of the validator. -/
def Posting.unlocks (validatorId : String) (p : Posting) : Bool :=
  p.entryType = "validator_stake_unlock" && p.accountId = validatorId

/-- The description of a withdrawal from a validator. -/
def unlockDescription (validatorId : String) : String :=
  s!"validator stake unlock from {validatorId}"

/-- The entry pays an unlocked stake of the validator to the owner. -/
def Posting.withdraws (validatorId owner : String) (p : Posting) : Bool :=
  p.entryType = "validator_unstake_credit" &&
    (p.accountId = owner && p.description = some (unlockDescription validatorId))

/-- The units ever staked for a validator. -/
def stakedUnits (l : Ledger) (validatorId : String) : ℤ :=
  l.entrySum (Posting.locks validatorId)

/-- The units ever taken out of a validator's stake. -/
def unlockedUnits (l : Ledger) (validatorId : String) : ℤ :=
  -l.entrySum (Posting.unlocks validatorId)

/-- The units that an owner has ever withdrawn from a validator. -/
def withdrawnUnits (l : Ledger) (validatorId owner : String) : ℤ :=
  l.entrySum (Posting.withdraws validatorId owner)

/-- The wallet-backed stake of a validator in units; none without a row. -/
def walletStakeUnits (s : NodeState) (validatorId : String) : ℤ :=
  ((s.validators.find? validatorId).map fun row => unitsOf row.walletStakeLocked).getD 0

/-- The wallet-backed stake of a row is a number of units within its stake. -/
def ValidatorRow.StakeExact (row : ValidatorRow) : Prop :=
  ∃ units, 0 ≤ units ∧ row.walletStakeLocked = unitsToFloat units ∧
    row.walletStakeLocked ≤ row.stakeLocked

/-- **The invariant.** A validator's id is no address, and its wallet-backed stake is backed by
its account and by what was staked and not unlocked. -/
structure StakeSound (s : NodeState) : Prop where
  balances : s.ledger.NonNegative
  ids : ∀ validatorId row, s.validators.find? validatorId = some row →
    startsWith validatorId "validator_" = true
  rows : s.validators.Forall ValidatorRow.StakeExact
  backed : ∀ validatorId, walletStakeUnits s validatorId ≤ s.ledger.balanceUnits validatorId
  staked : ∀ validatorId, unlockedUnits s.ledger validatorId + walletStakeUnits s validatorId ≤
    stakedUnits s.ledger validatorId
  withdrawn : ∀ validatorId owner, withdrawnUnits s.ledger validatorId owner ≤
    unlockedUnits s.ledger validatorId

/-! ## Sums of postings -/

/-- No postings sum to nothing. -/
@[simp] theorem postingSum_nil (p : Posting → Bool) : postingSum p [] = 0 := rfl

/-- A posting counts where it is one of those asked for. -/
@[simp] theorem postingSum_cons (p : Posting → Bool) (x : Posting) (ps : List Posting) :
    postingSum p (x :: ps) = (if p x then x.amountUnits else 0) + postingSum p ps := by
  unfold postingSum
  by_cases h : p x = true
  · simp [List.filter_cons_of_pos h, h]
  · simp [List.filter_cons_of_neg h, h]

/-- The sums of two lists add up. -/
@[simp] theorem postingSum_append (p : Posting → Bool) (ps qs : List Posting) :
    postingSum p (ps ++ qs) = postingSum p ps + postingSum p qs := by
  simp [postingSum]

/-- Postings of another kind sum to nothing. -/
theorem postingSum_eq_zero {p : Posting → Bool} {ps : List Posting}
    (h : ∀ x ∈ ps, p x = false) : postingSum p ps = 0 := by
  unfold postingSum
  rw [List.filter_eq_nil_iff.mpr (by simpa using h)]
  rfl

/-- The sum over the entries grows by that over the postings. -/
theorem Written.entrySum {l l' : Ledger} {ps : List Posting} (h : Written l l' ps)
    (p : Posting → Bool) : l'.entrySum p = l.entrySum p + postingSum p ps := by
  unfold Ledger.entrySum
  rw [h.entries, postingSum_append]

/-! ## Rows -/

/-- A stake of a positive number of units adds them. -/
theorem ValidatorRow.StakeExact.stake {row : ValidatorRow} (h : row.StakeExact) {units : ℤ}
    (hunits : 0 < units) (sender timestamp : String) :
    (row.stake (unitsToFloat units) sender timestamp).StakeExact ∧
      unitsOf (row.stake (unitsToFloat units) sender timestamp).walletStakeLocked =
        unitsOf row.walletStakeLocked + units := by
  obtain ⟨wallet, hwallet, heq, hle⟩ := h
  have hsum : row.walletStakeLocked + unitsToFloat units = unitsToFloat (wallet + units) := by
    rw [heq, unitsToFloat_add]
  refine ⟨⟨wallet + units, by omega, hsum, ?_⟩, ?_⟩
  · show row.walletStakeLocked + unitsToFloat units ≤ row.stakeLocked + unitsToFloat units
    omega
  · show unitsOf (row.walletStakeLocked + unitsToFloat units) = _
    rw [hsum, heq, unitsOf_unitsToFloat, unitsOf_unitsToFloat]

/-- The units of a stake are at least those of its wallet-backed part. -/
theorem ValidatorRow.StakeExact.walletStakeUnits_le {row : ValidatorRow} (h : row.StakeExact) :
    unitsOf row.walletStakeLocked ≤ unitsOf row.stakeLocked := by
  obtain ⟨wallet, hwallet, heq, hle⟩ := h
  rw [heq, unitsOf_unitsToFloat]
  unfold unitsToFloat at heq
  unfold unitsOf Decimal.roundHalfUp
  rw [if_pos (by omega)]
  omega

/-- An unstake of at most the wallet-backed stake takes it away. -/
theorem ValidatorRow.StakeExact.unstake {row : ValidatorRow} (h : row.StakeExact) {units : ℤ}
    (hle : units ≤ unitsOf row.walletStakeLocked) (timestamp : String) :
    (row.unstake units timestamp).StakeExact ∧
      unitsOf (row.unstake units timestamp).walletStakeLocked =
        unitsOf row.walletStakeLocked - units := by
  have hstake := h.walletStakeUnits_le
  have hwallet : (row.unstake units timestamp).walletStakeLocked =
      unitsToFloat (unitsOf row.walletStakeLocked - units) := by
    show unitsToFloat (max 0 (unitsOf row.walletStakeLocked - units)) = _
    rw [max_eq_right (by omega)]
  refine ⟨⟨unitsOf row.walletStakeLocked - units, by omega, hwallet, ?_⟩, ?_⟩
  · show unitsToFloat (max 0 (unitsOf row.walletStakeLocked - units)) ≤
      unitsToFloat (max 0 (unitsOf row.stakeLocked - units))
    rw [unitsToFloat_le_iff]
    omega
  · rw [hwallet, unitsOf_unitsToFloat]

/-- A slash of the stake, and of the wallet-backed part at most as much, as both penalties do it. -/
theorem stakeExact_slash {row slashed : ValidatorRow} (h : row.StakeExact)
    (hstake : slashed.stakeLocked =
      max 0 (row.stakeLocked - min row.stakeLocked validatorSlashInvalidSignature))
    (hwallet : slashed.walletStakeLocked = max 0 (row.walletStakeLocked -
      min row.walletStakeLocked (min row.stakeLocked validatorSlashInvalidSignature))) :
    slashed.StakeExact ∧ unitsOf slashed.walletStakeLocked ≤ unitsOf row.walletStakeLocked := by
  obtain ⟨wallet, hpos, heq, hle⟩ := h
  unfold unitsToFloat at heq
  unfold validatorSlashInvalidSignature at hstake hwallet
  -- the slash is a whole number of units, or takes the wallet-backed stake away
  have hunits : slashed.walletStakeLocked = unitsToFloat (max 0 (wallet - 3141600)) := by
    unfold unitsToFloat
    omega
  refine ⟨⟨max 0 (wallet - 3141600), by omega, hunits, by omega⟩, ?_⟩
  rw [hunits, heq, unitsOf_unitsToFloat, ← unitsToFloat, unitsOf_unitsToFloat]
  omega

/-- A penalty keeps the locked stake exact, and raises it never. -/
theorem penalize_stakeExact {row : ValidatorRow} (h : row.StakeExact) (now : Instant) :
    (row.penalize now).StakeExact ∧
      unitsOf (row.penalize now).walletStakeLocked ≤ unitsOf row.walletStakeLocked :=
  stakeExact_slash h rfl rfl

/-- So does a fraud penalty. -/
theorem penalizeFraud_stakeExact {row : ValidatorRow} (h : row.StakeExact) (now : Instant) :
    (row.penalizeFraud now).StakeExact ∧
      unitsOf (row.penalizeFraud now).walletStakeLocked ≤ unitsOf row.walletStakeLocked :=
  stakeExact_slash h rfl rfl

/-! ## Steps that leave the ledger's stake entries alone -/

/-- The postings are neither locks, unlocks nor withdrawals. -/
def Unrelated (ps : List Posting) : Prop :=
  ∀ p ∈ ps, p.entryType ≠ "validator_stake_lock" ∧ p.entryType ≠ "validator_stake_unlock" ∧
    p.entryType ≠ "validator_unstake_credit"

/-- Unrelated postings change none of the three sums. -/
theorem Unrelated.postingSums {ps : List Posting} (h : Unrelated ps)
    (validatorId owner : String) :
    postingSum (Posting.locks validatorId) ps = 0 ∧
      postingSum (Posting.unlocks validatorId) ps = 0 ∧
      postingSum (Posting.withdraws validatorId owner) ps = 0 := by
  refine ⟨postingSum_eq_zero fun p hp => ?_, postingSum_eq_zero fun p hp => ?_,
    postingSum_eq_zero fun p hp => ?_⟩
  · simp [Posting.locks, (h p hp).1]
  · simp [Posting.unlocks, (h p hp).2.1]
  · simp [Posting.withdraws, (h p hp).2.2]

/-- Credits and smaller wallet-backed stakes keep the invariant. -/
theorem StakeSound.mono {s s' : NodeState} (hs : StakeSound s) {ps : List Posting}
    (hwritten : Written s.ledger s'.ledger ps) (hps : Unrelated ps)
    (hcredits : ∀ p ∈ ps, 0 ≤ p.amountUnits)
    (hids : ∀ validatorId row, s'.validators.find? validatorId = some row →
      startsWith validatorId "validator_" = true)
    (hrows : s'.validators.Forall ValidatorRow.StakeExact)
    (hwallet : ∀ validatorId, walletStakeUnits s' validatorId ≤ walletStakeUnits s validatorId) :
    StakeSound s' := by
  have hposted := postedTo_nonneg hcredits
  refine ⟨fun a => ?_, hids, hrows, fun v => ?_, fun v => ?_, fun v owner => ?_⟩
  · rw [hwritten.balance]
    have hold := hs.balances a
    have hnew := hposted a
    omega
  · rw [hwritten.balance]
    have hold := hs.backed v
    have hnew := hposted v
    have hless := hwallet v
    omega
  · obtain ⟨hlocks, hunlocks, -⟩ := hps.postingSums v ""
    have hold := hs.staked v
    have hless := hwallet v
    unfold unlockedUnits stakedUnits at hold ⊢
    rw [hwritten.entrySum, hwritten.entrySum, hlocks, hunlocks]
    omega
  · obtain ⟨-, hunlocks, hwithdraws⟩ := hps.postingSums v owner
    have hold := hs.withdrawn v owner
    unfold unlockedUnits withdrawnUnits at hold ⊢
    rw [hwritten.entrySum, hwritten.entrySum, hunlocks, hwithdraws]
    omega

/-- No postings are unrelated. -/
theorem unrelated_nil : Unrelated [] := fun _ h => nomatch h

/-- The update of one row, by a change that takes no wallet-backed stake in. -/
theorem StakeSound.modify {s : NodeState} (hs : StakeSound s) (validatorId : String)
    {f : ValidatorRow → ValidatorRow}
    (hf : ∀ row : ValidatorRow, row.StakeExact → (f row).StakeExact ∧
      unitsOf (f row).walletStakeLocked ≤ unitsOf row.walletStakeLocked) :
    StakeSound { s with validators := s.validators.modify validatorId f } := by
  refine hs.mono (.refl s.ledger) unrelated_nil (fun _ h => nomatch h) (fun v row hrow => ?_)
    (hs.rows.modify fun row hrow => (hf row hrow).1) fun v => ?_
  · rw [Sql.Table.find?_modify] at hrow
    split at hrow
    · next heq =>
      obtain ⟨old, hold, -⟩ := Option.map_eq_some_iff.mp hrow
      exact hs.ids v old (heq ▸ hold)
    · exact hs.ids v row hrow
  · unfold walletStakeUnits
    dsimp only
    rw [Sql.Table.find?_modify]
    split
    · next heq =>
      rw [heq]
      cases hold : s.validators.find? validatorId with
      | none => simp
      | some old => simpa using (hf old (hs.rows.find? hold)).2
    · exact le_refl _

/-- A new row without a wallet-backed stake. -/
theorem StakeSound.insertNew {s : NodeState} (hs : StakeSound s) {validatorId : String}
    {row : ValidatorRow} (hid : startsWith validatorId "validator_" = true)
    (hrow : row.StakeExact) (hwallet : unitsOf row.walletStakeLocked = 0) :
    StakeSound { s with validators := s.validators.insertNew validatorId row } := by
  refine hs.mono (.refl s.ledger) unrelated_nil (fun _ h => nomatch h) (fun v x hx => ?_)
    (hs.rows.insertNew hrow) fun v => ?_
  · rw [Sql.Table.find?_insertNew] at hx
    split at hx
    · next heq => exact heq ▸ hid
    · exact hs.ids v x hx
  · unfold walletStakeUnits
    dsimp only
    rw [Sql.Table.find?_insertNew]
    split
    · next heq =>
      rw [heq]
      cases hold : s.validators.find? validatorId with
      | none => simp [hwallet]
      | some old => simp
    · exact le_refl _

/-! ## Rewards and registration -/

/-- The parts of a pool are not negative. -/
theorem validatorParts_nonneg {poolUnits perValidatorUnits : ℤ} (hper : 0 ≤ perValidatorUnits)
    (validatorIds : List String) (distributedUnits : ℤ)
    (hpool : distributedUnits + perValidatorUnits * validatorIds.length ≤ poolUnits) :
    ∀ part ∈ validatorParts poolUnits perValidatorUnits validatorIds distributedUnits,
      0 ≤ part.2 := by
  induction validatorIds generalizing distributedUnits with
  | nil => exact fun part h => nomatch h
  | cons validatorId rest ih =>
    intro part hpart
    cases rest with
    | nil =>
      simp only [List.length_singleton, Nat.cast_one, mul_one] at hpool
      rw [List.mem_singleton.mp hpart]
      show 0 ≤ poolUnits - distributedUnits
      omega
    | cons next rest =>
      rw [validatorParts] at hpart
      · rcases List.mem_cons.mp hpart with rfl | hpart
        · exact hper
        · refine ih (distributedUnits + perValidatorUnits) ?_ part hpart
          simp only [List.length_cons, Nat.cast_add, Nat.cast_one] at hpool ⊢
          linarith
      · simp

/-- The postings of a reward are unrelated to stakes, and none is negative. -/
theorem validatorRewardPostings_credits (rc : RewardConfig) (now : Instant)
    (validators : Sql.Table String ValidatorRow) (votes : List ValidationVoteRow)
    (jobId : String) (blockHeight : ℤ) (params : ProtocolParamsRow) :
    let ps := validatorRewardPostings rc now validators votes jobId blockHeight params
    Unrelated ps ∧ ∀ p ∈ ps, 0 ≤ p.amountUnits := by
  intro ps
  have hparts : ∀ p ∈ ps, p.entryType = "validator_reward" ∧ 0 ≤ p.amountUnits := by
    intro p hp
    unfold ps validatorRewardPostings at hp
    dsimp only at hp
    split at hp
    · cases hp
    · next hpays =>
      rw [not_or, not_le] at hpays
      obtain ⟨part, hpart, rfl⟩ := List.mem_map.mp hp
      refine ⟨rfl, ?_⟩
      show 0 ≤ unitsOf (unitsToFloat part.2)
      rw [unitsOf_unitsToFloat]
      refine validatorParts_nonneg (Int.ediv_nonneg hpays.2.le (by omega)) _ 0 ?_ part hpart
      rw [zero_add, mul_comm]
      exact Int.mul_ediv_self_le (by simpa using hpays.1)
  refine ⟨fun p hp => ?_, fun p hp => (hparts p hp).2⟩
  rw [(hparts p hp).1]
  decide

/-- A reward preserves it. -/
theorem StakeSound.reward {rc : RewardConfig} {s : NodeState} (hs : StakeSound s)
    (now : Instant) (votes : List ValidationVoteRow) (jobId : String) (blockHeight : ℤ)
    (params : ProtocolParamsRow) :
    StakeSound { s with ledger :=
      applyValidatorRewards rc now s.ledger s.validators votes jobId blockHeight params } := by
  have ⟨hunrelated, hcredits⟩ :=
    validatorRewardPostings_credits rc now s.validators votes jobId blockHeight params
  exact hs.mono (.of_credits _ _) hunrelated hcredits hs.ids hs.rows fun _ => le_refl _

/-- A text starts with its beginning. -/
theorem startsWith_append (start rest : String) : startsWith (start ++ rest) start = true := by
  unfold startsWith
  rw [String.toList_append, List.isPrefixOf_iff_prefix]
  exact List.prefix_append _ _

/-- A registration posts nothing. -/
theorem registerValidator_written {cfg : Config} {s s' : NodeState} {suffix name publicKey : String}
    {rewardAddress : Option String} {timestamp : String}
    (h : registerValidator cfg s suffix name publicKey rewardAddress timestamp = .ok s') :
    Written s.ledger s'.ledger [] := by
  unfold registerValidator at h
  dsimp only at h
  split at h
  · cases h
  · cases h
    have hensured := Written.of_ensure s.ledger ("validator_" ++ suffix) "validator"
    dsimp only
    split
    · exact hensured
    · exact hensured
    · exact hensured.trans (.of_ensure _ _ _)

/-- A registration preserves it. -/
theorem StakeSound.register {cfg : Config} {s s' : NodeState} (hs : StakeSound s)
    (hstake : 0 ≤ cfg.validatorRegistrationStake) {suffix name publicKey : String}
    {rewardAddress : Option String} {timestamp : String}
    (h : registerValidator cfg s suffix name publicKey rewardAddress timestamp = .ok s') :
    StakeSound s' := by
  have hwritten := registerValidator_written h
  unfold registerValidator at h
  dsimp only at h
  split at h
  · cases h
  · next validators hinsert =>
    cases h
    obtain ⟨hfresh, rfl⟩ := Sql.Table.insert?_eq_some_iff.mp hinsert
    have hrow : (registeredValidatorRow cfg name publicKey rewardAddress timestamp).StakeExact :=
      ⟨0, le_refl 0, rfl, hstake⟩
    have hinserted := hs.insertNew (startsWith_append "validator_" suffix) hrow rfl
    rw [Sql.Table.insertNew_of_none hfresh] at hinserted
    exact hinserted.mono hwritten unrelated_nil (fun _ h => nomatch h) hinserted.ids
      hinserted.rows fun _ => le_refl _

/-! ## Addresses are no validator ids -/

/-- A text that starts with a lower-case `v` is no address, whatever follows. -/
theorem isValidAddress_v (cfg : Config) {text : String} {rest : List Char}
    (h : text.toList = 'v' :: rest) : isValidAddress cfg (some text) = false := by
  have hspace : isSpace 'v' = false := by decide
  have hdrop : text.toList.dropWhile isSpace = 'v' :: rest := by
    rw [h, List.dropWhile_cons_of_neg (by simp [hspace])]
  -- the first character is no space, so neither end of `strip` removes it
  obtain ⟨rest', hstrip⟩ : ∃ rest', (strip text).toList = 'v' :: rest' := by
    unfold strip
    rw [hdrop, String.toList_ofList]
    have hahead := List.rdropWhile_prefix isSpace ('v' :: rest)
    cases hr : ('v' :: rest).rdropWhile isSpace with
    | nil =>
      have hall := List.rdropWhile_eq_nil_iff.mp hr 'v' List.mem_cons_self
      rw [hspace] at hall
      cases hall
    | cons c more =>
      rw [hr] at hahead
      exact ⟨more, by rw [(List.cons_prefix_cons.mp hahead).1]⟩
  have hupper : (upper (strip text)).toList = 'V' :: rest'.flatMap upperChar := by
    unfold upper
    rw [hstrip, String.toList_ofList, List.flatMap_cons, show upperChar 'v' = ['V'] by decide]
    rfl
  have hpattern : ∀ digits, matchesAddressPattern digits (upper (strip text)) = false := by
    intro digits
    unfold matchesAddressPattern
    rw [hupper]
    rfl
  unfold isValidAddress
  simp [hpattern]

/-- The sender of a signed transaction is no validator. -/
theorem startsWith_sender {cfg : Config} {tx : Tx} (h : isSignatureValid cfg tx = true) :
    startsWith tx.sender "validator_" = false := by
  rw [← Bool.not_eq_true]
  intro hstarts
  unfold startsWith at hstarts
  rw [List.isPrefixOf_iff_prefix] at hstarts
  obtain ⟨rest, hrest⟩ := hstarts
  have haddress : isValidAddress cfg (some tx.sender) = true := by
    unfold isSignatureValid addressMatchesPublicKey at h
    simp only [Bool.and_eq_true] at h
    exact h.1.2.1
  rw [isValidAddress_v cfg hrest.symm] at haddress
  cases haddress

/-! ## Transactions -/

/-- An amount that is not negative has no negative units. -/
theorem unitsOf_nonneg {amount : ℤ} (h : 0 ≤ amount) : 0 ≤ unitsOf amount :=
  Decimal.roundHalfUp_nonneg 100 h

/-- The miner's fee only adds. -/
theorem postedTo_feeReward_nonneg (ctx : BlockContext) (tx : Tx) (accountId : String) :
    0 ≤ postedTo (feeRewardPostings ctx tx) accountId := by
  unfold feeRewardPostings
  split
  · exact le_refl 0
  · next hfee =>
    have hunits := unitsOf_nonneg (not_le.mp hfee).le
    simp only [postedTo_cons, postedTo_nil, BlockContext.posting, add_zero]
    split
    · exact hunits
    · exact le_refl 0

/-- The payment of a fee is unrelated to stakes. -/
theorem unrelated_feeReward (ctx : BlockContext) (tx : Tx) :
    Unrelated (feeRewardPostings ctx tx) := by
  intro p hp
  unfold feeRewardPostings at hp
  split at hp
  · cases hp
  · rw [List.mem_singleton.mp hp]
    simp [BlockContext.posting]

/-- So is its debit. -/
theorem unrelated_feeDebit (ctx : BlockContext) (tx : Tx) (fee : ℤ) (description : String) :
    Unrelated (feeDebitPostings ctx tx fee "validator_unstake_fee_debit" description) := by
  intro p hp
  unfold feeDebitPostings at hp
  split at hp
  · rw [List.mem_singleton.mp hp]
    simp [BlockContext.posting]
  · cases hp

/-- An account other than the sender's is not charged the fee. -/
theorem postedTo_feeDebit (ctx : BlockContext) (tx : Tx) (fee : ℤ) (entryType description : String)
    {accountId : String} (h : tx.sender ≠ accountId) :
    postedTo (feeDebitPostings ctx tx fee entryType description) accountId = 0 := by
  unfold feeDebitPostings
  split
  · simp [BlockContext.posting, h]
  · rfl

/-- The wallet-backed stakes after an update of one row that adds `delta`. -/
theorem walletStakeUnits_modify {s s' : NodeState} (delta : ℤ)
    (hs : s.validators.Forall ValidatorRow.StakeExact) {validatorId : String}
    {f : ValidatorRow → ValidatorRow}
    (hvalidators : s'.validators = s.validators.modify validatorId f)
    (hf : ∀ row, s.validators.find? validatorId = some row → row.StakeExact →
      unitsOf (f row).walletStakeLocked = unitsOf row.walletStakeLocked + delta)
    (v : String) :
    walletStakeUnits s' v = walletStakeUnits s v +
      if v = validatorId ∧ s.validators.find? validatorId ≠ none then delta else 0 := by
  unfold walletStakeUnits
  rw [hvalidators, Sql.Table.find?_modify]
  by_cases hv : v = validatorId
  · subst hv
    cases hrow : s.validators.find? v with
    | none => simp
    | some row => simp [hf row hrow (hs.find? hrow)]
  · simp [hv]

/-- The rows that an update of one row leaves. -/
theorem find?_modify_isSome {t : Sql.Table String ValidatorRow} {k v : String}
    {f : ValidatorRow → ValidatorRow} {row : ValidatorRow} (h : (t.modify k f).find? v = some row) :
    ∃ old, t.find? v = some old := by
  rw [Sql.Table.find?_modify] at h
  split at h
  · next heq =>
    obtain ⟨old, hold, -⟩ := Option.map_eq_some_iff.mp h
    exact ⟨old, heq ▸ hold⟩
  · exact ⟨row, h⟩

/-- What a stake that passes the checks says. -/
theorem validatorStake_passes {validators : Sql.Table String ValidatorRow} {tx : Tx} {missing : Bool}
    (h : validatorStakeRejectionReason validators tx missing = none) :
    0 < txAmountUnits tx ∧ startsWith (validatorStakeValidatorId tx) "validator_" = true := by
  unfold validatorStakeRejectionReason at h
  dsimp only at h
  split at h
  · cases h
  · next hamount =>
    split at h
    · cases h
    · next hid => exact ⟨not_le.mp hamount, by simpa using hid⟩

/-- What an unstake that passes the checks says: the sender is the recorded owner, and it takes a
positive part of the wallet-backed stake. -/
theorem validatorUnstake_passes {cfg : Config} {s : NodeState} {tx : Tx}
    (h : validatorUnstakeRejectionReason cfg s tx = none) :
    ∃ row, s.validators.find? (validatorStakeValidatorId tx) = some row ∧
      clean row.stakeOwnerAddress = tx.sender ∧
      validatorUnstakeUnits cfg s.validators tx = validatorUnstakeAmountUnits cfg tx row ∧
      0 < validatorUnstakeAmountUnits cfg tx row ∧
      validatorUnstakeAmountUnits cfg tx row ≤ unitsOf row.walletStakeLocked := by
  unfold validatorUnstakeRejectionReason at h
  split at h
  · cases h
  · next row hrow =>
    dsimp only at h
    repeat' (split at h; · cases h)
    next _ howner _ _ hpositive hwithin _ _ _ =>
    have hfind : s.validators.find? (validatorStakeValidatorId tx) = some row := by
      unfold validatorUnstakeRow at hrow
      dsimp only at hrow
      split at hrow
      · cases hrow
      · exact hrow
    exact ⟨row, hfind, not_not.mp howner, by simp [validatorUnstakeUnits, hrow],
      not_le.mp hpositive, not_lt.mp hwithin⟩

/-- What the postings of a stake do to the stake entries. -/
theorem postingSum_validatorStakePostings (ctx : BlockContext) (tx : Tx) (v owner : String) :
    postingSum (Posting.locks v) (validatorStakePostings ctx tx) =
        (if v = validatorStakeValidatorId tx then txAmountUnits tx else 0) ∧
      postingSum (Posting.unlocks v) (validatorStakePostings ctx tx) = 0 ∧
      postingSum (Posting.withdraws v owner) (validatorStakePostings ctx tx) = 0 := by
  refine ⟨?_, ?_, ?_⟩
  · simp [validatorStakePostings, BlockContext.posting, Posting.locks, eq_comm]
  · simp [validatorStakePostings, BlockContext.posting, Posting.unlocks]
  · simp [validatorStakePostings, BlockContext.posting, Posting.withdraws]

/-- What the postings of a stake do to an account other than the sender's. -/
theorem postedTo_validatorStakePostings (ctx : BlockContext) (tx : Tx) {v : String}
    (h : tx.sender ≠ v) : postedTo (validatorStakePostings ctx tx) v =
      if v = validatorStakeValidatorId tx then txAmountUnits tx else 0 := by
  simp [validatorStakePostings, BlockContext.posting, h, eq_comm]

/-- A registered validator is not the sender of a signed transaction. -/
theorem sender_ne_of_row {cfg : Config} {s : NodeState} {tx : Tx}
    (hids : ∀ v row, s.validators.find? v = some row → startsWith v "validator_" = true)
    (hsigned : isSignatureValid cfg tx = true) {v : String} {row : ValidatorRow}
    (hrow : s.validators.find? v = some row) : tx.sender ≠ v := by
  intro heq
  have hstarts := hids v row hrow
  rw [← heq, startsWith_sender hsigned] at hstarts
  cases hstarts

/-- The sender of a signed transaction has no wallet-backed stake. -/
theorem walletStakeUnits_sender {cfg : Config} {s : NodeState} {tx : Tx}
    (hids : ∀ v row, s.validators.find? v = some row → startsWith v "validator_" = true)
    (hsigned : isSignatureValid cfg tx = true) : walletStakeUnits s tx.sender = 0 := by
  unfold walletStakeUnits
  cases hrow : s.validators.find? tx.sender with
  | none => rfl
  | some row => exact absurd rfl (sender_ne_of_row hids hsigned hrow)

/-- A stake keeps the invariant. -/
theorem StakeSound.stakeTransaction {cfg : Config} {now : Instant} {ctx : BlockContext}
    {b b' : BlockProgress} {tx : Tx} (hs : StakeSound b.state)
    (hregistration : 0 ≤ cfg.validatorRegistrationStake) (htype : tx.txType = .stake)
    (hvalidator : isValidatorStakeTx tx = true)
    (h : applyBlockTransaction cfg now ctx b tx = .ok b') : StakeSound b'.state := by
  have hposts := applyBlockTransaction_posts h
  obtain ⟨hpass, s₁, hexecute, hsettle, -⟩ := applyBlockTransaction_eq_ok h
  obtain ⟨-, hsigned, -, -, -, hkind⟩ := transactionRejectionReason_eq_none.mp hpass
  have hstakeType : stakeType tx = "validator" := by simpa [isValidatorStakeTx] using hvalidator
  simp only [kindRejectionReason, htype, stakeRejectionReason, if_pos hstakeType] at hkind
  obtain ⟨hamount, hid⟩ := validatorStake_passes hkind
  have hpostings : transactionPostings cfg now ctx b.state tx =
      validatorStakePostings ctx tx ++ feeRewardPostings ctx tx := by
    simp [transactionPostings, kindPostings, htype, hvalidator]
  rw [hpostings] at hposts
  -- the table that the stake works on has a row for an unknown validator in canonical replay
  have hready : StakeSound { b.state with
      validators := stakeValidators cfg ctx b.state.validators tx } := by
    unfold stakeValidators
    split
    · unfold ensureCanonicalReplayValidatorRegistration
      dsimp only
      rw [if_pos hid]
      exact hs.insertNew hid ⟨0, le_refl 0, rfl, hregistration⟩ rfl
    · exact hs
  have hvalidators : b'.state.validators =
      (stakeValidators cfg ctx b.state.validators tx).modify (validatorStakeValidatorId tx)
        (.stake (unitsToFloat (txAmountUnits tx)) tx.sender ctx.timestamp.text) := by
    simp only [executeTransaction, htype, hvalidator, if_true] at hexecute
    obtain ⟨⟨l, validators⟩, hhandler, hok⟩ := bind_eq_ok.mp hexecute
    rw [← pure_eq_ok.mp hok] at hsettle
    obtain ⟨l', -, hok'⟩ := bind_eq_ok.mp hsettle
    rw [← pure_eq_ok.mp hok']
    exact (applyValidatorStakeTransaction_eq_ok hhandler).2
  have hwallet := walletStakeUnits_modify (txAmountUnits tx) hready.rows hvalidators
    fun row _ hrow => (hrow.stake hamount tx.sender ctx.timestamp.text).2
  have hids : ∀ v row, b'.state.validators.find? v = some row →
      startsWith v "validator_" = true := by
    intro v row hrow
    rw [hvalidators] at hrow
    obtain ⟨old, hold⟩ := find?_modify_isSome hrow
    exact hready.ids v old hold
  have hfee := unrelated_feeReward ctx tx
  have hsums := postingSum_validatorStakePostings ctx tx
  have hwritten := Written.of_posts hposts
  refine ⟨hposts.nonneg hs.balances, hids, ?_, fun v => ?_, fun v => ?_, fun v owner => ?_⟩
  · rw [hvalidators]
    exact hready.rows.modify fun row hrow => (hrow.stake hamount _ _).1
  · by_cases hsender : tx.sender = v
    · rw [← hsender, walletStakeUnits_sender hids hsigned]
      exact hposts.nonneg hs.balances tx.sender
    · have hold := hready.backed v
      have hnonneg := postedTo_feeReward_nonneg ctx tx v
      rw [hposts.balance, postedTo_append, postedTo_validatorStakePostings ctx tx hsender, hwallet]
      dsimp only at hold ⊢
      split_ifs <;> grind
  · have hold := hready.staked v
    unfold unlockedUnits stakedUnits at hold ⊢
    rw [hwritten.entrySum, hwritten.entrySum, postingSum_append, postingSum_append,
      (hsums v "").1, (hsums v "").2.1, (hfee.postingSums v "").1, (hfee.postingSums v "").2.1,
      hwallet]
    dsimp only at hold ⊢
    split_ifs <;> grind
  · have hold := hs.withdrawn v owner
    unfold unlockedUnits withdrawnUnits at hold ⊢
    rw [hwritten.entrySum, hwritten.entrySum, postingSum_append, postingSum_append,
      (hsums v owner).2.1, (hsums v owner).2.2, (hfee.postingSums v owner).2.1,
      (hfee.postingSums v owner).2.2]
    omega

/-- Texts with the same beginning differ in their ends. -/
theorem append_left_inj {start v w : String} : start ++ v = start ++ w ↔ v = w := by
  refine ⟨fun h => ?_, fun h => by rw [h]⟩
  have hlist := congrArg String.toList h
  rw [String.toList_append, String.toList_append] at hlist
  exact String.toList_injective (List.append_cancel_left hlist)

/-- The descriptions of two withdrawals agree only for one validator. -/
theorem unlockDescription_inj {v w : String} :
    unlockDescription v = unlockDescription w ↔ v = w :=
  append_left_inj

/-- The unlock of a stake is not the entry of its withdrawal. -/
theorem withdraws_unlock (ctx : BlockContext) (tx : Tx) (v owner accountId description : String)
    (amount : ℤ) : Posting.withdraws v owner (ctx.posting tx accountId "validator" amount
      "validator_stake_unlock" description) = false := by
  simp [Posting.withdraws, BlockContext.posting]

/-- The credit of an unstake is a withdrawal by its sender, from the validator it names. -/
theorem withdraws_credit (ctx : BlockContext) (tx : Tx) (v w owner : String) (amount : ℤ) :
    Posting.withdraws v owner (ctx.posting tx tx.sender "wallet" amount
      "validator_unstake_credit" (unlockDescription w)) = decide (owner = tx.sender ∧ v = w) := by
  simp only [Posting.withdraws, BlockContext.posting, Option.some_inj, unlockDescription_inj,
    decide_true, Bool.true_and, Bool.decide_and, eq_comm]

/-- What the postings of an unstake do to the stake entries. -/
theorem postingSum_validatorUnstakePostings (cfg : Config) (ctx : BlockContext)
    (validators : Sql.Table String ValidatorRow) (tx : Tx) (v owner : String) :
    postingSum (Posting.locks v) (validatorUnstakePostings cfg ctx validators tx) = 0 ∧
      postingSum (Posting.unlocks v) (validatorUnstakePostings cfg ctx validators tx) =
        (if v = validatorStakeValidatorId tx then -validatorUnstakeUnits cfg validators tx
        else 0) ∧
      postingSum (Posting.withdraws v owner) (validatorUnstakePostings cfg ctx validators tx) =
        if owner = tx.sender ∧ v = validatorStakeValidatorId tx then
          validatorUnstakeUnits cfg validators tx
        else 0 := by
  have hfee := (unrelated_feeDebit ctx tx (unitsToFloat (txFeeUnits tx))
    "validator unstake fee").postingSums v owner
  have hpostings : validatorUnstakePostings cfg ctx validators tx =
      feeDebitPostings ctx tx (unitsToFloat (txFeeUnits tx)) "validator_unstake_fee_debit"
        "validator unstake fee" ++
      [ctx.posting tx (validatorStakeValidatorId tx) "validator"
          (-unitsToFloat (validatorUnstakeUnits cfg validators tx)) "validator_stake_unlock"
          s!"validator stake unlock to {tx.sender}",
        ctx.posting tx tx.sender "wallet"
          (unitsToFloat (validatorUnstakeUnits cfg validators tx)) "validator_unstake_credit"
          (unlockDescription (validatorStakeValidatorId tx))] := rfl
  rw [hpostings]
  generalize validatorUnstakeUnits cfg validators tx = units
  simp only [postingSum_append, postingSum_cons, postingSum_nil, hfee.1, hfee.2.1, hfee.2.2,
    zero_add, add_zero, withdraws_unlock, withdraws_credit]
  refine ⟨?_, ?_, ?_⟩
  · simp [BlockContext.posting, Posting.locks]
  · simp [BlockContext.posting, Posting.unlocks, eq_comm]
  · simp [BlockContext.posting]

/-- What the postings of an unstake do to an account other than the sender's. -/
theorem postedTo_validatorUnstakePostings (cfg : Config) (ctx : BlockContext)
    (validators : Sql.Table String ValidatorRow) (tx : Tx) {v : String} (h : tx.sender ≠ v) :
    postedTo (validatorUnstakePostings cfg ctx validators tx) v =
      if v = validatorStakeValidatorId tx then -validatorUnstakeUnits cfg validators tx
      else 0 := by
  unfold validatorUnstakePostings
  dsimp only
  rw [postedTo_append, postedTo_feeDebit ctx tx _ _ _ h]
  simp [BlockContext.posting, h, eq_comm]

/-- An unstake keeps the invariant. -/
theorem StakeSound.unstakeTransaction {cfg : Config} {now : Instant} {ctx : BlockContext}
    {b b' : BlockProgress} {tx : Tx} (hs : StakeSound b.state) (htype : tx.txType = .unstake)
    (hvalidator : isValidatorStakeTx tx = true)
    (h : applyBlockTransaction cfg now ctx b tx = .ok b') : StakeSound b'.state := by
  have hposts := applyBlockTransaction_posts h
  obtain ⟨hpass, s₁, hexecute, hsettle, -⟩ := applyBlockTransaction_eq_ok h
  obtain ⟨-, hsigned, -, -, -, hkind⟩ := transactionRejectionReason_eq_none.mp hpass
  have hstakeType : stakeType tx = "validator" := by simpa [isValidatorStakeTx] using hvalidator
  simp only [kindRejectionReason, htype, unstakeRejectionReason, if_pos hstakeType] at hkind
  obtain ⟨row, hrow, -, hamount, hpositive, hwithin⟩ := validatorUnstake_passes hkind
  have hpostings : transactionPostings cfg now ctx b.state tx =
      validatorUnstakePostings cfg ctx b.state.validators tx ++ feeRewardPostings ctx tx := by
    simp [transactionPostings, kindPostings, htype, hvalidator]
  rw [hpostings] at hposts
  have hvalidators : b'.state.validators =
      b.state.validators.modify (validatorStakeValidatorId tx)
        (.unstake (validatorUnstakeUnits cfg b.state.validators tx) ctx.timestamp.text) := by
    simp only [executeTransaction, htype, hvalidator, if_true] at hexecute
    obtain ⟨⟨l, validators⟩, hhandler, hok⟩ := bind_eq_ok.mp hexecute
    rw [← pure_eq_ok.mp hok] at hsettle
    obtain ⟨l', -, hok'⟩ := bind_eq_ok.mp hsettle
    rw [← pure_eq_ok.mp hok']
    exact (applyValidatorUnstakeTransaction_eq_ok hhandler).2
  -- the check has bounded the units by the wallet's stake, so nothing is cut off at zero
  have hle : ∀ old, b.state.validators.find? (validatorStakeValidatorId tx) = some old →
      validatorUnstakeUnits cfg b.state.validators tx ≤ unitsOf old.walletStakeLocked := by
    intro old hold
    rw [hrow] at hold
    rw [← Option.some.inj hold, hamount]
    exact hwithin
  rw [← hamount] at hpositive
  have hwallet := walletStakeUnits_modify (-validatorUnstakeUnits cfg b.state.validators tx)
    hs.rows hvalidators fun old hold hexact =>
      (hexact.unstake (hle old hold) ctx.timestamp.text).2.trans (sub_eq_add_neg _ _)
  have hids : ∀ v row, b'.state.validators.find? v = some row →
      startsWith v "validator_" = true := by
    intro v new hnew
    rw [hvalidators] at hnew
    obtain ⟨old, hold⟩ := find?_modify_isSome hnew
    exact hs.ids v old hold
  have hrows : b'.state.validators.Forall ValidatorRow.StakeExact := by
    rw [Sql.Table.forall_iff_find?]
    intro v new hnew
    rw [hvalidators, Sql.Table.find?_modify] at hnew
    split at hnew
    · obtain ⟨old, hold, rfl⟩ := Option.map_eq_some_iff.mp hnew
      exact ((hs.rows.find? hold).unstake (hle old hold) _).1
    · exact hs.rows.find? hnew
  have hfee := unrelated_feeReward ctx tx
  have hsums := postingSum_validatorUnstakePostings cfg ctx b.state.validators tx
  have hwritten := Written.of_posts hposts
  refine ⟨hposts.nonneg hs.balances, hids, hrows, fun v => ?_, fun v => ?_, fun v owner => ?_⟩
  · by_cases hsender : tx.sender = v
    · rw [← hsender, walletStakeUnits_sender hids hsigned]
      exact hposts.nonneg hs.balances tx.sender
    · have hold := hs.backed v
      have hnonneg := postedTo_feeReward_nonneg ctx tx v
      rw [hposts.balance, postedTo_append, postedTo_validatorUnstakePostings _ _ _ _ hsender,
        hwallet]
      simp only [hrow, ne_eq, reduceCtorEq, not_false_eq_true, and_true]
      split <;> omega
  · have hold := hs.staked v
    unfold unlockedUnits stakedUnits at hold ⊢
    rw [hwritten.entrySum, hwritten.entrySum, postingSum_append, postingSum_append,
      (hsums v "").1, (hsums v "").2.1, (hfee.postingSums v "").1, (hfee.postingSums v "").2.1,
      hwallet]
    simp only [hrow, ne_eq, reduceCtorEq, not_false_eq_true, and_true]
    split <;> omega
  · have hold := hs.withdrawn v owner
    unfold unlockedUnits withdrawnUnits at hold ⊢
    rw [hwritten.entrySum, hwritten.entrySum, postingSum_append, postingSum_append,
      (hsums v owner).2.1, (hsums v owner).2.2, (hfee.postingSums v owner).2.1,
      (hfee.postingSums v owner).2.2]
    -- the withdrawal counts for this validator and this owner only
    by_cases hv : v = validatorStakeValidatorId tx
    · subst hv
      simp only [and_true, if_true]
      split <;> omega
    · simp only [hv, and_false, if_false]
      omega

/-! ## Runs -/

/-- No validator is registered, and no stake was ever locked. -/
structure StakeStart (s : NodeState) : Prop where
  balances : s.ledger.NonNegative
  validators : s.validators = .empty
  entries : Unrelated (s.ledger.entries.map LedgerEntry.toPosting)

/-- It holds at the start. -/
theorem StakeStart.sound {s : NodeState} (hs : StakeStart s) : StakeSound s := by
  have hwallet : ∀ v, walletStakeUnits s v = 0 := by
    intro v
    rw [walletStakeUnits, hs.validators]
    rfl
  refine ⟨hs.balances, ?_, ?_, fun v => ?_, fun v => ?_, fun v owner => ?_⟩
  · rw [hs.validators]
    exact fun _ _ h => nomatch h
  · rw [hs.validators]
    exact fun _ h => nomatch h
  · rw [hwallet]
    exact hs.balances v
  · rw [hwallet, unlockedUnits, stakedUnits, Ledger.entrySum, Ledger.entrySum,
      (hs.entries.postingSums v "").1, (hs.entries.postingSums v "").2.1]
    rfl
  · rw [withdrawnUnits, unlockedUnits, Ledger.entrySum, Ledger.entrySum,
      (hs.entries.postingSums v owner).2.1, (hs.entries.postingSums v owner).2.2]
    rfl

/-- Every step keeps the invariant. -/
theorem stakeStep_sound {rc : RewardConfig} (hregistration : 0 ≤ rc.validatorRegistrationStake)
    {s : NodeState} (hs : StakeSound s) (step : StakeStep) : StakeSound (stakeStep rc s step) := by
  refine attempt_of hs fun s' h => ?_
  cases step with
  | register => exact hs.register hregistration h
  | transaction now ctx expected tx =>
    obtain ⟨b', hblock, h⟩ := bind_eq_ok.mp h
    rw [← pure_eq_ok.mp h]
    obtain ⟨tx, htype | htype, hvalidator⟩ := tx
    · exact StakeSound.stakeTransaction (b := ⟨s, expected⟩) hs hregistration htype hvalidator hblock
    · exact StakeSound.unstakeTransaction (b := ⟨s, expected⟩) hs htype hvalidator hblock
  | reward now votes jobId blockHeight params =>
    cases h
    exact hs.reward now votes jobId blockHeight params
  | penalize now validatorId =>
    cases h
    exact hs.modify validatorId fun row hrow => penalize_stakeExact hrow now
  | penalizeFraud now validatorId =>
    cases h
    exact hs.modify validatorId fun row hrow => penalizeFraud_stakeExact hrow now

/-- It holds after any steps. -/
theorem foldl_stakeStep_sound {rc : RewardConfig}
    (hregistration : 0 ≤ rc.validatorRegistrationStake) (steps : List StakeStep) :
    ∀ s, StakeSound s → StakeSound (steps.foldl (stakeStep rc) s) := by
  induction steps with
  | nil => exact fun s hs => hs
  | cons step rest ih => exact fun s hs => ih _ (stakeStep_sound hregistration hs step)

/-- What a step does for a registered validator: it takes nothing from its account and pays nobody
from its stake, or it is an unstake by the recorded owner, the only one it pays. -/
def Withdraws (s s' : NodeState) (step : StakeStep) (v : String) (row : ValidatorRow) : Prop :=
  (s.ledger.balanceUnits v ≤ s'.ledger.balanceUnits v ∧
    ∀ owner, withdrawnUnits s'.ledger v owner = withdrawnUnits s.ledger v owner) ∨
  ∃ now ctx expected tx, step = .transaction now ctx expected tx ∧ tx.val.txType = .unstake ∧
    validatorStakeValidatorId tx.val = v ∧ tx.val.sender = clean row.stakeOwnerAddress ∧
    ∀ owner, owner ≠ tx.val.sender →
      withdrawnUnits s'.ledger v owner = withdrawnUnits s.ledger v owner

/-- Credits that are no stake entries withdraw nothing. -/
theorem withdraws_of_credits {s s' : NodeState} (step : StakeStep) {ps : List Posting}
    (hwritten : Written s.ledger s'.ledger ps) (hps : Unrelated ps) (v : String)
    (row : ValidatorRow) (hcredits : 0 ≤ postedTo ps v) : Withdraws s s' step v row := by
  refine .inl ⟨?_, fun owner => ?_⟩
  · rw [hwritten.balance]
    omega
  · rw [withdrawnUnits, hwritten.entrySum, (hps.postingSums v owner).2.2, add_zero]
    rfl

/-- A stake transaction withdraws what it takes from the locked stake. -/
theorem withdraws_stakeTransaction {rc : RewardConfig} {s : NodeState} (hs : StakeSound s)
    {now : Instant} {ctx : BlockContext} {expected : ExpectedNonces}
    (tx : { tx : Tx // IsValidatorStake tx }) {b' : BlockProgress}
    (h : applyBlockTransaction rc.toConfig now ctx ⟨s, expected⟩ tx.val = .ok b') {v : String}
    {row : ValidatorRow} (hrow : s.validators.find? v = some row) :
    Withdraws s b'.state (.transaction now ctx expected tx) v row := by
  have hwritten := Written.of_posts (applyBlockTransaction_posts h)
  obtain ⟨hpass, -⟩ := applyBlockTransaction_eq_ok h
  obtain ⟨-, hsigned, -, -, -, hkind⟩ := transactionRejectionReason_eq_none.mp hpass
  have hstakeType : stakeType tx.val = "validator" := by
    simpa [isValidatorStakeTx] using tx.property.2
  have hsender := sender_ne_of_row hs.ids hsigned hrow
  have hfee := (unrelated_feeReward ctx tx.val).postingSums v
  have hcredit := postedTo_feeReward_nonneg ctx tx.val v
  -- a stake withdraws nothing, an unstake pays its owner
  rcases tx.property.1 with htype | htype
  · simp only [kindRejectionReason, htype, stakeRejectionReason, if_pos hstakeType] at hkind
    have hamount := (validatorStake_passes hkind).1
    simp only [transactionPostings, kindPostings, htype, tx.property.2, if_true] at hwritten
    refine .inl ⟨?_, fun owner => ?_⟩
    · rw [hwritten.balance, postedTo_append, postedTo_validatorStakePostings ctx tx.val hsender]
      split <;> omega
    · rw [withdrawnUnits, hwritten.entrySum, postingSum_append,
        (postingSum_validatorStakePostings ctx tx.val v owner).2.2, (hfee owner).2.2]
      exact add_zero _
  · simp only [kindRejectionReason, htype, unstakeRejectionReason, if_pos hstakeType] at hkind
    simp only [transactionPostings, kindPostings, htype, tx.property.2, if_true] at hwritten
    have hsums := postingSum_validatorUnstakePostings rc.toConfig ctx s.validators tx.val v
    -- the unstake is of this validator or of another one
    by_cases hv : v = validatorStakeValidatorId tx.val
    · obtain ⟨found, hfound, howner, -⟩ := validatorUnstake_passes hkind
      rw [← hv, hrow] at hfound
      refine .inr ⟨now, ctx, expected, tx, rfl, htype, hv.symm, ?_, fun owner hother => ?_⟩
      · rw [← howner, Option.some.inj hfound]
      · rw [withdrawnUnits, hwritten.entrySum, postingSum_append, (hsums owner).2.2,
          (hfee owner).2.2]
        simp [hother, withdrawnUnits]
    · refine .inl ⟨?_, fun owner => ?_⟩
      · rw [hwritten.balance, postedTo_append,
          postedTo_validatorUnstakePostings rc.toConfig ctx s.validators tx.val hsender, if_neg hv]
        omega
      · rw [withdrawnUnits, hwritten.entrySum, postingSum_append, (hsums owner).2.2,
          (hfee owner).2.2]
        simp [hv, withdrawnUnits]

/-- So does every step. -/
theorem stakeStep_withdraws {rc : RewardConfig} {s : NodeState} (hs : StakeSound s)
    (step : StakeStep) {v : String} {row : ValidatorRow}
    (hrow : s.validators.find? v = some row) : Withdraws s (stakeStep rc s step) step v row := by
  have hsame : Withdraws s s step v row :=
    withdraws_of_credits step (.refl s.ledger) unrelated_nil v row (le_refl 0)
  refine attempt_of (P := fun s' => Withdraws s s' step v row) hsame fun s' h => ?_
  cases step with
  | register suffix name publicKey rewardAddress timestamp =>
    have hwritten := registerValidator_written h
    exact withdraws_of_credits _ hwritten unrelated_nil v row (le_refl 0)
  | transaction now ctx expected tx =>
    obtain ⟨b', hblock, h⟩ := bind_eq_ok.mp h
    rw [← pure_eq_ok.mp h]
    exact withdraws_stakeTransaction hs tx hblock hrow
  | reward now votes jobId blockHeight params =>
    cases h
    have ⟨hunrelated, hcredits⟩ :=
      validatorRewardPostings_credits rc now s.validators votes jobId blockHeight params
    exact withdraws_of_credits _ (.of_credits _ _) hunrelated v row (postedTo_nonneg hcredits v)
  | penalize now validatorId =>
    cases h
    exact withdraws_of_credits _ (.refl s.ledger) unrelated_nil v row (le_refl 0)
  | penalizeFraud now validatorId =>
    cases h
    exact withdraws_of_credits _ (.refl s.ledger) unrelated_nil v row (le_refl 0)

/-- **Validator stake is accounted for.** After any run of registrations, stakes, unstakes,
rewards and penalties, the wallet-backed stake of a validator is within its stake and backed by
its account, no owner has withdrawn more than was staked for the validator, and no step but an
unstake of the recorded owner withdraws anything. -/
theorem validatorStake_accounting {rc : RewardConfig}
    (hregistration : 0 ≤ rc.validatorRegistrationStake) {start : NodeState}
    (hstart : StakeStart start) (steps : List StakeStep) (v : String) (row : ValidatorRow)
    (hrow : (steps.foldl (stakeStep rc) start).validators.find? v = some row) :
    let s := steps.foldl (stakeStep rc) start
    0 ≤ row.walletStakeLocked ∧ row.walletStakeLocked ≤ row.stakeLocked ∧
      row.walletStakeLocked ≤ s.ledger.balance v ∧
      (∀ owner, withdrawnUnits s.ledger v owner ≤ stakedUnits s.ledger v) ∧
      ∀ step, Withdraws s (stakeStep rc s step) step v row := by
  intro s
  have hs : StakeSound s := foldl_stakeStep_sound hregistration steps start hstart.sound
  obtain ⟨units, hunits, hwallet, hle⟩ := hs.rows.find? hrow
  have hbacked := hs.backed v
  have hstaked := hs.staked v
  have hwalletUnits : walletStakeUnits s v = units := by
    rw [walletStakeUnits, hrow, Option.map_some, Option.getD_some, hwallet, unitsOf_unitsToFloat]
  refine ⟨?_, hle, ?_, fun owner => ?_, fun step => stakeStep_withdraws hs step hrow⟩
  · rw [hwallet]
    unfold unitsToFloat
    omega
  · rw [hwallet, Ledger.balance, unitsToFloat_le_iff, ← hwalletUnits]
    exact hbacked
  · have hwithdrawn := hs.withdrawn v owner
    omega

/-- A stake of the first wallet on a validator. -/
def localStake : Tx :=
  signTransaction localConfig (aliceRequest .stake 1 0 500 none
    { stakeType := some "validator", validatorId := some "validator_1" } (.ofInstant 0))

/-- The local stake is a validator stake. -/
theorem isValidatorStake_localStake : IsValidatorStake localStake := ⟨.inl rfl, by decide⟩

/-- A registration, a stake and a penalty. -/
def localStakeSteps : List StakeStep :=
  [.register "1" "validator" aliceKey none "1970-01-01T00:00:00+00:00",
    .transaction 0 (localBlock 1 0 false) (fun _ => none) ⟨localStake, isValidatorStake_localStake⟩,
    .penalize 0 "validator_1"]

/-- A signed transaction passes the check of its signature. -/
theorem applyBlockTransaction_of_signed {cfg : Config} {tx : Tx}
    (hsigned : isSignatureValid cfg tx = true) (now : Instant) (ctx : BlockContext)
    (b : BlockProgress) :
    applyBlockTransaction cfg now ctx b tx = applySignedTransaction cfg now ctx b tx := by
  simp [applyBlockTransaction, applySignedTransaction, transactionRejectionReason, hsigned]

/-- A stake, a penalty and an unstake of one validator. -/
theorem validatorStake_accounting_local :
    ∃ row, (localStakeSteps.foldl (stakeStep localRewards)
        (localNode [(aliceAddress, 5000)])).validators.find? "validator_1" = some row ∧
      0 ≤ row.walletStakeLocked ∧ row.walletStakeLocked ≤ row.stakeLocked ∧
      row.walletStakeLocked ≤ (localStakeSteps.foldl (stakeStep localRewards)
        (localNode [(aliceAddress, 5000)])).ledger.balance "validator_1" := by
  have hstart : StakeStart (localNode [(aliceAddress, 5000)]) := by
    refine ⟨Ledger.nonNegative_of_rows (by decide), rfl, ?_⟩
    unfold Unrelated
    decide
  have hrow : (localStakeSteps.foldl (stakeStep localRewards)
      (localNode [(aliceAddress, 5000)])).validators.find? "validator_1" ≠ none := by
    have hsigned : isSignatureValid localConfig localStake = true :=
      isSignatureValid_aliceRequest _ _ _ _ _ _ _
    simp only [localStakeSteps, List.foldl_cons, List.foldl_nil, stakeStep, StakeStep.run]
    rw [show localRewards.toConfig = localConfig from rfl, applyBlockTransaction_of_signed hsigned]
    decide +kernel
  obtain ⟨row, hrow⟩ := Option.ne_none_iff_exists'.mp hrow
  have h := validatorStake_accounting (by decide) hstart localStakeSteps "validator_1" row hrow
  exact ⟨row, hrow, h.1, h.2.1, h.2.2.1⟩

end Picoin
