import Picoin.Proofs.TreasuryClock
import Picoin.Services.LocalNode
import Picoin.Services.Validators

/-!
# Blocks and the local state of a node

Two nodes that have executed the same blocks agree on all that a block writes (`SameChainData`).
Their validator rows still differ: each node switches validators off, penalises and bans them on
its own. And each has its own clock, which names the month of the science quota and reserve.

* **`ReadAlike`** — both nodes refuse a transaction, or the columns and rows that it reads of this
  local data are the same on both;
* **`nodes_agree_on_blocks`** — where each transaction of a block is read so, the block raises on both
  nodes or on neither, and moves the same coins, in every state of every run;
* **`unstake_forks`** — without it, one block is accepted by one node and raises on the other.
-/

namespace Picoin

open Outcome

/-! ## Ledgers -/

/-- The same balances, and the same faucet credits since any time. -/
structure SameBooks (l l' : Ledger) : Prop where
  balances : SameBalances l l'
  faucetCredits : ∀ a start, recentFaucetCredits l a start = recentFaucetCredits l' a start

/-- A ledger has its own books. -/
theorem SameBooks.refl (l : Ledger) : SameBooks l l := ⟨.refl l, fun _ _ => rfl⟩

/-- Is this a posting of the faucet to the account since the time? -/
def isFaucetCredit (a start : String) (p : Posting) : Bool :=
  p.accountId = a && p.entryType = "faucet_credit" && start ≤ p.createdAt

/-- The faucet credits in a window grow by those among the postings. -/
theorem Posts.faucetCredits {l l' : Ledger} {ps : List Posting} (h : Posts l l' ps)
    (a start : String) :
    recentFaucetCredits l' a start =
      recentFaucetCredits l a start + ps.countP (isFaucetCredit a start) := by
  obtain ⟨es, hentries, rfl⟩ := h.entries
  rw [recentFaucetCredits, recentFaucetCredits, hentries, List.countP_append, List.countP_map]
  rfl

/-- The same postings keep the books the same. -/
theorem SameBooks.of_posts {l l' m m' : Ledger} {ps : List Posting} (h : SameBooks l l')
    (hm : Posts l m ps) (hm' : Posts l' m' ps) : SameBooks m m' := by
  refine ⟨fun a => ?_, fun a start => ?_⟩
  · rw [hm.balance, hm'.balance, h.balances a]
  · rw [hm.faucetCredits, hm'.faucetCredits, h.faucetCredits]

/-- A posting is refused by both ledgers, or leaves them with the same books. -/
theorem applyAccountDelta_books {l l' : Ledger} (h : SameBooks l l')
    (accountId accountType : String) (amount : ℤ) (entryType : String) (blockHeight : ℤ)
    (relatedId description timestamp : String) :
    Agree SameBooks
      (applyAccountDelta l accountId accountType amount entryType blockHeight relatedId description
        timestamp)
      (applyAccountDelta l' accountId accountType amount entryType blockHeight relatedId
        description timestamp) :=
  (applyAccountDelta_agree h.balances ..).strengthen fun _ _ hm hm' _ =>
    h.of_posts (applyAccountDelta_posts hm) (applyAccountDelta_posts hm')

/-- The debit of a fee goes the same way in two ledgers with the same books. -/
theorem applyFeeDebit_books {l l' : Ledger} (h : SameBooks l l') (ctx : BlockContext) (tx : Tx)
    (fee : ℤ) (entryType description : String) :
    Agree SameBooks (applyFeeDebit ctx l tx fee entryType description)
      (applyFeeDebit ctx l' tx fee entryType description) := by
  unfold applyFeeDebit
  split
  · exact applyAccountDelta_books h ..
  · exact Agree.ok h

/-- So does the payment of the fee. -/
theorem applyFeeReward_books {l l' : Ledger} (h : SameBooks l l') (ctx : BlockContext) (tx : Tx) :
    Agree SameBooks (applyFeeReward ctx l tx) (applyFeeReward ctx l' tx) := by
  unfold applyFeeReward
  split
  · exact Agree.ok h
  · exact applyAccountDelta_books h ..

/-- A transfer reads nothing but the books. -/
theorem applyTransferTransaction_books {l l' : Ledger} (h : SameBooks l l') (ctx : BlockContext)
    (tx : Tx) :
    Agree SameBooks (applyTransferTransaction ctx l tx) (applyTransferTransaction ctx l' tx) :=
  (applyAccountDelta_books h ..).bind fun _ _ _ _ h₁ => applyAccountDelta_books h₁ ..

/-- A faucet transaction reads nothing but the books. -/
theorem applyFaucetTransaction_books {l l' : Ledger} (h : SameBooks l l') (cfg : Config)
    (ctx : BlockContext) (tx : Tx) :
    Agree SameBooks (applyFaucetTransaction cfg ctx l tx) (applyFaucetTransaction cfg ctx l' tx) :=
  (applyAccountDelta_books h ..).bind fun _ _ _ _ h₁ => applyAccountDelta_books h₁ ..

/-! ## Validators -/

/-- What a stake reads of a validator's row. -/
structure SameOwnership (row row' : ValidatorRow) : Prop where
  walletStakeLocked : row.walletStakeLocked = row'.walletStakeLocked
  stakeOwnerAddress : row.stakeOwnerAddress = row'.stakeOwnerAddress

/-- What an unstake reads of a validator's row. -/
structure SameStanding (row row' : ValidatorRow) : Prop extends SameOwnership row row' where
  stakeLocked : row.stakeLocked = row'.stakeLocked
  serving : (row.enabled && !row.isBanned) = (row'.enabled && !row'.isBanned)

/-- Rows of both nodes under one id are related. -/
def RowsRelated (R : ValidatorRow → ValidatorRow → Prop) (t t' : Sql.Table String ValidatorRow)
    (v : String) : Prop :=
  ∀ row row', t.find? v = some row → t'.find? v = some row' → R row row'

/-- Both nodes know the same validators. -/
def SameRegistered (t t' : Sql.Table String ValidatorRow) : Prop :=
  ∀ v, (t.find? v).isSome = (t'.find? v).isSome

/-- Both tables have a row of the validator, or neither. -/
theorem SameRegistered.cases {t t' : Sql.Table String ValidatorRow} (h : SameRegistered t t')
    (v : String) :
    (t.find? v = none ∧ t'.find? v = none) ∨
      ∃ row row', t.find? v = some row ∧ t'.find? v = some row' := by
  have hv := h v
  cases hrow : t.find? v with
  | none =>
    rw [hrow, Option.isSome_none, eq_comm, Option.isSome_eq_false_iff, Option.isNone_iff_eq_none]
      at hv
    exact .inl ⟨rfl, hv⟩
  | some row =>
    rw [hrow, Option.isSome_some, eq_comm, Option.isSome_iff_exists] at hv
    obtain ⟨row', hrow'⟩ := hv
    exact .inr ⟨row, row', rfl, hrow'⟩

/-- An update of a row registers nobody. -/
theorem SameRegistered.modify {t t' : Sql.Table String ValidatorRow} (h : SameRegistered t t')
    (v : String) (f f' : ValidatorRow → ValidatorRow) :
    SameRegistered (t.modify v f) (t'.modify v f') := by
  intro w
  rw [Sql.Table.find?_modify, Sql.Table.find?_modify]
  split
  · rw [Option.isSome_map, Option.isSome_map, h v]
  · exact h w

/-- A row that is new in one table is new in the other. -/
theorem SameRegistered.insertNew {t t' : Sql.Table String ValidatorRow} (h : SameRegistered t t')
    (v : String) (row : ValidatorRow) : SameRegistered (t.insertNew v row) (t'.insertNew v row) := by
  intro w
  rw [Sql.Table.find?_insertNew, Sql.Table.find?_insertNew]
  rcases h.cases v with ⟨hv, hv'⟩ | ⟨r, r', hv, hv'⟩ <;> rw [hv, hv'] <;> split <;>
    first | rfl | exact h w

/-- A change of the row that keeps the relation keeps it in the tables. -/
theorem RowsRelated.modify {R : ValidatorRow → ValidatorRow → Prop}
    {t t' : Sql.Table String ValidatorRow} {w : String} (h : RowsRelated R t t' w) (v : String)
    {f f' : ValidatorRow → ValidatorRow}
    (hf : v = w → ∀ row row', t.find? w = some row → t'.find? w = some row' → R row row' →
      R (f row) (f' row')) :
    RowsRelated R (t.modify v f) (t'.modify v f') w := by
  intro row row' hrow hrow'
  rw [Sql.Table.find?_modify] at hrow hrow'
  by_cases hw : w = v
  · subst hw
    rw [if_pos rfl, Option.map_eq_some_iff] at hrow hrow'
    obtain ⟨r, hr, rfl⟩ := hrow
    obtain ⟨r', hr', rfl⟩ := hrow'
    exact hf rfl r r' hr hr' (h r r' hr hr')
  · rw [if_neg hw] at hrow hrow'
    exact h row row' hrow hrow'

/-- A new row is related to itself. -/
theorem RowsRelated.insertNew {R : ValidatorRow → ValidatorRow → Prop} (hrefl : ∀ row, R row row)
    {t t' : Sql.Table String ValidatorRow} {w : String} (h : RowsRelated R t t' w)
    (hreg : SameRegistered t t') (v : String) (new : ValidatorRow) :
    RowsRelated R (t.insertNew v new) (t'.insertNew v new) w := by
  intro row row' hrow hrow'
  rw [Sql.Table.find?_insertNew] at hrow hrow'
  rcases hreg.cases v with ⟨hv, hv'⟩ | ⟨r, r', hv, hv'⟩
  · by_cases hw : w = v
    · rw [if_pos hw, hv] at hrow
      rw [if_pos hw, hv'] at hrow'
      rw [← Option.some.inj hrow, ← Option.some.inj hrow']
      exact hrefl new
    · rw [if_neg hw] at hrow hrow'
      exact h row row' hrow hrow'
  · by_cases hw : w = v
    · subst hw
      rw [if_pos rfl, hv] at hrow
      rw [if_pos rfl, hv'] at hrow'
      rw [← Option.some.inj hrow, ← Option.some.inj hrow']
      exact h r r' hv hv'
    · rw [if_neg hw] at hrow hrow'
      exact h row row' hrow hrow'

/-- A row has its own owner. -/
theorem SameOwnership.refl (row : ValidatorRow) : SameOwnership row row := ⟨rfl, rfl⟩
/-- A row has its own standing. -/
theorem SameStanding.refl (row : ValidatorRow) : SameStanding row row := ⟨.refl row, rfl, rfl⟩

/-- A stake gives both rows the same owner. -/
theorem SameOwnership.stake {row row' : ValidatorRow} (h : SameOwnership row row') (amount : ℤ)
    (sender timestamp : String) :
    SameOwnership (row.stake amount sender timestamp) (row'.stake amount sender timestamp) := by
  refine ⟨?_, ?_⟩
  · simp only [ValidatorRow.stake, h.walletStakeLocked]
  · simp only [ValidatorRow.stake, h.walletStakeLocked, h.stakeOwnerAddress]

/-- A stake raises equal stakes to equal stakes. -/
theorem SameStanding.stake {row row' : ValidatorRow} (h : SameStanding row row') (amount : ℤ)
    (sender timestamp : String) :
    SameStanding (row.stake amount sender timestamp) (row'.stake amount sender timestamp) := by
  refine ⟨h.toSameOwnership.stake amount sender timestamp, ?_, h.serving⟩
  simp only [ValidatorRow.stake, h.stakeLocked]

/-- An unstake leaves the owner. -/
theorem SameOwnership.unstake {row row' : ValidatorRow} (h : SameOwnership row row')
    (amountUnits : ℤ) (timestamp : String) :
    SameOwnership (row.unstake amountUnits timestamp) (row'.unstake amountUnits timestamp) := by
  refine ⟨?_, ?_⟩
  · simp only [ValidatorRow.unstake, h.walletStakeLocked]
  · simp only [ValidatorRow.unstake, h.walletStakeLocked, h.stakeOwnerAddress]

/-- An unstake lowers equal stakes to equal stakes. -/
theorem SameStanding.unstake {row row' : ValidatorRow} (h : SameStanding row row')
    (amountUnits : ℤ) (timestamp : String) :
    SameStanding (row.unstake amountUnits timestamp) (row'.unstake amountUnits timestamp) := by
  refine ⟨h.toSameOwnership.unstake amountUnits timestamp, ?_, h.serving⟩
  simp only [ValidatorRow.unstake, h.stakeLocked]

/-- Rows of the same standing release the same amount. -/
theorem SameStanding.unstakeAmountUnits {row row' : ValidatorRow} (h : SameStanding row row')
    (cfg : Config) (tx : Tx) :
    validatorUnstakeAmountUnits cfg tx row = validatorUnstakeAmountUnits cfg tx row' := by
  unfold validatorUnstakeAmountUnits
  rw [h.stakeLocked, h.walletStakeLocked, h.serving]

/-- The validators that the transactions stake on. -/
def StakesOn (txs : List Tx) (v : String) : Prop :=
  ∃ tx ∈ txs, tx.txType = .stake ∧ isValidatorStakeTx tx = true ∧ validatorStakeValidatorId tx = v

/-- The validators that the transactions unstake from. -/
def UnstakesFrom (txs : List Tx) (v : String) : Prop :=
  ∃ tx ∈ txs, tx.txType = .unstake ∧ isValidatorStakeTx tx = true ∧ validatorStakeValidatorId tx = v

/-- The nodes agree on what the transactions read of the validators' rows. -/
structure SameValidators (txs : List Tx) (t t' : Sql.Table String ValidatorRow) : Prop where
  registered : SameRegistered t t'
  staked : ∀ v, StakesOn txs v → RowsRelated SameOwnership t t' v
  unstaked : ∀ v, UnstakesFrom txs v → RowsRelated SameStanding t t' v

section Validators

variable {txs : List Tx} {t t' : Sql.Table String ValidatorRow}

/-- Updates that keep what the transactions look at keep the tables alike. -/
theorem SameValidators.modify (h : SameValidators txs t t') (v : String)
    {f f' : ValidatorRow → ValidatorRow}
    (howner : ∀ row row', t.find? v = some row → t'.find? v = some row' →
      SameOwnership row row' → SameOwnership (f row) (f' row'))
    (hstanding : ∀ row row', t.find? v = some row → t'.find? v = some row' →
      SameStanding row row' → SameStanding (f row) (f' row')) :
    SameValidators txs (t.modify v f) (t'.modify v f') where
  registered := h.registered.modify v f f'
  staked w hw := (h.staked w hw).modify v fun heq => heq ▸ howner
  unstaked w hw := (h.unstaked w hw).modify v fun heq => heq ▸ hstanding

/-- The stake of a transaction is written alike into both tables. -/
theorem SameValidators.stakeValidators (h : SameValidators txs t t') (cfg : Config)
    (ctx : BlockContext) (tx : Tx) :
    SameValidators txs (Picoin.stakeValidators cfg ctx t tx) (Picoin.stakeValidators cfg ctx t' tx) := by
  unfold Picoin.stakeValidators ensureCanonicalReplayValidatorRegistration
  dsimp only
  split
  · split
    · exact ⟨h.registered.insertNew _ _,
        fun v hv => (h.staked v hv).insertNew .refl h.registered _ _,
        fun v hv => (h.unstaked v hv).insertNew .refl h.registered _ _⟩
    · exact h
  · exact h

/-- A validator stake goes the same way on both nodes. -/
theorem applyValidatorStakeTransaction_local {l l' : Ledger} (hl : SameBooks l l')
    (h : SameValidators txs t t') (cfg : Config) (ctx : BlockContext) (tx : Tx) :
    Agree (fun r r' : Ledger × Sql.Table String ValidatorRow =>
        SameBooks r.1 r'.1 ∧ SameValidators txs r.2 r'.2)
      (applyValidatorStakeTransaction cfg ctx l t tx)
      (applyValidatorStakeTransaction cfg ctx l' t' tx) := by
  unfold applyValidatorStakeTransaction
  dsimp only
  have hvalidators := h.stakeValidators cfg ctx tx
  refine (applyAccountDelta_books hl ..).bind fun l₁ l₁' _ _ hl₁ => ?_
  refine (applyAccountDelta_books hl₁ ..).bind fun l₂ l₂' _ _ hl₂ => ?_
  rcases hvalidators.registered.cases (validatorStakeValidatorId tx) with
    ⟨hv, hv'⟩ | ⟨row, row', hv, hv'⟩
  · rw [if_pos hv, if_pos hv']
    exact Agree.error _ _
  · rw [if_neg (by rw [hv]; exact Option.some_ne_none _),
      if_neg (by rw [hv']; exact Option.some_ne_none _)]
    exact Agree.ok ⟨hl₂, hvalidators.modify _ (fun _ _ _ _ hr => hr.stake _ _ _)
      (fun _ _ _ _ hr => hr.stake _ _ _)⟩

/-- Both nodes refuse a validator stake for the same reason, or neither does. -/
theorem validatorStakeRejectionReason_local (h : SameValidators txs t t') {tx : Tx} (htx : tx ∈ txs)
    (htype : tx.txType = .stake) (hvalidator : isValidatorStakeTx tx = true) (missing : Bool) :
    validatorStakeRejectionReason t tx missing = validatorStakeRejectionReason t' tx missing := by
  unfold validatorStakeRejectionReason
  dsimp only
  rcases h.registered.cases (validatorStakeValidatorId tx) with ⟨hv, hv'⟩ | ⟨row, row', hv, hv'⟩
  · rw [hv, hv']
  · have hrow := h.staked _ ⟨tx, htx, htype, hvalidator, rfl⟩ row row' hv hv'
    rw [hv, hv']
    dsimp only
    rw [hrow.walletStakeLocked, hrow.stakeOwnerAddress]

/-- Neither node finds the row of the unstake, or both do and the rows agree. -/
theorem validatorUnstakeRow_cases (h : SameValidators txs t t') {tx : Tx} (htx : tx ∈ txs)
    (htype : tx.txType = .unstake) (hvalidator : isValidatorStakeTx tx = true) :
    (validatorUnstakeRow t tx = none ∧ validatorUnstakeRow t' tx = none) ∨
      ∃ row row', validatorUnstakeRow t tx = some row ∧ validatorUnstakeRow t' tx = some row' ∧
        SameStanding row row' := by
  unfold validatorUnstakeRow
  dsimp only
  split
  · exact .inl ⟨rfl, rfl⟩
  · rcases h.registered.cases (validatorStakeValidatorId tx) with hv | ⟨row, row', hv, hv'⟩
    · exact .inl hv
    · exact .inr ⟨row, row', hv, hv',
        h.unstaked _ ⟨tx, htx, htype, hvalidator, rfl⟩ row row' hv hv'⟩

/-- A validator unstake of the block goes the same way on both nodes. -/
theorem applyValidatorUnstakeTransaction_local {l l' : Ledger} (hl : SameBooks l l')
    (h : SameValidators txs t t') (cfg : Config) (ctx : BlockContext) {tx : Tx} (htx : tx ∈ txs)
    (htype : tx.txType = .unstake) (hvalidator : isValidatorStakeTx tx = true) :
    Agree (fun r r' : Ledger × Sql.Table String ValidatorRow =>
        SameBooks r.1 r'.1 ∧ SameValidators txs r.2 r'.2)
      (applyValidatorUnstakeTransaction cfg ctx l t tx)
      (applyValidatorUnstakeTransaction cfg ctx l' t' tx) := by
  have hcases := validatorUnstakeRow_cases h htx htype hvalidator
  unfold applyValidatorUnstakeTransaction
  cases hcases with
  | inl hnone =>
    rw [hnone.1, hnone.2]
    exact Agree.error _ _
  | inr hsome =>
    refine hsome.elim fun row hrow => hrow.elim fun row' hrow => ?_
    rw [hrow.1, hrow.2.1]
    replace hrow := hrow.2.2
    dsimp only
    rw [hrow.unstakeAmountUnits cfg tx]
    refine (applyFeeDebit_books hl ..).bind fun l₁ l₁' _ _ hl₁ => ?_
    refine (applyAccountDelta_books hl₁ ..).bind fun l₂ l₂' _ _ hl₂ => ?_
    refine (applyAccountDelta_books hl₂ ..).bind fun l₃ l₃' _ _ hl₃ => ?_
    exact Agree.ok ⟨hl₃, h.modify _ (fun _ _ _ _ hr => hr.unstake _ _)
      (fun _ _ _ _ hr => hr.unstake _ _)⟩

/-- Both nodes refuse a validator unstake for the same reason, or neither does. -/
theorem validatorUnstakeRejectionReason_local {s s' : NodeState}
    (hbalances : SameBalances s.ledger s'.ledger)
    (h : SameValidators txs s.validators s'.validators) (cfg : Config) {tx : Tx} (htx : tx ∈ txs)
    (htype : tx.txType = .unstake) (hvalidator : isValidatorStakeTx tx = true) :
    validatorUnstakeRejectionReason cfg s tx = validatorUnstakeRejectionReason cfg s' tx := by
  unfold validatorUnstakeRejectionReason
  rcases validatorUnstakeRow_cases h htx htype hvalidator with
    ⟨hv, hv'⟩ | ⟨row, row', hv, hv', hrow⟩
  · rw [hv, hv']
  · rw [hv, hv']
    dsimp only
    rw [hrow.unstakeAmountUnits cfg tx, hrow.stakeOwnerAddress, hrow.stakeLocked,
      hrow.walletStakeLocked, hrow.serving, hbalances (validatorStakeValidatorId tx)]

end Validators

/-! ## Science -/

/-- An account without its quota. -/
def ScienceAccountRow.withoutQuota (row : ScienceAccountRow) : ScienceAccountRow :=
  { row with monthlyQuotaUsed := 0, monthlyQuotaEpoch := "" }

/-- The science tables that blocks write, whatever the month they are executed in. -/
structure SameScience (sci sci' : ScienceTables) : Prop where
  accounts : ∀ a, (sci.stakeAccounts.find? a).map ScienceAccountRow.withoutQuota =
    (sci'.stakeAccounts.find? a).map ScienceAccountRow.withoutQuota
  jobs : sci.jobs = sci'.jobs
  reserveGovernance : sci.reserveGovernance = sci'.reserveGovernance

/-- The jobs an account has created in the month of the clock. -/
def quotaUsed (now : Instant) (sci : ScienceTables) (a : String) : Option ℤ :=
  (sci.stakeAccounts.find? a).map fun row => (resetQuotaIfNeeded now row).monthlyQuotaUsed

/-- What the reserve of the clock's month can still promise. -/
def monthAvailable (now : Instant) (sci : ScienceTables) : ℤ :=
  ((sci.rewardReserve.find? (monthEpoch now)).map ReserveRow.available).getD 0

/-- The senders of the transactions that create jobs, as sent and as the service cleans them. -/
def RequestsJob (txs : List Tx) (a : String) : Prop :=
  ∃ tx ∈ txs, tx.txType = .scienceJobCreate ∧ (tx.sender = a ∨ scienceCleanAddress tx.sender = .ok a)

/-- The nodes agree on what the transactions read of the science tables. -/
structure SameMonth (txs : List Tx) (now now' : Instant) (sci sci' : ScienceTables) : Prop where
  quota : ∀ a, RequestsJob txs a → quotaUsed now sci a = quotaUsed now' sci' a
  available : ∀ a, RequestsJob txs a → monthAvailable now sci = monthAvailable now' sci'

section Science

variable {txs : List Tx} {now now' : Instant} {sci sci' : ScienceTables}

/-- Neither node has a row, or both have and the rows agree up to the quota. -/
theorem SameScience.account_cases (h : SameScience sci sci') (a : String) :
    (sci.stakeAccounts.find? a = none ∧ sci'.stakeAccounts.find? a = none) ∨
      ∃ row row', sci.stakeAccounts.find? a = some row ∧ sci'.stakeAccounts.find? a = some row' ∧
        row.withoutQuota = row'.withoutQuota := by
  have ha := h.accounts a
  cases hrow : sci.stakeAccounts.find? a with
  | none =>
    rw [hrow, Option.map_none, eq_comm, Option.map_eq_none_iff] at ha
    exact .inl ⟨rfl, ha⟩
  | some row =>
    rw [hrow, Option.map_some, eq_comm, Option.map_eq_some_iff] at ha
    obtain ⟨row', hrow', heq⟩ := ha
    exact .inr ⟨row, row', rfl, hrow', heq.symm⟩

/-- Rows that differ in the quota only agree in the other columns. -/
theorem withoutQuota_columns {row row' : ScienceAccountRow}
    (h : row.withoutQuota = row'.withoutQuota) :
    row.accountId = row'.accountId ∧ row.stakeAmount = row'.stakeAmount ∧ row.tier = row'.tier ∧
      row.computeMultiplier = row'.computeMultiplier ∧ row.status = row'.status := by
  simp only [ScienceAccountRow.withoutQuota, ScienceAccountRow.mk.injEq] at h
  exact ⟨h.1, h.2.1, h.2.2.1, h.2.2.2.1, h.2.2.2.2.2.2⟩

/-- One account id is taken on both nodes or on neither. -/
theorem SameScience.anyAccountId (h : SameScience sci sci') (accountId : String) :
    sci.stakeAccounts.rows.any (fun r => r.2.accountId = accountId) =
      sci'.stakeAccounts.rows.any (fun r => r.2.accountId = accountId) := by
  have hone : ∀ {s s' : ScienceTables}, SameScience s s' →
      s.stakeAccounts.rows.any (fun r => r.2.accountId = accountId) = true →
      s'.stakeAccounts.rows.any (fun r => r.2.accountId = accountId) = true := by
    intro s s' hs hany
    obtain ⟨⟨a, row⟩, hmem, hid⟩ := List.any_eq_true.mp hany
    have hfind := Sql.Table.find?_eq_some_iff.mpr hmem
    rcases hs.account_cases a with ⟨hnone, -⟩ | ⟨row₁, row₁', hrow, hrow', heq⟩
    · rw [hnone] at hfind
      exact nomatch hfind
    · rw [hrow] at hfind
      obtain rfl := Option.some.inj hfind
      refine List.any_eq_true.mpr ⟨(a, row₁'), Sql.Table.find?_eq_some_iff.mp hrow', ?_⟩
      rw [← (withoutQuota_columns heq).1]
      exact hid
  have hsymm : SameScience sci' sci := ⟨fun a => (h.accounts a).symm, h.jobs.symm,
    h.reserveGovernance.symm⟩
  exact Bool.eq_iff_iff.mpr ⟨hone h, hone hsymm⟩

/-- Related rows under one address keep the tables related. -/
theorem SameScience.upsert (h : SameScience sci sci') (a : String) {row row' : ScienceAccountRow}
    (hrow : row.withoutQuota = row'.withoutQuota) :
    SameScience { sci with stakeAccounts := sci.stakeAccounts.upsert a row }
      { sci' with stakeAccounts := sci'.stakeAccounts.upsert a row' } := by
  refine ⟨fun b => ?_, h.jobs, h.reserveGovernance⟩
  rw [Sql.Table.find?_upsert, Sql.Table.find?_upsert]
  split
  · rw [Option.map_some, Option.map_some, hrow]
  · exact h.accounts b

/-- Rows with the same use of the month keep the tables alike. -/
theorem SameMonth.upsert (h : SameMonth txs now now' sci sci') (a : String)
    {row row' : ScienceAccountRow}
    (hrow : RequestsJob txs a → (resetQuotaIfNeeded now row).monthlyQuotaUsed =
      (resetQuotaIfNeeded now' row').monthlyQuotaUsed) :
    SameMonth txs now now' { sci with stakeAccounts := sci.stakeAccounts.upsert a row }
      { sci' with stakeAccounts := sci'.stakeAccounts.upsert a row' } := by
  refine ⟨fun b hb => ?_, h.available⟩
  have hold := h.quota b hb
  unfold quotaUsed at hold ⊢
  rw [Sql.Table.find?_upsert, Sql.Table.find?_upsert]
  by_cases hba : b = a
  · subst hba
    rw [if_pos rfl, if_pos rfl, Option.map_some, Option.map_some, hrow hb]
  · rw [if_neg hba, if_neg hba]
    exact hold

/-- The quota that a stake carries over is the quota used in the clock's month. -/
theorem resetQuota_used (now : Instant) (row : ScienceAccountRow) :
    (resetQuotaIfNeeded now row).monthlyQuotaUsed =
      if row.monthlyQuotaEpoch = monthEpoch now then row.monthlyQuotaUsed else 0 := by
  unfold resetQuotaIfNeeded
  split <;> rfl

/-- A stake for access goes the same way whatever the clocks say. -/
theorem stakeScienceAccess_local (h : SameScience sci sci') (hm : SameMonth txs now now' sci sci')
    (address : String) (stakeAmount : ℤ) (accountId : String) :
    Agree (fun r r' => SameScience r r' ∧ SameMonth txs now now' r r')
      (stakeScienceAccessInConnection now sci address stakeAmount accountId)
      (stakeScienceAccessInConnection now' sci' address stakeAmount accountId) := by
  unfold stakeScienceAccessInConnection
  refine (Agree.rfl_eq (scienceCleanAddress address)).bind ?_
  rintro a _ - - rfl
  split
  · exact Agree.error _ _
  split
  · exact Agree.error _ _
  next tier htier =>
  -- both nodes write one row, which differs in its quota at most
  have hwrite : ∀ row row' : ScienceAccountRow, row.withoutQuota = row'.withoutQuota →
      (RequestsJob txs a → (resetQuotaIfNeeded now row).monthlyQuotaUsed =
        (resetQuotaIfNeeded now' row').monthlyQuotaUsed) →
      Agree (fun r r' => SameScience r r' ∧ SameMonth txs now now' r r')
        (.ok { sci with stakeAccounts := sci.stakeAccounts.upsert a row } :
          Except ExecError ScienceTables)
        (.ok { sci' with stakeAccounts := sci'.stakeAccounts.upsert a row' } :
          Except ExecError ScienceTables) :=
    fun _ _ hrow hquota => Agree.ok ⟨h.upsert a hrow, hm.upsert a hquota⟩
  dsimp only
  rw [h.anyAccountId accountId]
  -- both nodes have the account or neither has
  rcases h.account_cases a with ⟨ha, ha'⟩ | ⟨row, row', ha, ha', hrow⟩
  · rw [ha, ha']
    split
    · exact Agree.error _ _
    · refine hwrite _ _ ?_ fun _ => ?_
      · simp only [ScienceAccountRow.withoutQuota, Option.map_none, Option.getD_none]
      · rw [resetQuota_used, resetQuota_used, if_pos rfl, if_pos rfl]
  · rw [ha, ha', if_neg (by simp), if_neg (by simp)]
    refine hwrite _ _ ?_ fun ha₁ => ?_
    · simp only [Option.map_some, Option.getD_some, (withoutQuota_columns hrow).1,
        ScienceAccountRow.withoutQuota]
    · have hquota := hm.quota a ha₁
      unfold quotaUsed at hquota
      rw [ha, ha', Option.map_some, Option.map_some, resetQuota_used, resetQuota_used,
        Option.some.injEq] at hquota
      rw [resetQuota_used, resetQuota_used, if_pos rfl, if_pos rfl]
      dsimp only
      exact hquota

/-- An unstake of access reads no clock. -/
theorem unstakeScienceAccess_local (h : SameScience sci sci')
    (hm : SameMonth txs now now' sci sci') (address : String) :
    Agree (fun r r' => SameScience r r' ∧ SameMonth txs now now' r r')
      (unstakeScienceAccessInConnection sci address)
      (unstakeScienceAccessInConnection sci' address) := by
  unfold unstakeScienceAccessInConnection
  refine (Agree.rfl_eq (scienceCleanAddress address)).bind ?_
  rintro a _ - - rfl
  -- the open jobs of the account are the same on both
  have hactive : activeJobs sci a = activeJobs sci' a := by
    unfold activeJobs
    rw [h.jobs]
  rcases h.account_cases a with ⟨ha, ha'⟩ | ⟨row, row', ha, ha', hrow⟩
  · rw [ha, ha']
    exact Agree.error _ _
  · rw [ha, ha']
    dsimp only
    rw [hactive]
    split
    · exact Agree.error _ _
    · refine Agree.ok ⟨⟨fun b => ?_, h.jobs, h.reserveGovernance⟩, fun b hb => ?_, hm.available⟩
      · dsimp only
        rw [Sql.Table.find?_modify, Sql.Table.find?_modify]
        split
        · rw [ha, ha', Option.map_some, Option.map_some, Option.map_some, Option.map_some]
          obtain ⟨hid, -, -, -, -⟩ := withoutQuota_columns hrow
          simp only [ScienceAccountRow.withoutQuota, hid]
        · exact h.accounts b
      · -- an unstake does not touch the quota
        have hquota := hm.quota b hb
        unfold quotaUsed at hquota ⊢
        dsimp only
        rw [Sql.Table.find?_modify, Sql.Table.find?_modify]
        by_cases hba : b = a
        · subst hba
          rw [ha, ha', Option.map_some, Option.map_some, resetQuota_used, resetQuota_used] at hquota
          rw [if_pos rfl, if_pos rfl, ha, ha', Option.map_some, Option.map_some, Option.map_some,
            Option.map_some, resetQuota_used, resetQuota_used]
          exact hquota
        · rw [if_neg hba, if_neg hba]
          exact hquota

/-- What two nodes make of an account that creates a job. -/
structure SameQuota (now now' : Instant) (row row' : ScienceAccountRow) : Prop where
  columns : row.withoutQuota = row'.withoutQuota
  used : row.monthlyQuotaUsed = row'.monthlyQuotaUsed
  epoch : row.monthlyQuotaEpoch = monthEpoch now
  epoch' : row'.monthlyQuotaEpoch = monthEpoch now'

/-- Rows with the same use after the reset have the same quota. -/
theorem resetQuota_same {row row' : ScienceAccountRow} (hrow : row.withoutQuota = row'.withoutQuota)
    (hused : (resetQuotaIfNeeded now row).monthlyQuotaUsed =
      (resetQuotaIfNeeded now' row').monthlyQuotaUsed) :
    SameQuota now now' (resetQuotaIfNeeded now row) (resetQuotaIfNeeded now' row') := by
  have hcolumns : ∀ (t : Instant) (r : ScienceAccountRow),
      (resetQuotaIfNeeded t r).withoutQuota = r.withoutQuota ∧
        (resetQuotaIfNeeded t r).monthlyQuotaEpoch = monthEpoch t := by
    intro t r
    unfold resetQuotaIfNeeded
    split
    · next h => exact ⟨rfl, h⟩
    · exact ⟨rfl, rfl⟩
  refine ⟨?_, hused, (hcolumns now row).2, (hcolumns now' row').2⟩
  rw [(hcolumns now row).1, (hcolumns now' row').1, hrow]

/-- Both nodes find the account active with the same quota, or refuse it alike. -/
theorem requireActiveScienceAccount_local (h : SameScience sci sci')
    (hm : SameMonth txs now now' sci sci') {a : String} (ha : RequestsJob txs a) :
    Agree (SameQuota now now') (requireActiveScienceAccount now sci a)
      (requireActiveScienceAccount now' sci' a) := by
  unfold requireActiveScienceAccount
  have hquota := hm.quota a ha
  unfold quotaUsed at hquota
  rcases h.account_cases a with ⟨hrow, hrow'⟩ | ⟨row, row', hrow, hrow', hcolumns⟩
  · rw [hrow, hrow']
    exact Agree.error _ _
  · rw [hrow, hrow'] at hquota
    have hsame := resetQuota_same hcolumns (Option.some.inj hquota)
    obtain ⟨-, hstake, htier, -, hstatus⟩ := withoutQuota_columns hsame.columns
    rw [hrow, hrow']
    dsimp only
    rw [hstatus, hstake, htier]
    by_cases hactive : (resetQuotaIfNeeded now' row').status ≠ .active
    · rw [if_pos hactive, if_pos hactive]
      exact Agree.error _ _
    rw [if_neg hactive, if_neg hactive]
    by_cases hbelow : determineScienceTier (resetQuotaIfNeeded now' row').stakeAmount = none ∨
        (resetQuotaIfNeeded now' row').tier = none
    · rw [if_pos hbelow, if_pos hbelow]
      exact Agree.error _ _
    · rw [if_neg hbelow, if_neg hbelow]
      exact Agree.ok hsame

/-- A reservation checks and lowers what the month can still promise, and changes nothing else. -/
theorem reserveScienceJobBudget_eq (now : Instant) (sci : ScienceTables) (amount : ℤ) :
    (monthAvailable now sci < amount ∧ ∃ e, reserveScienceJobBudget now sci amount = .error e) ∨
      (¬ monthAvailable now sci < amount ∧ ∃ reserve,
        reserveScienceJobBudget now sci amount = .ok { sci with rewardReserve := reserve } ∧
          monthAvailable now { sci with rewardReserve := reserve } =
            monthAvailable now sci - amount) := by
  unfold reserveScienceJobBudget
  dsimp only
  have hrow : ((sci.rewardReserve.insertNew (monthEpoch now) ⟨0, 0, 0⟩).find?
      (monthEpoch now)).getD ⟨0, 0, 0⟩ = (sci.rewardReserve.find? (monthEpoch now)).getD ⟨0, 0, 0⟩ := by
    rw [Sql.Table.find?_insertNew, if_pos rfl, Option.getD_some]
  have havailable : monthAvailable now sci =
      ((sci.rewardReserve.find? (monthEpoch now)).getD ⟨0, 0, 0⟩).available := by
    unfold monthAvailable
    cases sci.rewardReserve.find? (monthEpoch now) <;> rfl
  rw [hrow, havailable]
  by_cases hlow : ((sci.rewardReserve.find? (monthEpoch now)).getD ⟨0, 0, 0⟩).available < amount
  · rw [if_pos hlow]
    exact .inl ⟨hlow, _, rfl⟩
  · rw [if_neg hlow]
    refine .inr ⟨hlow, _, rfl, ?_⟩
    unfold monthAvailable
    rw [Sql.Table.find?_upsert_self, Option.map_some, Option.getD_some]
    unfold ReserveRow.available
    ring

/-- A reward is reserved alike where the use of the month is the same. -/
theorem reserveReward_local (h : SameScience sci sci') (hm : SameMonth txs now now' sci sci')
    (cfg : Config) {a : String} (ha : RequestsJob txs a) (rewardCap : ℤ) :
    Agree (fun r r' => SameScience r r' ∧ SameMonth txs now now' r r')
      (reserveReward cfg now sci a rewardCap) (reserveReward cfg now' sci' a rewardCap) := by
  have hpending : pendingRewards sci a = pendingRewards sci' a := by
    unfold pendingRewards activeJobs
    rw [h.jobs]
  unfold reserveReward
  rw [hpending]
  split
  · exact Agree.ok ⟨h, hm⟩
  split
  · exact Agree.error _ _
  have havailable := hm.available a ha
  have hreserve := reserveScienceJobBudget_eq now sci rewardCap
  rw [havailable] at hreserve
  rcases hreserve with ⟨hlow, e, herror⟩ | ⟨hlow, reserve, hok, hnew⟩ <;>
  rcases reserveScienceJobBudget_eq now' sci' rewardCap with
    ⟨hlow', e', herror'⟩ | ⟨hlow', reserve', hok', hnew'⟩
  · rw [herror, herror']
    exact Agree.error _ _
  · exact absurd hlow hlow'
  · exact absurd hlow' hlow
  · rw [hok, hok']
    refine Agree.ok ⟨⟨h.accounts, h.jobs, h.reserveGovernance⟩, hm.quota, fun _ _ => ?_⟩
    rw [hnew, hnew']

/-- A job is created alike by a requester with the same use of the month. -/
theorem createScienceJob_local (h : SameScience sci sci') (hm : SameMonth txs now now' sci sci')
    (cfg : Config) {sender : String} (jobType metadataHash storagePointer : String)
    (rewardBudget maxComputeUnits rewardPerComputeUnit maxReward : Option ℤ) (jobId : String)
    (hsender : ∀ a, scienceCleanAddress sender = .ok a → RequestsJob txs a) :
    Agree (fun r r' => SameScience r r' ∧ SameMonth txs now now' r r')
      (createScienceJobInConnection cfg now sci sender jobType metadataHash storagePointer
        rewardBudget maxComputeUnits rewardPerComputeUnit maxReward jobId)
      (createScienceJobInConnection cfg now' sci' sender jobType metadataHash storagePointer
        rewardBudget maxComputeUnits rewardPerComputeUnit maxReward jobId) := by
  unfold createScienceJobInConnection
  refine (Agree.rfl_eq (scienceCleanAddress sender)).bind ?_
  rintro a _ ha - rfl
  refine (Agree.rfl_eq _).bind ?_
  rintro jobType _ - - rfl
  refine (Agree.rfl_eq _).bind ?_
  rintro metadataHash _ - - rfl
  refine (Agree.rfl_eq _).bind ?_
  rintro storagePointer _ - - rfl
  refine (Agree.rfl_eq _).bind ?_
  rintro budget _ - - rfl
  refine (requireActiveScienceAccount_local h hm (hsender a ha)).bind fun account account' _ _
    hsame => ?_
  obtain ⟨hid, hstake, htier, hmultiplier, hstatus⟩ := withoutQuota_columns hsame.columns
  -- the limit depends on the multiplier only
  have hlimit : monthlyQuotaLimit account = monthlyQuotaLimit account' := by
    unfold monthlyQuotaLimit
    rw [hmultiplier]
  rw [hlimit, hsame.used]
  split
  · exact Agree.error _ _
  refine (reserveReward_local h hm cfg (hsender a ha) budget.rewardCap).bind fun r r' _ _ hr => ?_
  dsimp only
  rw [hr.1.jobs, htier]
  split
  · exact Agree.error _ _
  next jobs hjobs =>
  have hcharged : SameScience { r with jobs := jobs } { r' with jobs := jobs } :=
    ⟨hr.1.accounts, rfl, hr.1.reserveGovernance⟩
  have hmonth : SameMonth txs now now' { r with jobs := jobs } { r' with jobs := jobs } :=
    ⟨hr.2.quota, hr.2.available⟩
  -- the charge is the last write, and the quota of the month is the same
  refine Agree.ok ⟨hcharged.upsert a ?_, hmonth.upsert a fun _ => ?_⟩
  · simp only [ScienceAccountRow.withoutQuota, hid, hstake, hmultiplier, hstatus]
  · rw [resetQuota_used, resetQuota_used, if_pos hsame.epoch, if_pos hsame.epoch']

/-- Both nodes refuse the creation of a job for the same reason, or neither does. -/
theorem scienceJobCreateRejectionReason_local {s s' : NodeState}
    (h : SameScience s.science s'.science) (hm : SameMonth txs now now' s.science s'.science)
    (cfg : Config) {tx : Tx} (htx : tx ∈ txs) (htype : tx.txType = .scienceJobCreate) :
    scienceJobCreateRejectionReason cfg now s tx = scienceJobCreateRejectionReason cfg now' s' tx := by
  have hrequests : RequestsJob txs tx.sender := ⟨tx, htx, htype, .inl rfl⟩
  have hpending : pendingRewards s.science tx.sender = pendingRewards s'.science tx.sender := by
    unfold pendingRewards activeJobs
    rw [h.jobs]
  have havailable := hm.available _ hrequests
  have hquota := hm.quota _ hrequests
  unfold quotaUsed at hquota
  unfold monthAvailable at havailable
  unfold scienceJobCreateRejectionReason
  dsimp only
  rw [hpending, havailable, h.jobs]
  rcases h.account_cases tx.sender with ⟨hrow, hrow'⟩ | ⟨row, row', hrow, hrow', hcolumns⟩
  · rw [hrow, hrow']
  · rw [hrow, hrow'] at hquota
    obtain ⟨-, -, htier, hmultiplier, hstatus⟩ := withoutQuota_columns hcolumns
    have hlimit : monthlyQuotaLimit row = monthlyQuotaLimit row' := by
      unfold monthlyQuotaLimit
      rw [hmultiplier]
    rw [hrow, hrow']
    dsimp only
    have hused : (resetQuotaIfNeeded now row).monthlyQuotaUsed =
        (resetQuotaIfNeeded now' row').monthlyQuotaUsed := Option.some.inj hquota
    rw [hused, hlimit, hstatus, htier]

end Science

/-! ## Nodes -/

/-- All that blocks write is the same on both nodes, whatever each did to its own rows. -/
structure SameChainData (s s' : NodeState) : Prop where
  books : SameBooks s.ledger s'.ledger
  nonces : ∀ a, confirmedNonce s a = confirmedNonce s' a
  registered : SameRegistered s.validators s'.validators
  science : SameScience s.science s'.science

/-- The nodes agree on what the block reads of the rows that they change on their own and of the
rows that they keep by their own clocks. -/
structure LocalDataAgrees (txs : List Tx) (now now' : Instant) (s s' : NodeState) : Prop where
  staked : ∀ v, StakesOn txs v → RowsRelated SameOwnership s.validators s'.validators v
  unstaked : ∀ v, UnstakesFrom txs v → RowsRelated SameStanding s.validators s'.validators v
  month : SameMonth txs now now' s.science s'.science
  treasury : (∃ tx ∈ txs, tx.txType = .treasuryClaim) → SameTables s.treasury s'.treasury

/-- A mempool that holds a transaction of the block holds it under its hash. -/
def MempoolHolds (txs : List Tx) (mempool : Sql.Table String MempoolRow) : Prop :=
  ∀ tx ∈ txs, ∀ row, mempool.find? tx.txHash = some row →
    row.tx.sender = tx.sender ∧ row.tx.nonce = tx.nonce

/-- What the handlers need and keep. -/
structure SameForBlock (txs : List Tx) (now now' : Instant) (s s' : NodeState) : Prop where
  books : SameBooks s.ledger s'.ledger
  validators : SameValidators txs s.validators s'.validators
  science : SameScience s.science s'.science
  month : SameMonth txs now now' s.science s'.science
  treasury : (∃ tx ∈ txs, tx.txType = .treasuryClaim) → SameTables s.treasury s'.treasury

/-- A node after an operator's action, a penalty or a sign of life. -/
def NodeState.act (s : NodeState) (v : String) (action : LocalAction) : NodeState :=
  { s with validators := s.validators.modify v action.apply }

/-- A node has its own chain data. -/
theorem SameChainData.refl (s : NodeState) : SameChainData s s :=
  ⟨.refl _, fun _ => rfl, fun _ => rfl, ⟨fun _ => rfl, rfl, rfl⟩⟩

/-- The order of the nodes does not matter. -/
theorem SameChainData.symm {s s' : NodeState} (h : SameChainData s s') : SameChainData s' s :=
  ⟨⟨fun a => (h.books.balances a).symm, fun a start => (h.books.faucetCredits a start).symm⟩,
    fun a => (h.nonces a).symm, fun v => (h.registered v).symm,
    ⟨fun a => (h.science.accounts a).symm, h.science.jobs.symm, h.science.reserveGovernance.symm⟩⟩

/-- An operator's action, a penalty or a sign of life on one node keeps what blocks have written. -/
theorem SameChainData.localAction {s s' : NodeState} (h : SameChainData s s') (v : String)
    (action : LocalAction) : SameChainData s (s'.act v action) := by
  refine ⟨h.books, h.nonces, fun w => ?_, h.science⟩
  rw [h.registered w, NodeState.act, Sql.Table.find?_modify]
  split
  · next hw => rw [hw, Option.isSome_map]
  · rfl

section Nodes

variable {txs : List Tx} {now now' : Instant} {s s' : NodeState} {tx : Tx}

/-- A science error is passed on alike. -/
theorem scienceErrorAsExecution_agree {α β : Type} {R : α → β → Prop} {x : Except ExecError α}
    {y : Except ExecError β} (h : Agree R x y) :
    Agree R (scienceErrorAsExecution x) (scienceErrorAsExecution y) := by
  rw [agree_iff] at h ⊢
  simp only [scienceErrorAsExecution_eq_ok]
  exact h

/-! ### Checks -/

/-- The access stakes of an account agree. -/
theorem SameForBlock.stakeAmount (h : SameForBlock txs now now' s s') (a : String) :
    (s.science.stakeAccounts.find? a).map ScienceAccountRow.stakeAmount =
      (s'.science.stakeAccounts.find? a).map ScienceAccountRow.stakeAmount := by
  rcases h.science.account_cases a with ⟨hrow, hrow'⟩ | ⟨row, row', hrow, hrow', hcolumns⟩
  · rw [hrow, hrow']
  · rw [hrow, hrow', Option.map_some, Option.map_some, (withoutQuota_columns hcolumns).2.1]

/-- The active jobs of an account agree. -/
theorem SameForBlock.activeJobs (h : SameForBlock txs now now' s s') (a : String) :
    Picoin.activeJobs s.science a = Picoin.activeJobs s'.science a := by
  unfold Picoin.activeJobs
  rw [h.science.jobs]

/-- Both nodes refuse a stake for the same reason, or neither does. -/
theorem stakeRejectionReason_local (h : SameForBlock txs now now' s s') (htx : tx ∈ txs)
    (htype : tx.txType = .stake) (missing : Bool) :
    stakeRejectionReason s tx missing = stakeRejectionReason s' tx missing := by
  unfold stakeRejectionReason
  by_cases hvalidator : stakeType tx = "validator"
  · rw [if_pos hvalidator, if_pos hvalidator]
    exact validatorStakeRejectionReason_local h.validators htx htype (decide_eq_true hvalidator)
      missing
  · rw [if_neg hvalidator, if_neg hvalidator, h.stakeAmount]

/-- Both nodes refuse an unstake for the same reason, or neither does. -/
theorem unstakeRejectionReason_local (h : SameForBlock txs now now' s s') (htx : tx ∈ txs)
    (htype : tx.txType = .unstake) (cfg : Config) :
    unstakeRejectionReason cfg s tx = unstakeRejectionReason cfg s' tx := by
  unfold unstakeRejectionReason
  by_cases hvalidator : stakeType tx = "validator"
  · rw [if_pos hvalidator, if_pos hvalidator]
    exact validatorUnstakeRejectionReason_local h.books.balances h.validators cfg htx htype
      (decide_eq_true hvalidator)
  · rw [if_neg hvalidator, if_neg hvalidator]
    rcases h.science.account_cases tx.sender with ⟨hrow, hrow'⟩ | ⟨row, row', hrow, hrow', hcolumns⟩
    · rw [hrow, hrow']
    · rw [hrow, hrow']
      dsimp only
      rw [(withoutQuota_columns hcolumns).2.1, h.books.balances.balance, h.activeJobs]

/-- Both nodes refuse a faucet transaction for the same reason, or neither does. -/
theorem faucetRejectionReason_local (h : SameForBlock txs now now' s s') (cfg : Config)
    (reserved : List Instant) :
    faucetRejectionReason cfg s.ledger tx reserved =
      faucetRejectionReason cfg s'.ledger tx reserved := by
  unfold faucetRejectionReason
  dsimp only
  rw [h.books.balances.balance, h.books.faucetCredits]

/-- Both nodes refuse a governance action for the same reason, or neither does. -/
theorem governanceActionRejectionReason_local (h : SameForBlock txs now now' s s') :
    governanceActionRejectionReason s tx = governanceActionRejectionReason s' tx := by
  unfold governanceActionRejectionReason
  rw [h.science.reserveGovernance]

/-- Both nodes refuse a treasury claim, or neither does; the text of the reason may hold a time. -/
theorem treasuryClaimRejectionReason_local (h : SameForBlock txs now now' s s') (htx : tx ∈ txs)
    (htype : tx.txType = .treasuryClaim) (cfg : Config) :
    treasuryClaimRejectionReason cfg now s tx = none ↔
      treasuryClaimRejectionReason cfg now' s' tx = none := by
  -- the check reads the ledger and the treasury only
  have hchain : SameChain { s with accountNonces := s'.accountNonces, mempool := s'.mempool } s' :=
    ⟨h.books.balances, rfl, rfl, h.treasury ⟨tx, htx, htype⟩⟩
  exact treasuryClaimRejectionReason_agree hchain cfg now now' tx

/-- Both nodes refuse a transaction of the block by its kind, or neither does. -/
theorem kindRejectionReason_local (h : SameForBlock txs now now' s s') (htx : tx ∈ txs)
    (cfg : Config) (reserved : List Instant) (missing : Bool) :
    kindRejectionReason cfg now s tx reserved missing = none ↔
      kindRejectionReason cfg now' s' tx reserved missing = none := by
  unfold kindRejectionReason
  split
  · exact Iff.rfl
  · next htype => rw [stakeRejectionReason_local h htx htype missing]
  · next htype => rw [unstakeRejectionReason_local h htx htype cfg]
  · next htype => rw [scienceJobCreateRejectionReason_local h.science h.month cfg htx htype]
  · rw [governanceActionRejectionReason_local h]
  · next htype => exact treasuryClaimRejectionReason_local h htx htype cfg
  · rw [faucetRejectionReason_local h cfg reserved]
  · exact Iff.rfl

/-! ### Handlers -/

/-- Ledgers with the same books keep the nodes alike. -/
theorem SameForBlock.withLedger (h : SameForBlock txs now now' s s') {l l' : Ledger}
    (hl : SameBooks l l') :
    SameForBlock txs now now' { s with ledger := l } { s' with ledger := l' } :=
  ⟨hl, h.validators, h.science, h.month, h.treasury⟩

/-- So do tables of validators that are alike. -/
theorem SameForBlock.withValidators (h : SameForBlock txs now now' s s') {l l' : Ledger}
    (hl : SameBooks l l') {t t' : Sql.Table String ValidatorRow} (ht : SameValidators txs t t') :
    SameForBlock txs now now' { s with ledger := l, validators := t }
      { s' with ledger := l', validators := t' } :=
  ⟨hl, ht, h.science, h.month, h.treasury⟩

/-- So do science tables that are alike. -/
theorem SameForBlock.withScience (h : SameForBlock txs now now' s s') {l l' : Ledger}
    (hl : SameBooks l l') {sci sci' : ScienceTables} (hsci : SameScience sci sci')
    (hmonth : SameMonth txs now now' sci sci') :
    SameForBlock txs now now' { s with ledger := l, science := sci }
      { s' with ledger := l', science := sci' } :=
  ⟨hl, h.validators, hsci, hmonth, h.treasury⟩

/-- An access stake of the block goes the same way on both nodes. -/
theorem scienceStake_local (h : SameForBlock txs now now' s s') (cfg : Config)
    (ctx : BlockContext) :
    Agree (fun r r' : Ledger × ScienceTables => SameBooks r.1 r'.1 ∧ SameScience r.2 r'.2 ∧
        SameMonth txs now now' r.2 r'.2)
      (applyScienceStakeTransaction cfg now ctx s.ledger s.science tx)
      (applyScienceStakeTransaction cfg now' ctx s'.ledger s'.science tx) := by
  unfold applyScienceStakeTransaction
  dsimp only
  rw [h.stakeAmount]
  refine (applyAccountDelta_books h.books ..).bind fun l₁ l₁' _ _ hl₁ => ?_
  refine (applyAccountDelta_books hl₁ ..).bind fun l₂ l₂' _ _ hl₂ => ?_
  refine (stakeScienceAccess_local h.science h.month _ _ _).bind fun r r' _ _ hr => ?_
  exact Agree.ok ⟨hl₂, hr.1, hr.2⟩

/-- An access unstake of the block goes the same way on both nodes. -/
theorem scienceUnstake_local (h : SameForBlock txs now now' s s') (ctx : BlockContext) :
    Agree (fun r r' : Ledger × ScienceTables => SameBooks r.1 r'.1 ∧ SameScience r.2 r'.2 ∧
        SameMonth txs now now' r.2 r'.2)
      (applyScienceUnstakeTransaction ctx s.ledger s.science tx)
      (applyScienceUnstakeTransaction ctx s'.ledger s'.science tx) := by
  unfold applyScienceUnstakeTransaction
  rcases h.science.account_cases tx.sender with ⟨hrow, hrow'⟩ | ⟨row, row', hrow, hrow', hcolumns⟩
  · rw [hrow, hrow']
    exact Agree.error _ _
  · rw [hrow, hrow']
    dsimp only
    rw [(withoutQuota_columns hcolumns).2.1]
    refine (applyFeeDebit_books h.books ..).bind fun l₁ l₁' _ _ hl₁ => ?_
    refine (applyAccountDelta_books hl₁ ..).bind fun l₂ l₂' _ _ hl₂ => ?_
    refine (applyAccountDelta_books hl₂ ..).bind fun l₃ l₃' _ _ hl₃ => ?_
    refine (unstakeScienceAccess_local h.science h.month _).bind fun r r' _ _ hr => ?_
    exact Agree.ok ⟨hl₃, hr.1, hr.2⟩

/-- A job of the block is created the same way on both nodes. -/
theorem scienceJobCreate_local (h : SameForBlock txs now now' s s') (htx : tx ∈ txs)
    (htype : tx.txType = .scienceJobCreate) (cfg : Config) (ctx : BlockContext) :
    Agree (fun r r' : Ledger × ScienceTables => SameBooks r.1 r'.1 ∧ SameScience r.2 r'.2 ∧
        SameMonth txs now now' r.2 r'.2)
      (applyScienceJobCreateTransaction cfg now ctx s.ledger s.science tx)
      (applyScienceJobCreateTransaction cfg now' ctx s'.ledger s'.science tx) := by
  unfold applyScienceJobCreateTransaction
  refine (applyFeeDebit_books h.books ..).bind fun l₁ l₁' _ _ hl₁ => ?_
  refine (scienceErrorAsExecution_agree (createScienceJob_local h.science h.month cfg _ _ _ _ _ _ _
    _ fun a ha => ⟨tx, htx, htype, .inr ha⟩)).bind fun r r' _ _ hr => ?_
  exact Agree.ok ⟨hl₁, hr.1, hr.2⟩

/-- A governance action of the block goes the same way on both nodes. -/
theorem governanceAction_local (h : SameForBlock txs now now' s s') (cfg : Config)
    (ctx : BlockContext) :
    Agree (fun r r' : Ledger × ScienceTables => SameBooks r.1 r'.1 ∧ SameScience r.2 r'.2 ∧
        SameMonth txs now now' r.2 r'.2)
      (applyGovernanceActionTransaction cfg ctx s.ledger s.science tx)
      (applyGovernanceActionTransaction cfg ctx s'.ledger s'.science tx) := by
  unfold applyGovernanceActionTransaction
  refine (applyFeeDebit_books h.books ..).bind fun l₁ l₁' _ _ hl₁ => ?_
  rw [h.science.reserveGovernance]
  refine (Agree.rfl_eq _).bind ?_
  rintro governance _ - - rfl
  exact Agree.ok ⟨hl₁, ⟨h.science.accounts, h.science.jobs, rfl⟩, ⟨h.month.quota, h.month.available⟩⟩

/-- The postings of a claim are no faucet credits. -/
theorem treasuryClaim_faucetCredits {cfg : Config} {ctx : BlockContext} {l l' : Ledger}
    {t t' : TreasuryTables} (h : applyTreasuryClaimTransaction cfg now ctx l t tx = .ok (l', t'))
    (a start : String) : recentFaucetCredits l' a start = recentFaucetCredits l a start := by
  rw [(applyTreasuryClaimTransaction_eq_ok h).faucetCredits, Nat.add_eq_left, List.countP_eq_zero]
  intro p hp
  have hentry : p.entryType ≠ "faucet_credit" := by
    unfold treasuryClaimPostings feeDebitPostings at hp
    dsimp only [claimPostings] at hp
    split at hp
    · simp only [List.cons_append, List.nil_append, List.mem_cons, List.not_mem_nil, or_false] at hp
      rcases hp with rfl | rfl | rfl
      · exact (by decide : ("treasury_claim_fee_debit" : String) ≠ "faucet_credit")
      · exact (by decide : treasuryEventClaim ≠ "faucet_credit")
      · exact (by decide : treasuryEventClaim ≠ "faucet_credit")
    · simp only [List.nil_append, List.mem_cons, List.not_mem_nil, or_false] at hp
      rcases hp with rfl | rfl <;>
        exact (by decide : treasuryEventClaim ≠ "faucet_credit")
  simp [isFaucetCredit, hentry]

/-- A treasury claim of the block goes the same way on both nodes. -/
theorem treasuryClaim_local (h : SameForBlock txs now now' s s') (htx : tx ∈ txs)
    (htype : tx.txType = .treasuryClaim) (cfg : Config) (ctx : BlockContext) :
    Agree (fun r r' : Ledger × TreasuryTables => SameBooks r.1 r'.1 ∧ SameTables r.2 r'.2)
      (applyTreasuryClaimTransaction cfg now ctx s.ledger s.treasury tx)
      (applyTreasuryClaimTransaction cfg now' ctx s'.ledger s'.treasury tx) := by
  refine (applyTreasuryClaimTransaction_agree (h.treasury ⟨tx, htx, htype⟩) h.books.balances ctx
    tx).strengthen fun r r' hr hr' hsame => ⟨⟨hsame.1, fun a start => ?_⟩, hsame.2⟩
  rw [treasuryClaim_faucetCredits hr, treasuryClaim_faucetCredits hr', h.books.faucetCredits]

/-- A transaction of the block fails on both nodes, or leaves them alike. -/
theorem executeTransaction_local (h : SameForBlock txs now now' s s') (htx : tx ∈ txs)
    (cfg : Config) (ctx : BlockContext) :
    Agree (SameForBlock txs now now') (executeTransaction cfg now ctx s tx)
      (executeTransaction cfg now' ctx s' tx) := by
  unfold executeTransaction
  -- one lemma for each type of transaction
  split
  · exact (applyTransferTransaction_books h.books ctx tx).bind fun _ _ _ _ hl =>
      Agree.ok (h.withLedger hl)
  · next htype =>
    by_cases hvalidator : isValidatorStakeTx tx = true
    · rw [if_pos hvalidator, if_pos hvalidator]
      exact (applyValidatorStakeTransaction_local h.books h.validators cfg ctx tx).bind
        fun _ _ _ _ hr => Agree.ok (h.withValidators hr.1 hr.2)
    · rw [if_neg hvalidator, if_neg hvalidator]
      exact (scienceStake_local h cfg ctx).bind fun _ _ _ _ hr =>
        Agree.ok (h.withScience hr.1 hr.2.1 hr.2.2)
  · next htype =>
    by_cases hvalidator : isValidatorStakeTx tx = true
    · rw [if_pos hvalidator, if_pos hvalidator]
      exact (applyValidatorUnstakeTransaction_local h.books h.validators cfg ctx htx htype
        hvalidator).bind fun _ _ _ _ hr => Agree.ok (h.withValidators hr.1 hr.2)
    · rw [if_neg hvalidator, if_neg hvalidator]
      exact (scienceUnstake_local h ctx).bind fun _ _ _ _ hr =>
        Agree.ok (h.withScience hr.1 hr.2.1 hr.2.2)
  · next htype =>
    exact (scienceJobCreate_local h htx htype cfg ctx).bind fun _ _ _ _ hr =>
      Agree.ok (h.withScience hr.1 hr.2.1 hr.2.2)
  · exact (governanceAction_local h cfg ctx).bind fun _ _ _ _ hr =>
      Agree.ok (h.withScience hr.1 hr.2.1 hr.2.2)
  · next htype =>
    exact (treasuryClaim_local h htx htype cfg ctx).bind fun _ _ _ _ hr =>
      Agree.ok ⟨hr.1, h.validators, h.science, h.month, fun _ => hr.2⟩
  · exact (applyFaucetTransaction_books h.books cfg ctx tx).bind fun _ _ _ _ hl =>
      Agree.ok (h.withLedger hl)
  · exact Agree.ok h

/-! ### Postings -/

/-- What can be claimed reads the tables and the given time only. -/
theorem SameTables.claimableAmount {t t' : TreasuryTables} (h : SameTables t t') (cfg : Config)
    (now now' nowDt : Instant) :
    Picoin.claimableAmount cfg now nowDt t = Picoin.claimableAmount cfg now' nowDt t' :=
  (withoutNextUnlock_amounts ((h.unlock nowDt).treasuryRow cfg now now')).2.2.2

/-- Both nodes release the same stake. -/
theorem validatorUnstakeUnits_local (h : SameForBlock txs now now' s s') (htx : tx ∈ txs)
    (htype : tx.txType = .unstake) (hvalidator : isValidatorStakeTx tx = true) {cfg : Config} :
    validatorUnstakeUnits cfg s.validators tx = validatorUnstakeUnits cfg s'.validators tx := by
  unfold validatorUnstakeUnits
  rcases validatorUnstakeRow_cases h.validators htx htype hvalidator with
    ⟨hv, hv'⟩ | ⟨row, row', hv, hv', hrow⟩
  · rw [hv, hv']
  · rw [hv, hv', Option.map_some, Option.map_some, hrow.unstakeAmountUnits cfg tx]

/-- Both nodes post the same entries for a transaction of the block. -/
theorem transactionPostings_local (h : SameForBlock txs now now' s s') (htx : tx ∈ txs)
    (cfg : Config) (ctx : BlockContext) :
    transactionPostings cfg now ctx s tx = transactionPostings cfg now' ctx s' tx := by
  refine congrArg (· ++ feeRewardPostings ctx tx) ?_
  unfold kindPostings
  generalize htype : tx.txType = txType
  cases txType with
  | unstake =>
    dsimp only
    by_cases hvalidator : isValidatorStakeTx tx = true
    · rw [if_pos hvalidator, if_pos hvalidator]
      unfold validatorUnstakePostings
      rw [validatorUnstakeUnits_local h htx htype hvalidator]
    · rw [if_neg hvalidator, if_neg hvalidator]
      unfold scienceUnstakePostings scienceStakeAmount
      rw [h.stakeAmount]
  | treasuryClaim =>
    have htables := (h.treasury ⟨tx, htx, htype⟩).withTreasuryRow cfg now now'
    have hamount := htables.claimableAmount cfg now now' ctx.timestamp.instant
    unfold withTreasuryRow at hamount
    dsimp only [treasuryClaimPostings]
    rw [hamount]
  | transfer => rfl
  | stake => rfl
  | scienceJobCreate => rfl
  | governanceAction => rfl
  | faucet => rfl
  | unsupported _ => rfl

/-! ### Nonces -/

/-- Confirming a transaction's row leaves the confirmed nonces of other senders. -/
theorem confirmedMempoolNonce_modify {mempool : Sql.Table String MempoolRow} {hash sender a : String}
    (hholds : ∀ row, mempool.find? hash = some row → row.tx.sender = sender) (ha : a ≠ sender)
    {f : MempoolRow → MempoolRow} (hf : ∀ row, (f row).tx = row.tx) :
    confirmedMempoolNonce (mempool.modify hash f) a = confirmedMempoolNonce mempool a := by
  have hrows : ∀ rows : List (String × MempoolRow),
      (∀ r ∈ rows, r.1 = hash → r.2.tx.sender = sender) →
      (((rows.map fun r => (r.1, if r.1 = hash then f r.2 else r.2)).map Prod.snd).filter fun row =>
          row.tx.sender = a && row.status = .confirmed).map (fun row => row.tx.nonce) =
        ((rows.map Prod.snd).filter fun row =>
          row.tx.sender = a && row.status = .confirmed).map fun row => row.tx.nonce := by
    intro rows hsender
    induction rows with
    | nil => rfl
    | cons r rest ih =>
      have hrest := ih fun x hx => hsender x (List.mem_cons_of_mem r hx)
      by_cases hr : r.1 = hash
      · -- the row belongs to the transaction's sender, on both sides
        have hother : r.2.tx.sender ≠ a := by
          rw [hsender r List.mem_cons_self hr]
          exact Ne.symm ha
        simpa [List.filter_cons, hr, hf, hother] using hrest
      · simp only [List.map_cons, if_neg hr, List.filter_cons]
        split
        · rw [List.map_cons, List.map_cons, hrest]
        · exact hrest
  unfold confirmedMempoolNonce
  have hkeys : ∀ r ∈ mempool.rows, r.1 = hash → r.2.tx.sender = sender := by
    intro r hr heq
    exact hholds r.2 (Sql.Table.find?_eq_some_iff.mpr (by rw [← heq]; exact hr))
  have hmap := hrows mempool.rows hkeys
  dsimp only [Sql.Table.modify, Sql.Table.mapRows]
  rw [hmap]

/-- A change of status leaves the transaction of a row. -/
theorem MempoolHolds.confirm {mempool : Sql.Table String MempoolRow} (h : MempoolHolds txs mempool)
    (hash : String) {f : MempoolRow → MempoolRow} (hf : ∀ row, (f row).tx = row.tx) :
    MempoolHolds txs (mempool.modify hash f) := by
  intro tx' htx' row hrow
  rw [Sql.Table.find?_modify] at hrow
  split at hrow
  · next heq =>
    obtain ⟨row', hrow', rfl⟩ := Option.map_eq_some_iff.mp hrow
    rw [hf]
    exact h tx' htx' row' (heq ▸ hrow')
  · exact h tx' htx' row hrow

/-- A settled transaction leaves the confirmed nonces of other senders. -/
theorem settleTransaction_confirmedNonce {ctx : BlockContext} {r : NodeState}
    (h : settleTransaction ctx s tx = .ok r) (htx : tx ∈ txs) (hholds : MempoolHolds txs s.mempool) :
    MempoolHolds txs r.mempool ∧ ∀ a, a ≠ tx.sender → confirmedNonce r a = confirmedNonce s a := by
  obtain ⟨l, -, h⟩ := bind_eq_ok.mp h
  cases h
  refine ⟨hholds.confirm _ fun _ => rfl, fun a ha => ?_⟩
  unfold confirmedNonce
  refine congrArg₂ max ?_ (confirmedMempoolNonce_modify (fun row hrow => (hholds tx htx row hrow).1)
    ha fun _ => ?_)
  · dsimp only
    rw [recordConfirmedNonce, Sql.Table.find?_upsert_ne _ _ ha]
  · rfl

/-- A transaction that confirms a row of its nonce leaves no larger one behind. -/
theorem confirmedMempoolNonce_confirm_le {mempool : Sql.Table String MempoolRow} {hash a : String}
    {nonce : ℤ} {f : MempoolRow → MempoolRow} (hf : ∀ row, (f row).tx = row.tx)
    (hconfirms : ∀ row, (f row).status = .confirmed)
    (hheld : ∀ row, mempool.find? hash = some row → row.tx.nonce = nonce)
    (hle : confirmedMempoolNonce mempool a ≤ nonce) :
    confirmedMempoolNonce (mempool.modify hash f) a ≤ nonce := by
  let confirmed := fun mempool : Sql.Table String MempoolRow =>
    ((mempool.rows.map Prod.snd).filter fun row =>
      row.tx.sender = a && row.status = .confirmed).map fun row => row.tx.nonce
  have hmem : ∀ mempool : Sql.Table String MempoolRow, ∀ n : ℤ, n ∈ confirmed mempool ↔
      ∃ r ∈ mempool.rows, (r.2.tx.sender = a ∧ r.2.status = .confirmed) ∧ r.2.tx.nonce = n := by
    intro mempool n
    simp only [confirmed, List.mem_map, List.mem_filter, Bool.and_eq_true, decide_eq_true_eq]
    constructor
    · rintro ⟨row, ⟨⟨r, hr, rfl⟩, hrow⟩, hn⟩
      exact ⟨r, hr, hrow, hn⟩
    · rintro ⟨r, hr, hrow, hn⟩
      exact ⟨r.2, ⟨⟨r, hr, rfl⟩, hrow⟩, hn⟩
  -- the new list has one nonce more at most
  have hold : ∀ n ∈ confirmed (mempool.modify hash f), n ∈ confirmed mempool ∨ n = nonce := by
    intro n hn
    obtain ⟨r', hr', ⟨hsender, hstatus⟩, rfl⟩ := (hmem _ n).mp hn
    obtain ⟨r, hr, rfl⟩ := List.mem_map.mp hr'
    by_cases hhash : r.1 = hash
    · simp only [if_pos hhash, hf]
      exact .inr (hheld r.2 (Sql.Table.find?_eq_some_iff.mpr (by rw [← hhash]; exact hr)))
    · simp only [if_neg hhash] at hsender hstatus ⊢
      exact .inl ((hmem _ _).mpr ⟨r, hr, ⟨hsender, hstatus⟩, rfl⟩)
  -- and it has all the old ones
  have hkept : ∀ n ∈ confirmed mempool, n ∈ confirmed (mempool.modify hash f) := by
    intro n hn
    obtain ⟨r, hr, ⟨hsender, hstatus⟩, rfl⟩ := (hmem _ n).mp hn
    refine (hmem _ _).mpr ⟨_, List.mem_map_of_mem hr, ?_⟩
    by_cases hhash : r.1 = hash
    · simp only [if_pos hhash, hf, hconfirms]
      exact ⟨⟨hsender, trivial⟩, trivial⟩
    · simp only [if_neg hhash]
      exact ⟨⟨hsender, hstatus⟩, trivial⟩
  show ((confirmed (mempool.modify hash f)).max?).getD 0 ≤ nonce
  have hle : ((confirmed mempool).max?).getD 0 ≤ nonce := hle
  -- so its maximum is the old one or the new nonce
  cases hmax : (confirmed (mempool.modify hash f)).max? with
  | none =>
    have hnone : confirmed mempool = [] := by
      rw [List.max?_eq_none_iff] at hmax
      exact List.eq_nil_iff_forall_not_mem.mpr fun n hn => by
        have hn := hkept n hn
        rw [hmax] at hn
        cases hn
    rwa [hnone] at hle
  | some n =>
    rw [Option.getD_some]
    rcases hold n (List.max?_mem hmax) with hn | rfl
    · cases hlargest : (confirmed mempool).max? with
      | none =>
        rw [List.max?_eq_none_iff] at hlargest
        rw [hlargest] at hn
        cases hn
      | some m =>
        rw [hlargest, Option.getD_some] at hle
        exact ((List.max?_eq_some_iff.mp hlargest).2 n hn).trans hle
    · exact le_refl _

/-- A settled transaction has the last nonce of its sender. -/
theorem settleTransaction_senderNonce {ctx : BlockContext} {r : NodeState}
    (h : settleTransaction ctx s tx = .ok r) (htx : tx ∈ txs) (hholds : MempoolHolds txs s.mempool)
    (hle : confirmedNonce s tx.sender ≤ tx.nonce) : confirmedNonce r tx.sender = tx.nonce := by
  obtain ⟨l, -, h⟩ := bind_eq_ok.mp h
  cases h
  obtain ⟨hstored, hmempool⟩ := max_le_iff.mp hle
  have hrecorded : ((recordConfirmedNonce s.accountNonces tx.sender tx.nonce).find?
      tx.sender).getD 0 = tx.nonce := by
    rw [recordConfirmedNonce, Sql.Table.find?_upsert_self, Option.getD_some]
    cases hfind : s.accountNonces.find? tx.sender with
    | none => rfl
    | some n =>
      rw [hfind, Option.getD_some] at hstored
      exact max_eq_left hstored
  unfold confirmedNonce
  dsimp only
  rw [hrecorded]
  exact max_eq_left (confirmedMempoolNonce_confirm_le (fun _ => rfl) (fun _ => rfl)
    (fun row hrow => (hholds tx htx row hrow).2) hmempool)

/-! ### A block -/

/-- Both nodes refuse the transaction, or they agree on what it reads of their own rows. -/
def ReadAlike (cfg : Config) (now now' : Instant) (ctx : BlockContext) (b b' : BlockProgress)
    (tx : Tx) : Prop :=
  (transactionRejectionReason cfg now b.state tx b.expected [] ctx.canonicalReplay
      ctx.canonicalReplay ≠ none ∧
    transactionRejectionReason cfg now' b'.state tx b'.expected [] ctx.canonicalReplay
      ctx.canonicalReplay ≠ none) ∨
    LocalDataAgrees [tx] now now' b.state b'.state

/-- So it is with each transaction of a block that both nodes come to. -/
def AlikeAlong (cfg : Config) (now now' : Instant) (ctx : BlockContext) :
    List Tx → BlockProgress → BlockProgress → Prop
  | [], _, _ => True
  | tx :: rest, b, b' => ReadAlike cfg now now' ctx b b' tx ∧
      ∀ r r', applyBlockTransaction cfg now ctx b tx = .ok r →
        applyBlockTransaction cfg now' ctx b' tx = .ok r' → AlikeAlong cfg now now' ctx rest r r'

/-- The relation between the loops of two nodes that started from `s₀` and `s₀'`. -/
structure InBlock (txs : List Tx) (s₀ s₀' : NodeState) (b b' : BlockProgress) : Prop where
  same : SameChainData b.state b'.state
  expected : b.expected = b'.expected
  ahead : ∀ a n, b.expected a = some n → confirmedNonce b.state a < n
  mempool : MempoolHolds txs b.state.mempool
  mempool' : MempoolHolds txs b'.state.mempool
  posted : ∃ ps, Posts s₀.ledger b.state.ledger ps ∧ Posts s₀'.ledger b'.state.ledger ps

/-- A nonce that passes the checks is not below a confirmed one. -/
theorem InBlock.confirmedNonce_le {s₀ s₀' : NodeState} {b b' : BlockProgress}
    (h : InBlock txs s₀ s₀' b b') {cfg : Config} {reserved : List Instant} {gap missing : Bool}
    (hpass : transactionRejectionReason cfg now b.state tx b.expected reserved gap missing = none) :
    confirmedNonce b.state tx.sender ≤ tx.nonce := by
  obtain ⟨-, -, -, hnonce, -⟩ := transactionRejectionReason_eq_none.mp hpass
  have hlt : confirmedNonce b.state tx.sender < expectedNonce b.state b.expected tx.sender := by
    unfold expectedNonce nextSelectableNonce
    cases hexpected : b.expected tx.sender with
    | none =>
      rw [Option.getD_none]
      exact lt_add_one _
    | some n =>
      rw [Option.getD_some]
      exact h.ahead _ n hexpected
  rcases hnonce with heq | ⟨-, hgap⟩ <;> omega

/-- A transaction that reads the same on both nodes is executed by both or by neither. -/
theorem applyBlockTransaction_same {b b' : BlockProgress} (h : SameChainData b.state b'.state)
    (hexpected : b.expected = b'.expected) (cfg : Config) (ctx : BlockContext)
    (hlocal : LocalDataAgrees [tx] now now' b.state b'.state) :
    Agree (fun r r' : BlockProgress => SameForBlock [tx] now now' r.state r'.state ∧
        r.expected = r'.expected)
      (applyBlockTransaction cfg now ctx b tx) (applyBlockTransaction cfg now' ctx b' tx) := by
  have hsame : SameForBlock [tx] now now' b.state b'.state :=
    ⟨h.books, ⟨h.registered, hlocal.staked, hlocal.unstaked⟩, h.science, hlocal.month,
      hlocal.treasury⟩
  have htx : tx ∈ [tx] := List.mem_singleton_self tx
  unfold applyBlockTransaction applyCheckedTransaction
  refine (Agree.guardNone ?_).bind fun _ _ _ _ _ => ?_
  · have hnonce : expectedNonce b.state b.expected tx.sender =
        expectedNonce b'.state b'.expected tx.sender := by
      unfold expectedNonce nextSelectableNonce
      rw [← hexpected, h.nonces]
    rw [Option.map_eq_none_iff, Option.map_eq_none_iff, transactionRejectionReason_eq_none,
      transactionRejectionReason_eq_none, hnonce, hsame.books.balances tx.sender,
      kindRejectionReason_local hsame htx]
  refine (executeTransaction_local hsame htx cfg ctx).bind fun s₁ s₁' _ _ h₁ => ?_
  refine Agree.bind (R := SameForBlock [tx] now now') ?_ fun s₂ s₂' _ _ h₂ => ?_
  · exact (applyFeeReward_books h₁.books ctx tx).bind fun _ _ _ _ hl => Agree.ok
      ⟨hl, h₁.validators, h₁.science, h₁.month, h₁.treasury⟩
  · rw [hexpected]
    exact Agree.ok ⟨h₂, rfl⟩

/-- One turn of the loops of two nodes. -/
theorem applyBlockTransaction_local {s₀ s₀' : NodeState} {b b' : BlockProgress}
    (h : InBlock txs s₀ s₀' b b') (htx : tx ∈ txs) {cfg : Config} {ctx : BlockContext}
    (hread : ReadAlike cfg now now' ctx b b' tx) :
    Agree (InBlock txs s₀ s₀') (applyBlockTransaction cfg now ctx b tx)
      (applyBlockTransaction cfg now' ctx b' tx) := by
  rcases hread with ⟨hrefused, hrefused'⟩ | hlocal
  · -- both nodes refuse the transaction
    obtain ⟨reason, hreason⟩ := Option.ne_none_iff_exists'.mp hrefused
    obtain ⟨reason', hreason'⟩ := Option.ne_none_iff_exists'.mp hrefused'
    unfold applyBlockTransaction
    rw [hreason, hreason']
    exact Agree.error _ _
  refine (applyBlockTransaction_same h.same h.expected cfg ctx hlocal).strengthen
    fun r r' hr hr' hsame => ?_
  obtain ⟨hpass, s₁, hexecute, hsettle, hexpected⟩ := applyBlockTransaction_eq_ok hr
  obtain ⟨hpass', s₁', hexecute', hsettle', -⟩ := applyBlockTransaction_eq_ok hr'
  obtain ⟨hnonces, hmempool, -⟩ := executeTransaction_frame hexecute
  obtain ⟨hnonces', hmempool', -⟩ := executeTransaction_frame hexecute'
  have hholds₁ : MempoolHolds txs s₁.mempool := hmempool ▸ h.mempool
  have hholds₁' : MempoolHolds txs s₁'.mempool := hmempool' ▸ h.mempool'
  -- only the settlement writes nonces and rows of the mempool
  have hkept : ∀ a, confirmedNonce s₁ a = confirmedNonce b.state a := fun a => by
    unfold confirmedNonce
    rw [hnonces, hmempool]
  have hkept' : ∀ a, confirmedNonce s₁' a = confirmedNonce b'.state a := fun a => by
    unfold confirmedNonce
    rw [hnonces', hmempool']
  have hle := h.confirmedNonce_le hpass
  have hsender := settleTransaction_senderNonce hsettle htx hholds₁ ((hkept _).trans_le hle)
  have hsender' := settleTransaction_senderNonce hsettle' htx hholds₁'
    ((hkept' _).trans_le ((h.same.nonces _).ge.trans hle))
  obtain ⟨hholds, hother⟩ := settleTransaction_confirmedNonce hsettle htx hholds₁
  obtain ⟨hholds', hother'⟩ := settleTransaction_confirmedNonce hsettle' htx hholds₁'
  obtain ⟨ps, hps, hps'⟩ := h.posted
  refine ⟨⟨hsame.1.books, fun a => ?_, hsame.1.validators.registered, hsame.1.science⟩, hsame.2,
    fun a n ha => ?_, hholds, hholds', ?_⟩
  · -- the confirmed nonce of the sender is that of the transaction on both
    by_cases ha : a = tx.sender
    · rw [ha, hsender, hsender']
    · rw [hother a ha, hother' a ha, hkept, hkept', h.same.nonces]
  · rw [hexpected, ExpectedNonces.set] at ha
    split at ha
    · next heq =>
      rw [heq, hsender, ← Option.some.inj ha]
      exact lt_add_one _
    · next hne =>
      rw [hother a hne, hkept]
      exact h.ahead a n ha
  · -- the same postings on both
    refine ⟨ps ++ transactionPostings cfg now ctx b.state tx,
      hps.trans (applyBlockTransaction_posts hr), ?_⟩
    have hbefore : SameForBlock [tx] now now' b.state b'.state :=
      ⟨h.same.books, ⟨h.same.registered, hlocal.staked, hlocal.unstaked⟩, h.same.science,
        hlocal.month, hlocal.treasury⟩
    rw [transactionPostings_local hbefore (List.mem_singleton_self tx)]
    exact hps'.trans (applyBlockTransaction_posts hr')

/-- The loops of two nodes, by induction on the transactions that are left. -/
theorem foldlM_local {s₀ s₀' : NodeState} {cfg : Config} {ctx : BlockContext} :
    ∀ (rest : List Tx) (b b' : BlockProgress), (∀ tx ∈ rest, tx ∈ txs) → InBlock txs s₀ s₀' b b' →
      AlikeAlong cfg now now' ctx rest b b' →
        Agree (InBlock txs s₀ s₀') (rest.foldlM (applyBlockTransaction cfg now ctx) b)
          (rest.foldlM (applyBlockTransaction cfg now' ctx) b')
  | [], _, _, _, h, _ => Agree.ok h
  | tx :: rest, b, b', hrest, h, halike => by
    rw [List.foldlM_cons, List.foldlM_cons]
    exact (applyBlockTransaction_local h (hrest tx List.mem_cons_self) halike.1).bind
      fun r r' hr hr' hnext => foldlM_local rest r r'
        (fun tx htx => hrest tx (List.mem_cons_of_mem _ htx)) hnext (halike.2 r r' hr hr')

/-- Related nodes stay related by a block, or both refuse it. -/
theorem applyBlockTransactions_local {cfg : Config} {ctx : BlockContext}
    (hchain : SameChainData s s') (hmempool : MempoolHolds txs s.mempool)
    (hmempool' : MempoolHolds txs s'.mempool)
    (halike : AlikeAlong cfg now now' ctx txs ⟨s, fun _ => none⟩ ⟨s', fun _ => none⟩) :
    Agree (fun r r' => SameChainData r r' ∧
        ∃ ps, Posts s.ledger r.ledger ps ∧ Posts s'.ledger r'.ledger ps)
      (applyBlockTransactions cfg now ctx s txs) (applyBlockTransactions cfg now' ctx s' txs) := by
  have hstart : InBlock txs s s' ⟨s, fun _ => none⟩ ⟨s', fun _ => none⟩ :=
    ⟨hchain, rfl, fun _ _ hnone => (nomatch hnone), hmempool, hmempool', [], .refl _, .refl _⟩
  exact (foldlM_local txs _ _ (fun _ htx => htx) hstart halike).bind
    fun b b' _ _ hb => Agree.ok ⟨hb.same, hb.posted⟩

end Nodes

/-! ## Two nodes -/

/-- A block that both nodes execute, each by its own clock. -/
structure SharedBlock where
  ctx : BlockContext
  transactions : List Tx
  now : Instant
  now' : Instant

/-- What the two nodes go through. -/
inductive PairStep where
  | block (b : SharedBlock)
  | act (second : Bool) (v : String) (action : LocalAction)
  | traffic (second : Bool) (mempool : Sql.Table String MempoolRow)

/-- Both nodes after a step; a block that raises is rolled back. -/
def PairStep.step (cfg : Config) (n : NodeState × NodeState) : PairStep → NodeState × NodeState
  | .block b => (Run.attempt (applyBlockTransactions cfg b.now b.ctx n.1 b.transactions) n.1,
      Run.attempt (applyBlockTransactions cfg b.now' b.ctx n.2 b.transactions) n.2)
  | .act false v action => (n.1.act v action, n.2)
  | .act true v action => (n.1, n.2.act v action)
  | .traffic false mempool => ({ n.1 with mempool }, n.2)
  | .traffic true mempool => (n.1, { n.2 with mempool })

/-- The nodes hold the block's transactions under their hashes, and read each of them alike. -/
structure SharedBlock.ReadAlike (cfg : Config) (n : NodeState × NodeState) (b : SharedBlock) :
    Prop where
  mempool : MempoolHolds b.transactions n.1.mempool
  mempool' : MempoolHolds b.transactions n.2.mempool
  alike : AlikeAlong cfg b.now b.now' b.ctx b.transactions ⟨n.1, fun _ => none⟩ ⟨n.2, fun _ => none⟩

/-- Both nodes refuse the block, or both accept it and move the same amounts. -/
def SharedBlock.Agreed (cfg : Config) (n : NodeState × NodeState) (b : SharedBlock) : Prop :=
  ((∃ r, applyBlockTransactions cfg b.now b.ctx n.1 b.transactions = .ok r) ↔
    ∃ r', applyBlockTransactions cfg b.now' b.ctx n.2 b.transactions = .ok r') ∧
  ∀ r r', applyBlockTransactions cfg b.now b.ctx n.1 b.transactions = .ok r →
    applyBlockTransactions cfg b.now' b.ctx n.2 b.transactions = .ok r' →
    ∃ ps, Posts n.1.ledger r.ledger ps ∧ Posts n.2.ledger r'.ledger ps

/-- Blocks are read alike, actions are free, and traffic in a mempool confirms nothing. -/
def PairStep.Fits (cfg : Config) (n : NodeState × NodeState) : PairStep → Prop
  | .block b => b.ReadAlike cfg n
  | .act _ _ _ => True
  | .traffic false mempool =>
    ∀ a, confirmedMempoolNonce mempool a = confirmedMempoolNonce n.1.mempool a
  | .traffic true mempool =>
    ∀ a, confirmedMempoolNonce mempool a = confirmedMempoolNonce n.2.mempool a

/-- The mempools of two nodes matter by their confirmed nonces. -/
theorem SameChainData.withMempool {s s' : NodeState} (h : SameChainData s s')
    {mempool : Sql.Table String MempoolRow}
    (hconfirmed : ∀ a, confirmedMempoolNonce mempool a = confirmedMempoolNonce s'.mempool a) :
    SameChainData s { s' with mempool } := by
  refine ⟨h.books, fun a => ?_, h.registered, h.science⟩
  rw [h.nonces a]
  exact congrArg (max _) (hconfirmed a).symm

/-- A step that fits both nodes leaves them with the same chain data. -/
theorem sameChainData_step {cfg : Config} (n : NodeState × NodeState) (step : PairStep)
    (hn : SameChainData n.1 n.2) (hfits : step.Fits cfg n) :
    SameChainData (step.step cfg n).1 (step.step cfg n).2 := by
  match step, hfits with
  | .block b, hfits =>
    have hagree := applyBlockTransactions_local hn hfits.mempool hfits.mempool' hfits.alike
    unfold PairStep.step
    dsimp only
    cases hfirst : applyBlockTransactions cfg b.now b.ctx n.1 b.transactions with
    | ok r =>
      obtain ⟨r', hsecond⟩ := hagree.ok_iff.mp ⟨r, hfirst⟩
      rw [hsecond]
      exact (hagree.of_ok hfirst hsecond).1
    | error e =>
      cases hsecond : applyBlockTransactions cfg b.now' b.ctx n.2 b.transactions with
      | ok r' =>
        obtain ⟨r, hr⟩ := hagree.ok_iff.mpr ⟨r', hsecond⟩
        rw [hfirst] at hr
        cases hr
      | error e' => exact hn
  | .act false v action, _ => exact (hn.symm.localAction v action).symm
  | .act true v action, _ => exact hn.localAction v action
  | .traffic false mempool, hfits => exact (hn.symm.withMempool hfits).symm
  | .traffic true mempool, hfits => exact hn.withMempool hfits

/-- **Local state and blocks.** In every run of blocks on two nodes, with any actions of their
operators, any penalties and any traffic in their mempools in between, in which both nodes read the
transactions of each block alike: both accept each such block or both refuse it, and they move the
same amounts. -/
theorem nodes_agree_on_blocks {cfg : Config} {start : NodeState × NodeState}
    (hstart : SameChainData start.1 start.2) {steps : List PairStep}
    (hrun : Run.EachStep (PairStep.step cfg) (PairStep.Fits cfg) start steps) :
    ∀ n ∈ Run.states (PairStep.step cfg) start steps, SameChainData n.1 n.2 ∧
      ∀ b : SharedBlock, b.ReadAlike cfg n → b.Agreed cfg n := by
  intro n hn
  let Inv := fun n : NodeState × NodeState => SameChainData n.1 n.2
  have hstep : ∀ n step, Inv n → step.Fits cfg n → Inv (PairStep.step cfg n step) :=
    fun n step hn hfits => sameChainData_step n step hn hfits
  have hsame := Run.invariant_of_eachStep hstep steps start hstart hrun n hn
  refine ⟨hsame, fun b hread => ?_⟩
  have hagree := applyBlockTransactions_local hsame hread.mempool hread.mempool' hread.alike
  exact ⟨hagree.ok_iff, fun r r' hr hr' => (hagree.of_ok hr hr').2⟩

/-! ## A penalty on one node -/

/-- The payload of a stake on the first validator. -/
def validatorStakePayload : Payload :=
  { stakeType := some "validator", validatorId := some "validator_1" }

/-- A wallet stakes 50 coins on the validator. -/
def validatorStake : Tx :=
  signTransaction localConfig
    (aliceRequest .stake 1 0 50000000 none validatorStakePayload (.ofInstant 0))

/-- The wallet takes its 50 coins back. -/
def validatorUnstake : Tx :=
  signTransaction localConfig
    (aliceRequest .unstake 2 0 50000000 none validatorStakePayload (.ofInstant 0))

/-- The stake of the first block is signed. -/
theorem isSignatureValid_validatorStake :
    ∀ tx ∈ [validatorStake], isSignatureValid localConfig tx = true := by
  intro tx htx
  rw [List.mem_singleton.mp htx]
  exact isSignatureValid_aliceRequest ..

/-- The unstake is signed. -/
theorem isSignatureValid_validatorUnstake :
    ∀ tx ∈ [validatorUnstake], isSignatureValid localConfig tx = true := by
  intro tx htx
  rw [List.mem_singleton.mp htx]
  exact isSignatureValid_aliceRequest ..

/-- A node that has received one invalid signature in the name of the validator. -/
def NodeState.withPenalty (s : NodeState) : NodeState :=
  s.act "validator_1" (.penalize 0)

/-- A node that has let its operator switch the validator off. -/
def NodeState.withDisabled (s : NodeState) : NodeState :=
  s.act "validator_1" (.setEnabled false)

/-- Two nodes execute one stake, and one of them penalises the validator: the block that takes the
stake back is accepted by the other node only. -/
theorem unstake_forks :
    ∃ s, applyBlockTransactions localConfig 0 (localBlock 1 0 true)
        (localNode [(aliceAddress, 60000000)]) [validatorStake] = .ok s ∧
      SameChainData s s.withPenalty ∧
      (∃ r, applyBlockTransactions localConfig 0 (localBlock 2 0 true) s [validatorUnstake] =
        .ok r) ∧
      ¬ ∃ r, applyBlockTransactions localConfig 0 (localBlock 2 0 true) s.withPenalty
        [validatorUnstake] = .ok r := by
  have hruns : returns (applySignedTransactions localConfig 0 (localBlock 1 0 true)
      (localNode [(aliceAddress, 60000000)]) [validatorStake]) (fun s =>
        returns (applySignedTransactions localConfig 0 (localBlock 2 0 true) s [validatorUnstake])
          (fun _ => true) &&
        !returns (applySignedTransactions localConfig 0 (localBlock 2 0 true) s.withPenalty
          [validatorUnstake]) (fun _ => true)) = true := by decide +kernel
  rw [← applyBlockTransactions_of_signed isSignatureValid_validatorStake] at hruns
  obtain ⟨s, hs, hblock⟩ := exists_of_returns hruns
  rw [← applyBlockTransactions_of_signed isSignatureValid_validatorUnstake,
    ← applyBlockTransactions_of_signed isSignatureValid_validatorUnstake, Bool.and_eq_true,
    Bool.not_eq_true'] at hblock
  refine ⟨s, hs, ?_, exists_ok_iff_returns.mpr hblock.1, ?_⟩
  · exact SameChainData.localAction ⟨.refl _, fun _ => rfl, fun _ => rfl,
      ⟨fun _ => rfl, rfl, rfl⟩⟩ _ _
  · rw [exists_ok_iff_returns, hblock.2]
    exact Bool.false_ne_true

/-- A transfer reads nothing of what the nodes keep on their own. -/
theorem localDataAgrees_of_transfer {now now' : Instant} {s s' : NodeState} {tx : Tx}
    (htype : tx.txType = .transfer) : LocalDataAgrees [tx] now now' s s' := by
  have hother : ∀ tx' ∈ [tx], tx'.txType = .transfer := fun tx' htx => by
    rw [List.mem_singleton.mp htx]
    exact htype
  refine ⟨fun v hv => ?_, fun v hv => ?_, ⟨fun a ha => ?_, fun a ha => ?_⟩, fun hclaim => ?_⟩
  · obtain ⟨tx', htx, hstake, -⟩ := hv
    exact absurd ((hother tx' htx).symm.trans hstake) (by decide)
  · obtain ⟨tx', htx, hunstake, -⟩ := hv
    exact absurd ((hother tx' htx).symm.trans hunstake) (by decide)
  · obtain ⟨tx', htx, hjob, -⟩ := ha
    exact absurd ((hother tx' htx).symm.trans hjob) (by decide)
  · obtain ⟨tx', htx, hjob, -⟩ := ha
    exact absurd ((hother tx' htx).symm.trans hjob) (by decide)
  · obtain ⟨tx', htx, hclaim⟩ := hclaim
    exact absurd ((hother tx' htx).symm.trans hclaim) (by decide)

/-- A stake reads the owner of the validator and the wallets' part of its stake. -/
theorem localDataAgrees_of_stake {now now' : Instant} {s s' : NodeState} {tx : Tx}
    (htype : tx.txType = .stake)
    (hrows : ∀ v, RowsRelated SameOwnership s.validators s'.validators v) :
    LocalDataAgrees [tx] now now' s s' := by
  have hother : ∀ tx' ∈ [tx], tx'.txType = .stake := fun tx' htx => by
    rw [List.mem_singleton.mp htx]
    exact htype
  refine ⟨fun v _ => hrows v, fun v hv => ?_, ⟨fun a ha => ?_, fun a ha => ?_⟩, fun hclaim => ?_⟩
  · obtain ⟨tx', htx, hunstake, -⟩ := hv
    exact absurd ((hother tx' htx).symm.trans hunstake) (by decide)
  · obtain ⟨tx', htx, hjob, -⟩ := ha
    exact absurd ((hother tx' htx).symm.trans hjob) (by decide)
  · obtain ⟨tx', htx, hjob, -⟩ := ha
    exact absurd ((hother tx' htx).symm.trans hjob) (by decide)
  · obtain ⟨tx', htx, hclaim⟩ := hclaim
    exact absurd ((hother tx' htx).symm.trans hclaim) (by decide)

/-- The wallet stakes 5 coins more. -/
def secondStake : Tx :=
  signTransaction localConfig
    (aliceRequest .stake 2 0 5000000 none validatorStakePayload (.ofInstant 0))

/-- And pays bob. -/
def paymentAfterStake : Tx :=
  signTransaction localConfig
    (aliceRequest .transfer 3 0 1000 (some bobAddress) {} (.ofInstant 0))

/-- The transactions of the later block are signed. -/
theorem isSignatureValid_laterBlock :
    ∀ tx ∈ [secondStake, paymentAfterStake], isSignatureValid localConfig tx = true := by
  intro tx htx
  rcases List.mem_cons.mp htx with rfl | htx
  · exact isSignatureValid_aliceRequest ..
  · rw [List.mem_singleton.mp htx]
    exact isSignatureValid_aliceRequest ..

/-- The block of the first stake on two nodes. -/
def stakeBlock : SharedBlock := ⟨localBlock 1 0 true, [validatorStake], 0, 0⟩

/-- The next block, for which the nodes have different clocks. -/
def laterBlock : SharedBlock := ⟨localBlock 2 0 true, [secondStake, paymentAfterStake], 0, 60⟩

/-- The first block is read alike by two nodes that are in the same state. -/
theorem readAlike_stakeBlock {s : NodeState} (hempty : s.mempool = .empty) :
    stakeBlock.ReadAlike localConfig (s, s) := by
  have hholds : MempoolHolds stakeBlock.transactions s.mempool := by
    rw [hempty]
    exact fun _ _ _ hrow => (nomatch hrow)
  have hrows : ∀ v, RowsRelated SameOwnership s.validators s.validators v := by
    intro v row row' hrow hrow'
    rw [Option.some.inj (hrow.symm.trans hrow')]
    exact .refl row'
  exact ⟨hholds, hholds, .inr (localDataAgrees_of_stake rfl hrows), fun _ _ _ _ => trivial⟩

/-- The next block is read alike when one of the nodes has switched the validator off. -/
theorem readAlike_laterBlock {s : NodeState} (hempty : s.mempool = .empty) :
    laterBlock.ReadAlike localConfig (s, s.withDisabled) := by
  have hholds : MempoolHolds laterBlock.transactions s.mempool := by
    rw [hempty]
    exact fun _ _ _ hrow => (nomatch hrow)
  have hrows : ∀ v, RowsRelated SameOwnership s.validators s.withDisabled.validators v := by
    intro v row row' hrow hrow'
    unfold NodeState.withDisabled NodeState.act at hrow'
    rw [Sql.Table.find?_modify] at hrow'
    split at hrow'
    · next hv =>
      rw [← hv, hrow] at hrow'
      rw [← Option.some.inj hrow']
      exact ⟨rfl, rfl⟩
    · rw [Option.some.inj (hrow.symm.trans hrow')]
      exact .refl row'
  exact ⟨hholds, hholds, .inr (localDataAgrees_of_stake rfl hrows),
    fun _ _ _ _ => ⟨.inr (localDataAgrees_of_transfer rfl), fun _ _ _ _ => trivial⟩⟩

/-- A block that both nodes accept. -/
theorem PairStep.step_block {cfg : Config} {s s' r r' : NodeState} {b : SharedBlock}
    (h : applyBlockTransactions cfg b.now b.ctx s b.transactions = .ok r)
    (h' : applyBlockTransactions cfg b.now' b.ctx s' b.transactions = .ok r') :
    PairStep.step cfg (s, s') (.block b) = (r, r') := by
  unfold PairStep.step
  dsimp only
  rw [h, h']
  rfl

/-- Two nodes execute a stake, and the operator of one of them switches the validator off: both
still accept a block with another stake on it and a transfer, and move the same amounts. -/
theorem nodes_agree_after_disabling :
    ∃ s, applyBlockTransactions localConfig 0 (localBlock 1 0 true)
        (localNode [(aliceAddress, 60000000)]) [validatorStake] = .ok s ∧
      ((s.withDisabled.validators.find? "validator_1").any fun row => !row.enabled) = true ∧
      ∃ r r' ps, applyBlockTransactions localConfig 0 (localBlock 2 0 true) s
          [secondStake, paymentAfterStake] = .ok r ∧
        applyBlockTransactions localConfig 60 (localBlock 2 0 true) s.withDisabled
          [secondStake, paymentAfterStake] = .ok r' ∧
        Posts s.ledger r.ledger ps ∧ Posts s.withDisabled.ledger r'.ledger ps := by
  have hruns : returns (applySignedTransactions localConfig 0 (localBlock 1 0 true)
      (localNode [(aliceAddress, 60000000)]) [validatorStake]) (fun s =>
        (s.mempool.rows.isEmpty &&
          (s.withDisabled.validators.find? "validator_1").any fun row => !row.enabled) &&
        returns (applySignedTransactions localConfig 0 (localBlock 2 0 true) s
          [secondStake, paymentAfterStake]) fun _ => true) = true := by decide +kernel
  rw [← applyBlockTransactions_of_signed isSignatureValid_validatorStake] at hruns
  obtain ⟨s, hs, hafter⟩ := exists_of_returns hruns
  obtain ⟨hstate, haccepted⟩ := Bool.and_eq_true_iff.mp hafter
  obtain ⟨hrows, hdisabled⟩ := Bool.and_eq_true_iff.mp hstate
  rw [← applyBlockTransactions_of_signed isSignatureValid_laterBlock] at haccepted
  obtain ⟨r, hr⟩ := exists_ok_iff_returns.mpr haccepted
  have hempty : s.mempool = .empty := Sql.Table.ext (List.isEmpty_iff.mp hrows)
  refine ⟨s, hs, hdisabled, ?_⟩
  have hstart : (localNode [(aliceAddress, 60000000)]).mempool = .empty := rfl
  generalize localNode [(aliceAddress, 60000000)] = start at hs hstart
  -- the two nodes have run alike, but for the operator of one of them
  have hmem : (s, s.withDisabled) ∈ Run.states (PairStep.step localConfig) (start, start)
      [.block stakeBlock, .act true "validator_1" (.setEnabled false)] := by
    rw [Run.states, Run.states, Run.states, PairStep.step_block (b := stakeBlock) hs hs]
    exact List.mem_cons_of_mem _ (List.mem_cons_of_mem _ (List.mem_singleton_self _))
  have hrun : Run.EachStep (PairStep.step localConfig) (PairStep.Fits localConfig) (start, start)
      [.block stakeBlock, .act true "validator_1" (.setEnabled false)] :=
    ⟨readAlike_stakeBlock hstart, trivial, trivial⟩
  obtain ⟨hiff, hposts⟩ := (nodes_agree_on_blocks (SameChainData.refl start) hrun _ hmem).2
    laterBlock (readAlike_laterBlock hempty)
  obtain ⟨r', hr'⟩ := hiff.mp ⟨r, hr⟩
  obtain ⟨ps, hps, hps'⟩ := hposts r r' hr hr'
  exact ⟨r, r', ps, hr, hr', hps, hps'⟩

end Picoin
