import Picoin.Proofs.Agreement
import Picoin.Proofs.TreasuryAccounting

/-!
# The treasury and the clock

Two nodes execute one sequence of blocks, each by its own clock. The claims of a block are checked
and paid out at the block's timestamp, but the block's accrual takes the quarter and the unlock
time from the clock of the node that executes it.

* **`SameChain`** — the nodes agree on all that claims and accruals work on, apart from the texts
  that no check reads;
* **`executeBlock_agree`** — from such states, both nodes accept the block or neither does, and the
  claims keep the relation whatever the clocks;
* **`ClocksAgree`** — the condition on the clocks that makes the accruals keep it as well.
-/

namespace Picoin

open Outcome Run

/-! ## Blocks -/

/-- A block as the treasury sees it: its data, its reward and its claims. -/
structure TreasuryBlock where
  ctx : BlockContext
  reward : ℤ
  claims : List Tx
  isClaim : ∀ tx ∈ claims, tx.txType = .treasuryClaim

/-- A node whose clock is at `now` executes the block: its transactions, then the accrual. -/
def TreasuryBlock.execute (cfg : Config) (now : Instant) (s : NodeState) (block : TreasuryBlock) :
    Except ExecError NodeState := do
  let s ← applyBlockTransactions cfg now block.ctx s block.claims
  let (treasury, ledger) ← recordScientificDevelopmentTreasuryForBlock cfg now s.treasury s.ledger
    block.ctx.blockHeight block.reward
  return { s with treasury, ledger }

/-- The block is accepted. -/
def TreasuryBlock.Accepted (cfg : Config) (now : Instant) (s : NodeState) (block : TreasuryBlock) :
    Prop :=
  ∃ s', block.execute cfg now s = .ok s'

/-- The node's state after the block; a block that is rejected leaves it as it was. -/
def TreasuryBlock.step (cfg : Config) (now : Instant) (s : NodeState) (block : TreasuryBlock) :
    NodeState :=
  attempt (block.execute cfg now s) s

/-- What an epoch holds and when it unlocks. -/
def EpochRow.holdings (e : EpochRow) : ℤ × ℤ × Instant := (e.lockedAmount, e.unlockedAmount, e.unlockAt)

/-- The nodes have the same epochs, with the same amounts and unlock times. -/
def SameTreasury (s s' : NodeState) : Prop :=
  ∀ epoch, (s.treasury.epochs.find? epoch).map EpochRow.holdings =
    (s'.treasury.epochs.find? epoch).map EpochRow.holdings

/-- Two nodes execute the blocks, each at its own instants. Before each block and after the last
their treasuries are the same, and they accept the same blocks. -/
def TreasuryDetermined (cfg : Config) :
    NodeState → NodeState → List (TreasuryBlock × Instant × Instant) → Prop
  | s, s', [] => SameTreasury s s'
  | s, s', (block, now, now') :: rest =>
    SameTreasury s s' ∧ (block.Accepted cfg now s ↔ block.Accepted cfg now' s') ∧
      TreasuryDetermined cfg (block.step cfg now s) (block.step cfg now' s') rest

/-! ## The relation between the nodes -/

/-- The aggregate row without the unlock time that is shown in messages. -/
def TreasuryRow.withoutNextUnlock (row : TreasuryRow) : TreasuryRow := { row with nextUnlockAt := 0 }

structure SameTables (t t' : TreasuryTables) : Prop where
  row : t.treasury.map TreasuryRow.withoutNextUnlock =
    t'.treasury.map TreasuryRow.withoutNextUnlock
  epochs : t.epochs = t'.epochs
  claims : t.claims = t'.claims

structure SameChain (s s' : NodeState) : Prop where
  balances : SameBalances s.ledger s'.ledger
  nonces : s.accountNonces = s'.accountNonces
  mempool : s.mempool = s'.mempool
  treasury : SameTables s.treasury s'.treasury

theorem SameChain.sameTreasury {s s' : NodeState} (h : SameChain s s') : SameTreasury s s' :=
  fun epoch => by rw [h.treasury.epochs]

/-- The amounts that claims and accruals read from the row. -/
theorem withoutNextUnlock_amounts {row row' : TreasuryRow}
    (h : row.withoutNextUnlock = row'.withoutNextUnlock) :
    row.totalAccumulated = row'.totalAccumulated ∧ row.totalClaimed = row'.totalClaimed ∧
      row.lockedBalance = row'.lockedBalance ∧ row.unlockedBalance = row'.unlockedBalance := by
  simp only [TreasuryRow.withoutNextUnlock, TreasuryRow.mk.injEq] at h
  exact ⟨h.1, h.2.1, h.2.2.1, h.2.2.2.1⟩

/-- Neither node has a row, or both have and the rows agree. -/
theorem SameTables.row_cases {t t' : TreasuryTables} (h : SameTables t t') :
    (t.treasury = none ∧ t'.treasury = none) ∨
      ∃ row row', t.treasury = some row ∧ t'.treasury = some row' ∧
        row.withoutNextUnlock = row'.withoutNextUnlock := by
  have hrow := h.row
  cases hr : t.treasury with
  | none =>
    rw [hr, Option.map_none, eq_comm, Option.map_eq_none_iff] at hrow
    exact .inl ⟨rfl, hrow⟩
  | some row =>
    rw [hr, Option.map_some, eq_comm, Option.map_eq_some_iff] at hrow
    obtain ⟨row', hr', heq⟩ := hrow
    exact .inr ⟨row, row', rfl, hr', heq.symm⟩

theorem SameTables.treasuryRow {t t' : TreasuryTables} (h : SameTables t t') (cfg : Config)
    (now now' : Instant) :
    (Picoin.treasuryRow cfg now t).withoutNextUnlock =
      (Picoin.treasuryRow cfg now' t').withoutNextUnlock := by
  unfold Picoin.treasuryRow
  rcases h.row_cases with ⟨hr, hr'⟩ | ⟨row, row', hr, hr', hrow⟩ <;> rw [hr, hr']
  · rfl
  · simp only [TreasuryRow.withoutNextUnlock, TreasuryRow.mk.injEq] at hrow ⊢
    simp only [hrow, and_self]

/-! ## Claims -/

theorem SameTables.unlock {t t' : TreasuryTables} (h : SameTables t t') (nowDt : Instant) :
    SameTables (unlockMaturedEpochs nowDt t) (unlockMaturedEpochs nowDt t') := by
  unfold unlockMaturedEpochs
  dsimp only
  rw [h.epochs]
  by_cases hpos : 0 < maturedTotal nowDt t'.epochs
  · rw [if_pos hpos, if_pos hpos]
    refine ⟨?_, rfl, h.claims⟩
    rcases h.row_cases with ⟨hr, hr'⟩ | ⟨row, row', hr, hr', hrow⟩
    · simp only [hr, hr', Option.map_none]
    · simp only [hr, hr', Option.map_some, Option.some.injEq, TreasuryRow.withoutNextUnlock,
        TreasuryRow.mk.injEq] at hrow ⊢
      simp only [hrow, and_self]
  · rw [if_neg hpos, if_neg hpos]
    exact ⟨h.row, rfl, h.claims⟩

theorem SameTables.withTreasuryRow {t t' : TreasuryTables} (h : SameTables t t') (cfg : Config)
    (now now' : Instant) :
    SameTables (Picoin.withTreasuryRow cfg now t) (Picoin.withTreasuryRow cfg now' t') := by
  refine ⟨?_, h.epochs, h.claims⟩
  unfold Picoin.withTreasuryRow
  rcases h.row_cases with ⟨hr, hr'⟩ | ⟨row, row', hr, hr', hrow⟩ <;> simp only [hr, hr']
  · rfl
  · simpa using hrow

/-- A claim at one timestamp raises on both nodes or on neither, and pays out the same amount. -/
theorem claim_agree {cfg : Config} {now now' : Instant} {t t' : TreasuryTables} {l l' : Ledger}
    (ht : SameTables t t') (hl : SameBalances l l') (requestedBy claimTo : Option String)
    (claimId : String) (nowDt : Instant) :
    Agree (fun r r' : TreasuryTables × Ledger => SameTables r.1 r'.1 ∧ SameBalances r.2 r'.2)
      (claimScientificDevelopmentTreasuryInConnection cfg now t l requestedBy claimTo claimId nowDt)
      (claimScientificDevelopmentTreasuryInConnection cfg now' t' l' requestedBy claimTo claimId
        nowDt) := by
  unfold claimScientificDevelopmentTreasuryInConnection
  refine (Agree.rfl_eq (checkClaimAddresses cfg requestedBy claimTo)).bind ?_
  rintro requester _ - - rfl
  have hunlocked := ht.unlock nowDt
  have hrow := hunlocked.treasuryRow cfg now now'
  have hamount := (withoutNextUnlock_amounts hrow).2.2.2
  dsimp only
  rw [hamount, hl.balance treasuryAccountId, hunlocked.claims, hunlocked.epochs]
  by_cases hzero : (treasuryRow cfg now' (unlockMaturedEpochs nowDt t')).unlockedBalance ≤ 0
  · rw [if_pos hzero, if_pos hzero]
    exact Agree.error _ _
  rw [if_neg hzero, if_neg hzero]
  by_cases hlow : l'.balance treasuryAccountId <
      (treasuryRow cfg now' (unlockMaturedEpochs nowDt t')).unlockedBalance
  · rw [if_pos hlow, if_pos hlow]
    exact Agree.error _ _
  rw [if_neg hlow, if_neg hlow]
  refine (applyLedgerEntry_agree hl rfl rfl).bind fun l₁ l₁' _ _ hl₁ => ?_
  refine (applyLedgerEntry_agree hl₁ rfl rfl).bind fun l₂ l₂' _ _ hl₂ => ?_
  split
  · exact Agree.error _ _
  · refine Agree.ok ⟨⟨?_, rfl, rfl⟩, hl₂⟩
    simp only [TreasuryRow.withoutNextUnlock, TreasuryRow.mk.injEq] at hrow
    simp only [Option.map_some, TreasuryRow.withoutNextUnlock, hrow]

theorem treasuryErrorAsExecution_agree {α β : Type} {R : α → β → Prop} {x : Except ExecError α}
    {y : Except ExecError β} (h : Agree R x y) :
    Agree R (treasuryErrorAsExecution x) (treasuryErrorAsExecution y) := by
  rw [agree_iff] at h ⊢
  simp only [treasuryErrorAsExecution_eq_ok]
  exact h

theorem applyTreasuryClaimTransaction_agree {cfg : Config} {now now' : Instant}
    {t t' : TreasuryTables} {l l' : Ledger} (ht : SameTables t t') (hl : SameBalances l l')
    (ctx : BlockContext) (tx : Tx) :
    Agree (fun r r' : Ledger × TreasuryTables => SameBalances r.1 r'.1 ∧ SameTables r.2 r'.2)
      (applyTreasuryClaimTransaction cfg now ctx l t tx)
      (applyTreasuryClaimTransaction cfg now' ctx l' t' tx) := by
  unfold applyTreasuryClaimTransaction
  dsimp only
  refine (applyFeeDebit_agree hl ctx tx _ _ _).bind fun l₁ l₁' _ _ hl₁ => ?_
  have htables := ht.withTreasuryRow cfg now now'
  refine (treasuryErrorAsExecution_agree (claim_agree htables hl₁ _ _ _ _)).bind ?_
  rintro ⟨t₂, l₂⟩ ⟨t₂', l₂'⟩ - - ⟨ht₂, hl₂⟩
  exact Agree.ok ⟨hl₂, ht₂⟩

/-- The check of a claim does not depend on the clock. -/
theorem treasuryClaimRejectionReason_agree {s s' : NodeState} (h : SameChain s s') (cfg : Config)
    (now now' : Instant) (tx : Tx) :
    treasuryClaimRejectionReason cfg now s tx = none ↔
      treasuryClaimRejectionReason cfg now' s' tx = none := by
  have hamount := (withoutNextUnlock_amounts (h.treasury.treasuryRow cfg now now')).2.2.2
  unfold treasuryClaimRejectionReason
  dsimp only
  rw [hamount, h.treasury.epochs, h.treasury.claims, h.balances.balance treasuryAccountId]
  split
  · simp
  split
  · simp
  split
  · -- only the texts differ
    simp
  · rfl

theorem transactionRejectionReason_agree {s s' : NodeState} (h : SameChain s s') {cfg : Config}
    {now now' : Instant} {tx : Tx} (htx : tx.txType = .treasuryClaim) (expected : ExpectedNonces)
    (reserved : List Instant) (gap missing : Bool) :
    transactionRejectionReason cfg now s tx expected reserved gap missing = none ↔
      transactionRejectionReason cfg now' s' tx expected reserved gap missing = none := by
  have hexpected : expectedNonce s expected tx.sender = expectedNonce s' expected tx.sender := by
    unfold expectedNonce nextSelectableNonce confirmedNonce
    rw [h.nonces, h.mempool]
  have hkind : kindRejectionReason cfg now s tx reserved missing = none ↔
      kindRejectionReason cfg now' s' tx reserved missing = none := by
    simp only [kindRejectionReason, htx]
    exact treasuryClaimRejectionReason_agree h cfg now now' tx
  rw [transactionRejectionReason_eq_none, transactionRejectionReason_eq_none, hexpected,
    h.balances tx.sender, hkind]

theorem executeTransaction_agree {s s' : NodeState} (h : SameChain s s') {cfg : Config}
    {now now' : Instant} {tx : Tx} (htx : tx.txType = .treasuryClaim) (ctx : BlockContext) :
    Agree SameChain (executeTransaction cfg now ctx s tx) (executeTransaction cfg now' ctx s' tx) := by
  simp only [executeTransaction, htx]
  refine (applyTreasuryClaimTransaction_agree h.treasury h.balances ctx tx).bind ?_
  rintro ⟨l, t⟩ ⟨l', t'⟩ - - ⟨hl, ht⟩
  exact Agree.ok ⟨hl, h.nonces, h.mempool, ht⟩

theorem settleTransaction_agree {s s' : NodeState} (h : SameChain s s') (ctx : BlockContext)
    (tx : Tx) : Agree SameChain (settleTransaction ctx s tx) (settleTransaction ctx s' tx) := by
  refine (applyFeeReward_agree h.balances ctx tx).bind fun l l' _ _ hl => ?_
  refine Agree.ok ⟨hl, ?_, ?_, h.treasury⟩
  · exact congrArg (recordConfirmedNonce · tx.sender tx.nonce) h.nonces
  · simp only [h.mempool]

/-- The claims of a block raise on both nodes or on neither, whatever the clocks. -/
theorem applyBlockTransactions_agree {s s' : NodeState} (h : SameChain s s') (cfg : Config)
    (now now' : Instant) (block : TreasuryBlock) :
    Agree SameChain (applyBlockTransactions cfg now block.ctx s block.claims)
      (applyBlockTransactions cfg now' block.ctx s' block.claims) := by
  unfold applyBlockTransactions
  have hloop : Agree (fun b b' : BlockProgress => SameChain b.state b'.state ∧
      b.expected = b'.expected)
      (block.claims.foldlM (applyBlockTransaction cfg now block.ctx) ⟨s, fun _ => none⟩)
      (block.claims.foldlM (applyBlockTransaction cfg now' block.ctx) ⟨s', fun _ => none⟩) := by
    refine Agree.foldlM _ (fun tx htx b b' hb => ?_) _ _ ⟨h, rfl⟩
    obtain ⟨hstate, hexpected⟩ := hb
    have hclaim := block.isClaim tx htx
    unfold applyBlockTransaction applyCheckedTransaction
    rw [hexpected]
    refine (Agree.guardNone ?_).bind fun _ _ _ _ _ => ?_
    · rw [Option.map_eq_none_iff, Option.map_eq_none_iff]
      exact transactionRejectionReason_agree hstate hclaim ..
    refine (executeTransaction_agree hstate hclaim block.ctx).bind fun s₁ s₁' _ _ h₁ => ?_
    refine (settleTransaction_agree h₁ block.ctx tx).bind fun s₂ s₂' _ _ h₂ => ?_
    exact Agree.ok ⟨h₂, rfl⟩
  exact hloop.bind fun b b' _ _ hb => Agree.ok hb.1

/-- Claims neither add nor remove epochs. -/
theorem isSome_epoch_of_execute {cfg : Config} {now : Instant} {ctx : BlockContext}
    {s s' : NodeState} {tx : Tx} (htx : tx.txType = .treasuryClaim)
    (h : executeTransaction cfg now ctx s tx = .ok s') (epoch : String) :
    (s'.treasury.epochs.find? epoch).isSome = (s.treasury.epochs.find? epoch).isSome := by
  simp only [executeTransaction, htx] at h
  obtain ⟨⟨l, t⟩, hclaim, h⟩ := bind_eq_ok.mp h
  cases h
  obtain ⟨l₁, -, hclaim⟩ := bind_eq_ok.mp hclaim
  obtain ⟨⟨t₂, l₂⟩, hclaim, h⟩ := bind_eq_ok.mp hclaim
  cases h
  obtain ⟨-, -, -, _, -, -, ht₂⟩ := claim_eq_ok (treasuryErrorAsExecution_eq_ok.mp hclaim)
  subst ht₂
  simp only [epochs_unlock, Sql.Table.find?_mapRows, Option.isSome_map]

theorem isSome_epoch_of_block {cfg : Config} {now : Instant} {s s' : NodeState}
    {block : TreasuryBlock}
    (h : applyBlockTransactions cfg now block.ctx s block.claims = .ok s') (epoch : String) :
    (s'.treasury.epochs.find? epoch).isSome = (s.treasury.epochs.find? epoch).isSome := by
  obtain ⟨b, hloop, rfl⟩ := applyBlockTransactions_eq_ok.mp h
  refine foldlM_invariant (fun b : BlockProgress =>
    (b.state.treasury.epochs.find? epoch).isSome = (s.treasury.epochs.find? epoch).isSome)
    block.claims (fun tx htx b b' hb hstep => ?_) _ b rfl hloop
  obtain ⟨-, s₁, hexecute, hsettle, -⟩ := applyBlockTransaction_eq_ok hstep
  obtain ⟨l, -, hsettle⟩ := bind_eq_ok.mp hsettle
  rw [← hb, ← isSome_epoch_of_execute (block.isClaim tx htx) hexecute, ← Except.ok.inj hsettle]

/-! ## Accrual -/

/-- What a block's reward accrues to the treasury. -/
def TreasuryBlock.accruedUnits (cfg : Config) (block : TreasuryBlock) : ℤ :=
  scientificDevelopmentUnitsFromTotal cfg (unitsOf block.reward)

/-- The condition on the clocks of two nodes at a block that is accepted and accrues: both show the
same quarter, and they show the same instant if it is the first accrual of that quarter. -/
def TreasuryBlock.ClocksAgree (cfg : Config) (s : NodeState) (block : TreasuryBlock)
    (now now' : Instant) : Prop :=
  block.Accepted cfg now s → 0 < block.accruedUnits cfg →
    quarterEpoch now = quarterEpoch now' ∧
      ((s.treasury.epochs.find? (quarterEpoch now)).isSome ∨ now = now')

/-- Whether an accrual raises does not depend on the clock. -/
theorem record_raises_agree {cfg : Config} {now now' : Instant} {t t' : TreasuryTables}
    {l l' : Ledger} (hl : SameBalances l l') (blockHeight blockReward : ℤ) :
    Agree (fun r r' : TreasuryTables × Ledger => SameBalances r.2 r'.2)
      (recordScientificDevelopmentTreasuryForBlock cfg now t l blockHeight blockReward)
      (recordScientificDevelopmentTreasuryForBlock cfg now' t' l' blockHeight blockReward) := by
  unfold recordScientificDevelopmentTreasuryForBlock
  dsimp only
  split
  · exact Agree.ok hl
  · refine Agree.bind (applyLedgerEntry_agree hl ?_ ?_) fun _ _ _ _ hl₁ => ?_
    · rfl
    · rfl
    · exact Agree.ok hl₁

/-- With agreeing clocks an accrual keeps the tables the same. -/
theorem record_agree {cfg : Config} {now now' : Instant} {t t' : TreasuryTables} {l l' : Ledger}
    (ht : SameTables t t') (hl : SameBalances l l') (blockHeight : ℤ) {blockReward : ℤ}
    (hclock : 0 < scientificDevelopmentUnitsFromTotal cfg (unitsOf blockReward) →
      quarterEpoch now = quarterEpoch now' ∧
        ((t.epochs.find? (quarterEpoch now)).isSome ∨ now = now')) :
    Agree (fun r r' : TreasuryTables × Ledger => SameTables r.1 r'.1 ∧ SameBalances r.2 r'.2)
      (recordScientificDevelopmentTreasuryForBlock cfg now t l blockHeight blockReward)
      (recordScientificDevelopmentTreasuryForBlock cfg now' t' l' blockHeight blockReward) := by
  have hrow := ht.treasuryRow cfg now now'
  unfold recordScientificDevelopmentTreasuryForBlock
  dsimp only
  by_cases hzero : scientificDevelopmentUnitsFromTotal cfg (unitsOf blockReward) ≤ 0
  · rw [if_pos hzero, if_pos hzero]
    exact Agree.ok ⟨ht, hl⟩
  rw [if_neg hzero, if_neg hzero]
  obtain ⟨hquarter, hunlock⟩ := hclock (not_le.mp hzero)
  rw [← hquarter, ← ht.epochs]
  -- the quarter's epoch exists already, or both nodes insert the same one
  have hepochs : t.epochs.insertNew (quarterEpoch now)
      (newEpochRow blockHeight (now' + days scientificDevelopmentUnlockIntervalDays)) =
      t.epochs.insertNew (quarterEpoch now)
        (newEpochRow blockHeight (now + days scientificDevelopmentUnlockIntervalDays)) := by
    rcases hunlock with hsome | heq
    · obtain ⟨e, he⟩ := Option.isSome_iff_exists.mp hsome
      rw [Sql.Table.insertNew_of_some he, Sql.Table.insertNew_of_some he]
    · rw [heq]
  have hfind := Sql.Table.find?_insertNew t.epochs (quarterEpoch now) (quarterEpoch now)
    (newEpochRow blockHeight (now + days scientificDevelopmentUnlockIntervalDays))
  rw [if_pos rfl] at hfind
  refine Agree.bind (applyLedgerEntry_agree hl ?_ ?_) fun l₁ l₁' _ _ hl₁ => ?_
  · rfl
  · rfl
  refine Agree.ok ⟨⟨?_, ?_, ht.claims⟩, hl₁⟩
  · simp only [TreasuryRow.withoutNextUnlock, TreasuryRow.mk.injEq] at hrow
    simp only [Option.map_some, TreasuryRow.withoutNextUnlock, hepochs, hfind, Option.getD_some,
      hrow]
  · simp only [hepochs]

/-! ## Whole blocks -/

theorem SameChain.withTreasury {s s' : NodeState} (h : SameChain s s') {t t' : TreasuryTables}
    {l l' : Ledger} (ht : SameTables t t') (hl : SameBalances l l') :
    SameChain { s with treasury := t, ledger := l } { s' with treasury := t', ledger := l' } :=
  ⟨hl, h.nonces, h.mempool, ht⟩

/-- Both nodes accept the block or neither does. -/
theorem accepted_iff {s s' : NodeState} (h : SameChain s s') (cfg : Config) (now now' : Instant)
    (block : TreasuryBlock) : block.Accepted cfg now s ↔ block.Accepted cfg now' s' := by
  have hagree : Agree (fun _ _ => True) (block.execute cfg now s) (block.execute cfg now' s') := by
    refine (applyBlockTransactions_agree h cfg now now' block).bind fun s₁ s₁' _ _ h₁ => ?_
    refine (record_raises_agree h₁.balances _ _).bind fun _ _ _ _ _ => ?_
    exact Agree.ok trivial
  exact hagree.ok_iff

/-- From related nodes, agreeing clocks lead to related nodes. -/
theorem SameChain.step {s s' : NodeState} (h : SameChain s s') {cfg : Config} {now now' : Instant}
    {block : TreasuryBlock} (hclock : block.ClocksAgree cfg s now now') :
    SameChain (block.step cfg now s) (block.step cfg now' s') := by
  by_cases haccepted : block.Accepted cfg now s
  · have hclock := hclock haccepted
    have hagree : Agree SameChain (block.execute cfg now s) (block.execute cfg now' s') := by
      refine (applyBlockTransactions_agree h cfg now now' block).bind fun s₁ s₁' hs₁ _ h₁ => ?_
      rw [← isSome_epoch_of_block hs₁] at hclock
      refine (record_agree h₁.treasury h₁.balances _ hclock).bind ?_
      rintro ⟨t, l⟩ ⟨t', l'⟩ - - ⟨ht, hl⟩
      exact Agree.ok (h₁.withTreasury ht hl)
    obtain ⟨s₁, hs₁⟩ := haccepted
    obtain ⟨s₁', hs₁'⟩ := hagree.ok_iff.mp ⟨s₁, hs₁⟩
    unfold TreasuryBlock.step
    rw [hs₁, hs₁']
    exact hagree.of_ok hs₁ hs₁'
  · -- a rejected block changes neither node
    have hrejected := mt (accepted_iff h cfg now now' block).mpr haccepted
    unfold TreasuryBlock.step attempt
    split
    · next s₁ hs₁ => exact absurd ⟨s₁, hs₁⟩ haccepted
    · split
      · next s₁' hs₁' => exact absurd ⟨s₁', hs₁'⟩ hrejected
      · exact h

theorem find?_accruedEpochs (epochs : Sql.Table String EpochRow) (now : Instant)
    (blockHeight amount : ℤ) (epoch : String) :
    (accruedEpochs epochs now blockHeight amount).find? epoch =
      if epoch = quarterEpoch now then
        some (EpochRow.accrue amount blockHeight ((epochs.find? epoch).getD
          (newEpochRow blockHeight (now + days scientificDevelopmentUnlockIntervalDays))))
      else epochs.find? epoch := by
  rw [accruedEpochs, Sql.Table.find?_modify, Sql.Table.find?_insertNew, Sql.Table.find?_insertNew]
  by_cases h : epoch = quarterEpoch now
  · subst h
    simp
  · rw [if_neg h, if_neg h, if_neg h]

/-- Accruals that leave the treasuries the same went to one quarter, and to an epoch that existed
unless the clocks show one instant. -/
theorem clocks_of_accruedEpochs {epochs : Sql.Table String EpochRow} {now now' : Instant}
    {blockHeight amount : ℤ} (hpos : 0 < amount)
    (h : ∀ epoch, ((accruedEpochs epochs now blockHeight amount).find? epoch).map EpochRow.holdings =
      ((accruedEpochs epochs now' blockHeight amount).find? epoch).map EpochRow.holdings) :
    quarterEpoch now = quarterEpoch now' ∧
      ((epochs.find? (quarterEpoch now)).isSome ∨ now = now') := by
  have hat := h (quarterEpoch now)
  rw [find?_accruedEpochs, find?_accruedEpochs, if_pos rfl] at hat
  have hquarter : quarterEpoch now = quarterEpoch now' := by
    by_contra hne
    rw [if_neg hne] at hat
    -- the other node's epoch lacks the accrued amount
    cases hfind : epochs.find? (quarterEpoch now) with
    | none => simp [hfind] at hat
    | some e =>
      simp only [hfind, Option.getD_some, Option.map_some, Option.some.injEq, EpochRow.holdings,
        EpochRow.accrue, Prod.mk.injEq] at hat
      omega
  refine ⟨hquarter, ?_⟩
  rw [if_pos hquarter] at hat
  cases hfind : epochs.find? (quarterEpoch now) with
  | some e => exact .inl rfl
  | none =>
    right
    simp only [hfind, Option.getD_none, Option.map_some, Option.some.injEq, EpochRow.holdings,
      EpochRow.accrue, newEpochRow, Prod.mk.injEq, true_and] at hat
    exact add_right_cancel hat

/-- Related nodes with the same treasury after a block had agreeing clocks. -/
theorem clocksAgree_of_sameTreasury {s s' : NodeState} (h : SameChain s s') {cfg : Config}
    {now now' : Instant} {block : TreasuryBlock}
    (hsame : SameTreasury (block.step cfg now s) (block.step cfg now' s')) :
    block.ClocksAgree cfg s now now' := by
  rintro ⟨s₂, hs₂⟩ hpos
  obtain ⟨s₂', hs₂'⟩ := (accepted_iff h cfg now now' block).mp ⟨s₂, hs₂⟩
  unfold TreasuryBlock.step at hsame
  rw [hs₂, hs₂'] at hsame
  obtain ⟨s₁, hs₁, hrest⟩ := bind_eq_ok.mp hs₂
  obtain ⟨⟨t, l⟩, hrecord, hresult⟩ := bind_eq_ok.mp hrest
  obtain ⟨s₁', hs₁', hrest'⟩ := bind_eq_ok.mp hs₂'
  obtain ⟨⟨t', l'⟩, hrecord', hresult'⟩ := bind_eq_ok.mp hrest'
  cases hresult
  cases hresult'
  have h₁ : SameChain s₁ s₁' := (applyBlockTransactions_agree h cfg now now' block).of_ok hs₁ hs₁'
  have hepochs : t.epochs = accruedEpochs s₁.treasury.epochs now block.ctx.blockHeight
      (unitsToFloat (block.accruedUnits cfg)) := by
    rcases record_eq_ok hrecord with ⟨hzero, -⟩ | ⟨-, -, hepochs, -⟩
    · exact absurd hpos (not_lt.mpr hzero)
    · exact hepochs
  have hepochs' : t'.epochs = accruedEpochs s₁.treasury.epochs now' block.ctx.blockHeight
      (unitsToFloat (block.accruedUnits cfg)) := by
    rcases record_eq_ok hrecord' with ⟨hzero, -⟩ | ⟨-, -, hepochs, -⟩
    · exact absurd hpos (not_lt.mpr hzero)
    · rw [h₁.treasury.epochs]
      exact hepochs
  have hat : ∀ epoch, (t.epochs.find? epoch).map EpochRow.holdings =
      (t'.epochs.find? epoch).map EpochRow.holdings := hsame
  rw [hepochs, hepochs'] at hat
  rw [← isSome_epoch_of_block hs₁]
  exact clocks_of_accruedEpochs (unitsToFloat_pos_iff.mpr hpos) hat

/-! ## Sequences of blocks -/

/-- The condition at every block of a sequence, in the state that the first node is in. -/
def ClocksAgree (cfg : Config) : NodeState → List (TreasuryBlock × Instant × Instant) → Prop
  | _, [] => True
  | s, (block, now, now') :: rest =>
    block.ClocksAgree cfg s now now' ∧ ClocksAgree cfg (block.step cfg now s) rest

/-- **The treasury and the clock.** Two nodes that start from related states and execute the same
blocks have the same treasury all along and accept the same blocks iff their clocks agree at every
block. -/
theorem treasury_determined_iff {cfg : Config} {s s' : NodeState}
    {blocks : List (TreasuryBlock × Instant × Instant)} (h : SameChain s s') :
    TreasuryDetermined cfg s s' blocks ↔ ClocksAgree cfg s blocks := by
  induction blocks generalizing s s' with
  | nil => exact iff_of_true h.sameTreasury trivial
  | cons entry rest ih =>
    obtain ⟨block, now, now'⟩ := entry
    constructor
    · rintro ⟨-, -, hrest⟩
      -- the rest begins with the treasuries after this block
      have hsame : SameTreasury (block.step cfg now s) (block.step cfg now' s') := by
        cases rest with
        | nil => exact hrest
        | cons entry rest => exact hrest.1
      have hclock := clocksAgree_of_sameTreasury h hsame
      exact ⟨hclock, (ih (h.step hclock)).mp hrest⟩
    · rintro ⟨hclock, hrest⟩
      exact ⟨h.sameTreasury, accepted_iff h cfg now now' block, (ih (h.step hclock)).mpr hrest⟩

/-! ## A block that one node executes later -/

/-- A block of the first day of the quarter, with a reward of 1000 coins. -/
def rewardBlock : TreasuryBlock where
  ctx := localBlock 1 quarterStart true
  reward := 1000 * 10 ^ 8
  claims := []
  isClaim := by simp

/-- A claim by the governance wallet. -/
def governanceClaim (at' : Instant) : Tx :=
  signTransaction localConfig (aliceRequest .treasuryClaim 1 0 0 none {} (.ofInstant at'))

/-- A block with the claim, 91 days later and still in the quarter. -/
def claimBlock : TreasuryBlock where
  ctx := localBlock 2 (quarterStart + days 91) true
  reward := 1000 * 10 ^ 8
  claims := [governanceClaim (quarterStart + days 91)]
  isClaim := by simp [governanceClaim, signTransaction, SigningRequest.unhashed, aliceRequest]

theorem SameChain.refl (s : NodeState) : SameChain s s := ⟨.refl _, rfl, rfl, rfl, rfl, rfl⟩

/-- The claim block executes iff it executes without its signature check. -/
theorem accepted_claimBlock_iff (now : Instant) (s : NodeState) :
    claimBlock.Accepted localConfig now s ↔
      returns (do
        let s ← applySignedTransactions localConfig now claimBlock.ctx s claimBlock.claims
        recordScientificDevelopmentTreasuryForBlock localConfig now s.treasury s.ledger 2
          claimBlock.reward) (fun _ => true) = true := by
  have hsigned : ∀ tx ∈ claimBlock.claims, isSignatureValid localConfig tx = true := by
    simp [claimBlock, governanceClaim, isSignatureValid_aliceRequest]
  rw [← applyBlockTransactions_of_signed hsigned, ← exists_ok_iff_returns]
  unfold TreasuryBlock.Accepted TreasuryBlock.execute
  simp only [bind_eq_ok, pure_eq_ok]
  constructor
  · rintro ⟨_, s₁, hs₁, r, hr, -⟩
    exact ⟨r, s₁, hs₁, hr⟩
  · rintro ⟨r, s₁, hs₁, hr⟩
    exact ⟨_, s₁, hs₁, r, hr, rfl⟩

/-- A node that executes the blocks when they are made accepts the claim. A node that executes them
100 days later has locked the reward in the next quarter, and rejects it. -/
theorem late_node_rejects_claim :
    ¬TreasuryDetermined localConfig (localNode []) (localNode [])
      [(rewardBlock, quarterStart, quarterStart + days 100),
        (claimBlock, quarterStart + days 91, quarterStart + days 191)] := by
  rintro ⟨-, -, -, haccepted, -⟩
  rw [accepted_claimBlock_iff, accepted_claimBlock_iff] at haccepted
  revert haccepted
  decide +kernel

/-- Clocks that show one instant at the first block and one quarter at the second agree. -/
theorem treasury_determined_same_quarter :
    TreasuryDetermined localConfig (localNode []) (localNode [])
      [(rewardBlock, quarterStart, quarterStart),
        (claimBlock, quarterStart + days 91, quarterStart + days 91 + seconds 5)] := by
  have hexists : ((rewardBlock.step localConfig quarterStart (localNode [])).treasury.epochs.find?
      (quarterEpoch (quarterStart + days 91))).isSome = true := by decide +kernel
  have hquarter : quarterEpoch (quarterStart + days 91) =
      quarterEpoch (quarterStart + days 91 + seconds 5) := by decide +kernel
  refine (treasury_determined_iff (.refl _)).mpr ⟨fun _ _ => ⟨rfl, .inr rfl⟩, fun _ _ => ?_, trivial⟩
  exact ⟨hquarter, .inl hexists⟩

end Picoin
