import Picoin.Proofs.Postings

/-!
# Conservation of coins

The postings of an executed transaction add up to zero: every handler debits what it credits, and
the miner's fee is what the sender was debited beyond that. By induction over the block, execution
keeps the sum of all balances.
-/

namespace Picoin

open Outcome

/-! ## One transaction -/

/-- A fee that is debited on its own is the fee the miner gets. -/
theorem posted_feeDebit_add_feeReward (ctx : BlockContext) (tx : Tx) (entryType description : String) :
    posted (feeDebitPostings ctx tx (txFee tx) entryType description) +
      posted (feeRewardPostings ctx tx) = 0 := by
  unfold feeDebitPostings feeRewardPostings
  by_cases h : 0 < txFee tx
  · rw [if_pos h, if_neg (not_le.mpr h)]
    simp [BlockContext.posting]
  · rw [if_neg h, if_pos (not_lt.mp h)]
    rfl

/-- What the miner's fee adds, for a decoded transaction. -/
theorem posted_feeReward (ctx : BlockContext) {tx : Tx} (htx : tx.Decoded) (hfee : 0 ≤ txFeeUnits tx) :
    posted (feeRewardPostings ctx tx) = txFeeUnits tx := by
  unfold feeRewardPostings
  rw [htx.txFee_eq]
  by_cases h : 0 < txFeeUnits tx
  · rw [if_neg (not_le.mpr (unitsToFloat_pos_iff.mpr h))]
    simp [BlockContext.posting]
  · have h0 : txFeeUnits tx = 0 := by omega
    rw [h0, if_pos (by simp)]
    rfl

/-- A debit of amount and fee with a credit of the amount leaves minus the fee. -/
theorem posted_debit_credit (ctx : BlockContext) {tx : Tx} (htx : tx.Decoded)
    (a b ta tb ea eb da db : String) :
    posted [ctx.posting tx a ta (-(txAmount tx + txFee tx)) ea da,
      ctx.posting tx b tb (txAmount tx) eb db] = -txFeeUnits tx := by
  simp only [BlockContext.posting, posted_cons, posted_nil, htx.txAmount_eq, htx.txFee_eq,
    unitsToFloat_add, unitsOf_neg, unitsOf_unitsToFloat]
  ring

/-- A credit and a debit of one amount cancel. -/
theorem posted_opposite (ctx : BlockContext) (tx : Tx) (amount : ℤ) (a b ta tb ea eb da db : String) :
    posted [ctx.posting tx a ta (-amount) ea da, ctx.posting tx b tb amount eb db] = 0 := by
  simp [BlockContext.posting]

/-- The two legs of a treasury claim cancel. -/
theorem posted_claimPostings (cfg : Config) (amount : ℤ) (claimId : String) (now : Instant) :
    posted [(claimPostings cfg amount claimId now).1, (claimPostings cfg amount claimId now).2] =
      0 := by
  simp [claimPostings]

/-- The postings of a transaction that passes the checks add up to zero. -/
theorem posted_transactionPostings {cfg : Config} {now : Instant} {ctx : BlockContext}
    {s : NodeState} {tx : Tx} {expected : ExpectedNonces} {reserved : List Instant}
    {gap missing : Bool} (htx : tx.Decoded)
    (hpass : transactionRejectionReason cfg now s tx expected reserved gap missing = none) :
    posted (transactionPostings cfg now ctx s tx) = 0 := by
  obtain ⟨hsupported, -, hfee, -, -, hkind⟩ := transactionRejectionReason_eq_none.mp hpass
  have hreward := posted_feeReward ctx htx hfee
  have hpair := posted_feeDebit_add_feeReward ctx tx
  unfold kindRejectionReason at hkind
  unfold transactionPostings kindPostings
  rw [posted_append]
  cases htype : tx.txType <;> simp only [htype] at hkind hsupported ⊢
  case transfer =>
    rw [transferPostings, posted_debit_credit ctx htx, hreward, neg_add_cancel]
  case stake =>
    split
    · rw [validatorStakePostings, ← unitsToFloat_add, ← htx.txAmount_eq, ← htx.txFee_eq,
        posted_debit_credit ctx htx, hreward, neg_add_cancel]
    · rw [scienceStakePostings, posted_debit_credit ctx htx, hreward, neg_add_cancel]
  case unstake =>
    split
    · rw [validatorUnstakePostings, posted_append, posted_opposite, add_zero, ← htx.txFee_eq,
        hpair]
    · rw [scienceUnstakePostings, posted_append, posted_opposite, add_zero, hpair]
  case scienceJobCreate => exact hpair _ _
  case governanceAction => exact hpair _ _
  case treasuryClaim =>
    rw [treasuryClaimPostings, posted_append, posted_claimPostings, add_zero, hpair]
  case faucet =>
    have hfree : feeRewardPostings ctx tx = [] :=
      if_pos (faucetRejectionReason_eq_none hkind).2.1.le
    rw [faucetPostings, posted_opposite, hfree, posted_nil, add_zero]
  case unsupported => cases hsupported

/-! ## A block -/

/-- `l'` is `l` after postings that add up to zero. -/
def Balanced (l l' : Ledger) : Prop := ∃ ps, Posts l l' ps ∧ posted ps = 0

theorem Balanced.refl (l : Ledger) : Balanced l l := ⟨[], .refl l, rfl⟩

theorem Balanced.trans {l₁ l₂ l₃ : Ledger} (h : Balanced l₁ l₂) (h' : Balanced l₂ l₃) :
    Balanced l₁ l₃ := by
  obtain ⟨ps, hps, hz⟩ := h
  obtain ⟨qs, hqs, hz'⟩ := h'
  exact ⟨ps ++ qs, hps.trans hqs, by rw [posted_append, hz, hz', add_zero]⟩

theorem applyBlockTransaction_balanced {cfg : Config} {now : Instant} {ctx : BlockContext}
    {b b' : BlockProgress} {tx : Tx} (htx : tx.Decoded)
    (h : applyBlockTransaction cfg now ctx b tx = .ok b') :
    Balanced b.state.ledger b'.state.ledger :=
  ⟨_, applyBlockTransaction_posts h,
    posted_transactionPostings htx (applyBlockTransaction_eq_ok h).1⟩

theorem applyBlockTransactions_balanced {cfg : Config} {now : Instant} {ctx : BlockContext}
    {s s' : NodeState} {transactions : List Tx} (hdecoded : ∀ tx ∈ transactions, tx.Decoded)
    (h : applyBlockTransactions cfg now ctx s transactions = .ok s') :
    Balanced s.ledger s'.ledger := by
  obtain ⟨b, hloop, rfl⟩ := applyBlockTransactions_eq_ok.mp h
  exact foldlM_relates (fun b b' : BlockProgress => Balanced b.state.ledger b'.state.ledger)
    (fun b => .refl b.state.ledger) (fun h h' => h.trans h')
    (fun tx htx _ _ hstep => applyBlockTransaction_balanced (hdecoded tx htx) hstep) hloop

/-- **Conservation.** Amounts being exact decimals, a block of decoded transactions that executes
keeps the sum of all balances, keeps every balance non-negative, and changes every balance by the
entries it appends for the account. -/
theorem conservation {cfg : Config} {now : Instant} {ctx : BlockContext} {s s' : NodeState}
    {transactions : List Tx} (hbalances : s.ledger.NonNegative)
    (hdecoded : ∀ tx ∈ transactions, tx.Decoded)
    (h : applyBlockTransactions cfg now ctx s transactions = .ok s') :
    s'.ledger.totalUnits = s.ledger.totalUnits ∧ s'.ledger.NonNegative ∧
      ∃ appended : List LedgerEntry, s'.ledger.entries = s.ledger.entries ++ appended ∧
        ∀ accountId, s'.ledger.balanceUnits accountId - s.ledger.balanceUnits accountId =
          ((appended.filter fun e => e.accountId = accountId).map fun e => e.amountUnits).sum := by
  obtain ⟨ps, hposts, hzero⟩ := applyBlockTransactions_balanced hdecoded h
  obtain ⟨appended, happended, hps⟩ := hposts.entries
  refine ⟨by rw [hposts.total, hzero, add_zero], hposts.nonneg hbalances, appended, happended,
    fun a => ?_⟩
  rw [hposts.balance, ← hps, add_sub_cancel_left, postedTo_entries]

end Picoin
