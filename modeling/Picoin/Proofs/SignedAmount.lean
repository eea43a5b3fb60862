import Picoin.Proofs.Postings
import Picoin.Services.LocalNode

/-!
# The signed amount and the moved amount

A transaction carries its money twice. The signature, the nonce and the balance are checked
against the units, `txAmountUnits` and `txFeeUnits`; the validator handlers move these units too.
All other handlers, and the fee of every kind, move the rounded numbers `txAmount` and `txFee`.
A transaction that comes in a block of another node is executed as it is written there, so the
two may differ.

* **`MovesSignedUnits`** — postings that move exactly the signed units;
* **`AmountsAgree`** — the condition on the transaction's own fields, and on the sender's stake
  for an unstake, under which its postings do so;
* **`amountsAgree_of_decoded`** — a transaction read back from the mempool meets the condition.
-/

namespace Picoin

open Outcome Decimal

/-! ## What postings move -/

/-- The units that the postings of one entry type move on an account. -/
def movedUnits (ps : List Posting) (entryType accountId : String) : ℤ :=
  ((ps.filter fun p => p.entryType = entryType && p.accountId = accountId).map
    Posting.amountUnits).sum

@[simp] theorem movedUnits_nil (entryType accountId : String) :
    movedUnits [] entryType accountId = 0 := rfl

@[simp] theorem movedUnits_cons (p : Posting) (ps : List Posting) (entryType accountId : String) :
    movedUnits (p :: ps) entryType accountId =
      (if p.entryType = entryType ∧ p.accountId = accountId then p.amountUnits else 0) +
        movedUnits ps entryType accountId := by
  unfold movedUnits
  by_cases h : p.entryType = entryType ∧ p.accountId = accountId
  · rw [List.filter_cons_of_pos (by simpa using h), if_pos h, List.map_cons, List.sum_cons]
  · rw [List.filter_cons_of_neg (by simpa using h), if_neg h, zero_add]

@[simp] theorem movedUnits_append (ps qs : List Posting) (entryType accountId : String) :
    movedUnits (ps ++ qs) entryType accountId =
      movedUnits ps entryType accountId + movedUnits qs entryType accountId := by
  simp [movedUnits]

/-- The units that the fee's number is worth to the miner. -/
def feeMoved (tx : Tx) : ℤ := if txFee tx ≤ 0 then 0 else unitsOf (txFee tx)

theorem movedUnits_feeReward (ctx : BlockContext) (tx : Tx) :
    movedUnits (feeRewardPostings ctx tx) "transaction_fee_reward" ctx.minerId = feeMoved tx := by
  unfold feeRewardPostings feeMoved
  split <;> simp [BlockContext.posting]

theorem movedUnits_feeReward_ne (ctx : BlockContext) (tx : Tx) {entryType : String}
    (h : "transaction_fee_reward" ≠ entryType) (accountId : String) :
    movedUnits (feeRewardPostings ctx tx) entryType accountId = 0 := by
  unfold feeRewardPostings
  split <;> simp [BlockContext.posting, h]

theorem movedUnits_feeDebit (ctx : BlockContext) (tx : Tx) (entryType description : String) :
    movedUnits (feeDebitPostings ctx tx (txFee tx) entryType description) entryType tx.sender =
      -feeMoved tx := by
  unfold feeDebitPostings feeMoved
  by_cases h : 0 < txFee tx
  · simp [BlockContext.posting, h, not_le.mpr h]
  · simp [h, not_lt.mp h]

/-- The validator unstake debits the fee's units. -/
theorem movedUnits_feeDebit_units (ctx : BlockContext) {tx : Tx} (hfee : 0 ≤ txFeeUnits tx)
    (entryType description : String) :
    movedUnits (feeDebitPostings ctx tx (unitsToFloat (txFeeUnits tx)) entryType description)
      entryType tx.sender = -txFeeUnits tx := by
  unfold feeDebitPostings
  by_cases h : 0 < unitsToFloat (txFeeUnits tx)
  · simp [BlockContext.posting, h]
  · have hzero : txFeeUnits tx = 0 := by
      rw [unitsToFloat_pos_iff] at h
      omega
    simp [hzero]

theorem movedUnits_feeDebit_ne (ctx : BlockContext) (tx : Tx) (fee : ℤ)
    {entryType other : String} (h : entryType ≠ other) (description accountId : String) :
    movedUnits (feeDebitPostings ctx tx fee entryType description) other accountId = 0 := by
  unfold feeDebitPostings
  split <;> simp [BlockContext.posting, h]

/-! ## The property and the condition -/

/-- The postings of a transaction move these units: the fee from the sender to the miner, and the
amount from the sender to the recipient or the stake. An unstake for the amount zero asks for the
whole stake back; an unstake for any other amount moves that amount back. A science job, a
governance action and a treasury claim name no amount of the sender's, only the fee. -/
def MovesSignedUnits (ctx : BlockContext) (tx : Tx) (ps : List Posting) (amount fee : ℤ) : Prop :=
  movedUnits ps "transaction_fee_reward" ctx.minerId = fee ∧
  match tx.txType with
  | .transfer =>
    movedUnits ps "transfer_debit" tx.sender = -(amount + fee) ∧
      movedUnits ps "transfer_credit" (tx.recipient.getD "") = amount
  | .stake =>
    if isValidatorStakeTx tx then
      movedUnits ps "validator_stake_debit" tx.sender = -(amount + fee) ∧
        movedUnits ps "validator_stake_lock" (validatorStakeValidatorId tx) = amount
    else
      movedUnits ps "science_stake_debit" tx.sender = -(amount + fee) ∧
        movedUnits ps "science_stake_lock" (scienceStakeAccountId tx.sender) = amount
  | .unstake =>
    if isValidatorStakeTx tx then
      movedUnits ps "validator_unstake_fee_debit" tx.sender = -fee ∧
        (amount = 0 ∨
          movedUnits ps "validator_stake_unlock" (validatorStakeValidatorId tx) = -amount ∧
            movedUnits ps "validator_unstake_credit" tx.sender = amount)
    else
      movedUnits ps "science_unstake_fee_debit" tx.sender = -fee ∧
        (amount = 0 ∨
          movedUnits ps "science_stake_unlock" (scienceStakeAccountId tx.sender) = -amount ∧
            movedUnits ps "science_unstake_credit" tx.sender = amount)
  | .scienceJobCreate => movedUnits ps "science_job_fee_debit" tx.sender = -fee
  | .governanceAction => movedUnits ps "governance_action_fee_debit" tx.sender = -fee
  | .treasuryClaim => movedUnits ps "treasury_claim_fee_debit" tx.sender = -fee
  | .faucet =>
    movedUnits ps "faucet_debit" genesisAccountId = -amount ∧
      movedUnits ps "faucet_credit" tx.sender = amount
  | .unsupported _ => True

/-- Execution appended entries that move the units of the payload with the transaction's hash,
which the signature was verified over. -/
def ExecutesSignedAmounts (cfg : Config) (ctx : BlockContext) (l l' : Ledger) (tx : Tx) : Prop :=
  ∃ (p : UnsignedPayload) (es : List LedgerEntry),
    signedPayload cfg tx = some p ∧ transactionHash cfg p tx.publicKey = tx.txHash ∧
      cfg.verifyPayloadSignature tx.publicKey p.toJson tx.signature = true ∧
      l'.entries = l.entries ++ es ∧
      MovesSignedUnits ctx tx (es.map LedgerEntry.toPosting) p.amountUnits p.feeUnits

/-- The numbers that are debited and credited together are worth the units. -/
def NumbersAgree (tx : Tx) : Prop :=
  unitsOf (txAmount tx) = txAmountUnits tx ∧
    unitsOf (txAmount tx + txFee tx) = txAmountUnits tx + txFeeUnits tx

/-- The money fields of a transaction agree as far as its kind moves them. -/
def AmountsAgree (s : NodeState) (tx : Tx) : Prop :=
  feeMoved tx = txFeeUnits tx ∧
  match tx.txType with
  | .transfer => NumbersAgree tx
  | .stake => isValidatorStakeTx tx = true ∨ NumbersAgree tx
  | .unstake =>
    (isValidatorStakeTx tx = true → 0 ≤ txAmountUnits tx) ∧
      (isValidatorStakeTx tx = false → txAmountUnits tx = 0 ∨
        unitsOf (scienceStakeAmount s.science tx.sender) = txAmountUnits tx)
  | .faucet => unitsOf (txAmount tx) = txAmountUnits tx
  | _ => True

/-! ## One transaction -/

/-- A debit of amount and fee with a credit of the amount moves the units iff the numbers agree. -/
theorem debit_credit_iff {tx : Tx} :
    (unitsOf (-(txAmount tx + txFee tx)) = -(txAmountUnits tx + txFeeUnits tx) ∧
      unitsOf (txAmount tx) = txAmountUnits tx) ↔ NumbersAgree tx := by
  rw [unitsOf_neg, neg_inj]
  exact and_comm

/-- A passing unstake of a validator returns a positive number of units, the signed ones if these
are positive. So it returns the signed units iff they are not negative. -/
theorem validatorUnstakeUnits_iff {cfg : Config} {s : NodeState} {tx : Tx}
    (h : validatorUnstakeRejectionReason cfg s tx = none) :
    (txAmountUnits tx = 0 ∨ validatorUnstakeUnits cfg s.validators tx = txAmountUnits tx) ↔
      0 ≤ txAmountUnits tx := by
  unfold validatorUnstakeRejectionReason at h
  unfold validatorUnstakeUnits
  cases hrow : validatorUnstakeRow s.validators tx with
  | none => simp [hrow] at h
  | some row =>
    have hpos : 0 < validatorUnstakeAmountUnits cfg tx row := by
      simp only [hrow] at h
      repeat' (split at h; · cases h)
      omega
    have hamount (h : 0 < txAmountUnits tx) :
        validatorUnstakeAmountUnits cfg tx row = txAmountUnits tx := if_pos h
    rw [Option.map_some, Option.getD_some]
    constructor
    · rintro (hzero | heq) <;> omega
    · intro hnonneg
      rcases hnonneg.lt_or_eq with hlt | hzero
      · exact .inr (hamount hlt)
      · exact .inl hzero.symm

/-- The postings of a transaction that passes the checks move its signed units iff its money
fields agree. -/
theorem movesSignedUnits_iff {cfg : Config} {now : Instant} {ctx : BlockContext} {s : NodeState}
    {tx : Tx} {expected : ExpectedNonces} {reserved : List Instant} {gap missing : Bool}
    (hpass : transactionRejectionReason cfg now s tx expected reserved gap missing = none) :
    MovesSignedUnits ctx tx (transactionPostings cfg now ctx s tx) (txAmountUnits tx)
      (txFeeUnits tx) ↔ AmountsAgree s tx := by
  obtain ⟨hsupported, -, hfee, -, -, hkind⟩ := transactionRejectionReason_eq_none.mp hpass
  have hreward := movedUnits_feeReward ctx tx
  have hother := fun e (h : "transaction_fee_reward" ≠ e) => movedUnits_feeReward_ne ctx tx h
  unfold MovesSignedUnits AmountsAgree transactionPostings kindPostings
  unfold kindRejectionReason at hkind
  cases htype : tx.txType <;> simp only [htype] at hkind hsupported ⊢
  case transfer =>
    rw [← debit_credit_iff]
    simp [transferPostings, BlockContext.posting, hreward, hother]
  case stake =>
    by_cases hv : isValidatorStakeTx tx = true
    · -- the validator handler moves the units themselves
      simp [hv, validatorStakePostings, BlockContext.posting, hreward, hother]
    · rw [if_neg hv, if_neg hv, or_iff_right hv, ← debit_credit_iff]
      simp [scienceStakePostings, BlockContext.posting, hreward, hother]
  case unstake =>
    have hne := fun fee e e' (h : e ≠ e') => movedUnits_feeDebit_ne ctx tx fee h
    by_cases hv : isValidatorStakeTx tx = true
    · have hstake : stakeType tx = "validator" := by simpa [isValidatorStakeTx] using hv
      have hreason : validatorUnstakeRejectionReason cfg s tx = none := by
        simpa [unstakeRejectionReason, hstake] using hkind
      rw [if_pos hv, if_pos hv, ← validatorUnstakeUnits_iff hreason]
      simp [hv, validatorUnstakePostings, BlockContext.posting, hreward, hother, hne,
        movedUnits_feeDebit_units ctx hfee]
    · rw [if_neg hv, if_neg hv]
      simp [hv, scienceUnstakePostings, BlockContext.posting, hreward, hother, hne,
        movedUnits_feeDebit]
  case faucet =>
    simp [faucetPostings, BlockContext.posting, hreward, hother]
  case treasuryClaim =>
    simp [treasuryClaimPostings, claimPostings, treasuryEventClaim, hreward, hother,
      movedUnits_feeDebit, movedUnits_feeDebit_ne]
  case unsupported => cases hsupported
  all_goals simp [hreward, hother, movedUnits_feeDebit, movedUnits_feeDebit_ne]

/-- An executed transaction moves its signed amounts iff its money fields agree. -/
theorem executesSignedAmounts_iff {cfg : Config} {now : Instant} {ctx : BlockContext}
    {b b' : BlockProgress} {tx : Tx} (h : applyBlockTransaction cfg now ctx b tx = .ok b') :
    ExecutesSignedAmounts cfg ctx b.state.ledger b'.state.ledger tx ↔ AmountsAgree b.state tx := by
  have hpass := (applyBlockTransaction_eq_ok h).1
  obtain ⟨es, hes, hps⟩ := (applyBlockTransaction_posts h).entries
  obtain ⟨p, hp, hverify⟩ :=
    isSignatureValid_signed (transactionRejectionReason_eq_none.mp hpass).2.1
  obtain ⟨hhash, hamount, hfee, -⟩ := signedPayload_spec hp
  rw [← movesSignedUnits_iff hpass]
  constructor
  · rintro ⟨p', es', hp', -, -, hes', hmoves⟩
    -- the payload and the appended entries are determined
    have hpeq : p' = p := Option.some.inj (hp'.symm.trans hp)
    have heseq : es' = es := List.append_cancel_left (hes'.symm.trans hes)
    rwa [hpeq, heseq, hamount, hfee, hps] at hmoves
  · intro hmoves
    refine ⟨p, es, hp, hhash, hverify, hes, ?_⟩
    rwa [hamount, hfee, hps]

/-- The numbers of a decoded transaction are worth its units. -/
theorem numbersAgree_of_decoded {tx : Tx} (htx : tx.Decoded) : NumbersAgree tx := by
  unfold NumbersAgree
  rw [htx.txAmount_eq, htx.txFee_eq, unitsToFloat_add, unitsOf_unitsToFloat, unitsOf_unitsToFloat]
  exact ⟨rfl, rfl⟩

theorem feeMoved_of_decoded {tx : Tx} (htx : tx.Decoded) (hfee : 0 ≤ txFeeUnits tx) :
    feeMoved tx = txFeeUnits tx := by
  unfold feeMoved
  rw [htx.txFee_eq, unitsOf_unitsToFloat]
  split
  · next h =>
    have hzero := unitsToFloat_le_iff.mp (h.trans_eq unitsToFloat_zero.symm)
    omega
  · rfl

/-- A science unstake that passes is for the number zero or for the whole stake. -/
theorem scienceUnstake_whole {cfg : Config} {s : NodeState} {tx : Tx}
    (hstake : stakeType tx ≠ "validator") (h : unstakeRejectionReason cfg s tx = none) :
    txAmount tx = 0 ∨ txAmount tx = scienceStakeAmount s.science tx.sender := by
  unfold unstakeRejectionReason at h
  unfold scienceStakeAmount
  rw [if_neg hstake] at h
  split at h
  · cases h
  cases haccount : s.science.stakeAccounts.find? tx.sender with
  | none => simp [haccount] at h
  | some account =>
    rw [Option.map_some, Option.getD_some]
    by_contra hpartial
    rw [not_or] at hpartial
    simp only [haccount, ne_eq, hpartial, not_false_eq_true, and_self, if_true] at h
    split at h <;> cases h

/-- A transaction that is read back from the mempool moves its signed amounts when it passes the
checks and its units are not negative, which selection requires. -/
theorem amountsAgree_of_decoded {cfg : Config} {now : Instant} {s : NodeState} {tx : Tx}
    {expected : ExpectedNonces} {reserved : List Instant} {gap missing : Bool} (htx : tx.Decoded)
    (hamount : 0 ≤ txAmountUnits tx)
    (hpass : transactionRejectionReason cfg now s tx expected reserved gap missing = none) :
    AmountsAgree s tx := by
  obtain ⟨-, -, hfee, -, -, hkind⟩ := transactionRejectionReason_eq_none.mp hpass
  have hnumbers := numbersAgree_of_decoded htx
  refine ⟨feeMoved_of_decoded htx hfee, ?_⟩
  unfold kindRejectionReason at hkind
  cases htype : tx.txType <;> simp only [htype] at hkind ⊢
  case transfer => exact hnumbers
  case stake => exact .inr hnumbers
  case faucet => exact hnumbers.1
  case unstake =>
    refine ⟨fun _ => hamount, fun hv => ?_⟩
    have hstake : stakeType tx ≠ "validator" := by simpa [isValidatorStakeTx] using hv
    refine (scienceUnstake_whole hstake hkind).imp (fun hzero => ?_) (fun heq => ?_)
    · rw [← hnumbers.1, hzero, unitsOf_zero]
    · rw [← heq, hnumbers.1]

/-! ## A block -/

/-- A property of the state before each transaction of a block, while the block executes. -/
def AtEachTransaction (cfg : Config) (now : Instant) (ctx : BlockContext) (s : NodeState)
    (transactions : List Tx) (P : BlockProgress → Tx → Prop) : Prop :=
  ∀ before tx after b, transactions = before ++ tx :: after →
    before.foldlM (applyBlockTransaction cfg now ctx) ⟨s, fun _ => none⟩ = .ok b → P b tx

/-- Every transaction of the block moves its signed amounts. -/
def BlockExecutesSignedAmounts (cfg : Config) (now : Instant) (ctx : BlockContext) (s : NodeState)
    (transactions : List Tx) : Prop :=
  AtEachTransaction cfg now ctx s transactions fun b tx => ∀ b',
    applyBlockTransaction cfg now ctx b tx = .ok b' →
      ExecutesSignedAmounts cfg ctx b.state.ledger b'.state.ledger tx

/-- In a block that executes, the transaction after each prefix executes. -/
theorem exists_applyBlockTransaction {cfg : Config} {now : Instant} {ctx : BlockContext}
    {s s' : NodeState} (before : List Tx) {after : List Tx} {tx : Tx} {b : BlockProgress}
    (h : applyBlockTransactions cfg now ctx s (before ++ tx :: after) = .ok s')
    (hbefore : before.foldlM (applyBlockTransaction cfg now ctx) ⟨s, fun _ => none⟩ = .ok b) :
    ∃ b', applyBlockTransaction cfg now ctx b tx = .ok b' := by
  obtain ⟨b₁, hloop, -⟩ := applyBlockTransactions_eq_ok.mp h
  rw [List.foldlM_append] at hloop
  obtain ⟨b₂, hb₂, hrest⟩ := bind_eq_ok.mp hloop
  have heq : b₂ = b := Except.ok.inj (hb₂.symm.trans hbefore)
  subst heq
  rw [List.foldlM_cons] at hrest
  obtain ⟨b', hstep, -⟩ := bind_eq_ok.mp hrest
  exact ⟨b', hstep⟩

/-- The signature check does not look at the number of a transaction that has units. -/
theorem isSignatureValid_with_amount (cfg : Config) {tx : Tx} {units : ℤ}
    (hunits : tx.amountUnits = some units) (amount : Option Dec) :
    isSignatureValid cfg { tx with amount } = isSignatureValid cfg tx := by
  have hunsigned : unsignedFromTx cfg { tx with amount } = unsignedFromTx cfg tx := by
    simp only [unsignedFromTx, txAmountUnits, txFeeUnits, hunits, Option.getD_some]
  simp only [isSignatureValid, signedPayload, hunsigned]

/-- A transfer of 1000 units with a fee of 200 units. -/
def signedTransfer : Tx :=
  signTransaction localConfig
    (aliceRequest .transfer 1 200 1000 (some bobAddress) {} (.ofInstant 0))

/-- The same transfer with another number in its amount field; its hash and signature are those
of the 1000 units. -/
def alteredTransfer : Tx := { signedTransfer with amount := some (canonicalDec 4000) }

theorem isSignatureValid_signedTransfer : isSignatureValid localConfig signedTransfer = true :=
  isSignatureValid_aliceRequest ..

theorem isSignatureValid_alteredTransfer : isSignatureValid localConfig alteredTransfer = true := by
  have hunits : signedTransfer.amountUnits = some 1000 := rfl
  rw [alteredTransfer, isSignatureValid_with_amount localConfig hunits]
  exact isSignatureValid_signedTransfer

theorem alteredTransfer_disagrees (s : NodeState) : ¬AmountsAgree s alteredTransfer := by
  rintro ⟨-, hnumbers⟩
  have hamount : txAmount alteredTransfer = unitsToFloat 4000 := round8_canonicalDec 4000
  have hunits : txAmountUnits alteredTransfer = 1000 := rfl
  have hagree : unitsOf (txAmount alteredTransfer) = txAmountUnits alteredTransfer := hnumbers.1
  rw [hamount, hunits, unitsOf_unitsToFloat] at hagree
  omega

/-- The block with the altered transfer executes and moves 4000 units to the recipient. -/
theorem altered_transfer_executes :
    ∃ s', applyBlockTransactions localConfig 0 (localBlock 1 0 true)
        (localNode [(aliceAddress, 5000)]) [alteredTransfer] = .ok s' ∧
      s'.ledger.balanceUnits bobAddress = 4000 := by
  have hsigned : ∀ tx ∈ [alteredTransfer], isSignatureValid localConfig tx = true := by
    simp [isSignatureValid_alteredTransfer]
  have hruns : returns (applySignedTransactions localConfig 0 (localBlock 1 0 true)
      (localNode [(aliceAddress, 5000)]) [alteredTransfer])
      (fun s' => s'.ledger.balanceUnits bobAddress = 4000) = true := by decide +kernel
  obtain ⟨s', hs', hbalance⟩ := exists_of_returns hruns
  rw [← applyBlockTransactions_of_signed hsigned] at hs'
  exact ⟨s', hs', by simpa using hbalance⟩

end Picoin
