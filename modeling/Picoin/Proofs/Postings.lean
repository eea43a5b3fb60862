import Picoin.Services.Execution

/-!
# What each handler posts

For every handler, the list of postings it makes when it returns, and the tables it leaves alone.
All later arguments about coins, the signed amounts and the frame of a transaction start from
these lists and never look into the handlers again.
-/

namespace Picoin

open Outcome

/-- Credits add up to no debit. -/
theorem postedTo_nonneg {ps : List Posting} (hcredits : ∀ p ∈ ps, 0 ≤ p.amountUnits)
    (accountId : String) : 0 ≤ postedTo ps accountId := by
  refine List.sum_nonneg fun x hx => ?_
  obtain ⟨p, hp, rfl⟩ := List.mem_map.mp hx
  split
  · exact hcredits p hp
  · exact le_refl 0

/-! ## The lists -/

/-- A posting of a block's transaction. -/
def BlockContext.posting (ctx : BlockContext) (tx : Tx) (accountId accountType : String)
    (amount : ℤ) (entryType description : String) : Posting where
  accountId := accountId
  accountType := accountType
  amountUnits := unitsOf amount
  entryType := entryType
  blockHeight := some ctx.blockHeight
  relatedId := some tx.txHash
  description := some description
  createdAt := ctx.timestamp.text

def feeDebitPostings (ctx : BlockContext) (tx : Tx) (fee : ℤ) (entryType description : String) :
    List Posting :=
  if 0 < fee then [ctx.posting tx tx.sender "wallet" (-fee) entryType description] else []

def feeRewardPostings (ctx : BlockContext) (tx : Tx) : List Posting :=
  if txFee tx ≤ 0 then []
  else [ctx.posting tx ctx.minerId ctx.minerAccountType (txFee tx) "transaction_fee_reward"
    "transaction fee reward"]

def transferPostings (ctx : BlockContext) (tx : Tx) : List Posting :=
  let sender := tx.sender
  let recipient := tx.recipient.getD ""
  [ctx.posting tx sender "wallet" (-(txAmount tx + txFee tx)) "transfer_debit"
      s!"transfer debit to {recipient}",
    ctx.posting tx recipient "wallet" (txAmount tx) "transfer_credit"
      s!"transfer credit from {sender}"]

def faucetPostings (cfg : Config) (ctx : BlockContext) (tx : Tx) : List Posting :=
  let network := cfg.networkId
  [ctx.posting tx genesisAccountId "genesis" (-txAmount tx) "faucet_debit"
      s!"{network} faucet debit for wallet",
    ctx.posting tx tx.sender "wallet" (txAmount tx) "faucet_credit" s!"{network} faucet credit"]

def scienceStakePostings (ctx : BlockContext) (tx : Tx) : List Posting :=
  [ctx.posting tx tx.sender "wallet" (-(txAmount tx + txFee tx)) "science_stake_debit"
      "science stake lock",
    ctx.posting tx (scienceStakeAccountId tx.sender) "science_stake" (txAmount tx)
      "science_stake_lock" "science stake lock"]

/-- The amount that an unstake returns: the sender's whole stake. -/
def scienceStakeAmount (sci : ScienceTables) (sender : String) : ℤ :=
  ((sci.stakeAccounts.find? sender).map ScienceAccountRow.stakeAmount).getD 0

def scienceUnstakePostings (ctx : BlockContext) (sci : ScienceTables) (tx : Tx) : List Posting :=
  let amount := scienceStakeAmount sci tx.sender
  feeDebitPostings ctx tx (txFee tx) "science_unstake_fee_debit" "science unstake fee" ++
    [ctx.posting tx (scienceStakeAccountId tx.sender) "science_stake" (-amount)
        "science_stake_unlock" "science stake unlock",
      ctx.posting tx tx.sender "wallet" amount "science_unstake_credit" "science stake unlock"]

def validatorStakePostings (ctx : BlockContext) (tx : Tx) : List Posting :=
  let sender := tx.sender
  let validatorId := validatorStakeValidatorId tx
  [ctx.posting tx sender "wallet" (-unitsToFloat (txAmountUnits tx + txFeeUnits tx))
      "validator_stake_debit" s!"validator stake lock for {validatorId}",
    ctx.posting tx validatorId "validator" (unitsToFloat (txAmountUnits tx))
      "validator_stake_lock" s!"validator stake lock from {sender}"]

/-- The units that a validator unstake returns. -/
def validatorUnstakeUnits (cfg : Config) (validators : Sql.Table String ValidatorRow) (tx : Tx) :
    ℤ :=
  ((validatorUnstakeRow validators tx).map (validatorUnstakeAmountUnits cfg tx)).getD 0

def validatorUnstakePostings (cfg : Config) (ctx : BlockContext)
    (validators : Sql.Table String ValidatorRow) (tx : Tx) : List Posting :=
  let sender := tx.sender
  let validatorId := validatorStakeValidatorId tx
  let amount := unitsToFloat (validatorUnstakeUnits cfg validators tx)
  feeDebitPostings ctx tx (unitsToFloat (txFeeUnits tx)) "validator_unstake_fee_debit"
      "validator unstake fee" ++
    [ctx.posting tx validatorId "validator" (-amount) "validator_stake_unlock"
        s!"validator stake unlock to {sender}",
      ctx.posting tx sender "wallet" amount "validator_unstake_credit"
        s!"validator stake unlock from {validatorId}"]

/-- The amount that a claim at an instant pays out. -/
def claimableAmount (cfg : Config) (now nowDt : Instant) (t : TreasuryTables) : ℤ :=
  (treasuryRow cfg now (unlockMaturedEpochs nowDt t)).unlockedBalance

def treasuryClaimPostings (cfg : Config) (now : Instant) (ctx : BlockContext)
    (t : TreasuryTables) (tx : Tx) : List Posting :=
  let t := { t with treasury := some (t.treasury.getD (bootstrapTreasuryRow cfg now)) }
  let amount := claimableAmount cfg now ctx.timestamp.instant t
  let legs := claimPostings cfg amount (treasuryClaimId tx) ctx.timestamp.instant
  feeDebitPostings ctx tx (txFee tx) "treasury_claim_fee_debit"
    "scientific development treasury claim fee" ++ [legs.1, legs.2]

/-- The postings of a transaction's handler. -/
def kindPostings (cfg : Config) (now : Instant) (ctx : BlockContext) (s : NodeState) (tx : Tx) :
    List Posting :=
  match tx.txType with
  | .transfer => transferPostings ctx tx
  | .stake =>
    if isValidatorStakeTx tx then validatorStakePostings ctx tx else scienceStakePostings ctx tx
  | .unstake =>
    if isValidatorStakeTx tx then validatorUnstakePostings cfg ctx s.validators tx
    else scienceUnstakePostings ctx s.science tx
  | .scienceJobCreate =>
    feeDebitPostings ctx tx (txFee tx) "science_job_fee_debit" "science job create fee"
  | .governanceAction =>
    feeDebitPostings ctx tx (txFee tx) "governance_action_fee_debit" "governance action fee"
  | .treasuryClaim => treasuryClaimPostings cfg now ctx s.treasury tx
  | .faucet => faucetPostings cfg ctx tx
  | .unsupported _ => []

/-- All postings of a transaction: its handler's and the miner's fee. -/
def transactionPostings (cfg : Config) (now : Instant) (ctx : BlockContext) (s : NodeState)
    (tx : Tx) : List Posting :=
  kindPostings cfg now ctx s tx ++ feeRewardPostings ctx tx

/-! ## Handlers that only move coins -/

theorem applyTransferTransaction_posts {ctx : BlockContext} {l l' : Ledger} {tx : Tx}
    (h : applyTransferTransaction ctx l tx = .ok l') : Posts l l' (transferPostings ctx tx) := by
  obtain ⟨l₁, hdebit, hcredit⟩ := bind_eq_ok.mp h
  exact (applyAccountDelta_posts hdebit).trans (applyAccountDelta_posts hcredit)

theorem applyFaucetTransaction_posts {cfg : Config} {ctx : BlockContext} {l l' : Ledger} {tx : Tx}
    (h : applyFaucetTransaction cfg ctx l tx = .ok l') : Posts l l' (faucetPostings cfg ctx tx) := by
  obtain ⟨l₁, hdebit, hcredit⟩ := bind_eq_ok.mp h
  exact (applyAccountDelta_posts hdebit).trans (applyAccountDelta_posts hcredit)

theorem applyFeeDebit_posts {ctx : BlockContext} {l l' : Ledger} {tx : Tx} {fee : ℤ}
    {entryType description : String}
    (h : applyFeeDebit ctx l tx fee entryType description = .ok l') :
    Posts l l' (feeDebitPostings ctx tx fee entryType description) := by
  unfold applyFeeDebit at h
  unfold feeDebitPostings
  split at h
  · next hfee => rw [if_pos hfee]; exact applyAccountDelta_posts h
  · next hfee => rw [if_neg hfee]; cases h; exact .refl l

theorem applyFeeReward_posts {ctx : BlockContext} {l l' : Ledger} {tx : Tx}
    (h : applyFeeReward ctx l tx = .ok l') : Posts l l' (feeRewardPostings ctx tx) := by
  unfold applyFeeReward at h
  unfold feeRewardPostings
  split at h
  · next hfee => rw [if_pos hfee]; cases h; exact .refl l
  · next hfee => rw [if_neg hfee]; exact applyAccountDelta_posts h

/-! ## Science handlers -/

/-- A science stake posts its two legs and hands the service the sender's new total. -/
theorem applyScienceStakeTransaction_eq_ok {cfg : Config} {now : Instant} {ctx : BlockContext}
    {l l' : Ledger} {sci sci' : ScienceTables} {tx : Tx}
    (h : applyScienceStakeTransaction cfg now ctx l sci tx = .ok (l', sci')) :
    Posts l l' (scienceStakePostings ctx tx) ∧
      stakeScienceAccessInConnection now sci tx.sender (scienceStakeAmount sci tx.sender +
        txAmount tx) ("science_" ++ takeChars 16 (cfg.sha256Text tx.sender)) = .ok sci' := by
  obtain ⟨l₁, hdebit, h⟩ := bind_eq_ok.mp h
  obtain ⟨l₂, hlock, h⟩ := bind_eq_ok.mp h
  obtain ⟨sci₁, hsci, h⟩ := bind_eq_ok.mp h
  cases h
  exact ⟨(applyAccountDelta_posts hdebit).trans (applyAccountDelta_posts hlock), hsci⟩

theorem applyScienceUnstakeTransaction_eq_ok {ctx : BlockContext} {l l' : Ledger}
    {sci sci' : ScienceTables} {tx : Tx}
    (h : applyScienceUnstakeTransaction ctx l sci tx = .ok (l', sci')) :
    Posts l l' (scienceUnstakePostings ctx sci tx) ∧
      unstakeScienceAccessInConnection sci tx.sender = .ok sci' := by
  unfold applyScienceUnstakeTransaction at h
  split at h
  · cases h
  · next account haccount =>
    have hamount : scienceStakeAmount sci tx.sender = account.stakeAmount := by
      simp [scienceStakeAmount, haccount]
    obtain ⟨l₁, hfee, h⟩ := bind_eq_ok.mp h
    obtain ⟨l₂, hunlock, h⟩ := bind_eq_ok.mp h
    obtain ⟨l₃, hcredit, h⟩ := bind_eq_ok.mp h
    obtain ⟨sci₁, hsci, h⟩ := bind_eq_ok.mp h
    cases h
    refine ⟨?_, hsci⟩
    unfold scienceUnstakePostings
    rw [hamount]
    exact (applyFeeDebit_posts hfee).trans
      ((applyAccountDelta_posts hunlock).trans (applyAccountDelta_posts hcredit))

theorem scienceErrorAsExecution_eq_ok {α : Type} {x : Except ExecError α} {a : α} :
    scienceErrorAsExecution x = .ok a ↔ x = .ok a := by
  unfold scienceErrorAsExecution
  split <;> simp_all

theorem treasuryErrorAsExecution_eq_ok {α : Type} {x : Except ExecError α} {a : α} :
    treasuryErrorAsExecution x = .ok a ↔ x = .ok a := by
  unfold treasuryErrorAsExecution
  split <;> simp_all

theorem applyScienceJobCreateTransaction_eq_ok {cfg : Config} {now : Instant}
    {ctx : BlockContext} {l l' : Ledger} {sci sci' : ScienceTables} {tx : Tx}
    (h : applyScienceJobCreateTransaction cfg now ctx l sci tx = .ok (l', sci')) :
    Posts l l' (feeDebitPostings ctx tx (txFee tx) "science_job_fee_debit"
        "science job create fee") ∧
      createScienceJobInConnection cfg now sci tx.sender (tx.payload.jobType.getD "")
        (tx.payload.metadataHash.getD "") (tx.payload.storagePointer.getD "")
        tx.payload.rewardBudget tx.payload.maxComputeUnits tx.payload.rewardPerComputeUnit
        tx.payload.maxReward (scienceJobId tx) = .ok sci' := by
  obtain ⟨l₁, hfee, h⟩ := bind_eq_ok.mp h
  obtain ⟨sci₁, hsci, h⟩ := bind_eq_ok.mp h
  cases h
  exact ⟨applyFeeDebit_posts hfee, scienceErrorAsExecution_eq_ok.mp hsci⟩

theorem applyGovernanceActionTransaction_eq_ok {cfg : Config} {ctx : BlockContext}
    {l l' : Ledger} {sci sci' : ScienceTables} {tx : Tx}
    (h : applyGovernanceActionTransaction cfg ctx l sci tx = .ok (l', sci')) :
    Posts l l' (feeDebitPostings ctx tx (txFee tx) "governance_action_fee_debit"
        "governance action fee") ∧
      ∃ governance, runGovernanceAction cfg ctx sci.reserveGovernance tx.sender
          (governanceAction tx) = .ok governance ∧
        sci' = { sci with reserveGovernance := governance } := by
  obtain ⟨l₁, hfee, h⟩ := bind_eq_ok.mp h
  obtain ⟨governance, hrun, h⟩ := bind_eq_ok.mp h
  cases h
  exact ⟨applyFeeDebit_posts hfee, governance, scienceErrorAsExecution_eq_ok.mp hrun, rfl⟩

/-! ## Validator handlers -/

theorem applyValidatorStakeTransaction_eq_ok {cfg : Config} {ctx : BlockContext} {l l' : Ledger}
    {validators validators' : Sql.Table String ValidatorRow} {tx : Tx}
    (h : applyValidatorStakeTransaction cfg ctx l validators tx = .ok (l', validators')) :
    Posts l l' (validatorStakePostings ctx tx) ∧
      validators' = (stakeValidators cfg ctx validators tx).modify (validatorStakeValidatorId tx)
        (.stake (unitsToFloat (txAmountUnits tx)) tx.sender ctx.timestamp.text) := by
  obtain ⟨l₁, hdebit, h⟩ := bind_eq_ok.mp h
  obtain ⟨l₂, hlock, h⟩ := bind_eq_ok.mp h
  split at h
  · cases h
  · cases h
    exact ⟨(applyAccountDelta_posts hdebit).trans (applyAccountDelta_posts hlock), rfl⟩

theorem applyValidatorUnstakeTransaction_eq_ok {cfg : Config} {ctx : BlockContext}
    {l l' : Ledger} {validators validators' : Sql.Table String ValidatorRow} {tx : Tx}
    (h : applyValidatorUnstakeTransaction cfg ctx l validators tx = .ok (l', validators')) :
    Posts l l' (validatorUnstakePostings cfg ctx validators tx) ∧
      validators' = validators.modify (validatorStakeValidatorId tx)
        (.unstake (validatorUnstakeUnits cfg validators tx) ctx.timestamp.text) := by
  unfold applyValidatorUnstakeTransaction at h
  split at h
  · cases h
  · next row hrow =>
    have hunits : validatorUnstakeUnits cfg validators tx =
        validatorUnstakeAmountUnits cfg tx row := by simp [validatorUnstakeUnits, hrow]
    obtain ⟨l₁, hfee, h⟩ := bind_eq_ok.mp h
    obtain ⟨l₂, hunlock, h⟩ := bind_eq_ok.mp h
    obtain ⟨l₃, hcredit, h⟩ := bind_eq_ok.mp h
    cases h
    unfold validatorUnstakePostings
    rw [hunits]
    exact ⟨(applyFeeDebit_posts hfee).trans
      ((applyAccountDelta_posts hunlock).trans (applyAccountDelta_posts hcredit)), rfl⟩

/-! ## Treasury handler -/

/-- A returning claim has passed its checks, pays out what is unlocked, and changes the tables
in one way. -/
theorem claim_eq_ok {cfg : Config} {now nowDt : Instant} {t t' : TreasuryTables} {l l' : Ledger}
    {requestedBy claimTo : Option String} {claimId : String}
    (h : claimScientificDevelopmentTreasuryInConnection cfg now t l requestedBy claimTo claimId
      nowDt = .ok (t', l')) :
    let unlocked := unlockMaturedEpochs nowDt t
    let row := treasuryRow cfg now unlocked
    let amount := claimableAmount cfg now nowDt t
    let legs := claimPostings cfg amount claimId nowDt
    0 < amount ∧ amount ≤ l.balance treasuryAccountId ∧ Posts l l' [legs.1, legs.2] ∧
      ∃ requester, checkClaimAddresses cfg requestedBy claimTo = .ok requester ∧
        unlocked.claims.find? claimId = none ∧
        t' = { epochs := unlocked.epochs.mapRows fun _ epoch => epoch.claim
               claims := unlocked.claims.upsert claimId
                 ⟨amount, cfg.scientificDevelopmentTreasuryWallet, requester, nowDt⟩
               treasury := some { row with
                 totalClaimed := row.totalClaimed + amount
                 unlockedBalance := 0
                 lastClaimAt := some nowDt } } := by
  intro unlocked row amount legs
  obtain ⟨requester, hcheck, h⟩ := bind_eq_ok.mp h
  dsimp only at h
  split at h
  · cases h
  split at h
  · cases h
  next hpos hbalance =>
  -- the treasury is debited before the claim is stored
  obtain ⟨l₁, hdebit, h⟩ := bind_eq_ok.mp h
  obtain ⟨l₂, hcredit, h⟩ := bind_eq_ok.mp h
  split at h
  · cases h
  · next claims hclaims =>
    cases h
    obtain ⟨hfresh, rfl⟩ := Sql.Table.insert?_eq_some_iff.mp hclaims
    exact ⟨not_le.mp hpos, not_lt.mp hbalance,
      (applyLedgerEntry_posts hdebit).trans (applyLedgerEntry_posts hcredit), requester, hcheck,
      hfresh, rfl⟩

/-- The treasury tables that a claim transaction works on. -/
def withTreasuryRow (cfg : Config) (now : Instant) (t : TreasuryTables) : TreasuryTables :=
  { t with treasury := some (t.treasury.getD (bootstrapTreasuryRow cfg now)) }

theorem applyTreasuryClaimTransaction_eq_ok {cfg : Config} {now : Instant} {ctx : BlockContext}
    {l l' : Ledger} {t t' : TreasuryTables} {tx : Tx}
    (h : applyTreasuryClaimTransaction cfg now ctx l t tx = .ok (l', t')) :
    Posts l l' (treasuryClaimPostings cfg now ctx t tx) := by
  obtain ⟨l₁, hfee, h⟩ := bind_eq_ok.mp h
  obtain ⟨⟨t₂, l₂⟩, hclaim, h⟩ := bind_eq_ok.mp h
  cases h
  obtain ⟨-, -, hposts, -⟩ := claim_eq_ok (treasuryErrorAsExecution_eq_ok.mp hclaim)
  exact (applyFeeDebit_posts hfee).trans hposts

/-! ## A transaction -/

theorem executeTransaction_posts {cfg : Config} {now : Instant} {ctx : BlockContext}
    {s s' : NodeState} {tx : Tx} (h : executeTransaction cfg now ctx s tx = .ok s') :
    Posts s.ledger s'.ledger (kindPostings cfg now ctx s tx) := by
  unfold executeTransaction at h
  unfold kindPostings
  -- one spec lemma for each type of transaction
  cases htype : tx.txType <;> simp only [htype] at h ⊢
  case transfer =>
    obtain ⟨l, hl, h⟩ := bind_eq_ok.mp h
    cases h
    exact applyTransferTransaction_posts hl
  case stake =>
    split at h
    · next hv =>
      obtain ⟨⟨l, validators⟩, hl, h⟩ := bind_eq_ok.mp h
      cases h
      rw [if_pos hv]
      exact (applyValidatorStakeTransaction_eq_ok hl).1
    · next hv =>
      obtain ⟨⟨l, science⟩, hl, h⟩ := bind_eq_ok.mp h
      cases h
      rw [if_neg hv]
      exact (applyScienceStakeTransaction_eq_ok hl).1
  case unstake =>
    split at h
    · next hv =>
      obtain ⟨⟨l, validators⟩, hl, h⟩ := bind_eq_ok.mp h
      cases h
      rw [if_pos hv]
      exact (applyValidatorUnstakeTransaction_eq_ok hl).1
    · next hv =>
      obtain ⟨⟨l, science⟩, hl, h⟩ := bind_eq_ok.mp h
      cases h
      rw [if_neg hv]
      exact (applyScienceUnstakeTransaction_eq_ok hl).1
  case scienceJobCreate =>
    obtain ⟨⟨l, science⟩, hl, h⟩ := bind_eq_ok.mp h
    cases h
    exact (applyScienceJobCreateTransaction_eq_ok hl).1
  case governanceAction =>
    obtain ⟨⟨l, science⟩, hl, h⟩ := bind_eq_ok.mp h
    cases h
    exact (applyGovernanceActionTransaction_eq_ok hl).1
  case treasuryClaim =>
    obtain ⟨⟨l, treasury⟩, hl, h⟩ := bind_eq_ok.mp h
    cases h
    exact applyTreasuryClaimTransaction_eq_ok hl
  case faucet =>
    obtain ⟨l, hl, h⟩ := bind_eq_ok.mp h
    cases h
    exact applyFaucetTransaction_posts hl
  case unsupported =>
    cases h
    exact .refl _

/-- No handler touches the confirmed nonces, the mempool or the chain's tables. -/
theorem executeTransaction_frame {cfg : Config} {now : Instant} {ctx : BlockContext}
    {s s' : NodeState} {tx : Tx} (h : executeTransaction cfg now ctx s tx = .ok s') :
    s'.accountNonces = s.accountNonces ∧ s'.mempool = s.mempool ∧ s'.chain = s.chain := by
  unfold executeTransaction at h
  cases htype : tx.txType <;> simp only [htype] at h
  case stake | unstake =>
    split at h <;>
    · obtain ⟨_, -, h⟩ := bind_eq_ok.mp h
      cases h
      exact ⟨rfl, rfl, rfl⟩
  case unsupported =>
    cases h
    exact ⟨rfl, rfl, rfl⟩
  all_goals
    obtain ⟨_, -, h⟩ := bind_eq_ok.mp h
    cases h
    exact ⟨rfl, rfl, rfl⟩

/-- One turn of the loop over a block: the checks have passed, the handler has returned, and the
bookkeeping is done. -/
theorem applyBlockTransaction_eq_ok {cfg : Config} {now : Instant} {ctx : BlockContext}
    {b b' : BlockProgress} {tx : Tx} (h : applyBlockTransaction cfg now ctx b tx = .ok b') :
    transactionRejectionReason cfg now b.state tx b.expected [] ctx.canonicalReplay
        ctx.canonicalReplay = none ∧
      ∃ s, executeTransaction cfg now ctx b.state tx = .ok s ∧
        settleTransaction ctx s tx = .ok b'.state ∧
        b'.expected = b.expected.set tx.sender (tx.nonce + 1) := by
  obtain ⟨hreason, h⟩ := guardNone_bind_eq_ok.mp h
  obtain ⟨s, hexecute, h⟩ := bind_eq_ok.mp h
  obtain ⟨s', hsettle, h⟩ := bind_eq_ok.mp h
  cases h
  exact ⟨Option.map_eq_none_iff.mp hreason, s, hexecute, hsettle, rfl⟩

theorem settleTransaction_eq_ok {ctx : BlockContext} {s s' : NodeState} {tx : Tx}
    (h : settleTransaction ctx s tx = .ok s') :
    Posts s.ledger s'.ledger (feeRewardPostings ctx tx) ∧
      s'.accountNonces = recordConfirmedNonce s.accountNonces tx.sender tx.nonce := by
  obtain ⟨l, hfee, h⟩ := bind_eq_ok.mp h
  cases h
  exact ⟨applyFeeReward_posts hfee, rfl⟩

theorem applyBlockTransaction_posts {cfg : Config} {now : Instant} {ctx : BlockContext}
    {b b' : BlockProgress} {tx : Tx} (h : applyBlockTransaction cfg now ctx b tx = .ok b') :
    Posts b.state.ledger b'.state.ledger (transactionPostings cfg now ctx b.state tx) := by
  obtain ⟨-, s, hexecute, hsettle, -⟩ := applyBlockTransaction_eq_ok h
  exact (executeTransaction_posts hexecute).trans (settleTransaction_eq_ok hsettle).1

theorem applyBlockTransactions_eq_ok {cfg : Config} {now : Instant} {ctx : BlockContext}
    {s s' : NodeState} {transactions : List Tx} :
    applyBlockTransactions cfg now ctx s transactions = .ok s' ↔
      ∃ b, transactions.foldlM (applyBlockTransaction cfg now ctx) ⟨s, fun _ => none⟩ = .ok b ∧
        b.state = s' := by
  unfold applyBlockTransactions
  rw [bind_eq_ok]
  simp only [pure_eq_ok]

end Picoin
