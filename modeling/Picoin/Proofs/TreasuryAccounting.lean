import Picoin.Lib.Run
import Picoin.Proofs.Postings
import Picoin.Services.LocalNode

/-!
# The accounts of the development treasury

The treasury keeps its figures in the aggregate row, in the epochs and as the balance of its
account. Accruals, unlocks and claims keep them in step, with one exception: a claim closes every
epoch that it pays out, also one that has been locked again by a later accrual and does not unlock
at the claim's time. The locked part of such an epoch is never unlocked.

* **`TreasuryAccounting`** — what should hold of the figures at any time;
* **`TreasuryInvariant`** — what carries it through a run: the amounts of an epoch are also
  non-negative and whole units;
* **`TreasuryOp.Safe`** — the condition on a claim.
-/

namespace Picoin

open Outcome Run

/-! ## Operations and runs -/

/-- The treasury's tables and the ledger. -/
abbrev TreasuryState := TreasuryTables × Ledger

/-- An operation on the treasury, with the clock and the arguments it is called with. -/
inductive TreasuryOp where
  | accrue (now : Instant) (blockHeight blockReward : ℤ)
  | unlock (now : Instant)
  | claim (now : Instant) (requestedBy claimTo : Option String) (claimId : String)
      (nowDt : Instant)

def TreasuryOp.run (cfg : Config) (st : TreasuryState) :
    TreasuryOp → Except ExecError TreasuryState
  | .accrue now blockHeight blockReward =>
    recordScientificDevelopmentTreasuryForBlock cfg now st.1 st.2 blockHeight blockReward
  | .unlock now => .ok (unlockMaturedEpochs now st.1, st.2)
  | .claim now requestedBy claimTo claimId nowDt =>
    claimScientificDevelopmentTreasuryInConnection cfg now st.1 st.2 requestedBy claimTo claimId
      nowDt

/-- An operation that raises is rolled back. -/
def TreasuryOp.step (cfg : Config) (st : TreasuryState) (op : TreasuryOp) : TreasuryState :=
  attempt (op.run cfg st) st

/-! ## The figures -/

/-- The aggregate row, with zero amounts before there is one. -/
def aggregateRow (cfg : Config) (t : TreasuryTables) : TreasuryRow :=
  t.treasury.getD (bootstrapTreasuryRow cfg 0)

/-- The aggregate row, the epochs and the account's balance are in step, and what is locked can
still be unlocked. -/
structure TreasuryAccounting (cfg : Config) (st : TreasuryState) : Prop where
  total : (aggregateRow cfg st.1).totalAccumulated = (aggregateRow cfg st.1).totalClaimed +
    (aggregateRow cfg st.1).lockedBalance + (aggregateRow cfg st.1).unlockedBalance
  locked : (aggregateRow cfg st.1).lockedBalance = st.1.epochs.sum EpochRow.lockedAmount
  unlocked : (aggregateRow cfg st.1).unlockedBalance = st.1.epochs.sum EpochRow.unlockedAmount
  balance : st.2.balance treasuryAccountId =
    (aggregateRow cfg st.1).lockedBalance + (aggregateRow cfg st.1).unlockedBalance
  status : st.1.epochs.Forall fun e => 0 < e.lockedAmount → e.status = .locked

/-- The amounts of an epoch are non-negative and whole units. -/
structure EpochRow.Sound (e : EpochRow) : Prop where
  locked_nonneg : 0 ≤ e.lockedAmount
  unlocked_nonneg : 0 ≤ e.unlockedAmount
  locked_units : 100 ∣ e.lockedAmount
  unlocked_units : 100 ∣ e.unlockedAmount

structure TreasuryInvariant (cfg : Config) (st : TreasuryState) : Prop
    extends TreasuryAccounting cfg st where
  sound : st.1.epochs.Forall EpochRow.Sound

/-- The treasury before its first accrual. -/
structure TreasuryFresh (cfg : Config) (st : TreasuryState) : Prop where
  treasury : st.1.treasury = none ∨ ∃ now, st.1.treasury = some (bootstrapTreasuryRow cfg now)
  epochs : st.1.epochs = .empty
  balance : st.2.balanceUnits treasuryAccountId = 0

theorem TreasuryFresh.invariant {cfg : Config} {st : TreasuryState} (h : TreasuryFresh cfg st) :
    TreasuryInvariant cfg st := by
  have hzero : (aggregateRow cfg st.1).totalAccumulated = 0 ∧
      (aggregateRow cfg st.1).totalClaimed = 0 ∧ (aggregateRow cfg st.1).lockedBalance = 0 ∧
      (aggregateRow cfg st.1).unlockedBalance = 0 := by
    unfold aggregateRow
    rcases h.treasury with hrow | ⟨now, hrow⟩ <;> rw [hrow] <;> exact ⟨rfl, rfl, rfl, rfl⟩
  obtain ⟨haccumulated, hclaimed, hlocked, hunlocked⟩ := hzero
  refine ⟨⟨?_, ?_, ?_, ?_, ?_⟩, ?_⟩
  · rw [haccumulated, hclaimed, hlocked, hunlocked]; rfl
  · rw [hlocked, h.epochs]; rfl
  · rw [hunlocked, h.epochs]; rfl
  · rw [Ledger.balance, h.balance, hlocked, hunlocked]; rfl
  · rw [h.epochs]; intro r hr; cases hr
  · rw [h.epochs]; intro r hr; cases hr

/-! ## Accrual -/

/-- The row an operation reads has the aggregate amounts. -/
theorem treasuryRow_amounts (cfg : Config) (now : Instant) (t : TreasuryTables) :
    (treasuryRow cfg now t).totalAccumulated = (aggregateRow cfg t).totalAccumulated ∧
      (treasuryRow cfg now t).totalClaimed = (aggregateRow cfg t).totalClaimed ∧
      (treasuryRow cfg now t).lockedBalance = (aggregateRow cfg t).lockedBalance ∧
      (treasuryRow cfg now t).unlockedBalance = (aggregateRow cfg t).unlockedBalance := by
  unfold treasuryRow aggregateRow
  cases t.treasury <;> exact ⟨rfl, rfl, rfl, rfl⟩

/-- The epochs after an accrual. -/
def accruedEpochs (epochs : Sql.Table String EpochRow) (now : Instant) (blockHeight amount : ℤ) :
    Sql.Table String EpochRow :=
  (epochs.insertNew (quarterEpoch now)
    (newEpochRow blockHeight (now + days scientificDevelopmentUnlockIntervalDays))).modify
    (quarterEpoch now) (EpochRow.accrue amount blockHeight)

/-- An accrual of nothing changes nothing; any other adds its amount to the aggregate row, to the
quarter's epoch and to the account. -/
theorem record_eq_ok {cfg : Config} {now : Instant} {t t' : TreasuryTables} {l l' : Ledger}
    {blockHeight blockReward : ℤ}
    (h : recordScientificDevelopmentTreasuryForBlock cfg now t l blockHeight blockReward =
      .ok (t', l')) :
    let units := scientificDevelopmentUnitsFromTotal cfg (unitsOf blockReward)
    (units ≤ 0 ∧ t' = t ∧ l' = l) ∨
      (0 < units ∧ l'.balanceUnits treasuryAccountId = l.balanceUnits treasuryAccountId + units ∧
        t'.epochs = accruedEpochs t.epochs now blockHeight (unitsToFloat units) ∧
        ∃ row, t'.treasury = some row ∧
          row.totalAccumulated = (aggregateRow cfg t).totalAccumulated + unitsToFloat units ∧
          row.totalClaimed = (aggregateRow cfg t).totalClaimed ∧
          row.lockedBalance = (aggregateRow cfg t).lockedBalance + unitsToFloat units ∧
          row.unlockedBalance = (aggregateRow cfg t).unlockedBalance) := by
  intro units
  unfold recordScientificDevelopmentTreasuryForBlock at h
  dsimp only at h
  split at h
  · next hzero =>
    cases h
    exact .inl ⟨hzero, rfl, rfl⟩
  · next hpos =>
    obtain ⟨ledger, hledger, h⟩ := bind_eq_ok.mp h
    cases h
    obtain ⟨haccumulated, hclaimed, hlocked, hunlocked⟩ := treasuryRow_amounts cfg now t
    refine .inr ⟨not_le.mp hpos, ?_, rfl, _, rfl, ?_, hclaimed, ?_, hunlocked⟩
    · rw [(applyLedgerEntry_posts hledger).balance]
      simp [units]
    · rw [← haccumulated]
    · rw [← hlocked]

/-- An accrual changes the sum of a column by its change of the quarter's epoch. -/
theorem sum_accruedEpochs (epochs : Sql.Table String EpochRow) (now : Instant)
    (blockHeight amount delta : ℤ) {f : EpochRow → ℤ}
    (hnew : ∀ unlockAt, f (newEpochRow blockHeight unlockAt) = 0)
    (hf : ∀ e, f (EpochRow.accrue amount blockHeight e) = f e + delta) :
    (accruedEpochs epochs now blockHeight amount).sum f = epochs.sum f + delta := by
  unfold accruedEpochs
  rw [Sql.Table.sum_modify, Sql.Table.sum_insertNew _ _ (hnew _), Sql.Table.find?_insertNew,
    if_pos rfl, Option.map_some, Option.getD_some, hf]
  ring

theorem TreasuryInvariant.accrue {cfg : Config} {st st' : TreasuryState} {now : Instant}
    {blockHeight blockReward : ℤ} (hinv : TreasuryInvariant cfg st)
    (h : (TreasuryOp.accrue now blockHeight blockReward).run cfg st = .ok st') :
    TreasuryInvariant cfg st' := by
  obtain ⟨t, l⟩ := st
  obtain ⟨t', l'⟩ := st'
  rcases record_eq_ok h with ⟨-, rfl, rfl⟩ | ⟨hpos, hbalance, hepochs, row, hrow, htotals⟩
  · exact hinv
  obtain ⟨haccumulated, hclaimed, hlocked, hunlocked⟩ := htotals
  -- the new epoch starts with zero amounts, and the accrual only adds to what is locked
  have hsumLocked := sum_accruedEpochs t.epochs now blockHeight (unitsToFloat _)
    (unitsToFloat (scientificDevelopmentUnitsFromTotal cfg (unitsOf blockReward)))
    (f := EpochRow.lockedAmount) (fun _ => rfl) (fun _ => rfl)
  have hsumUnlocked := sum_accruedEpochs t.epochs now blockHeight
    (unitsToFloat (scientificDevelopmentUnitsFromTotal cfg (unitsOf blockReward))) 0
    (f := EpochRow.unlockedAmount) (fun _ => rfl) (fun e => (add_zero e.unlockedAmount).symm)
  have haggregate : aggregateRow cfg t' = row := by rw [aggregateRow, hrow, Option.getD_some]
  have hbefore := hinv.toTreasuryAccounting
  have hfloat : 0 < unitsToFloat (scientificDevelopmentUnitsFromTotal cfg (unitsOf blockReward)) :=
    unitsToFloat_pos_iff.mpr hpos
  refine ⟨⟨?_, ?_, ?_, ?_, ?_⟩, ?_⟩
  · rw [haggregate, haccumulated, hclaimed, hlocked, hunlocked, hbefore.total]
    ring
  · rw [haggregate, hlocked, hepochs, hsumLocked, hbefore.locked]
  · rw [haggregate, hunlocked, hepochs, hsumUnlocked, hbefore.unlocked, add_zero]
  · rw [haggregate, hlocked, hunlocked, Ledger.balance, hbalance, ← unitsToFloat_add,
      ← Ledger.balance, hbefore.balance]
    ring
  · rw [hepochs]
    refine (hbefore.status.insertNew ?_).modify ?_
    · intro hlt
      exact absurd hlt (lt_irrefl 0)
    · exact fun _ _ _ => rfl
  · rw [hepochs]
    refine (hinv.sound.insertNew ?_).modify ?_
    · exact ⟨le_refl 0, le_refl 0, dvd_zero 100, dvd_zero 100⟩
    · rintro e ⟨hlocked, hunlocked, hlockedUnits, hunlockedUnits⟩
      refine ⟨by simp only [EpochRow.accrue]; omega, hunlocked, ?_, hunlockedUnits⟩
      exact dvd_add hlockedUnits (dvd_mul_left 100 _)

/-! ## Unlocking -/

theorem EpochRow.unlock_locked (now : Instant) (e : EpochRow) :
    (e.unlock now).lockedAmount + (if e.matured now then e.lockedAmount else 0) =
      e.lockedAmount := by
  unfold EpochRow.unlock
  split <;> simp

theorem EpochRow.unlock_unlocked (now : Instant) (e : EpochRow) :
    (e.unlock now).unlockedAmount =
      e.unlockedAmount + (if e.matured now then e.lockedAmount else 0) := by
  unfold EpochRow.unlock
  split <;> simp

theorem sum_unlock_locked (now : Instant) (epochs : Sql.Table String EpochRow) :
    (epochs.mapRows fun _ e => e.unlock now).sum EpochRow.lockedAmount + maturedTotal now epochs =
      epochs.sum EpochRow.lockedAmount := by
  rw [Sql.Table.sum_mapRows, maturedTotal]
  refine (epochs.sum_add (fun e => (e.unlock now).lockedAmount) _).symm.trans ?_
  exact epochs.sum_congr fun r _ => r.2.unlock_locked now

theorem sum_unlock_unlocked (now : Instant) (epochs : Sql.Table String EpochRow) :
    (epochs.mapRows fun _ e => e.unlock now).sum EpochRow.unlockedAmount =
      epochs.sum EpochRow.unlockedAmount + maturedTotal now epochs := by
  rw [Sql.Table.sum_mapRows, maturedTotal]
  refine Eq.trans ?_ (epochs.sum_add EpochRow.unlockedAmount _)
  exact congrArg List.sum (List.map_congr_left fun r _ => r.2.unlock_unlocked now)

theorem maturedTotal_nonneg (now : Instant) {epochs : Sql.Table String EpochRow}
    (h : epochs.Forall EpochRow.Sound) : 0 ≤ maturedTotal now epochs :=
  (h.imp fun e he => by split; exacts [he.locked_nonneg, le_refl 0]).sum_nonneg

theorem maturedTotal_le (now : Instant) {epochs : Sql.Table String EpochRow}
    (h : epochs.Forall EpochRow.Sound) :
    maturedTotal now epochs ≤ epochs.sum EpochRow.lockedAmount :=
  (h.imp fun e he => by split; exacts [le_refl _, he.locked_nonneg]).sum_le

theorem EpochRow.Sound.unlock {e : EpochRow} (h : e.Sound) (now : Instant) : (e.unlock now).Sound := by
  unfold EpochRow.unlock
  split
  · exact ⟨le_refl 0, add_nonneg h.unlocked_nonneg h.locked_nonneg, dvd_zero 100,
      dvd_add h.unlocked_units h.locked_units⟩
  · exact h

/-- Unlocking moves the matured amounts from the locked to the unlocked balance of the row. -/
theorem aggregateRow_unlock {cfg : Config} {st : TreasuryState} (hinv : TreasuryInvariant cfg st)
    (now : Instant) :
    let before := aggregateRow cfg st.1
    let after := aggregateRow cfg (unlockMaturedEpochs now st.1)
    after.totalAccumulated = before.totalAccumulated ∧ after.totalClaimed = before.totalClaimed ∧
      after.lockedBalance = before.lockedBalance - maturedTotal now st.1.epochs ∧
      after.unlockedBalance = before.unlockedBalance + maturedTotal now st.1.epochs := by
  intro before after
  have hnonneg := maturedTotal_nonneg now hinv.sound
  have hle : maturedTotal now st.1.epochs ≤ before.lockedBalance :=
    (maturedTotal_le now hinv.sound).trans_eq hinv.locked.symm
  by_cases hpos : 0 < maturedTotal now st.1.epochs
  · cases hrow : st.1.treasury with
    | none =>
      -- without a row nothing is locked, so nothing can mature
      have hzero : before.lockedBalance = 0 := by simp [before, aggregateRow, hrow, bootstrapTreasuryRow]
      omega
    | some row =>
      have hbefore : before = row := by simp [before, aggregateRow, hrow]
      rw [hbefore] at hle ⊢
      simp only [after, aggregateRow, unlockMaturedEpochs, if_pos hpos, hrow, Option.map_some,
        Option.getD_some, true_and]
      exact ⟨max_eq_right (by omega), trivial⟩
  · have hzero : maturedTotal now st.1.epochs = 0 := by omega
    have hsame : after = before := by simp only [after, before, aggregateRow, unlockMaturedEpochs,
      if_neg hpos]
    rw [hsame, hzero, sub_zero, add_zero]
    exact ⟨rfl, rfl, rfl, rfl⟩

theorem epochs_unlock (now : Instant) (t : TreasuryTables) :
    (unlockMaturedEpochs now t).epochs = t.epochs.mapRows fun _ e => e.unlock now := by
  unfold unlockMaturedEpochs
  dsimp only
  split <;> rfl

theorem claims_unlock (now : Instant) (t : TreasuryTables) :
    (unlockMaturedEpochs now t).claims = t.claims := by
  unfold unlockMaturedEpochs
  dsimp only
  split <;> rfl

theorem TreasuryInvariant.unlock {cfg : Config} {st : TreasuryState}
    (hinv : TreasuryInvariant cfg st) (now : Instant) :
    TreasuryInvariant cfg (unlockMaturedEpochs now st.1, st.2) := by
  obtain ⟨haccumulated, hclaimed, hlocked, hunlocked⟩ := aggregateRow_unlock hinv now
  have hsumLocked := sum_unlock_locked now st.1.epochs
  have hsumUnlocked := sum_unlock_unlocked now st.1.epochs
  have hbefore := hinv.toTreasuryAccounting
  refine ⟨⟨?_, ?_, ?_, ?_, ?_⟩, ?_⟩
  · rw [haccumulated, hclaimed, hlocked, hunlocked, hbefore.total]
    ring
  · rw [hlocked, epochs_unlock, hbefore.locked, ← hsumLocked]
    ring
  · rw [hunlocked, epochs_unlock, hsumUnlocked, hbefore.unlocked]
  · rw [hlocked, hunlocked, hbefore.balance]
    ring
  · rw [epochs_unlock]
    refine hbefore.status.mapRows fun _ e he => ?_
    unfold EpochRow.unlock
    split
    · intro hlt
      exact absurd hlt (lt_irrefl 0)
    · exact he
  · rw [epochs_unlock]
    exact hinv.sound.mapRows fun _ e he => he.unlock now

/-! ## Claims -/

/-- The condition on an operation, in the state before it. Of a claim that passes the checks on its
addresses and its id and has something to pay out: the treasury's wallet is another account than
the treasury, and no epoch would be paid out while a part of it stays locked. -/
def TreasuryOp.Safe (cfg : Config) (st : TreasuryState) : TreasuryOp → Prop
  | .accrue .. => True
  | .unlock _ => True
  | .claim _ requestedBy claimTo claimId nowDt =>
    (∃ requester, checkClaimAddresses cfg requestedBy claimTo = .ok requester) →
    st.1.claims.find? claimId = none →
    0 < (aggregateRow cfg st.1).unlockedBalance + maturedTotal nowDt st.1.epochs →
      cfg.scientificDevelopmentTreasuryWallet ≠ treasuryAccountId ∧
        st.1.epochs.Forall fun e =>
          0 < e.lockedAmount → 0 < e.unlockedAmount → e.unlockAt ≤ nowDt

theorem EpochRow.claim_locked (e : EpochRow) : e.claim.lockedAmount = e.lockedAmount := by
  unfold EpochRow.claim
  split <;> rfl

theorem EpochRow.claim_unlocked {e : EpochRow} (h : 0 ≤ e.unlockedAmount) :
    e.claim.unlockedAmount = 0 := by
  unfold EpochRow.claim
  split
  · rfl
  · omega

/-- After unlocking at the claim's time, an epoch that meets the condition is not both locked and
about to be paid out. -/
theorem EpochRow.unlock_not_both {e : EpochRow} {nowDt : Instant}
    (hstatus : 0 < e.lockedAmount → e.status = .locked)
    (hsafe : 0 < e.lockedAmount → 0 < e.unlockedAmount → e.unlockAt ≤ nowDt) :
    0 < (e.unlock nowDt).lockedAmount → (e.unlock nowDt).unlockedAmount ≤ 0 := by
  unfold EpochRow.unlock
  split
  · intro hlt
    exact absurd hlt (lt_irrefl 0)
  · next hmatured =>
    intro hlocked
    by_contra hpaid
    have hdue := hsafe hlocked (not_le.mp hpaid)
    exact hmatured (by simp [EpochRow.matured, EpochRow.isLocked, hstatus hlocked, hlocked, hdue])

/-- The two postings of a claim take the amount from the treasury's account. -/
theorem postedTo_claimPostings {cfg : Config} {units : ℤ} {claimId : String} {now : Instant}
    (hwallet : cfg.scientificDevelopmentTreasuryWallet ≠ treasuryAccountId) :
    let legs := claimPostings cfg (unitsToFloat units) claimId now
    postedTo [legs.1, legs.2] treasuryAccountId = -units := by
  intro legs
  simp [legs, claimPostings, hwallet]

theorem TreasuryInvariant.claim {cfg : Config} {st st' : TreasuryState} {now nowDt : Instant}
    {requestedBy claimTo : Option String} {claimId : String} (hinv : TreasuryInvariant cfg st)
    (hsafe : (TreasuryOp.claim now requestedBy claimTo claimId nowDt).Safe cfg st)
    (h : (TreasuryOp.claim now requestedBy claimTo claimId nowDt).run cfg st = .ok st') :
    TreasuryInvariant cfg st' := by
  obtain ⟨t', l'⟩ := st'
  obtain ⟨hpos, -, hposts, requester, hcheck, hfresh, ht'⟩ := claim_eq_ok h
  rw [claims_unlock] at hfresh
  obtain ⟨-, -, -, hclaimable⟩ := aggregateRow_unlock hinv nowDt
  have hstatus := hinv.status
  -- the claim works on the state after unlocking, which the invariant holds of
  have hunlocked := hinv.unlock nowDt
  obtain ⟨⟨htotal, hlocked, hunlockedSum, hbalance, hstillLocked⟩, hsound⟩ := hunlocked
  obtain ⟨haccumulatedRow, hclaimedRow, hlockedRow, hunlockedRow⟩ :=
    treasuryRow_amounts cfg now (unlockMaturedEpochs nowDt st.1)
  have hamount : claimableAmount cfg now nowDt st.1 =
      (aggregateRow cfg (unlockMaturedEpochs nowDt st.1)).unlockedBalance := hunlockedRow
  rw [hamount] at hpos ht' hposts
  obtain ⟨hwallet, hdue⟩ := hsafe ⟨requester, hcheck⟩ hfresh (hclaimable ▸ hpos)
  have hdvd := (hsound.imp fun e he => he.unlocked_units).dvd_sum
  dsimp only at htotal hlocked hunlockedSum hbalance hsound hdvd
  rw [← hunlockedSum] at hdvd
  generalize aggregateRow cfg (unlockMaturedEpochs nowDt st.1) = row at *
  -- whole units are paid out
  obtain ⟨units, hunits⟩ := hdvd
  have hfloat : row.unlockedBalance = unitsToFloat units := by
    rw [hunits, unitsToFloat, mul_comm]
  have hpaid : l'.balance treasuryAccountId = row.lockedBalance := by
    rw [hfloat] at hposts
    rw [Ledger.balance, hposts.balance, postedTo_claimPostings hwallet, ← unitsToFloat_add,
      ← Ledger.balance, hbalance, hfloat, unitsToFloat, unitsToFloat]
    ring
  have hepochs : t'.epochs = (unlockMaturedEpochs nowDt st.1).epochs.mapRows fun _ e => e.claim := by
    rw [ht']
  have hrow : aggregateRow cfg t' = { treasuryRow cfg now (unlockMaturedEpochs nowDt st.1) with
      totalClaimed := row.totalClaimed + row.unlockedBalance
      unlockedBalance := 0
      lastClaimAt := some nowDt } := by
    rw [aggregateRow, ht', Option.getD_some, hclaimedRow]
  refine ⟨⟨?_, ?_, ?_, ?_, ?_⟩, ?_⟩
  · rw [hrow]
    show (treasuryRow cfg now _).totalAccumulated =
      row.totalClaimed + row.unlockedBalance + (treasuryRow cfg now _).lockedBalance + 0
    rw [haccumulatedRow, hlockedRow, htotal]
    ring
  · rw [hrow, hepochs, Sql.Table.sum_mapRows]
    show (treasuryRow cfg now _).lockedBalance = _
    rw [hlockedRow, hlocked]
    exact congrArg List.sum (List.map_congr_left fun r _ => r.2.claim_locked.symm)
  · rw [hrow, hepochs, Sql.Table.sum_mapRows]
    show 0 = _
    refine (List.sum_eq_zero fun n hn => ?_).symm
    obtain ⟨r, hr, rfl⟩ := List.mem_map.mp hn
    exact EpochRow.claim_unlocked (hsound r hr).unlocked_nonneg
  · rw [hrow, hpaid]
    show row.lockedBalance = (treasuryRow cfg now _).lockedBalance + 0
    rw [hlockedRow, add_zero]
  · rw [hepochs, epochs_unlock]
    intro r hr hlt
    obtain ⟨r₁, hr₁, rfl⟩ := List.mem_map.mp hr
    obtain ⟨r₂, hr₂, rfl⟩ := List.mem_map.mp hr₁
    rw [EpochRow.claim_locked] at hlt
    -- an epoch with something locked pays out nothing, so the claim leaves it alone
    have hnone := EpochRow.unlock_not_both (hstatus r₂ hr₂) (hdue r₂ hr₂) hlt
    have hsame : (r₂.2.unlock nowDt).claim = r₂.2.unlock nowDt := by
      rw [EpochRow.claim, if_neg (not_lt.mpr hnone)]
    show (r₂.2.unlock nowDt).claim.status = .locked
    rw [hsame]
    rw [epochs_unlock] at hstillLocked
    exact hstillLocked _ hr₁ hlt
  · rw [hepochs]
    refine hsound.mapRows fun _ e he => ?_
    refine ⟨?_, ?_, ?_, ?_⟩
    · rw [EpochRow.claim_locked]; exact he.locked_nonneg
    · rw [EpochRow.claim_unlocked he.unlocked_nonneg]
    · rw [EpochRow.claim_locked]; exact he.locked_units
    · rw [EpochRow.claim_unlocked he.unlocked_nonneg]; exact dvd_zero 100

/-! ## Runs -/

theorem TreasuryInvariant.step {cfg : Config} {st : TreasuryState} {op : TreasuryOp}
    (hinv : TreasuryInvariant cfg st) (hsafe : op.Safe cfg st) :
    TreasuryInvariant cfg (op.step cfg st) := by
  refine attempt_of hinv fun st' h => ?_
  cases op with
  | accrue now blockHeight blockReward => exact hinv.accrue h
  | unlock now => cases h; exact hinv.unlock now
  | claim now requestedBy claimTo claimId nowDt => exact hinv.claim hsafe h

/-- **Treasury accounting.** In a run of accruals, unlocks and claims in any order and at any times,
whose claims all meet the condition, the figures are in step in every state that is reached. -/
theorem treasury_accounting {cfg : Config} {st : TreasuryState} {ops : List TreasuryOp}
    (hfresh : TreasuryFresh cfg st)
    (hsafe : EachStep (TreasuryOp.step cfg) (fun st op => op.Safe cfg st) st ops) :
    ∀ st' ∈ states (TreasuryOp.step cfg) st ops, TreasuryAccounting cfg st' := by
  intro st' hst'
  exact (invariant_of_eachStep (fun _ _ hinv hop => hinv.step hop) ops st hfresh.invariant hsafe
    st' hst').toTreasuryAccounting

/-! ## A claim in a quarter that is locked again -/

/-- The first of July 2026. -/
def quarterStart : Instant := days 20635

def freshTreasury : TreasuryState := ((localNode []).treasury, (localNode []).ledger)

/-- The rewards of two blocks, the first from the quarter's first day and the second from the day
when that one unlocks, which is in the same quarter. -/
def twoAccruals : List TreasuryOp :=
  [.accrue quarterStart 1 (1000 * 10 ^ 8), .unlock (quarterStart + days 90),
    .accrue (quarterStart + days 90 + seconds 1) 2 (1000 * 10 ^ 8)]

/-- A claim of the governance wallet at an instant. -/
def claimAt (nowDt : Instant) : TreasuryOp :=
  .claim (quarterStart + days 91) (some aliceAddress) none "claim-1" nowDt

theorem freshTreasury_fresh : TreasuryFresh localConfig freshTreasury where
  treasury := .inr ⟨0, rfl⟩
  epochs := rfl
  balance := rfl

/-- A claim with an earlier timestamp pays out the first reward and closes the epoch, in which the
second one is still locked. -/
theorem claim_closes_locked_epoch :
    ∃ st' ∈ states (TreasuryOp.step localConfig) freshTreasury
        (twoAccruals ++ [claimAt (quarterStart + days 89)]),
      ¬TreasuryAccounting localConfig st' := by
  have hclosed : ∃ st' ∈ states (TreasuryOp.step localConfig) freshTreasury
      (twoAccruals ++ [claimAt (quarterStart + days 89)]),
      ∃ r ∈ st'.1.epochs.rows, 0 < r.2.lockedAmount ∧ r.2.status = .claimed := by
    decide +kernel
  obtain ⟨st', hst', r, hr, hlocked, hclaimed⟩ := hclosed
  refine ⟨st', hst', fun haccounting => ?_⟩
  have hstatus := haccounting.status r hr hlocked
  rw [hclaimed] at hstatus
  cases hstatus

/-- A claim after the quarter's unlock time pays out both rewards. -/
theorem treasury_accounting_two_accruals :
    TreasuryAccounting localConfig
      ((twoAccruals ++ [claimAt (quarterStart + days 91)]).foldl (TreasuryOp.step localConfig)
        freshTreasury) := by
  have hdue : ∀ r ∈ (twoAccruals.foldl (TreasuryOp.step localConfig) freshTreasury).1.epochs.rows,
      0 < r.2.lockedAmount → 0 < r.2.unlockedAmount → r.2.unlockAt ≤ quarterStart + days 91 := by
    decide +kernel
  have hsafe : EachStep (TreasuryOp.step localConfig) (fun st op => op.Safe localConfig st)
      freshTreasury (twoAccruals ++ [claimAt (quarterStart + days 91)]) :=
    ⟨trivial, trivial, trivial, fun _ _ _ => ⟨by decide, hdue⟩, trivial⟩
  exact treasury_accounting freshTreasury_fresh hsafe _ (foldl_mem_states ..)

end Picoin
