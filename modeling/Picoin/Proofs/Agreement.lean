import Picoin.Services.Execution

/-!
# Runs from ledgers with the same balances

What a posting does to the balances, and whether it raises, depends on the balances and not on the
account types, the entries or the clock. The rules below say so for each writer, as simulations
(`Agree`) between two ledgers with the same balances (`SameBalances`).
-/

namespace Picoin

open Outcome

/-- Every account has the same balance in both ledgers. -/
def SameBalances (l l' : Ledger) : Prop := ∀ a, l.balanceUnits a = l'.balanceUnits a

theorem SameBalances.refl (l : Ledger) : SameBalances l l := fun _ => rfl

theorem SameBalances.balance {l l' : Ledger} (h : SameBalances l l') (a : String) :
    l.balance a = l'.balance a := congrArg unitsToFloat (h a)

/-- Postings of the same units to the same account keep the balances the same. -/
theorem SameBalances.write {l l' : Ledger} (h : SameBalances l l') (rowType rowType' : String)
    {p p' : Posting} (hid : p.accountId = p'.accountId) (hunits : p.amountUnits = p'.amountUnits) :
    SameBalances (l.write rowType p) (l'.write rowType' p') := by
  intro a
  rw [Ledger.balanceUnits_write, Ledger.balanceUnits_write, h a, hid, hunits]

theorem applyAccountDelta_agree {l l' : Ledger} (h : SameBalances l l')
    (accountId accountType : String) (amount : ℤ) (entryType : String) (blockHeight : ℤ)
    (relatedId description timestamp : String) :
    Agree SameBalances
      (applyAccountDelta l accountId accountType amount entryType blockHeight relatedId description
        timestamp)
      (applyAccountDelta l' accountId accountType amount entryType blockHeight relatedId
        description timestamp) := by
  unfold applyAccountDelta Ledger.post
  dsimp only
  rw [h accountId]
  by_cases hneg : l'.balanceUnits accountId + unitsOf amount < 0
  · rw [if_pos hneg, if_pos hneg]
    exact Agree.error _ _
  · rw [if_neg hneg, if_neg hneg]
    exact Agree.ok (h.write _ _ rfl rfl)

/-- The writer of the treasury; the two postings may differ in their texts. -/
theorem applyLedgerEntry_agree {l l' : Ledger} (h : SameBalances l l') {p p' : Posting}
    (hid : p.accountId = p'.accountId) (hunits : p.amountUnits = p'.amountUnits) :
    Agree SameBalances (applyLedgerEntry l p) (applyLedgerEntry l' p') := by
  unfold applyLedgerEntry Ledger.post
  rw [h p.accountId, hid, hunits]
  by_cases hneg : l'.balanceUnits p'.accountId + p'.amountUnits < 0
  · rw [if_pos hneg, if_pos hneg]
    exact Agree.error _ _
  · rw [if_neg hneg, if_neg hneg]
    exact Agree.ok (h.write _ _ hid hunits)

theorem applyFeeDebit_agree {l l' : Ledger} (h : SameBalances l l') (ctx : BlockContext) (tx : Tx)
    (fee : ℤ) (entryType description : String) :
    Agree SameBalances (applyFeeDebit ctx l tx fee entryType description)
      (applyFeeDebit ctx l' tx fee entryType description) := by
  unfold applyFeeDebit
  by_cases hfee : 0 < fee
  · rw [if_pos hfee, if_pos hfee]
    exact applyAccountDelta_agree h ..
  · rw [if_neg hfee, if_neg hfee]
    exact Agree.ok h

theorem applyFeeReward_agree {l l' : Ledger} (h : SameBalances l l') (ctx : BlockContext)
    (tx : Tx) : Agree SameBalances (applyFeeReward ctx l tx) (applyFeeReward ctx l' tx) := by
  unfold applyFeeReward
  by_cases hfee : txFee tx ≤ 0
  · rw [if_pos hfee, if_pos hfee]
    exact Agree.ok h
  · rw [if_neg hfee, if_neg hfee]
    exact applyAccountDelta_agree h ..

end Picoin
