import Mathlib.Tactic.Linarith
import Picoin.Db.Schema
import Picoin.Lib.Outcome

/-!
# Postings to the ledger

Every movement of coins is a posting: the account's balance is read, the units are added, the
balance row is written and an entry is appended. The writers of the three service modules differ
in the error they raise on a negative balance and in whether they overwrite the account type of
an existing balance row; `Ledger.post` is what they share.

`Posts l l' ps` says that `l'` is `l` after the postings `ps`; it is what the conservation and
frame arguments use instead of the writers' code.
-/

namespace Picoin

open Outcome

/-- What a service raises. -/
inductive ExecError where
  | transactionExecution (message : String)
  | science (statusCode : ℕ) (detail : String)
  | treasury (statusCode : ℕ) (detail : String)
  | integrity (message : String)
  | value (message : String)
deriving DecidableEq

namespace Ledger

/-- `_balance_units`: zero for an account without a row. -/
def balanceUnits (l : Ledger) (accountId : String) : ℤ :=
  ((l.balances.find? accountId).map BalanceRow.balanceUnits).getD 0

/-- `_balance`. -/
def balance (l : Ledger) (accountId : String) : ℤ := unitsToFloat (l.balanceUnits accountId)

/-- The account type of the balance row. -/
def accountType? (l : Ledger) (accountId : String) : Option String :=
  (l.balances.find? accountId).map BalanceRow.accountType

/-- The sum of all balances. -/
def totalUnits (l : Ledger) : ℤ := l.balances.sum BalanceRow.balanceUnits

/-- The ledger with the account's balance written and the entry appended. -/
def write (l : Ledger) (rowType : String) (p : Posting) : Ledger where
  balances := l.balances.upsert p.accountId
    ⟨rowType, l.balanceUnits p.accountId + p.amountUnits⟩
  entries := l.entries ++ [⟨p, l.balanceUnits p.accountId + p.amountUnits⟩]

/-- A posting; `none` when it would make the balance negative. -/
def post (l : Ledger) (rowType : String) (p : Posting) : Option Ledger :=
  if l.balanceUnits p.accountId + p.amountUnits < 0 then none else some (l.write rowType p)

/-- No balance is negative. -/
def NonNegative (l : Ledger) : Prop := ∀ accountId, 0 ≤ l.balanceUnits accountId

end Ledger

/-- `_apply_account_delta` of the transactions module: overwrites the account type. -/
def applyAccountDelta (l : Ledger) (accountId accountType : String) (amount : ℤ)
    (entryType : String) (blockHeight : ℤ) (relatedId description timestamp : String) :
    Except ExecError Ledger :=
  let posting : Posting :=
    { accountId, accountType, amountUnits := unitsOf amount, entryType
      blockHeight := some blockHeight, relatedId := some relatedId
      description := some description, createdAt := timestamp }
  match l.post accountType posting with
  | none => .error (.transactionExecution s!"negative balance for {accountId}")
  | some l' => .ok l'

/-- `_apply_ledger_entry` of the treasury module: an existing row keeps its account type. -/
def applyLedgerEntry (l : Ledger) (posting : Posting) : Except ExecError Ledger :=
  match l.post ((l.accountType? posting.accountId).getD posting.accountType) posting with
  | none => .error (.treasury 409 "treasury operation would create a negative balance")
  | some l' => .ok l'

/-! ## Balances after a posting -/

namespace Ledger

theorem balanceUnits_write (l : Ledger) (rowType : String) (p : Posting) (accountId : String) :
    (l.write rowType p).balanceUnits accountId =
      l.balanceUnits accountId + if p.accountId = accountId then p.amountUnits else 0 := by
  unfold balanceUnits write
  rw [Sql.Table.find?_upsert]
  by_cases h : accountId = p.accountId
  · subst h
    simp [balanceUnits]
  · simp [h, Ne.symm h]

theorem totalUnits_write (l : Ledger) (rowType : String) (p : Posting) :
    (l.write rowType p).totalUnits = l.totalUnits + p.amountUnits := by
  unfold totalUnits write
  rw [Sql.Table.sum_upsert]
  simp only [balanceUnits]
  ring

theorem nonNegative_of_rows {l : Ledger} (h : ∀ r ∈ l.balances.rows, 0 ≤ r.2.balanceUnits) :
    l.NonNegative := by
  intro a
  unfold balanceUnits
  cases hrow : l.balances.find? a with
  | none => rfl
  | some row => exact h _ (Sql.Table.find?_eq_some_iff.mp hrow)

theorem post_eq_some_iff {l l' : Ledger} {rowType : String} {p : Posting} :
    l.post rowType p = some l' ↔
      0 ≤ l.balanceUnits p.accountId + p.amountUnits ∧ l' = l.write rowType p := by
  unfold post
  split
  · next h => simp [h]
  · next h => simp [not_lt.mp h, eq_comm]

end Ledger

/-! ## Sequences of postings -/

/-- What the postings add to an account. -/
def postedTo (ps : List Posting) (accountId : String) : ℤ :=
  (ps.map fun p => if p.accountId = accountId then p.amountUnits else 0).sum

/-- What the postings add to all accounts together. -/
def posted (ps : List Posting) : ℤ := (ps.map Posting.amountUnits).sum

@[simp] theorem postedTo_nil (a : String) : postedTo [] a = 0 := rfl

@[simp] theorem postedTo_cons (p : Posting) (ps : List Posting) (a : String) :
    postedTo (p :: ps) a = (if p.accountId = a then p.amountUnits else 0) + postedTo ps a := rfl

@[simp] theorem postedTo_append (ps qs : List Posting) (a : String) :
    postedTo (ps ++ qs) a = postedTo ps a + postedTo qs a := by
  simp [postedTo]

@[simp] theorem posted_nil : posted [] = 0 := rfl

@[simp] theorem posted_cons (p : Posting) (ps : List Posting) :
    posted (p :: ps) = p.amountUnits + posted ps := rfl

@[simp] theorem posted_append (ps qs : List Posting) : posted (ps ++ qs) = posted ps + posted qs := by
  simp [posted]

/-- What entries add to an account is the sum of the account's entries. -/
theorem postedTo_entries (es : List LedgerEntry) (a : String) :
    postedTo (es.map LedgerEntry.toPosting) a =
      ((es.filter fun e => e.accountId = a).map fun e => e.amountUnits).sum := by
  induction es with
  | nil => rfl
  | cons e rest ih =>
    rw [List.map_cons, postedTo_cons, ih]
    by_cases h : e.accountId = a <;> simp [h]

/-- `l'` is `l` after the postings `ps`, none of which made a balance negative. -/
structure Posts (l l' : Ledger) (ps : List Posting) : Prop where
  entries : ∃ es : List LedgerEntry, l'.entries = l.entries ++ es ∧
    es.map LedgerEntry.toPosting = ps
  balance : ∀ a, l'.balanceUnits a = l.balanceUnits a + postedTo ps a
  total : l'.totalUnits = l.totalUnits + posted ps
  nonneg : l.NonNegative → l'.NonNegative

namespace Posts

theorem refl (l : Ledger) : Posts l l [] where
  entries := ⟨[], by simp⟩
  balance := by simp
  total := by simp
  nonneg := id

theorem trans {l₁ l₂ l₃ : Ledger} {ps qs : List Posting} (h : Posts l₁ l₂ ps)
    (h' : Posts l₂ l₃ qs) : Posts l₁ l₃ (ps ++ qs) where
  entries := by
    obtain ⟨es, hes, hps⟩ := h.entries
    obtain ⟨es', hes', hqs⟩ := h'.entries
    exact ⟨es ++ es', by rw [hes', hes, List.append_assoc], by rw [List.map_append, hps, hqs]⟩
  balance a := by rw [h'.balance, h.balance, postedTo_append, add_assoc]
  total := by rw [h'.total, h.total, posted_append, add_assoc]
  nonneg := h'.nonneg ∘ h.nonneg

theorem of_post {l l' : Ledger} {rowType : String} {p : Posting}
    (h : l.post rowType p = some l') : Posts l l' [p] := by
  obtain ⟨hp, rfl⟩ := Ledger.post_eq_some_iff.mp h
  refine ⟨⟨_, rfl, rfl⟩, fun a => ?_, ?_, fun hl a => ?_⟩
  · simp [Ledger.balanceUnits_write]
  · simp [Ledger.totalUnits_write]
  · rw [Ledger.balanceUnits_write]
    split
    · next heq => subst heq; exact hp
    · simpa using hl a

end Posts

/-! ## The two writers -/

theorem applyAccountDelta_eq_ok {l l' : Ledger} {accountId accountType : String} {amount : ℤ}
    {entryType : String} {blockHeight : ℤ} {relatedId description timestamp : String} :
    applyAccountDelta l accountId accountType amount entryType blockHeight relatedId description
        timestamp = .ok l' ↔
      l.post accountType ⟨accountId, accountType, unitsOf amount, entryType, some blockHeight,
        some relatedId, some description, timestamp⟩ = some l' := by
  unfold applyAccountDelta
  dsimp only
  split <;> simp_all

theorem applyLedgerEntry_eq_ok {l l' : Ledger} {p : Posting} :
    applyLedgerEntry l p = .ok l' ↔
      l.post ((l.accountType? p.accountId).getD p.accountType) p = some l' := by
  unfold applyLedgerEntry
  split <;> simp_all

theorem applyAccountDelta_posts {l l' : Ledger} {accountId accountType : String} {amount : ℤ}
    {entryType : String} {blockHeight : ℤ} {relatedId description timestamp : String}
    (h : applyAccountDelta l accountId accountType amount entryType blockHeight relatedId
      description timestamp = .ok l') :
    Posts l l' [⟨accountId, accountType, unitsOf amount, entryType, some blockHeight,
      some relatedId, some description, timestamp⟩] :=
  .of_post (applyAccountDelta_eq_ok.mp h)

theorem applyLedgerEntry_posts {l l' : Ledger} {p : Posting} (h : applyLedgerEntry l p = .ok l') :
    Posts l l' [p] :=
  .of_post (applyLedgerEntry_eq_ok.mp h)

end Picoin
