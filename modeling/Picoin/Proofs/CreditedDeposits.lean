import Picoin.Proofs.FinalCredits

/-!
# Transfers and their credits

A transfer is stored as one deposit, and a deposit has at most one credit. The status of a deposit
follows its credit, and a call of `process_confirmations` that returns has credited every deposit that
it found with its confirmations.

* **`Knows`** — what a call under way knows of the tables;
* **`Owes`** — a call that will mark a deposit as credited before it returns;
* **`Credits`** — the invariant: where an entry has no mark, a call owes it;
* **`credited_once_of_run`** — the runs in which the deposits come with an open status and one
  spelling of their transaction, and no put without confirmations takes a later status back;
* **`two_spellings_credited`** — a transaction with and without its prefix is credited twice.
-/

namespace Picoin.Market

open Outcome Run

/-! ## Transfers and entries -/

/-- The digits of a hash, with or without its prefix. -/
def bareHash (txHash : String) : List Char := (afterPrefix txHash.toList).getD txHash.toList

/-- The chain, the transaction and the log index of a deposit. -/
def Deposit.transfer (deposit : Deposit) : String × List Char × ℤ :=
  (deposit.chainCode, bareHash deposit.txHash, deposit.logIndex)

/-- The deposit has its credit in the ledger. -/
def Entered (ledger : Ledger) (id : String) : Prop :=
  (ledger.find? (depositReference id)).isSome

instance (ledger : Ledger) (id : String) : Decidable (Entered ledger id) :=
  inferInstanceAs (Decidable (_ = true))

/-- An entry stays in a ledger that grows. -/
theorem Entered.grows {ledger ledger' : Ledger} {id : String} (h : Entered ledger id)
    (hgrows : Grows ledger ledger') : Entered ledger' id := by
  obtain ⟨entry, hentry⟩ := Option.isSome_iff_exists.mp h
  exact Option.isSome_iff_exists.mpr ⟨entry, hgrows _ _ hentry⟩

/-- A deposit is not entered where the ledger has no entry under its reference. -/
theorem not_entered {ledger : Ledger} {id : String} :
    ¬ Entered ledger id ↔ ledger.find? (depositReference id) = none := by
  unfold Entered
  rw [Option.not_isSome_iff_eq_none]

/-- The entry is the credit of the deposit. -/
structure EntryOf (deposit : Deposit) (entry : LedgerEntry) : Prop where
  direction : entry.direction = .credit
  amountBaseUnits : entry.amountBaseUnits = deposit.amountBaseUnits
  accountId : entry.accountId = deposit.accountId
  chainCode : entry.chainCode = deposit.chainCode
  tokenSymbol : entry.tokenSymbol = deposit.tokenSymbol

/-- The entry of a credit is one of its deposit. -/
theorem entryOf_creditEntry (mc : MarketConfig) (deposit : Deposit) (now : Instant) :
    EntryOf deposit (creditEntry mc deposit now) :=
  ⟨rfl, rfl, rfl, rfl, rfl⟩

/-- It is one of every row with the same facts. -/
theorem EntryOf.of_facts {deposit row : Deposit} {entry : LedgerEntry} (h : EntryOf deposit entry)
    (hfacts : row.facts = deposit.facts) : EntryOf row entry where
  direction := h.direction
  amountBaseUnits := h.amountBaseUnits.trans (congrArg DepositFacts.amountBaseUnits hfacts).symm
  accountId := h.accountId.trans (congrArg DepositFacts.accountId hfacts).symm
  chainCode := h.chainCode.trans (congrArg DepositFacts.chainCode hfacts).symm
  tokenSymbol := h.tokenSymbol.trans (congrArg DepositFacts.tokenSymbol hfacts).symm

/-- The facts of a deposit say which transfer it is. -/
theorem transfer_of_facts {deposit row : Deposit} (h : row.facts = deposit.facts) :
    row.transfer = deposit.transfer := by
  have hcode : row.chainCode = deposit.chainCode := congrArg DepositFacts.chainCode h
  have hhash : row.txHash = deposit.txHash := congrArg DepositFacts.txHash h
  have hindex : row.logIndex = deposit.logIndex := congrArg DepositFacts.logIndex h
  unfold Deposit.transfer
  rw [hcode, hhash, hindex]

/-- The facts of a deposit say whether it is final. -/
theorem final_of_facts {deposit row : Deposit} (h : row.facts = deposit.facts)
    (confirmationsRequired latest : ℤ) :
    row.final confirmationsRequired latest = deposit.final confirmationsRequired latest := by
  have hnumber : row.blockNumber = deposit.blockNumber := congrArg DepositFacts.blockNumber h
  unfold Deposit.final
  rw [hnumber]

/-! ## What a call knows -/

/-- The row can be credited, or is. -/
def Ready (deposits : Deposits) (id : String) : Prop :=
  ∃ row, deposits.find? id = some row ∧ (row.status = .confirmed ∨ row.status = .credited)

/-- What a stage after the first knows. -/
def CreditStage.Knows (s : DepositTables) : CreditStage → Prop
  | .readDeposit _ => True
  | .readReference deposit => Ready s.deposits deposit.depositId
  | .putCredit deposit entry => Ready s.deposits deposit.depositId ∧ EntryOf deposit entry
  | .putDeposit deposit => Ready s.deposits deposit.depositId ∧ deposit.status = .credited ∧
    Entered s.ledger deposit.depositId

/-- A deposit that was accepted before the call read its rows, and that has its confirmations at the
height of the call, has its entry, or is left to do. -/
def Processing.Progress (s : DepositTables) (rows : List Deposit) (crediting : Option String)
    (processing : Processing) : Prop :=
  ∀ id ∈ processing.accepted, ∃ row, s.deposits.find? id = some row ∧
    (row.final processing.confirmationsRequired processing.latest = true →
      Entered s.ledger id ∨ id ∈ rows.map Deposit.depositId ∨ crediting = some id)

/-- A deposit waits for its credit. -/
def DepositStatus.isOpen : DepositStatus → Bool
  | .detected => true
  | .confirming => true
  | .confirmed => true
  | .credited => false
  | .reorged => false

def DepositCall.Knows (s : DepositTables) : DepositCall → Prop
  | .readRows _ _ => True
  | .process processing rows =>
    (∀ deposit ∈ rows, deposit.status.isOpen = true) ∧ processing.Progress s rows none
  | .creditRow processing stage rows => (∀ deposit ∈ rows, deposit.status.isOpen = true) ∧
    processing.Progress s rows (some stage.depositId) ∧ stage.Knows s ∧
      Ready s.deposits stage.depositId
  | .credit stage => stage.Knows s
  | .finished processing => processing.Progress s [] none
  | .raised _ => False
  | .ended => True

/-- The stage ends with a mark of the deposit. -/
def CreditStage.Owes (id : String) : CreditStage → Prop
  | .readDeposit id' => id' = id
  | .readReference deposit => deposit.depositId = id ∧ deposit.status ≠ .credited
  | .putCredit deposit _ => deposit.depositId = id
  | .putDeposit deposit => deposit.depositId = id

def DepositCall.Owes (id : String) : DepositCall → Prop
  | .creditRow _ stage _ => stage.Owes id
  | .credit stage => stage.Owes id
  | _ => False

/-- The deposit has its entry and is not marked. -/
def Unmarked (s : DepositTables) (id : String) : Prop :=
  Entered s.ledger id ∧ ∃ row, s.deposits.find? id = some row ∧ row.status ≠ .credited

/-! ## The tables -/

/-- The tables between two transactions. -/
structure TablesSound (s : DepositTables) : Prop where
  keyed : Keyed s.deposits
  unique : ∀ id₁ id₂ row₁ row₂, s.deposits.find? id₁ = some row₁ → s.deposits.find? id₂ = some row₂ →
    row₁.transfer = row₂.transfer → id₁ = id₂
  entry : ∀ id entry, s.ledger.find? (depositReference id) = some entry →
    ∃ row, s.deposits.find? id = some row ∧ EntryOf row entry ∧
      (row.status = .confirmed ∨ row.status = .credited)
  status : ∀ id row, s.deposits.find? id = some row → row.status.isOpen = true ∨
    row.status = .credited ∧ Entered s.ledger id

/-- A deposit that is entered was ready. -/
theorem TablesSound.ready {s : DepositTables} (h : TablesSound s) {id : String}
    (hentered : Entered s.ledger id) : Ready s.deposits id := by
  obtain ⟨entry, hentry⟩ := Option.isSome_iff_exists.mp hentered
  obtain ⟨row, hrow, -, hstatus⟩ := h.entry id entry hentry
  exact ⟨row, hrow, hstatus⟩

/-- What no transaction takes back. -/
structure Extends (s s' : DepositTables) : Prop where
  rows : ∀ id row, s.deposits.find? id = some row →
    ∃ row', s'.deposits.find? id = some row' ∧ row'.facts = row.facts
  grows : Grows s.ledger s'.ledger
  ready : ∀ id, Ready s.deposits id → Ready s'.deposits id

/-- Tables extend themselves. -/
theorem Extends.refl (s : DepositTables) : Extends s s :=
  ⟨fun _ row hrow => ⟨row, hrow, rfl⟩, Grows.refl _, fun _ h => h⟩

/-- The progress of a call survives while the tables grow. -/
theorem Processing.Progress.mono {s s' : DepositTables} {rows : List Deposit}
    {crediting : Option String} {processing : Processing} (h : processing.Progress s rows crediting)
    (hext : Extends s s') : processing.Progress s' rows crediting := by
  intro id hid
  obtain ⟨row, hrow, hleft⟩ := h id hid
  obtain ⟨row', hrow', hfacts⟩ := hext.rows id row hrow
  refine ⟨row', hrow', fun hfinal => ?_⟩
  rw [final_of_facts hfacts] at hfinal
  exact (hleft hfinal).imp_left fun hentered => hentered.grows hext.grows

/-- What a credit knows survives while the tables grow. -/
theorem CreditStage.Knows.mono {s s' : DepositTables} {stage : CreditStage} (h : stage.Knows s)
    (hext : Extends s s') : stage.Knows s' := by
  cases stage with
  | readDeposit id => trivial
  | readReference deposit => exact hext.ready _ h
  | putCredit deposit entry => exact ⟨hext.ready _ h.1, h.2⟩
  | putDeposit deposit => exact ⟨hext.ready _ h.1, h.2.1, h.2.2.grows hext.grows⟩

/-- The other calls keep what a call knows. -/
theorem DepositCall.Knows.mono {s s' : DepositTables} {left : DepositCall} (h : left.Knows s)
    (hext : Extends s s') : left.Knows s' := by
  cases left with
  | readRows chainCode latest => trivial
  | process processing rows => exact ⟨h.1, h.2.mono hext⟩
  | creditRow processing stage rows =>
    exact ⟨h.1, h.2.1.mono hext, h.2.2.1.mono hext, hext.ready _ h.2.2.2⟩
  | credit stage => exact CreditStage.Knows.mono h hext
  | finished processing => exact Processing.Progress.mono h hext
  | raised processing => exact h
  | ended => trivial

/-! ## One transaction of `credit_deposit` -/

/-- A credit raises where the deposit is not ready, or its entry is refused. -/
theorem creditStep_error {mc : MarketConfig} {now : Instant} {s : DepositTables}
    {stage : CreditStage} {e : String}
    (h : creditStep mc now s.deposits s.ledger stage = .error e) :
    (∃ id, stage = .readDeposit id ∧ ¬ Ready s.deposits id) ∨
      ∃ deposit entry, stage = .putCredit deposit entry ∧ ¬ Entered s.ledger deposit.depositId ∧
        ∃ row ∈ s.ledger.rows, row.2.entryId = entry.entryId := by
  cases stage with
  | readDeposit id =>
    refine .inl ⟨id, rfl, ?_⟩
    rintro ⟨row, hrow, hstatus⟩
    simp only [creditStep, hrow, if_pos hstatus] at h
    cases h
  -- a missing reference is no error
  | readReference deposit =>
    simp only [creditStep] at h
    cases hentry : s.ledger.find? (depositReference deposit.depositId) with
    | none =>
      rw [hentry] at h
      cases h
    | some entry =>
      simp only [hentry] at h
      split at h <;> cases h
  | putCredit deposit entry =>
    refine .inr ⟨deposit, entry, rfl, ?_⟩
    cases hput : putLedgerEntry s.ledger (depositReference deposit.depositId) entry with
    | ok ledger =>
      simp only [creditStep, hput] at h
      cases h
    | error reason =>
      unfold putLedgerEntry at hput
      split at hput
      · cases hput
      · next hnone =>
        refine ⟨hnone, ?_⟩
        split at hput
        · next hany =>
          obtain ⟨row, hrow, hid⟩ := List.any_eq_true.mp hany
          exact ⟨row, hrow, of_decide_eq_true hid⟩
        · cases hput
  | putDeposit deposit => cases h

section Move

variable {mc : MarketConfig} {now : Instant} {s s' : DepositTables}

/-- A put on a row that can be credited does not take that back. -/
theorem ready_putDeposit {deposits : Deposits} {deposit : Deposit}
    (h : ∀ row, deposits.find? deposit.depositId = some row →
      row.status = .confirmed ∨ row.status = .credited →
        deposit.status = .confirmed ∨ deposit.status = .credited)
    (id : String) (hready : Ready deposits id) : Ready (putDeposit deposits deposit) id := by
  obtain ⟨row, hrow, hstatus⟩ := hready
  unfold Ready
  rw [find?_putDeposit]
  split
  · rename_i hid
    rw [hrow]
    exact ⟨deposit, rfl, h row (hid ▸ hrow) hstatus⟩
  · exact ⟨row, hrow, hstatus⟩

/-- A put of a deposit that a call holds extends the tables. -/
theorem extends_putDeposit {deposit : Deposit} (hknown : Known s.deposits deposit)
    (h : ∀ row, s.deposits.find? deposit.depositId = some row →
      row.status = .confirmed ∨ row.status = .credited →
        deposit.status = .confirmed ∨ deposit.status = .credited) :
    Extends s ⟨putDeposit s.deposits deposit, s.ledger⟩ where
  rows id row hrow := by
    have hfacts := map_facts_putDeposit hknown id
    rw [hrow] at hfacts
    exact Option.map_eq_some_iff.mp hfacts
  grows := Grows.refl _
  ready := ready_putDeposit h

/-- A transaction of `credit_deposit` extends the tables. -/
theorem CreditMove.extends {deposits : Deposits} {ledger : Ledger} {stage : CreditStage}
    {stage' : Option CreditStage}
    (hmove : CreditMove mc now s.deposits s.ledger stage deposits ledger stage')
    (hheld : ∀ deposit ∈ stage.held, Known s.deposits deposit) (hknows : stage.Knows s) :
    Extends s ⟨deposits, ledger⟩ := by
  have hgrows := hmove.grows
  cases hmove with
  | @put deposit =>
    exact extends_putDeposit (hheld deposit List.mem_cons_self) fun _ _ _ => .inr hknows.2.1
  | _ => exact ⟨fun _ row hrow => ⟨row, hrow, rfl⟩, hgrows, fun _ h => h⟩

/-- What the next stage knows. -/
theorem CreditMove.knows {deposits : Deposits} {ledger : Ledger} {stage stage' : CreditStage}
    (hmove : CreditMove mc now s.deposits s.ledger stage deposits ledger (some stage'))
    (hkeyed : Keyed s.deposits) (hknows : stage.Knows s) : stage'.Knows ⟨deposits, ledger⟩ := by
  cases hmove with
  | @read id deposit hrow hstatus =>
    have hid := hkeyed id deposit hrow
    exact ⟨deposit, hid.symm ▸ hrow, hstatus⟩
  | mark creditedAt hentry => exact ⟨hknows, rfl, hentry⟩
  | missing hentry => exact ⟨hknows, entryOf_creditEntry mc _ now⟩
  | @enter deposit entry ledger hput =>
    refine ⟨hknows.1, rfl, ?_⟩
    rcases putLedgerEntry_eq_ok hput with ⟨hentry, rfl⟩ | ⟨-, rfl⟩
    · exact hentry
    · show ((s.ledger.upsert (depositReference deposit.depositId) entry).find?
        (depositReference deposit.depositId)).isSome
      rw [Sql.Table.find?_upsert_self]
      rfl

/-- The last transaction leaves the deposit with its entry. -/
theorem CreditMove.entered_of_last {deposits : Deposits} {ledger : Ledger} {stage : CreditStage}
    (hmove : CreditMove mc now s.deposits s.ledger stage deposits ledger none)
    (hknows : stage.Knows s) : Entered ledger stage.depositId := by
  cases hmove with
  | found hstatus hentry => exact hentry
  | put => exact hknows.2.2

/-- An unmarked deposit is owed by the next stage, or was unmarked and not owed by this one. -/
theorem CreditMove.unmarked {deposits : Deposits} {ledger : Ledger} {stage : CreditStage}
    {stage' : Option CreditStage}
    (hmove : CreditMove mc now s.deposits s.ledger stage deposits ledger stage')
    (hkeyed : Keyed s.deposits) (hknows : stage.Knows s) {id : String}
    (h : Unmarked ⟨deposits, ledger⟩ id) :
    (∃ later, stage' = some later ∧ later.Owes id) ∨ Unmarked s id ∧ ¬ stage.Owes id := by
  obtain ⟨hentered, row, hrow, hstatus⟩ := h
  cases hmove with
  | @read id' deposit hfind _ =>
    by_cases hid : id' = id
    · refine .inl ⟨_, rfl, (hkeyed id' deposit hfind).trans hid, ?_⟩
      rw [hid, hrow] at hfind
      exact Option.some.inj hfind ▸ hstatus
    · exact .inr ⟨⟨hentered, row, hrow, hstatus⟩, hid⟩
  | found hcredited _ =>
    exact .inr ⟨⟨hentered, row, hrow, hstatus⟩, fun howes => howes.2 hcredited⟩
  | @mark deposit _ _ =>
    by_cases hid : deposit.depositId = id
    · exact .inl ⟨_, rfl, hid⟩
    · exact .inr ⟨⟨hentered, row, hrow, hstatus⟩, fun howes => hid howes.1⟩
  | missing hnone =>
    refine .inr ⟨⟨hentered, row, hrow, hstatus⟩, fun howes => ?_⟩
    exact not_entered.mpr hnone (howes.1 ▸ hentered)
  | @enter deposit entry ledger hput =>
    -- the entry of another deposit was in the ledger before this put
    by_cases hid : deposit.depositId = id
    · exact .inl ⟨_, rfl, hid⟩
    · refine .inr ⟨⟨?_, row, hrow, hstatus⟩, hid⟩
      by_contra hbefore
      have hmove : CreditMove mc now s.deposits s.ledger (.putCredit deposit entry) s.deposits ledger
        (some (.putDeposit (deposit.markCredited now))) := .enter hput
      exact hid (hmove.entered (not_entered.mp hbefore) hentered)
  | @put deposit =>
    rw [find?_putDeposit] at hrow
    split at hrow
    -- the row that is written is marked
    · obtain ⟨_, -, rfl⟩ := Option.map_eq_some_iff.mp hrow
      exact absurd hknows.2.1 hstatus
    · rename_i hid
      exact .inr ⟨⟨hentered, row, hrow, hstatus⟩, fun heq => hid heq.symm⟩

/-- The tables stay sound under what extends them, where new entries and new statuses are sound. -/
theorem TablesSound.extend (h : TablesSound s) (hkeyed : Keyed s'.deposits)
    (hfacts : ∀ id, (s'.deposits.find? id).map Deposit.facts =
      (s.deposits.find? id).map Deposit.facts)
    (hready : ∀ id, Ready s.deposits id → Ready s'.deposits id)
    (hentry : ∀ id entry, s'.ledger.find? (depositReference id) = some entry →
      s.ledger.find? (depositReference id) = some entry ∨
        Ready s.deposits id ∧ ∃ row, s.deposits.find? id = some row ∧ EntryOf row entry)
    (hstatus : ∀ id row, s'.deposits.find? id = some row → row.status.isOpen = true ∨
      row.status = .credited ∧ Entered s'.ledger id) : TablesSound s' where
  keyed := hkeyed
  unique id₁ id₂ row₁ row₂ hrow₁ hrow₂ htransfer := by
    obtain ⟨old₁, hold₁, heq₁⟩ := row_before hfacts hrow₁
    obtain ⟨old₂, hold₂, heq₂⟩ := row_before hfacts hrow₂
    -- the facts of a row never change, so neither does its transfer
    refine h.unique id₁ id₂ old₁ old₂ hold₁ hold₂ ?_
    rw [transfer_of_facts heq₁, transfer_of_facts heq₂, htransfer]
  entry id entry hfind := by
    have hold : Ready s.deposits id ∧ ∃ row, s.deposits.find? id = some row ∧ EntryOf row entry := by
      rcases hentry id entry hfind with hold | hnew
      · obtain ⟨row, hrow, hof, hstatus⟩ := h.entry id entry hold
        exact ⟨⟨row, hrow, hstatus⟩, row, hrow, hof⟩
      · exact hnew
    obtain ⟨hwas, row, hrow, hof⟩ := hold
    obtain ⟨row', hrow', hnow⟩ := hready id hwas
    obtain ⟨old, hold, heq⟩ := row_before hfacts hrow'
    rw [hrow] at hold
    cases hold
    exact ⟨row', hrow', hof.of_facts heq.symm, hnow⟩
  status := hstatus

/-- A put keeps the statuses sound where the status that is put is. -/
theorem status_putDeposit {deposit : Deposit} (h : TablesSound s)
    (hput : deposit.status.isOpen = true ∨
      deposit.status = .credited ∧ Entered s.ledger deposit.depositId) (id : String) (row : Deposit)
    (hrow : (putDeposit s.deposits deposit).find? id = some row) : row.status.isOpen = true ∨
      row.status = .credited ∧ Entered s.ledger id := by
  rw [find?_putDeposit] at hrow
  split at hrow
  · rename_i hid
    obtain ⟨_, -, rfl⟩ := Option.map_eq_some_iff.mp hrow
    exact hid ▸ hput
  · exact h.status id row hrow

/-- A step of a credit leaves the tables sound. -/
theorem CreditMove.tables {deposits : Deposits} {ledger : Ledger} {stage : CreditStage}
    {stage' : Option CreditStage}
    (hmove : CreditMove mc now s.deposits s.ledger stage deposits ledger stage')
    (hheld : ∀ deposit ∈ stage.held, Known s.deposits deposit) (hknows : stage.Knows s)
    (h : TablesSound s) : TablesSound ⟨deposits, ledger⟩ := by
  obtain ⟨hkeyed, hfacts, -⟩ := hmove.keeps h.keyed hheld
  have hext := hmove.extends hheld hknows
  refine h.extend hkeyed hfacts hext.ready (fun id entry hfind => ?_) fun id row hrow => ?_
  -- only `putCredit` writes the ledger, and only `putDeposit` a status
  · cases hmove with
    | @enter deposit entry' ledger hput =>
      rcases putLedgerEntry_eq_ok hput with ⟨-, rfl⟩ | ⟨-, rfl⟩
      · exact .inl hfind
      · change (s.ledger.upsert _ _).find? _ = _ at hfind
        rw [Sql.Table.find?_upsert] at hfind
        split at hfind
        · rename_i hreference
          cases hfind
          have hid : id = deposit.depositId := congrArg Prod.snd hreference
          obtain ⟨row, hrow, heq⟩ := (hheld deposit List.mem_cons_self).row
          exact .inr ⟨hid ▸ hknows.1, row, hid ▸ hrow, hknows.2.of_facts heq⟩
        · exact .inl hfind
    | _ => exact .inl hfind
  · cases hmove with
    | put => exact status_putDeposit h (.inr hknows.2) id row hrow
    | enter hput =>
      exact (h.status id row hrow).imp_right fun hstatus =>
        ⟨hstatus.1, hstatus.2.grows (grows_putLedgerEntry hput)⟩
    | _ => exact h.status id row hrow

end Move

/-! ## One transaction of a call -/

/-- A put of the deposit does not take back the status of its row. -/
def KeepsStatus (deposits : Deposits) (deposit : Deposit) : Prop :=
  ∀ row ∈ deposits.find? deposit.depositId,
    row.status = .confirmed ∨ row.status = .credited → deposit.status = row.status

/-- The entry of the deposit does not have the id of another entry. -/
def CreditStage.Fresh (ledger : Ledger) : CreditStage → Prop
  | .putCredit deposit entry => ∀ row ∈ ledger.rows,
    row.2.entryId = entry.entryId → row.1 = depositReference deposit.depositId
  | .readDeposit _ => True
  | .readReference _ => True
  | .putDeposit _ => True

/-- What the next transaction puts still stands. -/
def DepositCall.Lands (s : DepositTables) : DepositCall → Prop
  | .process processing rows => ∀ deposit ∈ (processing.reached rows).head?,
    deposit.final processing.confirmationsRequired processing.latest = false →
      KeepsStatus s.deposits deposit
  | .creditRow _ stage _ => stage.Fresh s.ledger
  | _ => True

/-- A final deposit is confirmed. -/
theorem confirm_status_of_final {confirmationsRequired latest : ℤ} {deposit : Deposit}
    (now : Instant) (h : deposit.final confirmationsRequired latest = true) :
    (deposit.confirm confirmationsRequired latest now).status = .confirmed := by
  unfold Deposit.confirm
  rw [if_pos h]

/-- Another one is confirming once it was detected; a later status stays. -/
theorem confirm_status_of_not_final {confirmationsRequired latest : ℤ} {deposit : Deposit}
    (now : Instant) (h : deposit.final confirmationsRequired latest = false) :
    (deposit.confirm confirmationsRequired latest now).status =
      if deposit.status = .detected then .confirming else deposit.status := by
  unfold Deposit.confirm
  rw [if_neg (by rw [h]; exact Bool.false_ne_true)]

/-- A known deposit stays known when it is confirmed. -/
theorem Known.confirm {deposits : Deposits} {deposit : Deposit} (h : Known deposits deposit)
    (confirmationsRequired latest : ℤ) (now : Instant) :
    Known deposits (deposit.confirm confirmationsRequired latest now) := by
  unfold Known
  rw [confirm_depositId, confirm_facts]
  exact h

/-- The open states come before the credit. -/
theorem DepositStatus.isOpen_iff {status : DepositStatus} : status.isOpen = true ↔
    status = .detected ∨ status = .confirming ∨ status = .confirmed := by
  cases status <;> decide

/-- The rows above the latest block do not have their confirmations. -/
theorem mem_reached_of_final {processing : Processing} {rows : List Deposit} {deposit : Deposit}
    (hmem : deposit ∈ rows)
    (hfinal : deposit.final processing.confirmationsRequired processing.latest = true) :
    deposit ∈ processing.reached rows := by
  unfold Processing.reached
  rw [← List.takeWhile_append_dropWhile (p := fun deposit => processing.latest < deposit.blockNumber)
    (l := rows)] at hmem
  rcases List.mem_append.mp hmem with habove | hleft
  · have habove' := List.mem_takeWhile_imp habove
    have hlatest : processing.latest < deposit.blockNumber := of_decide_eq_true habove'
    have hrequired := processing.one_le_confirmations
    have hdeep : processing.confirmationsRequired ≤ processing.latest - deposit.blockNumber + 1 :=
      of_decide_eq_true hfinal
    omega
  · exact hleft

section Progress

variable {s : DepositTables} {processing : Processing} {rows rest : List Deposit}
  {crediting : Option String}

/-- The deposits that are not final need no turn. -/
theorem Processing.Progress.reached (h : processing.Progress s rows crediting)
    (hknown : ∀ deposit ∈ rows, Known s.deposits deposit) :
    processing.Progress s (processing.reached rows) crediting := by
  intro id hid
  obtain ⟨row, hrow, hleft⟩ := h id hid
  refine ⟨row, hrow, fun hfinal => ?_⟩
  refine (hleft hfinal).imp_right fun hleft => hleft.imp_left fun hmem => ?_
  obtain ⟨deposit, hdeposit, rfl⟩ := List.mem_map.mp hmem
  obtain ⟨row', hrow', hfacts⟩ := (hknown deposit hdeposit).row
  rw [hrow] at hrow'
  cases hrow'
  rw [final_of_facts hfacts] at hfinal
  exact List.mem_map_of_mem (mem_reached_of_final hdeposit hfinal)

/-- A row without its confirmations is left. -/
theorem Processing.Progress.wait {deposit : Deposit}
    (h : processing.Progress s (deposit :: rest) crediting) (hknown : Known s.deposits deposit)
    (hfinal : deposit.final processing.confirmationsRequired processing.latest = false) :
    processing.Progress s rest crediting := by
  intro id hid
  obtain ⟨row, hrow, hleft⟩ := h id hid
  refine ⟨row, hrow, fun hrowFinal => ?_⟩
  refine (hleft hrowFinal).imp_right fun hleft => hleft.imp_left fun hmem => ?_
  rcases List.mem_cons.mp hmem with rfl | hmem
  · obtain ⟨row', hrow', hfacts⟩ := hknown.row
    rw [hrow] at hrow'
    cases hrow'
    rw [final_of_facts hfacts, hfinal] at hrowFinal
    cases hrowFinal
  · exact hmem

/-- The next deposit is the one to be credited. -/
theorem Processing.Progress.confirm {deposit : Deposit}
    (h : processing.Progress s (deposit :: rest) none) :
    processing.Progress s rest (some deposit.depositId) := by
  intro id hid
  obtain ⟨row, hrow, hleft⟩ := h id hid
  refine ⟨row, hrow, fun hfinal => ?_⟩
  rcases hleft hfinal with hentered | hmem | hnone
  · exact .inl hentered
  · rcases List.mem_cons.mp hmem with rfl | hmem
    · exact .inr (.inr rfl)
    · exact .inr (.inl hmem)
  · cases hnone

/-- With its entry the turn of a deposit is over. -/
theorem Processing.Progress.credited {id : String} (h : processing.Progress s rows (some id))
    (hentered : Entered s.ledger id) : processing.Progress s rows none := by
  intro id' hid
  obtain ⟨row, hrow, hleft⟩ := h id' hid
  refine ⟨row, hrow, fun hfinal => ?_⟩
  rcases hleft hfinal with hentered' | hmem | hcrediting
  · exact .inl hentered'
  · exact .inr (.inl hmem)
  · cases hcrediting
    exact .inl hentered

/-- The rows that a call reads are those that wait for their credit. -/
theorem progress_openDeposits (h : TablesSound s)
    (haccepted : processing.accepted = acceptedIds s.deposits processing.chainCode) :
    processing.Progress s (openDeposits s.deposits processing.chainCode) none := by
  intro id hid
  rw [haccepted] at hid
  obtain ⟨⟨key, row⟩, hmem, rfl⟩ := List.mem_map.mp hid
  obtain ⟨hmem, hchain⟩ := List.mem_filter.mp hmem
  have hrow := Sql.Table.find?_eq_some_iff.mpr hmem
  refine ⟨row, hrow, fun _ => ?_⟩
  rcases h.status key row hrow with hopen | ⟨-, hentered⟩
  · refine .inr (.inl (List.mem_map.mpr ⟨row, ?_, h.keyed key row hrow⟩))
    exact mem_openDeposits.mpr
      ⟨⟨key, hrow⟩, of_decide_eq_true hchain, DepositStatus.isOpen_iff.mp hopen⟩
  · exact .inl hentered

end Progress

section CallMove

variable {mc : MarketConfig} {now : Instant} {s s' : DepositTables} {left left' : DepositCall}

/-- A call of `process_confirmations` does not raise. -/
theorem not_raise {processing : Processing} {rows : List Deposit} {stage : CreditStage} {e : String}
    (herror : creditStep mc now s.deposits s.ledger stage = .error e)
    (hknows : (DepositCall.creditRow processing stage rows).Knows s)
    (hlands : (DepositCall.creditRow processing stage rows).Lands s) : False := by
  rcases creditStep_error herror with ⟨id, rfl, hready⟩ | ⟨deposit, entry, rfl, hnone, row, hrow, hid⟩
  · exact hready hknows.2.2.2
  · refine hnone (Option.isSome_iff_exists.mpr ⟨row.2, ?_⟩)
    exact hlands row hrow hid ▸ Sql.Table.find?_eq_some_iff.mpr hrow

/-- A step of a call lets the tables grow. -/
theorem CallMove.extends (hmove : CallMove mc now s left s' left')
    (hheld : ∀ deposit ∈ left.held, Known s.deposits deposit) (hknows : left.Knows s)
    (hlands : left.Lands s) : Extends s s' := by
  cases hmove with
  | @wait processing rows rest deposit hrows hfinal =>
    have hmem : deposit ∈ rows := mem_of_reached (hrows ▸ List.mem_cons_self)
    refine extends_putDeposit ((hheld deposit hmem).confirm _ _ now) fun row hrow hstatus => ?_
    rw [confirm_depositId] at hrow
    have hkeeps := hlands deposit (hrows ▸ rfl) hfinal row hrow hstatus
    have hopen := hknows.1 deposit hmem
    rw [confirm_status_of_not_final now hfinal]
    rw [hkeeps] at hopen ⊢
    rcases hstatus with hstatus | hstatus <;> rw [hstatus] at hopen ⊢
    · exact .inl rfl
    · cases hopen
  | @confirm processing rows rest deposit hrows hfinal =>
    have hmem : deposit ∈ rows := mem_of_reached (hrows ▸ List.mem_cons_self)
    exact extends_putDeposit ((hheld deposit hmem).confirm _ _ now) fun _ _ _ =>
      .inl (confirm_status_of_final now hfinal)
  | creditRow hmove =>
    exact hmove.extends (fun d hd => hheld d (List.mem_append_left _ hd)) hknows.2.2.1
  | creditedRow hmove =>
    exact hmove.extends (fun d hd => hheld d (List.mem_append_left _ hd)) hknows.2.2.1
  | credit hmove => exact hmove.extends hheld hknows
  | credited hmove => exact hmove.extends hheld hknows
  | _ => exact Extends.refl s

/-- It leaves them sound. -/
theorem CallMove.tables (hmove : CallMove mc now s left s' left')
    (hheld : ∀ deposit ∈ left.held, Known s.deposits deposit) (hknows : left.Knows s)
    (hlands : left.Lands s) (h : TablesSound s) : TablesSound s' := by
  have hext := hmove.extends hheld hknows hlands
  obtain ⟨hkeyed, hfacts, -⟩ := hmove.keeps h.keyed hheld
  cases hmove with
  | @wait processing rows rest deposit hrows hfinal =>
    have hopen := hknows.1 deposit (mem_of_reached (hrows ▸ List.mem_cons_self))
    refine h.extend hkeyed hfacts hext.ready (fun _ _ => .inl) (status_putDeposit h (.inl ?_))
    rw [confirm_status_of_not_final now hfinal]
    split
    · rfl
    · exact hopen
  | confirm hrows hfinal =>
    refine h.extend hkeyed hfacts hext.ready (fun _ _ => .inl) (status_putDeposit h (.inl ?_))
    rw [confirm_status_of_final now hfinal]
    rfl
  | creditRow hmove =>
    exact hmove.tables (fun d hd => hheld d (List.mem_append_left _ hd)) hknows.2.2.1 h
  | creditedRow hmove =>
    exact hmove.tables (fun d hd => hheld d (List.mem_append_left _ hd)) hknows.2.2.1 h
  | credit hmove => exact hmove.tables hheld hknows h
  | credited hmove => exact hmove.tables hheld hknows h
  | _ => exact h

/-- The call goes on knowing what it needs. -/
theorem CallMove.knows (hmove : CallMove mc now s left s' left')
    (hheld : ∀ deposit ∈ left.held, Known s.deposits deposit) (hknows : left.Knows s)
    (hlands : left.Lands s) (h : TablesSound s) : left'.Knows s' := by
  have hext := hmove.extends hheld hknows hlands
  cases hmove with
  | unknown => trivial
  | rows hchain =>
    exact ⟨fun deposit hdeposit => DepositStatus.isOpen_iff.mpr (mem_openDeposits.mp hdeposit).2.2,
      progress_openDeposits h rfl⟩
  | @finish processing rows hrows =>
    have hprogress := hknows.2.reached hheld
    rw [hrows] at hprogress
    exact hprogress
  | @wait processing rows rest deposit hrows hfinal =>
    have hmem : ∀ row ∈ deposit :: rest, row ∈ rows := fun row hrow =>
      mem_of_reached (hrows ▸ hrow)
    have hprogress : processing.Progress s (deposit :: rest) none := hrows ▸ hknows.2.reached hheld
    exact ⟨fun row hrow => hknows.1 row (hmem row (List.mem_cons_of_mem _ hrow)),
      (hprogress.wait (hheld deposit (hmem deposit List.mem_cons_self)) hfinal).mono hext⟩
  | @confirm processing rows rest deposit hrows hfinal =>
    have hmem : ∀ row ∈ deposit :: rest, row ∈ rows := fun row hrow =>
      mem_of_reached (hrows ▸ hrow)
    have hprogress : processing.Progress s (deposit :: rest) none := hrows ▸ hknows.2.reached hheld
    refine ⟨fun row hrow => hknows.1 row (hmem row (List.mem_cons_of_mem _ hrow)),
      hprogress.confirm.mono hext, trivial, ?_⟩
    obtain ⟨row, hrow, -⟩ := (hheld deposit (hmem deposit List.mem_cons_self)).row
    refine ⟨_, ?_, .inl (confirm_status_of_final now hfinal)⟩
    show (putDeposit s.deposits _).find? deposit.depositId = _
    rw [find?_putDeposit, confirm_depositId, if_pos rfl, hrow]
    rfl
  | raise herror => exact not_raise herror hknows hlands
  | @creditRow processing rows stage stage' deposits ledger hmove =>
    have hid := hmove.depositId_eq h.keyed
    -- the deposit in hand stays the first of the rows that are left
    refine ⟨hknows.1, ?_, hmove.knows h.keyed hknows.2.2.1, ?_⟩
    · rw [hid]
      exact hknows.2.1.mono hext
    · rw [hid]
      exact hext.ready _ hknows.2.2.2
  | creditedRow hmove =>
    exact ⟨hknows.1, (hknows.2.1.mono hext).credited (hmove.entered_of_last hknows.2.2.1)⟩
  | fail herror => trivial
  | credit hmove => exact hmove.knows h.keyed hknows
  | credited hmove => trivial
  | finished => exact hknows
  | raised => exact hknows
  | ended => trivial

/-- An entry without a mark is one that the call owes. -/
theorem CallMove.unmarked (hmove : CallMove mc now s left s' left')
    (hknows : left.Knows s) (hlands : left.Lands s) (h : TablesSound s) {id : String}
    (hid : Unmarked s' id) : left'.Owes id ∨ Unmarked s id ∧ ¬ left.Owes id := by
  cases hmove with
  | @wait processing rows rest deposit hrows hfinal =>
    obtain ⟨hentered, row, hrow, hstatus⟩ := hid
    refine .inr ⟨⟨hentered, ?_⟩, fun howes => howes⟩
    change (putDeposit _ _).find? _ = _ at hrow
    rw [find?_putDeposit] at hrow
    split at hrow
    · rename_i heq
      obtain ⟨old, hold, -⟩ := Option.map_eq_some_iff.mp hrow
      refine ⟨old, hold, fun hcredited => ?_⟩
      -- what is written over a credited row would be credited as well, and the held one is open
      have hkeeps := hlands deposit (hrows ▸ rfl) hfinal old
        (by rwa [heq, confirm_depositId] at hold) (.inr hcredited)
      have hopen := hknows.1 deposit (mem_of_reached (hrows ▸ List.mem_cons_self))
      rw [hkeeps, hcredited] at hopen
      cases hopen
    · exact ⟨row, hrow, hstatus⟩
  | @confirm processing rows rest deposit hrows hfinal =>
    -- the confirmed deposit is the one that this call has yet to credit
    by_cases heq : deposit.depositId = id
    · exact .inl heq
    · obtain ⟨hentered, row, hrow, hstatus⟩ := hid
      refine .inr ⟨⟨hentered, row, ?_, hstatus⟩, fun howes => howes⟩
      change (putDeposit _ _).find? _ = _ at hrow
      rwa [find?_putDeposit, confirm_depositId, if_neg (Ne.symm heq)] at hrow
  | raise herror => exact (not_raise herror hknows hlands).elim
  | creditRow hmove =>
    refine (hmove.unmarked h.keyed hknows.2.2.1 hid).imp_left ?_
    rintro ⟨later, heq, howes⟩
    cases heq
    exact howes
  | creditedRow hmove =>
    refine (hmove.unmarked h.keyed hknows.2.2.1 hid).imp_left ?_
    rintro ⟨later, heq, -⟩
    cases heq
  | fail herror =>
    refine .inr ⟨hid, fun howes => ?_⟩
    rcases creditStep_error herror with ⟨id', rfl, hready⟩ | ⟨deposit, entry, rfl, hnone, -⟩
    · cases howes
      exact hready (h.ready hid.1)
    · cases howes
      exact hnone hid.1
  | credit hmove =>
    refine (hmove.unmarked h.keyed hknows hid).imp_left ?_
    rintro ⟨later, heq, howes⟩
    cases heq
    exact howes
  | credited hmove =>
    refine (hmove.unmarked h.keyed hknows hid).imp_left ?_
    rintro ⟨later, heq, -⟩
    cases heq
  | _ => exact .inr ⟨hid, fun howes => howes⟩

end CallMove

/-! ## Runs -/

/-- A deposit that is stored now has an open status, and no stored deposit has its transaction under
another spelling. -/
def OneSpelling (deposits : Deposits) (deposit : Deposit) : Prop :=
  (∀ row ∈ deposits.rows, sameEvent row.2 deposit = false) →
    deposit.status.isOpen = true ∧ ∀ row ∈ deposits.rows, row.2.transfer ≠ deposit.transfer

/-- A request comes with an open status and one spelling of its transaction, and what a transaction of
a call puts still stands. -/
def Orderly (mc : MarketConfig) (s : DepositState) : DepositEvent → Prop
  | .accept request now =>
    ∀ deposit ∈ (newDeposit mc request now).toOption, OneSpelling s.tables.deposits deposit
  | .next call _ => ∀ left ∈ s.calls.find? call, left.Lands s.tables
  | .process _ _ _ => True
  | .credit _ _ => True

/-- The deposit of the row was accepted. -/
def AcceptedIn (mc : MarketConfig) (events : List DepositEvent) (row : Deposit) : Prop :=
  ∃ request now deposit, DepositEvent.accept request now ∈ events ∧
    newDeposit mc request now = .ok deposit ∧ row.facts = deposit.facts

structure Credits (mc : MarketConfig) (events : List DepositEvent) (s : DepositState) : Prop where
  tables : TablesSound s.tables
  call : ∀ call left, s.calls.find? call = some left →
    (∀ deposit ∈ left.held, Known s.tables.deposits deposit) ∧ left.Knows s.tables
  marked : ∀ id, Unmarked s.tables id → ∃ call left, s.calls.find? call = some left ∧ left.Owes id
  accepted : ∀ id row, s.tables.deposits.find? id = some row → AcceptedIn mc events row

/-- What was accepted before the last event was accepted. -/
theorem AcceptedIn.concat {mc : MarketConfig} {events : List DepositEvent} {row : Deposit}
    (h : AcceptedIn mc events row) (event : DepositEvent) : AcceptedIn mc (events ++ [event]) row :=
  let ⟨request, now, deposit, hmem, hnew, hfacts⟩ := h
  ⟨request, now, deposit, List.mem_append_left _ hmem, hnew, hfacts⟩

variable {mc : MarketConfig} {events : List DepositEvent} {s : DepositState}

/-- A step that changes nothing but the calls. -/
theorem Credits.begin (h : Credits mc events s) (event : DepositEvent) (call : ℕ) {left : DepositCall}
    (hheld : left.held = []) (hknows : left.Knows s.tables) :
    Credits mc (events ++ [event]) { s with calls := s.calls.insertNew call left } where
  tables := h.tables
  call call' later hlater := by
    rw [Sql.Table.find?_insertNew] at hlater
    split at hlater
    · cases hold : s.calls.find? call with
      | some old =>
        rw [hold] at hlater
        cases hlater
        exact h.call call _ hold
      | none =>
        rw [hold] at hlater
        cases hlater
        exact ⟨fun deposit hdeposit =>
          absurd (hheld ▸ hdeposit : deposit ∈ []) List.not_mem_nil, hknows⟩
    · exact h.call call' later hlater
  marked id hid := by
    obtain ⟨call', later, hlater, howes⟩ := h.marked id hid
    refine ⟨call', later, ?_, howes⟩
    rw [Sql.Table.find?_insertNew]
    split
    · rename_i heq
      rw [← heq, hlater]
      rfl
    · exact hlater
  accepted id row hrow := (h.accepted id row hrow).concat event

/-- A sighting preserves it. -/
theorem Credits.accept (h : Credits mc events s) {request : ScannerDepositCreateRequest}
    {now : Instant} (horderly : Orderly mc s (.accept request now)) :
    Credits mc (events ++ [.accept request now]) (depositStep mc s (.accept request now)) := by
  have hstay : Credits mc (events ++ [.accept request now]) s :=
    { h with accepted := fun id row hrow => (h.accepted id row hrow).concat _ }
  simp only [depositStep]
  cases haccept : acceptDeposit mc request now s.tables.deposits with
  | error e => exact hstay
  | ok deposits =>
    obtain ⟨deposit, hnew, hstore⟩ := bind_eq_ok.mp haccept
    rcases storeDeposit_eq_ok hstore with rfl | ⟨hevent, hfresh, hdeposits⟩
    · exact hstay
    · obtain ⟨hopen, hspelling⟩ := horderly deposit (by rw [hnew]; rfl) fun row hrow => by
        simpa using List.find?_eq_none.mp hevent row hrow
      have hrows : ∀ id row, deposits.find? id = some row →
          id = deposit.depositId ∧ row = deposit ∨
            id ≠ deposit.depositId ∧ s.tables.deposits.find? id = some row := by
        intro id row hrow
        rw [hdeposits, Sql.Table.find?_upsert] at hrow
        split at hrow
        · exact .inl ⟨‹_›, (Option.some.inj hrow).symm⟩
        · exact .inr ⟨‹_›, hrow⟩
      have hother : ∀ {id row}, s.tables.deposits.find? id = some row →
          row.transfer ≠ deposit.transfer := fun {id row} hrow =>
        hspelling (id, row) (Sql.Table.find?_eq_some_iff.mp hrow)
      have hext : Extends s.tables ⟨deposits, s.tables.ledger⟩ :=
        ⟨fun id row hrow => ⟨row, find?_of_storeDeposit hstore hrow, rfl⟩, Grows.refl _,
          fun id hold => by
            obtain ⟨row, hrow, hstatus⟩ := hold
            exact ⟨row, find?_of_storeDeposit hstore hrow, hstatus⟩⟩
      -- the new row has no ledger entry
      have hold : ∀ {id row}, deposits.find? id = some row → Entered s.tables.ledger id →
          s.tables.deposits.find? id = some row := by
        intro id row hrow hentered
        obtain ⟨old, hold, -⟩ := h.tables.ready hentered
        rw [find?_of_storeDeposit hstore hold] at hrow
        rw [hold, Option.some.inj hrow]
      exact
        { tables :=
            { keyed := keyed_storeDeposit h.tables.keyed hstore
              unique := fun id₁ id₂ row₁ row₂ hrow₁ hrow₂ heq => by
                rcases hrows id₁ row₁ hrow₁ with ⟨rfl, rfl⟩ | ⟨-, hold₁⟩ <;>
                  rcases hrows id₂ row₂ hrow₂ with ⟨rfl, rfl⟩ | ⟨-, hold₂⟩
                · rfl
                · exact absurd heq.symm (hother hold₂)
                · exact absurd heq (hother hold₁)
                · exact h.tables.unique id₁ id₂ row₁ row₂ hold₁ hold₂ heq
              entry := fun id entry hentry => by
                obtain ⟨row, hrow, hof⟩ := h.tables.entry id entry hentry
                exact ⟨row, find?_of_storeDeposit hstore hrow, hof⟩
              status := fun id row hrow => by
                rcases hrows id row hrow with ⟨rfl, rfl⟩ | ⟨-, hold⟩
                · exact .inl hopen
                · exact h.tables.status id row hold }
          call := fun call left hleft => by
            obtain ⟨hheld, hknows⟩ := h.call call left hleft
            exact ⟨fun d hd => (hheld d hd).store hstore, hknows.mono hext⟩
          marked := fun id hmarked => by
            obtain ⟨hentered, row, hrow, hstatus⟩ := hmarked
            exact h.marked id ⟨hentered, row, hold hrow hentered, hstatus⟩
          accepted := fun id row hrow => by
            rcases hrows id row hrow with ⟨rfl, rfl⟩ | ⟨-, hold⟩
            · exact ⟨request, now, row, List.mem_append_right _ (List.mem_singleton_self _), hnew,
                rfl⟩
            · exact (h.accepted id row hold).concat _ }

/-- A step of a call preserves it. -/
theorem Credits.next (h : Credits mc events s) {call : ℕ} {now : Instant}
    (horderly : Orderly mc s (.next call now)) :
    Credits mc (events ++ [.next call now]) (depositStep mc s (.next call now)) := by
  simp only [depositStep]
  cases hcall : s.calls.find? call with
  | none => exact { h with accepted := fun id row hrow => (h.accepted id row hrow).concat _ }
  | some left =>
    have hlands := horderly left hcall
    obtain ⟨hheld, hknows⟩ := h.call call left hcall
    have hmove := next_move mc now s.tables left
    have hext := hmove.extends hheld hknows hlands
    obtain ⟨-, hfacts, hheld'⟩ := hmove.keeps h.tables.keyed hheld
    refine ⟨hmove.tables hheld hknows hlands h.tables, fun call' later hlater => ?_, fun id hid => ?_,
      fun id row hrow => ?_⟩
    · rw [Sql.Table.find?_upsert] at hlater
      split at hlater
      · cases hlater
        exact ⟨hheld', hmove.knows hheld hknows hlands h.tables⟩
      · obtain ⟨hother, hotherKnows⟩ := h.call call' later hlater
        exact ⟨fun d hd => (hother d hd).of_facts hfacts, hotherKnows.mono hext⟩
    · rcases hmove.unmarked hknows hlands h.tables hid with howes | ⟨hbefore, hnot⟩
      · exact ⟨call, _, Sql.Table.find?_upsert_self _ _ _, howes⟩
      · obtain ⟨call', later, hlater, howes⟩ := h.marked id hbefore
        refine ⟨call', later, ?_, howes⟩
        rw [Sql.Table.find?_upsert_ne _ _ ?_]
        · exact hlater
        · rintro rfl
          rw [hcall] at hlater
          cases hlater
          exact hnot howes
    · obtain ⟨old, hold, heq⟩ := row_before hfacts hrow
      obtain ⟨request, time, deposit, hmem, hnew, hfacts⟩ := h.accepted id old hold
      exact ⟨request, time, deposit, List.mem_append_left _ hmem, hnew, heq.symm.trans hfacts⟩

/-- Every orderly event preserves it. -/
theorem Credits.step (h : Credits mc events s) {event : DepositEvent}
    (horderly : Orderly mc s event) : Credits mc (events ++ [event]) (depositStep mc s event) := by
  cases event with
  | accept request now => exact h.accept horderly
  | process call chainCode latest => exact h.begin _ call rfl trivial
  | credit call depositId => exact h.begin _ call rfl trivial
  | next call now => exact h.next horderly

/-- It holds before the first event, where no deposit is entered. -/
theorem Credits.start (mc : MarketConfig) {ledger : Ledger}
    (hledger : ∀ id, ledger.find? (depositReference id) = none) :
    Credits mc [] ⟨⟨.empty, ledger⟩, .empty⟩ where
  tables :=
    { keyed := fun _ _ hrow => nomatch hrow
      unique := fun _ _ _ _ hrow => nomatch hrow
      entry := fun id entry hentry => by
        rw [hledger] at hentry
        cases hentry
      status := fun _ _ hrow => nomatch hrow }
  call _ _ hcall := nomatch hcall
  marked _ hid := nomatch hid.2.choose_spec.1
  accepted _ _ hrow := nomatch hrow

/-- The deposit goes to the account of the verified wallet of its sender. -/
theorem newDeposit_wallet {request : ScannerDepositCreateRequest} {now : Instant} {deposit : Deposit}
    (h : newDeposit mc request now = .ok deposit) : ∃ wallet,
      mc.verifiedWallets (normalizeChainCode deposit.chainCode) deposit.fromAddress = some wallet ∧
        deposit.accountId = wallet.accountId := by
  obtain ⟨chain, -, h⟩ := bind_eq_ok.mp h
  obtain ⟨-, -, h⟩ := bind_eq_ok.mp h
  obtain ⟨token, -, h⟩ := bind_eq_ok.mp h
  obtain ⟨-, -, h⟩ := bind_eq_ok.mp h
  obtain ⟨fromAddress, -, h⟩ := bind_eq_ok.mp h
  obtain ⟨toAddress, -, h⟩ := bind_eq_ok.mp h
  obtain ⟨-, -, h⟩ := bind_eq_ok.mp h
  obtain ⟨amountBaseUnits, -, h⟩ := bind_eq_ok.mp h
  obtain ⟨txHash, -, h⟩ := bind_eq_ok.mp h
  obtain ⟨blockHash, -, h⟩ := bind_eq_ok.mp h
  cases hwallet : mc.verifiedWallets (normalizeChainCode chain.chainCode) fromAddress with
  | none =>
    rw [hwallet] at h
    cases h
  | some wallet =>
    rw [hwallet] at h
    cases h
    exact ⟨wallet, hwallet, rfl⟩

/-- The call has returned or raised. -/
def DepositCall.over : DepositCall → Bool
  | .finished _ => true
  | .raised _ => true
  | .ended => true
  | _ => false

/-- What is promised of the credits after a run. -/
structure CreditedOnce (mc : MarketConfig) (events : List DepositEvent) (s : DepositState) :
    Prop where
  once : ∀ id₁ id₂ row₁ row₂, s.tables.deposits.find? id₁ = some row₁ →
    s.tables.deposits.find? id₂ = some row₂ → Entered s.tables.ledger id₁ →
      Entered s.tables.ledger id₂ → row₁.transfer = row₂.transfer → id₁ = id₂
  entry : ∀ id entry, s.tables.ledger.find? (depositReference id) = some entry →
    ∃ row, s.tables.deposits.find? id = some row ∧ AcceptedIn mc events row ∧ EntryOf row entry ∧
      ∃ wallet, mc.verifiedWallets (normalizeChainCode row.chainCode) row.fromAddress = some wallet ∧
        entry.accountId = wallet.accountId
  status : (∀ call left, s.calls.find? call = some left → left.over = true) →
    ∀ id row, s.tables.deposits.find? id = some row →
      (row.status = .credited ↔ Entered s.tables.ledger id)
  finished : ∀ call processing, s.calls.find? call = some (.finished processing) →
    ∀ id ∈ processing.accepted, ∃ row, s.tables.deposits.find? id = some row ∧
      (row.final processing.confirmationsRequired processing.latest = true →
        Entered s.tables.ledger id)
  raised : ∀ call processing, s.calls.find? call ≠ some (.raised processing)

/-- It says that each deposit is credited once. -/
theorem Credits.creditedOnce (h : Credits mc events s) : CreditedOnce mc events s where
  once id₁ id₂ row₁ row₂ hrow₁ hrow₂ _ _ := h.tables.unique id₁ id₂ row₁ row₂ hrow₁ hrow₂
  entry id entry hentry := by
    obtain ⟨row, hrow, hof, -⟩ := h.tables.entry id entry hentry
    obtain ⟨request, now, deposit, -, hnew, hfacts⟩ := h.accepted id row hrow
    obtain ⟨wallet, hwallet, haccount⟩ := newDeposit_wallet hnew
    have hcode : row.chainCode = deposit.chainCode := congrArg DepositFacts.chainCode hfacts
    have hfrom : row.fromAddress = deposit.fromAddress := congrArg DepositFacts.fromAddress hfacts
    have hrowAccount : row.accountId = deposit.accountId := congrArg DepositFacts.accountId hfacts
    refine ⟨row, hrow, h.accepted id row hrow, hof, wallet, ?_, ?_⟩
    · rw [hcode, hfrom, hwallet]
    · rw [hof.accountId, hrowAccount, haccount]
  status hover id row hrow := by
    constructor
    · intro hcredited
      rcases h.tables.status id row hrow with hopen | ⟨-, hentered⟩
      · rw [hcredited] at hopen
        cases hopen
      · exact hentered
    · intro hentered
      by_contra hstatus
      -- the call that owes the mark is not over
      obtain ⟨call, left, hleft, howes⟩ := h.marked id ⟨hentered, row, hrow, hstatus⟩
      have hdone := hover call left hleft
      cases left with
      | creditRow processing stage rows => cases hdone
      | credit stage => cases hdone
      | _ => exact howes
  finished call processing hcall id hid := by
    obtain ⟨row, hrow, hleft⟩ := (h.call call _ hcall).2 id hid
    refine ⟨row, hrow, fun hfinal => ?_⟩
    rcases hleft hfinal with hentered | hmem | hnone
    · exact hentered
    · cases hmem
    · cases hnone
  raised call processing hcall := (h.call call _ hcall).2

/-- **Each transfer is credited once** in every orderly run. -/
theorem credited_once_of_run (mc : MarketConfig) (ledger : Ledger) (events : List DepositEvent)
    (hledger : ∀ id, ledger.find? (depositReference id) = none)
    (hrun : EachStep (depositStep mc) (Orderly mc) ⟨⟨.empty, ledger⟩, .empty⟩ events) :
    CreditedOnce mc events (events.foldl (depositStep mc) ⟨⟨.empty, ledger⟩, .empty⟩) := by
  have hstep : ∀ before event,
      Credits mc before (before.foldl (depositStep mc) ⟨⟨.empty, ledger⟩, .empty⟩) →
      Orderly mc (before.foldl (depositStep mc) ⟨⟨.empty, ledger⟩, .empty⟩) event →
        Credits mc (before ++ [event]) (depositStep mc
          (before.foldl (depositStep mc) ⟨⟨.empty, ledger⟩, .empty⟩) event) :=
    fun _ _ h horderly => h.step horderly
  exact (history_of_eachStep (Credits.start mc hledger) hstep events hrun).creditedOnce

/-! ## Two scanners, and two spellings -/

/-- A digest that keeps a part of the text with the hash of a transaction. -/
def spellingMarket : MarketConfig :=
  { localMarket with sha256Text := fun text => String.ofList (text.toList.drop 48) }

/-- Two scanners see the transfer and process the confirmations at the same time. -/
def scannersRun (first second : String) : List DepositEvent :=
  [.accept { localTransfer with txHash := first } 0,
    .accept { localTransfer with txHash := second } 0,
    .process 0 "picoin" 3, .process 1 "picoin" 3] ++
    (List.replicate 12 [.next 0 1, .next 1 1]).flatten

instance (deposits : Deposits) (deposit : Deposit) : Decidable (OneSpelling deposits deposit) :=
  inferInstanceAs (Decidable (_ → _ ∧ ∀ row ∈ deposits.rows, _))

instance (deposits : Deposits) (deposit : Deposit) : Decidable (KeepsStatus deposits deposit) :=
  inferInstanceAs (Decidable (∀ row ∈ deposits.find? deposit.depositId, _ → _))

instance (ledger : Ledger) : (stage : CreditStage) → Decidable (stage.Fresh ledger)
  | .putCredit deposit entry => inferInstanceAs (Decidable (∀ row ∈ ledger.rows,
      row.2.entryId = entry.entryId → row.1 = depositReference deposit.depositId))
  | .readDeposit _ => .isTrue trivial
  | .readReference _ => .isTrue trivial
  | .putDeposit _ => .isTrue trivial

instance (s : DepositTables) : (left : DepositCall) → Decidable (left.Lands s)
  | .process processing rows => inferInstanceAs (Decidable
      (∀ deposit ∈ (processing.reached rows).head?,
        deposit.final processing.confirmationsRequired processing.latest = false →
          KeepsStatus s.deposits deposit))
  | .creditRow _ stage _ => inferInstanceAs (Decidable (stage.Fresh s.ledger))
  | .readRows _ _ => .isTrue trivial
  | .credit _ => .isTrue trivial
  | .finished _ => .isTrue trivial
  | .raised _ => .isTrue trivial
  | .ended => .isTrue trivial

instance (mc : MarketConfig) (s : DepositState) :
    (event : DepositEvent) → Decidable (Orderly mc s event)
  | .accept request now => inferInstanceAs (Decidable
      (∀ deposit ∈ (newDeposit mc request now).toOption, OneSpelling s.tables.deposits deposit))
  | .next call _ => inferInstanceAs (Decidable
      (∀ left ∈ s.calls.find? call, left.Lands s.tables))
  | .process _ _ _ => .isTrue trivial
  | .credit _ _ => .isTrue trivial

/-- Two scanners that write one hash in capitals and in small letters. -/
theorem credited_once_local :
    EachStep (depositStep spellingMarket) (Orderly spellingMarket) ⟨⟨.empty, .empty⟩, .empty⟩
        (scannersRun "0123456789ABCDEF" "0123456789abcdef") ∧
      CreditedOnce spellingMarket (scannersRun "0123456789ABCDEF" "0123456789abcdef")
        ((scannersRun "0123456789ABCDEF" "0123456789abcdef").foldl (depositStep spellingMarket)
          ⟨⟨.empty, .empty⟩, .empty⟩) := by
  have h : EachStep (depositStep spellingMarket) (Orderly spellingMarket) ⟨⟨.empty, .empty⟩, .empty⟩
      (scannersRun "0123456789ABCDEF" "0123456789abcdef") := by decide +kernel
  exact ⟨h, credited_once_of_run spellingMarket .empty _ (fun _ => rfl) h⟩

/-- The state after the two spellings. -/
def spelledTwice : DepositState :=
  (scannersRun "0123456789abcdef" "0x0123456789abcdef").foldl (depositStep spellingMarket)
    ⟨⟨.empty, .empty⟩, .empty⟩

/-- A transaction with and without its prefix becomes two deposits, and both are credited. -/
theorem two_spellings_credited :
    ¬ ∀ (mc : MarketConfig) (ledger : Ledger) (events : List DepositEvent),
      (∀ id, ledger.find? (depositReference id) = none) →
        CreditedOnce mc events (events.foldl (depositStep mc) ⟨⟨.empty, ledger⟩, .empty⟩) := by
  intro hall
  have h : CreditedOnce spellingMarket _ spelledTwice := hall spellingMarket .empty _ fun _ => rfl
  have hbare : (spelledTwice.tables.deposits.find? "deposit_0123456789abcdef\"\x7d").map
      Deposit.transfer = some ("picoin", "0123456789abcdef".toList, 0) := by decide +kernel
  have hprefixed : (spelledTwice.tables.deposits.find? "deposit_0x0123456789abcdef").map
      Deposit.transfer = some ("picoin", "0123456789abcdef".toList, 0) := by decide +kernel
  obtain ⟨row₁, hrow₁, htransfer₁⟩ := Option.map_eq_some_iff.mp hbare
  obtain ⟨row₂, hrow₂, htransfer₂⟩ := Option.map_eq_some_iff.mp hprefixed
  have hid := h.once _ _ row₁ row₂ hrow₁ hrow₂ (by decide +kernel) (by decide +kernel)
    (htransfer₁.trans htransfer₂.symm)
  exact absurd hid (by decide +kernel)

end Picoin.Market
