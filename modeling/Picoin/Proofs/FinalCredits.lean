import Picoin.Market.Scanners
import Picoin.Proofs.BalanceCover

/-!
# Credits of final transfers

A deposit is credited once its block is as deep as the chain requires, by its height alone: nothing
asks the node again for the hash of the block in which the transfer was seen.

* **`Undisturbed`** — no view shows a deposit without an entry as final and has another block in the
  place of the one in which the transfer was seen;
* **`Scanned`** — what such steps keep of the tables, of the calls under way and of the credits;
* **`credits_final_of_run`** — in runs of such steps, the view that is used for a credit has the block
  in which the transfer was seen;
* **`replaced_block_credited`** — a block that is replaced before it is deep enough keeps its
  transfers, and they are credited at the height of the chain that replaced it.
-/

namespace Picoin.Market

open Outcome Run

/-! ## Entries of deposits -/

/-- The deposit that the stage credits. -/
def CreditStage.depositId : CreditStage → String
  | .readDeposit id => id
  | .readReference deposit => deposit.depositId
  | .putCredit deposit _ => deposit.depositId
  | .putDeposit deposit => deposit.depositId

/-- The deposit that the call is crediting. -/
def DepositCall.crediting : DepositCall → Option String
  | .creditRow _ stage _ => some stage.depositId
  | .credit stage => some stage.depositId
  | _ => none

/-- A step of a credit only adds entries to the ledger. -/
theorem CreditMove.grows {mc : MarketConfig} {now : Instant} {deposits deposits' : Deposits}
    {ledger ledger' : Ledger} {stage : CreditStage} {stage' : Option CreditStage}
    (hmove : CreditMove mc now deposits ledger stage deposits' ledger' stage') :
    Grows ledger ledger' := by
  cases hmove with
  | enter hput => exact grows_putLedgerEntry hput
  | _ => exact Grows.refl _

/-- So does a step of a call. -/
theorem CallMove.grows {mc : MarketConfig} {now : Instant} {s s' : DepositTables}
    {left left' : DepositCall} (hmove : CallMove mc now s left s' left') :
    Grows s.ledger s'.ledger := by
  cases hmove with
  | creditRow hmove => exact hmove.grows
  | creditedRow hmove => exact hmove.grows
  | credit hmove => exact hmove.grows
  | credited hmove => exact hmove.grows
  | _ => exact Grows.refl _

/-- The entry of a deposit comes from a call that was crediting it. -/
theorem CreditMove.entered {mc : MarketConfig} {now : Instant} {deposits deposits' : Deposits}
    {ledger ledger' : Ledger} {stage : CreditStage} {stage' : Option CreditStage}
    (hmove : CreditMove mc now deposits ledger stage deposits' ledger' stage') {id : String}
    (hbefore : ledger.find? (depositReference id) = none)
    (hafter : (ledger'.find? (depositReference id)).isSome) : stage.depositId = id := by
  cases hmove with
  | @enter deposit entry ledger' hput =>
    rcases putLedgerEntry_eq_ok hput with ⟨-, rfl⟩ | ⟨-, rfl⟩
    · rw [hbefore] at hafter
      cases hafter
    · rw [Sql.Table.find?_upsert] at hafter
      split at hafter
      · exact (congrArg Prod.snd ‹depositReference id = _›).symm
      · rw [hbefore] at hafter
        cases hafter
  | _ =>
    rw [hbefore] at hafter
    cases hafter

/-- An entry that is new after a step is that of the deposit the call is crediting. -/
theorem CallMove.entered {mc : MarketConfig} {now : Instant} {s s' : DepositTables}
    {left left' : DepositCall} (hmove : CallMove mc now s left s' left') {id : String}
    (hbefore : s.ledger.find? (depositReference id) = none)
    (hafter : (s'.ledger.find? (depositReference id)).isSome) : left.crediting = some id := by
  cases hmove with
  | creditRow hmove => exact congrArg some (hmove.entered hbefore hafter)
  | creditedRow hmove => exact congrArg some (hmove.entered hbefore hafter)
  | credit hmove => exact congrArg some (hmove.entered hbefore hafter)
  | credited hmove => exact congrArg some (hmove.entered hbefore hafter)
  | _ =>
    rw [hbefore] at hafter
    cases hafter

/-- The new credits are the deposits whose entry was not there before. -/
theorem mem_newCredits {before after : Ledger} {id : String} :
    id ∈ newCredits before after ↔ before.find? (depositReference id) = none ∧
      (after.find? (depositReference id)).isSome := by
  unfold newCredits
  rw [List.mem_map]
  simp only [List.mem_filter, Bool.and_eq_true, decide_eq_true_eq, Option.isNone_iff_eq_none]
  constructor
  · rintro ⟨⟨⟨kind, key⟩, entry⟩, ⟨hrow, rfl, hbefore⟩, rfl⟩
    refine ⟨hbefore, Option.isSome_iff_exists.mpr ⟨entry, ?_⟩⟩
    exact Sql.Table.find?_eq_some_iff.mpr hrow
  · rintro ⟨hbefore, hafter⟩
    obtain ⟨entry, hentry⟩ := Option.isSome_iff_exists.mp hafter
    exact ⟨(depositReference id, entry), ⟨Sql.Table.find?_eq_some_iff.mp hentry, rfl, hbefore⟩, rfl⟩

/-! ## The invariant -/

/-- The calls of `process_confirmations` that a view starts. -/
structure Processing.IsFor (mc : MarketConfig) (view : ChainView) (processing : Processing) :
    Prop where
  latest : processing.latest = view.latest
  chain : ∃ chain, mc.getChain view.chainCode = .ok chain ∧
    processing.chainCode = chain.chainCode ∧
    processing.confirmationsRequired = chain.confirmationsRequired

/-- The call judges a deposit of its chain as its view does. -/
theorem Processing.IsFor.finalFor_eq {mc : MarketConfig} {view : ChainView}
    {processing : Processing} (h : processing.IsFor mc view) {deposit : Deposit}
    (hchain : deposit.chainCode = processing.chainCode) : view.finalFor mc deposit =
      deposit.final processing.confirmationsRequired processing.latest := by
  obtain ⟨chain, hget, hcode, hrequired⟩ := h.chain
  unfold ChainView.finalFor
  simp only [hget]
  rw [hchain, hcode, hrequired, h.latest, decide_eq_true rfl, Bool.true_and]

/-- Deposits with the same facts are final for the same views. -/
theorem finalFor_of_facts (mc : MarketConfig) (view : ChainView) {deposit row : Deposit}
    (h : deposit.facts = row.facts) : view.finalFor mc deposit = view.finalFor mc row := by
  have hcode : deposit.chainCode = row.chainCode := congrArg DepositFacts.chainCode h
  have hnumber : deposit.blockNumber = row.blockNumber := congrArg DepositFacts.blockNumber h
  unfold ChainView.finalFor Deposit.final
  rw [hcode, hnumber]

/-- The row is final in the view. -/
def FinalRow (mc : MarketConfig) (view : ChainView) (deposits : Deposits) (id : String) : Prop :=
  ∃ row, deposits.find? id = some row ∧ view.finalFor mc row = true

/-- A row stays final while the facts stay. -/
theorem FinalRow.of_facts {mc : MarketConfig} {view : ChainView} {deposits deposits' : Deposits}
    {id : String} (h : FinalRow mc view deposits id)
    (hfacts : ∀ id, (deposits'.find? id).map Deposit.facts = (deposits.find? id).map Deposit.facts) :
    FinalRow mc view deposits' id := by
  obtain ⟨row, hrow, hfinal⟩ := h
  have hrow' := hfacts id
  rw [hrow] at hrow'
  obtain ⟨row', hfind, heq⟩ := Option.map_eq_some_iff.mp hrow'
  exact ⟨row', hfind, (finalFor_of_facts mc view heq).trans hfinal⟩

/-- What a call that was started with the view still has to do is for that view. -/
def DepositCall.IsFor (mc : MarketConfig) (deposits : Deposits) (view : ChainView) :
    DepositCall → Prop
  | .readRows chainCode latest => chainCode = view.chainCode ∧ latest = view.latest
  | .process processing rows =>
    processing.IsFor mc view ∧ ∀ deposit ∈ rows, deposit.chainCode = processing.chainCode
  | .creditRow processing stage rows => processing.IsFor mc view ∧
    (∀ deposit ∈ rows, deposit.chainCode = processing.chainCode) ∧
      FinalRow mc view deposits stage.depositId
  | .credit _ => False
  | .finished _ => True
  | .raised _ => True
  | .ended => True

/-- What holds of a call that was started with the view. -/
structure CallOf (mc : MarketConfig) (deposits : Deposits) (view : ChainView) (left : DepositCall) :
    Prop where
  held : ∀ deposit ∈ left.held, Known deposits deposit
  isFor : left.IsFor mc deposits view

/-- The deposit that a call is crediting is final for its view. -/
theorem CallOf.crediting {mc : MarketConfig} {deposits : Deposits} {view : ChainView}
    {left : DepositCall} (h : CallOf mc deposits view left) {id : String}
    (hid : left.crediting = some id) : FinalRow mc view deposits id := by
  cases left with
  | creditRow processing stage rows =>
    cases hid
    exact h.isFor.2.2
  | credit stage => exact h.isFor.elim
  | _ => cases hid

/-- The other calls do not disturb a call. -/
theorem CallOf.frame {mc : MarketConfig} {deposits deposits' : Deposits} {view : ChainView}
    {left : DepositCall} (h : CallOf mc deposits view left)
    (hknown : ∀ deposit, Known deposits deposit → Known deposits' deposit)
    (hfinal : ∀ id, FinalRow mc view deposits id → FinalRow mc view deposits' id) :
    CallOf mc deposits' view left := by
  refine ⟨fun deposit hdeposit => hknown deposit (h.held deposit hdeposit), ?_⟩
  have hleft := h.isFor
  cases left with
  | creditRow processing stage rows => exact ⟨hleft.1, hleft.2.1, hfinal _ hleft.2.2⟩
  | _ => exact hleft

/-- A transaction of `credit_deposit` does not change which deposit it credits. -/
theorem CreditMove.depositId_eq {mc : MarketConfig} {now : Instant} {deposits deposits' : Deposits}
    {ledger ledger' : Ledger} {stage stage' : CreditStage}
    (hmove : CreditMove mc now deposits ledger stage deposits' ledger' (some stage'))
    (hkeyed : Keyed deposits) : stage'.depositId = stage.depositId := by
  cases hmove with
  | read hrow hstatus => exact hkeyed _ _ hrow
  | mark creditedAt hentry => rfl
  | missing hentry => rfl
  | enter hput => rfl

/-- A step leaves the call one of its view. -/
theorem CallOf.next {mc : MarketConfig} {now : Instant} {s s' : DepositTables} {view : ChainView}
    {left left' : DepositCall} (h : CallOf mc s.deposits view left)
    (hmove : CallMove mc now s left s' left') (hkeyed : Keyed s.deposits) :
    CallOf mc s'.deposits view left' := by
  obtain ⟨-, hfacts, hheld⟩ := hmove.keeps hkeyed h.held
  refine ⟨hheld, ?_⟩
  have hleft := h.isFor
  cases hmove with
  | unknown => trivial
  | @rows chainCode latest chain hchain =>
    obtain ⟨hcode, hlatest⟩ := hleft
    exact ⟨⟨hlatest, chain, hcode ▸ hchain, rfl, rfl⟩, fun deposit hdeposit =>
      (mem_openDeposits.mp hdeposit).2.1⟩
  | finish hrows => trivial
  | @wait processing rows rest deposit hrows hfinal =>
    obtain ⟨hprocessing, hcode⟩ := hleft
    exact ⟨hprocessing, fun row hrow =>
      hcode row (mem_of_reached (hrows ▸ List.mem_cons_of_mem _ hrow))⟩
  | @confirm processing rows rest deposit hrows hfinal =>
    obtain ⟨hprocessing, hcode⟩ := hleft
    have hmem : deposit ∈ rows := mem_of_reached (hrows ▸ List.mem_cons_self)
    -- the call has judged the row by its facts, which are still those of the table
    have hrow : FinalRow mc view s.deposits deposit.depositId := by
      obtain ⟨row, hrow, heq⟩ := (h.held deposit hmem).row
      refine ⟨row, hrow, ?_⟩
      rw [finalFor_of_facts mc view heq, hprocessing.finalFor_eq (hcode deposit hmem)]
      exact hfinal
    exact ⟨hprocessing, fun row hrow =>
      hcode row (mem_of_reached (hrows ▸ List.mem_cons_of_mem _ hrow)), hrow.of_facts hfacts⟩
  | @creditRow processing rows stage stage' deposits ledger hmove =>
    obtain ⟨hprocessing, hcode, hrow⟩ := hleft
    refine ⟨hprocessing, hcode, ?_⟩
    rw [hmove.depositId_eq hkeyed]
    exact hrow.of_facts hfacts
  | creditedRow hmove => exact ⟨hleft.1, hleft.2.1⟩
  | raise herror => trivial
  | fail herror => exact hleft.elim
  | credit hmove => exact hleft.elim
  | credited hmove => exact hleft.elim
  | finished => trivial
  | raised => trivial
  | ended => trivial

/-! ## Runs -/

/-- The view that was used for a credit has the block in which the transfer was seen. -/
def OnlyFinal (s : ScanState) : Prop :=
  ∀ credit ∈ s.credits, ∃ deposit blockHash, s.tables.deposits.find? credit.1 = some deposit ∧
    s.seen.find? credit.1 = some blockHash ∧
      credit.2.block deposit.blockNumber = some blockHash

/-- Every view that shows the deposit as final has this block in its place. -/
def SeenIn (mc : MarketConfig) (views : List ChainView) (deposit : Deposit) (blockHash : String) :
    Prop :=
  ∀ view ∈ views, view.finalFor mc deposit = true →
    view.block deposit.blockNumber = some blockHash

/-- A deposit that is stored now is of a block that every view has that shows it as final. -/
def SeenIfStored (mc : MarketConfig) (s : ScanState) : Option (Deposit × String) → Prop
  | none => True
  | some (deposit, blockHash) =>
    s.tables.deposits.find? deposit.depositId = none → SeenIn mc s.views deposit blockHash

/-- No view shows a deposit without an entry as final and has another block in the place of the one
in which the transfer was seen. -/
def Undisturbed (mc : MarketConfig) (s : ScanState) : ScanEvent → Prop
  | .view view => ∀ row ∈ s.tables.deposits.rows,
    s.tables.ledger.find? (depositReference row.1) = none → view.finalFor mc row.2 = true →
      view.block row.2.blockNumber = s.seen.find? row.1
  | .sight view request now => SeenIfStored mc s (s.sighting mc view request now)
  | .process _ _ => True
  | .next _ _ => True

instance (mc : MarketConfig) (views : List ChainView) (deposit : Deposit) (blockHash : String) :
    Decidable (SeenIn mc views deposit blockHash) :=
  inferInstanceAs (Decidable (∀ view ∈ views, _ → _))

instance (mc : MarketConfig) (s : ScanState) :
    (sighting : Option (Deposit × String)) → Decidable (SeenIfStored mc s sighting)
  | none => .isTrue trivial
  | some (deposit, blockHash) => inferInstanceAs (Decidable
      (s.tables.deposits.find? deposit.depositId = none → SeenIn mc s.views deposit blockHash))

instance (mc : MarketConfig) (s : ScanState) :
    (event : ScanEvent) → Decidable (Undisturbed mc s event)
  | .view view => inferInstanceAs (Decidable (∀ row ∈ s.tables.deposits.rows,
      s.tables.ledger.find? (depositReference row.1) = none → view.finalFor mc row.2 = true →
        view.block row.2.blockNumber = s.seen.find? row.1))
  | .sight view request now =>
    inferInstanceAs (Decidable (SeenIfStored mc s (s.sighting mc view request now)))
  | .process _ _ => .isTrue trivial
  | .next _ _ => .isTrue trivial

structure Scanned (mc : MarketConfig) (s : ScanState) : Prop where
  keyed : Keyed s.tables.deposits
  call : ∀ call view left, s.calls.find? call = some (view, left) →
    view ∈ s.views ∧ CallOf mc s.tables.deposits view left
  seen : ∀ id row, s.tables.deposits.find? id = some row → ∃ blockHash,
    s.seen.find? id = some blockHash ∧
      (s.tables.ledger.find? (depositReference id) = none → SeenIn mc s.views row blockHash)
  credits : OnlyFinal s

/-- It holds before anything is scanned. -/
theorem Scanned.start (mc : MarketConfig) : Scanned mc .start where
  keyed _ _ hrow := nomatch hrow
  call _ _ _ hcall := nomatch hcall
  seen _ _ hrow := nomatch hrow
  credits _ hcredit := nomatch hcredit

/-- A new view of the chain keeps it. -/
theorem Scanned.view {mc : MarketConfig} {s : ScanState} {view : ChainView} (h : Scanned mc s)
    (hview : Undisturbed mc s (.view view)) : Scanned mc (scanStep mc s (.view view)) where
  keyed := h.keyed
  call call old left hcall :=
    let ⟨hold, hleft⟩ := h.call call old left hcall
    ⟨List.mem_append_left _ hold, hleft⟩
  seen id row hrow := by
    obtain ⟨blockHash, hseen, hviews⟩ := h.seen id row hrow
    refine ⟨blockHash, hseen, fun hentry v hv hfinal => ?_⟩
    rcases List.mem_append.mp hv with hold | hnew
    · exact hviews hentry v hold hfinal
    -- the new view: a row without an entry is in the block that was noted for it
    · rw [List.mem_singleton.mp hnew] at hfinal ⊢
      exact (hview (id, row) (Sql.Table.find?_eq_some_iff.mp hrow) hentry hfinal).trans hseen
  credits := h.credits

/-- A sighting leaves a final row final. -/
theorem FinalRow.store {mc : MarketConfig} {view : ChainView} {deposits deposits' : Deposits}
    {deposit : Deposit} {id : String} (h : FinalRow mc view deposits id)
    (hstore : storeDeposit deposits deposit = .ok deposits') : FinalRow mc view deposits' id :=
  let ⟨row, hrow, hfinal⟩ := h
  ⟨row, find?_of_storeDeposit hstore hrow, hfinal⟩

/-- A sighting that stores nothing notes nothing. -/
theorem noteSeen_self (deposits : Deposits) (depositId blockHash : String)
    (seen : Sql.Table String String) :
    noteSeen deposits deposits depositId blockHash seen = seen := by
  unfold noteSeen
  cases deposits.find? depositId <;> rfl

/-- The block of a new deposit is noted. -/
theorem noteSeen_upsert {deposits : Deposits} {deposit : Deposit}
    (hnew : deposits.find? deposit.depositId = none) (blockHash : String)
    (seen : Sql.Table String String) :
    noteSeen deposits (deposits.upsert deposit.depositId deposit) deposit.depositId blockHash seen =
      seen.upsert deposit.depositId blockHash := by
  unfold noteSeen
  rw [hnew, Sql.Table.find?_upsert_self]
  rfl

/-- A sighting keeps it. -/
theorem Scanned.sight {mc : MarketConfig} {s : ScanState} {view : ℕ}
    {request : ScannerDepositCreateRequest} {now : Instant} (h : Scanned mc s)
    (hsight : Undisturbed mc s (.sight view request now)) :
    Scanned mc (scanStep mc s (.sight view request now)) := by
  simp only [scanStep]
  cases hsighting : s.sighting mc view request now with
  | none => exact h
  | some sighting =>
    obtain ⟨deposit, blockHash⟩ := sighting
    cases hstore : storeDeposit s.tables.deposits deposit with
    | error e => simpa only [hstore] using h
    | ok deposits =>
      simp only [hstore]
      rcases storeDeposit_eq_ok hstore with rfl | ⟨-, hnew, hdeposits⟩
      -- a deposit that is there already stays as it is
      · rw [noteSeen_self]
        exact h
      · have hseenIn : SeenIn mc s.views deposit blockHash := by
          have hstored : SeenIfStored mc s (s.sighting mc view request now) := hsight
          rw [hsighting] at hstored
          exact hstored hnew
        have hnote : noteSeen s.tables.deposits deposits deposit.depositId blockHash s.seen =
            s.seen.upsert deposit.depositId blockHash := by
          rw [hdeposits]
          exact noteSeen_upsert hnew blockHash s.seen
        have hne : ∀ {id row}, s.tables.deposits.find? id = some row → id ≠ deposit.depositId :=
          fun hrow heq => by
            rw [heq, hnew] at hrow
            cases hrow
        rw [hnote]
        exact
          { keyed := keyed_storeDeposit h.keyed hstore
            call := fun call v left hcall =>
              let ⟨hv, hleft⟩ := h.call call v left hcall
              ⟨hv, hleft.frame (fun _ hknown => hknown.store hstore)
                fun _ hfinal => hfinal.store hstore⟩
            seen := fun id row hrow => by
              rw [hdeposits, Sql.Table.find?_upsert] at hrow
              split at hrow
              · rename_i hid
                cases hrow
                rw [hid, Sql.Table.find?_upsert_self]
                exact ⟨blockHash, rfl, fun _ => hseenIn⟩
              · rename_i hid
                rw [Sql.Table.find?_upsert_ne _ _ hid]
                exact h.seen id row hrow
            credits := fun credit hcredit => by
              obtain ⟨row, hash, hrow, hseen, hblock⟩ := h.credits credit hcredit
              refine ⟨row, hash, find?_of_storeDeposit hstore hrow, ?_, hblock⟩
              rw [Sql.Table.find?_upsert_ne _ _ (hne hrow)]
              exact hseen }

/-- The start of a call keeps it. -/
theorem Scanned.process {mc : MarketConfig} {s : ScanState} (h : Scanned mc s) (call view : ℕ) :
    Scanned mc (scanStep mc s (.process call view)) := by
  simp only [scanStep]
  cases hview : s.views[view]? with
  | none => exact h
  | some view =>
    refine { h with call := fun call' v left hcall => ?_ }
    rw [Sql.Table.find?_insertNew] at hcall
    split at hcall
    -- a call that is under way is not started again
    · cases hold : s.calls.find? call with
      | some old =>
        rw [hold] at hcall
        cases hcall
        exact h.call call v left hold
      | none =>
        rw [hold] at hcall
        cases hcall
        exact ⟨List.mem_of_getElem? hview,
          ⟨fun _ hdeposit => absurd hdeposit List.not_mem_nil, rfl, rfl⟩⟩
    · exact h.call call' v left hcall

/-- A row after a transaction of a call was there before it, with the same facts. -/
theorem row_before {deposits deposits' : Deposits}
    (hfacts : ∀ id, (deposits'.find? id).map Deposit.facts = (deposits.find? id).map Deposit.facts)
    {id : String} {row : Deposit} (hrow : deposits'.find? id = some row) :
    ∃ old, deposits.find? id = some old ∧ old.facts = row.facts := by
  have hold := hfacts id
  rw [hrow] at hold
  exact Option.map_eq_some_iff.mp hold.symm

/-- A row with the same facts was seen in the same views. -/
theorem SeenIn.of_facts {mc : MarketConfig} {views : List ChainView} {row old : Deposit}
    {blockHash : String} (h : SeenIn mc views old blockHash) (hfacts : old.facts = row.facts) :
    SeenIn mc views row blockHash := by
  intro view hview hfinal
  have hnumber : old.blockNumber = row.blockNumber := congrArg DepositFacts.blockNumber hfacts
  rw [← hnumber]
  exact h view hview ((finalFor_of_facts mc view hfacts).trans hfinal)

/-- What a step of a call can do keeps it. -/
theorem Scanned.move {mc : MarketConfig} {s : ScanState} {call : ℕ} {view : ChainView}
    {left left' : DepositCall} {now : Instant} {tables : DepositTables} (h : Scanned mc s)
    (hcall : s.calls.find? call = some (view, left))
    (hmove : CallMove mc now s.tables left tables left') :
    Scanned mc { s with
      tables
      calls := s.calls.upsert call (view, left')
      credits := s.credits ++
        (newCredits s.tables.ledger tables.ledger).map fun depositId => (depositId, view) } := by
  obtain ⟨hview, hleft⟩ := h.call call view left hcall
  obtain ⟨hkeyed, hfacts, -⟩ := hmove.keeps h.keyed hleft.held
  have hrowNow : ∀ {id old}, s.tables.deposits.find? id = some old →
      ∃ row, tables.deposits.find? id = some row ∧ row.blockNumber = old.blockNumber :=
    fun {id old} hold => by
      have hnow := hfacts id
      rw [hold] at hnow
      obtain ⟨row, hrow, heq⟩ := Option.map_eq_some_iff.mp hnow
      exact ⟨row, hrow, congrArg DepositFacts.blockNumber heq⟩
  refine ⟨hkeyed, fun call' v later hlater => ?_, fun id row hrow => ?_, fun credit hcredit => ?_⟩
  · rw [Sql.Table.find?_upsert] at hlater
    split at hlater
    · cases hlater
      exact ⟨hview, hleft.next hmove h.keyed⟩
    · obtain ⟨hv, hother⟩ := h.call call' v later hlater
      exact ⟨hv, hother.frame (fun _ hknown => hknown.of_facts hfacts)
        fun _ hfinal => hfinal.of_facts hfacts⟩
  · obtain ⟨old, hold, heq⟩ := row_before hfacts hrow
    obtain ⟨blockHash, hseen, hviews⟩ := h.seen id old hold
    refine ⟨blockHash, hseen, fun hentry => SeenIn.of_facts (hviews ?_) heq⟩
    cases hbefore : s.tables.ledger.find? (depositReference id) with
    | none => rfl
    | some entry =>
      rw [hmove.grows _ _ hbefore] at hentry
      cases hentry
  · rcases List.mem_append.mp hcredit with hpast | hnew
    · obtain ⟨old, blockHash, hold, hseen, hblock⟩ := h.credits credit hpast
      obtain ⟨row, hrow, hnumber⟩ := hrowNow hold
      exact ⟨row, blockHash, hrow, hseen, hnumber ▸ hblock⟩
    · obtain ⟨id, hid, rfl⟩ := List.mem_map.mp hnew
      obtain ⟨hbefore, hafter⟩ := mem_newCredits.mp hid
      -- the call was crediting the deposit, which is final in its view
      obtain ⟨old, hold, hfinal⟩ := hleft.crediting (hmove.entered hbefore hafter)
      obtain ⟨blockHash, hseen, hviews⟩ := h.seen id old hold
      obtain ⟨row, hrow, hnumber⟩ := hrowNow hold
      exact ⟨row, blockHash, hrow, hseen, hnumber ▸ hviews hbefore view hview hfinal⟩

/-- The next step of a call keeps it. -/
theorem Scanned.next {mc : MarketConfig} {s : ScanState} (h : Scanned mc s) (call : ℕ)
    (now : Instant) : Scanned mc (scanStep mc s (.next call now)) := by
  simp only [scanStep]
  cases hcall : s.calls.find? call with
  | none => exact h
  | some entry => exact h.move hcall (next_move mc now s.tables entry.2)

/-- Every event that disturbs nothing keeps it. -/
theorem Scanned.step {mc : MarketConfig} {s : ScanState} {event : ScanEvent} (h : Scanned mc s)
    (hevent : Undisturbed mc s event) : Scanned mc (scanStep mc s event) := by
  cases event with
  | view view => exact h.view hevent
  | sight view request now => exact h.sight hevent
  | process call view => exact h.process call view
  | next call now => exact h.next call now

/-- **Only final deposits are credited** in a run whose events disturb no deposit that was seen. -/
theorem credits_final_of_run (mc : MarketConfig) (events : List ScanEvent)
    (hrun : EachStep (scanStep mc) (Undisturbed mc) .start events) :
    ∀ s ∈ states (scanStep mc) .start events, OnlyFinal s := by
  intro s hs
  have hstep : ∀ s event, Scanned mc s → Undisturbed mc s event → Scanned mc (scanStep mc s event) :=
    fun _ _ h hevent => h.step hevent
  exact (invariant_of_eachStep hstep events .start (Scanned.start mc) hrun s hs).credits

/-! ## A transfer and a replaced block -/

/-- A transfer in block 1. -/
def localTransfer : ScannerDepositCreateRequest where
  chainCode := "picoin"
  tokenSymbol := "PICOIN"
  fromAddress := "PI12345678"
  toAddress := "PI_ESCROW_"
  amountBaseUnits := some 5
  txHash := "0123456789abcdef"
  blockNumber := 1
  blockHash := none
  logIndex := 0
  status := .detected

/-- The transfer is seen in a view, a later view shows it with its confirmations, and the
confirmations are processed. -/
def confirmedRun (seen later : List String) : List ScanEvent :=
  [.view ⟨"picoin", seen⟩, .sight 0 localTransfer 0, .view ⟨"picoin", later⟩, .process 0 1] ++
    List.replicate 6 (.next 0 1)

/-- A deposit that is seen, confirmed and credited on a chain that grows. -/
theorem credits_final_local :
    EachStep (scanStep localMarket) (Undisturbed localMarket) .start
        (confirmedRun ["g", "a"] ["g", "a", "b", "c"]) ∧
      ∀ s ∈ states (scanStep localMarket) .start (confirmedRun ["g", "a"] ["g", "a", "b", "c"]),
        OnlyFinal s := by
  have h : EachStep (scanStep localMarket) (Undisturbed localMarket) .start
      (confirmedRun ["g", "a"] ["g", "a", "b", "c"]) := by decide +kernel
  exact ⟨h, credits_final_of_run localMarket _ h⟩

/-- Every view has the blocks that have their confirmations in the views before it. -/
def Followed (mc : MarketConfig) (s : ScanState) : ScanEvent → Prop
  | .view view => ∀ earlier ∈ s.views, earlier.follows mc view
  | _ => True

/-- Block 1 is replaced when it is the latest one, two blocks before its transfers may be credited,
and the transfer is credited when block 1 of the other chain has its confirmations. -/
theorem replaced_block_credited :
    ¬ ∀ (mc : MarketConfig) (events : List ScanEvent),
      EachStep (scanStep mc) (Followed mc) .start events →
        ∀ s ∈ states (scanStep mc) .start events, OnlyFinal s := by
  intro hall
  have hrun : EachStep (scanStep localMarket) (Followed localMarket) .start
      (confirmedRun ["g", "a"] ["g", "x", "y", "z"]) :=
    ⟨fun _ hview => (nomatch hview), trivial, by
      show ∀ earlier ∈ [ChainView.mk "picoin" ["g", "a"]],
        earlier.follows localMarket ⟨"picoin", ["g", "x", "y", "z"]⟩
      decide +kernel, trivial, trivial, trivial, trivial, trivial, trivial, trivial, trivial⟩
  have h := hall localMarket _ hrun _ (foldl_mem_states _ _ _)
  have hcredits : (List.foldl (scanStep localMarket) .start
      (confirmedRun ["g", "a"] ["g", "x", "y", "z"])).credits =
        [(depositId localMarket "picoin" "0123456789abcdef" 0,
          ⟨"picoin", ["g", "x", "y", "z"]⟩)] := by decide +kernel
  have hrows : (List.foldl (scanStep localMarket) .start
      (confirmedRun ["g", "a"] ["g", "x", "y", "z"])).tables.deposits.rows.map
        (fun row => row.2.blockNumber) = [1] := by decide +kernel
  have hseen : (List.foldl (scanStep localMarket) .start
      (confirmedRun ["g", "a"] ["g", "x", "y", "z"])).seen.rows.map Prod.snd = ["a"] := by
    decide +kernel
  obtain ⟨deposit, blockHash, hrow, hhash, hblock⟩ := h _ (hcredits ▸ List.mem_singleton_self _)
  have hnumber : deposit.blockNumber = 1 := by
    have hmem := List.mem_map_of_mem (f := fun row => row.2.blockNumber)
      (Sql.Table.find?_eq_some_iff.mp hrow)
    rw [hrows] at hmem
    exact List.mem_singleton.mp hmem
  have hold : blockHash = "a" := by
    have hmem := List.mem_map_of_mem (f := Prod.snd) (Sql.Table.find?_eq_some_iff.mp hhash)
    rw [hseen] at hmem
    exact List.mem_singleton.mp hmem
  rw [hnumber, hold] at hblock
  exact absurd hblock (by decide)

end Picoin.Market
