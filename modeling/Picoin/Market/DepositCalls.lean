import Picoin.Lib.Outcome
import Picoin.Market.Deposits

/-!
# Concurrent scanners

Sightings of transfers, calls of `process_confirmations` and calls of `credit_deposit` run side by
side. Each storage call is a transaction of its own; the transactions of different calls come in any
order.

* **`DepositCall.next`** — the next transaction of a call, and **`CallMove`** all that it can do;
* **`depositStep`** — one transaction of some call, or the start of a call;
* **`Known`** — a deposit that a call holds has the facts of its row, whatever the other calls do.
-/

namespace Picoin.Market

open Outcome Run

/-- A call of `process_confirmations`, with the deposits of the chain that were accepted when it read
its rows. -/
structure Processing where
  chainCode : String
  confirmationsRequired : ℤ
  one_le_confirmations : 1 ≤ confirmationsRequired
  latest : ℤ
  accepted : List String

/-- What a call has left to do, or how it has ended. -/
inductive DepositCall where
  | readRows (chainCode : String) (latest : ℤ)
  | process (processing : Processing) (rows : List Deposit)
  | creditRow (processing : Processing) (stage : CreditStage) (rows : List Deposit)
  | credit (stage : CreditStage)
  | finished (processing : Processing)
  | raised (processing : Processing)
  | ended

/-- The deposits and the ledger. -/
structure DepositTables where
  deposits : Deposits
  ledger : Ledger

/-- The deposits of a chain. -/
def acceptedIds (deposits : Deposits) (chainCode : String) : List String :=
  (deposits.rows.filter fun row => row.2.chainCode = chainCode).map Prod.fst

/-- The rows that are left, without those above the latest block. -/
def Processing.reached (processing : Processing) (rows : List Deposit) : List Deposit :=
  rows.dropWhile fun deposit => processing.latest < deposit.blockNumber

/-- The next transaction of a call. -/
def DepositCall.next (mc : MarketConfig) (now : Instant) (s : DepositTables) :
    DepositCall → DepositTables × DepositCall
  | .readRows chainCode latest => match mc.getChain chainCode with
    | .error _ => (s, .ended)
    | .ok chain => (s, .process
        { chainCode := chain.chainCode
          confirmationsRequired := chain.confirmationsRequired
          one_le_confirmations := chain.one_le_confirmations
          latest
          accepted := acceptedIds s.deposits chain.chainCode }
        (openDeposits s.deposits chain.chainCode))
  | .process processing rows => match processing.reached rows with
    | [] => (s, .finished processing)
    | deposit :: rest =>
      let row := deposit.confirm processing.confirmationsRequired processing.latest now
      let s := { s with deposits := putDeposit s.deposits row }
      if deposit.final processing.confirmationsRequired processing.latest then
        (s, .creditRow processing (.readDeposit deposit.depositId) rest)
      else (s, .process processing rest)
  | .creditRow processing stage rows => match creditStep mc now s.deposits s.ledger stage with
    | .error _ => (s, .raised processing)
    | .ok (deposits, ledger, stage') => (⟨deposits, ledger⟩,
        stage'.elim (.process processing rows) fun stage' => .creditRow processing stage' rows)
  | .credit stage => match creditStep mc now s.deposits s.ledger stage with
    | .error _ => (s, .ended)
    | .ok (deposits, ledger, stage') => (⟨deposits, ledger⟩, stage'.elim .ended .credit)
  | .finished processing => (s, .finished processing)
  | .raised processing => (s, .raised processing)
  | .ended => (s, .ended)

/-- The tables, and the calls under way or ended. -/
structure DepositState where
  tables : DepositTables
  calls : Sql.Table ℕ DepositCall

inductive DepositEvent where
  | accept (request : ScannerDepositCreateRequest) (now : Instant)
  | process (call : ℕ) (chainCode : String) (latest : ℤ)
  | credit (call : ℕ) (depositId : String)
  | next (call : ℕ) (now : Instant)

def depositStep (mc : MarketConfig) (s : DepositState) : DepositEvent → DepositState
  | .accept request now =>
    { s with tables := { s.tables with
        deposits := attempt (acceptDeposit mc request now s.tables.deposits) s.tables.deposits } }
  | .process call chainCode latest =>
    { s with calls := s.calls.insertNew call (.readRows chainCode latest) }
  | .credit call depositId =>
    { s with calls := s.calls.insertNew call (.credit (.readDeposit depositId)) }
  | .next call now => match s.calls.find? call with
    | none => s
    | some left =>
      let (tables, left') := left.next mc now s.tables
      ⟨tables, s.calls.upsert call left'⟩

/-! ## What a transaction can do -/

/-- The outcomes of a transaction of `credit_deposit`. -/
inductive CreditMove (mc : MarketConfig) (now : Instant) (deposits : Deposits) (ledger : Ledger) :
    CreditStage → Deposits → Ledger → Option CreditStage → Prop
  | read {id : String} {deposit : Deposit} (hrow : deposits.find? id = some deposit)
      (hstatus : deposit.status = .confirmed ∨ deposit.status = .credited) :
      CreditMove mc now deposits ledger (.readDeposit id) deposits ledger
        (some (.readReference deposit))
  | found {deposit : Deposit} (hstatus : deposit.status = .credited)
      (hentry : (ledger.find? (depositReference deposit.depositId)).isSome) :
      CreditMove mc now deposits ledger (.readReference deposit) deposits ledger none
  | mark {deposit : Deposit} (creditedAt : Instant)
      (hentry : (ledger.find? (depositReference deposit.depositId)).isSome) :
      CreditMove mc now deposits ledger (.readReference deposit) deposits ledger
        (some (.putDeposit (deposit.markCredited creditedAt)))
  | missing {deposit : Deposit}
      (hentry : ledger.find? (depositReference deposit.depositId) = none) :
      CreditMove mc now deposits ledger (.readReference deposit) deposits ledger
        (some (.putCredit deposit (creditEntry mc deposit now)))
  | enter {deposit : Deposit} {entry : LedgerEntry} {ledger' : Ledger}
      (hput : putLedgerEntry ledger (depositReference deposit.depositId) entry = .ok ledger') :
      CreditMove mc now deposits ledger (.putCredit deposit entry) deposits ledger'
        (some (.putDeposit (deposit.markCredited now)))
  | put {deposit : Deposit} :
      CreditMove mc now deposits ledger (.putDeposit deposit) (putDeposit deposits deposit) ledger
        none

theorem creditStep_move {mc : MarketConfig} {now : Instant} {deposits deposits' : Deposits}
    {ledger ledger' : Ledger} {stage : CreditStage} {stage' : Option CreditStage}
    (h : creditStep mc now deposits ledger stage = .ok (deposits', ledger', stage')) :
    CreditMove mc now deposits ledger stage deposits' ledger' stage' := by
  cases stage with
  | readDeposit id =>
    simp only [creditStep] at h
    cases hrow : deposits.find? id with
    | none =>
      rw [hrow] at h
      cases h
    | some deposit =>
      simp only [hrow] at h
      split at h
      · cases h
        exact .read hrow ‹_›
      · cases h
  | readReference deposit =>
    simp only [creditStep] at h
    cases hentry : ledger.find? (depositReference deposit.depositId) with
    | none =>
      rw [hentry] at h
      cases h
      exact .missing hentry
    | some entry =>
      simp only [hentry] at h
      have hsome : (ledger.find? (depositReference deposit.depositId)).isSome := by
        rw [hentry]
        rfl
      split at h
      · cases h
        exact .found ‹_› hsome
      · cases h
        exact .mark _ hsome
  -- a second writer finds the reference taken, and the step raises
  | putCredit deposit entry =>
    obtain ⟨ledger₁, hput, hrest⟩ := bind_eq_ok.mp h
    cases hrest
    exact .enter hput
  | putDeposit deposit =>
    cases h
    exact .put

/-- The outcomes of the next transaction of a call. -/
inductive CallMove (mc : MarketConfig) (now : Instant) (s : DepositTables) :
    DepositCall → DepositTables → DepositCall → Prop
  | unknown {chainCode : String} {latest : ℤ} :
      CallMove mc now s (.readRows chainCode latest) s .ended
  | rows {chainCode : String} {latest : ℤ} {chain : ChainDefinition}
      (hchain : mc.getChain chainCode = .ok chain) :
      CallMove mc now s (.readRows chainCode latest) s (.process
        { chainCode := chain.chainCode
          confirmationsRequired := chain.confirmationsRequired
          one_le_confirmations := chain.one_le_confirmations
          latest
          accepted := acceptedIds s.deposits chain.chainCode }
        (openDeposits s.deposits chain.chainCode))
  | finish {processing : Processing} {rows : List Deposit} (hrows : processing.reached rows = []) :
      CallMove mc now s (.process processing rows) s (.finished processing)
  | wait {processing : Processing} {rows rest : List Deposit} {deposit : Deposit}
      (hrows : processing.reached rows = deposit :: rest)
      (hfinal : deposit.final processing.confirmationsRequired processing.latest = false) :
      CallMove mc now s (.process processing rows)
        ⟨putDeposit s.deposits
          (deposit.confirm processing.confirmationsRequired processing.latest now), s.ledger⟩
        (.process processing rest)
  | confirm {processing : Processing} {rows rest : List Deposit} {deposit : Deposit}
      (hrows : processing.reached rows = deposit :: rest)
      (hfinal : deposit.final processing.confirmationsRequired processing.latest = true) :
      CallMove mc now s (.process processing rows)
        ⟨putDeposit s.deposits
          (deposit.confirm processing.confirmationsRequired processing.latest now), s.ledger⟩
        (.creditRow processing (.readDeposit deposit.depositId) rest)
  | raise {processing : Processing} {rows : List Deposit} {stage : CreditStage} {e : String}
      (herror : creditStep mc now s.deposits s.ledger stage = .error e) :
      CallMove mc now s (.creditRow processing stage rows) s (.raised processing)
  | creditRow {processing : Processing} {rows : List Deposit} {stage stage' : CreditStage}
      {deposits : Deposits} {ledger : Ledger}
      (hmove : CreditMove mc now s.deposits s.ledger stage deposits ledger (some stage')) :
      CallMove mc now s (.creditRow processing stage rows) ⟨deposits, ledger⟩
        (.creditRow processing stage' rows)
  | creditedRow {processing : Processing} {rows : List Deposit} {stage : CreditStage}
      {deposits : Deposits} {ledger : Ledger}
      (hmove : CreditMove mc now s.deposits s.ledger stage deposits ledger none) :
      CallMove mc now s (.creditRow processing stage rows) ⟨deposits, ledger⟩
        (.process processing rows)
  | fail {stage : CreditStage} {e : String}
      (herror : creditStep mc now s.deposits s.ledger stage = .error e) :
      CallMove mc now s (.credit stage) s .ended
  | credit {stage stage' : CreditStage} {deposits : Deposits} {ledger : Ledger}
      (hmove : CreditMove mc now s.deposits s.ledger stage deposits ledger (some stage')) :
      CallMove mc now s (.credit stage) ⟨deposits, ledger⟩ (.credit stage')
  | credited {stage : CreditStage} {deposits : Deposits} {ledger : Ledger}
      (hmove : CreditMove mc now s.deposits s.ledger stage deposits ledger none) :
      CallMove mc now s (.credit stage) ⟨deposits, ledger⟩ .ended
  | finished {processing : Processing} : CallMove mc now s (.finished processing) s (.finished processing)
  | raised {processing : Processing} : CallMove mc now s (.raised processing) s (.raised processing)
  | ended : CallMove mc now s .ended s .ended

theorem next_move (mc : MarketConfig) (now : Instant) (s : DepositTables) (left : DepositCall) :
    CallMove mc now s left (left.next mc now s).1 (left.next mc now s).2 := by
  -- one move for each place that a call can be at
  cases left with
  | readRows chainCode latest =>
    simp only [DepositCall.next]
    cases hchain : mc.getChain chainCode with
    | error e => exact .unknown
    | ok chain => exact .rows hchain
  | process processing rows =>
    simp only [DepositCall.next]
    cases hrows : processing.reached rows with
    | nil => exact .finish hrows
    | cons deposit rest =>
      cases hfinal : deposit.final processing.confirmationsRequired processing.latest with
      | false =>
        simp only [hfinal, Bool.false_eq_true, if_false]
        exact .wait hrows hfinal
      | true =>
        simp only [hfinal, if_true]
        exact .confirm hrows hfinal
  | creditRow processing stage rows =>
    simp only [DepositCall.next]
    cases hstep : creditStep mc now s.deposits s.ledger stage with
    | error e => exact .raise hstep
    | ok result =>
      obtain ⟨deposits, ledger, stage'⟩ := result
      cases stage' with
      | none => exact .creditedRow (creditStep_move hstep)
      | some stage' => exact .creditRow (creditStep_move hstep)
  | credit stage =>
    simp only [DepositCall.next]
    cases hstep : creditStep mc now s.deposits s.ledger stage with
    | error e => exact .fail hstep
    | ok result =>
      obtain ⟨deposits, ledger, stage'⟩ := result
      cases stage' with
      | none => exact .credited (creditStep_move hstep)
      | some stage' => exact .credit (creditStep_move hstep)
  | finished processing => exact .finished
  | raised processing => exact .raised
  | ended => exact .ended

/-- The row that the transaction stores, if it is not there yet. -/
theorem storeDeposit_eq_ok {deposits deposits' : Deposits} {deposit : Deposit}
    (h : storeDeposit deposits deposit = .ok deposits') :
    deposits' = deposits ∨
      (deposits.rows.find? fun row => sameEvent row.2 deposit) = none ∧
        deposits.find? deposit.depositId = none ∧
        deposits' = deposits.upsert deposit.depositId deposit := by
  unfold storeDeposit at h
  cases hevent : deposits.rows.find? fun row => sameEvent row.2 deposit with
  | some row =>
    simp only [hevent] at h
    split at h
    · exact .inl (Except.ok.inj h).symm
    · cases h
  | none =>
    simp only [hevent] at h
    cases hinsert : deposits.insert? deposit.depositId deposit with
    | none =>
      rw [hinsert] at h
      cases h
    | some stored =>
      rw [hinsert] at h
      obtain ⟨hnew, hstored⟩ := Sql.Table.insert?_eq_some_iff.mp hinsert
      exact .inr ⟨rfl, hnew, (Except.ok.inj h).symm.trans hstored⟩

/-! ## What a call knows of its deposits -/

/-- The rows are under the ids of their deposits. -/
def Keyed (deposits : Deposits) : Prop :=
  ∀ id deposit, deposits.find? id = some deposit → deposit.depositId = id

/-- The row of the deposit has the same facts. -/
def Known (deposits : Deposits) (deposit : Deposit) : Prop :=
  (deposits.find? deposit.depositId).map Deposit.facts = some deposit.facts

/-- The deposits that the stage holds. -/
def CreditStage.held : CreditStage → List Deposit
  | .readDeposit _ => []
  | .readReference deposit => [deposit]
  | .putCredit deposit _ => [deposit]
  | .putDeposit deposit => [deposit]

/-- The deposits that the call holds. -/
def DepositCall.held : DepositCall → List Deposit
  | .process _ rows => rows
  | .creditRow _ stage rows => stage.held ++ rows
  | .credit stage => stage.held
  | _ => []

@[simp] theorem confirm_depositId (confirmationsRequired latest : ℤ) (now : Instant)
    (deposit : Deposit) :
    (deposit.confirm confirmationsRequired latest now).depositId = deposit.depositId := by
  unfold Deposit.confirm
  split <;> rfl

@[simp] theorem confirm_facts (confirmationsRequired latest : ℤ) (now : Instant)
    (deposit : Deposit) :
    (deposit.confirm confirmationsRequired latest now).facts = deposit.facts := by
  unfold Deposit.confirm
  split <;> rfl

theorem known_of_row {deposits : Deposits} (hkeyed : Keyed deposits) {id : String}
    {deposit : Deposit} (hrow : deposits.find? id = some deposit) : Known deposits deposit := by
  unfold Known
  rw [hkeyed id deposit hrow, hrow]
  rfl

/-- The row of a deposit that a call holds. -/
theorem Known.row {deposits : Deposits} {deposit : Deposit} (h : Known deposits deposit) :
    ∃ row, deposits.find? deposit.depositId = some row ∧ row.facts = deposit.facts :=
  Option.map_eq_some_iff.mp h

theorem find?_putDeposit (deposits : Deposits) (deposit : Deposit) (id : String) :
    (putDeposit deposits deposit).find? id =
      if id = deposit.depositId then (deposits.find? id).map fun _ => deposit
      else deposits.find? id := by
  rw [putDeposit, Sql.Table.find?_modify]
  by_cases hid : id = deposit.depositId
  · rw [if_pos hid, if_pos hid, hid]
  · rw [if_neg hid, if_neg hid]

theorem keyed_putDeposit {deposits : Deposits} {deposit : Deposit} (hkeyed : Keyed deposits) :
    Keyed (putDeposit deposits deposit) := by
  intro id row hrow
  rw [find?_putDeposit] at hrow
  split at hrow
  · obtain ⟨_, -, rfl⟩ := Option.map_eq_some_iff.mp hrow
    exact Eq.symm ‹_›
  · exact hkeyed id row hrow

/-- A put of a deposit changes no facts. -/
theorem map_facts_putDeposit {deposits : Deposits} {deposit : Deposit}
    (hknown : Known deposits deposit) (id : String) :
    ((putDeposit deposits deposit).find? id).map Deposit.facts =
      (deposits.find? id).map Deposit.facts := by
  rw [find?_putDeposit]
  split
  · rename_i hid
    obtain ⟨row, hrow, hfacts⟩ := hknown.row
    rw [hid, hrow, Option.map_some, Option.map_some, Option.map_some, hfacts]
  · rfl

/-- A stored deposit changes no other row. -/
theorem find?_of_storeDeposit {deposits deposits' : Deposits} {deposit row : Deposit}
    (h : storeDeposit deposits deposit = .ok deposits') {id : String}
    (hrow : deposits.find? id = some row) : deposits'.find? id = some row := by
  obtain rfl | ⟨-, hnew, rfl⟩ := storeDeposit_eq_ok h
  · exact hrow
  · have hne : id ≠ deposit.depositId := fun heq => by
      rw [heq, hnew] at hrow
      cases hrow
    rwa [Sql.Table.find?_upsert_ne _ _ hne]

theorem keyed_storeDeposit {deposits deposits' : Deposits} {deposit : Deposit}
    (hkeyed : Keyed deposits) (h : storeDeposit deposits deposit = .ok deposits') :
    Keyed deposits' := by
  obtain rfl | ⟨-, -, rfl⟩ := storeDeposit_eq_ok h
  · exact hkeyed
  · intro id row hrow
    rw [Sql.Table.find?_upsert] at hrow
    split at hrow
    · cases hrow
      exact Eq.symm ‹_›
    · exact hkeyed id row hrow

theorem Known.store {deposits deposits' : Deposits} {deposit held : Deposit}
    (hknown : Known deposits held) (h : storeDeposit deposits deposit = .ok deposits') :
    Known deposits' held := by
  obtain ⟨row, hrow, hfacts⟩ := hknown.row
  unfold Known
  rw [find?_of_storeDeposit h hrow, Option.map_some, hfacts]

/-- The rows above the latest block come first, so the others are among those that are left. -/
theorem mem_of_reached {processing : Processing} {rows : List Deposit} {deposit : Deposit}
    (h : deposit ∈ processing.reached rows) : deposit ∈ rows :=
  (List.dropWhile_sublist _).mem h

theorem mem_openDeposits {deposits : Deposits} {chainCode : String} {deposit : Deposit} :
    deposit ∈ openDeposits deposits chainCode ↔ (∃ id, deposits.find? id = some deposit) ∧
      deposit.chainCode = chainCode ∧
      (deposit.status = .detected ∨ deposit.status = .confirming ∨ deposit.status = .confirmed) := by
  unfold openDeposits
  rw [List.mem_insertionSort, List.mem_filter, List.mem_map]
  simp only [Bool.and_eq_true, Bool.or_eq_true, decide_eq_true_eq, or_assoc]
  refine and_congr_left fun _ => ⟨?_, ?_⟩
  · rintro ⟨row, hrow, rfl⟩
    exact ⟨row.1, Sql.Table.find?_eq_some_iff.mpr hrow⟩
  · rintro ⟨id, hrow⟩
    exact ⟨(id, deposit), Sql.Table.find?_eq_some_iff.mp hrow, rfl⟩

/-- No transaction of `credit_deposit` changes the facts of a deposit. -/
theorem CreditMove.keeps {mc : MarketConfig} {now : Instant} {deposits deposits' : Deposits}
    {ledger ledger' : Ledger} {stage : CreditStage} {stage' : Option CreditStage}
    (hmove : CreditMove mc now deposits ledger stage deposits' ledger' stage')
    (hkeyed : Keyed deposits) (hheld : ∀ deposit ∈ stage.held, Known deposits deposit) :
    Keyed deposits' ∧
      (∀ id, (deposits'.find? id).map Deposit.facts = (deposits.find? id).map Deposit.facts) ∧
      ∀ later, stage' = some later → ∀ deposit ∈ later.held, Known deposits' deposit := by
  cases hmove with
  | read hrow hstatus =>
    refine ⟨hkeyed, fun _ => rfl, fun later hlater deposit hdeposit => ?_⟩
    cases hlater
    rw [List.mem_singleton.mp hdeposit]
    exact known_of_row hkeyed hrow
  | found hstatus hentry => exact ⟨hkeyed, fun _ => rfl, fun _ hlater => nomatch hlater⟩
  | @mark deposit creditedAt hentry =>
    refine ⟨hkeyed, fun _ => rfl, fun later hlater row hrow => ?_⟩
    cases hlater
    rw [List.mem_singleton.mp hrow]
    exact hheld deposit List.mem_cons_self
  | missing hentry =>
    refine ⟨hkeyed, fun _ => rfl, fun later hlater deposit hdeposit => ?_⟩
    cases hlater
    rw [List.mem_singleton.mp hdeposit]
    exact hheld _ List.mem_cons_self
  | @enter deposit entry ledger' hput =>
    refine ⟨hkeyed, fun _ => rfl, fun later hlater row hrow => ?_⟩
    cases hlater
    rw [List.mem_singleton.mp hrow]
    exact hheld deposit List.mem_cons_self
  | put =>
    exact ⟨keyed_putDeposit hkeyed, map_facts_putDeposit (hheld _ List.mem_cons_self),
      fun _ hlater => nomatch hlater⟩

theorem Known.of_facts {deposits deposits' : Deposits} {deposit : Deposit}
    (h : Known deposits deposit)
    (hfacts : ∀ id, (deposits'.find? id).map Deposit.facts = (deposits.find? id).map Deposit.facts) :
    Known deposits' deposit :=
  (hfacts _).trans h

/-- No transaction of a call changes the facts of a deposit. -/
theorem CallMove.keeps {mc : MarketConfig} {now : Instant} {s s' : DepositTables}
    {left left' : DepositCall} (hmove : CallMove mc now s left s' left') (hkeyed : Keyed s.deposits)
    (hheld : ∀ deposit ∈ left.held, Known s.deposits deposit) :
    Keyed s'.deposits ∧
      (∀ id, (s'.deposits.find? id).map Deposit.facts = (s.deposits.find? id).map Deposit.facts) ∧
      ∀ deposit ∈ left'.held, Known s'.deposits deposit := by
  cases hmove with
  | unknown => exact ⟨hkeyed, fun _ => rfl, hheld⟩
  | rows hchain =>
    refine ⟨hkeyed, fun _ => rfl, fun deposit hdeposit => ?_⟩
    obtain ⟨id, hrow⟩ := (mem_openDeposits.mp hdeposit).1
    exact known_of_row hkeyed hrow
  | finish hrows => exact ⟨hkeyed, fun _ => rfl, fun _ hdeposit => nomatch hdeposit⟩
  | @wait processing rows rest deposit hrows hfinal
  -- a row is written back with its own facts
  | @confirm processing rows rest deposit hrows hfinal =>
    have hmem : ∀ row ∈ deposit :: rest, Known s.deposits row := fun row hrow =>
      hheld row (mem_of_reached (hrows ▸ hrow))
    have hput : Known s.deposits
        (deposit.confirm processing.confirmationsRequired processing.latest now) := by
      unfold Known
      rw [confirm_depositId, confirm_facts]
      exact hmem deposit List.mem_cons_self
    refine ⟨keyed_putDeposit hkeyed, map_facts_putDeposit hput, fun row hrow => ?_⟩
    exact (hmem row (List.mem_cons_of_mem _ hrow)).of_facts (map_facts_putDeposit hput)
  | raise herror => exact ⟨hkeyed, fun _ => rfl, fun _ hdeposit => nomatch hdeposit⟩
  -- the loop of `process_confirmations` is inside the credit of a row
  | creditRow hmove =>
    obtain ⟨hkeyed', hfacts, hlater⟩ := hmove.keeps hkeyed
      fun deposit hdeposit => hheld deposit (List.mem_append_left _ hdeposit)
    refine ⟨hkeyed', hfacts, fun deposit hdeposit => ?_⟩
    rcases List.mem_append.mp hdeposit with hstage | hrow
    · exact hlater _ rfl deposit hstage
    · exact (hheld deposit (List.mem_append_right _ hrow)).of_facts hfacts
  | creditedRow hmove =>
    obtain ⟨hkeyed', hfacts, -⟩ := hmove.keeps hkeyed
      fun deposit hdeposit => hheld deposit (List.mem_append_left _ hdeposit)
    exact ⟨hkeyed', hfacts, fun deposit hrow =>
      (hheld deposit (List.mem_append_right _ hrow)).of_facts hfacts⟩
  | fail herror => exact ⟨hkeyed, fun _ => rfl, fun _ hdeposit => nomatch hdeposit⟩
  | credit hmove =>
    obtain ⟨hkeyed', hfacts, hlater⟩ := hmove.keeps hkeyed hheld
    exact ⟨hkeyed', hfacts, hlater _ rfl⟩
  | credited hmove =>
    obtain ⟨hkeyed', hfacts, -⟩ := hmove.keeps hkeyed hheld
    exact ⟨hkeyed', hfacts, fun _ hdeposit => nomatch hdeposit⟩
  | finished => exact ⟨hkeyed, fun _ => rfl, hheld⟩
  | raised => exact ⟨hkeyed, fun _ => rfl, hheld⟩
  | ended => exact ⟨hkeyed, fun _ => rfl, hheld⟩

end Picoin.Market
