import Picoin.Lib.Outcome
import Picoin.Market.BalanceCalls
import Picoin.Proofs.CapacityCounter

/-!
# No overspending of a balance

A payment reads the balance in one transaction and puts its debit in another. Two payments that
read the same balance both take it: **`two_payments_overspend`**. A second debit of one payment is
ignored, but the payment is rewritten all the same.

* **`Covered`** — the condition of a transaction: a debit that is put is the first of its payment,
  and the balance still covers it;
* **`BalanceSound`** — the balances and the payments;
* **`balances_sound_of_run`** — every interleaving.
-/

namespace Picoin.Market

open Outcome Run

/-! ## Balances and payments -/

/-- The payment is the one that the entry was put for. -/
structure DebitOf (payment : PaymentOrder) (entry : LedgerEntry) : Prop where
  debit : entry.direction = .debit
  account : payment.accountId = some entry.accountId
  chain : payment.paymentChainCode = entry.chainCode
  token : payment.paymentTokenSymbol = entry.tokenSymbol
  amount : payment.amountBaseUnits = entry.amountBaseUnits

/-- The payment has its debit in the ledger. -/
def Debited (ledger : Ledger) (payment : PaymentOrder) : Prop :=
  ∃ entry, ledger.find? (paymentReference payment.paymentId) = some entry ∧ DebitOf payment entry

structure BalanceSound (s : Marketplace) : Prop where
  balance_nonneg : ∀ accountId chainCode tokenSymbol,
    0 ≤ balance s.ledger accountId chainCode tokenSymbol
  confirmed : ∀ id payment, s.payments.find? id = some payment → payment.status = .confirmed →
    Debited s.ledger payment
  deposits : ∀ id deposit, s.deposits.find? id = some deposit → 0 ≤ deposit.amountBaseUnits

/-- The debit that the call puts next, and its payment. -/
def BalanceCall.debit? : BalanceCall → Option (PaymentOrder × LedgerEntry)
  | .pay (.putDebit payment _ entry) => some (payment, entry)
  | _ => none

/-- A debit is put for a payment that has none, and the balance covers it. -/
def Covered (s : BalanceState) : BalanceEvent → Prop
  | .next call _ => ∀ debit ∈ (s.calls.find? call).bind BalanceCall.debit?,
      s.market.ledger.find? (paymentReference debit.1.paymentId) = none ∧
        debit.2.amountBaseUnits ≤
          balance s.market.ledger debit.2.accountId debit.2.chainCode debit.2.tokenSymbol
  | _ => True

instance (s : BalanceState) : ∀ event, Decidable (Covered s event)
  | .pay .. => inferInstanceAs (Decidable True)
  | .credit .. => inferInstanceAs (Decidable True)
  | .next call _ => inferInstanceAs (Decidable
      (∀ debit ∈ (s.calls.find? call).bind BalanceCall.debit?,
        s.market.ledger.find? (paymentReference debit.1.paymentId) = none ∧
          debit.2.amountBaseUnits ≤
            balance s.market.ledger debit.2.accountId debit.2.chainCode debit.2.tokenSymbol))

/-! ## Entries -/

theorem putLedgerEntry_eq_ok {ledger ledger' : Ledger} {reference : String × String}
    {entry : LedgerEntry} (h : putLedgerEntry ledger reference entry = .ok ledger') :
    (ledger.find? reference).isSome ∧ ledger' = ledger ∨
      ledger.find? reference = none ∧ ledger' = ledger.upsert reference entry := by
  unfold putLedgerEntry at h
  split at h
  · next hsome =>
    cases h
    exact .inl ⟨hsome, rfl⟩
  · next hnone =>
    split at h
    · cases h
    · cases h
      exact .inr ⟨Option.not_isSome_iff_eq_none.mp hnone, rfl⟩

/-- The old entries are there. -/
def Grows (ledger ledger' : Ledger) : Prop :=
  ∀ reference entry, ledger.find? reference = some entry → ledger'.find? reference = some entry

theorem Grows.refl (ledger : Ledger) : Grows ledger ledger := fun _ _ h => h

theorem grows_putLedgerEntry {ledger ledger' : Ledger} {reference : String × String}
    {entry : LedgerEntry} (h : putLedgerEntry ledger reference entry = .ok ledger') :
    Grows ledger ledger' := by
  intro reference' entry' hfind
  rcases putLedgerEntry_eq_ok h with ⟨-, rfl⟩ | ⟨hnone, rfl⟩
  · exact hfind
  · rw [Sql.Table.find?_upsert_ne _ _ ?_]
    · exact hfind
    · rintro rfl
      rw [hnone] at hfind
      cases hfind

theorem Debited.grow {ledger ledger' : Ledger} {payment : PaymentOrder}
    (h : Debited ledger payment) (hgrows : Grows ledger ledger') : Debited ledger' payment := by
  obtain ⟨entry, hentry, hdebit⟩ := h
  exact ⟨entry, hgrows _ _ hentry, hdebit⟩

/-- What a new entry adds to a balance. -/
theorem balance_upsert {ledger : Ledger} {reference : String × String}
    (hnone : ledger.find? reference = none) (entry : LedgerEntry)
    (accountId chainCode tokenSymbol : String) :
    balance (ledger.upsert reference entry) accountId chainCode tokenSymbol =
      balance ledger accountId chainCode tokenSymbol +
        if entry.accountId = accountId ∧ entry.chainCode = chainCode ∧
          entry.tokenSymbol = tokenSymbol then entry.signed else 0 := by
  unfold balance
  rw [Sql.Table.sum_upsert, hnone, Option.map_none, Option.getD_none, sub_zero]

/-- The balances after an entry that its balance covers. -/
theorem balance_nonneg_of_put {ledger ledger' : Ledger} {reference : String × String}
    {entry : LedgerEntry} (h : putLedgerEntry ledger reference entry = .ok ledger')
    (hbalance : ∀ a c t, 0 ≤ balance ledger a c t)
    (hcovered : ledger.find? reference = none →
      0 ≤ balance ledger entry.accountId entry.chainCode entry.tokenSymbol + entry.signed)
    (a c t : String) : 0 ≤ balance ledger' a c t := by
  rcases putLedgerEntry_eq_ok h with ⟨-, rfl⟩ | ⟨hnone, rfl⟩
  · exact hbalance a c t
  · rw [balance_upsert hnone]
    split
    · next hkey =>
      obtain ⟨rfl, rfl, rfl⟩ := hkey
      exact hcovered hnone
    · rw [add_zero]
      exact hbalance a c t

/-! ## The calls under way -/

/-- What is known of a payment that a call has read or is about to write. -/
def PayStage.Sound (ledger : Ledger) : PayStage → Prop
  | .putDebit payment _ entry => DebitOf payment entry
  | .putBooking payment _ => Debited ledger payment
  | .putPayment payment => Debited ledger payment
  | _ => True

def CreditStage.Sound : CreditStage → Prop
  | .readDeposit _ => True
  | .readReference deposit => 0 ≤ deposit.amountBaseUnits
  | .putCredit deposit entry => 0 ≤ deposit.amountBaseUnits ∧ 0 ≤ entry.signed
  | .putDeposit deposit => 0 ≤ deposit.amountBaseUnits

def BalanceCall.Sound (ledger : Ledger) : BalanceCall → Prop
  | .pay stage => stage.Sound ledger
  | .credit stage => stage.Sound
  | .ended => True

structure BalancesHeld (s : BalanceState) : Prop where
  sound : BalanceSound s.market
  calls : ∀ call left, s.calls.find? call = some left → left.Sound s.market.ledger

theorem BalanceCall.Sound.grow {ledger ledger' : Ledger} {left : BalanceCall}
    (h : left.Sound ledger) (hgrows : Grows ledger ledger') : left.Sound ledger' := by
  cases left with
  | pay stage => cases stage with
    | putBooking payment booking => exact Debited.grow h hgrows
    | putPayment payment => exact Debited.grow h hgrows
    | _ => exact h
  | credit stage => exact h
  | ended => trivial

section

variable {mc : MarketConfig} {now : Instant} {s s' : Marketplace}

theorem afterBooking_sound {payment : PaymentOrder} {booking : Booking}
    {request : PayFromBalanceRequest} {stage : PayStage} {ledger : Ledger}
    (h : afterBooking mc payment booking request = .ok stage) : stage.Sound ledger := by
  unfold afterBooking at h
  split at h
  · cases h
    trivial
  · obtain ⟨token, -, h⟩ := bind_eq_ok.mp h
    obtain ⟨required, -, h⟩ := bind_eq_ok.mp h
    cases pure_eq_ok.mp h
    trivial

/-- One transaction of a payment. -/
theorem payStep_sound (h : BalanceSound s) {stage : PayStage} {stage' : Option PayStage}
    (hstage : stage.Sound s.ledger)
    (hcovered : ∀ debit ∈ (BalanceCall.pay stage).debit?,
      s.ledger.find? (paymentReference debit.1.paymentId) = none ∧ debit.2.amountBaseUnits ≤
        balance s.ledger debit.2.accountId debit.2.chainCode debit.2.tokenSymbol)
    (hstep : payStep mc now s stage = .ok (s', stage')) :
    BalanceSound s' ∧ Grows s.ledger s'.ledger ∧ ∀ left ∈ stage', left.Sound s'.ledger := by
  cases stage with
  | readPayment paymentId request =>
    obtain ⟨payment, -, hret⟩ := bind_eq_ok.mp hstep
    cases pure_eq_ok.mp hret
    exact ⟨h, Grows.refl _, fun left hleft => by cases hleft; trivial⟩
  | readBooking payment request =>
    obtain ⟨booking, -, hrest⟩ := bind_eq_ok.mp hstep
    obtain ⟨next, hnext, hret⟩ := bind_eq_ok.mp hrest
    cases pure_eq_ok.mp hret
    exact ⟨h, Grows.refl _, fun left hleft => by cases hleft; exact afterBooking_sound hnext⟩
  | readReference payment =>
    rw [payStep] at hstep
    split at hstep
    · cases hstep
    · cases hstep
      exact ⟨h, Grows.refl _, fun left hleft => nomatch hleft⟩
  | readBalance payment booking accountId token required =>
    obtain ⟨available, -, hrest⟩ := bind_eq_ok.mp hstep
    obtain ⟨-, -, hret⟩ := bind_eq_ok.mp hrest
    cases pure_eq_ok.mp hret
    exact ⟨h, Grows.refl _, fun left hleft => by cases hleft; exact ⟨rfl, rfl, rfl, rfl, rfl⟩⟩
  | putDebit payment booking entry =>
    obtain ⟨ledger, hput, hret⟩ := bind_eq_ok.mp hstep
    cases pure_eq_ok.mp hret
    -- the only transaction that takes from a balance: the run says that it is covered
    have hdebit : DebitOf payment entry := hstage
    obtain ⟨hnone, henough⟩ := hcovered (payment, entry) rfl
    have hsigned : entry.signed = -entry.amountBaseUnits := by
      unfold LedgerEntry.signed
      rw [hdebit.debit]
    have hgrows := grows_putLedgerEntry hput
    have hfind : ledger.find? (paymentReference payment.paymentId) = some entry := by
      rcases putLedgerEntry_eq_ok hput with ⟨hsome, -⟩ | ⟨-, rfl⟩
      · rw [hnone] at hsome
        cases hsome
      · exact Sql.Table.find?_upsert_self _ _ _
    refine ⟨⟨balance_nonneg_of_put hput h.balance_nonneg fun _ => ?_,
      fun id row hrow hconfirmed => (h.confirmed id row hrow hconfirmed).grow hgrows, h.deposits⟩,
      hgrows, fun left hleft => ?_⟩
    · rw [hsigned]
      exact sub_nonneg.mpr henough
    · cases hleft
      cases booking with
      | none => exact ⟨entry, hfind, hdebit⟩
      | some booking => exact ⟨entry, hfind, hdebit⟩
  | putBooking payment booking =>
    cases hstep
    exact ⟨⟨h.balance_nonneg, h.confirmed, h.deposits⟩, Grows.refl _,
      fun left hleft => by cases hleft; exact hstage⟩
  -- the payment is confirmed, and its debit is in the ledger since an earlier transaction
  | putPayment payment =>
    cases hstep
    refine ⟨⟨h.balance_nonneg, fun id row hrow hconfirmed => ?_, h.deposits⟩, Grows.refl _,
      fun left hleft => nomatch hleft⟩
    rw [Sql.Table.find?_upsert] at hrow
    split at hrow
    · cases hrow
      exact hstage
    · exact h.confirmed id row hrow hconfirmed

/-- One transaction of a credit. -/
theorem creditStep_sound (h : BalanceSound s) {stage : CreditStage} {stage' : Option CreditStage}
    {deposits : Deposits} {ledger : Ledger} (hstage : stage.Sound)
    (hstep : creditStep mc now s.deposits s.ledger stage = .ok (deposits, ledger, stage')) :
    BalanceSound { s with deposits, ledger } ∧ Grows s.ledger ledger ∧
      ∀ left ∈ stage', left.Sound := by
  cases stage with
  | readDeposit id =>
    rw [creditStep] at hstep
    split at hstep
    · cases hstep
    · next deposit hdeposit =>
      split at hstep
      · cases hstep
        exact ⟨h, Grows.refl _, fun left hleft => by cases hleft; exact h.deposits id deposit hdeposit⟩
      · cases hstep
  | readReference deposit =>
    rw [creditStep] at hstep
    split at hstep
    · split at hstep
      · cases hstep
        exact ⟨h, Grows.refl _, fun left hleft => nomatch hleft⟩
      · cases hstep
        exact ⟨h, Grows.refl _, fun left hleft => by cases hleft; exact hstage⟩
    · cases hstep
      exact ⟨h, Grows.refl _, fun left hleft => by cases hleft; exact ⟨hstage, hstage⟩⟩
  | putCredit deposit entry =>
    obtain ⟨ledger, hput, hret⟩ := bind_eq_ok.mp hstep
    cases pure_eq_ok.mp hret
    obtain ⟨hamount, hsigned⟩ : 0 ≤ deposit.amountBaseUnits ∧ 0 ≤ entry.signed := hstage
    have hgrows := grows_putLedgerEntry hput
    refine ⟨⟨balance_nonneg_of_put hput h.balance_nonneg fun _ => ?_,
      fun id row hrow hconfirmed => (h.confirmed id row hrow hconfirmed).grow hgrows, h.deposits⟩,
      hgrows, fun left hleft => by cases hleft; exact hamount⟩
    exact add_nonneg (h.balance_nonneg _ _ _) hsigned
  | putDeposit deposit =>
    cases hstep
    refine ⟨⟨h.balance_nonneg, h.confirmed, fun id row hrow => ?_⟩, Grows.refl _,
      fun left hleft => nomatch hleft⟩
    unfold putDeposit at hrow
    rw [Sql.Table.find?_modify] at hrow
    split at hrow
    · obtain ⟨old, -, rfl⟩ := Option.map_eq_some_iff.mp hrow
      exact hstage
    · exact h.deposits id row hrow

end

/-! ## Every interleaving -/

section

variable {mc : MarketConfig} {s : BalanceState}

/-- What the next transaction of a call leaves. -/
theorem BalanceCall.next_sound (mc : MarketConfig) (now : Instant) (h : BalanceSound s.market)
    {left : BalanceCall} (hleft : left.Sound s.market.ledger)
    (hcovered : ∀ debit ∈ left.debit?,
      s.market.ledger.find? (paymentReference debit.1.paymentId) = none ∧
        debit.2.amountBaseUnits ≤
          balance s.market.ledger debit.2.accountId debit.2.chainCode debit.2.tokenSymbol) :
    BalanceSound (left.next mc now s.market).1 ∧
      Grows s.market.ledger (left.next mc now s.market).1.ledger ∧
        (left.next mc now s.market).2.Sound (left.next mc now s.market).1.ledger := by
  cases left with
  | pay stage =>
    rw [BalanceCall.next]
    split
    · exact ⟨h, Grows.refl _, trivial⟩
    · next s' stage' hstep =>
      obtain ⟨hsound, hgrows, hstage'⟩ := payStep_sound h hleft hcovered hstep
      refine ⟨hsound, hgrows, ?_⟩
      cases stage' with
      | none => trivial
      | some stage' => exact hstage' stage' rfl
  | credit stage =>
    rw [BalanceCall.next]
    split
    · exact ⟨h, Grows.refl _, trivial⟩
    · next deposits ledger stage' hstep =>
      obtain ⟨hsound, hgrows, hstage'⟩ := creditStep_sound h hleft hstep
      refine ⟨hsound, hgrows, ?_⟩
      cases stage' with
      | none => trivial
      | some stage' => exact hstage' stage' rfl
  | ended => exact ⟨h, Grows.refl _, trivial⟩

/-- A call that starts has read nothing. -/
theorem BalancesHeld.begin (h : BalancesHeld s) (call : ℕ) {left : BalanceCall}
    (hleft : left.Sound s.market.ledger) :
    BalancesHeld { s with calls := s.calls.insertNew call left } := by
  refine ⟨h.sound, fun call' left' hcall => ?_⟩
  rw [Sql.Table.find?_insertNew] at hcall
  split at hcall
  · cases hold : s.calls.find? call with
    | none =>
      rw [hold, Option.getD_none] at hcall
      cases hcall
      exact hleft
    | some old =>
      rw [hold, Option.getD_some] at hcall
      exact h.calls call left' (hold.trans hcall)
  · exact h.calls call' left' hcall

theorem BalancesHeld.step (h : BalancesHeld s) {event : BalanceEvent}
    (hcovered : Covered s event) : BalancesHeld (balanceStep mc s event) := by
  cases event with
  | pay call paymentId request => exact h.begin call trivial
  | credit call depositId => exact h.begin call trivial
  | next call now =>
    rw [balanceStep]
    split
    · exact h
    · next left hcall =>
      obtain ⟨hsound, hgrows, hnext⟩ := BalanceCall.next_sound mc now h.sound
        (h.calls call left hcall) fun debit hdebit => hcovered debit (by rw [hcall]; exact hdebit)
      refine ⟨hsound, fun call' left' hcall' => ?_⟩
      rw [Sql.Table.find?_upsert] at hcall'
      split at hcall'
      · cases hcall'
        exact hnext
      · exact (h.calls call' left' hcall').grow hgrows

end

/-- No balance is overspent, and a payment has one debit and is confirmed by it. -/
structure NoOverspending (s : BalanceState) : Prop where
  balance_nonneg : ∀ accountId chainCode tokenSymbol,
    0 ≤ balance s.market.ledger accountId chainCode tokenSymbol
  one_debit : ∀ paymentId,
    (s.market.ledger.rows.filter fun row => row.1 = paymentReference paymentId).length ≤ 1
  confirmed : (∀ call left, s.calls.find? call = some left → left = .ended) →
    ∀ id payment, s.market.payments.find? id = some payment → payment.status = .confirmed →
      Debited s.market.ledger payment

/-- A table has one row for a reference. -/
theorem length_filter_reference_le (ledger : Ledger) (reference : String × String) :
    (ledger.rows.filter fun row => row.1 = reference).length ≤ 1 := by
  have hcount := List.nodup_iff_count_le_one.mp ledger.nodup reference
  rw [List.count_eq_countP, List.countP_map, List.countP_eq_length_filter] at hcount
  refine le_trans (le_of_eq (congrArg List.length (List.filter_congr fun row _ => ?_))) hcount
  exact (beq_eq_decide row.1 reference).symm

/-- **No balance is overspent** in an interleaving whose debits are covered when they are put. -/
theorem balances_sound_of_run (mc : MarketConfig) (s : Marketplace) (hs : BalanceSound s)
    (events : List BalanceEvent)
    (hrun : EachStep (balanceStep mc) Covered ⟨s, .empty⟩ events) :
    ∀ s' ∈ states (balanceStep mc) ⟨s, .empty⟩ events, NoOverspending s' := by
  intro s' hs'
  have hstart : BalancesHeld ⟨s, .empty⟩ := ⟨hs, fun _ _ h => nomatch h⟩
  have hstep : ∀ s event, BalancesHeld s → Covered s event → BalancesHeld (balanceStep mc s event) :=
    fun _ _ h hevent => h.step hevent
  have hheld := invariant_of_eachStep hstep events ⟨s, .empty⟩ hstart hrun s' hs'
  exact ⟨hheld.sound.balance_nonneg, fun _ => length_filter_reference_le _ _,
    fun _ => hheld.sound.confirmed⟩

/-! ## A local ledger -/

def localPayment (paymentId : String) : PaymentOrder where
  paymentId
  bookingId := "k"
  currency := "PICOIN"
  amountPi := 5
  amountBaseUnits := 5
  paymentChainCode := "picoin"
  paymentTokenSymbol := "PICOIN"
  accountId := some "ann"
  payToAddress := "PI_ESCROW"
  memo := "k"
  status := .pending
  txHash := none
  confirmations := 0
  createdAt := 0
  updatedAt := 0

def localBookingRow : BookingRow where
  listingId := "l"
  booking :=
    { bookingId := "k"
      poolId := "pool"
      listingId := "l"
      pairSymbol := "PICOIN/BTC"
      providerId := "p"
      providerWallet := "PI"
      requesterWallet := "PI"
      hardwareType := .cpu
      units := 1
      durationMinutes := 60
      amountPi := 5
      status := .awaitingPayment
      paymentId := "a"
      startsAt := none
      expiresAt := 0
      createdAt := 0
      updatedAt := 0 }

def localDeposit : Deposit where
  depositId := "d"
  accountId := "ann"
  walletId := "wallet"
  chainCode := "picoin"
  tokenSymbol := "PICOIN"
  fromAddress := "PI"
  toAddress := "PI_ESCROW"
  amountBaseUnits := 5
  txHash := "f"
  blockNumber := 1
  blockHash := none
  logIndex := 0
  confirmations := 3
  status := .confirmed
  confirmedAt := some 0
  creditedAt := none
  createdAt := 0
  updatedAt := 0

/-- Two payments of five units, and a deposit of five. -/
def localBalances : Marketplace :=
  { Marketplace.empty with
    bookings := Sql.Table.empty.upsert "k" localBookingRow
    payments := (Sql.Table.empty.upsert "a" (localPayment "a")).upsert "b" (localPayment "b")
    deposits := Sql.Table.empty.upsert "d" localDeposit }

def annPays : PayFromBalanceRequest := ⟨"ann", "picoin", "PICOIN"⟩

theorem localBalances_sound : BalanceSound localBalances where
  balance_nonneg _ _ _ := le_rfl
  confirmed id payment hpayment hconfirmed := by
    have hpending : payment.status = .pending := by
      have hrow : ((Sql.Table.empty.upsert "a" (localPayment "a")).upsert "b"
          (localPayment "b")).find? id = some payment := hpayment
      rw [Sql.Table.find?_upsert, Sql.Table.find?_upsert] at hrow
      split at hrow
      · cases hrow
        rfl
      · split at hrow
        · cases hrow
          rfl
        · cases hrow
    rw [hpending] at hconfirmed
    cases hconfirmed
  deposits id deposit hdeposit := by
    have hrow : (Sql.Table.empty.upsert "d" localDeposit).find? id = some deposit := hdeposit
    rw [Sql.Table.find?_upsert] at hrow
    split at hrow
    · cases hrow
      decide
    · cases hrow

/-- The deposit is credited. -/
def creditRun : List BalanceEvent :=
  [.credit 0 "d", .next 0 1, .next 0 1, .next 0 1, .next 0 1]

/-- Then one of the payments is made, and the other is tried. -/
def paidRun : List BalanceEvent := creditRun ++
  .pay 1 "a" annPays :: List.replicate 6 (.next 1 2) ++
    .pay 2 "b" annPays :: List.replicate 6 (.next 2 3)

theorem balances_sound_local :
    EachStep (balanceStep localMarket) Covered ⟨localBalances, .empty⟩ paidRun ∧
      ∀ s' ∈ states (balanceStep localMarket) ⟨localBalances, .empty⟩ paidRun, NoOverspending s' := by
  have h : EachStep (balanceStep localMarket) Covered ⟨localBalances, .empty⟩ paidRun := by
    decide +kernel
  exact ⟨h, balances_sound_of_run localMarket localBalances localBalances_sound paidRun h⟩

/-- Then both payments read the balance before either puts its debit. -/
def overspendRun : List BalanceEvent := creditRun ++
  [.pay 1 "a" annPays, .pay 2 "b" annPays, .next 1 2, .next 2 2, .next 1 2, .next 2 2, .next 1 2,
    .next 2 2, .next 1 2, .next 2 2]

theorem balance_overspendRun :
    balance (overspendRun.foldl (balanceStep localMarket) ⟨localBalances, .empty⟩).market.ledger
      "ann" "picoin" "PICOIN" = -5 := by decide +kernel

/-- Five units pay twice five. -/
theorem two_payments_overspend :
    ¬ ∀ (mc : MarketConfig) (s : Marketplace) (events : List BalanceEvent), BalanceSound s →
      ∀ s' ∈ states (balanceStep mc) ⟨s, .empty⟩ events, NoOverspending s' := by
  intro hall
  have h := (hall localMarket localBalances overspendRun localBalances_sound _
    (foldl_mem_states _ _ _)).balance_nonneg "ann" "picoin" "PICOIN"
  rw [balance_overspendRun] at h
  exact absurd h (by decide)

end Picoin.Market
