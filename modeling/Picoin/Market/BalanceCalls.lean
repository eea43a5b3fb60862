import Picoin.Market.Deposits

/-!
# Concurrent credits and payments

Each storage call of `credit_deposit` and of `pay_payment_from_balance` is a transaction of its own,
and the transactions of different calls come in any order. The tables of pools, accounts and tokens
are only read, so a read of them is part of the transaction before it.

* **`payStep`** — one transaction of `pay_payment_from_balance`;
* **`balanceStep`** — one transaction of some call, or the start of a call.
-/

namespace Picoin.Market

open Run

/-- What `pay_payment_from_balance` has left to do. -/
inductive PayStage where
  | readPayment (paymentId : String) (request : PayFromBalanceRequest)
  | readBooking (payment : PaymentOrder) (request : PayFromBalanceRequest)
  | readReference (payment : PaymentOrder)
  | readBalance (payment : PaymentOrder) (booking : Booking) (accountId : String)
      (token : TokenDefinition) (required : ℤ)
  | putDebit (payment : PaymentOrder) (booking : Option Booking) (entry : LedgerEntry)
  | putBooking (payment : PaymentOrder) (booking : Booking)
  | putPayment (payment : PaymentOrder)

/-- The put of the booking comes first, where there is one. -/
def PayStage.afterDebit (payment : PaymentOrder) : Option Booking → PayStage
  | none => .putPayment payment
  | some booking => .putBooking payment booking

/-- What comes after the booking is read: the debit of a confirmed payment, or the balance. -/
def afterBooking (mc : MarketConfig) (payment : PaymentOrder) (booking : Booking)
    (request : PayFromBalanceRequest) : Except String PayStage :=
  if payment.status = .confirmed then .ok (.readReference payment)
  else do
    let token ← mc.getToken request.chainCode request.tokenSymbol
    let required ← requiredUnits payment token
    return .readBalance payment booking request.accountId token required

/-- One transaction of `pay_payment_from_balance`: the marketplace, and what is left to do. -/
def payStep (mc : MarketConfig) (now : Instant) (s : Marketplace) :
    PayStage → Except String (Marketplace × Option PayStage)
  | .readPayment paymentId request => do
    let payment ← getPayment s.payments paymentId
    return (s, some (.readBooking payment request))
  | .readBooking payment request => do
    let booking ← getBooking s.bookings payment.bookingId
    let stage ← afterBooking mc payment booking request
    return (s, some stage)
  | .readReference payment => match s.ledger.find? (paymentReference payment.paymentId) with
    | none => .error "payment is confirmed but no ledger debit was found"
    | some _ => .ok (s, none)
  | .readBalance payment booking accountId token required => do
    let available ← availableBalance mc s.ledger accountId token.chainCode token.tokenSymbol
    checkBalance token required available
    return (s, some (.putDebit (payment.pay accountId token required now)
      (booking.afterPayment now) (debitEntry mc accountId token required payment.paymentId now)))
  | .putDebit payment booking entry => do
    let ledger ← putLedgerEntry s.ledger (paymentReference payment.paymentId) entry
    return ({ s with ledger }, some (PayStage.afterDebit payment booking))
  | .putBooking payment booking =>
    .ok ({ s with bookings := putBooking s.bookings booking }, some (.putPayment payment))
  | .putPayment payment =>
    .ok ({ s with payments := s.payments.upsert payment.paymentId payment }, none)

inductive BalanceCall where
  | pay (stage : PayStage)
  | credit (stage : CreditStage)
  | ended

/-- The marketplace, and the calls under way or ended. -/
structure BalanceState where
  market : Marketplace
  calls : Sql.Table ℕ BalanceCall

inductive BalanceEvent where
  | pay (call : ℕ) (paymentId : String) (request : PayFromBalanceRequest)
  | credit (call : ℕ) (depositId : String)
  | next (call : ℕ) (now : Instant)

/-- The next transaction of a call. What it raises ends the call. -/
def BalanceCall.next (mc : MarketConfig) (now : Instant) (s : Marketplace) :
    BalanceCall → Marketplace × BalanceCall
  | .pay stage => match payStep mc now s stage with
    | .error _ => (s, .ended)
    | .ok (s', stage') => (s', stage'.elim .ended .pay)
  | .credit stage => match creditStep mc now s.deposits s.ledger stage with
    | .error _ => (s, .ended)
    | .ok (deposits, ledger, stage') => ({ s with deposits, ledger }, stage'.elim .ended .credit)
  | .ended => (s, .ended)

def balanceStep (mc : MarketConfig) (s : BalanceState) : BalanceEvent → BalanceState
  | .pay call paymentId request =>
    { s with calls := s.calls.insertNew call (.pay (.readPayment paymentId request)) }
  | .credit call depositId =>
    { s with calls := s.calls.insertNew call (.credit (.readDeposit depositId)) }
  | .next call now => match s.calls.find? call with
    | none => s
    | some left =>
      let (market, left') := left.next mc now s.market
      ⟨market, s.calls.upsert call left'⟩

end Picoin.Market
