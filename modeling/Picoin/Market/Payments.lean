import Picoin.Lib.Run
import Picoin.Market.Capacity

/-!
# Payments and settlements

A booking is paid from the balance of an account, by a debit in the ledger, or by a transaction that
the payer names. A deposit on a chain becomes a credit in the ledger.

* **`availableBalance`** — credits less debits;
* **`putLedgerEntry`** — an entry for a reference that has one is ignored;
* **`payPaymentFromBalance`**, **`submitPayment`**, **`settleBooking`** — the operations, one at a
  time;
* **`bookingStep`** — a marketplace that takes them and bookings one after another.
-/

namespace Picoin.Market

open Json

/-! ## The ledger -/

/-- What the entry adds to the balance of its account. -/
def LedgerEntry.signed (entry : LedgerEntry) : ℤ :=
  match entry.direction with
  | .credit => entry.amountBaseUnits
  | .debit => -entry.amountBaseUnits

/-- The credits less the debits of an account in a token. -/
def balance (ledger : Ledger) (accountId chainCode tokenSymbol : String) : ℤ :=
  ledger.sum fun entry =>
    if entry.accountId = accountId ∧ entry.chainCode = chainCode ∧ entry.tokenSymbol = tokenSymbol
    then entry.signed else 0

/-- `available_balance`. -/
def availableBalance (mc : MarketConfig) (ledger : Ledger)
    (accountId chainCode tokenSymbol : String) : Except String ℤ := do
  mc.getAccount accountId
  return balance ledger accountId (normalizeChainCode chainCode) (normalizeCoin tokenSymbol)

/-- `put_ledger_entry`: an entry with the reference of another is ignored, and one with its id only
raises. -/
def putLedgerEntry (ledger : Ledger) (reference : String × String) (entry : LedgerEntry) :
    Except String Ledger :=
  if (ledger.find? reference).isSome then .ok ledger
  else if ledger.rows.any fun row => row.2.entryId = entry.entryId then
    .error "UNIQUE constraint failed: ledger_entries.entry_id"
  else .ok (ledger.upsert reference entry)

def ledgerEntryId (mc : MarketConfig) (reference : String × String) : String :=
  "ledger_" ++ mc.shortHash (.obj
    [("reference_type", .str reference.1), ("reference_id", .str reference.2)])

def paymentReference (paymentId : String) : String × String := ("payment", paymentId)

def depositReference (depositId : String) : String × String := ("deposit", depositId)

/-- The debit of a payment. -/
def debitEntry (mc : MarketConfig) (accountId : String) (token : TokenDefinition)
    (requiredUnits : ℤ) (paymentId : String) (now : Instant) : LedgerEntry where
  entryId := ledgerEntryId mc (paymentReference paymentId)
  accountId
  chainCode := token.chainCode
  tokenSymbol := token.tokenSymbol
  direction := .debit
  amountBaseUnits := requiredUnits
  entryType := "marketplace_payment"
  createdAt := now

/-- The credit of a deposit. -/
def creditEntry (mc : MarketConfig) (deposit : Deposit) (now : Instant) : LedgerEntry where
  entryId := ledgerEntryId mc (depositReference deposit.depositId)
  accountId := deposit.accountId
  chainCode := deposit.chainCode
  tokenSymbol := deposit.tokenSymbol
  direction := .credit
  amountBaseUnits := deposit.amountBaseUnits
  entryType := "deposit"
  createdAt := now

/-! ## Payments -/

structure PayFromBalanceRequest where
  accountId : String
  chainCode : String
  tokenSymbol : String

structure PaymentSubmitRequest where
  txHash : String
  confirmations : ℤ

/-- The payment after a debit of the account. -/
def PaymentOrder.pay (accountId : String) (token : TokenDefinition) (requiredUnits : ℤ)
    (now : Instant) (payment : PaymentOrder) : PaymentOrder :=
  { payment with
    accountId := some accountId
    currency := token.tokenSymbol
    paymentChainCode := token.chainCode
    paymentTokenSymbol := token.tokenSymbol
    amountBaseUnits := requiredUnits
    status := .confirmed
    confirmations := 0
    updatedAt := now }

/-- The payment after the transaction that the payer names. -/
def PaymentOrder.submit (mc : MarketConfig) (request : PaymentSubmitRequest) (now : Instant)
    (payment : PaymentOrder) : PaymentOrder :=
  { payment with
    txHash := some request.txHash
    confirmations := request.confirmations
    status :=
      if max 1 mc.confirmationsRequired ≤ request.confirmations then .confirmed else .submitted
    updatedAt := now }

/-- The booking that a confirmed payment puts, if any. -/
def Booking.afterPayment (now : Instant) (booking : Booking) : Option Booking :=
  if booking.status = .awaitingPayment then some (booking.activate now) else none

/-- The units that a payment from the balance needs. -/
def requiredUnits (payment : PaymentOrder) (token : TokenDefinition) : Except String ℤ := do
  checkRate token "token has no PICOIN rate configured for marketplace payments"
  amountPiToBaseUnits payment.amountPi token

/-- The balance covers what is required. -/
def checkBalance (token : TokenDefinition) (required available : ℤ) : Except String Unit :=
  if available < required then
    let symbol := token.tokenSymbol
    .error s!"insufficient {symbol} balance: required {required}, available {available}"
  else .ok ()

def putBookings (bookings : Bookings) (booking : Option Booking) : Bookings :=
  booking.elim bookings (putBooking bookings)

def payPaymentFromBalance (mc : MarketConfig) (paymentId : String)
    (request : PayFromBalanceRequest) (now : Instant) (s : Marketplace) :
    Except String Marketplace := do
  let payment ← getPayment s.payments paymentId
  let booking ← getBooking s.bookings payment.bookingId
  if payment.status = .confirmed then
    match s.ledger.find? (paymentReference payment.paymentId) with
    | none => .error "payment is confirmed but no ledger debit was found"
    | some _ => return s
  else
    let token ← mc.getToken request.chainCode request.tokenSymbol
    let required ← requiredUnits payment token
    let available ← availableBalance mc s.ledger request.accountId token.chainCode token.tokenSymbol
    checkBalance token required available
    let ledger ← putLedgerEntry s.ledger (paymentReference payment.paymentId)
      (debitEntry mc request.accountId token required payment.paymentId now)
    return { s with
      ledger
      bookings := putBookings s.bookings (booking.afterPayment now)
      payments := s.payments.upsert payment.paymentId
        (payment.pay request.accountId token required now) }

def submitPayment (mc : MarketConfig) (paymentId : String) (request : PaymentSubmitRequest)
    (now : Instant) (s : Marketplace) : Except String Marketplace := do
  let payment ← getPayment s.payments paymentId
  let booking ← getBooking s.bookings payment.bookingId
  let payment := payment.submit mc request now
  return { s with
    bookings := putBookings s.bookings
      (if payment.status = .confirmed then booking.afterPayment now else none)
    payments := s.payments.upsert payment.paymentId payment }

/-! ## Settlements -/

/-- The fee of an amount, rounded up. -/
def feeUnits (mc : MarketConfig) (grossUnits : ℤ) : ℤ :=
  ⌈(grossUnits : ℚ) * mc.feePercent / 10 ^ 8 / 100⌉

/-- The settlement of a booking. An amount of 10⁻⁶ is its own number of base units. -/
def newSettlement (mc : MarketConfig) (booking : Booking) (now : Instant) :
    ProviderSettlement where
  settlementId := "settlement_" ++ mc.shortHash (.obj [("booking_id", .str booking.bookingId)])
  bookingId := booking.bookingId
  paymentId := booking.paymentId
  providerId := booking.providerId
  providerWallet := booking.providerWallet
  grossAmountBaseUnits := booking.amountPi
  feeAmountBaseUnits := feeUnits mc booking.amountPi
  providerAmountBaseUnits := max 0 (booking.amountPi - feeUnits mc booking.amountPi)
  createdAt := now

/-- `put_settlement`: a second settlement of a booking is ignored, and one with the id of another
raises. -/
def putSettlement (settlements : Settlements) (settlement : ProviderSettlement) :
    Except String Settlements :=
  if (settlements.find? settlement.bookingId).isSome then .ok settlements
  else if settlements.rows.any fun row => row.2.settlementId = settlement.settlementId then
    .error "UNIQUE constraint failed: provider_settlements.settlement_id"
  else .ok (settlements.upsert settlement.bookingId settlement)

def settleBooking (mc : MarketConfig) (bookingId : String) (now : Instant) (s : Marketplace) :
    Except String Marketplace := do
  let booking ← getBooking s.bookings bookingId
  let payment ← getPayment s.payments booking.paymentId
  if payment.status ≠ .confirmed then .error "booking payment is not confirmed"
  else if booking.status ≠ .active ∧ booking.status ≠ .released then
    .error "booking is not active or released"
  else if (s.settlements.find? booking.bookingId).isSome then return s
  else
    let settlements ← putSettlement s.settlements (newSettlement mc booking now)
    return { s with settlements }

/-! ## One step -/

inductive BookingEvent where
  | createBooking (request : BookingCreateRequest) (now : Instant)
  | submitPayment (paymentId : String) (request : PaymentSubmitRequest) (now : Instant)
  | payPaymentFromBalance (paymentId : String) (request : PayFromBalanceRequest) (now : Instant)
  | releaseBooking (bookingId : String) (now : Instant)
  | settleBooking (bookingId : String) (now : Instant)

/-- One call; what it raises leaves the marketplace as it is. -/
def bookingStep (mc : MarketConfig) (s : Marketplace) : BookingEvent → Marketplace
  | .createBooking request now => Run.attempt (createBooking mc request now s) s
  | .submitPayment paymentId request now => Run.attempt (submitPayment mc paymentId request now s) s
  | .payPaymentFromBalance paymentId request now =>
    Run.attempt (payPaymentFromBalance mc paymentId request now s) s
  | .releaseBooking bookingId now => Run.attempt (releaseBooking bookingId now s) s
  | .settleBooking bookingId now => Run.attempt (settleBooking mc bookingId now s) s

end Picoin.Market
