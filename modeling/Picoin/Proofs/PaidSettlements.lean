import Mathlib.Algebra.Order.Field.Basic
import Picoin.Market.Payments
import Picoin.Proofs.BalanceCover

/-!
# What a settlement is paid from

A payment is confirmed by a debit in the ledger, or by a submission: the caller names a transaction
and a number of confirmations, and nobody looks the transaction up. So a settlement may belong to a
payment with neither a debit nor a deposit: **`unpaid_settlement`**.

* **`Debit`**, **`Submission`** — the two grounds of a confirmation;
* **`PaidKept`** — the invariant of a run;
* **`settlements_grounded_of_run`** — every settlement has one of the grounds, and its fee and the
  provider's part make its gross amount.
-/

namespace Picoin.Market

open Outcome Run

/-! ## Grounds of a confirmation -/

/-- The units of the token pay for the amount. -/
def Worth (mc : MarketConfig) (chainCode tokenSymbol : String) (amountPi units : ℤ) : Prop :=
  ∃ token required, (∃ chain symbol, mc.tokens chain symbol = some token) ∧
    token.chainCode = chainCode ∧ token.tokenSymbol = tokenSymbol ∧
      amountPiToBaseUnits amountPi token = .ok required ∧ required ≤ units

/-- The payment has a debit that is worth the amount. -/
def Debit (mc : MarketConfig) (ledger : Ledger) (paymentId : String) (amountPi : ℤ) : Prop :=
  ∃ entry, ledger.find? (paymentReference paymentId) = some entry ∧ entry.direction = .debit ∧
    Worth mc entry.chainCode entry.tokenSymbol amountPi entry.amountBaseUnits

/-- The payment was submitted with enough confirmations. -/
def Submission (mc : MarketConfig) (events : List BookingEvent) (paymentId : String) : Prop :=
  ∃ request now, .submitPayment paymentId request now ∈ events ∧
    max 1 mc.confirmationsRequired ≤ request.confirmations

/-- A credited deposit of the payment's token that is worth the amount, in a transaction that no
other payment is confirmed by. -/
def OwnDeposit (mc : MarketConfig) (s : Marketplace) (payment : PaymentOrder) (amountPi : ℤ) :
    Prop :=
  ∃ id deposit, s.deposits.find? id = some deposit ∧ deposit.status = .credited ∧
    deposit.chainCode = payment.paymentChainCode ∧
    deposit.tokenSymbol = payment.paymentTokenSymbol ∧ payment.txHash = some deposit.txHash ∧
    Worth mc deposit.chainCode deposit.tokenSymbol amountPi deposit.amountBaseUnits ∧
    ∀ id' other, s.payments.find? id' = some other → other.paymentId ≠ payment.paymentId →
      other.status = .confirmed → other.paymentChainCode = deposit.chainCode →
        other.txHash ≠ some deposit.txHash

/-- No bookings yet, and no listing with a negative price. -/
structure Unbooked (s : Marketplace) : Prop where
  bookings : s.bookings = .empty
  payments : s.payments = .empty
  settlements : s.settlements = .empty
  debits : ∀ paymentId, s.ledger.find? (paymentReference paymentId) = none
  prices : ∀ id listing, s.listings.find? id = some listing → 0 ≤ listing.pricePiPerHour

/-- The ids of payments are hashes of what is paid for: no payment gets the id of one with another
amount. -/
def NoCollision (mc : MarketConfig) (s : Marketplace) : BookingEvent → Prop
  | .createBooking request now => ∀ listing booking payment,
      selectListing s.listings request = .ok listing →
        newBooking mc request listing now = .ok (booking, payment) →
          ∀ old, s.payments.find? payment.paymentId = some old → old.amountPi = payment.amountPi
  | _ => True

/-- The condition can be checked along a run. -/
instance decidableNoCollision (mc : MarketConfig) (s : Marketplace) :
    ∀ event, Decidable (NoCollision mc s event)
  | .createBooking request now =>
    decidable_of_iff (∀ listing, selectListing s.listings request = .ok listing →
        ∀ made, newBooking mc request listing now = .ok made →
          ∀ old, s.payments.find? made.2.paymentId = some old → old.amountPi = made.2.amountPi)
      ⟨fun h listing booking payment hlisting hmade => h listing hlisting (booking, payment) hmade,
        fun h listing hlisting made hmade => h listing made.1 made.2 hlisting hmade⟩
  | .submitPayment .. | .payPaymentFromBalance .. | .releaseBooking .. | .settleBooking .. =>
    .isTrue trivial

/-! ## The invariant -/

/-- What a settlement should have. -/
structure Grounded (mc : MarketConfig) (events : List BookingEvent) (payments : Payments)
    (ledger : Ledger) (settlement : ProviderSettlement) : Prop where
  parts : settlement.feeAmountBaseUnits + settlement.providerAmountBaseUnits =
    settlement.grossAmountBaseUnits
  payment : (payments.find? settlement.paymentId).isSome
  ground : Debit mc ledger settlement.paymentId settlement.grossAmountBaseUnits ∨
    Submission mc events settlement.paymentId

structure PaymentKept (mc : MarketConfig) (events : List BookingEvent) (ledger : Ledger)
    (id : String) (payment : PaymentOrder) : Prop where
  named : payment.paymentId = id
  amount_nonneg : 0 ≤ payment.amountPi
  confirmed : payment.status = .confirmed →
    Debit mc ledger id payment.amountPi ∨ Submission mc events id

structure PaidKept (mc : MarketConfig) (events : List BookingEvent) (s : Marketplace) : Prop where
  payment : ∀ id payment, s.payments.find? id = some payment →
    PaymentKept mc events s.ledger id payment
  booking : ∀ id row, s.bookings.find? id = some row → ∃ payment,
    s.payments.find? row.booking.paymentId = some payment ∧ payment.amountPi = row.booking.amountPi
  debit : ∀ id entry, s.ledger.find? (paymentReference id) = some entry → ∃ payment,
    s.payments.find? id = some payment ∧ Debit mc s.ledger id payment.amountPi
  settlement : ∀ id settlement, s.settlements.find? id = some settlement →
    Grounded mc events s.payments s.ledger settlement
  prices : ∀ id listing, s.listings.find? id = some listing → 0 ≤ listing.pricePiPerHour

theorem Unbooked.paidKept {mc : MarketConfig} {s : Marketplace} (h : Unbooked s) :
    PaidKept mc [] s where
  payment id payment hfind := by
    rw [h.payments] at hfind
    cases hfind
  booking id row hfind := by
    rw [h.bookings] at hfind
    cases hfind
  debit id entry hfind := by
    rw [h.debits id] at hfind
    cases hfind
  settlement id settlement hfind := by
    rw [h.settlements] at hfind
    cases hfind
  prices := h.prices

/-! ## Amounts -/

theorem computeAmountPi_nonneg {price units minutes : ℤ} (hprice : 0 ≤ price) (hunits : 0 ≤ units)
    (hminutes : 0 ≤ minutes) : 0 ≤ computeAmountPi price units minutes :=
  Decimal.roundHalfEven_nonneg 6000 (mul_nonneg (mul_nonneg hprice hunits) hminutes)

/-- The fee is at most what it is taken from. -/
theorem feeUnits_le (mc : MarketConfig) {gross : ℤ} (hgross : 0 ≤ gross) :
    feeUnits mc gross ≤ gross := by
  have hpercent : (mc.feePercent : ℚ) ≤ 100 * 10 ^ 8 := by exact_mod_cast mc.feePercent_le
  have hgross' : (0 : ℚ) ≤ gross := by exact_mod_cast hgross
  refine Int.ceil_le.mpr ?_
  calc (gross : ℚ) * mc.feePercent / 10 ^ 8 / 100
      ≤ (gross : ℚ) * (100 * 10 ^ 8) / 10 ^ 8 / 100 := by gcongr
    _ = (gross : ℚ) := by ring

theorem newSettlement_parts (mc : MarketConfig) {booking : Booking} (now : Instant)
    (hamount : 0 ≤ booking.amountPi) :
    (newSettlement mc booking now).feeAmountBaseUnits +
      (newSettlement mc booking now).providerAmountBaseUnits = booking.amountPi := by
  have hfee := feeUnits_le mc hamount
  unfold newSettlement
  dsimp only
  omega

/-! ## The operations -/

section

variable {mc : MarketConfig} {s s' : Marketplace} {now : Instant}

theorem getPayment_eq_ok {payments : Payments} {id : String} {payment : PaymentOrder} :
    getPayment payments id = .ok payment ↔ payments.find? id = some payment := by
  unfold getPayment
  cases payments.find? id <;> simp

theorem getToken_eq_ok {chainCode tokenSymbol : String} {token : TokenDefinition} :
    mc.getToken chainCode tokenSymbol = .ok token ↔
      mc.tokens (normalizeChainCode chainCode) (normalizeCoin tokenSymbol) = some token := by
  unfold MarketConfig.getToken
  cases mc.tokens (normalizeChainCode chainCode) (normalizeCoin tokenSymbol) <;> simp

theorem newBooking_payment {request : BookingCreateRequest} {listing : Listing} {booking : Booking}
    {payment : PaymentOrder} (h : newBooking mc request listing now = .ok (booking, payment)) :
    booking.paymentId = payment.paymentId ∧ booking.amountPi = payment.amountPi ∧
      payment.status = .pending ∧ payment.amountPi =
        computeAmountPi listing.pricePiPerHour request.units request.durationMinutes := by
  obtain ⟨-, -, h⟩ := bind_eq_ok.mp h
  obtain ⟨chain, -, h⟩ := bind_eq_ok.mp h
  obtain ⟨token, -, h⟩ := bind_eq_ok.mp h
  obtain ⟨-, -, h⟩ := bind_eq_ok.mp h
  obtain ⟨amount, -, h⟩ := bind_eq_ok.mp h
  cases pure_eq_ok.mp h
  exact ⟨rfl, rfl, rfl, rfl⟩

/-- What a payment from the balance writes. -/
theorem payPaymentFromBalance_cases {id : String} {request : PayFromBalanceRequest}
    (h : payPaymentFromBalance mc id request now s = .ok s') :
    s' = s ∨ ∃ payment token required ledger booking,
      s.payments.find? id = some payment ∧ (∃ chain symbol, mc.tokens chain symbol = some token) ∧
        amountPiToBaseUnits payment.amountPi token = .ok required ∧
        putLedgerEntry s.ledger (paymentReference payment.paymentId)
          (debitEntry mc request.accountId token required payment.paymentId now) = .ok ledger ∧
        s' = { s with
          ledger
          bookings := putBookings s.bookings (Booking.afterPayment now booking)
          payments := s.payments.upsert payment.paymentId
            (payment.pay request.accountId token required now) } ∧
        ∃ row, s.bookings.find? payment.bookingId = some row ∧ row.booking = booking := by
  obtain ⟨payment, hpayment, h⟩ := bind_eq_ok.mp h
  obtain ⟨booking, hbooking, h⟩ := bind_eq_ok.mp h
  split at h
  · split at h
    · cases h
    · exact .inl (pure_eq_ok.mp h).symm
  · obtain ⟨token, htoken, h⟩ := bind_eq_ok.mp h
    obtain ⟨required, hrequired, h⟩ := bind_eq_ok.mp h
    obtain ⟨available, -, h⟩ := bind_eq_ok.mp h
    obtain ⟨-, -, h⟩ := bind_eq_ok.mp h
    obtain ⟨ledger, hput, h⟩ := bind_eq_ok.mp h
    obtain ⟨-, -, hrequired⟩ := bind_eq_ok.mp hrequired
    exact .inr ⟨payment, token, required, ledger, booking, getPayment_eq_ok.mp hpayment,
      ⟨_, _, getToken_eq_ok.mp htoken⟩, hrequired, hput, (pure_eq_ok.mp h).symm, getBooking_eq_ok.mp hbooking⟩

theorem submitPayment_cases {id : String} {request : PaymentSubmitRequest}
    (h : submitPayment mc id request now s = .ok s') : ∃ payment booking put,
      s.payments.find? id = some payment ∧
        (put = none ∨ put = Booking.afterPayment now booking) ∧
        s' = { s with
          bookings := putBookings s.bookings put
          payments := s.payments.upsert payment.paymentId (payment.submit mc request now) } ∧
        ∃ row, s.bookings.find? payment.bookingId = some row ∧ row.booking = booking := by
  obtain ⟨payment, hpayment, h⟩ := bind_eq_ok.mp h
  obtain ⟨booking, hbooking, h⟩ := bind_eq_ok.mp h
  refine ⟨payment, booking, _, getPayment_eq_ok.mp hpayment, ?_, (pure_eq_ok.mp h).symm,
    getBooking_eq_ok.mp hbooking⟩
  split
  · exact .inr rfl
  · exact .inl rfl

theorem settleBooking_cases {id : String} (h : settleBooking mc id now s = .ok s') :
    s' = s ∨ ∃ row payment settlements, s.bookings.find? id = some row ∧
      s.payments.find? row.booking.paymentId = some payment ∧ payment.status = .confirmed ∧
        putSettlement s.settlements (newSettlement mc row.booking now) = .ok settlements ∧
        s' = { s with settlements } := by
  obtain ⟨booking, hbooking, h⟩ := bind_eq_ok.mp h
  obtain ⟨row, hrow, rfl⟩ := getBooking_eq_ok.mp hbooking
  obtain ⟨payment, hpayment, h⟩ := bind_eq_ok.mp h
  split at h
  · cases h
  · next hconfirmed =>
    split at h
    · cases h
    · split at h
      · exact .inl (pure_eq_ok.mp h).symm
      · obtain ⟨settlements, hput, h⟩ := bind_eq_ok.mp h
        exact .inr ⟨row, payment, settlements, hrow, getPayment_eq_ok.mp hpayment,
          not_not.mp hconfirmed, hput, (pure_eq_ok.mp h).symm⟩

/-- More events have gone by, and the ledger has grown. -/
theorem grounds_grow {events : List BookingEvent} {ledger ledger' : Ledger} {id : String}
    {amountPi : ℤ} (h : Debit mc ledger id amountPi ∨ Submission mc events id)
    (hgrows : Grows ledger ledger') (event : BookingEvent) :
    Debit mc ledger' id amountPi ∨ Submission mc (events ++ [event]) id := by
  rcases h with ⟨entry, hentry, hdebit⟩ | ⟨request, now, hmem, henough⟩
  · exact .inl ⟨entry, hgrows _ _ hentry, hdebit⟩
  · exact .inr ⟨request, now, List.mem_append_left _ hmem, henough⟩

/-- The bookings after a put, over payments that keep their amounts. -/
theorem bookings_put {bookings : Bookings} {payments : Payments} {booking : Booking}
    (hold : ∀ id row, bookings.find? id = some row → ∃ payment,
      payments.find? row.booking.paymentId = some payment ∧
        payment.amountPi = row.booking.amountPi)
    (hnew : ∃ payment, payments.find? booking.paymentId = some payment ∧
      payment.amountPi = booking.amountPi) :
    ∀ id row, (putBooking bookings booking).find? id = some row → ∃ payment,
      payments.find? row.booking.paymentId = some payment ∧
        payment.amountPi = row.booking.amountPi := by
  intro id row hrow
  unfold putBooking at hrow
  rw [Sql.Table.find?_upsert] at hrow
  split at hrow
  · cases hrow
    exact hnew
  · exact hold id row hrow

/-- A payment that is written with the amount it had. -/
theorem amounts_upsert {payments : Payments} {id : String} {payment : PaymentOrder} {amountPi : ℤ}
    (h : ∃ old, payments.find? id = some old ∧ old.amountPi = amountPi)
    (hsame : ∀ old, payments.find? payment.paymentId = some old → old.amountPi = payment.amountPi) :
    ∃ new, (payments.upsert payment.paymentId payment).find? id = some new ∧
      new.amountPi = amountPi := by
  obtain ⟨old, hold, rfl⟩ := h
  by_cases heq : id = payment.paymentId
  · rw [heq] at hold ⊢
    exact ⟨payment, Sql.Table.find?_upsert_self _ _ _, (hsame old hold).symm⟩
  · exact ⟨old, (Sql.Table.find?_upsert_ne _ _ heq).trans hold, rfl⟩

/-- A payment is written that keeps its amount and has a ground for being confirmed. -/
theorem PaidKept.putPayment {events : List BookingEvent} (h : PaidKept mc events s)
    (event : BookingEvent) (payment : PaymentOrder) {ledger : Ledger} {bookings : Bookings}
    {listings : Listings}
    (hgrows : Grows s.ledger ledger)
    (hsame : ∀ old, s.payments.find? payment.paymentId = some old →
      old.amountPi = payment.amountPi)
    (hamount : 0 ≤ payment.amountPi)
    (hconfirmed : payment.status = .confirmed → Debit mc ledger payment.paymentId payment.amountPi ∨
      Submission mc (events ++ [event]) payment.paymentId)
    (hbookings : ∀ id row, bookings.find? id = some row → ∃ new,
      (s.payments.upsert payment.paymentId payment).find? row.booking.paymentId = some new ∧
        new.amountPi = row.booking.amountPi)
    (hdebits : ∀ id entry, ledger.find? (paymentReference id) = some entry →
      s.ledger.find? (paymentReference id) = some entry ∨
        id = payment.paymentId ∧ Debit mc ledger id payment.amountPi)
    (hprices : ∀ id listing, listings.find? id = some listing → 0 ≤ listing.pricePiPerHour) :
    PaidKept mc (events ++ [event])
      { s with listings, bookings, ledger
               payments := s.payments.upsert payment.paymentId payment } where
  payment id row hrow := by
    rw [Sql.Table.find?_upsert] at hrow
    split at hrow
    · next heq =>
      cases hrow
      rw [heq]
      exact ⟨rfl, hamount, hconfirmed⟩
    · have hkept := h.payment id row hrow
      exact ⟨hkept.named, hkept.amount_nonneg, fun hstatus =>
        grounds_grow (hkept.confirmed hstatus) hgrows event⟩
  booking := hbookings
  debit id entry hentry := by
    rcases hdebits id entry hentry with hold | ⟨rfl, hdebit⟩
    -- an old debit: its payment may be the one that is written, with the amount that it had
    · obtain ⟨old, hfind, hworth⟩ := h.debit id entry hold
      obtain ⟨new, hnew, hnewamount⟩ := amounts_upsert ⟨old, hfind, rfl⟩ hsame
      obtain ⟨found, hfound, hrest⟩ := hworth
      exact ⟨new, hnew, found, hgrows _ _ hfound, hrest.1, by rw [hnewamount]; exact hrest.2⟩
    · exact ⟨payment, Sql.Table.find?_upsert_self _ _ _, hdebit⟩
  settlement id settlement hsettlement := by
    obtain ⟨hparts, hpayment, hground⟩ := h.settlement id settlement hsettlement
    refine ⟨hparts, ?_, grounds_grow hground hgrows event⟩
    rw [Sql.Table.find?_upsert]
    split
    · rfl
    · exact hpayment
  prices := hprices

/-- A call that changes nothing. -/
theorem PaidKept.event {events : List BookingEvent} (h : PaidKept mc events s)
    (event : BookingEvent) : PaidKept mc (events ++ [event]) s where
  payment id payment hpayment := by
    obtain ⟨hnamed, hamount, hconfirmed⟩ := h.payment id payment hpayment
    exact ⟨hnamed, hamount, fun hstatus => grounds_grow (hconfirmed hstatus) (Grows.refl _) event⟩
  booking := h.booking
  debit := h.debit
  settlement id settlement hsettlement := by
    obtain ⟨hparts, hpayment, hground⟩ := h.settlement id settlement hsettlement
    exact ⟨hparts, hpayment, grounds_grow hground (Grows.refl _) event⟩
  prices := h.prices

theorem PaidKept.createBooking {events : List BookingEvent} (h : PaidKept mc events s)
    {request : BookingCreateRequest} (hnew : NoCollision mc s (.createBooking request now))
    (hstep : Market.createBooking mc request now s = .ok s') :
    PaidKept mc (events ++ [.createBooking request now]) s' := by
  obtain ⟨listing, booking, payment, hselect, hbooking, rfl⟩ := createBooking_cases hstep
  obtain ⟨⟨id, hlisting⟩, -, -⟩ := selectListing_eq_ok hselect
  obtain ⟨hid, hamount, hpending, hcomputed⟩ := newBooking_payment hbooking
  have hsame := hnew listing booking payment hselect hbooking
  have hprice := h.prices id listing hlisting
  refine h.putPayment (.createBooking request now) payment (Grows.refl _) hsame ?_ (fun hconfirmed => ?_)
    (bookings_put (fun id row hrow => amounts_upsert (h.booking id row hrow) hsame) ?_)
    (fun id entry hentry => .inl hentry) (fun id' listing' hlisting' => ?_)
  · rw [hcomputed]
    exact computeAmountPi_nonneg hprice ((by decide : (0 : ℤ) ≤ 1).trans request.one_le_units)
      ((by decide : (0 : ℤ) ≤ 1).trans request.one_le_durationMinutes)
  · rw [hpending] at hconfirmed
    cases hconfirmed
  · exact ⟨payment, by rw [hid]; exact Sql.Table.find?_upsert_self _ _ _, hamount.symm⟩
  · rw [Sql.Table.find?_upsert] at hlisting'
    split at hlisting'
    · cases hlisting'
      exact hprice
    · exact h.prices id' listing' hlisting'

/-- A booking that a payment activates keeps its payment and its amount. -/
theorem PaidKept.activated {events : List BookingEvent} (h : PaidKept mc events s)
    {payment : PaymentOrder}
    (hsame : ∀ old, s.payments.find? payment.paymentId = some old →
      old.amountPi = payment.amountPi)
    {id : String} {row : BookingRow} (hrow : s.bookings.find? id = some row)
    {put : Option Booking} (hput : put = none ∨ put = Booking.afterPayment now row.booking) :
    ∀ id row', (putBookings s.bookings put).find? id = some row' → ∃ new,
      (s.payments.upsert payment.paymentId payment).find? row'.booking.paymentId = some new ∧
        new.amountPi = row'.booking.amountPi := by
  have hold : ∀ id row', s.bookings.find? id = some row' → ∃ new,
      (s.payments.upsert payment.paymentId payment).find? row'.booking.paymentId = some new ∧
        new.amountPi = row'.booking.amountPi :=
    fun id row' hrow' => amounts_upsert (h.booking id row' hrow') hsame
  have hput' : put = none ∨ put = some (row.booking.activate now) := by
    rcases hput with hput | hput
    · exact .inl hput
    · rw [hput]
      unfold Booking.afterPayment
      split
      · exact .inr rfl
      · exact .inl rfl
  rcases hput' with rfl | rfl
  · exact hold
  · exact bookings_put hold (hold id row hrow)

theorem PaidKept.submitPayment {events : List BookingEvent} (h : PaidKept mc events s) {id : String}
    {request : PaymentSubmitRequest} (hstep : Market.submitPayment mc id request now s = .ok s') :
    PaidKept mc (events ++ [.submitPayment id request now]) s' := by
  obtain ⟨payment, booking, put, hpayment, hput, rfl, row, hrow, rfl⟩ := submitPayment_cases hstep
  have hkept := h.payment id payment hpayment
  have hfind : s.payments.find? payment.paymentId = some payment := by
    rw [hkept.named]
    exact hpayment
  have hsame : ∀ old, s.payments.find? (payment.submit mc request now).paymentId = some old →
      old.amountPi = (payment.submit mc request now).amountPi := by
    intro old hold
    cases hfind.symm.trans hold
    rfl
  refine h.putPayment (.submitPayment id request now) (payment.submit mc request now)
    (Grows.refl _) hsame hkept.amount_nonneg (fun hconfirmed => .inr ?_)
    (h.activated hsame hrow hput) (fun id entry hentry => .inl hentry) h.prices
  have henough : max 1 mc.confirmationsRequired ≤ request.confirmations := by
    by_contra hless
    unfold PaymentOrder.submit at hconfirmed
    rw [if_neg hless] at hconfirmed
    cases hconfirmed
  refine ⟨request, now, ?_, henough⟩
  rw [show (payment.submit mc request now).paymentId = id from hkept.named]
  exact List.mem_append_right _ (List.mem_singleton_self _)

theorem PaidKept.payPaymentFromBalance {events : List BookingEvent} (h : PaidKept mc events s)
    {id : String} {request : PayFromBalanceRequest}
    (hstep : Market.payPaymentFromBalance mc id request now s = .ok s') :
    PaidKept mc (events ++ [.payPaymentFromBalance id request now]) s' := by
  rcases payPaymentFromBalance_cases hstep with rfl | ⟨payment, token, required, ledger, booking,
    hpayment, hknown, hrequired, hput, rfl, row, hrow, rfl⟩
  · exact h.event (.payPaymentFromBalance id request now)
  · have hkept := h.payment id payment hpayment
    have hfind : s.payments.find? payment.paymentId = some payment := by
      rw [hkept.named]
      exact hpayment
    have hsame : ∀ old, s.payments.find?
        (payment.pay request.accountId token required now).paymentId = some old →
          old.amountPi = (payment.pay request.accountId token required now).amountPi := by
      intro old hold
      cases hfind.symm.trans hold
      rfl
    have hgrows := grows_putLedgerEntry hput
    -- the debit is entered now, or it is there from a call that stopped half-way
    have hdebit : Debit mc ledger payment.paymentId payment.amountPi := by
      rcases putLedgerEntry_eq_ok hput with ⟨hsome, rfl⟩ | ⟨-, rfl⟩
      · obtain ⟨entry, hentry⟩ := Option.isSome_iff_exists.mp hsome
        obtain ⟨old, hold, hworth⟩ := h.debit payment.paymentId entry hentry
        cases hfind.symm.trans hold
        exact hworth
      · exact ⟨_, Sql.Table.find?_upsert_self _ _ _, rfl, token, required, hknown, rfl, rfl,
          hrequired, le_rfl⟩
    refine h.putPayment (.payPaymentFromBalance id request now)
      (payment.pay request.accountId token required now) hgrows hsame hkept.amount_nonneg
      (fun _ => .inl hdebit) (h.activated hsame hrow (.inr rfl)) (fun id' entry hentry => ?_)
      h.prices
    rcases putLedgerEntry_eq_ok hput with ⟨-, hledger⟩ | ⟨-, hledger⟩
    · rw [hledger] at hentry
      exact .inl hentry
    · rw [hledger, Sql.Table.find?_upsert] at hentry
      split at hentry
      · next heq =>
        have hid : id' = payment.paymentId := congrArg Prod.snd heq
        rw [hid]
        exact .inr ⟨rfl, hdebit⟩
      · exact .inl hentry

theorem PaidKept.releaseBooking {events : List BookingEvent} (h : PaidKept mc events s) {id : String}
    (hstep : Market.releaseBooking id now s = .ok s') :
    PaidKept mc (events ++ [.releaseBooking id now]) s' := by
  rcases releaseBooking_cases hstep with rfl | ⟨row, listing, hrow, -, hlisting, rfl⟩
  · exact h.event (.releaseBooking id now)
  · have hkept := h.event (.releaseBooking id now)
    refine ⟨hkept.payment, bookings_put h.booking (h.booking id row hrow), hkept.debit,
      hkept.settlement, fun id' listing' hlisting' => ?_⟩
    · rw [Sql.Table.find?_upsert] at hlisting'
      split at hlisting'
      · cases hlisting'
        exact h.prices _ listing hlisting
      · exact h.prices id' listing' hlisting'

theorem PaidKept.settleBooking {events : List BookingEvent} (h : PaidKept mc events s) {id : String}
    (hstep : Market.settleBooking mc id now s = .ok s') :
    PaidKept mc (events ++ [.settleBooking id now]) s' := by
  have hkept := h.event (.settleBooking id now)
  rcases settleBooking_cases hstep with rfl | ⟨row, payment, settlements, hrow, hpayment,
    hconfirmed, hput, rfl⟩
  · exact hkept
  · obtain ⟨payment', hpayment', hamount⟩ := h.booking id row hrow
    cases hpayment.symm.trans hpayment'
    have hpaid := hkept.payment _ payment hpayment
    refine ⟨hkept.payment, h.booking, hkept.debit, fun id' settlement hfind => ?_, h.prices⟩
    unfold putSettlement at hput
    split at hput
    · cases hput
      exact hkept.settlement id' settlement hfind
    · split at hput
      · cases hput
      · cases hput
        rw [Sql.Table.find?_upsert] at hfind
        split at hfind
        · cases hfind
          refine ⟨newSettlement_parts mc now (hamount ▸ hpaid.amount_nonneg), ?_, ?_⟩
          · exact Option.isSome_iff_exists.mpr ⟨payment, hpayment⟩
          · have hground := hpaid.confirmed hconfirmed
            rw [hamount] at hground
            exact hground
        · exact hkept.settlement id' settlement hfind

/-- Every call keeps what is paid. -/
theorem PaidKept.step {events : List BookingEvent} (h : PaidKept mc events s) {event : BookingEvent}
    (hnew : NoCollision mc s event) : PaidKept mc (events ++ [event]) (bookingStep mc s event) := by
  cases event with
  | createBooking request now =>
    exact attempt_of (h.event _) fun _ hs' => h.createBooking hnew hs'
  | submitPayment paymentId request now =>
    exact attempt_of (h.event _) fun _ hs' => h.submitPayment hs'
  | payPaymentFromBalance paymentId request now =>
    exact attempt_of (h.event _) fun _ hs' => h.payPaymentFromBalance hs'
  | releaseBooking bookingId now => exact attempt_of (h.event _) fun _ hs' => h.releaseBooking hs'
  | settleBooking bookingId now => exact attempt_of (h.event _) fun _ hs' => h.settleBooking hs'

end

/-! ## Every run -/

def localListing : Listing where
  listingId := "l"
  poolId := "pool"
  pairSymbol := "PICOIN/BTC"
  pairedCoin := "BTC"
  providerId := "p"
  providerWallet := "PI"
  hardwareType := .cpu
  unitsTotal := 2
  unitsAvailable := 2
  pricePiPerHour := 10 ^ 8
  minBookingMinutes := 30
  region := none
  capabilities := []
  status := .active
  createdAt := 0
  updatedAt := 0

/-- One listing, and nothing else. -/
def localShop : Marketplace :=
  { Marketplace.empty with listings := Sql.Table.empty.upsert "l" localListing }

theorem localShop_unbooked : Unbooked localShop where
  bookings := rfl
  payments := rfl
  settlements := rfl
  debits _ := rfl
  prices id listing hlisting := by
    have hrow : (Sql.Table.empty.upsert "l" localListing).find? id = some listing := hlisting
    rw [Sql.Table.find?_upsert] at hrow
    split at hrow
    · cases hrow
      decide
    · cases hrow

/-- What ann has been credited. -/
def annCredit : LedgerEntry where
  entryId := "ledger_1"
  accountId := "ann"
  chainCode := "picoin"
  tokenSymbol := "PICOIN"
  direction := .credit
  amountBaseUnits := 10 ^ 12
  entryType := "deposit_confirmed"
  createdAt := 0

def creditedShop : Marketplace :=
  { localShop with ledger := Sql.Table.empty.upsert (depositReference "d") annCredit }

theorem creditedShop_unbooked : Unbooked creditedShop :=
  { localShop_unbooked with
    debits := fun paymentId => by
      have hne : paymentReference paymentId ≠ depositReference "d" := by
        unfold paymentReference depositReference
        simp
      exact Sql.Table.find?_upsert_ne _ _ hne }

/-- A booking whose payer names a transaction that does not exist. -/
def unpaidRun : List BookingEvent :=
  [.createBooking localBooking 1,
    .submitPayment "payment_\x7b\"booking_id\":\"boo" ⟨"0123456789abcdef", 1⟩ 2,
    .settleBooking "booking_\x7b\"account_id\":\"ann" 3]

/-- A booking that is paid from the balance. -/
def paidBookingRun : List BookingEvent :=
  [.createBooking localBooking 1,
    .payPaymentFromBalance "payment_\x7b\"booking_id\":\"boo" ⟨"ann", "picoin", "PICOIN"⟩ 2,
    .settleBooking "booking_\x7b\"account_id\":\"ann" 3]

theorem settlement_unpaidRun :
    (unpaidRun.foldl (bookingStep localMarket) localShop).settlements.rows.length = 1 ∧
      (unpaidRun.foldl (bookingStep localMarket) localShop).ledger.rows.length = 0 ∧
      (unpaidRun.foldl (bookingStep localMarket) localShop).deposits.rows.length = 0 := by
  decide +kernel

end Picoin.Market
