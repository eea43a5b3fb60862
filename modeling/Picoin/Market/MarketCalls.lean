import Picoin.Market.BalanceCalls

/-!
# Concurrent marketplace calls

Each storage call of an operation is a transaction of its own, and the transactions of different calls
come in any order. What is only read (pools, accounts, chains, tokens) is read with the transaction
before it.

* **`workerStep`** — `register_worker`, `heartbeat_worker` and `expire_stale_workers`, one transaction
  at a time;
* **`bookStep`**, **`releaseStep`**, **`submitStep`** — `create_booking`, `release_booking` and
  `submit_payment`;
* **`marketStep`** — one transaction of some call, or the start of a call.
-/

namespace Picoin.Market

open Run

/-- What a call about a worker has left to do. The put of the listing is with the reserved units that
its counter was computed from, where it was. -/
inductive WorkerStage where
  | registerListing (request : WorkerRegisterRequest) (workerId : String) (pool : MiningPool)
      (listingId : String) (now : Instant)
  | registerWorker (request : WorkerRegisterRequest) (workerId : String) (pool : MiningPool)
      (listingId : String) (listingCreatedAt now : Instant)
  | registerReserved (request : WorkerRegisterRequest) (workerId : String) (pool : MiningPool)
      (listingId : String) (listingCreatedAt workerCreatedAt now : Instant)
  | heartbeatWorker (workerId : String) (request : WorkerHeartbeatRequest)
  | heartbeatListing (worker : Worker) (request : WorkerHeartbeatRequest)
  | heartbeatReserved (worker : Worker) (listing : Listing) (request : WorkerHeartbeatRequest)
      (now : Instant)
  | expireWorkers (staleAfterSeconds limit : ℤ)
  | expireListing (worker : Worker) (rest : List Worker) (now : Instant)
  | putListing (listing : Listing) (reservedUnits : Option ℤ) (worker : Worker) (rest : List Worker)
      (now : Instant)
  | putWorker (worker : Worker) (rest : List Worker) (now : Instant)

/-- The next stale worker. -/
def WorkerStage.expireNext (now : Instant) : List Worker → Option WorkerStage
  | [] => none
  | worker :: rest => some (.expireListing worker rest now)

/-- One transaction of a call about a worker. -/
def workerStep (now : Instant) (s : Marketplace) :
    WorkerStage → Except String (Marketplace × Option WorkerStage)
  | .registerListing request workerId pool listingId time =>
    .ok (s, some (.registerWorker request workerId pool listingId
      ((s.listings.find? listingId).elim time Listing.createdAt) time))
  | .registerWorker request workerId pool listingId listingCreatedAt time =>
    .ok (s, some (.registerReserved request workerId pool listingId listingCreatedAt
      ((s.workers.find? workerId).elim time Worker.createdAt) time))
  | .registerReserved request workerId pool listingId listingCreatedAt workerCreatedAt time =>
    let reservedUnits := reservedUnitsForListing s.bookings listingId
    .ok (s, some (.putListing
      (registeredListing request pool listingId reservedUnits listingCreatedAt time)
      (some reservedUnits)
      { workerId
        listingId
        status := .online
        lastSeenAt := some time
        createdAt := workerCreatedAt
        updatedAt := time } [] time))
  | .heartbeatWorker workerId request => do
    let worker ← getWorker s.workers workerId
    return (s, some (.heartbeatListing worker request))
  | .heartbeatListing worker request => do
    let listing ← getListing s.listings worker.listingId
    let worker := { worker with
      status := request.status
      lastSeenAt := some now
      updatedAt := now }
    return (s, some (.heartbeatReserved worker listing request now))
  | .heartbeatReserved worker listing request time =>
    let reservedUnits := reservedUnitsForListing s.bookings listing.listingId
    .ok (s, some (.putListing (listing.heartbeat request reservedUnits time) (some reservedUnits)
      worker [] time))
  | .expireWorkers staleAfterSeconds limit =>
    .ok (s, WorkerStage.expireNext now
      ((onlineWorkers s.workers limit).filter (Worker.stale staleAfterSeconds now)))
  | .expireListing worker rest time => do
    let listing ← getListing s.listings worker.listingId
    return (s, some (.putListing (listing.expire time) none
      { worker with status := .offline, updatedAt := time } rest time))
  | .putListing listing _ worker rest time =>
    .ok ({ s with listings := s.listings.upsert listing.listingId listing },
      some (.putWorker worker rest time))
  | .putWorker worker rest time =>
    .ok ({ s with workers := s.workers.upsert worker.workerId worker },
      WorkerStage.expireNext time rest)

inductive BookStage where
  | select (request : BookingCreateRequest)
  | putListing (listing : Listing) (booking : Booking) (payment : PaymentOrder)
  | putBooking (booking : Booking) (payment : PaymentOrder)
  | putPayment (booking : Booking) (payment : PaymentOrder)

/-- One transaction of `create_booking`. -/
def bookStep (mc : MarketConfig) (now : Instant) (s : Marketplace) :
    BookStage → Except String (Marketplace × Option BookStage)
  | .select request => do
    checkAccount mc request.accountId
    let listing ← selectListing s.listings request
    let (booking, payment) ← newBooking mc request listing now
    return (s, some (.putListing listing booking payment))
  | .putListing listing booking payment =>
    let booked := listing.book booking.units booking.createdAt
    .ok ({ s with listings := s.listings.upsert listing.listingId booked },
      some (.putBooking booking payment))
  | .putBooking booking payment =>
    .ok ({ s with bookings := putBooking s.bookings booking }, some (.putPayment booking payment))
  | .putPayment _ payment =>
    .ok ({ s with payments := s.payments.upsert payment.paymentId payment }, none)

inductive ReleaseStage where
  | readBooking (bookingId : String)
  | readListing (booking : Booking)
  | putListing (listing : Listing) (booking : Booking) (now : Instant)
  | putBooking (booking : Booking)

/-- One transaction of `release_booking`. -/
def releaseStep (now : Instant) (s : Marketplace) :
    ReleaseStage → Except String (Marketplace × Option ReleaseStage)
  | .readBooking bookingId => do
    let booking ← getBooking s.bookings bookingId
    return (s, if booking.status.ended then none else some (.readListing booking))
  | .readListing booking => do
    let listing ← getListing s.listings booking.listingId
    return (s, some (.putListing listing booking now))
  | .putListing listing booking time =>
    let released := listing.release booking.units time
    .ok ({ s with listings := s.listings.upsert listing.listingId released },
      some (.putBooking (booking.release time)))
  | .putBooking booking => .ok ({ s with bookings := putBooking s.bookings booking }, none)

inductive SubmitStage where
  | readPayment (paymentId : String) (request : PaymentSubmitRequest)
  | readBooking (payment : PaymentOrder) (request : PaymentSubmitRequest)
  | putBooking (booking : Booking) (payment : PaymentOrder)
  | putPayment (payment : PaymentOrder)

/-- The put of the booking comes first, where there is one. -/
def SubmitStage.afterSubmit (payment : PaymentOrder) : Option Booking → SubmitStage
  | none => .putPayment payment
  | some booking => .putBooking booking payment

/-- One transaction of `submit_payment`. -/
def submitStep (mc : MarketConfig) (now : Instant) (s : Marketplace) :
    SubmitStage → Except String (Marketplace × Option SubmitStage)
  | .readPayment paymentId request => do
    let payment ← getPayment s.payments paymentId
    return (s, some (.readBooking payment request))
  | .readBooking payment request => do
    let booking ← getBooking s.bookings payment.bookingId
    let payment := payment.submit mc request now
    return (s, some (SubmitStage.afterSubmit payment
      (if payment.status = .confirmed then booking.afterPayment now else none)))
  | .putBooking booking payment =>
    .ok ({ s with bookings := putBooking s.bookings booking }, some (.putPayment payment))
  | .putPayment payment =>
    .ok ({ s with payments := s.payments.upsert payment.paymentId payment }, none)

inductive MarketCall where
  | worker (stage : WorkerStage)
  | book (stage : BookStage)
  | release (stage : ReleaseStage)
  | submit (stage : SubmitStage)
  | pay (stage : PayStage)
  | ended

/-- What a call has left after a transaction; what it raises ends the call. -/
def resume {σ : Type} (s : Marketplace) (call : σ → MarketCall) :
    Except String (Marketplace × Option σ) → Marketplace × MarketCall
  | .error _ => (s, .ended)
  | .ok (s', stage) => (s', stage.elim .ended call)

/-- The next transaction of a call. -/
def MarketCall.next (mc : MarketConfig) (now : Instant) (s : Marketplace) :
    MarketCall → Marketplace × MarketCall
  | .worker stage => resume s .worker (workerStep now s stage)
  | .book stage => resume s .book (bookStep mc now s stage)
  | .release stage => resume s .release (releaseStep now s stage)
  | .submit stage => resume s .submit (submitStep mc now s stage)
  | .pay stage => resume s .pay (payStep mc now s stage)
  | .ended => (s, .ended)

/-- The marketplace, and the calls under way or ended. -/
structure MarketState where
  market : Marketplace
  calls : Sql.Table ℕ MarketCall

def MarketState.start : MarketState := ⟨.empty, .empty⟩

inductive MarketEvent where
  | createListing (request : ListingCreateRequest) (now : Instant)
  | registerWorker (call : ℕ) (request : WorkerRegisterRequest) (now : Instant)
  | heartbeatWorker (call : ℕ) (workerId : String) (request : WorkerHeartbeatRequest)
  | expireStaleWorkers (call : ℕ) (staleAfterSeconds limit : ℤ)
  | createBooking (call : ℕ) (request : BookingCreateRequest)
  | submitPayment (call : ℕ) (paymentId : String) (request : PaymentSubmitRequest)
  | payPaymentFromBalance (call : ℕ) (paymentId : String) (request : PayFromBalanceRequest)
  | releaseBooking (call : ℕ) (bookingId : String)
  | next (call : ℕ) (now : Instant)

/-- A call starts. -/
def MarketState.begin (s : MarketState) (call : ℕ) (left : MarketCall) : MarketState :=
  { s with calls := s.calls.insertNew call left }

def marketStep (mc : MarketConfig) (s : MarketState) : MarketEvent → MarketState
  | .createListing request now =>
    { s with market := attempt (createListing mc request now s.market) s.market }
  | .registerWorker call request now => match registration mc request with
    | .error _ => s
    | .ok (workerId, pool, listingId) =>
      s.begin call (.worker (.registerListing request workerId pool listingId now))
  | .heartbeatWorker call workerId request =>
    s.begin call (.worker (.heartbeatWorker workerId request))
  | .expireStaleWorkers call staleAfterSeconds limit =>
    s.begin call (.worker (.expireWorkers staleAfterSeconds limit))
  | .createBooking call request => s.begin call (.book (.select request))
  | .submitPayment call paymentId request => s.begin call (.submit (.readPayment paymentId request))
  | .payPaymentFromBalance call paymentId request =>
    s.begin call (.pay (.readPayment paymentId request))
  | .releaseBooking call bookingId => s.begin call (.release (.readBooking bookingId))
  | .next call now => match s.calls.find? call with
    | none => s
    | some left =>
      let (market, left') := left.next mc now s.market
      ⟨market, s.calls.upsert call left'⟩

end Picoin.Market
