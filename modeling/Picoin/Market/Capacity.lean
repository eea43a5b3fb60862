import Mathlib.Data.List.Sort
import Picoin.Lib.Run
import Picoin.Market.Tables

/-!
# Capacity of the marketplace

The free units of a listing are a counter on its row. Five operations read the row, change the
counter each in its own way, and write the row back whole.

* **`Listing.heartbeat`**, **`Listing.expire`**, **`Listing.book`**, **`Listing.release`** — what the
  operations make of a row;
* **`createListing`**, **`registerWorker`**, **`heartbeatWorker`**, **`expireStaleWorkers`**,
  **`createBooking`**, **`releaseBooking`** — the operations, one at a time;
* **`capacityStep`** — a marketplace that takes them one after another.
-/

namespace Picoin.Market

open Json

/-! ## Requests -/

structure ListingCreateRequest where
  providerId : String
  providerWallet : String
  poolId : String
  hardwareType : HardwareType
  title : String
  unitsTotal : ℤ
  one_le_unitsTotal : 1 ≤ unitsTotal
  pricePiPerHour : ℤ
  minBookingMinutes : ℤ
  region : Option String
  capabilities : List String

structure WorkerRegisterRequest where
  workerId : Option String
  providerId : String
  providerWallet : String
  poolId : String
  hardwareType : HardwareType
  unitsTotal : ℤ
  one_le_unitsTotal : 1 ≤ unitsTotal
  pricePiPerHour : ℤ
  minBookingMinutes : ℤ
  region : Option String
  capabilities : List String

structure WorkerHeartbeatRequest where
  status : WorkerStatus
  unitsTotal : Option ℤ
  one_le_unitsTotal : ∀ units ∈ unitsTotal, 1 ≤ units
  unitsAvailable : Option ℤ
  unitsAvailable_nonneg : ∀ units ∈ unitsAvailable, 0 ≤ units

structure BookingCreateRequest where
  accountId : Option String
  requesterWallet : String
  paymentChainCode : String
  paymentTokenSymbol : String
  hardwareType : Option HardwareType
  poolId : Option String
  pairedCoin : Option String
  units : ℤ
  one_le_units : 1 ≤ units
  durationMinutes : ℤ
  one_le_durationMinutes : 1 ≤ durationMinutes
  requiredCapabilities : List String
  preferredRegion : Option String
  providerId : Option String
  listingId : Option String

/-! ## Listings -/

/-- The distinct capabilities, sorted. -/
def normalizeCapabilities (values : List String) : List String :=
  (((values.filter fun value => strip value ≠ "").map fun value => lower (strip value)).dedup)
    |>.insertionSort (· ≤ ·)

/-- The checks of a pool for a new listing or worker. -/
def checkPool (pool : MiningPool) (hardwareType : HardwareType) (subject : String) :
    Except String Unit :=
  if pool.status ≠ .active then .error "pool is not active"
  else if pool.hardwareType ≠ hardwareType then
    .error s!"{subject} hardware_type must match pool hardware_type"
  else .ok ()

/-- The listing that `create_listing` puts. -/
def newListing (mc : MarketConfig) (request : ListingCreateRequest) (now : Instant) :
    Except String Listing := do
  let providerWallet := upper (strip request.providerWallet)
  let pool ← mc.getPool request.poolId
  checkPool pool request.hardwareType "listing"
  return {
    listingId := "listing_" ++ mc.shortHash (.obj
      [("pool_id", .str pool.poolId), ("provider_id", .str request.providerId),
        ("provider_wallet", .str providerWallet),
        ("hardware_type", .str request.hardwareType.value), ("title", .str request.title),
        ("created_at", .str (isoformat now))])
    poolId := pool.poolId
    pairSymbol := pool.pairSymbol
    pairedCoin := pool.pairedCoin
    providerId := strip request.providerId
    providerWallet
    hardwareType := request.hardwareType
    unitsTotal := request.unitsTotal
    unitsAvailable := request.unitsTotal
    pricePiPerHour := request.pricePiPerHour
    minBookingMinutes := request.minBookingMinutes
    region := request.region
    capabilities := normalizeCapabilities request.capabilities
    status := .active
    createdAt := now
    updatedAt := now }

/-- The characters of a worker id. -/
def isWorkerIdChar (c : Char) : Bool :=
  ('a' ≤ c && c ≤ 'z') || ('A' ≤ c && c ≤ 'Z') || ('0' ≤ c && c ≤ '9') || c ∈ ['_', '.', ':', '-']

def normalizeWorkerId (value : String) : Except String String :=
  let workerId := strip value
  if workerId = "" then .error "worker_id is required"
  else if 3 ≤ workerId.toList.length ∧ workerId.toList.length ≤ 80 ∧
      workerId.toList.all isWorkerIdChar = true then .ok workerId
  else .error "worker_id may contain letters, numbers, '.', '_', ':', or '-'"

/-- The worker id of a registration, and the pool and the listing that it is for. -/
def registration (mc : MarketConfig) (request : WorkerRegisterRequest) :
    Except String (String × MiningPool × String) := do
  let pool ← mc.getPool request.poolId
  checkPool pool request.hardwareType "worker"
  let derived := "worker_" ++ mc.shortHash (.obj
    [("provider_id", .str (strip request.providerId)),
      ("provider_wallet", .str (upper (strip request.providerWallet))),
      ("pool_id", .str pool.poolId), ("hardware_type", .str request.hardwareType.value)])
  let workerId ← normalizeWorkerId (textOr request.workerId derived)
  return (workerId, pool, "listing_" ++ mc.shortHash (.obj
    [("worker_id", .str workerId), ("pool_id", .str pool.poolId)]))

/-- The listing that `register_worker` puts. -/
def registeredListing (request : WorkerRegisterRequest) (pool : MiningPool) (listingId : String)
    (reservedUnits : ℤ) (createdAt now : Instant) : Listing where
  listingId
  poolId := pool.poolId
  pairSymbol := pool.pairSymbol
  pairedCoin := pool.pairedCoin
  providerId := strip request.providerId
  providerWallet := upper (strip request.providerWallet)
  hardwareType := request.hardwareType
  unitsTotal := request.unitsTotal
  unitsAvailable := max 0 (request.unitsTotal - reservedUnits)
  pricePiPerHour := request.pricePiPerHour
  minBookingMinutes := request.minBookingMinutes
  region := request.region
  capabilities := normalizeCapabilities request.capabilities
  status := .active
  createdAt
  updatedAt := now

/-- The total that a heartbeat leaves. -/
def WorkerHeartbeatRequest.total (request : WorkerHeartbeatRequest) (listing : Listing) : ℤ :=
  request.unitsTotal.getD listing.unitsTotal

/-- The listing after a heartbeat. -/
def Listing.heartbeat (request : WorkerHeartbeatRequest) (reservedUnits : ℤ) (now : Instant)
    (listing : Listing) : Listing :=
  let unitsTotal := request.total listing
  if request.status = .online then
    { listing with
      unitsTotal
      unitsAvailable :=
        max 0 (min (request.unitsAvailable.getD listing.unitsAvailable) (unitsTotal - reservedUnits))
      status := .active
      updatedAt := now }
  else
    { listing with
      unitsTotal
      unitsAvailable := 0
      status := .paused
      updatedAt := now }

/-- The listing of a worker that is not heard of any more. -/
def Listing.expire (now : Instant) (listing : Listing) : Listing :=
  { listing with
    unitsAvailable := 0
    status := .paused
    updatedAt := now }

def Listing.book (units : ℤ) (now : Instant) (listing : Listing) : Listing :=
  { listing with
    unitsAvailable := listing.unitsAvailable - units
    updatedAt := now }

def Listing.release (units : ℤ) (now : Instant) (listing : Listing) : Listing :=
  { listing with
    unitsAvailable := min listing.unitsTotal (listing.unitsAvailable + units)
    updatedAt := now }

/-! ## Bookings -/

/-- The candidates of a booking, in the order in which one is taken. -/
def listingBefore (a b : Listing) : Prop :=
  a.pricePiPerHour < b.pricePiPerHour ∨ (a.pricePiPerHour = b.pricePiPerHour ∧
    (a.createdAt < b.createdAt ∨ (a.createdAt = b.createdAt ∧ a.listingId ≤ b.listingId)))

instance : DecidableRel listingBefore := fun a b => by
  unfold listingBefore; infer_instance

/-- A text that is present and not empty. -/
def present (text : Option String) : Bool := text.any (· ≠ "")

/-- `list_listings` of the active listings, with its limit. -/
def listActive (listings : Listings) (p : Listing → Bool) : List Listing :=
  (((listings.rows.map Prod.snd).filter fun listing => p listing && listing.status = .active)
    |>.insertionSort fun a b => b.updatedAt ≤ a.updatedAt).take 1000

/-- The filters of `select_listing`. -/
def Listing.matches (request : BookingCreateRequest) (listing : Listing) : Bool :=
  listing.status = .active &&
    request.hardwareType.all (listing.hardwareType = ·) &&
    (!present request.poolId || some listing.poolId = request.poolId) &&
    (normalizeCoin (textOr request.pairedCoin "") = "" ||
      normalizeCoin (textOr request.pairedCoin "") = listing.pairedCoin) &&
    (!present request.providerId || some listing.providerId = request.providerId) &&
    (!present request.preferredRegion || listing.region = request.preferredRegion) &&
    request.units ≤ listing.unitsAvailable &&
    (normalizeCapabilities request.requiredCapabilities).all fun capability =>
      capability ∈ normalizeCapabilities listing.capabilities

/-- The listings that `select_listing` looks at. -/
def candidateListings (listings : Listings) (request : BookingCreateRequest) :
    Except String (List Listing) :=
  if present request.listingId then
    (getListing listings (textOr request.listingId "")).map ([·])
  else if present request.poolId then
    .ok (listActive listings fun listing => some listing.poolId = request.poolId)
  else match request.hardwareType with
    | none => .error "hardware_type is required when listing_id or pool_id is not provided"
    | some hardwareType =>
      .ok (listActive listings fun listing => listing.hardwareType = hardwareType)

def selectListing (listings : Listings) (request : BookingCreateRequest) :
    Except String Listing := do
  let candidates ← candidateListings listings request
  match ((candidates.filter fun listing => listing.matches request).insertionSort
      listingBefore).head? with
  | none => .error "no matching capacity listing available"
  | some listing => return listing

/-- The checks of the listing that a booking is for. -/
def checkListing (request : BookingCreateRequest) (listing : Listing) : Except String Unit :=
  if request.durationMinutes < listing.minBookingMinutes then
    let minimum := listing.minBookingMinutes
    .error s!"duration_minutes below listing minimum {minimum}"
  else if listing.unitsAvailable < request.units then
    .error "not enough available units on selected listing"
  else .ok ()

/-- A token that bookings are paid with has a rate. -/
def checkRate (token : TokenDefinition) (reason : String) : Except String Unit :=
  if token.picoinRate = none then .error reason else .ok ()

/-- The booking and the payment that `create_booking` puts. -/
def newBooking (mc : MarketConfig) (request : BookingCreateRequest) (listing : Listing)
    (now : Instant) : Except String (Booking × PaymentOrder) := do
  checkListing request listing
  let amountPi := computeAmountPi listing.pricePiPerHour request.units request.durationMinutes
  let chain ← mc.getChain request.paymentChainCode
  let token ← mc.getToken chain.chainCode request.paymentTokenSymbol
  checkRate token "payment token has no PICOIN rate configured"
  let requesterWallet := upper (strip request.requesterWallet)
  let bookingId := "booking_" ++ mc.shortHash (.obj
    [("account_id", Value.optStr request.accountId), ("pool_id", .str listing.poolId),
      ("listing_id", .str listing.listingId), ("requester_wallet", .str requesterWallet),
      ("units", .int request.units), ("duration_minutes", .int request.durationMinutes),
      ("created_at", .str (isoformat now))])
  let paymentId := "payment_" ++ mc.shortHash (.obj
    [("booking_id", .str bookingId), ("chain_code", .str chain.chainCode),
      ("token_symbol", .str token.tokenSymbol)])
  let amountBaseUnits ← amountPiToBaseUnits amountPi token
  return (
    { bookingId
      poolId := listing.poolId
      listingId := listing.listingId
      pairSymbol := listing.pairSymbol
      providerId := listing.providerId
      providerWallet := listing.providerWallet
      requesterWallet
      hardwareType := listing.hardwareType
      units := request.units
      durationMinutes := request.durationMinutes
      amountPi
      status := .awaitingPayment
      paymentId
      startsAt := none
      expiresAt := now + seconds (60 * mc.paymentWindowMinutes)
      createdAt := now
      updatedAt := now },
    { paymentId
      bookingId
      currency := token.tokenSymbol
      amountPi
      amountBaseUnits
      paymentChainCode := chain.chainCode
      paymentTokenSymbol := token.tokenSymbol
      accountId := request.accountId
      payToAddress := textOr chain.depositAddress mc.escrowAddress
      memo := bookingId
      status := .pending
      txHash := none
      confirmations := 0
      createdAt := now
      updatedAt := now })

/-- The account that a booking is for. -/
def checkAccount (mc : MarketConfig) (accountId : Option String) : Except String Unit :=
  if present accountId then mc.getAccount (textOr accountId "")
  else .error "registered account_id is required to reserve mining capacity"

/-- The booking has ended: a release leaves it. -/
def BookingStatus.ended (status : BookingStatus) : Bool :=
  status = .released || status = .canceled || status = .expired

def Booking.release (now : Instant) (booking : Booking) : Booking :=
  { booking with
    status := .released
    updatedAt := now }

/-- The booking after its payment is confirmed. -/
def Booking.activate (now : Instant) (booking : Booking) : Booking :=
  { booking with
    status := .active
    startsAt := some now
    expiresAt := now + seconds (60 * booking.durationMinutes)
    updatedAt := now }

/-! ## The operations, one at a time -/

def createListing (mc : MarketConfig) (request : ListingCreateRequest) (now : Instant)
    (s : Marketplace) : Except String Marketplace := do
  let listing ← newListing mc request now
  return { s with listings := s.listings.upsert listing.listingId listing }

def registerWorker (mc : MarketConfig) (request : WorkerRegisterRequest) (now : Instant)
    (s : Marketplace) : Except String Marketplace := do
  let (workerId, pool, listingId) ← registration mc request
  let listing := registeredListing request pool listingId
    (reservedUnitsForListing s.bookings listingId)
    ((s.listings.find? listingId).elim now Listing.createdAt) now
  let worker : Worker :=
    { workerId
      listingId
      status := .online
      lastSeenAt := some now
      createdAt := (s.workers.find? workerId).elim now Worker.createdAt
      updatedAt := now }
  return { s with
    listings := s.listings.upsert listingId listing
    workers := s.workers.upsert workerId worker }

def heartbeatWorker (workerId : String) (request : WorkerHeartbeatRequest) (now : Instant)
    (s : Marketplace) : Except String Marketplace := do
  let worker ← getWorker s.workers workerId
  let listing ← getListing s.listings worker.listingId
  let reservedUnits := reservedUnitsForListing s.bookings listing.listingId
  let worker := { worker with
    status := request.status
    lastSeenAt := some now
    updatedAt := now }
  return { s with
    listings := s.listings.upsert listing.listingId (listing.heartbeat request reservedUnits now)
    workers := s.workers.upsert worker.workerId worker }

/-- The workers of `expire_stale_workers`, the last updated first. -/
def onlineWorkers (workers : Workers) (limit : ℤ) : List Worker :=
  ((workers.rows.map Prod.snd).filter fun worker => worker.status = .online)
    |>.insertionSort (fun a b => b.updatedAt ≤ a.updatedAt)
    |>.take (max 1 (min limit 1000)).toNat

/-- The worker was last seen too long ago. -/
def Worker.stale (staleAfterSeconds : ℤ) (now : Instant) (worker : Worker) : Bool :=
  seconds (max 0 staleAfterSeconds) < now - worker.lastSeenAt.getD worker.updatedAt

/-- One worker of `expire_stale_workers`. What it raises ends the call; what was written stays. -/
def expireWorker (now : Instant) (s : Marketplace) (worker : Worker) : Except Marketplace Marketplace :=
  match s.listings.find? worker.listingId with
  | none => .error s
  | some listing =>
    .ok { s with
      listings := s.listings.upsert listing.listingId (listing.expire now)
      workers := s.workers.upsert worker.workerId
        { worker with status := .offline, updatedAt := now } }

def expireStaleWorkers (staleAfterSeconds limit : ℤ) (now : Instant) (s : Marketplace) : Marketplace :=
  match ((onlineWorkers s.workers limit).filter (Worker.stale staleAfterSeconds now)).foldlM
      (expireWorker now) s with
  | .ok s' => s'
  | .error s' => s'

def createBooking (mc : MarketConfig) (request : BookingCreateRequest) (now : Instant)
    (s : Marketplace) : Except String Marketplace := do
  checkAccount mc request.accountId
  let listing ← selectListing s.listings request
  let (booking, payment) ← newBooking mc request listing now
  return { s with
    listings := s.listings.upsert listing.listingId (listing.book request.units now)
    bookings := putBooking s.bookings booking
    payments := s.payments.upsert payment.paymentId payment }

def releaseBooking (bookingId : String) (now : Instant) (s : Marketplace) : Except String Marketplace := do
  let booking ← getBooking s.bookings bookingId
  if booking.status.ended then return s
  let listing ← getListing s.listings booking.listingId
  return { s with
    listings := s.listings.upsert listing.listingId (listing.release booking.units now)
    bookings := putBooking s.bookings (booking.release now) }

/-! ## One step -/

inductive CapacityEvent where
  | createListing (request : ListingCreateRequest) (now : Instant)
  | registerWorker (request : WorkerRegisterRequest) (now : Instant)
  | heartbeatWorker (workerId : String) (request : WorkerHeartbeatRequest) (now : Instant)
  | expireStaleWorkers (staleAfterSeconds limit : ℤ) (now : Instant)
  | createBooking (request : BookingCreateRequest) (now : Instant)
  | releaseBooking (bookingId : String) (now : Instant)

/-- One call; what it raises leaves the marketplace as it is. -/
def capacityStep (mc : MarketConfig) (s : Marketplace) : CapacityEvent → Marketplace
  | .createListing request now => Run.attempt (createListing mc request now s) s
  | .registerWorker request now => Run.attempt (registerWorker mc request now s) s
  | .heartbeatWorker workerId request now => Run.attempt (heartbeatWorker workerId request now s) s
  | .expireStaleWorkers staleAfterSeconds limit now =>
    expireStaleWorkers staleAfterSeconds limit now s
  | .createBooking request now => Run.attempt (createBooking mc request now s) s
  | .releaseBooking bookingId now => Run.attempt (releaseBooking bookingId now s) s

end Picoin.Market
