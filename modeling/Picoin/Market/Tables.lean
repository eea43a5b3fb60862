import Mathlib.Algebra.Order.Floor.Ring
import Mathlib.Data.Int.Log
import Mathlib.Data.Rat.Floor
import Picoin.Core.Clock
import Picoin.Core.Text
import Picoin.Lib.Decimal
import Picoin.Lib.Json
import Picoin.Lib.Table

/-!
# The tables of the marketplace

Providers list capacity, and requesters book and pay for it. A row is kept as the payload that its
text holds; the columns of a table repeat fields of it, but for the listing of a booking, which is
written once.

Prices are whole numbers of 10⁻⁸ and amounts whole numbers of 10⁻⁶, as they are rounded. The tables
that the operations here only read (pools, accounts, chains, tokens, wallets) are in the
environment.
-/

namespace Picoin.Market

open Json

inductive HardwareType where
  | cpu
  | gpu
  | asic
deriving DecidableEq, Repr

def HardwareType.value : HardwareType → String
  | .cpu => "cpu"
  | .gpu => "gpu"
  | .asic => "asic"

inductive PoolStatus where
  | active
  | paused
  | retired
deriving DecidableEq, Repr

inductive ListingStatus where
  | active
  | paused
  | retired
deriving DecidableEq, Repr

inductive WorkerStatus where
  | online
  | paused
  | offline
deriving DecidableEq, Repr

inductive BookingStatus where
  | awaitingPayment
  | active
  | released
  | expired
  | canceled
deriving DecidableEq, Repr

inductive PaymentStatus where
  | pending
  | submitted
  | confirmed
  | rejected
deriving DecidableEq, Repr

inductive ChainFamily where
  | evm
  | picoin
deriving DecidableEq, Repr

inductive DepositStatus where
  | detected
  | confirming
  | confirmed
  | credited
  | reorged
deriving DecidableEq, Repr

inductive LedgerDirection where
  | credit
  | debit
deriving DecidableEq, Repr

/-! ## The environment -/

structure MiningPool where
  poolId : String
  hardwareType : HardwareType
  pairedCoin : String
  pairSymbol : String
  status : PoolStatus

structure ChainDefinition where
  chainCode : String
  family : ChainFamily
  confirmationsRequired : ℤ
  one_le_confirmations : 1 ≤ confirmationsRequired
  depositAddress : Option String
  enabled : Bool

structure TokenDefinition where
  chainCode : String
  tokenSymbol : String
  decimals : ℕ
  picoinRate : Option ℚ
  enabled : Bool

structure Wallet where
  walletId : String
  accountId : String
deriving DecidableEq

/-- The settings, and the tables that are only read. `feePercent` is a whole number of 10⁻⁸. -/
structure MarketConfig where
  sha256Text : String → String
  pools : String → Option MiningPool
  accounts : String → Bool
  chains : String → Option ChainDefinition
  tokens : String → String → Option TokenDefinition
  verifiedWallets : String → String → Option Wallet
  escrowAddress : String
  confirmationsRequired : ℤ
  feePercent : ℤ
  feePercent_nonneg : 0 ≤ feePercent
  feePercent_le : feePercent ≤ 100 * 10 ^ 8
  paymentWindowMinutes : ℤ

/-- `hash_json(payload)[:18]`. -/
def MarketConfig.shortHash (mc : MarketConfig) (payload : Value) : String :=
  takeChars 18 (mc.sha256Text (canonicalJson payload))

def normalizeChainCode (value : String) : String := lower (strip value)

def picoinCurrency : String := "PICOIN"

def normalizeCoin (value : String) : String :=
  let coin := upper (strip value)
  if coin = "PICO" then picoinCurrency else coin

def MarketConfig.getPool (mc : MarketConfig) (poolId : String) : Except String MiningPool :=
  (mc.pools poolId).elim (.error s!"pool not found: {poolId}") .ok

def MarketConfig.getAccount (mc : MarketConfig) (accountId : String) : Except String Unit :=
  if mc.accounts accountId then .ok () else .error s!"account not found: {accountId}"

def MarketConfig.getChain (mc : MarketConfig) (chainCode : String) : Except String ChainDefinition :=
  (mc.chains (normalizeChainCode chainCode)).elim (.error s!"chain not found: {chainCode}") .ok

def MarketConfig.getToken (mc : MarketConfig) (chainCode tokenSymbol : String) :
    Except String TokenDefinition :=
  (mc.tokens (normalizeChainCode chainCode) (normalizeCoin tokenSymbol)).elim
    (.error s!"token not found: {chainCode}:{tokenSymbol}") .ok

/-! ## Amounts -/

/-- `compute_amount_pi`: a price of 10⁻⁸ an hour gives an amount of 10⁻⁶. -/
def computeAmountPi (pricePiPerHour units durationMinutes : ℤ) : ℤ :=
  Decimal.roundHalfEven (pricePiPerHour * units * durationMinutes) 6000

/-- A quotient of `decimal`, rounded to 28 significant digits. -/
def toContext (q : ℚ) : ℚ :=
  let unit : ℚ := 10 ^ (Int.log 10 |q| - 27)
  let scaled := q / unit
  Decimal.roundHalfEven scaled.num scaled.den * unit

/-- `amount_pi_to_base_units`. -/
def amountPiToBaseUnits (amountPi : ℤ) (token : TokenDefinition) : Except String ℤ :=
  match token.picoinRate with
  | none => .error "token has no PICOIN rate configured"
  | some rate =>
    if rate ≤ 0 then .error "token has no PICOIN rate configured"
    else .ok ⌈toContext (toContext ((amountPi : ℚ) / 10 ^ 6 / rate) * 10 ^ token.decimals)⌉

/-! ## Rows -/

structure Listing where
  listingId : String
  poolId : String
  pairSymbol : String
  pairedCoin : String
  providerId : String
  providerWallet : String
  hardwareType : HardwareType
  unitsTotal : ℤ
  unitsAvailable : ℤ
  pricePiPerHour : ℤ
  minBookingMinutes : ℤ
  region : Option String
  capabilities : List String
  status : ListingStatus
  createdAt : Instant
  updatedAt : Instant
deriving DecidableEq

structure Worker where
  workerId : String
  listingId : String
  status : WorkerStatus
  lastSeenAt : Option Instant
  createdAt : Instant
  updatedAt : Instant
deriving DecidableEq

structure Booking where
  bookingId : String
  poolId : String
  listingId : String
  pairSymbol : String
  providerId : String
  providerWallet : String
  requesterWallet : String
  hardwareType : HardwareType
  units : ℤ
  durationMinutes : ℤ
  amountPi : ℤ
  status : BookingStatus
  paymentId : String
  startsAt : Option Instant
  expiresAt : Instant
  createdAt : Instant
  updatedAt : Instant
deriving DecidableEq

/-- A row of `bookings`: the column of its listing, and the payload. -/
structure BookingRow where
  listingId : String
  booking : Booking
deriving DecidableEq

structure PaymentOrder where
  paymentId : String
  bookingId : String
  currency : String
  amountPi : ℤ
  amountBaseUnits : ℤ
  paymentChainCode : String
  paymentTokenSymbol : String
  accountId : Option String
  payToAddress : String
  memo : String
  status : PaymentStatus
  txHash : Option String
  confirmations : ℤ
  createdAt : Instant
  updatedAt : Instant
deriving DecidableEq

structure ProviderSettlement where
  settlementId : String
  bookingId : String
  paymentId : String
  providerId : String
  providerWallet : String
  grossAmountBaseUnits : ℤ
  feeAmountBaseUnits : ℤ
  providerAmountBaseUnits : ℤ
  createdAt : Instant
deriving DecidableEq

structure Deposit where
  depositId : String
  accountId : String
  walletId : String
  chainCode : String
  tokenSymbol : String
  fromAddress : String
  toAddress : String
  amountBaseUnits : ℤ
  txHash : String
  blockNumber : ℤ
  blockHash : Option String
  logIndex : ℤ
  confirmations : ℤ
  status : DepositStatus
  confirmedAt : Option Instant
  creditedAt : Option Instant
  createdAt : Instant
  updatedAt : Instant
deriving DecidableEq

structure LedgerEntry where
  entryId : String
  accountId : String
  chainCode : String
  tokenSymbol : String
  direction : LedgerDirection
  amountBaseUnits : ℤ
  entryType : String
  createdAt : Instant
deriving DecidableEq

abbrev Listings := Sql.Table String Listing
abbrev Workers := Sql.Table String Worker
abbrev Bookings := Sql.Table String BookingRow
abbrev Payments := Sql.Table String PaymentOrder

/-- The table `provider_settlements`, under the booking. -/
abbrev Settlements := Sql.Table String ProviderSettlement

/-- The table `deposits`, under the id. -/
abbrev Deposits := Sql.Table String Deposit

/-- The table `ledger_entries`, under the type and the id of the reference. -/
abbrev Ledger := Sql.Table (String × String) LedgerEntry

structure Marketplace where
  listings : Listings
  workers : Workers
  bookings : Bookings
  payments : Payments
  settlements : Settlements
  deposits : Deposits
  ledger : Ledger

def Marketplace.empty : Marketplace := ⟨.empty, .empty, .empty, .empty, .empty, .empty, .empty⟩

def getListing (listings : Listings) (id : String) : Except String Listing :=
  (listings.find? id).elim (.error s!"listing not found: {id}") .ok

def getWorker (workers : Workers) (id : String) : Except String Worker :=
  (workers.find? id).elim (.error s!"worker not found: {id}") .ok

def getBooking (bookings : Bookings) (id : String) : Except String Booking :=
  (bookings.find? id).elim (.error s!"booking not found: {id}") fun row => .ok row.booking

def getPayment (payments : Payments) (id : String) : Except String PaymentOrder :=
  (payments.find? id).elim (.error s!"payment not found: {id}") .ok

/-- `put_booking`; the column of the listing stays as it was written first. -/
def putBooking (bookings : Bookings) (booking : Booking) : Bookings :=
  bookings.upsert booking.bookingId
    ⟨((bookings.find? booking.bookingId).map BookingRow.listingId).getD booking.listingId, booking⟩

/-! ## Reserved units -/

/-- The booking waits for its payment or is active. -/
def BookingStatus.reserves (status : BookingStatus) : Bool :=
  status = .awaitingPayment || status = .active

/-- The units that a row reserves of a listing. -/
def BookingRow.reserved (listingId : String) (row : BookingRow) : ℤ :=
  if row.listingId = listingId ∧ row.booking.status.reserves = true then row.booking.units else 0

/-- `reserved_units_for_listing`. -/
def reservedUnitsForListing (bookings : Bookings) (listingId : String) : ℤ :=
  bookings.sum (BookingRow.reserved listingId)

/-- What a put of a booking adds to the reserved units. -/
theorem reservedUnits_putBooking (bookings : Bookings) (booking : Booking) (listingId : String) :
    reservedUnitsForListing (putBooking bookings booking) listingId =
      reservedUnitsForListing bookings listingId +
        BookingRow.reserved listingId
          ⟨((bookings.find? booking.bookingId).map BookingRow.listingId).getD booking.listingId,
            booking⟩ -
        ((bookings.find? booking.bookingId).map (BookingRow.reserved listingId)).getD 0 :=
  Sql.Table.sum_upsert ..

end Picoin.Market
