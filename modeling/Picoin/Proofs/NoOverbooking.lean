import Picoin.Market.MarketCalls
import Picoin.Proofs.PaidSettlements

/-!
# No overbooking

The counter of free units of a listing is written by calls that read it before. With `r` units
reserved, `p` units booked by calls that have not put their booking yet, and `g` units given back by
releases that have not put theirs, the counter `a` of a listing of `t` units stays at zero or has
`a + r + p ≤ t + g`.

* **`InTurn`** — the condition of a transaction: what it writes was computed from what still stands;
* **`MarketKept`** — the invariant;
* **`not_overbooked_of_run`** — in runs of such transactions a booking that is returned leaves no more
  reserved than there is;
* **`units_booked_twice`** — two bookings that read the listing before either of them writes it.
-/

namespace Picoin.Market

open Outcome Run

/-! ## Units on their way -/

/-- The units that the call has taken off the counter and not put into a booking. -/
def MarketCall.pending (listingId : String) : MarketCall → ℤ
  | .book (.putBooking booking _) => if booking.listingId = listingId then booking.units else 0
  | _ => 0

/-- The units that the call has added to the counter and not taken from a booking. -/
def MarketCall.releasing (listingId : String) : MarketCall → ℤ
  | .release (.putBooking booking) => if booking.listingId = listingId then booking.units else 0
  | _ => 0

/-- The listing from which the call has taken units. -/
def MarketCall.booked : MarketCall → Option String
  | .book (.putBooking booking _) => some booking.listingId
  | .book (.putPayment booking _) => some booking.listingId
  | _ => none

/-- The booking that the call returns with its next transaction. -/
def MarketCall.returning : MarketCall → Option Booking
  | .book (.putPayment booking _) => some booking
  | _ => none

/-- The booking whose units the call has given back. -/
def MarketCall.released : MarketCall → Option String
  | .release (.putBooking booking) => some booking.bookingId
  | _ => none

def MarketState.reserved (s : MarketState) (listingId : String) : ℤ :=
  reservedUnitsForListing s.market.bookings listingId

def MarketState.pending (s : MarketState) (listingId : String) : ℤ :=
  s.calls.sum (MarketCall.pending listingId)

def MarketState.releasing (s : MarketState) (listingId : String) : ℤ :=
  s.calls.sum (MarketCall.releasing listingId)

/-- A call of `create_booking` has taken units of the listing and has not returned. -/
def MarketState.Booking (s : MarketState) (listingId : String) : Prop :=
  ∃ row ∈ s.calls.rows, row.2.booked = some listingId

instance (s : MarketState) (listingId : String) : Decidable (s.Booking listingId) :=
  inferInstanceAs (Decidable (∃ row ∈ s.calls.rows, row.2.booked = some listingId))

/-- The booking reserves its units. -/
def reserving (bookings : Bookings) (bookingId : String) : Bool :=
  (bookings.find? bookingId).any fun row => row.booking.status.reserves

/-! ## The condition of a transaction -/

/-- The counter of the listing was computed from reserved units that still cover what is reserved, and
no booking on its way is left without its units. -/
def Covers (s : MarketState) (listing : Listing) (reservedUnits : Option ℤ) : Prop :=
  (listing.unitsAvailable ≤ 0 ∨ ∀ read ∈ reservedUnits,
    s.reserved listing.listingId + s.pending listing.listingId ≤
      read + s.releasing listing.listingId) ∧
  (s.Booking listing.listingId →
    s.reserved listing.listingId + s.pending listing.listingId ≤ listing.unitsTotal)

instance (s : MarketState) (listing : Listing) (reservedUnits : Option ℤ) :
    Decidable (Covers s listing reservedUnits) :=
  inferInstanceAs (Decidable (_ ∧ _))

/-- The counter is put where it was computed from what still stands. -/
def WorkerStage.InTurn (s : MarketState) : WorkerStage → Prop
  | .putListing listing reservedUnits _ _ _ => Covers s listing reservedUnits
  | _ => True

instance (s : MarketState) : (stage : WorkerStage) → Decidable (stage.InTurn s)
  | .putListing listing reservedUnits _ _ _ =>
    inferInstanceAs (Decidable (Covers s listing reservedUnits))
  | .registerListing _ _ _ _ _ => .isTrue trivial
  | .registerWorker _ _ _ _ _ _ => .isTrue trivial
  | .registerReserved _ _ _ _ _ _ _ => .isTrue trivial
  | .heartbeatWorker _ _ => .isTrue trivial
  | .heartbeatListing _ _ => .isTrue trivial
  | .heartbeatReserved _ _ _ _ => .isTrue trivial
  | .expireWorkers _ _ => .isTrue trivial
  | .expireListing _ _ _ => .isTrue trivial
  | .putWorker _ _ _ => .isTrue trivial

/-- The listing is as it was read, and no release of it is between its puts. The id of the booking is
new. -/
def BookStage.InTurn (s : MarketState) : BookStage → Prop
  | .putListing listing _ _ =>
    s.market.listings.find? listing.listingId = some listing ∧ s.releasing listing.listingId = 0
  | .putBooking booking _ => s.market.bookings.find? booking.bookingId = none
  | _ => True

instance (s : MarketState) : (stage : BookStage) → Decidable (stage.InTurn s)
  | .putListing listing _ _ => inferInstanceAs (Decidable
      (s.market.listings.find? listing.listingId = some listing ∧ s.releasing listing.listingId = 0))
  | .putBooking booking _ =>
    inferInstanceAs (Decidable (s.market.bookings.find? booking.bookingId = none))
  | .select _ => .isTrue trivial
  | .putPayment _ _ => .isTrue trivial

/-- The listing is as it was read, the booking still reserves its units, and no other release of it is
between its puts. Where nothing is free, what is reserved fits in the total or in the booking. -/
def ReleaseStage.InTurn (s : MarketState) : ReleaseStage → Prop
  | .putListing listing booking _ =>
    s.market.listings.find? listing.listingId = some listing ∧
      reserving s.market.bookings booking.bookingId = true ∧
      (∀ row ∈ s.calls.rows, row.2.released ≠ some booking.bookingId) ∧
      (0 < listing.unitsAvailable ∨
        s.reserved listing.listingId + s.pending listing.listingId ≤
          max listing.unitsTotal booking.units + s.releasing listing.listingId)
  | _ => True

instance (s : MarketState) : (stage : ReleaseStage) → Decidable (stage.InTurn s)
  | .putListing _ _ _ => inferInstanceAs (Decidable (_ ∧ _ ∧ (∀ row ∈ s.calls.rows, _) ∧ (_ ∨ _)))
  | .readBooking _ => .isTrue trivial
  | .readListing _ => .isTrue trivial
  | .putBooking _ => .isTrue trivial

/-- A booking is activated while it still reserves its units. -/
def SubmitStage.InTurn (s : MarketState) : SubmitStage → Prop
  | .putBooking booking _ => reserving s.market.bookings booking.bookingId = true
  | _ => True

instance (s : MarketState) : (stage : SubmitStage) → Decidable (stage.InTurn s)
  | .putBooking _ _ => inferInstanceAs (Decidable (_ = true))
  | .readPayment _ _ => .isTrue trivial
  | .readBooking _ _ => .isTrue trivial
  | .putPayment _ => .isTrue trivial

def PayStage.InTurn (s : MarketState) : PayStage → Prop
  | .putBooking _ booking => reserving s.market.bookings booking.bookingId = true
  | _ => True

instance (s : MarketState) : (stage : PayStage) → Decidable (stage.InTurn s)
  | .putBooking _ _ => inferInstanceAs (Decidable (_ = true))
  | .readPayment _ _ => .isTrue trivial
  | .readBooking _ _ => .isTrue trivial
  | .readReference _ => .isTrue trivial
  | .readBalance _ _ _ _ _ => .isTrue trivial
  | .putDebit _ _ _ => .isTrue trivial
  | .putPayment _ => .isTrue trivial

/-- What the next transaction of the call writes was computed from what still stands. -/
def MarketCall.InTurn (s : MarketState) : MarketCall → Prop
  | .worker stage => stage.InTurn s
  | .book stage => stage.InTurn s
  | .release stage => stage.InTurn s
  | .submit stage => stage.InTurn s
  | .pay stage => stage.InTurn s
  | .ended => True

instance (s : MarketState) : (left : MarketCall) → Decidable (left.InTurn s)
  | .worker stage => inferInstanceAs (Decidable (stage.InTurn s))
  | .book stage => inferInstanceAs (Decidable (stage.InTurn s))
  | .release stage => inferInstanceAs (Decidable (stage.InTurn s))
  | .submit stage => inferInstanceAs (Decidable (stage.InTurn s))
  | .pay stage => inferInstanceAs (Decidable (stage.InTurn s))
  | .ended => .isTrue trivial

/-- The condition of an event. -/
def InTurn (mc : MarketConfig) (s : MarketState) : MarketEvent → Prop
  | .createListing request now =>
    ∀ listing ∈ (newListing mc request now).toOption, Covers s listing (some 0)
  | .next call _ => ∀ left ∈ s.calls.find? call, left.InTurn s
  | _ => True

instance (mc : MarketConfig) (s : MarketState) : (event : MarketEvent) → Decidable (InTurn mc s event)
  | .createListing request now => inferInstanceAs (Decidable
      (∀ listing ∈ (newListing mc request now).toOption, Covers s listing (some 0)))
  | .next call _ => inferInstanceAs (Decidable (∀ left ∈ s.calls.find? call, left.InTurn s))
  | .registerWorker _ _ _ => .isTrue trivial
  | .heartbeatWorker _ _ _ => .isTrue trivial
  | .expireStaleWorkers _ _ _ => .isTrue trivial
  | .createBooking _ _ => .isTrue trivial
  | .submitPayment _ _ _ => .isTrue trivial
  | .payPaymentFromBalance _ _ _ => .isTrue trivial
  | .releaseBooking _ _ => .isTrue trivial

/-! ## The invariant -/

/-- The row of the booking is of the same listing and the same units. -/
def KnownBooking (bookings : Bookings) (booking : Booking) : Prop :=
  ∃ row, bookings.find? booking.bookingId = some row ∧ row.listingId = booking.listingId ∧
    row.booking.units = booking.units

/-- What a payment from the balance knows of its booking. -/
def PayStage.Knows (bookings : Bookings) : PayStage → Prop
  | .readBalance _ booking _ _ _ => KnownBooking bookings booking
  | .putDebit _ booking _ => ∀ b ∈ booking, KnownBooking bookings b ∧ b.status = .active
  | .putBooking _ booking => KnownBooking bookings booking ∧ booking.status = .active
  | _ => True

def MarketCall.Knows (s : Marketplace) : MarketCall → Prop
  | .worker (.putListing listing reservedUnits _ _ _) => listing.unitsAvailable ≤ 0 ∨
    ∃ read, reservedUnits = some read ∧ listing.unitsAvailable + read ≤ listing.unitsTotal
  | .book (.putListing listing booking _) => booking.listingId = listing.listingId ∧
    1 ≤ booking.units ∧ booking.units ≤ listing.unitsAvailable ∧ booking.status = .awaitingPayment
  | .book (.putBooking booking _) => 0 ≤ booking.units ∧ booking.status = .awaitingPayment
  | .release (.readListing booking) => KnownBooking s.bookings booking
  | .release (.putListing listing booking _) =>
    KnownBooking s.bookings booking ∧ listing.listingId = booking.listingId
  | .release (.putBooking booking) => KnownBooking s.bookings booking ∧ booking.status = .released ∧
    reserving s.bookings booking.bookingId = true
  | .submit (.putBooking booking _) => KnownBooking s.bookings booking ∧ booking.status = .active
  | .pay stage => stage.Knows s.bookings
  | _ => True

structure RowKept (id : String) (row : BookingRow) : Prop where
  named : row.booking.bookingId = id
  column : row.listingId = row.booking.listingId
  units_nonneg : 0 ≤ row.booking.units

/-- The counter of the listing leaves room for what is reserved and on its way. -/
structure ListingFits (s : MarketState) (id : String) (listing : Listing) : Prop where
  fits : listing.unitsAvailable ≤ 0 ∨
    listing.unitsAvailable + s.reserved id + s.pending id ≤ listing.unitsTotal + s.releasing id
  booking : s.Booking id → s.reserved id + s.pending id ≤ listing.unitsTotal

structure MarketKept (s : MarketState) : Prop where
  named : ∀ id listing, s.market.listings.find? id = some listing → listing.listingId = id
  row : ∀ id row, s.market.bookings.find? id = some row → RowKept id row
  call : ∀ call left, s.calls.find? call = some left → left.Knows s.market
  single : ∀ call₁ call₂ left₁ left₂ id, s.calls.find? call₁ = some left₁ →
    s.calls.find? call₂ = some left₂ → left₁.released = some id → left₂.released = some id →
      call₁ = call₂
  listing : ∀ id listing, s.market.listings.find? id = some listing → ListingFits s id listing

/-- It holds of an empty marketplace. -/
theorem MarketKept.start : MarketKept .start where
  named _ _ h := nomatch h
  row _ _ h := nomatch h
  call _ _ h := nomatch h
  single _ _ _ _ _ h := nomatch h
  listing _ _ h := nomatch h

/-! ## Sums over the calls -/

/-- A sum over the calls changes with the one that is replaced. -/
theorem sum_calls_upsert {calls : Sql.Table ℕ MarketCall} {call : ℕ} {left : MarketCall}
    (hcall : calls.find? call = some left) (left' : MarketCall) (f : MarketCall → ℤ) :
    (calls.upsert call left').sum f = calls.sum f + f left' - f left := by
  rw [Sql.Table.sum_upsert, hcall]
  rfl

/-- After a step a booking is made by the call that moved, or by another one. -/
theorem booking_of_upsert {market : Marketplace} {calls : Sql.Table ℕ MarketCall} {call : ℕ}
    {left' : MarketCall} {id : String}
    (h : MarketState.Booking ⟨market, calls.upsert call left'⟩ id) :
    left'.booked = some id ∨ ∃ row ∈ calls.rows, row.2.booked = some id := by
  obtain ⟨⟨key, other⟩, hmem, hbooked⟩ := h
  have hfind := Sql.Table.find?_eq_some_iff.mpr hmem
  rw [Sql.Table.find?_upsert] at hfind
  split at hfind
  · cases hfind
    exact .inl hbooked
  · exact .inr ⟨(key, other), Sql.Table.find?_eq_some_iff.mp hfind, hbooked⟩

/-- The units that wait change with the call that moves. -/
theorem pending_next {s : MarketState} (market : Marketplace) {call : ℕ} {left : MarketCall}
    (hcall : s.calls.find? call = some left) (left' : MarketCall) (id : String) :
    MarketState.pending ⟨market, s.calls.upsert call left'⟩ id =
      s.pending id + left'.pending id - left.pending id :=
  sum_calls_upsert hcall left' _

/-- So do the units that are being given back. -/
theorem releasing_next {s : MarketState} (market : Marketplace) {call : ℕ} {left : MarketCall}
    (hcall : s.calls.find? call = some left) (left' : MarketCall) (id : String) :
    MarketState.releasing ⟨market, s.calls.upsert call left'⟩ id =
      s.releasing id + left'.releasing id - left.releasing id :=
  sum_calls_upsert hcall left' _

/-- A step that begins no booking leaves those that there were. -/
theorem booking_before {s : MarketState} {market : Marketplace} {call : ℕ} {left left' : MarketCall}
    {id : String} (hcall : s.calls.find? call = some left)
    (hbooked : left'.booked = some id → left.booked = some id)
    (h : MarketState.Booking ⟨market, s.calls.upsert call left'⟩ id) : s.Booking id := by
  rcases booking_of_upsert h with hnow | hbefore
  · exact ⟨(call, left), Sql.Table.find?_eq_some_iff.mp hcall, hbooked hnow⟩
  · exact hbefore

/-- No call holds a negative number of units. -/
theorem pending_nonneg {s : MarketState} (h : MarketKept s) (id : String) : 0 ≤ s.pending id := by
  refine List.sum_nonneg fun x hx => ?_
  obtain ⟨⟨key, left⟩, hmem, rfl⟩ := List.mem_map.mp hx
  have hknows := h.call key left (Sql.Table.find?_eq_some_iff.mpr hmem)
  show 0 ≤ left.pending id
  -- only a booking between its first two puts has units on their way
  cases left with
  | book stage =>
    cases stage with
    | putBooking booking payment =>
      show 0 ≤ if booking.listingId = id then booking.units else 0
      split
      · exact hknows.1
      · exact le_rfl
    | _ => exact le_rfl
  | _ => exact le_rfl

/-! ## Frames -/

/-- The rows of the bookings stay, with their listings and units. -/
def SameRows (bookings bookings' : Bookings) : Prop :=
  ∀ id row, bookings.find? id = some row → ∃ row', bookings'.find? id = some row' ∧
    row'.listingId = row.listingId ∧ row'.booking.units = row.booking.units

/-- A booking stays known while the rows stay. -/
theorem KnownBooking.frame {bookings bookings' : Bookings} {booking : Booking}
    (h : KnownBooking bookings booking) (hsame : SameRows bookings bookings') :
    KnownBooking bookings' booking := by
  obtain ⟨row, hrow, hlisting, hunits⟩ := h
  obtain ⟨row', hrow', hlisting', hunits'⟩ := hsame _ row hrow
  exact ⟨row', hrow', hlisting'.trans hlisting, hunits'.trans hunits⟩

/-- So does what a payment knows. -/
theorem PayStage.Knows.frame {bookings bookings' : Bookings} {stage : PayStage}
    (h : stage.Knows bookings) (hsame : SameRows bookings bookings') : stage.Knows bookings' := by
  cases stage with
  | readBalance payment booking accountId token required => exact KnownBooking.frame h hsame
  | putDebit payment booking entry => exact fun b hb => ⟨(h b hb).1.frame hsame, (h b hb).2⟩
  | putBooking payment booking => exact ⟨h.1.frame hsame, h.2⟩
  | _ => trivial

/-- So does what a call knows, while its booking goes on reserving. -/
theorem MarketCall.Knows.frame {s s' : Marketplace} {left : MarketCall} (h : left.Knows s)
    (hsame : SameRows s.bookings s'.bookings)
    (hreserving : ∀ id, left.released = some id → reserving s.bookings id = true →
      reserving s'.bookings id = true) : left.Knows s' := by
  cases left with
  | worker stage => cases stage <;> exact h
  | book stage => cases stage <;> exact h
  | release stage =>
    cases stage with
    | readBooking bookingId => trivial
    | readListing booking => exact KnownBooking.frame h hsame
    | putListing listing booking now => exact ⟨h.1.frame hsame, h.2⟩
    | putBooking booking => exact ⟨h.1.frame hsame, h.2.1, hreserving _ rfl h.2.2⟩
  | submit stage =>
    cases stage with
    | putBooking booking payment => exact ⟨h.1.frame hsame, h.2⟩
    | _ => trivial
  | pay stage => exact PayStage.Knows.frame h hsame
  | ended => trivial

/-- A table has its own rows. -/
theorem SameRows.refl (bookings : Bookings) : SameRows bookings bookings :=
  fun _ row hrow => ⟨row, hrow, rfl, rfl⟩

/-- The transaction of a call, where the counters still fit after it. -/
theorem MarketKept.write {s : MarketState} (h : MarketKept s) {call : ℕ} {left' : MarketCall}
    {market : Marketplace} (hknows : left'.Knows market)
    (hnamed : ∀ id listing, market.listings.find? id = some listing → listing.listingId = id)
    (hrow : ∀ id row, market.bookings.find? id = some row → RowKept id row)
    (hsame : SameRows s.market.bookings market.bookings)
    (hreserving : ∀ call' other id, call' ≠ call → s.calls.find? call' = some other →
      other.released = some id → reserving s.market.bookings id = true →
        reserving market.bookings id = true)
    (hsingle : ∀ call' other id, call' ≠ call → s.calls.find? call' = some other →
      left'.released = some id → other.released ≠ some id)
    (hlisting : ∀ id listing, market.listings.find? id = some listing →
      ListingFits ⟨market, s.calls.upsert call left'⟩ id listing) :
    MarketKept ⟨market, s.calls.upsert call left'⟩ where
  named := hnamed
  row := hrow
  call call' other hother := by
    rw [Sql.Table.find?_upsert] at hother
    split at hother
    · cases hother
      exact hknows
    · rename_i hne
      exact (h.call call' other hother).frame hsame fun id => hreserving call' other id hne hother
  single call₁ call₂ left₁ left₂ id h₁ h₂ hid₁ hid₂ := by
    rw [Sql.Table.find?_upsert] at h₁ h₂
    split at h₁ <;> split at h₂
    · rename_i heq₁ heq₂
      exact heq₁.trans heq₂.symm
    -- one of the two is the call that moves: what it releases is nobody else's
    · rename_i heq₁ hne₂
      cases h₁
      exact absurd hid₂ (hsingle call₂ left₂ id hne₂ h₂ hid₁)
    · rename_i hne₁ heq₂
      cases h₂
      exact absurd hid₁ (hsingle call₁ left₁ id hne₁ h₁ hid₂)
    · exact h.single call₁ call₂ left₁ left₂ id h₁ h₂ hid₁ hid₂
  listing := hlisting

/-! ## One transaction -/

section Transaction

variable {s : MarketState} {call : ℕ} {left left' : MarketCall} {market : Marketplace}

/-- The counters fit where the reserved units and the units that are given back fall together, and
the rest stays. -/
theorem ListingFits.fall {id : String} {listing : Listing} (h : ListingFits s id listing)
    (hcall : s.calls.find? call = some left) {units : ℤ} (hunits : 0 ≤ units)
    (hreserved : reservedUnitsForListing market.bookings id = s.reserved id - units)
    (hpending : left'.pending id = left.pending id)
    (hreleasing : left.releasing id = left'.releasing id + units)
    (hbooked : left'.booked = some id → left.booked = some id) :
    ListingFits ⟨market, s.calls.upsert call left'⟩ id listing := by
  have hr : MarketState.reserved ⟨market, s.calls.upsert call left'⟩ id = s.reserved id - units :=
    hreserved
  have hp : MarketState.pending ⟨market, s.calls.upsert call left'⟩ id = s.pending id := by
    rw [pending_next market hcall, hpending, add_sub_cancel_right]
  have hg : MarketState.releasing ⟨market, s.calls.upsert call left'⟩ id =
      s.releasing id - units := by
    rw [releasing_next market hcall, hreleasing]
    ring
  refine ⟨?_, fun hbooking => ?_⟩
  · rw [hp, hg, hr]
    exact h.fits.imp_right fun hroom => by omega
  · rw [hp, hr]
    have hroom := h.booking (booking_before hcall hbooked hbooking)
    omega

/-- The counters fit where nothing that they depend on changes. -/
theorem ListingFits.quiet {id : String} {listing : Listing} (h : ListingFits s id listing)
    (hcall : s.calls.find? call = some left)
    (hreserved : reservedUnitsForListing market.bookings id = s.reserved id)
    (hpending : left'.pending id = left.pending id)
    (hreleasing : left'.releasing id = left.releasing id)
    (hbooked : left'.booked = some id → left.booked = some id) :
    ListingFits ⟨market, s.calls.upsert call left'⟩ id listing :=
  h.fall hcall le_rfl (hreserved.trans (sub_zero _).symm) hpending
    (hreleasing.symm.trans (add_zero _).symm) hbooked

/-- A transaction that writes no listing and no booking. -/
theorem MarketKept.quiet (h : MarketKept s) (hcall : s.calls.find? call = some left)
    (hlistings : market.listings = s.market.listings)
    (hbookings : market.bookings = s.market.bookings)
    (hknows : left'.Knows market) (hreleased : left'.released = none)
    (hpending : ∀ id, left'.pending id = left.pending id)
    (hreleasing : ∀ id, left'.releasing id = left.releasing id)
    (hbooked : ∀ id, left'.booked = some id → left.booked = some id) :
    MarketKept ⟨market, s.calls.upsert call left'⟩ := by
  refine h.write hknows (hlistings ▸ h.named) (hbookings ▸ h.row)
    (hbookings ▸ SameRows.refl _) (fun _ _ _ _ _ _ hreserving => hbookings ▸ hreserving)
    (fun _ _ _ _ _ hid => ?_) fun id listing hfind => ?_
  · rw [hreleased] at hid
    cases hid
  · rw [hlistings] at hfind
    exact (h.listing id listing hfind).quiet hcall (by rw [hbookings]; rfl) (hpending id)
      (hreleasing id) (hbooked id)

/-- A listing that is found is the one that was put, or an older one. -/
theorem find?_putListing {listings : Listings} {listing listing' : Listing} {id : String}
    (h : (listings.upsert listing.listingId listing).find? id = some listing') :
    id = listing.listingId ∧ listing' = listing ∨
      id ≠ listing.listingId ∧ listings.find? id = some listing' := by
  rw [Sql.Table.find?_upsert] at h
  split at h
  · exact .inl ⟨‹_›, (Option.some.inj h).symm⟩
  · exact .inr ⟨‹_›, h⟩

/-- A transaction that writes one listing. -/
theorem MarketKept.writeListing (h : MarketKept s) (hcall : s.calls.find? call = some left)
    (listing : Listing) (hknows : left'.Knows s.market)
    (hsingle : ∀ call' other id, call' ≠ call → s.calls.find? call' = some other →
      left'.released = some id → other.released ≠ some id)
    (hpending : ∀ id, id ≠ listing.listingId → left'.pending id = left.pending id)
    (hreleasing : ∀ id, id ≠ listing.listingId → left'.releasing id = left.releasing id)
    (hbooked : ∀ id, id ≠ listing.listingId → left'.booked = some id → left.booked = some id)
    (hlisting : ListingFits
      ⟨{ s.market with listings := s.market.listings.upsert listing.listingId listing },
        s.calls.upsert call left'⟩ listing.listingId listing) :
    MarketKept
      ⟨{ s.market with listings := s.market.listings.upsert listing.listingId listing },
        s.calls.upsert call left'⟩ := by
  refine h.write (hknows.frame (SameRows.refl _) fun _ _ hreserving => hreserving)
    (fun id listing' hfind => ?_) h.row (SameRows.refl _) (fun _ _ _ _ _ _ hreserving => hreserving)
    hsingle fun id listing' hfind => ?_
  · rcases find?_putListing hfind with ⟨rfl, rfl⟩ | ⟨-, hold⟩
    · rfl
    · exact h.named id listing' hold
  · rcases find?_putListing hfind with ⟨rfl, rfl⟩ | ⟨hne, hold⟩
    · exact hlisting
    · exact (h.listing id listing' hold).quiet hcall rfl (hpending id hne) (hreleasing id hne)
        (hbooked id hne)

/-- The row after a put of a booking. -/
theorem find?_putBooking (bookings : Bookings) (booking : Booking) (id : String) :
    (putBooking bookings booking).find? id = if id = booking.bookingId then
      some ⟨((bookings.find? booking.bookingId).map BookingRow.listingId).getD booking.listingId,
        booking⟩ else bookings.find? id :=
  Sql.Table.find?_upsert ..

/-- A known booking is written over its own row. -/
theorem putBooking_known {bookings : Bookings} {booking : Booking} {row : BookingRow}
    (hrow : bookings.find? booking.bookingId = some row)
    (hlisting : row.listingId = booking.listingId)
    (id : String) : (putBooking bookings booking).find? id =
      if id = booking.bookingId then some ⟨booking.listingId, booking⟩ else bookings.find? id := by
  rw [find?_putBooking, hrow, Option.map_some, Option.getD_some, hlisting]

/-- A transaction that writes one booking: a new one, or one that the call knows. -/
theorem MarketKept.writeBooking (h : MarketKept s) {booking : Booking} (hunits : 0 ≤ booking.units)
    (hbooking : s.market.bookings.find? booking.bookingId = none ∨
      KnownBooking s.market.bookings booking)
    (hknows : left'.Knows { s.market with bookings := putBooking s.market.bookings booking })
    (hreleased : left'.released = none)
    (hstatus : booking.status.reserves = true ∨ left.released = some booking.bookingId)
    (hcall : s.calls.find? call = some left)
    (hlisting : ∀ id listing, s.market.listings.find? id = some listing → ListingFits
      ⟨{ s.market with bookings := putBooking s.market.bookings booking }, s.calls.upsert call left'⟩
      id listing) :
    MarketKept
      ⟨{ s.market with bookings := putBooking s.market.bookings booking }, s.calls.upsert call left'⟩
    := by
  have hput : ∀ id, (putBooking s.market.bookings booking).find? id =
      if id = booking.bookingId then some ⟨booking.listingId, booking⟩
      else s.market.bookings.find? id := by
    rcases hbooking with hnew | ⟨row, hrow, hcolumn, -⟩
    · intro id
      rw [find?_putBooking, hnew]
      rfl
    · exact putBooking_known hrow hcolumn
  refine h.write hknows h.named (fun id row hrow => ?_) (fun id row hrow => ?_)
    (fun call' other id hne hother hid hreserving => ?_) (fun _ _ _ _ _ hid => ?_) hlisting
  · change (putBooking _ _).find? id = _ at hrow
    rw [hput] at hrow
    split at hrow
    · cases hrow
      exact ⟨Eq.symm ‹_›, rfl, hunits⟩
    · exact h.row id row hrow
  · show ∃ row', (putBooking _ _).find? id = _ ∧ _
    rw [hput]
    split
    · rename_i hid
      rcases hbooking with hnew | ⟨known, hknown, hcolumn, hsame⟩
      · rw [hid, hnew] at hrow
        cases hrow
      · rw [hid, hknown] at hrow
        cases hrow
        exact ⟨_, rfl, hcolumn.symm, hsame.symm⟩
    · exact ⟨row, hrow, rfl, rfl⟩
  · show (Option.any _ ((putBooking _ _).find? id)) = true
    rw [hput]
    split
    · rename_i heq
      -- a call that has given the units of this booking back is the one that writes it
      rcases hstatus with hreserves | hleft
      · exact hreserves
      · exact absurd (h.single call' call other left id hother hcall hid (heq ▸ hleft)) hne
    · exact hreserving
  · rw [hreleased] at hid
    cases hid

/-- The call has no units on their way. -/
structure MarketCall.Idle (left : MarketCall) : Prop where
  pending : ∀ id, left.pending id = 0
  releasing : ∀ id, left.releasing id = 0
  booked : left.booked = none
  released : left.released = none

/-- A call about workers holds no units. -/
theorem idle_worker (stage : WorkerStage) : (MarketCall.worker stage).Idle :=
  ⟨fun _ => rfl, fun _ => rfl, rfl, rfl⟩

/-- A submitted payment holds no units. -/
theorem idle_submit (stage : SubmitStage) : (MarketCall.submit stage).Idle :=
  ⟨fun _ => rfl, fun _ => rfl, rfl, rfl⟩

/-- A payment from a balance holds no units. -/
theorem idle_pay (stage : PayStage) : (MarketCall.pay stage).Idle :=
  ⟨fun _ => rfl, fun _ => rfl, rfl, rfl⟩

/-- What a transaction that writes no listing and no booking leaves to do. -/
def Quiet {σ : Type} (s s' : Marketplace) (f : σ → MarketCall) (next : Option σ) : Prop :=
  s'.listings = s.listings ∧ s'.bookings = s.bookings ∧
    ∀ stage ∈ next, (f stage).Idle ∧ (f stage).Knows s

/-- A step that writes neither listings nor bookings is quiet. -/
theorem Quiet.some {σ : Type} {s s' : Marketplace} {f : σ → MarketCall} {stage : σ}
    (hlistings : s'.listings = s.listings) (hbookings : s'.bookings = s.bookings)
    (hidle : (f stage).Idle) (hknows : (f stage).Knows s) : Quiet s s' f (some stage) :=
  ⟨hlistings, hbookings, fun next hnext => by cases hnext; exact ⟨hidle, hknows⟩⟩

/-- So is a last step that writes neither. -/
theorem Quiet.none {σ : Type} {s s' : Marketplace} (f : σ → MarketCall)
    (hlistings : s'.listings = s.listings) (hbookings : s'.bookings = s.bookings) :
    Quiet s s' f none :=
  ⟨hlistings, hbookings, fun _ hnext => nomatch hnext⟩

/-- A call with no units on their way raises, or writes no listing and no booking. -/
theorem MarketKept.resume {σ : Type} {f : σ → MarketCall}
    {x : Except String (Marketplace × Option σ)} (h : MarketKept s)
    (hcall : s.calls.find? call = some left)
    (hleft : ∀ id, left.pending id = 0 ∧ left.releasing id = 0)
    (hx : ∀ s' next, x = .ok (s', next) → Quiet s.market s' f next) :
    MarketKept
      ⟨(Market.resume s.market f x).1, s.calls.upsert call (Market.resume s.market f x).2⟩ := by
  cases x with
  | error message =>
    exact h.quiet hcall rfl rfl trivial rfl (fun id => (hleft id).1.symm)
      (fun id => (hleft id).2.symm) fun _ hid => nomatch hid
  | ok result =>
    obtain ⟨s', next⟩ := result
    obtain ⟨hlistings, hbookings, hnext⟩ := hx s' next rfl
    cases next with
    | none =>
      exact h.quiet hcall hlistings hbookings trivial rfl (fun id => (hleft id).1.symm)
        (fun id => (hleft id).2.symm) fun _ hid => nomatch hid
    | some stage =>
      obtain ⟨hidle, hknows⟩ := hnext stage rfl
      refine h.quiet hcall hlistings hbookings
        (hknows.frame (hbookings ▸ SameRows.refl _) fun _ _ hreserving => hbookings ▸ hreserving)
        hidle.released (fun id => (hidle.pending id).trans (hleft id).1.symm)
        (fun id => (hidle.releasing id).trans (hleft id).2.symm) fun id hid => ?_
      exact absurd (hidle.booked.symm.trans hid) nofun

/-! ## Calls about workers -/

/-- A heartbeat offers what the reservations leave, or nothing. -/
theorem heartbeat_fits (request : WorkerHeartbeatRequest) (reservedUnits : ℤ) (now : Instant)
    (listing : Listing) : (listing.heartbeat request reservedUnits now).unitsAvailable ≤ 0 ∨
      (listing.heartbeat request reservedUnits now).unitsAvailable + reservedUnits ≤
        (listing.heartbeat request reservedUnits now).unitsTotal := by
  unfold Listing.heartbeat
  split
  · dsimp only
    omega
  · exact .inl le_rfl

/-- A counter that was computed from reserved units that still cover what is reserved fits. -/
theorem Covers.fits {listing : Listing} {reservedUnits : Option ℤ}
    (h : Covers s listing reservedUnits)
    (hread : listing.unitsAvailable ≤ 0 ∨
      ∃ read, reservedUnits = some read ∧ listing.unitsAvailable + read ≤ listing.unitsTotal) :
    ListingFits s listing.listingId listing := by
  refine ⟨?_, h.2⟩
  rcases h.1 with hzero | hcovers
  · exact .inl hzero
  · rcases hread with hzero | ⟨read, hsome, hread⟩
    · exact .inl hzero
    · have hcovered := hcovers read hsome
      exact .inr (by omega)

/-- The next worker to expire is known. -/
theorem knows_expireNext (s : Marketplace) (now : Instant) (workers : List Worker) :
    ∀ stage ∈ WorkerStage.expireNext now workers, (MarketCall.worker stage).Knows s := by
  intro stage hstage
  cases workers with
  | nil => cases hstage
  | cons worker rest =>
    cases hstage
    trivial

/-- A step of a call about workers preserves it. -/
theorem MarketKept.worker (h : MarketKept s) {stage : WorkerStage}
    (hcall : s.calls.find? call = some (.worker stage)) (hturn : MarketCall.InTurn s (.worker stage))
    (now : Instant) :
    MarketKept ⟨(Market.resume s.market .worker (workerStep now s.market stage)).1,
      s.calls.upsert call (Market.resume s.market .worker (workerStep now s.market stage)).2⟩ := by
  have hleft : ∀ id, (MarketCall.worker stage).pending id = 0 ∧
      (MarketCall.worker stage).releasing id = 0 := fun _ => ⟨rfl, rfl⟩
  cases stage with
  | putListing listing reservedUnits worker rest time =>
    refine h.writeListing hcall listing trivial
      (fun _ _ _ _ _ hid => nomatch hid) (fun _ _ => rfl) (fun _ _ => rfl) (fun _ _ hid => hid) ?_
    exact (hturn.fits (h.call call _ hcall)).quiet hcall rfl rfl rfl fun hid => hid
  | registerListing request workerId pool listingId time =>
    refine h.resume hcall hleft fun s' next hstep => ?_
    cases hstep
    exact .some rfl rfl (idle_worker _) trivial
  | registerWorker request workerId pool listingId listingCreatedAt time =>
    refine h.resume hcall hleft fun s' next hstep => ?_
    cases hstep
    exact .some rfl rfl (idle_worker _) trivial
  | registerReserved request workerId pool listingId listingCreatedAt workerCreatedAt time =>
    refine h.resume hcall hleft fun s' next hstep => ?_
    cases hstep
    refine .some rfl rfl (idle_worker _) ?_
    show max 0 _ ≤ (0 : ℤ) ∨ ∃ read, _ = Option.some read ∧ max 0 _ + read ≤ _
    -- the counter is zero, or exactly what the reserved units that were read leave
    by_cases hfull : request.unitsTotal - reservedUnitsForListing s.market.bookings listingId ≤ 0
    · exact .inl (by omega)
    · exact .inr ⟨_, rfl, by dsimp only [registeredListing]; omega⟩
  | heartbeatWorker workerId request =>
    refine h.resume hcall hleft fun s' next hstep => ?_
    obtain ⟨worker, -, hstep⟩ := bind_eq_ok.mp hstep
    cases hstep
    exact .some rfl rfl (idle_worker _) trivial
  | heartbeatListing worker request =>
    refine h.resume hcall hleft fun s' next hstep => ?_
    obtain ⟨listing, -, hstep⟩ := bind_eq_ok.mp hstep
    cases hstep
    exact .some rfl rfl (idle_worker _) trivial
  | heartbeatReserved worker listing request time =>
    refine h.resume hcall hleft fun s' next hstep => ?_
    cases hstep
    refine .some rfl rfl (idle_worker _) ?_
    rcases heartbeat_fits request (reservedUnitsForListing s.market.bookings listing.listingId) time
      listing with hzero | hfits
    · exact .inl hzero
    · exact .inr ⟨_, rfl, hfits⟩
  | expireWorkers staleAfterSeconds limit =>
    refine h.resume hcall hleft fun s' next hstep => ?_
    cases hstep
    exact ⟨rfl, rfl, fun stage hstage => ⟨idle_worker stage, knows_expireNext _ _ _ stage hstage⟩⟩
  | expireListing worker rest time =>
    refine h.resume hcall hleft fun s' next hstep => ?_
    obtain ⟨listing, -, hstep⟩ := bind_eq_ok.mp hstep
    cases hstep
    exact .some rfl rfl (idle_worker _) (.inl le_rfl)
  | putWorker worker rest time =>
    refine h.resume hcall hleft fun s' next hstep => ?_
    cases hstep
    exact ⟨rfl, rfl, fun stage hstage => ⟨idle_worker stage, knows_expireNext _ _ _ stage hstage⟩⟩

/-! ## Bookings and releases -/

/-- The units of the booking, for its listing. -/
theorem reserved_eq {row : BookingRow} (h : row.booking.status.reserves = true) (id : String) :
    row.reserved id = if row.listingId = id then row.booking.units else 0 := by
  unfold BookingRow.reserved
  rw [h]
  simp

/-- A new booking that reserves adds its units. -/
theorem reserved_putNew {bookings : Bookings} {booking : Booking}
    (hnew : bookings.find? booking.bookingId = none) (hreserves : booking.status.reserves = true)
    (id : String) : reservedUnitsForListing (putBooking bookings booking) id =
      reservedUnitsForListing bookings id + if booking.listingId = id then booking.units else 0 := by
  rw [reservedUnits_putBooking, hnew]
  simp only [Option.map_none, Option.getD_none, sub_zero]
  exact congrArg _ (reserved_eq hreserves id)

/-- The row of a booking that reserves says so. -/
theorem reserving_row {bookings : Bookings} {id : String} {row : BookingRow}
    (hrow : bookings.find? id = some row) (h : reserving bookings id = true) :
    row.booking.status.reserves = true := by
  unfold reserving at h
  rw [hrow] at h
  exact h

/-- A booking that goes on reserving changes no sum. -/
theorem reserved_putActive {bookings : Bookings} {booking : Booking}
    (hknown : KnownBooking bookings booking) (hold : reserving bookings booking.bookingId = true)
    (hreserves : booking.status.reserves = true) (id : String) :
    reservedUnitsForListing (putBooking bookings booking) id =
      reservedUnitsForListing bookings id := by
  obtain ⟨row, hrow, hcolumn, hunits⟩ := hknown
  have hbefore := reserved_eq (reserving_row hrow hold) id
  have hafter : BookingRow.reserved id ⟨booking.listingId, booking⟩ =
      if booking.listingId = id then booking.units else 0 := reserved_eq hreserves id
  rw [reservedUnits_putBooking, hrow, Option.map_some, Option.map_some, Option.getD_some,
    Option.getD_some, hcolumn, hbefore, hafter, hcolumn, hunits, add_sub_cancel_right]

/-- A booking that ends takes its units away. -/
theorem reserved_putReleased {bookings : Bookings} {booking : Booking}
    (hknown : KnownBooking bookings booking) (hold : reserving bookings booking.bookingId = true)
    (hreserves : booking.status.reserves = false) (id : String) :
    reservedUnitsForListing (putBooking bookings booking) id =
      reservedUnitsForListing bookings id - if booking.listingId = id then booking.units else 0 := by
  obtain ⟨row, hrow, hcolumn, hunits⟩ := hknown
  have hbefore := reserved_eq (reserving_row hrow hold) id
  rw [reservedUnits_putBooking, hrow, Option.map_some, Option.map_some, Option.getD_some,
    Option.getD_some, hbefore, hcolumn, hunits, reserved_of_ended hreserves, add_zero]

/-- A step of a booking preserves it. -/
theorem MarketKept.book {mc : MarketConfig} (h : MarketKept s) {stage : BookStage}
    (hcall : s.calls.find? call = some (.book stage)) (hturn : MarketCall.InTurn s (.book stage))
    (now : Instant) :
    MarketKept ⟨(Market.resume s.market .book (bookStep mc now s.market stage)).1,
      s.calls.upsert call (Market.resume s.market .book (bookStep mc now s.market stage)).2⟩ := by
  cases stage with
  | select request =>
    refine h.resume hcall (fun _ => ⟨rfl, rfl⟩) fun s' next hstep => ?_
    obtain ⟨-, -, hstep⟩ := bind_eq_ok.mp hstep
    obtain ⟨listing, hselect, hstep⟩ := bind_eq_ok.mp hstep
    obtain ⟨⟨booking, payment⟩, hnew, hstep⟩ := bind_eq_ok.mp hstep
    cases hstep
    obtain ⟨-, -, havailable⟩ := selectListing_eq_ok hselect
    obtain ⟨hlisting, hunits, hstatus⟩ := newBooking_eq_ok hnew
    exact .some rfl rfl ⟨fun _ => rfl, fun _ => rfl, rfl, rfl⟩
      ⟨hlisting, hunits ▸ request.one_le_units, hunits ▸ havailable, hstatus⟩
  | putListing listing booking payment =>
    obtain ⟨hsame, hone, havailable, hstatus⟩ := h.call call _ hcall
    obtain ⟨hrow, hnone⟩ := hturn
    have hfits := h.listing _ listing hrow
    have hknows : (MarketCall.book (.putBooking booking payment)).Knows s.market :=
      ⟨by omega, hstatus⟩
    have hself : (MarketCall.book (.putBooking booking payment)).pending listing.listingId =
        booking.units := if_pos hsame
    refine h.writeListing hcall (listing.book booking.units booking.createdAt) hknows
      (fun _ _ _ _ _ hid => nomatch hid)
      (fun id hne => if_neg fun heq => hne (heq.symm.trans hsame)) (fun _ _ => rfl)
      (fun id hne hid => ?_) ?_
    · cases hid
      exact absurd hsame hne
    -- the units go from the counter to what is on its way
    · have hfits := (h.listing _ listing hrow).fits
      rw [hnone] at hfits
      have hroom : listing.unitsAvailable - booking.units + s.reserved listing.listingId +
          (s.pending listing.listingId + booking.units) ≤ listing.unitsTotal := by omega
      refine ⟨.inr ?_, fun _ => ?_⟩
      · rw [pending_next _ hcall, releasing_next _ hcall]
        show listing.unitsAvailable - booking.units + s.reserved listing.listingId +
          (s.pending listing.listingId + MarketCall.pending listing.listingId
            (.book (.putBooking booking payment)) - 0) ≤
              listing.unitsTotal + (s.releasing listing.listingId + 0 - 0)
        rw [hself, hnone]
        omega
      · rw [pending_next _ hcall]
        show s.reserved listing.listingId + (s.pending listing.listingId + MarketCall.pending
          listing.listingId (.book (.putBooking booking payment)) - 0) ≤ listing.unitsTotal
        rw [hself]
        omega
  | putBooking booking payment =>
    obtain ⟨hunits, hstatus⟩ := h.call call _ hcall
    have hreserves : booking.status.reserves = true := by rw [hstatus]; rfl
    refine h.writeBooking hunits (.inl hturn) trivial rfl (.inl hreserves) hcall
      fun id listing hfind => ?_
    -- the units on their way become reserved
    have hsum : reservedUnitsForListing (putBooking s.market.bookings booking) id +
        (s.pending id + 0 - (MarketCall.book (.putBooking booking payment)).pending id) =
          s.reserved id + s.pending id := by
      rw [reserved_putNew hturn hreserves]
      show s.reserved id + _ +
        (s.pending id + 0 - if booking.listingId = id then booking.units else 0) = _
      ring
    have hfits := h.listing id listing hfind
    refine ⟨?_, fun hbooking => ?_⟩
    · rw [pending_next _ hcall, releasing_next _ hcall]
      refine hfits.fits.imp_right fun hroom => ?_
      show listing.unitsAvailable +
        reservedUnitsForListing (putBooking s.market.bookings booking) id + (s.pending id + 0 - (MarketCall.book (.putBooking booking payment)).pending id) ≤
          listing.unitsTotal + (s.releasing id + 0 - 0)
      omega
    · rw [pending_next _ hcall]
      have hbooked : (MarketCall.book (.putPayment booking payment)).booked = some id →
          (MarketCall.book (.putBooking booking payment)).booked = some id := fun hid => hid
      exact le_of_eq_of_le hsum (hfits.booking (booking_before hcall hbooked hbooking))
  | putPayment booking payment =>
    refine h.resume hcall (fun _ => ⟨rfl, rfl⟩) fun s' next hstep => ?_
    cases hstep
    exact .none _ rfl rfl

/-- A known booking has no negative number of units. -/
theorem MarketKept.units_nonneg (h : MarketKept s) {booking : Booking}
    (hknown : KnownBooking s.market.bookings booking) : 0 ≤ booking.units := by
  obtain ⟨row, hrow, -, hunits⟩ := hknown
  exact hunits ▸ (h.row _ row hrow).units_nonneg

/-- A booking that is read is known. -/
theorem MarketKept.known (h : MarketKept s) {id : String} {booking : Booking}
    (hbooking : getBooking s.market.bookings id = .ok booking) :
    KnownBooking s.market.bookings booking := by
  obtain ⟨row, hrow, rfl⟩ := getBooking_eq_ok.mp hbooking
  have hkept := h.row id row hrow
  exact ⟨row, hkept.named ▸ hrow, hkept.column, rfl⟩

/-- A step of a release preserves it. -/
theorem MarketKept.release (h : MarketKept s) {stage : ReleaseStage}
    (hcall : s.calls.find? call = some (.release stage))
    (hturn : MarketCall.InTurn s (.release stage)) (now : Instant) :
    MarketKept ⟨(Market.resume s.market .release (releaseStep now s.market stage)).1,
      s.calls.upsert call (Market.resume s.market .release (releaseStep now s.market stage)).2⟩ := by
  cases stage with
  | readBooking bookingId =>
    refine h.resume hcall (fun _ => ⟨rfl, rfl⟩) fun s' next hstep => ?_
    obtain ⟨booking, hbooking, hstep⟩ := bind_eq_ok.mp hstep
    cases hstep
    split
    · exact .none _ rfl rfl
    · exact .some rfl rfl ⟨fun _ => rfl, fun _ => rfl, rfl, rfl⟩ (h.known hbooking)
  | readListing booking =>
    refine h.resume hcall (fun _ => ⟨rfl, rfl⟩) fun s' next hstep => ?_
    obtain ⟨listing, hlisting, hstep⟩ := bind_eq_ok.mp hstep
    cases hstep
    exact .some rfl rfl ⟨fun _ => rfl, fun _ => rfl, rfl, rfl⟩
      ⟨h.call call _ hcall, h.named _ listing (getListing_eq_ok.mp hlisting)⟩
  | putListing listing booking time =>
    obtain ⟨hknown, hsame⟩ := h.call call _ hcall
    obtain ⟨hrow, hreserving, halone, hroom⟩ := hturn
    have hknows : (MarketCall.release (.putBooking (booking.release time))).Knows s.market :=
      ⟨hknown, rfl, hreserving⟩
    have hself : (MarketCall.release (.putBooking (booking.release time))).releasing
        listing.listingId = booking.units := if_pos hsame.symm
    refine h.writeListing hcall (listing.release booking.units time) hknows
      (fun call' other id _ hother hid hid' => ?_) (fun _ _ => rfl)
      (fun id hne => if_neg fun heq => hne (heq.symm.trans hsame.symm))
      (fun _ _ hid => nomatch hid) ?_
    · cases hid
      exact halone (call', other) (Sql.Table.find?_eq_some_iff.mp hother) hid'
    -- the units are added to the counter before they are taken from the booking
    · have hfits := h.listing _ listing hrow
      refine ⟨.inr ?_, fun hbooking => ?_⟩
      · rw [pending_next _ hcall, releasing_next _ hcall]
        show min listing.unitsTotal (listing.unitsAvailable + booking.units) +
          s.reserved listing.listingId + (s.pending listing.listingId + 0 - 0) ≤
            listing.unitsTotal + (s.releasing listing.listingId + MarketCall.releasing
              listing.listingId (.release (.putBooking (booking.release time))) - 0)
        rw [hself]
        -- with nothing free the counter becomes at most the smaller of the total and the units
        have hfree := hfits.fits
        omega
      · rw [pending_next _ hcall]
        show s.reserved listing.listingId + (s.pending listing.listingId + 0 - 0) ≤ listing.unitsTotal
        rw [add_zero, sub_zero]
        have hbooked : (MarketCall.release (.putBooking (booking.release time))).booked =
            some listing.listingId → none = some listing.listingId := fun hid => hid
        exact hfits.booking (booking_before hcall hbooked hbooking)
  | putBooking booking =>
    obtain ⟨hknown, hstatus, hreserving⟩ := h.call call _ hcall
    have hnonneg := h.units_nonneg hknown
    have hended : booking.status.reserves = false := by rw [hstatus]; rfl
    -- what was given back leaves the reserved units
    refine h.writeBooking hnonneg (.inr hknown) trivial rfl (.inr rfl) hcall
      fun id listing hfind => ?_
    have hput := reserved_putReleased hknown hreserving hended id
    refine (h.listing id listing hfind).fall hcall ?_ hput rfl (zero_add _).symm
      fun hid => nomatch hid
    split
    · exact hnonneg
    · exact le_rfl

/-! ## Payments -/

/-- A payment activates a booking that still reserves its units. -/
theorem MarketKept.activate (h : MarketKept s) (hcall : s.calls.find? call = some left)
    {booking : Booking} (hknown : KnownBooking s.market.bookings booking)
    (hstatus : booking.status = .active)
    (hreserving : reserving s.market.bookings booking.bookingId = true) (hleft : left.Idle)
    (hleft' : left'.Idle)
    (hknows : left'.Knows { s.market with bookings := putBooking s.market.bookings booking }) :
    MarketKept
      ⟨{ s.market with bookings := putBooking s.market.bookings booking }, s.calls.upsert call left'⟩
    := by
  have hreserves : booking.status.reserves = true := by rw [hstatus]; rfl
  refine h.writeBooking (h.units_nonneg hknown) (.inr hknown) hknows
    hleft'.released (.inl hreserves) hcall fun id listing hfind => ?_
  refine (h.listing id listing hfind).quiet hcall (reserved_putActive hknown hreserving hreserves id)
    ((hleft'.pending id).trans (hleft.pending id).symm)
    ((hleft'.releasing id).trans (hleft.releasing id).symm) fun hid => ?_
  rw [hleft'.booked] at hid
  cases hid

/-- A paid booking is known, and active. -/
theorem afterPayment_known {bookings : Bookings} {booking b : Booking} {now : Instant}
    (hknown : KnownBooking bookings booking) (hb : b ∈ booking.afterPayment now) :
    KnownBooking bookings b ∧ b.status = .active := by
  unfold Booking.afterPayment at hb
  split at hb
  · cases hb
    exact ⟨hknown, rfl⟩
  · cases hb

/-- A step of a submitted payment preserves it. -/
theorem MarketKept.submit {mc : MarketConfig} (h : MarketKept s) {stage : SubmitStage}
    (hcall : s.calls.find? call = some (.submit stage))
    (hturn : MarketCall.InTurn s (.submit stage)) (now : Instant) :
    MarketKept ⟨(Market.resume s.market .submit (submitStep mc now s.market stage)).1,
      s.calls.upsert call (Market.resume s.market .submit (submitStep mc now s.market stage)).2⟩ := by
  have hleft : ∀ id, (MarketCall.submit stage).pending id = 0 ∧
      (MarketCall.submit stage).releasing id = 0 := fun _ => ⟨rfl, rfl⟩
  cases stage with
  | readPayment paymentId request =>
    refine h.resume hcall hleft fun s' next hstep => ?_
    obtain ⟨payment, -, hstep⟩ := bind_eq_ok.mp hstep
    cases hstep
    exact .some rfl rfl (idle_submit _) trivial
  | readBooking payment request =>
    refine h.resume hcall hleft fun s' next hstep => ?_
    obtain ⟨booking, hbooking, hstep⟩ := bind_eq_ok.mp hstep
    cases hstep
    refine .some rfl rfl (idle_submit _) ?_
    split
    · cases hafter : booking.afterPayment now with
      | none => trivial
      | some b => exact afterPayment_known (h.known hbooking) hafter
    · trivial
  | putBooking booking payment =>
    obtain ⟨hknown, hstatus⟩ := h.call call _ hcall
    exact h.activate hcall hknown hstatus hturn (idle_submit _) (idle_submit _) trivial
  | putPayment payment =>
    refine h.resume hcall hleft fun s' next hstep => ?_
    cases hstep
    exact .none _ rfl rfl

/-- A step of a payment from a balance preserves it. -/
theorem MarketKept.pay {mc : MarketConfig} (h : MarketKept s) {stage : PayStage}
    (hcall : s.calls.find? call = some (.pay stage))
    (hturn : MarketCall.InTurn s (.pay stage)) (now : Instant) :
    MarketKept ⟨(Market.resume s.market .pay (payStep mc now s.market stage)).1,
      s.calls.upsert call (Market.resume s.market .pay (payStep mc now s.market stage)).2⟩ := by
  -- a payment holds no units of a listing
  have hleft : ∀ id, (MarketCall.pay stage).pending id = 0 ∧
      (MarketCall.pay stage).releasing id = 0 := fun _ => ⟨rfl, rfl⟩
  cases stage with
  | readPayment paymentId request =>
    refine h.resume hcall hleft fun s' next hstep => ?_
    obtain ⟨payment, -, hstep⟩ := bind_eq_ok.mp hstep
    cases hstep
    exact .some rfl rfl (idle_pay _) trivial
  | readBooking payment request =>
    refine h.resume hcall hleft fun s' next hstep => ?_
    obtain ⟨booking, hbooking, hstep⟩ := bind_eq_ok.mp hstep
    obtain ⟨stage, hafter, hstep⟩ := bind_eq_ok.mp hstep
    cases hstep
    refine .some rfl rfl (idle_pay _) ?_
    unfold afterBooking at hafter
    split at hafter
    · cases hafter
      trivial
    · obtain ⟨token, -, hafter⟩ := bind_eq_ok.mp hafter
      obtain ⟨required, -, hafter⟩ := bind_eq_ok.mp hafter
      cases hafter
      exact h.known hbooking
  | readReference payment =>
    refine h.resume hcall hleft fun s' next hstep => ?_
    simp only [payStep] at hstep
    split at hstep
    · cases hstep
    · cases hstep
      exact .none _ rfl rfl
  | readBalance payment booking accountId token required =>
    refine h.resume hcall hleft fun s' next hstep => ?_
    obtain ⟨available, -, hstep⟩ := bind_eq_ok.mp hstep
    obtain ⟨-, -, hstep⟩ := bind_eq_ok.mp hstep
    cases hstep
    have hknown : KnownBooking s.market.bookings booking := h.call call _ hcall
    exact .some rfl rfl (idle_pay _) fun b hb => afterPayment_known hknown hb
  | putDebit payment booking entry =>
    refine h.resume hcall hleft fun s' next hstep => ?_
    obtain ⟨ledger, -, hstep⟩ := bind_eq_ok.mp hstep
    cases hstep
    refine .some rfl rfl (idle_pay _) ?_
    cases booking with
    | none => trivial
    | some b => exact h.call call _ hcall b rfl
  -- the booking that was pending is activated
  | putBooking payment booking =>
    obtain ⟨hknown, hstatus⟩ := h.call call _ hcall
    exact h.activate hcall hknown hstatus hturn (idle_pay _) (idle_pay _) trivial
  | putPayment payment =>
    refine h.resume hcall hleft fun s' next hstep => ?_
    cases hstep
    exact .none _ rfl rfl

/-- The next transaction of a call keeps the counters. -/
theorem MarketKept.next {mc : MarketConfig} (h : MarketKept s)
    (hcall : s.calls.find? call = some left)
    (hturn : left.InTurn s) (now : Instant) :
    MarketKept
      ⟨(left.next mc now s.market).1, s.calls.upsert call (left.next mc now s.market).2⟩ := by
  cases left with
  | worker stage => exact h.worker hcall hturn now
  | book stage => exact h.book hcall hturn now
  | release stage => exact h.release hcall hturn now
  | submit stage => exact h.submit hcall hturn now
  | pay stage => exact h.pay hcall hturn now
  | ended =>
    exact h.quiet hcall rfl rfl trivial rfl (fun _ => rfl) (fun _ => rfl) fun _ hid => hid

/-- A call starts with no units on their way. -/
theorem MarketKept.begin (h : MarketKept s) (call : ℕ) (hidle : left.Idle)
    (hknows : left.Knows s.market) : MarketKept (s.begin call left) := by
  unfold MarketState.begin
  cases hcall : s.calls.find? call with
  | some other =>
    rw [Sql.Table.insertNew_of_some hcall]
    exact h
  | none =>
    have hpending : ∀ id, (s.calls.upsert call left).sum (MarketCall.pending id) = s.pending id := by
      intro id
      rw [← Sql.Table.insertNew_of_none hcall]
      exact Sql.Table.sum_insertNew _ _ (hidle.pending id)
    have hreleasing : ∀ id,
        (s.calls.upsert call left).sum (MarketCall.releasing id) = s.releasing id := by
      intro id
      rw [← Sql.Table.insertNew_of_none hcall]
      exact Sql.Table.sum_insertNew _ _ (hidle.releasing id)
    rw [Sql.Table.insertNew_of_none hcall]
    refine h.write hknows h.named h.row (SameRows.refl _) (fun _ _ _ _ _ _ hreserving => hreserving)
      (fun _ _ _ _ _ hid => ?_) fun id listing hfind => ⟨?_, fun hbooking => ?_⟩
    · rw [hidle.released] at hid
      cases hid
    · show _ ∨ _ + s.reserved id + (s.calls.upsert call left).sum (MarketCall.pending id) ≤
        _ + (s.calls.upsert call left).sum (MarketCall.releasing id)
      rw [hpending, hreleasing]
      exact (h.listing id listing hfind).fits
    · show s.reserved id + (s.calls.upsert call left).sum (MarketCall.pending id) ≤ _
      rw [hpending]
      refine (h.listing id listing hfind).booking ?_
      rcases booking_of_upsert hbooking with hnow | hbefore
      · rw [hidle.booked] at hnow
        cases hnow
      · exact hbefore

/-- A new listing preserves it. -/
theorem MarketKept.createListing {mc : MarketConfig} (h : MarketKept s)
    {request : ListingCreateRequest} {now : Instant}
    (hturn : InTurn mc s (.createListing request now)) :
    MarketKept (marketStep mc s (.createListing request now)) := by
  refine attempt_of (P := fun market => MarketKept ⟨market, s.calls⟩) h fun market hstep => ?_
  obtain ⟨listing, hnew, htotal, havailable, rfl⟩ := createListing_cases hstep
  have hcovers : Covers s listing (some 0) := hturn listing (by rw [hnew]; rfl)
  have hfits := hcovers.fits (.inr ⟨0, rfl, by omega⟩)
  exact {
    row := h.row
    single := h.single
    call := fun call left hcall =>
      (h.call call left hcall).frame (SameRows.refl _) fun _ _ hreserving => hreserving
    named := fun id listing' hfind => by
      rcases find?_putListing hfind with ⟨rfl, rfl⟩ | ⟨-, hold⟩
      · rfl
      · exact h.named id listing' hold
    listing := fun id listing' hfind => by
      rcases find?_putListing hfind with ⟨rfl, rfl⟩ | ⟨-, hold⟩
      · exact ⟨hfits.fits, hfits.booking⟩
      · exact ⟨(h.listing id listing' hold).fits, (h.listing id listing' hold).booking⟩ }

end Transaction

/-- One event in turn keeps the counters. -/
theorem MarketKept.step {mc : MarketConfig} {s : MarketState} (h : MarketKept s) {event : MarketEvent}
    (hturn : InTurn mc s event) : MarketKept (marketStep mc s event) := by
  cases event with
  | createListing request now => exact h.createListing hturn
  | registerWorker call request now =>
    simp only [marketStep]
    split
    · exact h
    · exact h.begin call (idle_worker _) trivial
  | heartbeatWorker call workerId request => exact h.begin call (idle_worker _) trivial
  | expireStaleWorkers call staleAfterSeconds limit => exact h.begin call (idle_worker _) trivial
  | createBooking call request =>
    exact h.begin call ⟨fun _ => rfl, fun _ => rfl, rfl, rfl⟩ trivial
  | submitPayment call paymentId request => exact h.begin call (idle_submit _) trivial
  | payPaymentFromBalance call paymentId request => exact h.begin call (idle_pay _) trivial
  | releaseBooking call bookingId =>
    exact h.begin call ⟨fun _ => rfl, fun _ => rfl, rfl, rfl⟩ trivial
  | next call now =>
    simp only [marketStep]
    cases hcall : s.calls.find? call with
    | none => exact h
    | some left => exact h.next hcall (hturn left hcall) now

/-! ## Every run -/

/-- When the last transaction of a `create_booking` is done, no more of the listing is reserved than
there is. -/
def BookedWithin (mc : MarketConfig) (s : MarketState) : MarketEvent → Prop
  | .next call now => ∀ booking ∈ (s.calls.find? call).bind MarketCall.returning,
      ∀ listing ∈ (marketStep mc s (.next call now)).market.listings.find? booking.listingId,
        (marketStep mc s (.next call now)).reserved booking.listingId ≤ listing.unitsTotal
  | _ => True

instance (mc : MarketConfig) (s : MarketState) :
    (event : MarketEvent) → Decidable (BookedWithin mc s event)
  | .next call _ => inferInstanceAs (Decidable
      (∀ booking ∈ (s.calls.find? call).bind MarketCall.returning, ∀ listing ∈ _, _))
  | .createListing _ _ => .isTrue trivial
  | .registerWorker _ _ _ => .isTrue trivial
  | .heartbeatWorker _ _ _ => .isTrue trivial
  | .expireStaleWorkers _ _ _ => .isTrue trivial
  | .createBooking _ _ => .isTrue trivial
  | .submitPayment _ _ _ => .isTrue trivial
  | .payPaymentFromBalance _ _ _ => .isTrue trivial
  | .releaseBooking _ _ => .isTrue trivial

/-- A call that returns a booking has just stored its payment. -/
theorem returning_eq_some {left : MarketCall} {booking : Booking}
    (h : left.returning = some booking) : ∃ payment, left = .book (.putPayment booking payment) := by
  unfold MarketCall.returning at h
  split at h
  · cases h
    exact ⟨_, rfl⟩
  · cases h

/-- A booking that is returned lies within what its listing offers. -/
theorem MarketKept.bookedWithin {mc : MarketConfig} {s : MarketState} (h : MarketKept s)
    (event : MarketEvent) : BookedWithin mc s event := by
  cases event with
  | next call now =>
    intro booking hbooking listing hfind
    obtain ⟨left, hcall, hreturning⟩ := Option.bind_eq_some_iff.mp hbooking
    obtain ⟨payment, rfl⟩ := returning_eq_some hreturning
    have hmarket : (marketStep mc s (.next call now)).market =
        { s.market with payments := s.market.payments.upsert payment.paymentId payment } := by
      simp only [marketStep]
      rw [hcall]
      rfl
    rw [hmarket] at hfind
    unfold MarketState.reserved
    rw [hmarket]
    -- the call is still counted among those that book, so the second bound of the listing applies
    have hroom := (h.listing _ listing hfind).booking
      ⟨(call, _), Sql.Table.find?_eq_some_iff.mp hcall, rfl⟩
    have hpending := pending_nonneg h booking.listingId
    exact le_of_add_le_of_nonneg_left hroom hpending
  | _ => trivial

/-- So it is along a run. -/
theorem bookedWithin_of_run {mc : MarketConfig} (events : List MarketEvent) {s : MarketState}
    (h : MarketKept s) (hrun : EachStep (marketStep mc) (InTurn mc) s events) :
    EachStep (marketStep mc) (BookedWithin mc) s events := by
  induction events generalizing s with
  | nil => trivial
  | cons event rest ih =>
    obtain ⟨hturn, hrest⟩ := hrun
    exact ⟨h.bookedWithin event, ih (h.step hturn) hrest⟩

/-- **No overbooking**: in every run of such transactions, when a `create_booking` returns, the units
that the bookings of the listing reserve are at most its total. -/
theorem not_overbooked_of_run (mc : MarketConfig) (events : List MarketEvent)
    (hrun : EachStep (marketStep mc) (InTurn mc) .start events) :
    EachStep (marketStep mc) (BookedWithin mc) .start events :=
  bookedWithin_of_run events .start hrun

/-! ## Two units -/

/-- A stand-in for SHA-256: the digest of a text is what its first key has, or begins with. -/
def keylessMarket : MarketConfig :=
  { localMarket with sha256Text := fun text => String.ofList ((text.toList.drop 15).take 6) }

/-- A booking of as many units, for the account. -/
def bookingOf (accountId : String) (units : ℤ) (hunits : 1 ≤ units) : BookingCreateRequest :=
  { localBooking with
    accountId := some accountId
    units
    one_le_units := hunits }

/-- A worker offers one unit at least. -/
theorem one_le_oneUnit : (1 : ℤ) ≤ 1 := le_rfl

/-- Two units are one at least. -/
theorem one_le_bothUnits : (1 : ℤ) ≤ 2 := by decide

/-- A worker of two units registers. -/
def twoUnits : List MarketEvent :=
  .registerWorker 0 localRegistration 0 :: List.replicate 5 (.next 0 0)

/-- Both units are booked, one after the other. -/
def inTurnRun : List MarketEvent :=
  twoUnits ++ .createBooking 1 (bookingOf "ann" 1 one_le_oneUnit) :: List.replicate 4 (.next 1 1) ++
    .createBooking 2 (bookingOf "bob" 1 one_le_oneUnit) :: List.replicate 4 (.next 2 2)

/-- Two bookings that take turns. -/
theorem not_overbooked_local :
    EachStep (marketStep keylessMarket) (InTurn keylessMarket) .start inTurnRun ∧
      EachStep (marketStep keylessMarket) (BookedWithin keylessMarket) .start inTurnRun := by
  have h : EachStep (marketStep keylessMarket) (InTurn keylessMarket) .start inTurnRun := by
    decide +kernel
  exact ⟨h, not_overbooked_of_run keylessMarket inTurnRun h⟩

/-- Two bookings of both units read the listing, then each of them writes, the last put of the second
aside. -/
def overbookedRun : List MarketEvent :=
  twoUnits ++ [.createBooking 1 (bookingOf "ann" 2 one_le_bothUnits),
    .createBooking 2 (bookingOf "bob" 2 one_le_bothUnits), .next 1 1, .next 2 2] ++
      List.replicate 3 (.next 1 1) ++ List.replicate 2 (.next 2 2)

/-- Both bookings get the same two units. -/
theorem units_booked_twice :
    ¬ ∀ (mc : MarketConfig) (events : List MarketEvent),
      EachStep (marketStep mc) (BookedWithin mc) .start events := by
  intro hall
  have hrun := hall keylessMarket (overbookedRun ++ [.next 2 2])
  have hlast : BookedWithin keylessMarket (overbookedRun.foldl (marketStep keylessMarket) .start)
      (.next 2 2) := (eachStep_append.mp hrun).2.1
  revert hlast
  decide +kernel

end Picoin.Market
