import Mathlib.Data.List.Sort
import NewlifeCore.Facility.Schema

/-!
# `BookingRepository`

The SQL of `booking_repository.py`: each query a function of the rows and of SQL `now()`, each
write a statement of `Schema`.  Foreign keys are not checked again: a Booking's user exists, so
the inner join on `auth.user` drops no row and only supplies the Booker's contact.

A query hands its rows on in one of two ways.  With a model class, or asked for raw rows, it
returns what is stored.  Without, each value passes through `Converter.format_value` first, and two
kinds of values do not survive it: an amount loses its fraction, and an instant is written as
`%Y-%m-%d %H:%M:%S`, so what the model that takes the row reads back is cut to the whole second.
The two listings of occurrences, and the rows of a Series, are fetched so.  Sorting and filtering
are done by the database, on what is stored.
-/

namespace NewlifeCore

open Txn Prog

/-! ## 1. `Converter.format_value` -/

namespace Converter

/-- `int(value)` of a `Decimal`: the fraction is cut off. -/
def formatDecimal (value : Decimal) : Decimal := (value.num.tdiv value.den : Int)

/-- **Only a whole amount comes back as it was.** -/
theorem formatDecimal_eq_iff {value : Decimal} : formatDecimal value = value ↔ value.den = 1 := by
  constructor
  · intro h
    rw [← h]
    exact Rat.den_intCast _
  · intro h
    have hnum : value.num.tdiv value.den = value.num := by rw [h]; exact Int.tdiv_one _
    rw [formatDecimal, hnum]
    exact Rat.coe_int_num_of_den_eq_one h

example : formatDecimal (301 / 2) = 150 ∧ formatDecimal (-(301 / 2)) = -150 := by decide +kernel

/-- `strftime("%Y-%m-%d %H:%M:%S")` of a datetime, read back: its whole second. -/
def formatInstant (t : Int) : Int := t / secondMicros * secondMicros

theorem formatInstant_le (t : Int) : formatInstant t ≤ t := by
  unfold formatInstant secondMicros
  omega

theorem formatInstant_mono {t t' : Int} (h : t ≤ t') : formatInstant t ≤ formatInstant t' := by
  unfold formatInstant secondMicros
  omega

/-- **Only an instant on a whole second comes back as it was.** -/
theorem formatInstant_eq_iff {t : Int} : formatInstant t = t ↔ t % secondMicros = 0 := by
  unfold formatInstant secondMicros
  omega

end Converter

/-! ## 2. Result rows -/

/-- `RecurringOccupyingBookingResult`. -/
structure OccupyingBooking where
  bookingId : UUID
  userId : UUID
  ministryId : Option UUID
  ministryName : Option String
  facilityIds : List UUID
  startAt : Int
  endAt : Int
  bookerDisplayName : Option String
  bookerEmail : Option String
  seriesId : Option UUID
deriving DecidableEq

/-- `OverrideReleasedIntervalResult`. -/
structure ReleasedInterval where
  facilityId : UUID
  startAt : Int
  endAt : Int
deriving DecidableEq

/-- `BlackoutImpactOccurrenceResult`. -/
structure BlackoutImpactOccurrence where
  id : UUID
  seriesId : UUID
  startAt : Int
  endAt : Int
  status : BookingStatus
  facilityIds : List UUID
  ministryId : Option UUID
deriving DecidableEq

/-- `RecurringBookingOccurrenceResult`. -/
structure OccurrenceResult where
  id : UUID
  title : BookingTitle
  startAt : Int
  endAt : Int
  status : BookingStatus
  quotedAmount : Decimal
  currency : String
  facilityIds : List UUID
  isFreeMinistry : Bool

/-! ## 3. Occupancy -/

/-- The joined `booking_series.payment_hold_expires_at`: null without a Series. -/
def paymentHold (db : Db) (b : Booking) : Option Int :=
  (db.series.find? fun s => b.seriesId = some s.id).bind BookingSeries.paymentHoldExpiresAt

/-- `payment_hold_expires_at IS NULL OR payment_hold_expires_at > now`. -/
def holdRunning (hold : Option Int) (now : Int) : Bool :=
  match hold with
  | none => true
  | some h => now < h

/-- `_active_occupancy_clause`. -/
def activeOccupancy (db : Db) (now : Int) (b : Booking) : Bool :=
  b.status = .confirmed || (b.status = .pendingPayment && holdRunning (paymentHold db b) now)

/-- Half-open intervals that share a moment, as the queries compare them. -/
def overlaps (s₁ e₁ s₂ e₂ : Int) : Bool := s₁ < e₂ && e₁ > s₂

/-- `_display_name_expr`. -/
def displayName (u : AuthUser) : String :=
  match u.preferredName with
  | some n => n
  | none =>
    let full := stripWhere (· = ' ') ((u.firstName.getD "") ++ " " ++ (u.lastName.getD ""))
    if full = "" then u.email else full

def toOccupying (db : Db) (slot : BookingSlot) (b : Booking) : OccupyingBooking where
  bookingId := b.id
  userId := b.userId
  ministryId := b.ministryId
  ministryName := (db.ministries.find? fun m => b.ministryId = some m.id).bind OrgMinistry.name
  facilityIds := [slot.facilityId]
  startAt := b.startAt
  endAt := b.endAt
  bookerDisplayName := (db.users.find? fun u => u.id = b.userId).map displayName
  bookerEmail := (db.users.find? fun u => u.id = b.userId).map AuthUser.email
  seriesId := b.seriesId

/-- The slot and Booking rows a room interval collides with. -/
def occupyingRows (db : Db) (now : Int) (facilityId : UUID) (startAt endAt : Int) :
    List (BookingSlot × Booking) :=
  (db.bookingSlots.filter fun slot => slot.facilityId = facilityId && slot.status = .confirmed &&
      overlaps slot.startAt slot.endAt startAt endAt).flatMap fun slot =>
    (db.bookings.filter fun b => slot.facilityBookingId = b.id && !b.isDeleted &&
      activeOccupancy db now b).map fun b => (slot, b)

/-- A Series occurrence with the rooms of its confirmed slots, where it has one; its interval is
formatted. -/
def impactRow (db : Db) (b : Booking) : Option BlackoutImpactOccurrence :=
  match b.seriesId, (db.bookingSlots.filter fun slot => slot.facilityBookingId = b.id &&
      slot.status = .confirmed).map BookingSlot.facilityId with
  | some seriesId, r :: rs =>
    some ⟨b.id, seriesId, Converter.formatInstant b.startAt, Converter.formatInstant b.endAt,
      b.status, (r :: rs).eraseDups, b.ministryId⟩
  | _, _ => none

namespace BookingRepository

def listOccupyingSlots (facilityId : UUID) (startAt endAt : Int) : Portal (List OccupyingBooking) :=
  select fun db now =>
    (occupyingRows db now facilityId startAt endAt).map fun r => toOccupying db r.1 r.2

/-- No caller of the modelled services passes `exclude_booking_id`. -/
def hasConfirmedSlotOverlap (facilityId : UUID) (startAt endAt : Int) : Portal Bool :=
  select fun db now => !(occupyingRows db now facilityId startAt endAt).isEmpty

/-- Sorted to avoid deadlock. -/
def lockRooms (facilityIds : List UUID) : Portal Unit :=
  each (facilityIds.eraseDups.insertionSort (· ≤ ·)) fun facilityId => acquire (.room facilityId)

/-- Grouped by Booking: the still confirmed slots of each, by start and room. -/
def listLiveSlotIntervals (bookingIds : List UUID) : Portal (UUID → List ReleasedInterval) :=
  select fun db _ bookingId =>
    if bookingId ∈ bookingIds then
      (((db.bookingSlots.filter fun slot => slot.facilityBookingId = bookingId &&
          slot.status = .confirmed).insertionSort fun a b =>
            a.startAt < b.startAt ∨ a.startAt = b.startAt ∧ a.facilityId ≤ b.facilityId).map
        fun slot => ⟨slot.facilityId, slot.startAt, slot.endAt⟩)
    else []

/-- `UPDATE facility.booking SET status, cancelled_at, cancelled_by_id, cancel_reason`. -/
def closeHeader (bookingId : UUID) (status : BookingStatus) (now : Int) (byId : Option UUID)
    (reason : Option String) : Portal Unit :=
  updateTable bookingTable (fun b => b.id = bookingId)
    (fun b => { b with status, cancelledAt := some now, cancelledById := byId,
                       cancelReason := reason }) fun _ => rfl

/-- `UPDATE facility.booking_slot SET status = 'cancelled'`. -/
def cancelSlots (bookingId : UUID) : Portal Unit :=
  updateTable bookingSlotTable (fun slot => slot.facilityBookingId = bookingId)
    (fun slot => { slot with status := .cancelled }) fun _ => rfl

def overrideBooking (bookingId : UUID) (overriddenById : Option UUID) (reason : Option String) :
    Portal Unit := do
  let now ← now
  closeHeader bookingId .overridden now overriddenById reason
  cancelSlots bookingId

def cancelBooking (bookingId : UUID) (cancelledById : Option UUID) (cancelReason : Option String)
    (withSlots : Bool) : Portal Unit := do
  let now ← now
  closeHeader bookingId .cancelled now cancelledById cancelReason
  if withSlots then cancelSlots bookingId else pure ()

def replaceBookingRooms (bookingId : UUID) (rows : List BookingRoom) : Portal Unit := do
  deleteFrom bookingRoomTable fun r => r.facilityBookingId = bookingId
  if rows.isEmpty then pure () else insertInto bookingRoomTable (fun r => r.startAt < r.endAt) rows

def replaceBookingSlots (bookingId : UUID) (rows : List BookingSlot) : Portal Unit := do
  deleteFrom bookingSlotTable fun r => r.facilityBookingId = bookingId
  if rows.isEmpty then pure () else insertInto bookingSlotTable (fun r => r.startAt < r.endAt) rows

def insertBooking (b : Booking) : Portal Unit :=
  insertInto bookingTable (fun r => r.startAt < r.endAt) [b]

def existsById (bookingId : UUID) : Portal Bool :=
  select fun db _ => db.bookings.any fun b => b.id = bookingId && !b.isDeleted

/-- The header columns; the room and slot rows of the detail are read by nothing modelled. -/
def getDetail (bookingId : UUID) : Portal (Option Booking) :=
  select fun db _ => db.bookings.find? fun b => b.id = bookingId && !b.isDeleted

def listRentalOccurrenceStarts (userId : UUID) (rangeStart rangeEnd : Int) : Portal (List Int) :=
  select fun db now =>
    (db.bookings.filter fun b => b.userId = userId && b.ministryId.isNone && !b.isDeleted &&
      activeOccupancy db now b && rangeStart ≤ b.startAt && b.startAt < rangeEnd).map Booking.startAt

/-- One row a Booking, its rooms collected in slot order.  The start that is compared with `now` is
the stored one. -/
def listLiveFutureSeriesOccurrences (now : Int) : Portal (List BlackoutImpactOccurrence) :=
  select fun db sqlNow =>
    ((db.bookings.filter fun b => b.seriesId.isSome && !b.isDeleted && now < b.startAt &&
        activeOccupancy db sqlNow b).insertionSort fun a b =>
          a.startAt < b.startAt ∨ a.startAt = b.startAt ∧ a.id ≤ b.id).filterMap (impactRow db)

/-- `_fetch_facility_lines_by_booking_ids`, the ids only. -/
def facilityLines (bookingIds : List UUID) : Portal (UUID → List UUID) :=
  select fun db _ bookingId =>
    if bookingId ∈ bookingIds then
      ((db.bookingRooms.filter fun r => r.facilityBookingId = bookingId).insertionSort
        fun a b => a.sequence ≤ b.sequence).map BookingRoom.facilityId
    else []

/-- Fetched without a model class: amounts and instants are formatted. -/
def listSeriesOccurrences (seriesId : UUID) : Portal (List OccurrenceResult) := do
  let rows ← select fun db _ =>
    (db.bookings.filter fun b => b.seriesId = some seriesId && !b.isDeleted).insertionSort
      fun a b => a.startAt ≤ b.startAt
  let lines ← facilityLines (rows.map Booking.id)
  pure (rows.map fun b => ⟨b.id, b.title, Converter.formatInstant b.startAt,
    Converter.formatInstant b.endAt, b.status, Converter.formatDecimal b.quotedAmount, b.currency,
    lines b.id, b.isMissionAligned⟩)

def confirmPendingSeriesBookings (seriesId : UUID) (operatorId : Option UUID) : Portal Unit :=
  updateTable bookingTable
    (fun b => b.seriesId = some seriesId && b.status = .pendingPayment && !b.isDeleted)
    (fun b => { b with status := .confirmed, updatedById := operatorId.orElse fun _ => b.updatedById })
    fun _ => rfl

end BookingRepository

end NewlifeCore
