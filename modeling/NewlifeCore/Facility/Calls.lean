import NewlifeCore.Facility.BookingDraftService
import NewlifeCore.Facility.RoomBlackoutService
import NewlifeCore.Txn.Solo

/-!
# Calls

The service methods that write Bookings, Series or Blackouts, as the labels of transactions.  A
call is a request and what it asks for; `Call.body` runs the method and drops its result.
-/

namespace NewlifeCore

open Txn Prog

inductive Operation
  | createBooking (command : CreateBookingCommand)
  | createSeries (command : CreateRecurringBookingSeriesCommand)
  | confirmPayment (seriesId : UUID)
  | cancelBooking (bookingId : UUID) (command : CancelBookingCommand)
  | cancelMyBooking (bookingId : UUID) (command : CancelBookingCommand)
  | cancelSeries (seriesId : UUID) (command : CancelRecurringBookingSeriesCommand)
  | cancelMySeries (seriesId : UUID) (command : CancelRecurringBookingSeriesCommand)
  | expirePendingHolds
  | createBlackout (command : CreateRoomBlackoutCommand)
  | updateBlackout (blackoutId : UUID) (command : UpdateRoomBlackoutCommand)
  | deleteBlackout (blackoutId : UUID) (command : DeleteCommand)
  | restoreBlackout (blackoutId : UUID)

structure Call where
  request : Request
  operation : Operation

/-- Runs a method for its effect. -/
def discard {α : Type} (p : Portal α) : Portal Unit := p.bind fun _ => pure ()

/-- **What a call runs.** -/
def Call.body (app : App) (c : Call) : Portal Unit :=
  match c.operation with
  | .createBooking command => discard (BookingService.createBooking app c.request command)
  | .createSeries command => discard (RecurringBookingService.createSeries app c.request command)
  | .confirmPayment id => discard (RecurringBookingService.confirmPayment c.request id)
  | .cancelBooking id command => BookingService.cancelBooking c.request id command
  | .cancelMyBooking id command => BookingService.cancelMyBooking c.request id command
  | .cancelSeries id command => discard (RecurringBookingService.cancelSeries c.request id command)
  | .cancelMySeries id command =>
    discard (RecurringBookingService.cancelMySeries c.request id command)
  | .expirePendingHolds => discard RecurringBookingService.expirePendingHolds
  | .createBlackout command => discard (RoomBlackoutService.createBlackout app c.request command)
  | .updateBlackout id command => RoomBlackoutService.updateBlackout id command
  | .deleteBlackout id command => RoomBlackoutService.deleteBlackout id command
  | .restoreBlackout id => RoomBlackoutService.restoreBlackout id

/-- A portal that knows one zone, UTC, and whose review tokens nobody can forge or read. -/
def App.utc : App where
  zoneInfo _ := some Zone.utc
  isProd := false
  review := ⟨id, id, fun _ => "payload", fun _ => none⟩

/-- A request of a signed-in user that draws consecutive identifiers from `n` on. -/
def Request.numbered (userId n : UUID) : Request where
  user := some { userId := some userId }
  ids := { series := n, booking := fun i => n + i, bookingRoom := fun i j => n + 10 * i + j
           bookingSlot := fun i j => n + 10 * i + j, overrideLog := fun i => n + i, blackout := n }

/-- A portal with one room, open all day and let at 20 an hour, and two church members. -/
def Db.oneRoom : Db where
  rooms := [{ id := 3 }]
  users := [{ id := 7, email := "choir@efcnewlife.org" }, { id := 8, email := "youth@efcnewlife.org" }]
  slotTemplates := [{ id := 1, facilityId := 3, daysOfWeekMask := 127, startTime := .midnight
                      endTime := .endOfDay, slotDurationMinutes := 60 }]
  rateTemplates := [{ id := 1, name := "standard", billingUnit := "hourly", unitAmount := 20
                      isDefault := true }]
  settings := [
    { settingKey := "timezone", valueType := "string", value := .str "UTC" },
    { settingKey := "max_booking_lines", valueType := "number", value := .int 2 },
    { settingKey := "pending_payment_hold_days", valueType := "number", value := .int 14 },
    { settingKey := "min_recurring_booking_weeks", valueType := "number", value := .int 1 },
    { settingKey := "recurring_booking_availability_window", valueType := "object"
      value := .obj [("amount", .int 6), ("unit", .str "months")] }]

theorem choir_length : 1 ≤ "choir".length ∧ "choir".length ≤ 30 := by decide

theorem oneOClock_inDay : 0 ≤ 13 * hourMicros + 0 * minuteMicros + 0 * 1000000 ∧
    13 * hourMicros + 0 * minuteMicros + 0 * 1000000 < dayMicros := by decide

/-- That room for an hour at noon of a day. -/
def bookNoon (day : Int) : CreateBookingCommand where
  title := some ⟨"choir", choir_length⟩
  startAt := WallClock.combine day .noon
  endAt := WallClock.combine day .noon + hourMicros
  rooms := [{ facilityId := 3, sequence := 0 }]

/-- That room at noon, weekly between two days. -/
def bookWeekly (first last : Int) : CreateRecurringBookingSeriesCommand where
  title := some ⟨"choir", choir_length⟩
  firstOccurrenceDate := first
  lastOccurrenceDate := last
  localStartTime := .noon
  localEndTime := .ofHms 13 0 0 oneOClock_inDay
  rooms := [{ facilityId := 3, sequence := 0 }]

/-- The portal's database with its open transactions. -/
abbrev PortalSys := Sys Db RowName LockKey ApiError Call

end NewlifeCore
