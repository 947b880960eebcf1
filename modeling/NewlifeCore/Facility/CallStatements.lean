import NewlifeCore.Facility.Occupancy

/-!
# What the calls are made of

Whether a call waits for a lock, touches a Draft or adds a Booking is settled statement by
statement, and the way its method puts the statements together is the same each time.  So the
methods are walked once, for any property of programs that composes.

* `OfStatements` lists the statements that add no Booking, each with what is known where the methods
  issue it, and `OfStatements.body` is the walk through the calls made of these alone.
* `OnTables` asks less of the walk and more of the property: any statement on the tables of Bookings
  has it.  Then the writes of a creation have it too: `insertWithLines`, and the displacement
  `applyWholeBookingOverrides`.
-/

namespace NewlifeCore

open Txn Prog RecurringBookingService

variable {P : ∀ α : Type, Portal α → Prop} {c : Call}

/-! ## 1. The calls that add no Booking -/

/-- The calls that add Bookings. -/
def Call.isCreation (c : Call) : Bool :=
  match c.operation with
  | .createBooking _ => true
  | .createSeries _ => true
  | _ => false

/-- **The statements that add no Booking**, as the methods of `c` issue them. -/
structure OfStatements (c : Call) (P : ∀ α : Type, Portal α → Prop) : Prop extends
    Compositional P where
  closeHeader : ∀ {status : BookingStatus}, isLive status = false →
    ∀ (bookingId : UUID) (now : Int) (byId : Option UUID) (reason : Option String),
      P Unit (BookingRepository.closeHeader bookingId status now byId reason)
  cancelSlots : ∀ bookingId : UUID, P Unit (BookingRepository.cancelSlots bookingId)
  /-- A payment hold is cleared by the calls for it only. -/
  updateSeries : ∀ (seriesId : UUID) (values : BookingSeries → BookingSeries)
    (hid : ∀ s, (values s).id = s.id), (c.clearsHolds = true ∨
      ∀ s, (values s).paymentHoldExpiresAt = s.paymentHoldExpiresAt) →
    P Unit (RecurringBookingRepository.updateSeries seriesId values hid)
  confirmPendingSeriesBookings : ∀ {seriesId : UUID}, c.operation = .confirmPayment seriesId →
    ∀ operatorId : Option UUID,
      P Unit (BookingRepository.confirmPendingSeriesBookings seriesId operatorId)
  tryAcquireSweepLock : P Bool RecurringBookingRepository.tryAcquireSweepLock
  insertLogs : ∀ rows : List BookingOverrideLog, P Unit (OverrideLogRepository.insertLogs rows)
  insertBlackout : ∀ b : RoomBlackout, P Unit (RoomBlackoutRepository.insertBlackout b)
  updateBlackout : ∀ (blackoutId : UUID) (values : RoomBlackout → RoomBlackout)
    (hid : ∀ b, (values b).id = b.id),
    P Nat (RoomBlackoutRepository.updateBlackout blackoutId values hid)
  deleteHard : ∀ blackoutId : UUID, P Unit (RoomBlackoutRepository.deleteHard blackoutId)
  deleteSoft : ∀ (blackoutId : UUID) (reason : Option String),
    P Unit (RoomBlackoutRepository.deleteSoft blackoutId reason)
  restoreBlackout : ∀ blackoutId : UUID, P Unit (RoomBlackoutRepository.restoreBlackout blackoutId)

theorem Txn.Prog.Compositional.discard (hP : Compositional P) {α : Type} {p : Portal α}
    (hp : P α p) : P Unit (discard p) := hP.bind (fun _ => hP.ret _) hp

namespace OfStatements

variable (h : OfStatements c P)
include h

/-! ### 1.1 Writes -/

theorem cancelBooking (bookingId : UUID) (byId : Option UUID) (reason : Option String)
    (withSlots : Bool) :
    P Unit (BookingRepository.cancelBooking bookingId byId reason withSlots) := by
  refine h.checked ReadOnly.now fun _ => ?_
  refine h.bind (fun _ => ?_) (h.closeHeader rfl _ _ _ _)
  split
  · exact h.cancelSlots _
  · exact h.ret _

theorem cancelOccurrences (ids : List UUID) (byId : Option UUID) (reason : Option String) :
    P Unit (cancelOccurrences ids byId reason) :=
  h.each (fun _ => h.cancelBooking _ _ _ _) ids

theorem closeSeriesIf (hc : c.clearsHolds = true) (seriesId operatorId : UUID)
    (operatorName : String) (close : Bool) (status : BookingStatus) :
    P Unit (closeSeriesIf seriesId operatorId operatorName close status) := by
  unfold RecurringBookingService.closeSeriesIf
  split
  · exact h.updateSeries _ _ _ (.inl hc)
  · exact h.ret _

theorem overrideEach (operatorId : UUID) : ∀ (replacements : List (UUID × OverrideTarget))
    (overriddenIds : List UUID), P Unit (overrideEach operatorId overriddenIds replacements)
  | [], _ => h.ret _
  | (_, target) :: rest, overriddenIds => by
    unfold NewlifeCore.overrideEach
    split
    · exact overrideEach operatorId rest overriddenIds
    · refine h.bind (fun _ => overrideEach operatorId rest _) (h.checked ReadOnly.now fun _ => ?_)
      exact h.bind (fun _ => h.cancelSlots _) (h.closeHeader rfl _ _ _ _)

theorem applyWholeBookingOverrides (replacements : List (UUID × OverrideTarget))
    (operatorId : UUID) (logId : Nat → UUID) :
    P Unit (applyWholeBookingOverrides replacements operatorId logId) := by
  refine h.bind (fun _ => ?_) (h.overrideEach operatorId replacements [])
  dsimp only
  split
  · exact h.ret _
  · exact h.insertLogs _

/-! ### 1.2 Methods -/

theorem confirmPayment (r : Request) {seriesId : UUID}
    (hc : c.operation = .confirmPayment seriesId) : P SeriesResult (confirmPayment r seriesId) := by
  have hclears : c.clearsHolds = true := by simp [Call.clearsHolds, hc]
  refine h.checked (BookingService.authenticatedUser_readOnly r) fun operatorId => ?_
  refine h.checked (requireSeries_readOnly seriesId) fun series => ?_
  refine h.checked (listSeriesOccurrences_readOnly seriesId) fun occurrences => ?_
  split
  · exact h.ret _
  · refine h.checked ReadOnly.now fun nowUtc => ?_
    refine h.checked (ReadOnly.raiseIf _ _) fun _ => ?_
    refine h.bind (fun _ => ?_) (h.updateSeries _ _ _ (.inl hclears))
    refine h.bind (fun _ => ?_) (h.confirmPendingSeriesBookings hc _)
    exact h.checked (listSeriesOccurrences_readOnly seriesId) fun _ => h.ret _

theorem cancelOneBooking (r : Request) (bookingId : UUID) (command : CancelBookingCommand) :
    P Unit (BookingService.cancelBooking r bookingId command) :=
  h.checked (ReadOnly.select _) fun _ => h.checked (ReadOnly.raiseIf _ _) fun _ =>
    h.cancelBooking _ _ _ _

theorem cancelMyBooking (r : Request) (bookingId : UUID) (command : CancelBookingCommand) :
    P Unit (BookingService.cancelMyBooking r bookingId command) := by
  refine h.checked (BookingService.authenticatedUser_readOnly r) fun _ => ?_
  refine h.checked (BookingService.requireParticipantBooking_readOnly _ _) fun _ => ?_
  refine h.checked (ReadOnly.raiseIf _ _) fun _ => ?_
  generalize normalizeMemberCancellationReason (command.cancelReason.getD "") = normalized
  refine h.checked (ReadOnly.ofExcept normalized) fun reason => ?_
  exact h.cancelOneBooking _ _ _

theorem applyCancellation (hc : c.clearsHolds = true) (r : Request) (result : SeriesResult)
    (command : CancelRecurringBookingSeriesCommand) :
    P SeriesResult (applyCancellation r result command) := by
  refine h.checked (ReadOnly.raiseIf _ _) fun _ => ?_
  refine h.checked ReadOnly.now fun nowUtc => ?_
  refine h.checked (ReadOnly.ofExcept _) fun targets => ?_
  refine h.checked (BookingService.authenticatedUser_readOnly r) fun operatorId => ?_
  refine h.bind (fun _ => ?_) (h.cancelOccurrences _ _ _)
  refine h.checked (listSeriesOccurrences_readOnly _) fun refreshed => ?_
  refine h.bind (fun _ => ?_) (h.closeSeriesIf hc _ _ _ _ _)
  exact h.readOnly (seriesWithOccurrences_readOnly _)

theorem cancelSeries (hc : c.clearsHolds = true) (r : Request) (seriesId : UUID)
    (command : CancelRecurringBookingSeriesCommand) :
    P SeriesResult (cancelSeries r seriesId command) :=
  h.checked (BookingService.authenticatedUser_readOnly r) fun _ =>
    h.checked (seriesWithOccurrences_readOnly _) fun _ => h.applyCancellation hc _ _ _

theorem cancelMySeries (hc : c.clearsHolds = true) (r : Request) (seriesId : UUID)
    (command : CancelRecurringBookingSeriesCommand) :
    P SeriesResult (cancelMySeries r seriesId command) := by
  refine h.checked (getMySeries_readOnly r seriesId) fun _ => ?_
  refine h.checked (BookingService.authenticatedUser_readOnly r) fun _ => ?_
  refine h.checked (ReadOnly.raiseIf _ _) fun _ => ?_
  generalize normalizeMemberCancellationReason (command.cancelReason.getD "") = normalized
  refine h.checked (ReadOnly.ofExcept normalized) fun reason => ?_
  exact h.applyCancellation hc _ _ _

theorem expirePendingHolds : P ExpirySweep expirePendingHolds := by
  refine h.bind (fun acquired => ?_) h.tryAcquireSweepLock
  cases acquired with
  | false => exact h.ret _
  | true =>
    refine h.checked ReadOnly.now fun nowUtc => ?_
    refine h.checked (ReadOnly.select _) fun expired => ?_
    refine h.bind (fun _ => h.ret _) (h.each (fun series => ?_) expired)
    refine h.checked (listSeriesOccurrences_readOnly _) fun occurrences => ?_
    exact h.bind (fun _ => h.cancelOccurrences _ _ _) (h.updateSeries _ _ _ (.inr fun _ => rfl))

theorem applyImpact (hc : c.clearsHolds = true) (r : Request)
    (items : List BlackoutImpactOccurrence) (reason : String) :
    P Unit (RoomBlackoutService.applyImpact r items reason) := by
  unfold RoomBlackoutService.applyImpact
  split
  · exact h.ret _
  · refine h.bind (fun _ => h.ret _) ?_
    refine h.checked (BookingService.authenticatedUser_readOnly r) fun operatorId => ?_
    refine h.bind (fun _ => ?_) (h.cancelOccurrences _ _ _)
    refine h.checked ReadOnly.now fun nowUtc => ?_
    refine h.bind (fun _ => h.ret _) (h.each (fun seriesId => ?_) _)
    exact h.checked (seriesWithOccurrences_readOnly _) fun _ => h.closeSeriesIf hc _ _ _ _ _

theorem createBlackout (hc : c.clearsHolds = true) (app : App) (r : Request)
    (command : CreateRoomBlackoutCommand) :
    P UUID (RoomBlackoutService.createBlackout app r command) := by
  refine h.checked (RoomBlackoutService.assertRoomExists_readOnly _) fun _ => ?_
  refine h.checked (ReadOnly.ofExcept _) fun checked => ?_
  refine h.checked (RoomBlackoutService.assertNoOverlap_readOnly _ _ _ _) fun _ => ?_
  refine h.checked (RoomBlackoutService.confirmedImpact_readOnly _ _ _) fun items => ?_
  refine h.bind (fun _ => ?_) (h.insertBlackout _)
  exact h.bind (fun _ => h.ret _) (h.applyImpact hc _ _ _)

theorem updateOneBlackout (blackoutId : UUID) (command : UpdateRoomBlackoutCommand) :
    P Unit (RoomBlackoutService.updateBlackout blackoutId command) := by
  refine h.checked (ReadOnly.select _) fun existing => ?_
  refine h.checked (ReadOnly.raiseIf _ _) fun _ => ?_
  refine h.checked (RoomBlackoutService.assertRoomExists_readOnly _) fun _ => ?_
  refine h.checked (ReadOnly.ofExcept _) fun checked => ?_
  refine h.checked (RoomBlackoutService.assertNoOverlap_readOnly _ _ _ _) fun _ => ?_
  exact h.bind (fun _ => h.readOnly (ReadOnly.raiseIf _ _)) (h.updateBlackout _ _ _)

theorem deleteBlackout (blackoutId : UUID) (command : DeleteCommand) :
    P Unit (RoomBlackoutService.deleteBlackout blackoutId command) := by
  refine h.checked (ReadOnly.select _) fun existing => ?_
  refine h.checked (ReadOnly.raiseIf _ _) fun _ => ?_
  split
  · exact h.deleteHard _
  · exact h.deleteSoft _ _

omit h in
/-- **What these statements have, every other call has.** -/
theorem body {c : Call} (h : OfStatements c P) (app : App) (hc : c.isCreation = false) :
    P Unit (c.body app) := by
  obtain ⟨r, operation⟩ := c
  cases operation with
  | createBooking command => cases hc
  | createSeries command => cases hc
  | confirmPayment id => exact h.discard (h.confirmPayment r rfl)
  | cancelBooking id command => exact h.cancelOneBooking r id command
  | cancelMyBooking id command => exact h.cancelMyBooking r id command
  | cancelSeries id command => exact h.discard (h.cancelSeries rfl r id command)
  | cancelMySeries id command => exact h.discard (h.cancelMySeries rfl r id command)
  | expirePendingHolds => exact h.discard h.expirePendingHolds
  | createBlackout command => exact h.discard (h.createBlackout rfl app r command)
  | updateBlackout id command => exact h.updateOneBlackout id command
  | deleteBlackout id command => exact h.deleteBlackout id command
  | restoreBlackout id => exact h.restoreBlackout id

end OfStatements

/-! ## 2. The tables of Bookings -/

inductive OfBookings : ∀ {α : Type}, Table Db RowName α → Prop
  | bookings : OfBookings bookingTable
  | rooms : OfBookings bookingRoomTable
  | slots : OfBookings bookingSlotTable
  | series : OfBookings seriesTable
  | overrideLogs : OfBookings overrideLogTable
  | blackouts : OfBookings blackoutTable

/-- **A property of whatever is done to the tables of Bookings.** -/
structure OnTables (P : ∀ α : Type, Portal α → Prop) : Prop extends Compositional P where
  insertInto : ∀ {α : Type} {T : Table Db RowName α}, OfBookings T → ∀ (valid : α → Bool)
    (rows : List α), P Unit (insertInto T valid rows)
  updateTable : ∀ {α : Type} {T : Table Db RowName α}, OfBookings T → ∀ (p : α → Bool) (f : α → α)
    (hf : ∀ r, T.name (f r) = T.name r), P Unit (updateTable T p f hf)
  updateTableCount : ∀ {α : Type} {T : Table Db RowName α}, OfBookings T → ∀ (p : α → Bool)
    (f : α → α) (hf : ∀ r, T.name (f r) = T.name r), P Nat (updateTableCount T p f hf)
  deleteFrom : ∀ {α : Type} {T : Table Db RowName α}, OfBookings T → ∀ p : α → Bool,
    P Unit (deleteFrom T p)
  tryAcquire : ∀ l : LockKey, P Bool (tryAcquire l)

namespace OnTables

variable (h : OnTables P)
include h

theorem ofStatements (c : Call) : OfStatements c P where
  toCompositional := h.toCompositional
  closeHeader _ _ _ _ _ := h.updateTable .bookings _ _ _
  cancelSlots _ := h.updateTable .slots _ _ _
  updateSeries _ _ _ _ := h.updateTable .series _ _ _
  confirmPendingSeriesBookings _ _ := h.updateTable .bookings _ _ _
  tryAcquireSweepLock := h.tryAcquire _
  insertLogs rows := by
    unfold OverrideLogRepository.insertLogs
    split
    · exact h.ret _
    · exact h.insertInto .overrideLogs _ _
  insertBlackout _ := h.insertInto .blackouts _ _
  updateBlackout _ _ _ := h.updateTableCount .blackouts _ _ _
  deleteHard _ := h.deleteFrom .blackouts _
  deleteSoft _ _ := h.updateTable .blackouts _ _ _
  restoreBlackout _ := h.updateTable .blackouts _ _ _

theorem insertWithLines (b : Booking) (rooms : List BookingRoom) (slots : List BookingSlot) :
    P Unit (insertWithLines b rooms slots) := by
  have hrooms : P Unit (BookingRepository.replaceBookingRooms b.id rooms) := by
    refine h.bind (fun _ => ?_) (h.deleteFrom .rooms _)
    split
    · exact h.ret _
    · exact h.insertInto .rooms _ _
  have hslots : P Unit (BookingRepository.replaceBookingSlots b.id slots) := by
    refine h.bind (fun _ => ?_) (h.deleteFrom .slots _)
    split
    · exact h.ret _
    · exact h.insertInto .slots _ _
  exact h.bind (fun _ => h.bind (fun _ => hslots) hrooms) (h.insertInto .bookings _ _)

/-- Whichever call displaces. -/
theorem applyWholeBookingOverrides (replacements : List (UUID × OverrideTarget))
    (operatorId : UUID) (logId : Nat → UUID) :
    P Unit (applyWholeBookingOverrides replacements operatorId logId) :=
  (h.ofStatements ⟨.numbered 0 0, .expirePendingHolds⟩).applyWholeBookingOverrides _ _ _

end OnTables

end NewlifeCore
