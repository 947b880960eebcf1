import NewlifeCore.Facility.OneTimeOverride

/-!
# The Timetable

`timetable_projection.py` and `AvailabilityService.get_rooms_availability`: a room's day as 48
half-hour cells, the free intervals merged from them and, for a Ministry, the events that occupy
the room.

Every time of the result is the instant that `format_local_hm` writes as local `HH:MM`.  Room
names, capacities and photographs pass through unread and are left out.
-/

namespace NewlifeCore

open Txn Prog

/-! ## 1. Constants and results -/

def timetableCellMinutes : Int := 30

def timetableCellsPerDay : Nat := 48

inductive TimetableCellState
  | available
  | unavailable
  | override
  | closed
deriving DecidableEq, Repr

inductive TimetableOccupancyKind
  | ministry
  | rental
deriving DecidableEq, Repr

/-- `OpenInterval`, and every other pair of instants: a start and an end. -/
abbrev Interval := Int × Int

/-- `OccupancyInterval`. -/
structure OccupancyInterval where
  bookingId : UUID
  startAt : Int
  endAt : Int
  bookingStartAt : Int
  ministryId : Option UUID
  ministryName : Option String
  contactDisplayName : Option String
  contactEmail : Option String

/-- `ProjectedEvent`. -/
structure ProjectedEvent where
  startAt : Int
  endAt : Int
  occupancyKind : TimetableOccupancyKind
  isOverridable : Bool
  ministryName : Option String
  contactDisplayName : Option String
  contactEmail : Option String
  bookingId : Option UUID

/-- `RoomAvailabilityTemplateResult`. -/
structure RoomAvailabilityTemplate where
  startAt : Int
  endAt : Int
  slotDurationMinutes : Int

/-- `RoomAvailabilityCellResult`. -/
structure RoomAvailabilityCell where
  startAt : Int
  endAt : Int
  state : TimetableCellState
  eventIndices : List Nat

/-- `RoomAvailabilityEventResult`. -/
structure RoomAvailabilityEvent where
  startAt : Int
  endAt : Int
  occupancyKind : TimetableOccupancyKind
  isOverridable : Bool
  ministryName : Option String
  contactDisplayName : Option String
  contactEmail : Option String

/-- `DayAvailabilityResult`. -/
structure DayAvailability where
  am : List Interval
  pm : List Interval

/-- `RoomAvailabilityResult`. -/
structure RoomAvailability where
  id : UUID
  isActive : Bool
  templates : List RoomAvailabilityTemplate
  cells : List RoomAvailabilityCell
  events : List RoomAvailabilityEvent
  availability : DayAvailability

/-- `RoomAvailabilityListResult`. -/
structure RoomAvailabilityList where
  date : Int
  items : List RoomAvailability
  maxBookingLines : Int

/-- `RoomAvailabilityQueryCommand`. -/
structure RoomAvailabilityQueryCommand where
  targetDate : Int
  ministryId : Option UUID := none

/-! ## 2. `timetable_projection.py` -/

/-- The cells of a day: 48 half hours from its local midnight. -/
def dayCellBounds (day : Int) (tz : Zone) : List Interval :=
  (List.range timetableCellsPerDay).map fun index : Nat =>
    (tz.startOfDay day + timetableCellMinutes * minuteMicros * index,
      tz.startOfDay day + timetableCellMinutes * minuteMicros * (index + 1))

def intervalsOverlap (a b : Interval) : Bool := a.1 < b.2 && a.2 > b.1

def clipInterval (i : Interval) (windows : List Interval) : List Interval :=
  (windows.map fun w => (max i.1 w.1, min i.2 w.2)).filter fun seg => seg.1 < seg.2

/-- An item that a Priority Ministry may displace. -/
def isOverridable (isPriority : Bool) (nowUtc : Int) (item : OccupancyInterval) : Bool :=
  item.ministryId.isNone && isPriority && item.bookingStartAt > nowUtc

def classifyCell (cell : Interval) (openWindows : List Interval)
    (occupancies : List OccupancyInterval) (isPriority : Bool) (nowUtc : Int) :
    TimetableCellState :=
  let openParts := clipInterval cell openWindows
  if openParts.isEmpty then .closed
  else
    let overlapping := occupancies.filter fun item =>
      openParts.any fun part => intervalsOverlap part (item.startAt, item.endAt)
    if overlapping.isEmpty then .available
    else
      let overridable := overlapping.filter (isOverridable isPriority nowUtc)
      if !overridable.isEmpty && overridable.length = overlapping.length then .override
      else .unavailable

def roomHasOfferedTime (openWindows : List Interval) : Bool := openWindows.any fun w => w.1 < w.2

def roomHasUsableFreeInterval (cellStates : List TimetableCellState) : Bool :=
  cellStates.any fun state => state = .available

def shouldIncludeRoom (isMinistryContext : Bool) (openWindows : List Interval)
    (cellStates : List TimetableCellState) : Bool :=
  if !roomHasOfferedTime openWindows then false
  else if isMinistryContext then true
  else roomHasUsableFreeInterval cellStates

/-- The loop of `merge_contiguous_free_slots`, the run of Available cells in hand. -/
def mergeFreeFrom (current : Option Interval) :
    List (Interval × TimetableCellState) → List Interval
  | [] => current.toList
  | (cell, state) :: rest =>
    if state ≠ .available then current.toList ++ mergeFreeFrom none rest
    else mergeFreeFrom (some (current.elim cell.1 Prod.fst, cell.2)) rest

def mergeContiguousFreeSlots (cellBounds : List Interval)
    (cellStates : List TimetableCellState) : List Interval :=
  mergeFreeFrom none (cellBounds.zip cellStates)

/-- The events of one item: a segment in each window it reaches. -/
def projectItem (openWindows : List Interval) (isPriority : Bool) (nowUtc : Int)
    (item : OccupancyInterval) : List ProjectedEvent :=
  (clipInterval (item.startAt, item.endAt) openWindows).map fun seg =>
    { startAt := seg.1
      endAt := seg.2
      occupancyKind := if item.ministryId.isSome then .ministry else .rental
      isOverridable := isOverridable isPriority nowUtc item
      ministryName := if item.ministryId.isSome then item.ministryName else none
      contactDisplayName := item.contactDisplayName
      contactEmail := item.contactEmail
      bookingId := some item.bookingId }

/-- The sort key of an event. -/
def ProjectedEvent.le (a b : ProjectedEvent) : Prop :=
  a.startAt < b.startAt ∨ a.startAt = b.startAt ∧
    (a.endAt < b.endAt ∨ a.endAt = b.endAt ∧ a.bookingId.getD 0 ≤ b.bookingId.getD 0)

instance : DecidableRel ProjectedEvent.le := fun _ _ =>
  inferInstanceAs (Decidable (_ ∨ _ ∧ (_ ∨ _ ∧ _)))

def projectMinistryEvents (occupancies : List OccupancyInterval) (openWindows : List Interval)
    (isPriority : Bool) (nowUtc : Int) : List ProjectedEvent :=
  (occupancies.flatMap (projectItem openWindows isPriority nowUtc)).insertionSort ProjectedEvent.le

/-! ## 3. Open windows -/

namespace AvailabilityService

/-- `_combine_local`. -/
def combineLocal (day : Int) (value : TimeOfDay) (tz : Zone) : Int :=
  tz.toUtc (WallClock.combine day value)

/-- What one Blackout leaves of a segment. -/
def subtractBlackout (blackout seg : Interval) : List Interval :=
  if !intervalsOverlap seg blackout then [seg]
  else (if seg.1 < blackout.1 then [(seg.1, min seg.2 blackout.1)] else []) ++
    (if blackout.2 < seg.2 then [(max seg.1 blackout.2, seg.2)] else [])

def buildOpenWindows (day : Int) (templates : List RoomSlotTemplate)
    (blackouts : List RoomBlackout) (tz : Zone) : List Interval :=
  let merged := mergeOpenWindows ((templates.map fun t =>
    (combineLocal day t.startTime tz, combineLocal day t.endTime tz)).filter fun w => w.1 < w.2)
  if blackouts.isEmpty then merged
  else merged.flatMap fun window =>
    (blackouts.foldl (fun segments b => segments.flatMap
      (subtractBlackout (combineLocal day b.startTime tz, combineLocal day b.endTime tz)))
      [window]).filter fun seg => seg.1 < seg.2

/-! ## 4. Occupancy -/

/-- The status of a Ministry that was looked up, or else of one that is not deleted. -/
def ministryStatus (ministryId : UUID) (ministry : Option OrgMinistry) :
    Portal (Option MinistryStatus) :=
  match ministry with
  | some m => pure (some m.status)
  | none => MinistryRepository.getStatus ministryId

/-- `_resolve_ministry_context`: whether the caller looks for a Ministry, and a Priority one. -/
def resolveMinistryContext (r : Request) (ministryId : Option UUID) : Portal (Bool × Bool) :=
  match ministryId with
  | none => pure (false, false)
  | some ministryId => do
    let ministry ← MinistryRepository.getById ministryId
    let status ← ministryStatus ministryId ministry
    raiseIf (status ≠ some .active) (badRequest "Ministry must be active for booking")
    match r.operatorId with
    | none => raise (forbidden "Authenticated user required for ministry booking")
    | some userId => do
      let member ← MinistryRepository.isUserBookingMember ministryId userId
      raiseIf (!member) (forbidden "User is not a ministry owner")
      pure (true, ministry.any OrgMinistry.hasPriorityBooking)

/-- A Ministry's name where the row has none. -/
def ministryNameOf (row : OccupyingBooking) (ministryId : UUID) : Portal (Option String) :=
  match pyOr row.ministryName none with
  | some name => pure (some name)
  | none => do
    let ministry ← MinistryRepository.getById ministryId
    pure (ministry.bind OrgMinistry.name)

/-- The steward contacts looked up so far, and the intervals. -/
abbrev DayOccupancy := List (UUID × Option String × Option String) × List OccupancyInterval

/-- One row of the day: the Booking's own interval, with the contact its viewer may see. -/
def addOccupancy (isMinistryContext isPriority : Bool) (s : DayOccupancy) (row : OccupyingBooking) :
    Portal DayOccupancy :=
  let interval ministryName contactDisplayName contactEmail : OccupancyInterval :=
    { bookingId := row.bookingId, startAt := row.startAt, endAt := row.endAt
      bookingStartAt := row.startAt, ministryId := row.ministryId
      ministryName, contactDisplayName, contactEmail }
  if !isMinistryContext then pure (s.1, s.2 ++ [interval row.ministryName none none])
  else
    match row.ministryId with
    | some ministryId => do
      let ministryName ← ministryNameOf row ministryId
      let (contacts, contact) ← stewardContact ministryId s.1
      pure (contacts, s.2 ++ [interval ministryName contact.1 contact.2])
    | none =>
      let showBooker := !isPriority
      pure (s.1, s.2 ++ [interval row.ministryName
        (if showBooker then row.bookerDisplayName else none)
        (if showBooker then row.bookerEmail else none)])

def occupancyForRoomDay (facilityId : UUID) (day : Int) (tz : Zone)
    (isMinistryContext isPriority : Bool) : Portal (List OccupancyInterval) := do
  let dayStart := combineLocal day .midnight tz
  let rows ← BookingRepository.listOccupyingSlots facilityId dayStart (dayStart + dayMicros)
  let s ← foldEach rows ([], []) (addOccupancy isMinistryContext isPriority)
  pure s.2

/-! ## 5. `get_rooms_availability` -/

def ampmFromFreeSlots (freeSlots : List Interval) (tz : Zone) : DayAvailability where
  am := freeSlots.filter fun slot => WallClock.time (tz.toLocal slot.1) < .noon
  pm := freeSlots.filter fun slot => !(WallClock.time (tz.toLocal slot.1) < .noon)

/-- The events a cell shows, by their place in the list. -/
def eventIndices (projected : List ProjectedEvent) (cell : Interval) : List Nat :=
  (projected.zipIdx.filter fun p => intervalsOverlap cell (p.1.startAt, p.1.endAt)).map Prod.snd

/-- What the loop over the rooms works with. -/
structure DayView where
  day : Int
  tz : Zone
  nowUtc : Int
  isMinistryContext : Bool
  isPriority : Bool

def DayView.cellStates (d : DayView) (openWindows : List Interval)
    (occupancies : List OccupancyInterval) : List TimetableCellState :=
  (dayCellBounds d.day d.tz).map fun cell =>
    classifyCell cell openWindows occupancies d.isPriority d.nowUtc

/-- The item of a room, from what was read of its day. -/
def DayView.roomItem (d : DayView) (room : FacilityRoom) (templates : List RoomSlotTemplate)
    (openWindows : List Interval) (occupancies : List OccupancyInterval) : RoomAvailability :=
  let projected := if d.isMinistryContext then
    projectMinistryEvents occupancies openWindows d.isPriority d.nowUtc else []
  let cellBounds := dayCellBounds d.day d.tz
  { id := room.id
    isActive := room.isActive
    templates := templates.map fun t =>
      ⟨combineLocal d.day t.startTime d.tz, combineLocal d.day t.endTime d.tz,
        max 15 (if t.slotDurationMinutes = 0 then 60 else t.slotDurationMinutes)⟩
    cells := (cellBounds.zip (d.cellStates openWindows occupancies)).map fun p =>
      ⟨p.1.1, p.1.2, p.2, eventIndices projected p.1⟩
    events := projected.map fun e => ⟨e.startAt, e.endAt, e.occupancyKind, e.isOverridable,
      e.ministryName, e.contactDisplayName, e.contactEmail⟩
    availability := ampmFromFreeSlots
      (mergeContiguousFreeSlots cellBounds (d.cellStates openWindows occupancies)) d.tz }

/-- One turn of the loop over the rooms. -/
def roomAvailability (d : DayView) (room : FacilityRoom) : Portal (Option RoomAvailability) := do
  let active ← RoomSlotTemplateRepository.listActiveForDay room.id (Date.weekday d.day)
  let templates := filterApplicableTemplates active d.day
  let blackouts ← RoomBlackoutRepository.listActiveForRoomDay room.id d.day
  let openWindows := buildOpenWindows d.day templates blackouts d.tz
  let occupancies ← occupancyForRoomDay room.id d.day d.tz d.isMinistryContext d.isPriority
  if shouldIncludeRoom d.isMinistryContext openWindows (d.cellStates openWindows occupancies) then
    pure (some (d.roomItem room templates openWindows occupancies))
  else pure none

def getRoomsAvailability (app : App) (r : Request) (command : RoomAvailabilityQueryCommand) :
    Portal RoomAvailabilityList := do
  let tz ← SettingService.getFacilityTimezone app
  let nowUtc ← now
  let day := command.targetDate
  raiseIf (day < tz.localDate nowUtc)
    (badRequest "Date must be today or later" (some .availabilityDateInPast))
  let (isMinistryContext, isPriority) ← resolveMinistryContext r command.ministryId
  let maxBookingLines ← SettingService.getMaxBookingLines
  let rooms ← RoomRepository.listActive
  let items ← mapEach rooms
    (roomAvailability { day, tz, nowUtc, isMinistryContext, isPriority })
  pure { date := day, items := items.filterMap id, maxBookingLines }

/-! ## 6. The Timetable only reads -/

theorem ministryStatus_readOnly (ministryId : UUID) (ministry : Option OrgMinistry) :
    ReadOnly (ministryStatus ministryId ministry) := by
  cases ministry with
  | none => exact ReadOnly.select _
  | some m => trivial

theorem resolveMinistryContext_readOnly (r : Request) (ministryId : Option UUID) :
    ReadOnly (resolveMinistryContext r ministryId) := by
  cases ministryId with
  | none => trivial
  | some m =>
    refine ReadOnly.bind (fun ministry => ReadOnly.bind (fun _ => ReadOnly.bind (fun _ => ?_)
      (ReadOnly.raiseIf _ _)) (ministryStatus_readOnly _ _)) (ReadOnly.select _)
    split
    · trivial
    · exact ReadOnly.bind (fun _ => ReadOnly.bind (fun _ => ReadOnly.ret _)
        (ReadOnly.raiseIf _ _)) (ReadOnly.select _)

theorem ministryNameOf_readOnly (row : OccupyingBooking) (ministryId : UUID) :
    ReadOnly (ministryNameOf row ministryId) := by
  unfold ministryNameOf
  split
  · trivial
  · exact ReadOnly.bind (fun _ => ReadOnly.ret _) (ReadOnly.select _)

theorem addOccupancy_readOnly (isMinistryContext isPriority : Bool) (s : DayOccupancy)
    (row : OccupyingBooking) : ReadOnly (addOccupancy isMinistryContext isPriority s row) := by
  unfold addOccupancy
  dsimp only
  split
  · trivial
  · cases row.ministryId with
    | none => trivial
    | some m =>
      exact ReadOnly.bind (fun _ => ReadOnly.bind (fun _ => ReadOnly.ret _)
        (stewardContact_readOnly _ _)) (ministryNameOf_readOnly _ _)

theorem occupancyForRoomDay_readOnly (facilityId : UUID) (day : Int) (tz : Zone)
    (isMinistryContext isPriority : Bool) :
    ReadOnly (occupancyForRoomDay facilityId day tz isMinistryContext isPriority) :=
  ReadOnly.bind (fun _ => ReadOnly.bind (fun _ => ReadOnly.ret _)
    (ReadOnly.foldEach (addOccupancy_readOnly _ _) _ _)) (ReadOnly.select _)

theorem roomAvailability_readOnly (d : DayView) (room : FacilityRoom) :
    ReadOnly (roomAvailability d room) := by
  refine ReadOnly.bind (fun _ => ReadOnly.bind (fun _ => ReadOnly.bind (fun _ => ?_)
    (occupancyForRoomDay_readOnly _ _ _ _ _)) (ReadOnly.select _)) (ReadOnly.select _)
  split <;> trivial

end AvailabilityService

end NewlifeCore
