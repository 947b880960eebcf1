import NewlifeCore.Facility.Constants
import NewlifeCore.Txn.Table
import NewlifeCore.Txn.Exec

/-!
# The database

The tables the booking services read and write, a row with the columns they use.  `Db` is one
state of the database; `Portal` is a service method over it.

Rows that a service only reads have no name: nothing locks them.
-/

namespace NewlifeCore

open Txn

/-! ## 1. Rows -/

/-- `facility.booking`. -/
structure Booking where
  id : UUID
  seriesId : Option UUID := none
  userId : UUID
  facilityId : UUID
  ministryId : Option UUID := none
  bookingType : BookingType
  startAt : Int
  endAt : Int
  status : BookingStatus
  isMissionAligned : Bool := false
  billedHours : Decimal := 0
  subtotalAmount : Decimal := 0
  discountPercent : Decimal := 0
  discountAmount : Decimal := 0
  surchargeAmount : Decimal := 0
  quotedAmount : Decimal := 0
  currency : String := "CAD"
  remark : Option String := none
  title : BookingTitle
  cancelledAt : Option Int := none
  cancelledById : Option UUID := none
  cancelReason : Option String := none
  updatedById : Option UUID := none
  isDeleted : Bool := false

/-- The leaves and branches of a rate's `applicability` rule. -/
inductive RuleNode
  | hoursGte (value : Decimal)
  | hoursLt (value : Decimal)
  | hoursRange (min max : Decimal) (maxExclusive : Bool)
  | all (children : List RuleNode)
  | any (children : List RuleNode)
  | not (child : RuleNode)

/-- `facility.booking_room`: a room line with its quote snapshot. -/
structure BookingRoom where
  id : UUID
  facilityBookingId : UUID
  facilityId : UUID
  sequence : Int
  startAt : Int
  endAt : Int
  billedHours : Decimal
  rentalRateName : Option String
  billingUnit : Option String
  unitAmount : Option Decimal
  currency : String
  applicability : Option RuleNode
  isDefault : Bool
  lineSubtotal : Decimal

/-- `facility.booking_slot`: the room interval a Booking occupies. -/
structure BookingSlot where
  id : UUID
  facilityBookingId : UUID
  facilityId : UUID
  startAt : Int
  endAt : Int
  status : BookingSlotStatus
deriving DecidableEq

/-- `facility.booking_series`. -/
structure BookingSeries where
  id : UUID
  userId : UUID
  ministryId : Option UUID := none
  firstOccurrenceDate : Int
  lastOccurrenceDate : Int
  localStartTime : TimeOfDay
  localEndTime : TimeOfDay
  status : BookingStatus
  paymentHoldExpiresAt : Option Int
  billedHours : Decimal := 0
  subtotalAmount : Decimal := 0
  discountPercent : Decimal := 0
  discountAmount : Decimal := 0
  surchargeAmount : Decimal := 0
  quotedAmount : Decimal := 0
  currency : String := "CAD"
  isMissionAligned : Bool := false
  isPriority : Bool := false
  remark : Option String := none
  title : BookingTitle
  updatedById : Option UUID := none
  updatedBy : Option String := none
  isDeleted : Bool := false

/-- `facility.room_blackout`; no `facilityId` means campus-wide. -/
structure RoomBlackout where
  id : UUID
  facilityId : Option UUID
  name : String
  reason : String
  kind : RoomBlackoutKind
  blackoutDate : Option Int
  daysOfWeekMask : Option Nat
  startTime : TimeOfDay
  endTime : TimeOfDay
  isActive : Bool
  effectiveFrom : Option Int
  effectiveTo : Option Int
  isDeleted : Bool := false
  deleteReason : Option String := none

/-- `facility.room_slot_template`: an opening-hours window. -/
structure RoomSlotTemplate where
  id : UUID
  facilityId : UUID
  name : String := ""
  daysOfWeekMask : Nat
  startTime : TimeOfDay
  endTime : TimeOfDay
  slotDurationMinutes : Int
  isActive : Bool := true
  effectiveFrom : Option Int := none
  effectiveTo : Option Int := none
  isDeleted : Bool := false
  deleteReason : Option String := none

/-- `facility.booking_draft`. -/
structure BookingDraft where
  id : UUID
  userId : UUID
  title : BookingTitle
  date : Int
  ministryId : Option UUID

/-- `facility.booking_draft_line`; the table's CHECK keeps its interval in order. -/
structure BookingDraftLine where
  id : UUID
  bookingDraftId : UUID
  facilityId : UUID
  startAt : Int
  endAt : Int
  sequence : Int
  end_after_start : startAt < endAt

/-- `facility.booking_override_log`. -/
structure BookingOverrideLog where
  id : UUID
  facilityBookingId : UUID
  overriddenBookingId : UUID
  overriddenById : UUID
  facilityId : UUID
  outcome : String
  reason : String

structure FacilityRoom where
  id : UUID
  sequence : Int := 0
  isActive : Bool := true
  isDeleted : Bool := false

/-- `auth.user` with its profile. -/
structure AuthUser where
  id : UUID
  email : String
  preferredName : Option String := none
  firstName : Option String := none
  lastName : Option String := none
  isActive : Bool := true
  isDeleted : Bool := false

/-- `org.ministry`; `name` and `nameZh` stand for its translations. -/
structure OrgMinistry where
  id : UUID
  status : MinistryStatus
  hasPriorityBooking : Bool
  name : Option String := none
  nameZh : Option String := none
  isDeleted : Bool := false

structure OrgMinistryMember where
  ministryId : UUID
  userId : UUID
  memberRole : MinistryMemberRole
deriving DecidableEq

structure FacilityRentalRateTemplate where
  id : UUID
  name : String
  billingUnit : String
  applicability : Option RuleNode := none
  unitAmount : Decimal
  currency : String := "CAD"
  isDefault : Bool := false
  isActive : Bool := true
  isDeleted : Bool := false

structure FacilityRentalRate where
  id : UUID
  facilityId : UUID
  templateId : UUID
  isActive : Bool := true
  isDeleted : Bool := false

structure FacilityRentalDiscountRule where
  id : UUID
  code : String
  percentOff : Decimal
  isActive : Bool := true
  isDeleted : Bool := false

structure FacilityRentalSurcharge where
  id : UUID
  code : String
  chargeType : String
  unitAmount : Decimal
  isActive : Bool := true
  isDeleted : Bool := false

/-- A decoded JSONB value. -/
inductive JsonValue
  | null
  | bool (b : Bool)
  | int (n : Int)
  | float (q : Decimal)
  | str (s : String)
  | arr (items : List JsonValue)
  | obj (fields : List (String × JsonValue))

/-- `system.setting` in the `facility` namespace. -/
structure Setting where
  settingKey : String
  valueType : String
  value : JsonValue
  isActive : Bool := true
  isDeleted : Bool := false

/-! ## 2. The state -/

structure Db where
  bookings : List Booking := []
  bookingRooms : List BookingRoom := []
  bookingSlots : List BookingSlot := []
  series : List BookingSeries := []
  blackouts : List RoomBlackout := []
  slotTemplates : List RoomSlotTemplate := []
  drafts : List BookingDraft := []
  draftLines : List BookingDraftLine := []
  overrideLogs : List BookingOverrideLog := []
  rooms : List FacilityRoom := []
  users : List AuthUser := []
  ministries : List OrgMinistry := []
  ministryMembers : List OrgMinistryMember := []
  rateTemplates : List FacilityRentalRateTemplate := []
  rates : List FacilityRentalRate := []
  discountRules : List FacilityRentalDiscountRule := []
  surcharges : List FacilityRentalSurcharge := []
  settings : List Setting := []

/-- The names of the rows that are written. -/
inductive RowName
  | booking (id : UUID)
  | bookingRoom (id : UUID)
  | bookingSlot (id : UUID)
  | series (id : UUID)
  | blackout (id : UUID)
  | slotTemplate (id : UUID)
  | draft (id : UUID)
  | draftLine (id : UUID)
  | overrideLog (id : UUID)
deriving DecidableEq

/-- The versions stored under a row name. -/
inductive RowContent
  | bookings (rows : List Booking)
  | bookingRooms (rows : List BookingRoom)
  | bookingSlots (rows : List BookingSlot)
  | series (rows : List BookingSeries)
  | blackouts (rows : List RoomBlackout)
  | slotTemplates (rows : List RoomSlotTemplate)
  | drafts (rows : List BookingDraft)
  | draftLines (rows : List BookingDraftLine)
  | overrideLogs (rows : List BookingOverrideLog)

instance : RowStore Db RowName where
  Row := RowContent
  row db
    | .booking x => .bookings (db.bookings.filter fun r => RowName.booking r.id = .booking x)
    | .bookingRoom x =>
      .bookingRooms (db.bookingRooms.filter fun r => RowName.bookingRoom r.id = .bookingRoom x)
    | .bookingSlot x =>
      .bookingSlots (db.bookingSlots.filter fun r => RowName.bookingSlot r.id = .bookingSlot x)
    | .series x => .series (db.series.filter fun r => RowName.series r.id = .series x)
    | .blackout x => .blackouts (db.blackouts.filter fun r => RowName.blackout r.id = .blackout x)
    | .slotTemplate x =>
      .slotTemplates (db.slotTemplates.filter fun r => RowName.slotTemplate r.id = .slotTemplate x)
    | .draft x => .drafts (db.drafts.filter fun r => RowName.draft r.id = .draft x)
    | .draftLine x =>
      .draftLines (db.draftLines.filter fun r => RowName.draftLine r.id = .draftLine x)
    | .overrideLog x =>
      .overrideLogs (db.overrideLogs.filter fun r => RowName.overrideLog r.id = .overrideLog x)

/-! ## 3. Tables -/

def bookingTable : Table Db RowName Booking where
  get := Db.bookings
  set db l := { db with bookings := l }
  name r := .booking r.id
  frame db l x h := by cases x <;> first | rfl | exact congrArg RowContent.bookings h

def bookingRoomTable : Table Db RowName BookingRoom where
  get := Db.bookingRooms
  set db l := { db with bookingRooms := l }
  name r := .bookingRoom r.id
  frame db l x h := by cases x <;> first | rfl | exact congrArg RowContent.bookingRooms h

def bookingSlotTable : Table Db RowName BookingSlot where
  get := Db.bookingSlots
  set db l := { db with bookingSlots := l }
  name r := .bookingSlot r.id
  frame db l x h := by cases x <;> first | rfl | exact congrArg RowContent.bookingSlots h

def seriesTable : Table Db RowName BookingSeries where
  get := Db.series
  set db l := { db with series := l }
  name r := .series r.id
  frame db l x h := by cases x <;> first | rfl | exact congrArg RowContent.series h

def blackoutTable : Table Db RowName RoomBlackout where
  get := Db.blackouts
  set db l := { db with blackouts := l }
  name r := .blackout r.id
  frame db l x h := by cases x <;> first | rfl | exact congrArg RowContent.blackouts h

def slotTemplateTable : Table Db RowName RoomSlotTemplate where
  get := Db.slotTemplates
  set db l := { db with slotTemplates := l }
  name r := .slotTemplate r.id
  frame db l x h := by cases x <;> first | rfl | exact congrArg RowContent.slotTemplates h

def draftTable : Table Db RowName BookingDraft where
  get := Db.drafts
  set db l := { db with drafts := l }
  name r := .draft r.id
  frame db l x h := by cases x <;> first | rfl | exact congrArg RowContent.drafts h

def draftLineTable : Table Db RowName BookingDraftLine where
  get := Db.draftLines
  set db l := { db with draftLines := l }
  name r := .draftLine r.id
  frame db l x h := by cases x <;> first | rfl | exact congrArg RowContent.draftLines h

def overrideLogTable : Table Db RowName BookingOverrideLog where
  get := Db.overrideLogs
  set db l := { db with overrideLogs := l }
  name r := .overrideLog r.id
  frame db l x h := by cases x <;> first | rfl | exact congrArg RowContent.overrideLogs h

/-! ## 4. Service methods -/

/-- The advisory locks: one a room, and the expiry sweep's.  PostgreSQL keys a room's by a hash of 64
bits; rooms are taken to have different ones. -/
inductive LockKey
  | room (facilityId : UUID)
  | sweep
deriving DecidableEq

/-- A service method over the database. -/
abbrev Portal (α : Type) := Prog Db RowName LockKey ApiError α

/-- An INSERT, refused when a primary key is already taken or a CHECK fails. -/
def insertInto {α : Type} (T : Table Db RowName α) (valid : α → Bool) (rows : List α) :
    Portal Unit :=
  Prog.execute fun db =>
    if !decide (rows.map T.name).Nodup ||
        (rows.any fun r => (T.get db).any fun r' => T.name r' = T.name r) then
      .error ⟨.integrity, "duplicate key value violates unique constraint", none, []⟩
    else if rows.all valid then .ok (T.insert rows)
    else .error ⟨.integrity, "new row violates check constraint", none, []⟩

def updateTable {α : Type} (T : Table Db RowName α) (p : α → Bool) (f : α → α)
    (hf : ∀ r, T.name (f r) = T.name r) : Portal Unit :=
  Prog.execute fun db => .ok (T.update p f hf db)

/-- The same UPDATE, returning how many rows it affected. -/
def updateTableCount {α : Type} (T : Table Db RowName α) (p : α → Bool) (f : α → α)
    (hf : ∀ r, T.name (f r) = T.name r) : Portal Nat :=
  Prog.executeCount fun db => .ok (T.update p f hf db)

def deleteFrom {α : Type} (T : Table Db RowName α) (p : α → Bool) : Portal Unit :=
  Prog.execute fun db => .ok (T.delete p db)

end NewlifeCore
