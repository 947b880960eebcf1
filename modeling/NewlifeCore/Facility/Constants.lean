import Mathlib.Data.Rat.Floor
import Mathlib.Tactic.NormNum
import NewlifeCore.Calendar

/-!
# Facility constants, errors and commands

The enumerations of `domain/facility/constants.py` and `domain/org/constants.py`, the exceptions
the services raise and the command objects they take.  Each constant is the value the source
gives it.
-/

namespace NewlifeCore

/-- A row identifier; `str(uuid)` orders as the number does. -/
abbrev UUID := Nat

/-- `str` of an id. -/
def uuidText (id : UUID) : String :=
  let digits := Nat.toDigits 16 id
  let digits := List.replicate (32 - digits.length) '0' ++ digits
  "-".intercalate ([(0, 8), (8, 4), (12, 4), (16, 4), (20, 12)].map fun (start, length) =>
    String.ofList ((digits.drop start).take length))

/-- `decimal.Decimal` by its value; what the context does to a result is in `Pricing`. -/
abbrev Decimal := Rat

/-- `str.isspace` of one character. -/
def isSpace (c : Char) : Bool :=
  let n := c.toNat
  (9 ≤ n && n ≤ 13) || (28 ≤ n && n ≤ 32) || n = 0x85 || n = 0xa0 || n = 0x1680 ||
    (0x2000 ≤ n && n ≤ 0x200a) || n = 0x2028 || n = 0x2029 || n = 0x202f || n = 0x205f || n = 0x3000

/-- A string without the characters meeting `p` at its ends. -/
def stripWhere (p : Char → Bool) (s : String) : String :=
  String.ofList ((s.toList.dropWhile p).reverse.dropWhile p).reverse

/-- `str.strip()`. -/
def strip (s : String) : String := stripWhere isSpace s

example : strip " a b\n" = "a b" := by decide

/-! ## 1. Enumerations -/

inductive BookingType
  | oneTime
  | recurring
deriving DecidableEq, Repr

inductive BookingStatus
  | draft
  | pendingPayment
  | confirmed
  | cancelled
  | overridden
deriving DecidableEq, Repr

inductive BookingSlotStatus
  | confirmed
  | cancelled
deriving DecidableEq, Repr

inductive RecurringConflictKind
  | occupancy
  | blackout
  | openingHours
  | weeklyQuota
  | ministry
deriving DecidableEq, Repr

inductive RoomBlackoutKind
  | oneOff
  | recurring
deriving DecidableEq, Repr

inductive RecurringUsePeriod
  | janJun
  | julDec
deriving DecidableEq, Repr

inductive RecurringAvailabilityUnit
  | days
  | weeks
  | months
deriving DecidableEq, Repr

inductive MinistryStatus
  | draft
  | pendingApproval
  | active
  | rejected
  | inactive
deriving DecidableEq, Repr

inductive MinistryMemberRole
  | primary
  | secondary
deriving DecidableEq, Repr

/-- The series cancellation scopes, by value. -/
def cancellationScopes : List String := ["occurrence", "this_and_future", "entire_series"]

def pendingPaymentHoldExpiredReason : String := "Pending-payment hold expired"

def priorityOverrideReason : String := "Priority Ministry override"

def churchEmailDomain : String := "efcnewlife.org"

/-! ## 2. Errors -/

/-- `BookingErrorCode` and `FacilityErrorCode` together. -/
inductive ErrorCode
  | schedulingConflict
  | roomBlackout
  | outsideOpeningHours
  | overrideReviewRequired
  | overrideReviewStale
  | roomNotFound
  | blackoutNotFound
  | blackoutOverlap
  | bookingNotFound
  | bookingInvalidTimeRange
  | bookingRoomsRequired
  | bookingMaxRooms
  | bookingMinistryInactive
  | bookingLineCrossMidnight
  | bookingLinesNotSameDay
  | bookingDuplicateLine
  | bookingDraftNotFound
  | bookingTitleInvalid
  | bookingCancelReasonInvalid
  | recurringUsePeriod
  | recurringAvailabilityWindow
  | recurringMinOccurrences
  | recurringWeekdayMismatch
  | recurringDstNonexistent
  | recurringWeeklyQuota
  | recurringNotEligible
  | recurringInvalidTimeRange
  | recurringInvalidExclusion
  | recurringMinistryConflict
  | bookingSeriesNotFound
  | bookingSeriesNotPendingPayment
  | recurringInvalidCancellationScope
  | recurringOccurrenceRequired
  | recurringOccurrenceNotFound
  | recurringHistoricalOccurrence
  | blackoutImpactConfirmationRequired
  | blackoutImpactMismatch
  | slotTemplateOverlap
  | slotTemplateNotFound
  | availabilityDateInPast
deriving DecidableEq, Repr

/-- The exception classes; the last five are raised by Python or the database, not a service.
`arithmeticError` stands for the signals of `decimal`. -/
inductive ErrorKind
  | badRequest
  | forbidden
  | notFound
  | conflict
  | valueError
  | typeError
  | overflowError
  | arithmeticError
  | integrity
deriving DecidableEq, Repr

/-- A raised exception: its class, detail, machine-readable code and the context that names the
row it is about. -/
structure ApiError where
  kind : ErrorKind
  detail : String
  errorCode : Option ErrorCode := none
  context : List (String × Option UUID) := []
deriving DecidableEq, Repr

def badRequest (detail : String) (errorCode : Option ErrorCode := none)
    (context : List (String × Option UUID) := []) : ApiError :=
  ⟨.badRequest, detail, errorCode, context⟩

def forbidden (detail : String) (errorCode : Option ErrorCode := none) : ApiError :=
  ⟨.forbidden, detail, errorCode, []⟩

def notFound (detail : String) (errorCode : Option ErrorCode := none)
    (context : List (String × Option UUID) := []) : ApiError :=
  ⟨.notFound, detail, errorCode, context⟩

def conflictError (detail : String) (errorCode : Option ErrorCode := none)
    (context : List (String × Option UUID) := []) : ApiError :=
  ⟨.conflict, detail, errorCode, context⟩

/-! ## 3. Titles and room lines -/

/-- A title as `BookingTitle` and the database accept it. -/
structure BookingTitle where
  text : String
  length_ok : 1 ≤ text.length ∧ text.length ≤ 30

/-- `BookingRoomLineCommand`. -/
structure BookingRoomLineCommand where
  facilityId : UUID
  startAt : Option Int := none
  endAt : Option Int := none
  sequence : Int := 0

/-- `CreateBookingCommand`. -/
structure CreateBookingCommand where
  title : Option BookingTitle := none
  startAt : Int
  endAt : Int
  ministryId : Option UUID := none
  userId : Option UUID := none
  rooms : List BookingRoomLineCommand := []
  surchargeCodes : List String := []
  remark : Option String := none
  bookingDraftId : Option UUID := none
  enforceOpeningHours : Bool := true
  allowPriorityOverride : Bool := false
  overrideReviewToken : Option String := none

/-- `CancelBookingCommand`. -/
structure CancelBookingCommand where
  scope : String := "single"
  cancelReason : Option String := none

/-- `CreateRecurringBookingSeriesCommand`. -/
structure CreateRecurringBookingSeriesCommand where
  title : Option BookingTitle := none
  userId : Option UUID := none
  ministryId : Option UUID := none
  firstOccurrenceDate : Int
  lastOccurrenceDate : Int
  localStartTime : TimeOfDay
  localEndTime : TimeOfDay
  rooms : List BookingRoomLineCommand := []
  surchargeCodes : List String := []
  remark : Option String := none
  excludedDates : List Int := []
  enforceOpeningHours : Bool := true
  requireOverrideReview : Bool := true
  overrideReviewToken : Option String := none

/-- `CancelRecurringBookingSeriesCommand`. -/
structure CancelRecurringBookingSeriesCommand where
  scope : String
  occurrenceId : Option UUID := none
  cancelReason : Option String := none

/-- `UpdateRoomBlackoutCommand`. -/
structure UpdateRoomBlackoutCommand where
  facilityId : Option UUID := none
  name : String
  reason : String
  kind : String
  blackoutDate : Option Int := none
  daysOfWeek : List Int := []
  startTime : TimeOfDay
  endTime : TimeOfDay
  isActive : Bool := true
  effectiveFrom : Option Int := none
  effectiveTo : Option Int := none

/-- `CreateRoomBlackoutCommand`: the same fields and the occurrences confirmed to be cancelled. -/
structure CreateRoomBlackoutCommand extends UpdateRoomBlackoutCommand where
  confirmOccurrenceIds : List UUID := []

/-- `CreateRoomSlotTemplateCommand` and `UpdateRoomSlotTemplateCommand`, which have the same
fields. -/
structure RoomSlotTemplateCommand where
  facilityId : UUID
  name : String
  daysOfWeek : List Int
  startTime : TimeOfDay
  endTime : TimeOfDay
  slotDurationMinutes : Int
  isActive : Bool := true
  effectiveFrom : Option Int := none
  effectiveTo : Option Int := none

/-- `DeleteCommand`. -/
structure DeleteCommand where
  reason : Option String := none
  permanent : Bool := false

/-! ## 4. Requests -/

/-- `a or b` on optional strings: an empty one is false. -/
def pyOr (a b : Option String) : Option String :=
  match a with
  | some s => if s = "" then b else some s
  | none => b

/-- `UserContext`. -/
structure UserContext where
  userId : Option UUID := none
  username : Option String := none
  email : Option String := none

/-- What `uuid4()` returns during one request, by what it names. -/
structure Uuids where
  series : UUID
  booking : Nat → UUID
  bookingRoom : Nat → Nat → UUID
  bookingSlot : Nat → Nat → UUID
  overrideLog : Nat → UUID
  blackout : UUID

/-- One request: who calls, and the identifiers it will draw. -/
structure Request where
  user : Option UserContext
  ids : Uuids

/-- `self._user_ctx.user_id if self._user_ctx else None`. -/
def Request.operatorId (r : Request) : Option UUID := r.user.bind UserContext.userId

/-- `_operator_name`. -/
def Request.operatorName (r : Request) : String :=
  match r.user with
  | none => "system"
  | some u => (pyOr u.username u.email).elim "system" fun s => if s = "" then "system" else s

end NewlifeCore
