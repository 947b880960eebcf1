import NewlifeCore.Facility.BookingService

/-!
# `RecurringBookingService`: proposals and creation

`_prepare_series`, the conflicts of a schedule, `preview_conflicts`, `evaluate_proposal` and
`create_series`.  Names that only go into mail are left out.
-/

namespace NewlifeCore

open Txn Prog

/-! ## 1. Results -/

/-- `_PreparedOccurrence`. -/
structure PreparedOccurrence where
  occurrenceDate : Int
  startAt : Int
  endAt : Int
deriving DecidableEq

/-- `_PreparedSeries`. -/
structure PreparedSeries where
  bookerId : UUID
  operatorId : UUID
  localTz : Zone
  nowUtc : Int
  occurrences : List PreparedOccurrence
  isPriority : Bool

/-- `RecurringBookingConflictResult`. -/
structure SeriesConflict where
  occurrenceDate : Int
  kind : RecurringConflictKind
  facilityIds : List UUID := []
  isOverridable : Bool := false
  occupyingBookings : List OccupyingBooking := []
  ministryId : Option UUID := none
  ministryStewardDisplayName : Option String := none
  ministryStewardEmail : Option String := none
  bookerDisplayName : Option String := none
  bookerEmail : Option String := none
deriving DecidableEq

/-- The dict `_quote_occurrences` returns. -/
structure SeriesQuote where
  quotedAmount : Decimal := 0
  subtotalAmount : Decimal := 0
  discountPercent : Decimal := 0
  discountAmount : Decimal := 0
  surchargeAmount : Decimal := 0
  currency : String := "CAD"
  discountCode : Option String := none
  isFreeMinistry : Bool := false

/-- `RecurringBookingPreviewResult`. -/
structure SeriesPreview where
  conflicts : List SeriesConflict
  quotedAmount : Decimal
  currency : String
  isFreeMinistry : Bool
  overrideImpacts : List OverrideImpact
  overrideReviewToken : Option String

/-- `RecurringProposalEvaluationResult`. -/
structure ProposalEvaluation where
  isConfirmable : Bool
  conflicts : List SeriesConflict := []
  quote : SeriesQuote := {}
  occurrenceCount : Nat := 0
  pendingPaymentHoldDays : Option Int := none
  paymentHoldExpiresAt : Option Int := none
  invalidityCode : Option ErrorCode := none
  invalidityDetail : Option String := none
  overrideImpacts : List OverrideImpact := []
  overrideReviewToken : Option String := none

/-- `RecurringBookingSeriesResult`: the Series with its occurrences. -/
structure SeriesResult where
  series : BookingSeries
  isFreeMinistry : Bool
  confirmedById : Option UUID
  occurrences : List OccurrenceResult

namespace RecurringBookingService

/-! ## 2. `_prepare_series` -/

def raiseIfIneligibleBooker (app : App) (r : Request) (bookerId : UUID) : Portal Unit := do
  let own := (r.user.filter fun u => u.userId = some bookerId).bind UserContext.email
  let email ← bookerEmail own
  if isChurchEmail email churchEmailDomain then pure ()
  else if app.isProd then raise ineligible
  else do
    let allowlist ← SettingService.getRecurringBookingTestBookerAllowlist
    raiseIf (!isTestBookerAllowlisted email allowlist.emailAddresses allowlist.emailSuffixes)
      ineligible
where
  ineligible : ApiError :=
    forbidden "Facility Booking requires a church-domain account" (some .recurringNotEligible)
  /-- The caller's own address, else the stored one. -/
  bookerEmail (own : Option String) : Portal (Option String) :=
    match own with
    | some email => if email = "" then UserReadService.emailById bookerId else pure (some email)
    | none => UserReadService.emailById bookerId

/-- Never in production. -/
def effectiveTestWindowOverride (app : App) : Portal Bool :=
  if app.isProd then pure false else SettingService.getRecurringBookingTestWindowOverride

/-- Both wall times of each date, in UTC. -/
def prepareOccurrences (localStart localEnd : TimeOfDay) (tz : Zone) :
    List Int → Except ApiError (List PreparedOccurrence)
  | [] => .ok []
  | d :: dates =>
    match localizeWallTime d localStart tz, localizeWallTime d localEnd tz with
    | some startAt, some endAt =>
      match prepareOccurrences localStart localEnd tz dates with
      | .ok rest => .ok (⟨d, startAt, endAt⟩ :: rest)
      | .error e => .error e
    | _, _ => .error (badRequest "Recurring Booking local time does not exist on a DST transition"
        (some .recurringDstNonexistent))

/-- The room lines of one occurrence. -/
def occurrenceLines (rooms : List BookingRoomLineCommand) (o : PreparedOccurrence) :
    List ResolvedBookingLine :=
  rooms.map fun room => ⟨room.facilityId, o.startAt, o.endAt, room.sequence⟩

/-- Only the first occurrence's lines are validated. -/
def validateFirst (rooms : List BookingRoomLineCommand) (tz : Zone) :
    List PreparedOccurrence → Except ApiError Unit
  | [] => .error ⟨.valueError, "list index out of range", none, []⟩
  | first :: _ => validateBookingLines (occurrenceLines rooms first) tz

def statusOf (ministry : Option OrgMinistry) (ministryId : UUID) :
    Portal (Option MinistryStatus) :=
  match ministry with
  | some ministry => pure (some ministry.status)
  | none => MinistryRepository.getStatus ministryId

/-- Whether the Ministry has priority. -/
def validateMinistrySeries (ministryId bookerId : UUID) : Portal Bool := do
  let ministry ← MinistryRepository.getById ministryId
  let status ← statusOf ministry ministryId
  raiseIf (status ≠ some .active) (badRequest "Ministry must be active for booking"
    (some .bookingMinistryInactive) [("ministry_id", some ministryId)])
  let member ← MinistryRepository.isUserBookingMember ministryId bookerId
  raiseIf (!member) (forbidden "User is not a ministry owner")
  pure (ministry.any OrgMinistry.hasPriorityBooking)

def seriesPriority (ministryId : Option UUID) (bookerId : UUID) : Portal Bool :=
  match ministryId with
  | none => pure false
  | some ministryId => validateMinistrySeries ministryId bookerId

/-- The checks of `_prepare_series` that only look at the command. -/
def checkSchedule (command : CreateRecurringBookingSeriesCommand) : Portal Unit := do
  raiseIf (command.lastOccurrenceDate < command.firstOccurrenceDate)
    (badRequest "last_occurrence_date must be on or after first_occurrence_date"
      (some .recurringInvalidTimeRange))
  raiseIf (Date.weekday command.firstOccurrenceDate ≠ Date.weekday command.lastOccurrenceDate)
    (badRequest "first and last occurrence dates must fall on the same weekday"
      (some .recurringWeekdayMismatch))
  raiseIf (usePeriodForDate command.firstOccurrenceDate ≠
      usePeriodForDate command.lastOccurrenceDate)
    (badRequest "Recurring Booking Series must stay within one Recurring Booking period"
      (some .recurringUsePeriod))

def tooFewOccurrences (minWeeks : Int) : ApiError :=
  badRequest s!"Recurring Booking Series requires at least {minWeeks} weekly occurrences"
    (some .recurringMinOccurrences)

def prepareSeries (app : App) (r : Request) (command : CreateRecurringBookingSeriesCommand) :
    Portal PreparedSeries := do
  let operatorId ← authenticatedUser r
  let bookerId := command.userId.getD operatorId
  raiseIfIneligibleBooker app r bookerId
  raiseIf command.rooms.isEmpty
    (badRequest "At least one room is required" (some .bookingRoomsRequired))
  raiseIf (command.localEndTime ≤ command.localStartTime)
    (badRequest "local_end_time must be after local_start_time" (some .recurringInvalidTimeRange))
  BookingService.raiseIfTooManyBookingLines command.rooms
  checkSchedule command
  let localTz ← SettingService.getFacilityTimezone app
  let nowUtc ← now
  let window ← SettingService.getRecurringBookingAvailabilityWindow
  let overrideOpen ← effectiveTestWindowOverride app
  raiseIf (!(overrideOpen || isWithinAvailabilityWindow (localTz.toLocal nowUtc)
      (openingDateForPeriod (usePeriodForDate command.firstOccurrenceDate)
        (Date.year command.firstOccurrenceDate)) window.amount window.unit))
    (badRequest "Recurring Booking period is outside the availability window"
      (some .recurringAvailabilityWindow))
  let dates := weeklyOccurrenceDates command.firstOccurrenceDate command.lastOccurrenceDate
  let minWeeks ← SettingService.getMinRecurringBookingWeeks
  raiseIf (dates.length < minWeeks) (tooFewOccurrences minWeeks)
  let occurrences ← ofExcept
    (prepareOccurrences command.localStartTime command.localEndTime localTz dates)
  ofExcept (validateFirst command.rooms localTz occurrences)
  let isPriority ← seriesPriority command.ministryId bookerId
  pure { bookerId, operatorId, localTz, nowUtc, occurrences, isPriority }

/-! ## 3. `_collect_conflicts` -/

/-- The smallest and the largest of a list, its first element apart. -/
def minOf (d : Int) (ds : List Int) : Int := ds.foldl min d

def maxOf (d : Int) (ds : List Int) : Int := ds.foldl max d

/-- The local date an occurrence starts on. -/
def startDate (tz : Zone) (o : PreparedOccurrence) : Int := tz.localDate o.startAt

def weeklyQuotaConflictDates (bookerId : UUID) (occurrences : List PreparedOccurrence)
    (localTz : Zone) : Portal (List Int) := do
  match occurrences.map (startDate localTz) with
  | [] => raise ⟨.valueError, "min() arg is an empty sequence", none, []⟩
  | d :: ds =>
    let existing ← BookingRepository.listRentalOccurrenceStarts bookerId
      (localTz.startOfDay (sundayWeekStart (minOf d ds)))
      (localTz.startOfDay (sundayWeekStart (maxOf d ds) + 7))
    let occupiedWeeks := existing.map fun startAt => sundayWeekStart (localTz.localDate startAt)
    pure ((occurrences.filter fun o =>
      occupiedWeeks.contains (sundayWeekStart (startDate localTz o))).map
        PreparedOccurrence.occurrenceDate)

/-- The quota part: Personal proposals only. -/
def quotaConflicts (command : CreateRecurringBookingSeriesCommand) (prepared : PreparedSeries) :
    Portal (List SeriesConflict) :=
  match command.ministryId with
  | some _ => pure []
  | none => do
    let dates ← weeklyQuotaConflictDates prepared.bookerId prepared.occurrences prepared.localTz
    pure (dates.map fun d => { occurrenceDate := d, kind := .weeklyQuota })

/-- One row merged into the dict of occupying Bookings. -/
def mergeOccupying (facilityId : UUID) (item : OccupyingBooking) :
    List OccupyingBooking → List OccupyingBooking
  | [] => [{ item with facilityIds := (item.facilityIds ++ [facilityId]).eraseDups }]
  | m :: merged =>
    if m.bookingId = item.bookingId then
      { m with facilityIds :=
          (m.facilityIds ++ (item.facilityIds ++ [facilityId]).eraseDups).eraseDups } :: merged
    else m :: mergeOccupying facilityId item merged

def occupyingBookingsForRoom (o : PreparedOccurrence) (merged : List OccupyingBooking)
    (room : BookingRoomLineCommand) : Portal (List OccupyingBooking) := do
  let rows ← BookingRepository.listOccupyingSlots room.facilityId o.startAt o.endAt
  pure (rows.foldl (fun merged item => mergeOccupying room.facilityId item merged) merged)

def occupyingBookingsForOccurrence (command : CreateRecurringBookingSeriesCommand)
    (o : PreparedOccurrence) : Portal (List OccupyingBooking) :=
  foldEach command.rooms [] (occupyingBookingsForRoom o)

def uniqueFacilityIds (items : List OccupyingBooking) : List UUID :=
  (items.flatMap OccupyingBooking.facilityIds).eraseDups

def seriesStewardContact (ministryId : Option UUID) : Portal (Option String × Option String) :=
  match ministryId with
  | none => pure (none, none)
  | some ministryId => primaryStewardContact ministryId

/-- Whether a Priority Ministry displaces the occupant. -/
def overridable (prepared : PreparedSeries) (item : OccupyingBooking) : Bool :=
  prepared.isPriority && item.startAt > prepared.nowUtc

def overridableConflict (o : PreparedOccurrence) (items : List OccupyingBooking) :
    List SeriesConflict :=
  if items.isEmpty then []
  else [{ occurrenceDate := o.occurrenceDate, kind := .occupancy
          facilityIds := uniqueFacilityIds items, isOverridable := true
          occupyingBookings := items }]

def blockedConflict (command : CreateRecurringBookingSeriesCommand) (prepared : PreparedSeries)
    (o : PreparedOccurrence) (items : List OccupyingBooking) : List SeriesConflict :=
  match items with
  | [] => []
  | first :: _ =>
    let showBooker := command.ministryId.isSome && !prepared.isPriority
    [{ occurrenceDate := o.occurrenceDate, kind := .occupancy
       facilityIds := uniqueFacilityIds items, occupyingBookings := items
       bookerDisplayName := if showBooker then first.bookerDisplayName else none
       bookerEmail := if showBooker then first.bookerEmail else none }]

/-- A Personal caller sees plain occupancy. -/
def ministryConflict (command : CreateRecurringBookingSeriesCommand) (o : PreparedOccurrence)
    (items : List OccupyingBooking) : Portal (List SeriesConflict) :=
  match items with
  | [] => pure []
  | first :: _ =>
    if command.ministryId.isNone then
      pure [{ occurrenceDate := o.occurrenceDate, kind := .occupancy
              facilityIds := uniqueFacilityIds items, occupyingBookings := items }]
    else do
      let (name, email) ← seriesStewardContact first.ministryId
      pure [{ occurrenceDate := o.occurrenceDate, kind := .ministry
              facilityIds := uniqueFacilityIds items, occupyingBookings := items
              ministryId := first.ministryId, ministryStewardDisplayName := name
              ministryStewardEmail := email }]

def blackoutRoom (tz : Zone) (o : PreparedOccurrence) (ids : List UUID)
    (room : BookingRoomLineCommand) : Portal (List UUID) := do
  let closed ← RoomBlackoutRepository.hasBlackoutOverlap room.facilityId o.startAt o.endAt tz
  pure (if closed then ids ++ [room.facilityId] else ids)

def openingHoursRoom (tz : Zone) (o : PreparedOccurrence) (blackoutIds ids : List UUID)
    (room : BookingRoomLineCommand) : Portal (List UUID) :=
  if room.facilityId ∈ blackoutIds then pure ids
  else do
    let templates ← RoomSlotTemplateRepository.listActiveForDay room.facilityId
      (Date.weekday o.occurrenceDate)
    pure (if memberIntervalWithinOpeningHours o.startAt o.endAt templates tz then ids
      else ids ++ [room.facilityId])

def openingHoursRooms (command : CreateRecurringBookingSeriesCommand) (tz : Zone)
    (o : PreparedOccurrence) (blackoutIds : List UUID) : Portal (List UUID) :=
  if command.enforceOpeningHours then
    foldEach command.rooms [] (openingHoursRoom tz o blackoutIds)
  else pure []

def closedConflict (o : PreparedOccurrence) (kind : RecurringConflictKind) (ids : List UUID) :
    List SeriesConflict :=
  if ids.isEmpty then [] else [{ occurrenceDate := o.occurrenceDate, kind, facilityIds := ids }]

/-- The turn of one occurrence in the loop of `_collect_conflicts`. -/
def occurrenceConflicts (command : CreateRecurringBookingSeriesCommand) (prepared : PreparedSeries)
    (o : PreparedOccurrence) : Portal (List SeriesConflict) := do
  let occupying ← occupyingBookingsForOccurrence command o
  let rentals := occupying.filter fun item => item.ministryId.isNone
  let ministryConflicts ← ministryConflict command o
    (occupying.filter fun item => item.ministryId.isSome)
  let blackoutIds ← foldEach command.rooms [] (blackoutRoom prepared.localTz o)
  let openingHoursIds ← openingHoursRooms command prepared.localTz o blackoutIds
  pure (overridableConflict o (rentals.filter (overridable prepared)) ++
    blockedConflict command prepared o (rentals.filter fun item => !overridable prepared item) ++
    ministryConflicts ++ closedConflict o .blackout blackoutIds ++
    closedConflict o .openingHours openingHoursIds)

/-- `kind_order`. -/
def kindOrder : RecurringConflictKind → Nat
  | .occupancy => 0
  | .ministry => 1
  | .blackout => 2
  | .openingHours => 3
  | .weeklyQuota => 4

/-- The order of the sort: date, kind, overridable first. -/
def conflictLe (a b : SeriesConflict) : Prop :=
  a.occurrenceDate < b.occurrenceDate ∨ a.occurrenceDate = b.occurrenceDate ∧
    (kindOrder a.kind < kindOrder b.kind ∨ kindOrder a.kind = kindOrder b.kind ∧
      (a.isOverridable ∨ ¬b.isOverridable))

instance (a b : SeriesConflict) : Decidable (conflictLe a b) := by
  unfold conflictLe; infer_instance

def collectConflicts (command : CreateRecurringBookingSeriesCommand) (prepared : PreparedSeries) :
    Portal (List SeriesConflict) := do
  let quota ← quotaConflicts command prepared
  let found ← mapEach prepared.occurrences (occurrenceConflicts command prepared)
  pure ((quota ++ found.flatten).insertionSort conflictLe)

/-! ## 4. Exclusions, targets and quotes -/

/-- The occurrences that are not excluded. -/
def remainingOccurrences (command : CreateRecurringBookingSeriesCommand)
    (prepared : PreparedSeries) : List PreparedOccurrence :=
  prepared.occurrences.filter fun o => !command.excludedDates.contains o.occurrenceDate

def remainingConflicts (command : CreateRecurringBookingSeriesCommand)
    (conflicts : List SeriesConflict) : List SeriesConflict :=
  conflicts.filter fun c => !command.excludedDates.contains c.occurrenceDate

/-- `excluded_dates - generated_dates or excluded_dates - conflict_dates`. -/
def invalidExclusion (command : CreateRecurringBookingSeriesCommand) (prepared : PreparedSeries)
    (conflicts : List SeriesConflict) : Bool :=
  (command.excludedDates.any fun d =>
      !(prepared.occurrences.map PreparedOccurrence.occurrenceDate).contains d) ||
    command.excludedDates.any fun d => !(conflicts.map SeriesConflict.occurrenceDate).contains d

def invalidExclusionError : ApiError :=
  badRequest "excluded_dates must be occurrence dates that currently conflict"
    (some .recurringInvalidExclusion)

/-- The detail and code of a blocking conflict, as both paths word them. -/
def blockingConflictInvalidity (conflict : SeriesConflict) : ErrorCode × String :=
  let room := match conflict.facilityIds with
    | id :: _ => toString id
    | [] => "None"
  match conflict.kind with
  | .ministry => (.recurringMinistryConflict, "Room is occupied by another Ministry Series")
  | .occupancy => (.schedulingConflict, s!"Room {room} has a scheduling conflict")
  | .blackout => (.roomBlackout, s!"Room {room} is closed for the selected time")
  | .openingHours =>
    (.outsideOpeningHours, s!"Room {room} is outside opening hours for the selected time")
  | .weeklyQuota =>
    (.recurringWeeklyQuota, "Booker already has a Rental Booking in that facility-local week")

/-- `_raise_remaining_conflict`, on the first blocking conflict. -/
def remainingConflictError (conflict : SeriesConflict) : ApiError :=
  let (code, detail) := blockingConflictInvalidity conflict
  let facility : List (String × Option UUID) := [("facility_id", conflict.facilityIds.head?)]
  match conflict.kind with
  | .ministry => conflictError detail (some code) (facility ++ [("ministry_id", conflict.ministryId)])
  | .occupancy => conflictError detail (some code) facility
  | .blackout => badRequest detail (some code) facility
  | .openingHours => badRequest detail (some code) facility
  | .weeklyQuota => badRequest detail (some code)

def raiseRemainingConflict (blocking : List SeriesConflict) : Portal Unit :=
  match blocking with
  | [] => pure ()
  | conflict :: _ => raise (remainingConflictError conflict)

def unexcludedOccurrences (command : CreateRecurringBookingSeriesCommand)
    (prepared : PreparedSeries) : Portal (List PreparedOccurrence × List SeriesConflict) := do
  let conflicts ← collectConflicts command prepared
  raiseIf (invalidExclusion command prepared conflicts) invalidExclusionError
  let remaining := remainingOccurrences command prepared
  let minWeeks ← SettingService.getMinRecurringBookingWeeks
  raiseIf (remaining.length < minWeeks) (tooFewOccurrences minWeeks)
  let left := remainingConflicts command conflicts
  raiseRemainingConflict (left.filter fun c => !c.isOverridable)
  pure (remaining, left.filter SeriesConflict.isOverridable)

/-- Each occupying Booking of the overridable conflicts, with the date that displaces it. -/
def occupyingPairs (conflicts : List SeriesConflict) : List (Int × OccupyingBooking) :=
  conflicts.flatMap fun c => c.occupyingBookings.map fun item => (c.occurrenceDate, item)

def toSeriesTarget (localTz : Zone) (released : UUID → List ReleasedInterval)
    (p : Int × OccupyingBooking) : Int × OverrideTarget :=
  (p.1, toTarget localTz released (p.2, p.2.facilityIds))

def overrideTargets (conflicts : List SeriesConflict) (localTz : Zone) :
    Portal (List (Int × OverrideTarget)) :=
  let occupying := occupyingPairs conflicts
  if occupying.isEmpty then pure []
  else do
    let released ← BookingRepository.listLiveSlotIntervals
      (occupying.map fun p => p.2.bookingId).eraseDups
    pure (occupying.map (toSeriesTarget localTz released))

/-- The impacts whose Booking was not seen before. -/
def uniqueFrom (seen : List UUID) : List OverrideImpact → List OverrideImpact
  | [] => []
  | i :: impacts =>
    if i.bookingId ∈ seen then uniqueFrom seen impacts
    else i :: uniqueFrom (i.bookingId :: seen) impacts

def uniqueImpacts (targets : List (Int × OverrideTarget)) : List OverrideImpact :=
  uniqueFrom [] (targets.map fun t => t.2.impact)

/-- `_series_proposal`. -/
def seriesProposal (command : CreateRecurringBookingSeriesCommand)
    (remaining : List PreparedOccurrence) : List String :=
  "recurring-series" ::
    (remaining.flatMap fun o => command.rooms.map fun room =>
      roomIntervalKey room.facilityId o.startAt o.endAt) ++
    (command.excludedDates.eraseDups.insertionSort (· ≤ ·)).map fun d =>
      "excluded|" ++ Date.isoformat d

def issueReviewToken (app : App) (command : CreateRecurringBookingSeriesCommand)
    (prepared : PreparedSeries) (remaining : List PreparedOccurrence)
    (impacts : List OverrideImpact) : Option String :=
  if impacts.isEmpty then none
  else some (issueOverrideReviewToken app.review prepared.bookerId command.ministryId
    (seriesProposal command remaining) impacts)

/-- The quote of one occurrence, as both loops ask for it. -/
def quoteOccurrence (command : CreateRecurringBookingSeriesCommand) (bookerId : UUID)
    (o : PreparedOccurrence) : Portal Quote :=
  PricingService.previewQuote {
    bookingType := .recurring
    asOfDate := some o.occurrenceDate
    roomLines := command.rooms.map fun room => ⟨room.facilityId, billedHours o.startAt o.endAt⟩
    surchargeCodes := command.surchargeCodes
    ministryId := command.ministryId
    bookerId }

/-- One turn of the loop of `_quote_occurrences`: sums, and the last quote's own fields. -/
def SeriesQuote.add (total : SeriesQuote) (quote : Quote) : SeriesQuote where
  quotedAmount := Decimal.fit (total.quotedAmount + quote.quotedAmount)
  subtotalAmount := Decimal.fit (total.subtotalAmount + quote.subtotalAmount)
  discountPercent := quote.discountPercent
  discountAmount := Decimal.fit (total.discountAmount + quote.discountAmount)
  surchargeAmount := Decimal.fit (total.surchargeAmount + quote.surchargeAmount)
  currency := quote.currency
  discountCode := quote.discountCode
  isFreeMinistry := quote.isFreeMinistry

def quoteOccurrences (command : CreateRecurringBookingSeriesCommand)
    (occurrences : List PreparedOccurrence) (bookerId : UUID) : Portal SeriesQuote := do
  let quotes ← mapEach occurrences (quoteOccurrence command bookerId)
  pure (quotes.foldl SeriesQuote.add {})

/-! ## 5. `preview_conflicts` and `evaluate_proposal` -/

def pendingPaymentHold (app : App) (nowUtc : Int) : Portal (Int × Int) := do
  let holdDays ← SettingService.getPendingPaymentHoldDays
  let localTz ← SettingService.getFacilityTimezone app
  match calendarDayPaymentHoldExpiresAt nowUtc holdDays localTz with
  | .error .valueError => raise ⟨.valueError, "nonexistent local time", none, []⟩
  | .error kind => raise ⟨kind, "date value out of range", none, []⟩
  | .ok expiresAt => pure (holdDays, expiresAt)

/-- A Ministry's proposal has no hold and reads no hold settings. -/
def proposalPaymentHold (app : App) (command : CreateRecurringBookingSeriesCommand)
    (nowUtc : Int) : Portal (Option Int × Option Int) :=
  if command.ministryId.isSome then pure (none, none)
  else do
    let (days, expiresAt) ← pendingPaymentHold app nowUtc
    pure (some days, some expiresAt)

def previewConflicts (app : App) (r : Request) (command : CreateRecurringBookingSeriesCommand) :
    Portal SeriesPreview := do
  let prepared ← prepareSeries app r command
  let conflicts ← collectConflicts command prepared
  let quote ← quoteOccurrences command prepared.occurrences prepared.bookerId
  let remaining := remainingOccurrences command prepared
  let left := remainingConflicts command conflicts
  let targets ← overrideTargets (left.filter SeriesConflict.isOverridable) prepared.localTz
  let impacts := uniqueImpacts targets
  let minWeeks ← SettingService.getMinRecurringBookingWeeks
  let isReviewable :=
    (command.excludedDates.all fun d => (conflicts.map SeriesConflict.occurrenceDate).contains d) &&
      decide ((remaining.length : Int) ≥ minWeeks) && left.all SeriesConflict.isOverridable
  pure {
    conflicts
    quotedAmount := quote.quotedAmount
    currency := quote.currency
    isFreeMinistry := quote.isFreeMinistry
    overrideImpacts := impacts
    overrideReviewToken :=
      if isReviewable then issueReviewToken app command prepared remaining impacts else none }

/-- `_unevaluable_proposal`. -/
def unevaluableProposal (error : ApiError) (hold : Option Int × Option Int)
    (conflicts : List SeriesConflict := []) (occurrenceCount : Nat := 0) : ProposalEvaluation where
  isConfirmable := false
  conflicts
  occurrenceCount
  pendingPaymentHoldDays := hold.1
  paymentHoldExpiresAt := hold.2
  invalidityCode := error.errorCode
  invalidityDetail := some error.detail

/-- What still keeps an evaluated proposal from being confirmed. -/
def proposalInvalidity (command : CreateRecurringBookingSeriesCommand)
    (blocking : List SeriesConflict) : Option (ErrorCode × String) :=
  match blocking with
  | conflict :: _ => some (blockingConflictInvalidity conflict)
  | [] => if command.title.isNone then some (.bookingTitleInvalid, "Title is required") else none

/-- `evaluate_proposal` once the schedule is prepared. -/
def evaluatePrepared (app : App) (command : CreateRecurringBookingSeriesCommand)
    (hold : Option Int × Option Int) (prepared : PreparedSeries) : Portal ProposalEvaluation := do
  let conflicts ← collectConflicts command prepared
  if invalidExclusion command prepared conflicts then
    pure (unevaluableProposal invalidExclusionError hold conflicts)
  else do
    let remaining := remainingOccurrences command prepared
    let minWeeks ← SettingService.getMinRecurringBookingWeeks
    if remaining.length < minWeeks then
      pure (unevaluableProposal (tooFewOccurrences minWeeks) hold conflicts remaining.length)
    else do
      let left := remainingConflicts command conflicts
      let targets ← overrideTargets (left.filter SeriesConflict.isOverridable) prepared.localTz
      let impacts := uniqueImpacts targets
      let quote ← quoteOccurrences command remaining prepared.bookerId
      let invalidity := proposalInvalidity command (left.filter fun c => !c.isOverridable)
      pure {
        isConfirmable := invalidity.isNone
        conflicts
        quote
        occurrenceCount := remaining.length
        pendingPaymentHoldDays := hold.1
        paymentHoldExpiresAt := hold.2
        invalidityCode := invalidity.map Prod.fst
        invalidityDetail := invalidity.map Prod.snd
        overrideImpacts := impacts
        overrideReviewToken :=
          if invalidity.isNone then issueReviewToken app command prepared remaining impacts
          else none }

/-- The prepared schedule, or why it cannot be evaluated; only a `BadRequestException` is kept. -/
def tryPrepare (app : App) (r : Request) (command : CreateRecurringBookingSeriesCommand) :
    Portal (Except ApiError PreparedSeries) :=
  tryCatch ((prepareSeries app r command).bind fun prepared => pure (.ok prepared)) fun e =>
    if e.kind = .badRequest then pure (.error e) else raise e

def evaluateProposal (app : App) (r : Request) (command : CreateRecurringBookingSeriesCommand) :
    Portal ProposalEvaluation := do
  let nowUtc ← now
  let hold ← proposalPaymentHold app command nowUtc
  match ← tryPrepare app r command with
  | .error e => pure (unevaluableProposal e hold)
  | .ok prepared => evaluatePrepared app command hold prepared

/-! ## 6. `create_series` -/

def requireTitle (command : CreateRecurringBookingSeriesCommand) : Portal BookingTitle :=
  match command.title with
  | none => raise (badRequest "Title is required" (some .bookingTitleInvalid))
  | some title => pure title

/-- What the checks under the room locks found. -/
structure SeriesReview where
  remaining : List PreparedOccurrence
  targets : List (Int × OverrideTarget)
  quotes : List Quote
  paymentHoldExpiresAt : Option Int

def requireSeriesReview (app : App) (command : CreateRecurringBookingSeriesCommand)
    (prepared : PreparedSeries) (remaining : List PreparedOccurrence)
    (targets : List (Int × OverrideTarget)) : Except ApiError Unit :=
  if command.requireOverrideReview then
    requireReviewedOverride app.review command.overrideReviewToken prepared.bookerId
      command.ministryId (seriesProposal command remaining) (uniqueImpacts targets)
  else .ok ()

/-- Only a Series that is free throughout skips the hold. -/
def seriesPaymentHold (app : App) (nowUtc : Int) (quotes : List Quote) : Portal (Option Int) :=
  if quotes.all Quote.isFreeMinistry then pure none
  else do
    let (_, expiresAt) ← pendingPaymentHold app nowUtc
    pure (some expiresAt)

/-- `create_series` from the room locks to its first write. -/
def reviewSeries (app : App) (command : CreateRecurringBookingSeriesCommand)
    (prepared : PreparedSeries) : Portal SeriesReview := do
  let (remaining, conflicts) ← unexcludedOccurrences command prepared
  let targets ← overrideTargets conflicts prepared.localTz
  ofExcept (requireSeriesReview app command prepared remaining targets)
  let quotes ← mapEach remaining (quoteOccurrence command prepared.bookerId)
  let paymentHoldExpiresAt ← seriesPaymentHold app prepared.nowUtc quotes
  pure { remaining, targets, quotes, paymentHoldExpiresAt }

def lineHours (quote : Quote) : Decimal :=
  quote.roomLines.foldl (fun sum line => Decimal.fit (sum + line.billedHours)) 0

def seriesStatus (quotes : List Quote) : BookingStatus :=
  if quotes.all Quote.isFreeMinistry then .confirmed else .pendingPayment

def seriesRow (ids : Uuids) (command : CreateRecurringBookingSeriesCommand) (title : BookingTitle)
    (prepared : PreparedSeries) (review : SeriesReview) : BookingSeries where
  id := ids.series
  userId := prepared.bookerId
  ministryId := command.ministryId
  firstOccurrenceDate := command.firstOccurrenceDate
  lastOccurrenceDate := command.lastOccurrenceDate
  localStartTime := command.localStartTime
  localEndTime := command.localEndTime
  status := seriesStatus review.quotes
  paymentHoldExpiresAt := review.paymentHoldExpiresAt
  billedHours := review.quotes.foldl (fun sum q => Decimal.fit (sum + lineHours q)) 0
  subtotalAmount := review.quotes.foldl (fun sum q => Decimal.fit (sum + q.subtotalAmount)) 0
  discountPercent := review.quotes.foldl (fun _ q => q.discountPercent) 0
  discountAmount := review.quotes.foldl (fun sum q => Decimal.fit (sum + q.discountAmount)) 0
  surchargeAmount := review.quotes.foldl (fun sum q => Decimal.fit (sum + q.surchargeAmount)) 0
  quotedAmount := review.quotes.foldl (fun sum q => Decimal.fit (sum + q.quotedAmount)) 0
  currency := review.quotes.foldl (fun _ q => q.currency) "CAD"
  isMissionAligned := review.quotes.all Quote.isFreeMinistry
  isPriority := prepared.isPriority
  remark := command.remark
  title

/-- The Booking of the occurrence at place `idx`. -/
def occurrenceRow (ids : Uuids) (command : CreateRecurringBookingSeriesCommand)
    (title : BookingTitle) (bookerId : UUID) (status : BookingStatus) (idx : Nat)
    (o : PreparedOccurrence) (quote : Quote) : Booking where
  id := ids.booking idx
  seriesId := some ids.series
  userId := bookerId
  facilityId := primaryFacilityId (occurrenceLines command.rooms o)
  ministryId := command.ministryId
  bookingType := .recurring
  startAt := o.startAt
  endAt := o.endAt
  status
  isMissionAligned := quote.isFreeMinistry
  billedHours := lineHours quote
  subtotalAmount := quote.subtotalAmount
  discountPercent := quote.discountPercent
  discountAmount := quote.discountAmount
  surchargeAmount := quote.surchargeAmount
  quotedAmount := quote.quotedAmount
  currency := quote.currency
  remark := command.remark
  title

/-- One turn of the loop that inserts the occurrences. -/
def insertOccurrence (ids : Uuids) (command : CreateRecurringBookingSeriesCommand)
    (title : BookingTitle) (bookerId : UUID) (status : BookingStatus)
    (t : Nat × PreparedOccurrence × Quote) : Portal OccurrenceResult := do
  let b := occurrenceRow ids command title bookerId status t.1 t.2.1 t.2.2
  let lines := occurrenceLines command.rooms t.2.1
  insertWithLines b (bookingRoomRows (ids.bookingRoom t.1) b.id lines t.2.2.roomLines)
    (bookingSlotRows (ids.bookingSlot t.1) b.id lines)
  pure ⟨b.id, title, b.startAt, b.endAt, status, t.2.2.quotedAmount, t.2.2.currency,
    lines.map ResolvedBookingLine.facilityId, t.2.2.isFreeMinistry⟩

/-- The occurrences numbered, each with its quote. -/
def numbered (remaining : List PreparedOccurrence) (quotes : List Quote) :
    List (Nat × PreparedOccurrence × Quote) :=
  (remaining.zip quotes).mapIdx fun idx p => (idx, p)

/-- `occurrence_id_by_date[d]`: the last occurrence of a date counts. -/
def occurrenceIdByDate (ids : Uuids) (remaining : List PreparedOccurrence) (d : Int) :
    Option UUID :=
  ((remaining.mapIdx fun idx o => (o.occurrenceDate, ids.booking idx)).reverse.find?
    fun p => p.1 = d).map Prod.snd

/-- Each target with the occurrence that displaces it. -/
def replacements (ids : Uuids) (remaining : List PreparedOccurrence) :
    List (Int × OverrideTarget) → Except ApiError (List (UUID × OverrideTarget))
  | [] => .ok []
  | (d, target) :: rest =>
    match occurrenceIdByDate ids remaining d, replacements ids remaining rest with
    | some id, .ok pairs => .ok ((id, target) :: pairs)
    | none, _ => .error ⟨.valueError, Date.isoformat d, none, []⟩
    | _, .error e => .error e

def displaceSeriesTargets (ids : Uuids) (command : CreateRecurringBookingSeriesCommand)
    (prepared : PreparedSeries) (review : SeriesReview) : Portal Unit :=
  if !review.targets.isEmpty && command.ministryId.isSome then do
    let pairs ← ofExcept (replacements ids review.remaining review.targets)
    applyWholeBookingOverrides pairs prepared.operatorId ids.overrideLog
  else pure ()

def createSeries (app : App) (r : Request) (command : CreateRecurringBookingSeriesCommand) :
    Portal SeriesResult := do
  let title ← requireTitle command
  let prepared ← prepareSeries app r command
  BookingRepository.lockRooms (command.rooms.map BookingRoomLineCommand.facilityId)
  let review ← reviewSeries app command prepared
  let series := seriesRow r.ids command title prepared review
  RecurringBookingRepository.insertSeries series
  let occurrences ← mapEach (numbered review.remaining review.quotes)
    (insertOccurrence r.ids command title prepared.bookerId series.status)
  displaceSeriesTargets r.ids command prepared review
  pure { series, isFreeMinistry := series.isMissionAligned, confirmedById := none, occurrences }

/-! ## 7. The checks only read -/

theorem raiseIfIneligibleBooker_readOnly (app : App) (r : Request) (bookerId : UUID) :
    ReadOnly (raiseIfIneligibleBooker app r bookerId) := by
  have hemail : ∀ own, ReadOnly (raiseIfIneligibleBooker.bookerEmail bookerId own) := by
    intro own
    unfold raiseIfIneligibleBooker.bookerEmail
    split
    · split
      · exact ReadOnly.select _
      · trivial
    · exact ReadOnly.select _
  refine ReadOnly.bind (fun email => ?_) (hemail _)
  split
  · trivial
  · split
    · trivial
    · exact ReadOnly.bind (fun _ => ReadOnly.raiseIf _ _)
        SettingService.getRecurringBookingTestBookerAllowlist_readOnly

theorem effectiveTestWindowOverride_readOnly (app : App) :
    ReadOnly (effectiveTestWindowOverride app) := by
  unfold effectiveTestWindowOverride
  split
  · trivial
  · exact SettingService.getRecurringBookingTestWindowOverride_readOnly

theorem checkSchedule_readOnly (command : CreateRecurringBookingSeriesCommand) :
    ReadOnly (checkSchedule command) :=
  ReadOnly.bind (fun _ => ReadOnly.bind (fun _ => ReadOnly.raiseIf _ _) (ReadOnly.raiseIf _ _))
    (ReadOnly.raiseIf _ _)

theorem seriesPriority_readOnly (ministryId : Option UUID) (bookerId : UUID) :
    ReadOnly (seriesPriority ministryId bookerId) := by
  cases ministryId with
  | none => trivial
  | some m =>
    refine ReadOnly.bind (fun ministry => ReadOnly.bind (fun _ => ReadOnly.bind (fun _ =>
      ReadOnly.bind (fun _ => ReadOnly.bind (fun _ => ReadOnly.ret _) (ReadOnly.raiseIf _ _))
      (ReadOnly.select _)) (ReadOnly.raiseIf _ _)) ?_) (ReadOnly.select _)
    cases ministry with
    | none => exact ReadOnly.select _
    | some _ => trivial

theorem prepareSeries_readOnly (app : App) (r : Request)
    (command : CreateRecurringBookingSeriesCommand) : ReadOnly (prepareSeries app r command) := by
  refine ReadOnly.bind (fun _ => ?_) (BookingService.authenticatedUser_readOnly _)
  refine ReadOnly.bind (fun _ => ?_) (raiseIfIneligibleBooker_readOnly _ _ _)
  refine ReadOnly.bind (fun _ => ?_) (ReadOnly.raiseIf _ _)
  refine ReadOnly.bind (fun _ => ?_) (ReadOnly.raiseIf _ _)
  refine ReadOnly.bind (fun _ => ?_) (BookingService.raiseIfTooManyBookingLines_readOnly _)
  refine ReadOnly.bind (fun _ => ?_) (checkSchedule_readOnly _)
  refine ReadOnly.bind (fun _ => ?_) (SettingService.getFacilityTimezone_readOnly _)
  refine ReadOnly.bind (fun _ => ?_) ReadOnly.now
  refine ReadOnly.bind (fun _ => ?_) SettingService.getRecurringBookingAvailabilityWindow_readOnly
  refine ReadOnly.bind (fun _ => ?_) (effectiveTestWindowOverride_readOnly _)
  refine ReadOnly.bind (fun _ => ?_) (ReadOnly.raiseIf _ _)
  refine ReadOnly.bind (fun _ => ?_) SettingService.getMinRecurringBookingWeeks_readOnly
  refine ReadOnly.bind (fun _ => ?_) (ReadOnly.raiseIf _ _)
  refine ReadOnly.bind (fun _ => ?_) (ReadOnly.ofExcept _)
  refine ReadOnly.bind (fun _ => ?_) (ReadOnly.ofExcept _)
  exact ReadOnly.bind (fun _ => ReadOnly.ret _) (seriesPriority_readOnly _ _)

theorem tryPrepare_readOnly (app : App) (r : Request)
    (command : CreateRecurringBookingSeriesCommand) : ReadOnly (tryPrepare app r command) := by
  refine ReadOnly.tryCatch (fun e => ?_)
    (ReadOnly.bind (fun _ => ReadOnly.ret _) (prepareSeries_readOnly _ _ _))
  split <;> trivial

theorem weeklyQuotaConflictDates_readOnly (bookerId : UUID) (occurrences : List PreparedOccurrence)
    (localTz : Zone) : ReadOnly (weeklyQuotaConflictDates bookerId occurrences localTz) := by
  unfold weeklyQuotaConflictDates
  split
  · trivial
  · exact ReadOnly.bind (fun _ => ReadOnly.ret _) (ReadOnly.select _)

theorem quotaConflicts_readOnly (command : CreateRecurringBookingSeriesCommand)
    (prepared : PreparedSeries) : ReadOnly (quotaConflicts command prepared) := by
  unfold quotaConflicts
  split
  · trivial
  · exact ReadOnly.bind (fun _ => ReadOnly.ret _) (weeklyQuotaConflictDates_readOnly _ _ _)

theorem ministryConflict_readOnly (command : CreateRecurringBookingSeriesCommand)
    (o : PreparedOccurrence) (items : List OccupyingBooking) :
    ReadOnly (ministryConflict command o items) := by
  unfold ministryConflict
  split
  · trivial
  · split
    · trivial
    · refine ReadOnly.bind (fun _ => ReadOnly.ret _) ?_
      unfold seriesStewardContact
      split
      · trivial
      · exact primaryStewardContact_readOnly _

theorem openingHoursRooms_readOnly (command : CreateRecurringBookingSeriesCommand) (tz : Zone)
    (o : PreparedOccurrence) (ids : List UUID) :
    ReadOnly (openingHoursRooms command tz o ids) := by
  unfold openingHoursRooms
  split
  · refine ReadOnly.foldEach (fun acc room => ?_) _ _
    unfold openingHoursRoom
    split
    · trivial
    · exact ReadOnly.bind (fun _ => ReadOnly.ret _) (ReadOnly.select _)
  · trivial

theorem occurrenceConflicts_readOnly (command : CreateRecurringBookingSeriesCommand)
    (prepared : PreparedSeries) (o : PreparedOccurrence) :
    ReadOnly (occurrenceConflicts command prepared o) := by
  refine ReadOnly.bind (fun _ => ReadOnly.bind (fun _ => ReadOnly.bind (fun _ => ReadOnly.bind
    (fun _ => ReadOnly.ret _) (openingHoursRooms_readOnly _ _ _ _)) ?_)
    (ministryConflict_readOnly _ _ _)) ?_
  · exact ReadOnly.foldEach (fun _ _ => ReadOnly.bind (fun _ => ReadOnly.ret _)
      (hasBlackoutOverlap_readOnly _ _ _ _)) _ _
  · exact ReadOnly.foldEach (fun _ _ => ReadOnly.bind (fun _ => ReadOnly.ret _)
      (ReadOnly.select _)) _ _

theorem collectConflicts_readOnly (command : CreateRecurringBookingSeriesCommand)
    (prepared : PreparedSeries) : ReadOnly (collectConflicts command prepared) :=
  ReadOnly.bind (fun _ => ReadOnly.bind (fun _ => ReadOnly.ret _)
    (ReadOnly.mapEach (occurrenceConflicts_readOnly _ _) _)) (quotaConflicts_readOnly _ _)

theorem raiseRemainingConflict_readOnly (blocking : List SeriesConflict) :
    ReadOnly (raiseRemainingConflict blocking) := by
  cases blocking <;> trivial

theorem unexcludedOccurrences_readOnly (command : CreateRecurringBookingSeriesCommand)
    (prepared : PreparedSeries) : ReadOnly (unexcludedOccurrences command prepared) := by
  refine ReadOnly.bind (fun _ => ?_) (collectConflicts_readOnly _ _)
  refine ReadOnly.bind (fun _ => ?_) (ReadOnly.raiseIf _ _)
  refine ReadOnly.bind (fun _ => ?_) SettingService.getMinRecurringBookingWeeks_readOnly
  refine ReadOnly.bind (fun _ => ?_) (ReadOnly.raiseIf _ _)
  exact ReadOnly.bind (fun _ => ReadOnly.ret _) (raiseRemainingConflict_readOnly _)

theorem overrideTargets_readOnly (conflicts : List SeriesConflict) (tz : Zone) :
    ReadOnly (overrideTargets conflicts tz) := by
  unfold overrideTargets
  dsimp only
  split
  · trivial
  · exact ReadOnly.bind (fun _ => ReadOnly.ret _) (ReadOnly.select _)

theorem quoteOccurrence_readOnly (command : CreateRecurringBookingSeriesCommand) (bookerId : UUID)
    (o : PreparedOccurrence) : ReadOnly (quoteOccurrence command bookerId o) :=
  PricingService.previewQuote_readOnly _

theorem quoteOccurrences_readOnly (command : CreateRecurringBookingSeriesCommand)
    (occurrences : List PreparedOccurrence) (bookerId : UUID) :
    ReadOnly (quoteOccurrences command occurrences bookerId) :=
  ReadOnly.bind (fun _ => ReadOnly.ret _) (ReadOnly.mapEach (quoteOccurrence_readOnly _ _) _)

theorem pendingPaymentHold_readOnly (app : App) (nowUtc : Int) :
    ReadOnly (pendingPaymentHold app nowUtc) := by
  refine ReadOnly.bind (fun _ => ReadOnly.bind (fun _ => ?_)
    (SettingService.getFacilityTimezone_readOnly _)) SettingService.getPendingPaymentHoldDays_readOnly
  split <;> trivial

theorem proposalPaymentHold_readOnly (app : App) (command : CreateRecurringBookingSeriesCommand)
    (nowUtc : Int) : ReadOnly (proposalPaymentHold app command nowUtc) := by
  unfold proposalPaymentHold
  split
  · trivial
  · exact ReadOnly.bind (fun _ => ReadOnly.ret _) (pendingPaymentHold_readOnly _ _)

theorem seriesPaymentHold_readOnly (app : App) (nowUtc : Int) (quotes : List Quote) :
    ReadOnly (seriesPaymentHold app nowUtc quotes) := by
  unfold seriesPaymentHold
  split
  · trivial
  · exact ReadOnly.bind (fun _ => ReadOnly.ret _) (pendingPaymentHold_readOnly _ _)

theorem reviewSeries_readOnly (app : App) (command : CreateRecurringBookingSeriesCommand)
    (prepared : PreparedSeries) : ReadOnly (reviewSeries app command prepared) := by
  refine ReadOnly.bind (fun _ => ?_) (unexcludedOccurrences_readOnly _ _)
  refine ReadOnly.bind (fun _ => ?_) (overrideTargets_readOnly _ _)
  refine ReadOnly.bind (fun _ => ?_) (ReadOnly.ofExcept _)
  refine ReadOnly.bind (fun _ => ?_) (ReadOnly.mapEach (quoteOccurrence_readOnly _ _) _)
  exact ReadOnly.bind (fun _ => ReadOnly.ret _) (seriesPaymentHold_readOnly _ _ _)

end RecurringBookingService

end NewlifeCore
