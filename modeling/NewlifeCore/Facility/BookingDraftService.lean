import NewlifeCore.Facility.BookingService

/-!
# `BookingDraftService`: the review of a Draft

`get_draft` evaluates a stored Draft live.  It reads the same rows as `create_booking` does, in a
pipeline of its own.
-/

namespace NewlifeCore

open Txn Prog

/-- `BookingDraftLineResult`. -/
structure DraftLineResult where
  facilityId : UUID
  startAt : Int
  endAt : Int
  sequence : Int
  isAvailable : Bool

/-- `BookingDraftResult`. -/
structure BookingDraftResult where
  id : UUID
  title : BookingTitle
  date : Int
  ministryId : Option UUID
  lines : List DraftLineResult
  quote : Quote
  isConfirmable : Bool
  conflicts : List BookingConflict
  overrideImpacts : List OverrideImpact
  overrideReviewToken : Option String

namespace BookingDraftService

def getOwnedDraftOr404 (bookingDraftId userId : UUID) : Portal BookingDraftDetail := do
  let missing := notFound "Booking draft not found" (some .bookingDraftNotFound)
    [("booking_draft_id", some bookingDraftId)]
  match ← BookingDraftRepository.getDetail bookingDraftId with
  | none => raise missing
  | some row =>
    raiseIf (row.draft.userId ≠ userId) missing
    pure row

/-- The Draft's lines as a proposal. -/
def draftLines (row : BookingDraftDetail) : List ResolvedBookingLine :=
  row.lines.map fun line => ⟨line.facilityId, line.startAt, line.endAt, line.sequence⟩

/-- The conflict of a line that is closed for a reason. -/
def closedLine (line : ResolvedBookingLine) (closed : Bool) (kind : RecurringConflictKind) :
    List BookingConflict :=
  if closed then
    [{ facilityId := line.facilityId, startAt := line.startAt, endAt := line.endAt, kind }]
  else []

/-- One turn of the loop over the lines: the line's result and its closing conflicts. -/
def reviewLine (localTz : Zone) (line : ResolvedBookingLine) :
    Portal (DraftLineResult × List BookingConflict) := do
  let templates ← RoomSlotTemplateRepository.listActiveForDay line.facilityId
    (Date.weekday (localTz.localDate line.startAt))
  let outsideOpening := !memberIntervalWithinOpeningHours line.startAt line.endAt templates localTz
  let isBlackout ← RoomBlackoutRepository.hasBlackoutOverlap line.facilityId line.startAt line.endAt
    localTz
  let isOccupied ← BookingRepository.hasConfirmedSlotOverlap line.facilityId line.startAt line.endAt
  pure (⟨line.facilityId, line.startAt, line.endAt, line.sequence,
      !(isOccupied || isBlackout || outsideOpening)⟩,
    closedLine line isBlackout .blackout ++ closedLine line outsideOpening .openingHours)

/-- A token for what would be displaced, where the Draft can be confirmed. -/
def draftToken (app : App) (userId : UUID) (row : BookingDraftDetail) (isConfirmable : Bool)
    (impacts : List OverrideImpact) : Option String :=
  if isConfirmable && !impacts.isEmpty then
    some (issueOverrideReviewToken app.review userId row.draft.ministryId
      (oneTimeProposal (draftLines row)) impacts)
  else none

def getDraft (app : App) (r : Request) (bookingDraftId : UUID) : Portal BookingDraftResult := do
  let userId ← authenticatedUser r
  let row ← getOwnedDraftOr404 bookingDraftId userId
  let localTz ← SettingService.getFacilityTimezone app
  let lines := draftLines row
  let context ← proposalContext row.draft.ministryId userId
  let nowUtc ← now
  let evaluation ← evaluateOneTimeOccupancy lines context nowUtc localTz true
  let reviewed ← mapEach lines (reviewLine localTz)
  let conflicts := evaluation.conflicts ++ (reviewed.map Prod.snd).flatten
  let quote ← PricingService.previewQuote {
    bookingType := .oneTime
    roomLines := lines.map ResolvedBookingLine.toQuoteLine
    ministryId := row.draft.ministryId
    bookerId := userId }
  let isConfirmable := !lines.isEmpty && conflicts.isEmpty &&
    (row.draft.ministryId.isNone || context.isSome)
  pure {
    id := bookingDraftId
    title := row.draft.title
    date := row.draft.date
    ministryId := row.draft.ministryId
    lines := reviewed.map Prod.fst
    quote
    isConfirmable
    conflicts
    overrideImpacts := evaluation.impacts
    overrideReviewToken := draftToken app userId row isConfirmable evaluation.impacts }

end BookingDraftService

end NewlifeCore
