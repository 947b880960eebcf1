import NewlifeCore.Facility.OneTimeOverride
import NewlifeCore.Facility.Pricing

/-!
# `BookingService`

`create_booking` and the cancellation of one Booking.  Listing, browsing and titles touch no
status and no slot and are left out.
-/

namespace NewlifeCore

open Txn Prog

/-! ## 1. Rows of a new Booking -/

/-- The room rows of a Booking: a quote has one line for each of the Booking's. -/
def bookingRoomRows (id : Nat → UUID) (bookingId : UUID) (lines : List ResolvedBookingLine)
    (quoted : List QuotedLine) : List BookingRoom :=
  (lines.zip quoted).mapIdx fun idx p =>
    { id := id idx
      facilityBookingId := bookingId
      facilityId := p.1.facilityId
      sequence := p.1.sequence
      startAt := p.1.startAt
      endAt := p.1.endAt
      billedHours := p.2.billedHours
      rentalRateName := p.2.rentalRateName
      billingUnit := p.2.billingUnit
      unitAmount := p.2.unitAmount
      currency := p.2.currency
      applicability := p.2.applicability
      isDefault := p.2.isDefault
      lineSubtotal := p.2.lineSubtotal }

/-- The slot rows of a Booking, one for each line. -/
def bookingSlotRows (id : Nat → UUID) (bookingId : UUID) (lines : List ResolvedBookingLine) :
    List BookingSlot :=
  lines.mapIdx fun idx line =>
    ⟨id idx, bookingId, line.facilityId, line.startAt, line.endAt, .confirmed⟩

/-- A quote line for a room line. -/
def ResolvedBookingLine.toQuoteLine (line : ResolvedBookingLine) : QuoteLine :=
  ⟨line.facilityId, billedHours line.startAt line.endAt⟩

/-- A Booking with its rooms and slots, inserted in that order. -/
def insertWithLines (b : Booking) (rooms : List BookingRoom) (slots : List BookingSlot) :
    Portal Unit := do
  BookingRepository.insertBooking b
  BookingRepository.replaceBookingRooms b.id rooms
  BookingRepository.replaceBookingSlots b.id slots

/-! ## 2. Checks -/

def authenticatedUser (r : Request) : Portal UUID :=
  match r.operatorId with
  | none => raise (forbidden "Authenticated user required")
  | some id => pure id

/-- `normalize_member_cancellation_reason`. -/
def normalizeMemberCancellationReason (value : String) : Except ApiError String :=
  let trimmed := strip value
  if trimmed.length < 1 || trimmed.length > 250 then
    .error (badRequest "Cancellation reason must be between 1 and 250 characters"
      (some .bookingCancelReasonInvalid))
  else .ok trimmed

/-- `is_current_booking_participant`. -/
def isCurrentBookingParticipant (viewerId bookerId : UUID) (ministryId : Option UUID)
    (ownedMinistryIds : List UUID) : Bool :=
  viewerId = bookerId || ministryId.any fun m => ownedMinistryIds.contains m

namespace BookingService

def raiseIfTooManyBookingLines (rooms : List BookingRoomLineCommand) : Portal Unit := do
  let maxLines ← SettingService.getMaxBookingLines
  raiseIf (rooms.length > maxLines)
    (badRequest s!"At most {maxLines} rooms per booking" (some .bookingMaxRooms))

def validateMinistryBookingGate (ministryId : Option UUID) (bookerId : UUID) : Portal Unit :=
  match ministryId with
  | none => pure ()
  | some ministryId => do
    let status ← MinistryRepository.getStatus ministryId
    raiseIf (status ≠ some .active) (badRequest "Ministry must be active for booking"
      (some .bookingMinistryInactive) [("ministry_id", some ministryId)])
    let member ← MinistryRepository.isUserBookingMember ministryId bookerId
    raiseIf (!member) (forbidden "User is not a ministry owner")

def raiseSchedulingConflict (conflicts : List BookingConflict) : Portal Unit :=
  match conflicts with
  | [] => pure ()
  | first :: _ => raise (conflictError s!"Room {first.facilityId} has a scheduling conflict"
      (some .schedulingConflict) [("facility_id", some first.facilityId)])

/-- The Draft a command names. -/
def draftOf (bookingDraftId : Option UUID) : Portal (Option BookingDraftDetail) :=
  match bookingDraftId with
  | none => pure none
  | some id => BookingDraftRepository.getDetail id

/-- The Draft, where the Booker owns it. -/
def ownedDraft (draft : Option BookingDraftDetail) (bookerId : UUID) : Option BookingDraftDetail :=
  draft.filter fun d => d.draft.userId = bookerId

/-- An owned Draft's title goes before the command's. -/
def requireTitle (command : CreateBookingCommand) (draft : Option BookingDraftDetail)
    (bookerId : UUID) : Portal BookingTitle :=
  match ((ownedDraft draft bookerId).map fun d => d.draft.title).orElse fun _ => command.title with
  | none => raise (badRequest "Title is required" (some .bookingTitleInvalid))
  | some title => pure title

/-! ## 3. `create_booking` -/

/-- What was checked before the rooms are locked. -/
structure Proposal where
  operatorId : UUID
  bookerId : UUID
  draft : Option BookingDraftDetail
  title : BookingTitle
  localTz : Zone
  lines : List ResolvedBookingLine

/-- `create_booking` up to `lock_rooms`. -/
def prepareBooking (app : App) (r : Request) (command : CreateBookingCommand) :
    Portal Proposal := do
  raiseIf command.rooms.isEmpty
    (badRequest "At least one room is required" (some .bookingRoomsRequired))
  let operatorId ← authenticatedUser r
  let bookerId := command.userId.getD operatorId
  validateMinistryBookingGate command.ministryId bookerId
  let draft ← draftOf command.bookingDraftId
  let title ← requireTitle command draft bookerId
  raiseIfTooManyBookingLines command.rooms
  let localTz ← SettingService.getFacilityTimezone app
  let lines := resolveBookingLines command.rooms command.startAt command.endAt
  ofExcept (validateBookingLines lines localTz)
  pure { operatorId, bookerId, draft, title, localTz, lines }

/-- What the checks under the room locks found. -/
structure Review where
  context : Option MinistryProposalContext
  evaluation : OneTimeOccupancyEvaluation
  quote : Quote

/-- `create_booking` from the room locks to its first write. -/
def reviewBooking (app : App) (command : CreateBookingCommand) (p : Proposal) :
    Portal Review := do
  let nowUtc ← now
  let context ← proposalContext command.ministryId p.bookerId
  let evaluation ← evaluateOneTimeOccupancy p.lines context nowUtc p.localTz
    command.allowPriorityOverride
  raiseSchedulingConflict evaluation.conflicts
  each p.lines fun line => raiseIfRoomClosed line.facilityId line.startAt line.endAt p.localTz
    command.enforceOpeningHours
  ofExcept (requireReviewedOverride app.review command.overrideReviewToken p.bookerId
    command.ministryId (oneTimeProposal p.lines) evaluation.impacts)
  let quote ← PricingService.previewQuote {
    bookingType := .oneTime
    roomLines := p.lines.map ResolvedBookingLine.toQuoteLine
    surchargeCodes := command.surchargeCodes
    ministryId := command.ministryId
    bookerId := p.bookerId }
  pure { context, evaluation, quote }

/-- The header row. -/
def bookingRow (ids : Uuids) (command : CreateBookingCommand) (p : Proposal) (quote : Quote) :
    Booking where
  id := ids.booking 0
  userId := p.bookerId
  facilityId := primaryFacilityId p.lines
  ministryId := command.ministryId
  bookingType := .oneTime
  startAt := (envelopeInterval p.lines).1
  endAt := (envelopeInterval p.lines).2
  status := .confirmed
  isMissionAligned := quote.isFreeMinistry
  billedHours := quote.roomLines.foldl (fun sum line => Decimal.fit (sum + line.billedHours)) 0
  subtotalAmount := quote.subtotalAmount
  discountPercent := quote.discountPercent
  discountAmount := quote.discountAmount
  surchargeAmount := quote.surchargeAmount
  quotedAmount := quote.quotedAmount
  currency := quote.currency
  remark := command.remark
  title := p.title

/-- The displacement a Ministry's proposal ends with. -/
def displaceTargets (ids : Uuids) (p : Proposal) (review : Review) : Portal Unit :=
  if !review.evaluation.targets.isEmpty && review.context.isSome then
    applyWholeBookingOverrides (review.evaluation.targets.map fun target => (ids.booking 0, target))
      p.operatorId ids.overrideLog
  else pure ()

/-- Only the Booker's own Draft is deleted. -/
def deleteOwnedDraft (bookingDraftId : Option UUID) (p : Proposal) : Portal Unit :=
  match bookingDraftId with
  | none => pure ()
  | some id =>
    if (ownedDraft p.draft p.bookerId).isSome then BookingDraftRepository.deleteDraft id else pure ()

def createBooking (app : App) (r : Request) (command : CreateBookingCommand) : Portal UUID := do
  let p ← prepareBooking app r command
  -- held to commit or rollback, between the checks and the writes
  BookingRepository.lockRooms (p.lines.map ResolvedBookingLine.facilityId)
  let review ← reviewBooking app command p
  insertWithLines (bookingRow r.ids command p review.quote)
    (bookingRoomRows (r.ids.bookingRoom 0) (r.ids.booking 0) p.lines review.quote.roomLines)
    (bookingSlotRows (r.ids.bookingSlot 0) (r.ids.booking 0) p.lines)
  displaceTargets r.ids p review
  deleteOwnedDraft command.bookingDraftId p
  pure (r.ids.booking 0)

/-! ## 4. Cancellation -/

def cancelBooking (r : Request) (bookingId : UUID) (command : CancelBookingCommand) :
    Portal Unit := do
  let known ← BookingRepository.existsById bookingId
  raiseIf (!known) (notFound "Booking not found" (some .bookingNotFound)
    [("booking_id", some bookingId)])
  BookingRepository.cancelBooking bookingId r.operatorId command.cancelReason
    (command.scope ≠ "series")

def requireParticipantBooking (bookingId userId : UUID) : Portal Booking := do
  let missing := notFound "Booking not found" (some .bookingNotFound)
    [("booking_id", some bookingId)]
  match ← BookingRepository.getDetail bookingId with
  | none => raise missing
  | some row =>
    let owned ← MinistryRepository.listOwnedActive userId
    raiseIf (!isCurrentBookingParticipant userId row.userId row.ministryId owned) missing
    pure row

def cancelMyBooking (r : Request) (bookingId : UUID) (command : CancelBookingCommand) :
    Portal Unit := do
  let userId ← authenticatedUser r
  let row ← requireParticipantBooking bookingId userId
  raiseIf (row.userId ≠ userId) (forbidden "Cannot cancel another user's booking")
  let cancelReason ← ofExcept (normalizeMemberCancellationReason (command.cancelReason.getD ""))
  cancelBooking r bookingId { scope := command.scope, cancelReason := some cancelReason }

/-! ## 5. The checks only read -/

@[simp] theorem authenticatedUser_readOnly (r : Request) : ReadOnly (authenticatedUser r) := by
  unfold authenticatedUser
  split <;> trivial

theorem validateMinistryBookingGate_readOnly (ministryId : Option UUID) (bookerId : UUID) :
    ReadOnly (validateMinistryBookingGate ministryId bookerId) := by
  cases ministryId with
  | none => trivial
  | some m =>
    exact ReadOnly.bind (fun _ => ReadOnly.bind (fun _ => ReadOnly.bind
      (fun _ => ReadOnly.raiseIf _ _) (ReadOnly.select _)) (ReadOnly.raiseIf _ _))
      (ReadOnly.select _)

theorem draftOf_readOnly (bookingDraftId : Option UUID) : ReadOnly (draftOf bookingDraftId) := by
  cases bookingDraftId with
  | none => trivial
  | some id =>
    refine ReadOnly.bind (fun d => ?_) (ReadOnly.select _)
    cases d with
    | none => trivial
    | some d => exact ReadOnly.bind (fun _ => ReadOnly.ret _) (ReadOnly.select _)

theorem requireTitle_readOnly (command : CreateBookingCommand) (draft : Option BookingDraftDetail)
    (bookerId : UUID) : ReadOnly (requireTitle command draft bookerId) := by
  unfold requireTitle
  split <;> trivial

theorem raiseIfTooManyBookingLines_readOnly (rooms : List BookingRoomLineCommand) :
    ReadOnly (raiseIfTooManyBookingLines rooms) :=
  ReadOnly.bind (fun _ => ReadOnly.raiseIf _ _) SettingService.getMaxBookingLines_readOnly

theorem prepareBooking_readOnly (app : App) (r : Request) (command : CreateBookingCommand) :
    ReadOnly (prepareBooking app r command) := by
  refine ReadOnly.bind (fun _ => ?_) (ReadOnly.raiseIf _ _)
  refine ReadOnly.bind (fun _ => ?_) (authenticatedUser_readOnly _)
  refine ReadOnly.bind (fun _ => ?_) (validateMinistryBookingGate_readOnly _ _)
  refine ReadOnly.bind (fun _ => ?_) (draftOf_readOnly _)
  refine ReadOnly.bind (fun _ => ?_) (requireTitle_readOnly _ _ _)
  refine ReadOnly.bind (fun _ => ?_) (raiseIfTooManyBookingLines_readOnly _)
  refine ReadOnly.bind (fun _ => ?_) (SettingService.getFacilityTimezone_readOnly _)
  exact ReadOnly.bind (fun _ => ReadOnly.ret _) (ReadOnly.ofExcept _)

theorem raiseSchedulingConflict_readOnly (conflicts : List BookingConflict) :
    ReadOnly (raiseSchedulingConflict conflicts) := by
  cases conflicts <;> trivial

theorem reviewBooking_readOnly (app : App) (command : CreateBookingCommand) (p : Proposal) :
    ReadOnly (reviewBooking app command p) := by
  refine ReadOnly.bind (fun _ => ?_) ReadOnly.now
  refine ReadOnly.bind (fun _ => ?_) (proposalContext_readOnly _ _)
  refine ReadOnly.bind (fun _ => ?_) (evaluateOneTimeOccupancy_readOnly _ _ _ _ _)
  refine ReadOnly.bind (fun _ => ?_) (raiseSchedulingConflict_readOnly _)
  refine ReadOnly.bind (fun _ => ?_) (ReadOnly.each (fun _ => raiseIfRoomClosed_readOnly _ _ _ _ _) _)
  refine ReadOnly.bind (fun _ => ?_) (ReadOnly.ofExcept _)
  exact ReadOnly.bind (fun _ => ReadOnly.ret _) (PricingService.previewQuote_readOnly _)

theorem requireParticipantBooking_readOnly (bookingId userId : UUID) :
    ReadOnly (requireParticipantBooking bookingId userId) := by
  refine ReadOnly.bind (fun row => ?_) (ReadOnly.select _)
  cases row with
  | none => trivial
  | some row =>
    exact ReadOnly.bind (fun _ => ReadOnly.bind (fun _ => ReadOnly.ret _) (ReadOnly.raiseIf _ _))
      (ReadOnly.select _)

end BookingService

end NewlifeCore
