import NewlifeCore.Facility.BookingRepository

/-!
# The other repositories

Series, Blackouts, opening-hours templates, Ministries, Drafts, override logs, users and rooms.
`update_series` takes a dict of column values; here it takes the change those values make.
-/

namespace NewlifeCore

open Txn Prog

/-! ## 1. Series -/

namespace RecurringBookingRepository

def insertSeries (s : BookingSeries) : Portal Unit :=
  insertInto seriesTable (fun r => r.firstOccurrenceDate ≤ r.lastOccurrenceDate &&
    r.localStartTime < r.localEndTime) [s]

/-- A row fetched without a model class: its amount and its hold are formatted. -/
def formatRow (s : BookingSeries) : BookingSeries :=
  { s with quotedAmount := Converter.formatDecimal s.quotedAmount
           paymentHoldExpiresAt := s.paymentHoldExpiresAt.map Converter.formatInstant }

def getById (seriesId : UUID) : Portal (Option BookingSeries) :=
  select fun db _ => (db.series.find? fun s => s.id = seriesId && !s.isDeleted).map formatRow

def updateSeries (seriesId : UUID) (values : BookingSeries → BookingSeries)
    (hid : ∀ s, (values s).id = s.id) : Portal Unit :=
  updateTable seriesTable (fun s => s.id = seriesId && !s.isDeleted) values
    fun s => congrArg RowName.series (hid s)

def listExpiredPendingSeries (now : Int) : Portal (List BookingSeries) :=
  select fun db _ =>
    ((db.series.filter fun s => !s.isDeleted && s.status = .pendingPayment &&
      s.paymentHoldExpiresAt.any (· ≤ now)).insertionSort
        fun a b => a.paymentHoldExpiresAt.getD 0 ≤ b.paymentHoldExpiresAt.getD 0).map formatRow

/-- `PendingPaymentSeriesListItemResult`, without the names of its booker and Ministry. -/
structure PendingPaymentSeriesListItem where
  id : UUID
  userId : UUID
  ministryId : Option UUID
  quotedAmount : Decimal
  currency : String
  occurrenceCount : Nat
  paymentHoldExpiresAt : Option Int
  isPriority : Bool
deriving DecidableEq

/-- `_actionable_pending_hold_clause`. -/
def actionablePendingHold (s : BookingSeries) (now : Int) : Bool :=
  s.paymentHoldExpiresAt.all fun t => now < t

/-- `payment_hold_expires_at.asc().nullslast()`. -/
def holdNotAfter (a b : BookingSeries) : Bool :=
  match a.paymentHoldExpiresAt, b.paymentHoldExpiresAt with
  | some t, some t' => t ≤ t'
  | _, none => true
  | none, some _ => false

/-- Fetched as a model: the rows are not formatted. -/
def listPendingPaymentSeries (now : Int) : Portal (List PendingPaymentSeriesListItem) :=
  select fun db _ =>
    ((db.series.filter fun s => !s.isDeleted && s.status = .pendingPayment &&
      actionablePendingHold s now).insertionSort fun a b => holdNotAfter a b).map fun s =>
      ⟨s.id, s.userId, s.ministryId, s.quotedAmount, s.currency,
        (db.bookings.filter fun b => b.seriesId = some s.id && !b.isDeleted).length,
        s.paymentHoldExpiresAt, s.isPriority⟩

def tryAcquireSweepLock : Portal Bool := tryAcquire .sweep

/-- A session lock is released by a SELECT. -/
def releaseSweepLock : Portal Unit := select fun _ _ => ()

end RecurringBookingRepository

/-! ## 2. Blackouts -/

namespace RoomBlackoutRepository

def getById (blackoutId : UUID) : Portal (Option RoomBlackout) :=
  select fun db _ => db.blackouts.find? fun b => b.id = blackoutId

def insertBlackout (b : RoomBlackout) : Portal Unit :=
  insertInto blackoutTable (fun r => r.startTime < r.endTime) [b]

def updateBlackout (blackoutId : UUID) (values : RoomBlackout → RoomBlackout)
    (hid : ∀ b, (values b).id = b.id) : Portal Nat :=
  updateTableCount blackoutTable (fun b => b.id = blackoutId && !b.isDeleted) values
    fun b => congrArg RowName.blackout (hid b)

def deleteSoft (blackoutId : UUID) (reason : Option String) : Portal Unit :=
  updateTable blackoutTable (fun b => b.id = blackoutId)
    (fun b => { b with isDeleted := true, deleteReason := reason }) fun _ => rfl

def deleteHard (blackoutId : UUID) : Portal Unit :=
  deleteFrom blackoutTable fun b => b.id = blackoutId

def restoreBlackout (blackoutId : UUID) : Portal Unit :=
  updateTable blackoutTable (fun b => b.id = blackoutId)
    (fun b => { b with isDeleted := false, deleteReason := none }) fun _ => rfl

def effectiveDatesOverlap (leftFrom leftTo rightFrom rightTo : Option Int) : Bool :=
  !(leftFrom.any fun l => rightTo.any fun r => l > r) &&
    !(rightFrom.any fun r => leftTo.any fun l => r > l)

def timeRangesOverlap (leftStart leftEnd rightStart rightEnd : TimeOfDay) : Bool :=
  leftStart < rightEnd && rightStart < leftEnd

/-- Campus-wide overlaps every room. -/
def scopesOverlap (left right : Option UUID) : Bool :=
  left.isNone || right.isNone || left = right

/-- Bit `day` of a weekday mask. -/
def maskHasDay (mask : Nat) (day : Int) : Bool := mask.testBit day.toNat

def appliesOnDate (item : RoomBlackout) (targetDate : Int) : Bool :=
  match item.kind with
  | .oneOff => item.blackoutDate = some targetDate
  | .recurring =>
    if item.effectiveFrom.any (targetDate < ·) then false
    else if item.effectiveTo.any (targetDate > ·) then false
    else item.daysOfWeekMask.any fun mask => maskHasDay mask (Date.weekday targetDate)

def listActiveOverlappingCandidates (facilityId : Option UUID) (kind : RoomBlackoutKind)
    (excludeBlackoutId : Option UUID) : Portal (List RoomBlackout) :=
  select fun db _ => db.blackouts.filter fun b => !b.isDeleted && b.isActive && b.kind = kind &&
    (facilityId.isNone || b.facilityId = facilityId || b.facilityId.isNone) &&
    !(excludeBlackoutId = some b.id)

/-- The WHERE clause of `list_active_for_room_day`. -/
def activeForRoomDay (b : RoomBlackout) (facilityId : UUID) (targetDate : Int) : Bool :=
  !b.isDeleted && b.isActive && (b.facilityId = some facilityId || b.facilityId.isNone) &&
    ((b.kind = .oneOff && b.blackoutDate = some targetDate) ||
      (b.kind = .recurring &&
        (b.daysOfWeekMask.any fun mask => maskHasDay mask (Date.weekday targetDate)) &&
        b.effectiveFrom.all (· ≤ targetDate) && b.effectiveTo.all (· ≥ targetDate)))

def listActiveForRoomDay (facilityId : UUID) (targetDate : Int) : Portal (List RoomBlackout) :=
  select fun db _ => (db.blackouts.filter fun b =>
    activeForRoomDay b facilityId targetDate).insertionSort fun a b => a.startTime ≤ b.startTime

def slotOverlapsBlackouts (blackouts : List RoomBlackout) (slotStart slotEnd : TimeOfDay) : Bool :=
  blackouts.any fun item => timeRangesOverlap slotStart slotEnd item.startTime item.endTime

/-- The part of a local interval that is compared on one of its days. -/
def daySlot (localStart localEnd : Int) (day : Int) : TimeOfDay × TimeOfDay :=
  if day = WallClock.date localStart ∧ day = WallClock.date localEnd then
    (WallClock.time localStart, WallClock.time localEnd)
  else if day = WallClock.date localStart then (WallClock.time localStart, .endOfDay)
  else (.midnight, WallClock.time localEnd)

/-- The local days of an interval: its first and its last. -/
def intervalDays (localStart localEnd : Int) : List Int :=
  if WallClock.date localStart ≠ WallClock.date localEnd then
    [WallClock.date localStart, WallClock.date localEnd]
  else [WallClock.date localStart]

def intervalOverlapsBlackout (item : RoomBlackout) (facilityId : UUID) (startAt endAt : Int)
    (tz : Zone) : Bool :=
  if !item.isActive then false
  else if !scopesOverlap item.facilityId (some facilityId) then false
  else
    let localStart := tz.toLocal startAt
    let localEnd := tz.toLocal endAt
    (intervalDays localStart localEnd).any fun day =>
      appliesOnDate item day &&
        timeRangesOverlap (daySlot localStart localEnd day).1 (daySlot localStart localEnd day).2
          item.startTime item.endTime

/-- Day by day, until one day's Blackouts overlap. -/
def anyDayOverlaps (facilityId : UUID) (localStart localEnd : Int) : List Int → Portal Bool
  | [] => pure false
  | day :: days => do
    let blackouts ← listActiveForRoomDay facilityId day
    if slotOverlapsBlackouts blackouts (daySlot localStart localEnd day).1
        (daySlot localStart localEnd day).2 then pure true
    else anyDayOverlaps facilityId localStart localEnd days

def hasBlackoutOverlap (facilityId : UUID) (startAt endAt : Int) (tz : Zone) : Portal Bool :=
  anyDayOverlaps facilityId (tz.toLocal startAt) (tz.toLocal endAt)
    (intervalDays (tz.toLocal startAt) (tz.toLocal endAt))

end RoomBlackoutRepository

/-! ## 3. Opening hours, rooms and users -/

def RoomSlotTemplateRepository.listActiveForDay (facilityId : UUID) (dayOfWeek : Int) :
    Portal (List RoomSlotTemplate) :=
  select fun db _ => (db.slotTemplates.filter fun t => !t.isDeleted && t.isActive &&
    t.facilityId = facilityId &&
    RoomBlackoutRepository.maskHasDay t.daysOfWeekMask dayOfWeek).insertionSort
      fun a b => a.startTime ≤ b.startTime

def RoomRepository.existsById (roomId : UUID) : Portal Bool :=
  select fun db _ => db.rooms.any fun r => r.id = roomId && !r.isDeleted

/-- A deleted room is found too. -/
def RoomRepository.getById (roomId : UUID) : Portal (Option FacilityRoom) :=
  select fun db _ => db.rooms.find? fun r => r.id = roomId

def RoomRepository.listActive : Portal (List FacilityRoom) :=
  select fun db _ => (db.rooms.filter fun r => !r.isDeleted && r.isActive).insertionSort
    fun a b => a.sequence ≤ b.sequence

def UserReadService.emailById (userId : UUID) : Portal (Option String) :=
  select fun db _ => (db.users.find? fun u => u.id = userId).map AuthUser.email

def UserRepository.getSensitiveById (userId : UUID) : Portal (Option AuthUser) :=
  select fun db _ => db.users.find? fun u => u.id = userId && !u.isDeleted

/-! ## 4. Ministries -/

namespace MinistryRepository

/-- A deleted Ministry is found too. -/
def getById (ministryId : UUID) : Portal (Option OrgMinistry) :=
  select fun db _ => db.ministries.find? fun m => m.id = ministryId

def getStatus (ministryId : UUID) : Portal (Option MinistryStatus) :=
  select fun db _ =>
    (db.ministries.find? fun m => m.id = ministryId && !m.isDeleted).map OrgMinistry.status

def isUserBookingMember (ministryId userId : UUID) : Portal Bool :=
  select fun db _ => db.ministryMembers.any fun m => m.ministryId = ministryId && m.userId = userId &&
    (m.memberRole = .primary || m.memberRole = .secondary)

/-- A member with the email and display name of its user. -/
structure MemberResult where
  memberRole : MinistryMemberRole
  email : Option String
  displayName : Option String

def listMembers (ministryId : UUID) : Portal (List MemberResult) :=
  select fun db _ => (db.ministryMembers.filter fun m => m.ministryId = ministryId).map fun m =>
    let user := db.users.find? fun u => u.id = m.userId
    ⟨m.memberRole, user.map AuthUser.email, user.map fun u => u.preferredName.getD u.email⟩

def listOwnedActive (userId : UUID) : Portal (List UUID) :=
  select fun db _ => (db.ministries.filter fun m => !m.isDeleted && m.status = .active &&
    db.ministryMembers.any fun o => o.ministryId = m.id && o.userId = userId &&
      (o.memberRole = .primary || o.memberRole = .secondary)).map OrgMinistry.id

end MinistryRepository

/-! ## 5. Drafts and override logs -/

/-- A Draft with its lines in sequence order. -/
structure BookingDraftDetail where
  draft : BookingDraft
  lines : List BookingDraftLine

namespace BookingDraftRepository

def getDetail (bookingDraftId : UUID) : Portal (Option BookingDraftDetail) := do
  match ← select (fun db _ => db.drafts.find? fun d => d.id = bookingDraftId) with
  | none => pure none
  | some draft =>
    let lines ← select fun db _ => (db.draftLines.filter fun l =>
      l.bookingDraftId = bookingDraftId).insertionSort fun a b => a.sequence ≤ b.sequence
    pure (some ⟨draft, lines⟩)

def deleteDraft (bookingDraftId : UUID) : Portal Unit := do
  deleteFrom draftLineTable fun l => l.bookingDraftId = bookingDraftId
  deleteFrom draftTable fun d => d.id = bookingDraftId

end BookingDraftRepository

def OverrideLogRepository.insertLogs (rows : List BookingOverrideLog) : Portal Unit :=
  if rows.isEmpty then pure () else insertInto overrideLogTable (fun _ => true) rows

end NewlifeCore
