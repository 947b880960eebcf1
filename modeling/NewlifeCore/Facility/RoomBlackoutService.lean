import NewlifeCore.Facility.SeriesLifecycle

/-!
# `RoomBlackoutService`

Creating, changing, deleting and restoring Blackouts.  Only creation looks at the occurrences a
Blackout falls on.
-/

namespace NewlifeCore

open Txn Prog

/-! ## 1. `days_of_week_mask.py` -/

/-- `days_to_mask`; Monday is bit 0. -/
def daysToMask (days : List Int) : Except ApiError Nat :=
  if days.isEmpty then .error (badRequest "days must contain at least one weekday")
  else
    match (days.eraseDups.insertionSort (· ≤ ·)).find? fun d => d < 0 || d > 6 with
    | some d => .error (badRequest s!"day must be between 0 and 6, got {d}")
    | none => .ok (days.foldl (fun mask d => mask ||| 2 ^ d.toNat) 0)

example : daysToMask [0, 6, 0] = .ok 65 := by decide

namespace RoomBlackoutService

/-! ## 2. Validation -/

def normalizeKind (kind : String) : Except ApiError RoomBlackoutKind :=
  let value := (strip kind).toLower
  if value = "one_off" then .ok .oneOff
  else if value = "recurring" then .ok .recurring
  else .error (badRequest "kind must be one_off or recurring")

/-- The kind and, for a recurring one, its mask. -/
def validateCommand (command : UpdateRoomBlackoutCommand) :
    Except ApiError (RoomBlackoutKind × Option Nat) :=
  if strip command.reason = "" then .error (badRequest "reason is required")
  else if command.startTime ≥ command.endTime then
    .error (badRequest "start_time must be before end_time")
  else if command.effectiveFrom.any fun f => command.effectiveTo.any fun t => f > t then
    .error (badRequest "effective_from must be on or before effective_to")
  else
    match normalizeKind command.kind with
    | .error e => .error e
    | .ok .oneOff =>
      if command.blackoutDate.isNone then
        .error (badRequest "blackout_date is required for one_off blackouts")
      else if !command.daysOfWeek.isEmpty then
        .error (badRequest "days_of_week must be empty for one_off blackouts")
      else .ok (.oneOff, none)
    | .ok .recurring =>
      if command.blackoutDate.isSome then
        .error (badRequest "blackout_date must be empty for recurring blackouts")
      else
        match daysToMask command.daysOfWeek with
        | .error e => .error e
        | .ok mask => .ok (.recurring, some mask)

def assertRoomExists (facilityId : Option UUID) : Portal Unit :=
  match facilityId with
  | none => pure ()
  | some id => do
    let known ← RoomRepository.existsById id
    raiseIf (!known) (notFound s!"Room {id} not found" (some .roomNotFound) [("room_id", some id)])

/-- Whether an existing Blackout covers the same rooms, dates and times. -/
def overlapsCandidate (command : UpdateRoomBlackoutCommand) (kind : RoomBlackoutKind)
    (mask : Option Nat) (candidate : RoomBlackout) : Bool :=
  RoomBlackoutRepository.scopesOverlap command.facilityId candidate.facilityId &&
    RoomBlackoutRepository.timeRangesOverlap command.startTime command.endTime
      candidate.startTime candidate.endTime &&
    match kind with
    | .oneOff => candidate.blackoutDate = command.blackoutDate
    | .recurring =>
      (candidate.daysOfWeekMask.any fun m => mask.any fun m' => m &&& m' ≠ 0) &&
        RoomBlackoutRepository.effectiveDatesOverlap command.effectiveFrom command.effectiveTo
          candidate.effectiveFrom candidate.effectiveTo

def assertNoOverlap (command : UpdateRoomBlackoutCommand) (kind : RoomBlackoutKind)
    (mask : Option Nat) (excludeBlackoutId : Option UUID) : Portal Unit :=
  if !command.isActive then pure ()
  else do
    let candidates ← RoomBlackoutRepository.listActiveOverlappingCandidates command.facilityId kind
      excludeBlackoutId
    raiseIf (candidates.any (overlapsCandidate command kind mask))
      (badRequest "Blackout overlaps an existing active blackout for the same scope and time"
        (some .blackoutOverlap)
        (match command.facilityId with
          | some id => [("facility_id", some id)]
          | none => []))

/-- `_to_payload` over the columns of `b`, and `_proposed_blackout` with them. -/
def toPayload (command : UpdateRoomBlackoutCommand) (kind : RoomBlackoutKind) (mask : Option Nat)
    (b : RoomBlackout) : RoomBlackout :=
  { b with
    facilityId := command.facilityId
    name := strip command.name
    reason := strip command.reason
    kind
    blackoutDate := if kind = .oneOff then command.blackoutDate else none
    daysOfWeekMask := if kind = .recurring then mask else none
    startTime := command.startTime
    endTime := command.endTime
    isActive := command.isActive
    effectiveFrom := if kind = .recurring then command.effectiveFrom else none
    effectiveTo := if kind = .recurring then command.effectiveTo else none }

/-- The row a creation proposes. -/
def proposedBlackout (command : UpdateRoomBlackoutCommand) (kind : RoomBlackoutKind)
    (mask : Option Nat) (id : UUID) : RoomBlackout :=
  toPayload command kind mask {
    id, facilityId := none, name := "", reason := "", kind, blackoutDate := none
    daysOfWeekMask := none, startTime := command.startTime, endTime := command.endTime
    isActive := true, effectiveFrom := none, effectiveTo := none }

/-- The confirmed occurrences must be exactly the impacted ones. -/
def raiseIfImpactUnconfirmed (items : List BlackoutImpactOccurrence) (confirmed : List UUID) :
    Except ApiError Unit :=
  if items.isEmpty then .ok ()
  else if confirmed.isEmpty then
    .error (badRequest "Blackout impact confirmation is required"
      (some .blackoutImpactConfirmationRequired))
  else if confirmed.all (fun id => items.any fun item => item.id = id) &&
      items.all (fun item => confirmed.contains item.id) then .ok ()
  else .error (badRequest "Confirmed occurrence ids must match the current Blackout impact"
    (some .blackoutImpactMismatch))

/-! ## 3. Use cases -/

/-- The impact of what a creation proposes, confirmed by the caller. -/
def confirmedImpact (app : App) (proposed : RoomBlackout) (confirmed : List UUID) :
    Portal (List BlackoutImpactOccurrence) := do
  let impact ← RecurringBookingService.previewBlackoutImpact app proposed
  ofExcept (raiseIfImpactUnconfirmed impact.items confirmed)
  pure impact.items

/-- `apply_blackout_impact`, where there is an impact. -/
def applyImpact (r : Request) (items : List BlackoutImpactOccurrence) (reason : String) :
    Portal Unit :=
  if items.isEmpty then pure ()
  else (RecurringBookingService.applyBlackoutImpact r items reason).bind fun _ => pure ()

def createBlackout (app : App) (r : Request) (command : CreateRoomBlackoutCommand) :
    Portal UUID := do
  assertRoomExists command.facilityId
  let (kind, mask) ← ofExcept (validateCommand command.toUpdateRoomBlackoutCommand)
  assertNoOverlap command.toUpdateRoomBlackoutCommand kind mask none
  let proposed := proposedBlackout command.toUpdateRoomBlackoutCommand kind mask r.ids.blackout
  let items ← confirmedImpact app proposed command.confirmOccurrenceIds
  RoomBlackoutRepository.insertBlackout proposed
  applyImpact r items (strip command.reason)
  pure r.ids.blackout

def blackoutNotFound (blackoutId : UUID) : ApiError :=
  notFound s!"Blackout {blackoutId} not found" (some .blackoutNotFound)
    [("blackout_id", some blackoutId)]

def updateBlackout (blackoutId : UUID) (command : UpdateRoomBlackoutCommand) : Portal Unit := do
  let existing ← RoomBlackoutRepository.getById blackoutId
  raiseIf existing.isNone (blackoutNotFound blackoutId)
  assertRoomExists command.facilityId
  let (kind, mask) ← ofExcept (validateCommand command)
  assertNoOverlap command kind mask (some blackoutId)
  let affected ← RoomBlackoutRepository.updateBlackout blackoutId (toPayload command kind mask)
    fun _ => rfl
  raiseIf (affected = 0) (blackoutNotFound blackoutId)

def deleteBlackout (blackoutId : UUID) (command : DeleteCommand) : Portal Unit := do
  let existing ← RoomBlackoutRepository.getById blackoutId
  raiseIf existing.isNone (blackoutNotFound blackoutId)
  if command.permanent then RoomBlackoutRepository.deleteHard blackoutId
  else RoomBlackoutRepository.deleteSoft blackoutId command.reason

def restoreBlackout (blackoutId : UUID) : Portal Unit :=
  RoomBlackoutRepository.restoreBlackout blackoutId

/-! ## 4. The checks only read -/

theorem assertRoomExists_readOnly (facilityId : Option UUID) :
    ReadOnly (assertRoomExists facilityId) := by
  cases facilityId with
  | none => trivial
  | some id => exact ReadOnly.bind (fun _ => ReadOnly.raiseIf _ _) (ReadOnly.select _)

theorem assertNoOverlap_readOnly (command : UpdateRoomBlackoutCommand) (kind : RoomBlackoutKind)
    (mask : Option Nat) (exclude : Option UUID) :
    ReadOnly (assertNoOverlap command kind mask exclude) := by
  unfold assertNoOverlap
  split
  · trivial
  · exact ReadOnly.bind (fun _ => ReadOnly.raiseIf _ _) (ReadOnly.select _)

theorem confirmedImpact_readOnly (app : App) (proposed : RoomBlackout) (confirmed : List UUID) :
    ReadOnly (confirmedImpact app proposed confirmed) :=
  ReadOnly.bind (fun _ => ReadOnly.bind (fun _ => ReadOnly.ret _) (ReadOnly.ofExcept _))
    (RecurringBookingService.previewBlackoutImpact_readOnly _ _)

end RoomBlackoutService

end NewlifeCore
