import NewlifeCore.Facility.RoomBlackoutService

/-!
# `RoomSlotTemplateService`

Creating, changing, deleting and restoring the opening-hours templates of a room.
-/

namespace NewlifeCore

open Txn Prog

/-! ## 1. `RoomSlotTemplateRepository` -/

namespace RoomSlotTemplateRepository

def effectiveDatesOverlap (leftFrom leftTo rightFrom rightTo : Option Int) : Bool :=
  RoomBlackoutRepository.effectiveDatesOverlap leftFrom leftTo rightFrom rightTo

def timeRangesOverlap (leftStart leftEnd rightStart rightEnd : TimeOfDay) : Bool :=
  RoomBlackoutRepository.timeRangesOverlap leftStart leftEnd rightStart rightEnd

def getById (templateId : UUID) : Portal (Option RoomSlotTemplate) :=
  select fun db _ => db.slotTemplates.find? fun t => t.id = templateId

/-- The CHECK constraints of the table. -/
def checks (t : RoomSlotTemplate) : Bool :=
  t.daysOfWeekMask &&& 127 ≠ 0 && t.daysOfWeekMask < 128 && t.startTime < t.endTime &&
    0 < t.slotDurationMinutes &&
    !(t.effectiveFrom.any fun f => t.effectiveTo.any fun u => f > u)

def insertTemplate (t : RoomSlotTemplate) : Portal Unit := insertInto slotTemplateTable checks [t]

def updateTemplate (templateId : UUID) (values : RoomSlotTemplate → RoomSlotTemplate)
    (hid : ∀ t, (values t).id = t.id) : Portal Nat :=
  updateTableCount slotTemplateTable (fun t => t.id = templateId && !t.isDeleted) values
    fun t => congrArg RowName.slotTemplate (hid t)

def deleteSoft (templateId : UUID) (reason : Option String) : Portal Unit :=
  updateTable slotTemplateTable (fun t => t.id = templateId)
    (fun t => { t with isDeleted := true, deleteReason := reason }) fun _ => rfl

def deleteHard (templateId : UUID) : Portal Unit :=
  deleteFrom slotTemplateTable fun t => t.id = templateId

def restoreTemplate (templateId : UUID) : Portal Unit :=
  updateTable slotTemplateTable (fun t => t.id = templateId)
    (fun t => { t with isDeleted := false, deleteReason := none }) fun _ => rfl

def listActiveOverlappingCandidates (facilityId : UUID) (daysOfWeekMask : Nat)
    (excludeTemplateId : Option UUID) : Portal (List RoomSlotTemplate) :=
  select fun db _ => db.slotTemplates.filter fun t => !t.isDeleted && t.isActive &&
    t.facilityId = facilityId && t.daysOfWeekMask &&& daysOfWeekMask ≠ 0 &&
    !(excludeTemplateId = some t.id)

end RoomSlotTemplateRepository

namespace RoomSlotTemplateService

/-! ## 2. Checks -/

def validateTimeWindow (command : RoomSlotTemplateCommand) : Except ApiError Unit :=
  if command.startTime ≥ command.endTime then
    .error (badRequest "start_time must be before end_time")
  else if command.slotDurationMinutes ≤ 0 then
    .error (badRequest "slot_duration_minutes must be positive")
  else if command.effectiveFrom.any fun f => command.effectiveTo.any fun t => f > t then
    .error (badRequest "effective_from must be on or before effective_to")
  else .ok ()

def encodeDaysMask (command : RoomSlotTemplateCommand) : Except ApiError Nat :=
  daysToMask command.daysOfWeek

/-- Whether a candidate holds on some of the same dates and times. -/
def overlapsCandidate (command : RoomSlotTemplateCommand) (candidate : RoomSlotTemplate) : Bool :=
  RoomSlotTemplateRepository.effectiveDatesOverlap command.effectiveFrom command.effectiveTo
      candidate.effectiveFrom candidate.effectiveTo &&
    RoomSlotTemplateRepository.timeRangesOverlap command.startTime command.endTime
      candidate.startTime candidate.endTime

def assertNoOverlap (command : RoomSlotTemplateCommand) (daysOfWeekMask : Nat)
    (excludeTemplateId : Option UUID) : Portal Unit :=
  if !command.isActive then pure ()
  else do
    let candidates ← RoomSlotTemplateRepository.listActiveOverlappingCandidates command.facilityId
      daysOfWeekMask excludeTemplateId
    raiseIf (candidates.any (overlapsCandidate command))
      (badRequest "Slot template overlaps an existing active template for the same room and weekday"
        (some .slotTemplateOverlap) [("facility_id", some command.facilityId)])

def assertRoomExists (facilityId : UUID) : Portal Unit := do
  let known ← RoomRepository.existsById facilityId
  raiseIf (!known) (notFound s!"Room {facilityId} not found" (some .roomNotFound)
    [("room_id", some facilityId)])

/-- The column values of a command, over the columns of `t`. -/
def values (command : RoomSlotTemplateCommand) (daysOfWeekMask : Nat) (t : RoomSlotTemplate) :
    RoomSlotTemplate :=
  { t with
    facilityId := command.facilityId
    name := command.name
    daysOfWeekMask
    startTime := command.startTime
    endTime := command.endTime
    slotDurationMinutes := command.slotDurationMinutes
    isActive := command.isActive
    effectiveFrom := command.effectiveFrom
    effectiveTo := command.effectiveTo }

/-- The row a creation inserts. -/
def newTemplate (command : RoomSlotTemplateCommand) (daysOfWeekMask : Nat) (id : UUID) :
    RoomSlotTemplate :=
  values command daysOfWeekMask {
    id, facilityId := command.facilityId, daysOfWeekMask, startTime := command.startTime
    endTime := command.endTime, slotDurationMinutes := command.slotDurationMinutes }

def slotTemplateNotFound (templateId : UUID) : ApiError :=
  notFound s!"Slot template {templateId} not found" (some .slotTemplateNotFound)
    [("slot_template_id", some templateId)]

/-! ## 3. Use cases -/

/-- `templateId` is what `uuid4()` draws. -/
def createTemplate (templateId : UUID) (command : RoomSlotTemplateCommand) : Portal UUID := do
  assertRoomExists command.facilityId
  ofExcept (validateTimeWindow command)
  let mask ← ofExcept (encodeDaysMask command)
  assertNoOverlap command mask none
  RoomSlotTemplateRepository.insertTemplate (newTemplate command mask templateId)
  pure templateId

def updateTemplate (templateId : UUID) (command : RoomSlotTemplateCommand) : Portal Unit := do
  let existing ← RoomSlotTemplateRepository.getById templateId
  raiseIf existing.isNone (slotTemplateNotFound templateId)
  assertRoomExists command.facilityId
  ofExcept (validateTimeWindow command)
  let mask ← ofExcept (encodeDaysMask command)
  assertNoOverlap command mask (some templateId)
  let affected ← RoomSlotTemplateRepository.updateTemplate templateId (values command mask)
    fun _ => rfl
  raiseIf (affected = 0) (slotTemplateNotFound templateId)

def deleteTemplate (templateId : UUID) (command : DeleteCommand) : Portal Unit := do
  let existing ← RoomSlotTemplateRepository.getById templateId
  raiseIf existing.isNone (slotTemplateNotFound templateId)
  if command.permanent then RoomSlotTemplateRepository.deleteHard templateId
  else RoomSlotTemplateRepository.deleteSoft templateId command.reason

def restoreTemplate (templateId : UUID) : Portal Unit :=
  RoomSlotTemplateRepository.restoreTemplate templateId

/-! ## 4. The checks only read -/

theorem assertRoomExists_readOnly (facilityId : UUID) : ReadOnly (assertRoomExists facilityId) :=
  ReadOnly.bind (fun _ => ReadOnly.raiseIf _ _) (ReadOnly.select _)

theorem assertNoOverlap_readOnly (command : RoomSlotTemplateCommand) (mask : Nat)
    (exclude : Option UUID) : ReadOnly (assertNoOverlap command mask exclude) := by
  unfold assertNoOverlap
  split
  · trivial
  · exact ReadOnly.bind (fun _ => ReadOnly.raiseIf _ _) (ReadOnly.select _)

end RoomSlotTemplateService

end NewlifeCore
