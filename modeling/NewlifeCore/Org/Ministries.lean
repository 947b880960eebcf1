import NewlifeCore.Auth.Resources
import NewlifeCore.Facility.RoomBlackoutService
import NewlifeCore.Org.Positions

/-!
# Ministries: `ministry_service.py` and `ministry_approval_service.py`

A ministry is applied for with its stewards, decided by the incumbent of its position or by staff,
and changed, deleted and restored by staff.  The stewards of a ministry are rows of a table of
their own, which only `replace_members` writes: it deletes them all and inserts the new ones.

The mails about an application are sent last, swallow what goes wrong and write nothing; they and
the decision channel, which only they read, are left out.
-/

namespace NewlifeCore.Org

open Txn Prog

/-! ## 1. Rows -/

/-- `org.ministry`. -/
structure OrgMinistry where
  id : UUID
  ownerPositionId : Option UUID := none
  ministryTypeId : Option UUID := none
  status : MinistryStatus := .draft
  hasPriorityBooking : Bool := false
  isActive : Bool := true
  submittedAt : Option Int := none
  submittedById : Option UUID := none
  approvedAt : Option Int := none
  approvedById : Option UUID := none
  rejectedAt : Option Int := none
  rejectedById : Option UUID := none
  rejectionReason : Option String := none
  createdById : Option UUID := none
  isDeleted : Bool := false
  deleteReason : Option String := none

/-- `org.ministry_member`; a user is a member of a ministry once. -/
structure OrgMinistryMember where
  ministryId : UUID
  userId : UUID
  memberRole : MinistryMemberRole
  remark : Option String := none
  contactEmail : Option String := none

/-- `org.ministry_translation`. -/
structure OrgMinistryTranslation where
  ministryId : UUID
  localeId : UUID
  name : String
  description : Option String := none
  remark : Option String := none
  scheduleNote : Option String := none

/-- `org.ministry_schedule`. -/
structure OrgMinistrySchedule where
  ministryId : UUID
  daysOfWeekMask : Option Nat
  startTime : Option Int
  endTime : Option Int
  effectiveFrom : Option Int
  effectiveTo : Option Int
  sequence : Decimal

/-- `org.ministry_target_audience`. -/
structure OrgMinistryTargetAudience where
  ministryId : UUID
  targetAudienceId : UUID
deriving DecidableEq

inductive MinistryApprovalStatus
  | pending
  | approved
  | rejected
deriving DecidableEq

/-- `org.ministry_approval`. -/
structure OrgMinistryApproval where
  id : UUID
  ministryId : UUID
  ownerPositionId : Option UUID
  status : MinistryApprovalStatus
  requestedById : Option UUID
  resolvedById : Option UUID := none
  decidedAt : Option Int := none
  comment : Option String := none

/-- `org.ministry_type`. -/
structure OrgMinistryType where
  id : UUID
  isActive : Bool := true

/-- `org.target_audience`. -/
structure OrgTargetAudience where
  id : UUID
  code : String
  isActive : Bool := true

/-- The tables that ministry requests read and write. -/
structure MinistryDb extends PositionDb where
  ministries : List OrgMinistry := []
  members : List OrgMinistryMember := []
  translations : List OrgMinistryTranslation := []
  schedules : List OrgMinistrySchedule := []
  audienceLinks : List OrgMinistryTargetAudience := []
  approvals : List OrgMinistryApproval := []
  ministryTypes : List OrgMinistryType := []
  targetAudiences : List OrgTargetAudience := []
  locales : List Auth.SystemLocale := []

/-! ## 2. Tables -/

/-- The names of the rows that are written; the schedules of a ministry go by one name. -/
inductive MinistryRow
  | ministry (id : UUID)
  | member (ministryId userId : UUID)
  | translation (ministryId localeId : UUID)
  | schedule (ministryId : UUID)
  | audienceLink (ministryId targetAudienceId : UUID)
  | approval (id : UUID)
deriving DecidableEq

/-- The versions stored under a name. -/
inductive MinistryContent
  | ministries (rows : List OrgMinistry)
  | members (rows : List OrgMinistryMember)
  | translations (rows : List OrgMinistryTranslation)
  | schedules (rows : List OrgMinistrySchedule)
  | audienceLinks (rows : List OrgMinistryTargetAudience)
  | approvals (rows : List OrgMinistryApproval)

instance : RowStore MinistryDb MinistryRow where
  Row := MinistryContent
  row db
    | .ministry x =>
      .ministries (db.ministries.filter fun r => MinistryRow.ministry r.id = .ministry x)
    | .member x u =>
      .members (db.members.filter fun r => MinistryRow.member r.ministryId r.userId = .member x u)
    | .translation x l => .translations (db.translations.filter fun r =>
        MinistryRow.translation r.ministryId r.localeId = .translation x l)
    | .schedule x =>
      .schedules (db.schedules.filter fun r => MinistryRow.schedule r.ministryId = .schedule x)
    | .audienceLink x a => .audienceLinks (db.audienceLinks.filter fun r =>
        MinistryRow.audienceLink r.ministryId r.targetAudienceId = .audienceLink x a)
    | .approval x =>
      .approvals (db.approvals.filter fun r => MinistryRow.approval r.id = .approval x)

def ministryTable : Table MinistryDb MinistryRow OrgMinistry where
  get := MinistryDb.ministries
  set db l := { db with ministries := l }
  name r := .ministry r.id
  frame db l x h := by cases x <;> first | rfl | exact congrArg MinistryContent.ministries h

def memberTable : Table MinistryDb MinistryRow OrgMinistryMember where
  get := MinistryDb.members
  set db l := { db with members := l }
  name r := .member r.ministryId r.userId
  frame db l x h := by cases x <;> first | rfl | exact congrArg MinistryContent.members h

def translationTable : Table MinistryDb MinistryRow OrgMinistryTranslation where
  get := MinistryDb.translations
  set db l := { db with translations := l }
  name r := .translation r.ministryId r.localeId
  frame db l x h := by cases x <;> first | rfl | exact congrArg MinistryContent.translations h

def scheduleTable : Table MinistryDb MinistryRow OrgMinistrySchedule where
  get := MinistryDb.schedules
  set db l := { db with schedules := l }
  name r := .schedule r.ministryId
  frame db l x h := by cases x <;> first | rfl | exact congrArg MinistryContent.schedules h

def audienceLinkTable : Table MinistryDb MinistryRow OrgMinistryTargetAudience where
  get := MinistryDb.audienceLinks
  set db l := { db with audienceLinks := l }
  name r := .audienceLink r.ministryId r.targetAudienceId
  frame db l x h := by cases x <;> first | rfl | exact congrArg MinistryContent.audienceLinks h

def approvalTable : Table MinistryDb MinistryRow OrgMinistryApproval where
  get := MinistryDb.approvals
  set db l := { db with approvals := l }
  name r := .approval r.id
  frame db l x h := by cases x <;> first | rfl | exact congrArg MinistryContent.approvals h

/-! ## 3. Errors and commands -/

inductive OrgErrorCode
  | ministryNotFound
  | ministryPrimaryRequired
  | ministrySecondaryRequired
  | ministryNotPendingApproval
  | ministryInvalidStatusForSubmit
  | ministryOwnerPositionRequired
  | ministryInvalidTargetAudiences
  | ministryAccessForbidden
  | ministryApprovalForbidden
  | ministryInvalidStatusForUpdate
  | positionNoIncumbent
deriving DecidableEq

/-- The classes of exceptions; the last two are raised by Python and the database. -/
inductive OrgErrorKind
  | badRequest
  | forbidden
  | notFound
  | internal
  | valueError
  | integrity
deriving DecidableEq

structure OrgException where
  kind : OrgErrorKind
  detail : String
  errorCode : Option OrgErrorCode := none
  context : List (String × UUID) := []
  debugDetail : Option String := none
deriving DecidableEq

abbrev MinistryProg (α : Type) := Prog MinistryDb MinistryRow Empty OrgException α

def uniqueViolation : OrgException :=
  { kind := .integrity, detail := "duplicate key value violates unique constraint" }

def foreignKeyViolation : OrgException :=
  { kind := .integrity, detail := "violates foreign key constraint" }

def badRequest (detail : String) (errorCode : Option OrgErrorCode := none)
    (context : List (String × UUID) := []) : OrgException :=
  { kind := .badRequest, detail, errorCode, context }

def forbidden (detail : String) (errorCode : OrgErrorCode) : OrgException :=
  { kind := .forbidden, detail, errorCode := some errorCode }

/-- `except ApiBaseException: raise`, and any other exception as an internal error. -/
def wrapInternal (e : OrgException) : OrgException :=
  match e.kind with
  | .valueError | .integrity =>
    { kind := .internal, detail := "Internal Server Error", debugDetail := some e.detail }
  | _ => e

structure OrgTranslationCommand where
  localeId : UUID
  name : String
  description : Option String := none
  remark : Option String := none
  scheduleNote : Option String := none

structure MinistryScheduleCommand where
  daysOfWeek : List Int := []
  startTime : Option Int := none
  endTime : Option Int := none
  effectiveFrom : Option Int := none
  effectiveTo : Option Int := none
  sequence : Option Decimal := none

structure CreateMinistryCommand where
  ownerPositionId : Option UUID := none
  ministryTypeId : Option UUID := none
  targetAudienceIds : List UUID := []
  schedules : List MinistryScheduleCommand := []
  hasPriorityBooking : Bool := false
  isActive : Bool := true
  translations : List OrgTranslationCommand

structure UpdateMinistryCommand where
  ownerPositionId : Option UUID := none
  ministryTypeId : Option UUID := none
  targetAudienceIds : Option (List UUID) := none
  schedules : Option (List MinistryScheduleCommand) := none
  hasPriorityBooking : Bool := false
  isActive : Bool := true
  translations : Option (List OrgTranslationCommand) := none

structure MinistryMemberEntryCommand where
  userId : UUID
  memberRole : MinistryMemberRole
  remark : Option String := none
  contactEmail : Option String := none

structure MinistryApplicationCommand where
  ownerPositionId : UUID
  ministryTypeId : Option UUID := none
  targetAudienceIds : List UUID := []
  hasPriorityBooking : Bool := false
  translations : List OrgTranslationCommand
  members : List MinistryMemberEntryCommand := []

structure UpdateRejectedMinistryApplicationCommand where
  ministryTypeId : Option UUID := none
  targetAudienceIds : Option (List UUID) := none
  hasPriorityBooking : Bool := false
  translations : Option (List OrgTranslationCommand) := none
  members : Option (List MinistryMemberEntryCommand) := none

/-! ## 4. Repositories -/

namespace PositionRepository

/-- `get_current_incumbent_user_id`: the latest open assignment. -/
def getCurrentIncumbentUserId (positionId : UUID) : MinistryProg (Option UUID) :=
  select fun db _ => (((db.assignments.filter (isOpenOf positionId)).insertionSort
    fun a b => b.startAt ≤ a.startAt).head?).map OrgPositionAssignment.userId

end PositionRepository

/-- `TargetAudienceRepository.fetch_active_by_ids`. -/
def fetchActiveByIds (audienceIds : List UUID) : MinistryProg (List OrgTargetAudience) :=
  select fun db _ => db.targetAudiences.filter fun a => a.id ∈ audienceIds && a.isActive

namespace MinistryRepository

/-- The members of a ministry, as they are stored. -/
def roster (db : MinistryDb) (ministryId : UUID) : List OrgMinistryMember :=
  db.members.filter fun r => r.ministryId = ministryId

/-- `get_by_id`; a deleted ministry is found too. -/
def getById (ministryId : UUID) : MinistryProg (Option OrgMinistry) :=
  select fun db _ => db.ministries.find? fun m => m.id = ministryId

def isUserBookingMember (ministryId userId : UUID) : MinistryProg Bool :=
  select fun db _ => db.members.any fun r => r.ministryId = ministryId && r.userId = userId &&
    r.memberRole ∈ [MinistryMemberRole.primary, .secondary]

def listMembers (ministryId : UUID) : MinistryProg (List OrgMinistryMember) :=
  select fun db _ => roster db ministryId

def fetchActiveLocaleIds (localeIds : List UUID) : MinistryProg (List UUID) :=
  select fun db _ => ((db.locales.filter fun l => l.id ∈ localeIds && l.isActive &&
    !l.isDeleted).map Auth.SystemLocale.id).dedup

/-- Whether a key is one of those there, or not given. -/
def refersTo (keys : List UUID) (key : Option UUID) : Bool := key.all (keys.contains ·)

/-- Whether the foreign keys of a ministry are there. -/
def ministryRefers (db : MinistryDb) (m : OrgMinistry) : Bool :=
  refersTo (db.positions.map OrgPosition.id) m.ownerPositionId &&
    refersTo (db.ministryTypes.map OrgMinistryType.id) m.ministryTypeId &&
      [m.createdById, m.submittedById, m.approvedById, m.rejectedById].all (refersTo db.userIds)

def insertMinistry (row : OrgMinistry) : MinistryProg Unit :=
  execute fun db =>
    if db.ministries.any fun m => m.id = row.id then .error uniqueViolation
    else if !ministryRefers db row then .error foreignKeyViolation
    else .ok (ministryTable.insert [row])

/-- `update_ministry`: the number of rows changed, none if the ministry is deleted. -/
def updateMinistry (ministryId : UUID) (values : OrgMinistry → OrgMinistry)
    (hvalues : ∀ m, (values m).id = m.id) : MinistryProg Nat :=
  executeCount fun db =>
    if db.ministries.any fun m => m.id = ministryId && !m.isDeleted && !ministryRefers db (values m)
    then .error foreignKeyViolation
    else .ok (ministryTable.update (fun m => m.id = ministryId && !m.isDeleted) values
      (fun m => congrArg MinistryRow.ministry (hvalues m)) db)

def upsertTranslation (row : OrgMinistryTranslation) : MinistryProg Unit :=
  execute fun _ => .ok (translationTable.upsert row (fun t =>
    { t with
      name := row.name
      description := row.description
      remark := row.remark
      scheduleNote := row.scheduleNote }) fun _ => rfl)

/-- One statement may not write a row twice. -/
def upsertTranslations (rows : List OrgMinistryTranslation) : MinistryProg Unit :=
  if (rows.map OrgMinistryTranslation.localeId).Nodup then each rows upsertTranslation
  else raise { kind := .integrity, detail := "ON CONFLICT DO UPDATE cannot affect row a second time" }

def deleteMembers (ministryId : UUID) : MinistryProg Unit :=
  execute fun db => .ok (memberTable.delete (fun r => r.ministryId = ministryId) db)

/-- A user twice among the rows, or there already, violates the unique constraint. -/
def insertMembers (rows : List OrgMinistryMember) : MinistryProg Unit :=
  execute fun db =>
    if ¬ ((db.members ++ rows).map memberTable.name).Nodup then .error uniqueViolation
    else if rows.any fun r => !db.userIds.contains r.userId ||
        !(db.ministries.any fun m => m.id = r.ministryId) then .error foreignKeyViolation
    else .ok (memberTable.insert rows)

def replaceMembers (ministryId : UUID) (rows : List OrgMinistryMember) : MinistryProg Unit := do
  deleteMembers ministryId
  if rows.isEmpty then pure () else insertMembers rows

def deleteSchedules (ministryId : UUID) : MinistryProg Unit :=
  execute fun db => .ok (scheduleTable.delete (fun r => r.ministryId = ministryId) db)

def upsertSchedules (ministryId : UUID) (rows : List OrgMinistrySchedule) : MinistryProg Unit := do
  deleteSchedules ministryId
  if rows.isEmpty then pure () else execute fun _ => .ok (scheduleTable.insert rows)

def deleteTargetAudiences (ministryId : UUID) : MinistryProg Unit :=
  execute fun db => .ok (audienceLinkTable.delete (fun r => r.ministryId = ministryId) db)

def insertTargetAudiences (rows : List OrgMinistryTargetAudience) : MinistryProg Unit :=
  execute fun db =>
    if ¬ (db.audienceLinks ++ rows).Nodup then .error uniqueViolation
    else .ok (audienceLinkTable.insert rows)

def upsertTargetAudiences (ministryId : UUID) (audienceIds : List UUID) : MinistryProg Unit := do
  deleteTargetAudiences ministryId
  if audienceIds.isEmpty then pure ()
  else insertTargetAudiences (audienceIds.map fun a => ⟨ministryId, a⟩)

def insertApproval (row : OrgMinistryApproval) : MinistryProg Unit :=
  execute fun db =>
    if db.approvals.any fun r => r.id = row.id then .error uniqueViolation
    else if !refersTo db.userIds row.requestedById then .error foreignKeyViolation
    else .ok (approvalTable.insert [row])

/-- `update_approval`, of the request that is pending. -/
def updateApproval (ministryId : UUID) (status : MinistryApprovalStatus) (resolvedById : Option UUID)
    (decidedAt : Int) (comment : Option String) : MinistryProg Unit :=
  execute fun db =>
    if (db.approvals.any fun r => r.ministryId = ministryId && r.status = .pending) &&
        !refersTo db.userIds resolvedById then .error foreignKeyViolation
    else .ok (approvalTable.update (fun r => r.ministryId = ministryId && r.status = .pending)
      (fun r => { r with status, resolvedById, decidedAt := some decidedAt, comment })
      (fun _ => rfl) db)

def deleteSoft (ministryId : UUID) (reason : Option String) : MinistryProg Unit :=
  execute fun db => .ok (ministryTable.update (fun m => m.id = ministryId)
    (fun m => { m with isDeleted := true, deleteReason := reason }) (fun _ => rfl) db)

/-- The members and approvals, then the ministry, and with it what its foreign keys cascade to. -/
def deleteHard (ministryId : UUID) : MinistryProg Unit := do
  deleteMembers ministryId
  execute fun db => .ok (approvalTable.delete (fun r => r.ministryId = ministryId) db)
  execute fun db => .ok (ministryTable.delete (fun m => m.id = ministryId) db)
  execute fun db => .ok (translationTable.delete (fun r => r.ministryId = ministryId) db)
  deleteSchedules ministryId
  deleteTargetAudiences ministryId

def restoreMinistry (ministryId : UUID) : MinistryProg Unit :=
  execute fun db => .ok (ministryTable.update (fun m => m.id = ministryId)
    (fun m => { m with isDeleted := false, deleteReason := none }) (fun _ => rfl) db)

end MinistryRepository

/-! ## 5. `ministry_schedule.py` and `target_audience_validation.py` -/

/-- What is wrong with a schedule. -/
def scheduleProblem (schedule : MinistryScheduleCommand) : Option String :=
  if schedule.daysOfWeek.isEmpty && schedule.effectiveFrom.isNone then
    some "days_of_week or effective_from is required"
  else if schedule.startTime.isSome ≠ schedule.endTime.isSome then
    some "start_time and end_time must both be set or both be empty"
  else if schedule.startTime.any fun s => schedule.endTime.any fun e => s ≥ e then
    some "start_time must be before end_time"
  else if schedule.effectiveFrom.any fun f => schedule.effectiveTo.any fun t => f > t then
    some "effective_from must be on or before effective_to"
  else none

def validateMinistrySchedules (schedules : List MinistryScheduleCommand) : MinistryProg Unit :=
  each schedules.zipIdx fun (schedule, index) =>
    match scheduleProblem schedule with
    | some problem => raise (badRequest s!"schedules[{index}]: {problem}")
    | none => pure ()

def encodeScheduleDaysMask (daysOfWeek : List Int) : MinistryProg (Option Nat) :=
  if daysOfWeek.isEmpty then pure none
  else
    match daysToMask daysOfWeek with
    | .error e => raise { kind := .valueError, detail := e.detail }
    | .ok mask => pure (some mask)

def buildSchedulePayloads (ministryId : UUID) (schedules : List MinistryScheduleCommand) :
    MinistryProg (List OrgMinistrySchedule) :=
  mapEach schedules.zipIdx fun (schedule, index) => do
    let mask ← encodeScheduleDaysMask schedule.daysOfWeek
    pure
      { ministryId
        daysOfWeekMask := mask
        startTime := schedule.startTime
        endTime := schedule.endTime
        effectiveFrom := schedule.effectiveFrom
        effectiveTo := schedule.effectiveTo
        sequence := schedule.sequence.getD index }

def validateTargetAudienceIds (audienceIds : List UUID) (active : List OrgTargetAudience) :
    MinistryProg Unit := do
  raiseIf ((active.map OrgTargetAudience.id).dedup.length ≠ audienceIds.dedup.length)
    (badRequest "Invalid or inactive target_audience_id" (some .ministryInvalidTargetAudiences))
  let codes := audienceIds.filterMap fun id =>
    (active.find? fun a => a.id = id).map OrgTargetAudience.code
  raiseIf (codes.contains "all_ages" && codes.length ≠ 1)
    (badRequest "all_ages cannot be combined with other target audiences"
      (some .ministryInvalidTargetAudiences))

/-! ## 6. `MinistryService` -/

def ministryNotFound (ministryId : UUID) : OrgException :=
  { kind := .notFound
    detail := s!"Ministry {ministryId} not found"
    errorCode := some .ministryNotFound
    context := [("ministry_id", ministryId)] }

/-- `ministry = await get_by_id(..); if not ministry: raise`. -/
def requireMinistry (ministryId : UUID) : MinistryProg OrgMinistry := do
  match ← MinistryRepository.getById ministryId with
  | none => raise (ministryNotFound ministryId)
  | some ministry => pure ministry

namespace MinistryService

def buildTranslationPayloads (ministryId : UUID) (translations : List OrgTranslationCommand) :
    List OrgMinistryTranslation :=
  translations.map fun item =>
    { ministryId
      localeId := item.localeId
      name := item.name
      description := item.description
      remark := item.remark
      scheduleNote := item.scheduleNote }

def validateMinistryTypeId : Option UUID → MinistryProg (Option UUID)
  | none => pure none
  | some ministryTypeId => do
    let known ← select fun db _ => db.ministryTypes.any fun x => x.id = ministryTypeId && x.isActive
    raiseIf (!known) (badRequest "Invalid or inactive ministry_type_id")
    pure (some ministryTypeId)

def validateTargetAudiences (audienceIds : List UUID) : MinistryProg Unit :=
  if audienceIds.isEmpty then pure ()
  else do
    let active ← fetchActiveByIds audienceIds
    validateTargetAudienceIds audienceIds active

def validateAndUpsertTranslations (rows : List OrgMinistryTranslation) : MinistryProg Unit :=
  if rows.isEmpty then pure ()
  else do
    let localeIds := rows.map OrgMinistryTranslation.localeId
    let active ← MinistryRepository.fetchActiveLocaleIds localeIds
    raiseIf (active.length ≠ localeIds.dedup.length)
      (badRequest "Invalid or inactive locale_id in translations")
    MinistryRepository.upsertTranslations rows

/-- `_upsert_schedules`. -/
def upsertSchedules (ministryId : UUID) : Option (List MinistryScheduleCommand) → MinistryProg Unit
  | none => pure ()
  | some schedules => do
    validateMinistrySchedules schedules
    let rows ← buildSchedulePayloads ministryId schedules
    MinistryRepository.upsertSchedules ministryId rows

/-- `_upsert_target_audiences`. -/
def upsertTargetAudiences (ministryId : UUID) : Option (List UUID) → MinistryProg Unit
  | none => pure ()
  | some audienceIds => do
    validateTargetAudiences audienceIds
    MinistryRepository.upsertTargetAudiences ministryId audienceIds

/-- The row of a creation and what belongs to it, in the `try` block. -/
def insertAll (row : OrgMinistry) (command : CreateMinistryCommand) : MinistryProg Unit := do
  MinistryRepository.insertMinistry row
  validateAndUpsertTranslations (buildTranslationPayloads row.id command.translations)
  let schedules ← buildSchedulePayloads row.id command.schedules
  MinistryRepository.upsertSchedules row.id schedules
  MinistryRepository.upsertTargetAudiences row.id command.targetAudienceIds

/-- `create_ministry`, of the id that is drawn. -/
def createMinistry (userId : Option UUID) (ministryId : UUID) (command : CreateMinistryCommand) :
    MinistryProg Unit := do
  raiseIf command.translations.isEmpty (badRequest "translations are required")
  let ministryTypeId ← validateMinistryTypeId command.ministryTypeId
  validateTargetAudiences command.targetAudienceIds
  validateMinistrySchedules command.schedules
  (insertAll
    { id := ministryId
      ownerPositionId := command.ownerPositionId
      ministryTypeId
      status := .draft
      hasPriorityBooking := command.hasPriorityBooking
      isActive := command.isActive
      createdById := userId } command).mapError wrapInternal

/-- The columns of an update. -/
def updateValues (command : UpdateMinistryCommand) (ministryTypeId : Option UUID) (m : OrgMinistry) :
    OrgMinistry :=
  { m with
    hasPriorityBooking := command.hasPriorityBooking
    isActive := command.isActive
    ownerPositionId := command.ownerPositionId <|> m.ownerPositionId
    ministryTypeId := ministryTypeId <|> m.ministryTypeId }

def updateMinistry (ministryId : UUID) (command : UpdateMinistryCommand) : MinistryProg Unit := do
  let _ ← requireMinistry ministryId
  let ministryTypeId ← validateMinistryTypeId command.ministryTypeId
  let affected ← MinistryRepository.updateMinistry ministryId (updateValues command ministryTypeId)
    fun _ => rfl
  raiseIf (affected = 0) (ministryNotFound ministryId)
  validateAndUpsertTranslations (buildTranslationPayloads ministryId (command.translations.getD []))
  upsertSchedules ministryId command.schedules
  upsertTargetAudiences ministryId command.targetAudienceIds

def deleteMinistry (ministryId : UUID) (command : Auth.DeleteCommand) : MinistryProg Unit := do
  let _ ← requireMinistry ministryId
  if command.permanent then MinistryRepository.deleteHard ministryId
  else MinistryRepository.deleteSoft ministryId command.reason

def restoreMinistries (ids : List UUID) : MinistryProg Unit := do
  raiseIf ids.isEmpty (badRequest "No ministry ids provided")
  each ids MinistryRepository.restoreMinistry

/-- `validate_primary_and_secondary`. -/
def validatePrimaryAndSecondary (roles : List MinistryMemberRole) : MinistryProg Unit := do
  raiseIf (roles.count .primary ≠ 1)
    (badRequest "Exactly one primary ministry member is required" (some .ministryPrimaryRequired))
  raiseIf (roles.count .secondary < 1)
    (badRequest "At least one secondary ministry member is required"
      (some .ministrySecondaryRequired))

/-- The rows of a command's members. -/
def memberRows (ministryId : UUID) (members : List MinistryMemberEntryCommand) :
    List OrgMinistryMember :=
  members.map fun member =>
    { ministryId
      userId := member.userId
      memberRole := member.memberRole
      remark := member.remark
      contactEmail := member.contactEmail }

def replaceMembers (ministryId : UUID) (members : List MinistryMemberEntryCommand) :
    MinistryProg Unit := do
  let _ ← requireMinistry ministryId
  validatePrimaryAndSecondary (members.map MinistryMemberEntryCommand.memberRole)
  MinistryRepository.replaceMembers ministryId (memberRows ministryId members)

def listMembers (ministryId : UUID) : MinistryProg (List OrgMinistryMember) := do
  let _ ← requireMinistry ministryId
  MinistryRepository.listMembers ministryId

def validateMembersForSubmit (ministryId : UUID) : MinistryProg Unit := do
  let members ← listMembers ministryId
  validatePrimaryAndSecondary (members.map OrgMinistryMember.memberRole)

end MinistryService

end NewlifeCore.Org
