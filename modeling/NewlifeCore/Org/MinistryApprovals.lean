import NewlifeCore.Org.Ministries
import NewlifeCore.Txn.Sequence

/-!
# `ministry_approval_service.py`: applying for a ministry and deciding about it

An application creates the ministry, gives it its members and submits it; a rejected one may be
changed and submitted again.  Submitting reads the stored members and asks them to be complete.
-/

namespace NewlifeCore.Org

open Txn Prog

/-! ## 1. The service -/

namespace MinistryApprovalService

/-- `_require_authenticated_user`; the user is the one of the request. -/
def requireAuthenticatedUser (userId : Option UUID) : MinistryProg UUID :=
  match userId with
  | none => raise (forbidden "Authenticated user required" .ministryAccessForbidden)
  | some id => pure id

def isIncumbentOfMinistry (ministry : OrgMinistry) (userId : UUID) : MinistryProg Bool :=
  match ministry.ownerPositionId with
  | none => pure false
  | some positionId => do
    let incumbent ← PositionRepository.getCurrentIncumbentUserId positionId
    pure (incumbent = some userId)

def requireIncumbent (userId : Option UUID) (ministry : OrgMinistry) : MinistryProg UUID := do
  let user ← requireAuthenticatedUser userId
  let incumbent ← isIncumbentOfMinistry ministry user
  raiseIf (!incumbent) (forbidden "Only the owner-position incumbent may perform this action"
    .ministryApprovalForbidden)
  pure user

def requireApplicantOrSteward (userId : Option UUID) (ministry : OrgMinistry) :
    MinistryProg UUID := do
  let user ← requireAuthenticatedUser userId
  if ministry.submittedById = some user then pure user
  else do
    let steward ← MinistryRepository.isUserBookingMember ministry.id user
    raiseIf (!steward) (forbidden "Only the applicant or ministry stewards may perform this action"
      .ministryAccessForbidden)
    pure user

def requireOwnerPositionIncumbent (positionId : UUID) : MinistryProg Unit := do
  let incumbent ← PositionRepository.getCurrentIncumbentUserId positionId
  raiseIf incumbent.isNone (badRequest "Owner position must have a current incumbent"
    (some .positionNoIncumbent) [("position_id", positionId)])

/-- The columns of a submission. -/
def submittedValues (userId : Option UUID) (now : Int) (m : OrgMinistry) : OrgMinistry :=
  { m with
    status := .pendingApproval
    submittedAt := some now
    submittedById := userId
    rejectedAt := none
    rejectedById := none
    rejectionReason := none }

/-- `submit_ministry`, with the key of the approval request. -/
def submitMinistry (userId : Option UUID) (approvalId ministryId : UUID) : MinistryProg Unit := do
  let ministry ← requireMinistry ministryId
  raiseIf (ministry.status ∉ [MinistryStatus.draft, .rejected])
    (badRequest "Ministry cannot be submitted in its current status"
      (some .ministryInvalidStatusForSubmit) [("ministry_id", ministryId)])
  match ministry.ownerPositionId with
  | none => raise (badRequest "owner_position_id is required before submit"
      (some .ministryOwnerPositionRequired) [("ministry_id", ministryId)])
  | some positionId => do
    requireOwnerPositionIncumbent positionId
    MinistryService.validateMembersForSubmit ministryId
    let now ← now
    let _ ← MinistryRepository.updateMinistry ministryId (submittedValues userId now) fun _ => rfl
    MinistryRepository.insertApproval
      { id := approvalId
        ministryId
        ownerPositionId := some positionId
        status := .pending
        requestedById := userId }

/-- `create_application`, with the key of the ministry. -/
def createApplication (userId : Option UUID) (approvalId ministryId : UUID)
    (command : MinistryApplicationCommand) : MinistryProg Unit := do
  requireOwnerPositionIncumbent command.ownerPositionId
  MinistryService.createMinistry userId ministryId
    { ownerPositionId := some command.ownerPositionId
      ministryTypeId := command.ministryTypeId
      targetAudienceIds := command.targetAudienceIds
      hasPriorityBooking := command.hasPriorityBooking
      translations := command.translations }
  if command.members.isEmpty then pure ()
  else MinistryService.replaceMembers ministryId command.members
  submitMinistry userId approvalId ministryId

/-- The ministry, when it waits for a decision. -/
def requirePending (ministryId : UUID) : MinistryProg Unit := do
  let ministry ← requireMinistry ministryId
  raiseIf (ministry.status ≠ .pendingApproval) (badRequest "Ministry is not pending approval"
    (some .ministryNotPendingApproval) [("ministry_id", ministryId)])

def approveMinistry (userId : Option UUID) (ministryId : UUID) (comment : Option String) :
    MinistryProg Unit := do
  requirePending ministryId
  let now ← now
  let _ ← MinistryRepository.updateMinistry ministryId (fun m =>
    { m with
      status := .active
      isActive := true
      approvedAt := some now
      approvedById := userId }) fun _ => rfl
  MinistryRepository.updateApproval ministryId .approved userId now comment

/-- `comment or rejection_reason`. -/
def commentOr (comment : Option String) (rejectionReason : String) : String :=
  match comment with
  | none | some "" => rejectionReason
  | some comment => comment

def rejectMinistry (userId : Option UUID) (ministryId : UUID) (rejectionReason : String)
    (comment : Option String) : MinistryProg Unit := do
  requirePending ministryId
  let now ← now
  let _ ← MinistryRepository.updateMinistry ministryId (fun m =>
    { m with
      status := .rejected
      rejectedAt := some now
      rejectedById := userId
      rejectionReason := some rejectionReason }) fun _ => rfl
  MinistryRepository.updateApproval ministryId .rejected userId now
    (some (commentOr comment rejectionReason))

def approveMinistryAsIncumbent (userId : Option UUID) (ministryId : UUID)
    (comment : Option String) : MinistryProg Unit := do
  let ministry ← requireMinistry ministryId
  let _ ← requireIncumbent userId ministry
  approveMinistry userId ministryId comment

def rejectMinistryAsIncumbent (userId : Option UUID) (ministryId : UUID) (rejectionReason : String)
    (comment : Option String) : MinistryProg Unit := do
  let ministry ← requireMinistry ministryId
  let _ ← requireIncumbent userId ministry
  rejectMinistry userId ministryId rejectionReason comment

/-- The ministry, when it was rejected and the user may change it. -/
def requireRejected (userId : Option UUID) (ministryId : UUID) (detail : String)
    (errorCode : OrgErrorCode) : MinistryProg Unit := do
  let ministry ← requireMinistry ministryId
  raiseIf (ministry.status ≠ .rejected)
    (badRequest detail (some errorCode) [("ministry_id", ministryId)])
  let _ ← requireApplicantOrSteward userId ministry

def updateRejectedApplication (userId : Option UUID) (ministryId : UUID)
    (command : UpdateRejectedMinistryApplicationCommand) : MinistryProg Unit := do
  requireRejected userId ministryId "Only rejected ministry applications can be updated"
    .ministryInvalidStatusForUpdate
  MinistryService.updateMinistry ministryId
    { ministryTypeId := command.ministryTypeId
      targetAudienceIds := command.targetAudienceIds
      hasPriorityBooking := command.hasPriorityBooking
      translations := command.translations }
  match command.members with
  | none => pure ()
  | some members => MinistryService.replaceMembers ministryId members

def resubmitMinistry (userId : Option UUID) (approvalId ministryId : UUID) :
    MinistryProg Unit := do
  requireRejected userId ministryId "Only rejected ministry applications can be resubmitted"
    .ministryInvalidStatusForSubmit
  submitMinistry userId approvalId ministryId

end MinistryApprovalService

/-! ## 2. Requests -/

/-- The requests about ministries, with the keys their rows get. -/
inductive MinistryCall
  | apply (approvalId ministryId : UUID) (command : MinistryApplicationCommand)
  | updateRejected (ministryId : UUID) (command : UpdateRejectedMinistryApplicationCommand)
  | submit (approvalId ministryId : UUID)
  | resubmit (approvalId ministryId : UUID)
  | approve (ministryId : UUID) (comment : Option String)
  | approveAsIncumbent (ministryId : UUID) (comment : Option String)
  | reject (ministryId : UUID) (rejectionReason : String) (comment : Option String)
  | rejectAsIncumbent (ministryId : UUID) (rejectionReason : String) (comment : Option String)
  | update (ministryId : UUID) (command : UpdateMinistryCommand)
  | replaceMembers (ministryId : UUID) (members : List MinistryMemberEntryCommand)
  | delete (ministryId : UUID) (command : Auth.DeleteCommand)
  | restore (ids : List UUID)

/-- A call, with the user it is made for. -/
structure MinistryRequest where
  userId : Option UUID
  call : MinistryCall

open MinistryApprovalService in
def MinistryRequest.body (r : MinistryRequest) : MinistryProg Unit :=
  match r.call with
  | .apply approvalId ministryId command => createApplication r.userId approvalId ministryId command
  | .updateRejected ministryId command => updateRejectedApplication r.userId ministryId command
  | .submit approvalId ministryId => submitMinistry r.userId approvalId ministryId
  | .resubmit approvalId ministryId => resubmitMinistry r.userId approvalId ministryId
  | .approve ministryId comment => approveMinistry r.userId ministryId comment
  | .approveAsIncumbent ministryId comment =>
    approveMinistryAsIncumbent r.userId ministryId comment
  | .reject ministryId reason comment => rejectMinistry r.userId ministryId reason comment
  | .rejectAsIncumbent ministryId reason comment =>
    rejectMinistryAsIncumbent r.userId ministryId reason comment
  | .update ministryId command => MinistryService.updateMinistry ministryId command
  | .replaceMembers ministryId members => MinistryService.replaceMembers ministryId members
  | .delete ministryId command => MinistryService.deleteMinistry ministryId command
  | .restore ids => MinistryService.restoreMinistries ids

end NewlifeCore.Org
