import Mathlib.Data.List.Infix
import NewlifeCore.Cli.MockTables
import NewlifeCore.Database.Ending

/-!
# `remove-mock-data`

`RemoveMockDataService`, statement by statement: which users, Ministries and fixtures it takes for
Mock data, what it checks before it deletes, and in which order it deletes.
-/

namespace NewlifeCore.Cli

open Database

/-- A method of the service. -/
abbrev Cmd (α : Type) : Type := Act MockTables Deletion Unit α

/-! ## 1. Markers -/

def mockRunMarkerPrefix : String := "mock:"

def mockRunMarker (runIdentity : String) : String := mockRunMarkerPrefix ++ runIdentity

/-- What `seed-mock-data` calls a fixture. -/
def mockFixtureName (label runIdentity : String) : String :=
  "Mock " ++ label ++ " (" ++ mockRunMarker runIdentity ++ ")"

def legacySeedMarker : String := "seed:"

def legacyDemoAccountEmails : List String := [
  "seed.booker.1@local.test", "seed.booker.2@local.test", "seed.booker.3@local.test",
  "seed.booker.4@local.test", "seed.booker.5@local.test", "seed.ministry.primary@local.test",
  "seed.ministry.secondary@local.test", "seed.ministry.secondary2@local.test"]

/-- `marker in name`. -/
def nameContains (marker name : String) : Bool := decide (marker.toList <:+: name.toList)

/-- `name.startswith(marker)`. -/
def nameStartsWith (marker name : String) : Bool := decide (marker.toList <+: name.toList)

/-- `email_has_testing_suffix`, for a suffix that is stripped and in lower case; `none` where the
email is `None` and has no `endswith`. -/
def emailHasTestingSuffix (suffix : String) (email : Option String) : Option Bool :=
  if suffix = "" then some false else email.map fun e => decide (suffix.toList <:+ e.toList)

/-- `_unique_uuids`. -/
def uniqueUuids (values : List UUID) : List UUID := values.eraseDups.insertionSort (· ≤ ·)

/-! ## 2. The scope -/

def userRows : Cmd (List AuthUser) := Act.fetch fun db ws => (view db ws).users

/-- The users of `rows` with the suffix. -/
def testingUserIds (suffix : String) (rows : List AuthUser) : Option (List UUID) :=
  if rows.any fun u => (emailHasTestingSuffix suffix u.email).isNone then none
  else some ((rows.filter fun u => emailHasTestingSuffix suffix u.email = some true).map (·.id))

def isLegacyDemo (u : AuthUser) : Bool := u.email.any legacyDemoAccountEmails.contains

def scopedUserIds (suffix : String) (includeLegacyDemo : Bool) : Cmd (List UUID) := do
  let rows ← userRows
  match testingUserIds suffix rows with
  | none => Act.raise .other
  | some ids =>
    return uniqueUuids
      (ids ++ if includeLegacyDemo then (rows.filter isLegacyDemo).map (·.id) else [])

def candidateMinistryIds (userIds : List UUID) : Cmd (List UUID) :=
  if userIds.isEmpty then pure []
  else do
    let rows ← Act.fetchvals fun db ws =>
      ((view db ws).members.filter fun m => userIds.contains m.userId).map (·.ministryId)
    return uniqueUuids rows

def seedMarkedMinistryIds : Cmd (List UUID) := do
  let rows ← Act.fetch fun db ws => (view db ws).translations
  return uniqueUuids ((rows.filter fun t => nameStartsWith legacySeedMarker t.name).map
    (·.ministryId))

def idsWithNameContaining (model : Fixture) (marker : String) : Cmd (List UUID) := do
  let rows ← Act.fetch fun db ws => (view db ws).fixtures model
  return uniqueUuids ((rows.filter fun r => nameContains marker r.name).map (·.id))

def idsWithNamePrefix (model : Fixture) (marker : String) : Cmd (List UUID) := do
  let rows ← Act.fetch fun db ws => (view db ws).fixtures model
  return uniqueUuids ((rows.filter fun r => nameStartsWith marker r.name).map (·.id))

/-! ## 3. The checks -/

/-- The Ministry and the user of each row, in one of its columns. -/
abbrev Dependency := MockTables → List (Option UUID × Option UUID)

def ownedColumn (model : OwnedModel) : Dependency := fun db =>
  (db.owned model).map fun r => (r.ministryId, some r.userId)

/-- `_MINISTRY_SCOPED_MODELS`. -/
def ministryScopedModels : List (String × List Dependency) := [
  ("non-Mock Ministry member",
    [fun db => db.members.map fun m => (some m.ministryId, some m.userId)]),
  ("non-Mock Booking", [ownedColumn .facilityBooking]),
  ("non-Mock Recurring Booking Series", [ownedColumn .facilityBookingSeries]),
  ("non-Mock Booking Draft", [ownedColumn .facilityBookingDraft]),
  ("non-Mock Recurring Series Draft", [ownedColumn .facilityBookingSeriesDraft]),
  ("non-Mock Ministry Approval decision",
    [fun db => db.approvals.map fun a => (some a.ministryId, a.requestedById),
     fun db => db.approvals.map fun a => (some a.ministryId, a.resolvedById)])]

/-- The Ministries of `ministryIds` that a column has with a user who is not in scope. -/
def outOfScope (ministryIds scopedUserIds : List UUID) (rows : List (Option UUID × Option UUID)) :
    List UUID :=
  rows.filterMap fun
    | (some ministry, some user) =>
        if ministryIds.contains ministry && !scopedUserIds.contains user then some ministry
        else none
    | _ => none

def ministriesWithOutOfScopeDependency (ministryIds scopedUserIds : List UUID) :
    List Dependency → Cmd (List UUID)
  | [] => pure []
  | column :: columns => do
    let rows ← Act.fetchvals fun db ws => outOfScope ministryIds scopedUserIds (column (view db ws))
    let found ← ministriesWithOutOfScopeDependency ministryIds scopedUserIds columns
    return uniqueUuids rows ++ found

/-- The loop over the models. -/
def offendingModels (ministryIds scopedUserIds : List UUID) :
    List (String × List Dependency) → Cmd (List (String × List UUID))
  | [] => pure []
  | (label, columns) :: models => do
    let found ← ministriesWithOutOfScopeDependency ministryIds scopedUserIds columns
    let offending ← offendingModels ministryIds scopedUserIds models
    return if found.isEmpty then offending else (label, found) :: offending

/-- The first name of each Ministry. -/
def ministryNames (ministryIds : List UUID) : Cmd (List (UUID × String)) :=
  if ministryIds.isEmpty then pure []
  else Act.fetch fun db ws =>
    ((view db ws).translations.filter fun t => ministryIds.contains t.ministryId).map fun t =>
      (t.ministryId, t.name)

def dependencyErrorMessage (offending : List (String × List UUID)) : Cmd String := do
  let names ← ministryNames (uniqueUuids (offending.flatMap (·.2)))
  let parts := offending.map fun (label, ids) =>
    label ++ " (" ++
      ", ".intercalate ((uniqueUuids ids).map fun id => (names.lookup id).getD (uuidText id)) ++ ")"
  return "Cannot remove Mock data: " ++ "; ".intercalate parts ++
    ". Resolve the non-Mock dependency manually, then re-run remove-mock-data."

def outOfScopeSeedMarkedBookingOwners (scopedUserIds : List UUID) : Cmd (List UUID) := do
  let rows ← Act.fetch fun db ws => (view db ws).owned .facilityBooking
  return uniqueUuids ((rows.filter fun r =>
    nameStartsWith legacySeedMarker (r.remark.getD "") && !scopedUserIds.contains r.userId).map
      (·.userId))

/-! ## 4. The deletions -/

/-- A `DELETE`, which the server refuses where a row that stays behind needs what is deleted. -/
def delete (d : Deletion) : Cmd Unit := do
  let refused ← Act.look fun db ws => d.refused (view db ws)
  if refused then Act.refuse d else Act.execute d

def deleteByIds (deletion : List UUID → Deletion) (ids : List UUID) : Cmd Nat :=
  if ids.isEmpty then pure 0
  else do
    delete (deletion ids)
    return ids.length

/-- The ids of the rows that `p` holds of, asked for only where there is something to look for. -/
def selectIds (model : OwnedModel) (wanted : List UUID) (p : OwnedRow → Bool) : Cmd (List UUID) :=
  if wanted.isEmpty then pure []
  else Act.fetchvals fun db ws => (((view db ws).owned model).filter p).map (·.id)

def deleteMinistryScoped (model : OwnedModel) (scopedUserIds candidateMinistryIds : List UUID) :
    Cmd Nat := do
  let owned ← selectIds model scopedUserIds fun r => scopedUserIds.contains r.userId
  let attached ← selectIds model candidateMinistryIds fun r =>
    r.ministryId.any candidateMinistryIds.contains
  deleteByIds (.owned model) (uniqueUuids (owned ++ attached))

/-! ## 5. The command -/

/-- `RemoveMockDataResult`. -/
structure RemoveMockDataResult where
  removedUserCount : Nat
  removedMinistryCount : Nat
  removedBookingCount : Nat
  removedSeriesCount : Nat
  removedDraftCount : Nat
  removedSlotTemplateCount : Nat := 0
  removedBlackoutCount : Nat := 0
deriving DecidableEq

def strayOwnerMessage : String :=
  "Cannot remove Mock data: seed-marked Booking owned by a non-legacy account. " ++
    "Resolve the non-Mock or non-legacy dependency manually, then re-run remove-mock-data."

/-- The slot templates and the Blackouts that are taken for Mock data. -/
def markedIds (includeLegacyDemo : Bool) : Cmd (List UUID × List UUID) := do
  let slots ← idsWithNameContaining .facilityRoomSlotTemplate mockRunMarkerPrefix
  let blackouts ← idsWithNameContaining .facilityRoomBlackout mockRunMarkerPrefix
  if includeLegacyDemo then
    let legacySlots ← idsWithNamePrefix .facilityRoomSlotTemplate legacySeedMarker
    let legacyBlackouts ← idsWithNamePrefix .facilityRoomBlackout legacySeedMarker
    return (uniqueUuids (slots ++ legacySlots), uniqueUuids (blackouts ++ legacyBlackouts))
  else return (uniqueUuids slots, uniqueUuids blackouts)

def allCandidateMinistryIds (scopedUserIds : List UUID) (includeLegacyDemo : Bool) :
    Cmd (List UUID) := do
  let candidates ← candidateMinistryIds scopedUserIds
  if includeLegacyDemo then
    let legacy ← seedMarkedMinistryIds
    return uniqueUuids (candidates ++ legacy)
  else return uniqueUuids candidates

/-- Asked for when opted in. -/
def strayOwners (scopedUserIds : List UUID) (includeLegacyDemo : Bool) : Cmd (List UUID) :=
  if includeLegacyDemo then outOfScopeSeedMarkedBookingOwners scopedUserIds else pure []

/-- What stands against the removal: the message of a `MockDataDependencyError`. -/
def dependencyError (scopedUserIds candidateMinistryIds : List UUID) : Cmd (Option String) :=
  if candidateMinistryIds.isEmpty then pure none
  else do
    let offending ← offendingModels candidateMinistryIds scopedUserIds ministryScopedModels
    if offending.isEmpty then return none
    else do
      let message ← dependencyErrorMessage offending
      return some message

/-- The deletions of `run`, up to its commit. -/
def deleteAll (scopedUserIds candidateMinistryIds markedSlotIds markedBlackoutIds : List UUID) :
    Cmd RemoveMockDataResult := do
  let bookings ← deleteMinistryScoped .facilityBooking scopedUserIds candidateMinistryIds
  let series ← deleteMinistryScoped .facilityBookingSeries scopedUserIds candidateMinistryIds
  let drafts ← deleteMinistryScoped .facilityBookingDraft scopedUserIds candidateMinistryIds
  let seriesDrafts ←
    deleteMinistryScoped .facilityBookingSeriesDraft scopedUserIds candidateMinistryIds
  let ministries ← deleteByIds .ministries candidateMinistryIds
  let users ← deleteByIds .users scopedUserIds
  let slotTemplates ← deleteByIds (.fixtures .facilityRoomSlotTemplate) markedSlotIds
  let blackouts ← deleteByIds (.fixtures .facilityRoomBlackout) markedBlackoutIds
  return ⟨users, ministries, bookings, series, drafts + seriesDrafts, slotTemplates, blackouts⟩

/-- **`RemoveMockDataService.run`**; an `error` is a `MockDataDependencyError`. -/
def run (suffix : String) (includeLegacyDemo : Bool) :
    Cmd (Except String RemoveMockDataResult) := do
  let scopedUserIds ← scopedUserIds suffix includeLegacyDemo
  let (markedSlotIds, markedBlackoutIds) ← markedIds includeLegacyDemo
  let candidates ← allCandidateMinistryIds scopedUserIds includeLegacyDemo
  let strayOwners ← strayOwners scopedUserIds includeLegacyDemo
  if !strayOwners.isEmpty then return .error strayOwnerMessage
  else if scopedUserIds.isEmpty && markedSlotIds.isEmpty && markedBlackoutIds.isEmpty &&
      candidates.isEmpty then
    return .ok ⟨0, 0, 0, 0, 0, 0, 0⟩
  else do
    match ← dependencyError scopedUserIds candidates with
    | some message => return .error message
    | none => do
      let result ← deleteAll scopedUserIds candidates markedSlotIds markedBlackoutIds
      Act.commit
      return .ok result

end NewlifeCore.Cli
