import NewlifeCore.Facility.Constants
import Mathlib.Data.List.Sort

/-!
# What `remove-mock-data` deletes from

The tables that the command reads or deletes from, with the rows that go with theirs: those that a
foreign key deletes along (`CASCADE`), those that lose a reference (`SET NULL`), and those that
refuse a deletion (`NO ACTION`).
-/

namespace NewlifeCore.Cli

/-! ## 1. Rows -/

/-- `auth.user`. -/
structure AuthUser where
  id : UUID
  email : Option String
deriving DecidableEq

/-- A row with a reference that deletes it along. -/
structure Part where
  id : UUID
  parentId : UUID
deriving DecidableEq

/-- `org.ministry_member`. -/
structure OrgMinistryMember where
  id : UUID
  ministryId : UUID
  userId : UUID
deriving DecidableEq

/-- `org.ministry_translation`. -/
structure OrgMinistryTranslation where
  id : UUID
  ministryId : UUID
  name : String
deriving DecidableEq

/-- `org.ministry_approval`. -/
structure OrgMinistryApproval where
  id : UUID
  ministryId : UUID
  requestedById : Option UUID
  resolvedById : Option UUID
deriving DecidableEq

/-- The tables of what a user has and a Ministry may stand behind. -/
inductive OwnedModel
  | facilityBooking
  | facilityBookingSeries
  | facilityBookingDraft
  | facilityBookingSeriesDraft
deriving DecidableEq

/-- A row of one of them; only a Booking has a Series and a remark here. -/
structure OwnedRow where
  id : UUID
  userId : UUID
  ministryId : Option UUID
  seriesId : Option UUID := none
  remark : Option String := none
deriving DecidableEq

/-- `facility.booking_override_log`. -/
structure FacilityBookingOverrideLog where
  id : UUID
  facilityBookingId : UUID
  overriddenBookingId : Option UUID
  overriddenById : UUID
deriving DecidableEq

/-- The tables that fixtures are marked in by name. -/
inductive Fixture
  | facilityRoomSlotTemplate
  | facilityRoomBlackout
deriving DecidableEq

/-- A row of one of them, and whether a person created it. -/
structure FixtureRow where
  id : UUID
  name : String
  byPerson : Bool
deriving DecidableEq

/-- One state of the tables.  `userParts` are the profiles, third-party accounts, devices, refresh
tokens, roles and position assignments; `ministryParts` the schedules and target audiences; `parts`
the rooms, slots and surcharges of a Booking, the lines of a Draft and the rooms of a Series
Draft. -/
structure MockTables where
  users : List AuthUser := []
  userParts : List Part := []
  ministries : List UUID := []
  members : List OrgMinistryMember := []
  translations : List OrgMinistryTranslation := []
  approvals : List OrgMinistryApproval := []
  ministryParts : List Part := []
  owned : OwnedModel → List OwnedRow := fun _ => []
  parts : OwnedModel → List Part := fun _ => []
  overrideLogs : List FacilityBookingOverrideLog := []
  fixtures : Fixture → List FixtureRow := fun _ => []

/-! ## 2. Deletions -/

/-- `DELETE … WHERE id IN (…)`. -/
inductive Deletion
  | owned (model : OwnedModel) (ids : List UUID)
  | ministries (ids : List UUID)
  | users (ids : List UUID)
  | fixtures (model : Fixture) (ids : List UUID)
deriving DecidableEq

/-- `SET NULL`. -/
def unset (ids : List UUID) (reference : Option UUID) : Option UUID :=
  reference.filter fun id => !ids.contains id

/-- A user's Drafts go along; their Bookings and Series do not. -/
def OwnedModel.isDraft : OwnedModel → Bool
  | .facilityBookingDraft | .facilityBookingSeriesDraft => true
  | _ => false

namespace Deletion

def apply (db : MockTables) : Deletion → MockTables
  | .owned model ids =>
      { db with
        owned := fun m =>
          if m = model then (db.owned m).filter fun r => !ids.contains r.id
          else if m = .facilityBooking && model = .facilityBookingSeries then
            (db.owned m).map fun r => { r with seriesId := unset ids r.seriesId }
          else db.owned m
        parts := fun m =>
          if m = model then (db.parts m).filter fun p => !ids.contains p.parentId else db.parts m
        overrideLogs :=
          if model = .facilityBooking then
            (db.overrideLogs.filter fun l => !ids.contains l.facilityBookingId).map fun l =>
              { l with overriddenBookingId := unset ids l.overriddenBookingId }
          else db.overrideLogs }
  | .ministries ids =>
      { db with
        ministries := db.ministries.filter fun id => !ids.contains id
        members := db.members.filter fun m => !ids.contains m.ministryId
        translations := db.translations.filter fun t => !ids.contains t.ministryId
        approvals := db.approvals.filter fun a => !ids.contains a.ministryId
        ministryParts := db.ministryParts.filter fun p => !ids.contains p.parentId
        owned := fun m =>
          (db.owned m).map fun r => { r with ministryId := unset ids r.ministryId } }
  | .users ids =>
      { db with
        users := db.users.filter fun u => !ids.contains u.id
        userParts := db.userParts.filter fun p => !ids.contains p.parentId
        members := db.members.filter fun m => !ids.contains m.userId
        approvals := db.approvals.map fun a =>
          { a with
            requestedById := unset ids a.requestedById, resolvedById := unset ids a.resolvedById }
        owned := fun m =>
          if m.isDraft then (db.owned m).filter fun r => !ids.contains r.userId else db.owned m
        parts := fun m =>
          if m.isDraft then
            (db.parts m).filter fun p =>
              !((db.owned m).any fun r => r.id = p.parentId && ids.contains r.userId)
          else db.parts m }
  | .fixtures model ids =>
      { db with
        fixtures := fun m =>
          if m = model then (db.fixtures m).filter fun r => !ids.contains r.id
          else db.fixtures m }

/-- A Booking, a Series or an override that stays behind keeps its user. -/
def refused (db : MockTables) : Deletion → Bool
  | .users ids =>
      ((db.owned .facilityBooking).any fun r => ids.contains r.userId) ||
      ((db.owned .facilityBookingSeries).any fun r => ids.contains r.userId) ||
      db.overrideLogs.any fun l => ids.contains l.overriddenById
  | _ => false

def ids : Deletion → List UUID
  | .owned _ ids | .ministries ids | .users ids | .fixtures _ ids => ids

@[simp] theorem unset_nil (reference : Option UUID) : unset [] reference = reference := by
  cases reference <;> simp [unset]

/-- A deletion of nothing changes nothing. -/
theorem apply_nil (db : MockTables) {d : Deletion} (h : d.ids = []) : d.apply db = db := by
  have hnone : ∀ rows : List OwnedRow, (rows.any fun _ => false) = false := fun rows => by simp
  cases d <;> cases h <;> simp [apply, hnone]

theorem refused_nil (db : MockTables) {d : Deletion} (h : d.ids = []) : d.refused db = false := by
  cases d <;> cases h <;> simp [refused]

end Deletion

/-- What a transaction sees after its own deletions. -/
def view (db : MockTables) (ws : List Deletion) : MockTables := ws.foldl Deletion.apply db

theorem view_append (db : MockTables) (ws : List Deletion) (w : Deletion) :
    view db (ws ++ [w]) = w.apply (view db ws) := by
  simp [view]

end NewlifeCore.Cli
