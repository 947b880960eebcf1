import NewlifeCore.Txn.Serving
import NewlifeCore.Txn.Table
import NewlifeCore.Facility.Constants

/-!
# `position_repository.py`: the incumbents of a position

A position's incumbents are rows with a start and an end; the one without an end is current.
Assigning an incumbent is two statements: an UPDATE that ends every open row of the position, and an
INSERT.  A call is given the key its new row gets.
-/

namespace NewlifeCore.Org

open Txn Prog

/-! ## 1. Tables -/

/-- `org.position`. -/
structure OrgPosition where
  id : UUID
  isDeleted : Bool := false
deriving DecidableEq

/-- `org.position_assignment`; no `endAt` means current. -/
structure OrgPositionAssignment where
  id : UUID
  positionId : UUID
  userId : UUID
  startAt : Int
  endAt : Option Int := none
deriving DecidableEq

/-- The tables an assignment reads and writes; of `auth.user` the keys. -/
structure PositionDb where
  positions : List OrgPosition := []
  userIds : List UUID := []
  assignments : List OrgPositionAssignment := []

/-- A row that is written, by its table and key. -/
inductive PositionRow
  | assignment (id : UUID)
deriving DecidableEq

instance : RowStore PositionDb PositionRow where
  Row := List OrgPositionAssignment
  row db x := db.assignments.filter fun r => PositionRow.assignment r.id = x

def assignmentTable : Table PositionDb PositionRow OrgPositionAssignment where
  get := PositionDb.assignments
  set db l := { db with assignments := l }
  name r := .assignment r.id
  frame _ _ _ h := h

inductive OrgError
  /-- `POSITION_NOT_FOUND`, with the position's id. -/
  | positionNotFound (positionId : UUID)
  | uniqueViolation
  | foreignKeyViolation
deriving DecidableEq

abbrev OrgProg (α : Type) := Prog PositionDb PositionRow Empty OrgError α

/-! ## 2. `assign_position` -/

/-- `AssignPositionCommand`, for a position, with the key of the new row. -/
structure AssignCall where
  positionId : UUID
  userId : UUID
  startAt : Option Int := none
  assignmentId : UUID
deriving DecidableEq

namespace PositionRepository

def isOpenOf (positionId : UUID) (r : OrgPositionAssignment) : Bool :=
  r.positionId = positionId && r.endAt.isNone

def endRow (now : Int) (r : OrgPositionAssignment) : OrgPositionAssignment :=
  { r with endAt := some now }

def closeOpen (positionId : UUID) (now : Int) : OrgProg Unit :=
  execute fun db => .ok (assignmentTable.update (isOpenOf positionId) (endRow now) (fun _ => rfl) db)

/-- The primary key and the two foreign keys are checked. -/
def insertAssignment (row : OrgPositionAssignment) : OrgProg Unit :=
  execute fun db =>
    if db.assignments.any fun r => r.id = row.id then .error .uniqueViolation
    else if !(db.positions.any fun p => p.id = row.positionId) || row.userId ∉ db.userIds then
      .error .foreignKeyViolation
    else .ok (assignmentTable.insert [row])

/-- `start_at or datetime.now(timezone.utc)`. -/
def startOrNow : Option Int → OrgProg Int
  | some t => pure t
  | none => now

/-- `assign_incumbent`. -/
def assignIncumbent (call : AssignCall) : OrgProg Unit := do
  let now ← startOrNow call.startAt
  closeOpen call.positionId now
  insertAssignment
    { id := call.assignmentId, positionId := call.positionId, userId := call.userId, startAt := now }

end PositionRepository

/-- `PositionService.assign_position`. -/
def assignPosition (call : AssignCall) : OrgProg Unit := do
  let known ← select fun db _ => db.positions.any fun p => p.id = call.positionId && !p.isDeleted
  raiseIf (!known) (.positionNotFound call.positionId)
  PositionRepository.assignIncumbent call

abbrev PositionSys := Sys PositionDb PositionRow Empty OrgError AssignCall

end NewlifeCore.Org
