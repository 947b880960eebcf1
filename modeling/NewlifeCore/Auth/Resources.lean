import Mathlib.Data.List.Sort
import NewlifeCore.Auth.Schema
import NewlifeCore.Forest

/-!
# Resources

`ResourceRepository` and `ResourceService`: the resources that permissions are about, arranged
under parents.  A parent is a column of the row; the tree is built from the rows that are listed.
-/

namespace NewlifeCore.Auth

open Txn Prog

/-! ## 1. Items and commands -/

/-- A row of a resource menu. -/
structure ResourceItem where
  id : UUID
  pid : Option UUID := none
  name : String
  key : String
  code : String
  icon : Option String := none
  path : Option String := none
  type : ResourceType
  sequence : Decimal
  isDeleted : Bool := false

structure TranslationCommand where
  localeId : UUID
  name : String
  description : Option String := none
  remark : Option String := none

/-- `CreateResourceCommand` and `UpdateResourceCommand`. -/
structure ResourceCommand where
  pid : Option UUID := none
  key : String
  code : String
  icon : String
  path : String
  type : ResourceType
  isVisible : Bool := true
  translations : List TranslationCommand := []

structure DeleteCommand where
  reason : Option String := none
  permanent : Bool := false

/-! ## 2. `ResourceRepository` -/

namespace ResourceRepository

def uniqueViolation : String := "duplicate key value violates unique constraint"

def foreignKeyViolation : String :=
  "insert or update on table \"resource\" violates foreign key constraint"

/-- The name in a locale; there is one translation at most of a resource in a locale. -/
def translatedName (db : Db) (localeId : Option UUID) (resourceId : UUID) : String :=
  ((db.resourceTranslations.find? fun t =>
    t.resourceId = resourceId && localeId = some t.localeId).map
      AuthResourceTranslation.name).getD ""

def toItem (db : Db) (localeId : Option UUID) (r : AuthResource) : ResourceItem where
  id := r.id
  pid := r.pid
  name := translatedName db localeId r.id
  key := r.key
  code := r.code
  icon := r.icon
  path := r.path
  type := r.type
  sequence := r.sequence
  isDeleted := r.isDeleted

/-- The detail of a resource.  The parent of a root is an object of nulls, whose `id` the model
refuses. -/
def getById (resourceId : UUID) (localeId : Option UUID) : AuthProg (Option ResourceItem) := do
  match ← select (fun db _ => (db.resources.find? fun r => r.id = resourceId).map
    (toItem db localeId)) with
  | none => pure none
  | some item =>
    if item.pid.isNone then raise (.internal "validation error for ResourceDetail")
    else pure (some item)

def fetchActiveLocaleIds (localeIds : List UUID) : AuthProg (List UUID) :=
  select fun db _ => ((db.locales.filter fun l => l.id ∈ localeIds && l.isActive &&
    !l.isDeleted).map SystemLocale.id).dedup

/-- Whether another resource has the key or the code. -/
def taken (db : Db) (id : UUID) (key code : String) : Bool :=
  db.resources.any fun r => r.id ≠ id && (r.key = key || r.code = code)

/-- Whether the parent is there; a row may name itself. -/
def parentThere (db : Db) (id : UUID) (pid : Option UUID) : Bool :=
  pid.all fun p => p = id || db.resources.any fun r => r.id = p

def insertResource (row : AuthResource) : AuthProg Unit :=
  execute fun db =>
    if (db.resources.any fun r => r.id = row.id) || taken db row.id row.key row.code then
      .error (.integrity uniqueViolation)
    else if !parentThere db row.id row.pid then .error (.integrity foreignKeyViolation)
    else .ok (resourceTable.insert [row])

def upsertTranslation (row : AuthResourceTranslation) : AuthProg Unit :=
  execute fun _ => .ok (resourceTranslationTable.upsert row
    (fun t => { t with name := row.name }) fun _ => rfl)

/-- One statement may not write a row twice. -/
def upsertTranslations (rows : List AuthResourceTranslation) : AuthProg Unit :=
  if (rows.map AuthResourceTranslation.localeId).Nodup then each rows upsertTranslation
  else raise (.integrity "ON CONFLICT DO UPDATE command cannot affect row a second time")

/-- The columns of an update. -/
def setColumns (command : ResourceCommand) (r : AuthResource) : AuthResource :=
  { r with
    pid := command.pid
    key := command.key
    code := command.code
    icon := some command.icon
    path := some command.path
    type := command.type
    isVisible := command.isVisible }

/-- The constraints are checked when a row is there to be written. -/
def updateResource (resourceId : UUID) (command : ResourceCommand) : AuthProg Nat :=
  executeCount fun db =>
    if !(db.resources.any fun r => r.id = resourceId) then
      .ok (resourceTable.update (fun r => r.id = resourceId) (setColumns command) (fun _ => rfl) db)
    else if taken db resourceId command.key command.code then .error (.integrity uniqueViolation)
    else if !parentThere db resourceId command.pid then .error (.integrity foreignKeyViolation)
    else .ok (resourceTable.update (fun r => r.id = resourceId) (setColumns command) (fun _ => rfl) db)

def changeParent (resourceId pid : UUID) : AuthProg Unit :=
  execute fun db =>
    if (db.resources.any fun r => r.id = resourceId) && !parentThere db resourceId (some pid) then
      .error (.integrity foreignKeyViolation)
    else .ok (resourceTable.update (fun r => r.id = resourceId)
      (fun r => { r with pid := some pid }) (fun _ => rfl) db)

/-- The resource and its direct children. -/
def deleteSoft (resourceId : UUID) (reason : Option String) : AuthProg Unit :=
  execute fun db => .ok (resourceTable.update (fun r => r.id = resourceId || r.pid = some resourceId)
    (fun r => { r with isDeleted := true, deleteReason := reason }) (fun _ => rfl) db)

/-- What a deletion leaves: the foreign key of `pid` cascades. -/
def remaining (rows : List AuthResource) (resourceId : UUID) : List AuthResource :=
  Forest.cascade AuthResource.id AuthResource.pid (rows.filter fun r => r.id ≠ resourceId).length
    (rows.filter fun r => r.id ≠ resourceId)

def deleteHard (resourceId : UUID) : AuthProg Unit :=
  execute fun db => .ok (resourceTable.delete
    (fun r => !(remaining db.resources resourceId).any fun x => x.id = r.id) db)

def restoreResourceTree (resourceId : UUID) : AuthProg Unit :=
  execute fun db => .ok (resourceTable.update (fun r => r.id = resourceId || r.pid = some resourceId)
    (fun r => { r with isDeleted := false, deleteReason := none }) (fun _ => rfl) db)

/-- The WHERE clause of a menu. -/
def inMenu (isDeleted visibleOnly : Bool) (r : AuthResource) : Bool :=
  (if isDeleted then r.isDeleted || (r.pid.isNone && !r.isDeleted) else !r.isDeleted) &&
    (!visibleOnly || r.isVisible)

def menu (db : Db) (isDeleted : Bool) (localeId : Option UUID) (visibleOnly : Bool) :
    List ResourceItem :=
  ((db.resources.filter (inMenu isDeleted visibleOnly)).insertionSort
    fun a b => a.sequence ≤ b.sequence).map (toItem db localeId)

def listMenus (isDeleted : Bool) (localeId : Option UUID) (visibleOnly : Bool) :
    AuthProg (List ResourceItem) := select fun db _ => menu db isDeleted localeId visibleOnly

end ResourceRepository

/-! ## 3. `ResourceService` -/

namespace ResourceService

variable (localeId : Option UUID)

def resourceNotFound (resourceId : UUID) : AuthError := .notFound s!"Resource {resourceId} not found"

def getResource (resourceId : UUID) : AuthProg ResourceItem := do
  match ← ResourceRepository.getById resourceId localeId with
  | none => raise (resourceNotFound resourceId)
  | some item => pure item

/-- `_get_resource_audit_dict`. -/
def getResourceAuditDict (resourceId : UUID) : AuthProg (Option ResourceItem) :=
  ((getResource localeId resourceId).bind fun item => pure (some item)).tryCatch fun
    | .notFound _ => pure none
    | e => raise e

def validateAndUpsertTranslations (resourceId : UUID) (translations : List TranslationCommand) :
    AuthProg Unit :=
  if translations.isEmpty then pure ()
  else do
    let localeIds := translations.map TranslationCommand.localeId
    let activeLocaleIds ← ResourceRepository.fetchActiveLocaleIds localeIds
    raiseIf (activeLocaleIds.length ≠ localeIds.dedup.length)
      (.unprocessable "Invalid or inactive locale_id in translations")
    ResourceRepository.upsertTranslations (translations.map fun t => ⟨resourceId, t.localeId, t.name⟩)

/-- What the database raised, as a response. -/
def toResponse (code : String) : AuthError → AuthError
  | .integrity detail =>
    if detail = ResourceRepository.uniqueViolation then .conflict s!"Resource {code} already exists"
    else .internal "Internal Server Error"
  | e => e

def serverError : AuthError → AuthError := fun _ => .internal "Internal Server Error"

/-- The row of a creation; the sequence defaults to the time. -/
def newResource (resourceId : UUID) (command : ResourceCommand) (now : Int) : AuthResource :=
  ResourceRepository.setColumns command
    { id := resourceId, code := command.code, sequence := (now : Decimal) / 1000000 }

def insertWithTranslations (row : AuthResource) (translations : List TranslationCommand) :
    AuthProg Unit := do
  ResourceRepository.insertResource row
  validateAndUpsertTranslations row.id translations

/-- `resourceId` is what `uuid4()` draws. -/
def createResource (resourceId : UUID) (command : ResourceCommand) : AuthProg UUID := do
  let now ← now
  (insertWithTranslations (newResource resourceId command now) command.translations).mapError
    (toResponse command.code)
  pure resourceId

def changeParent (resourceId pid : UUID) : AuthProg Unit := do
  let _ ← getResourceAuditDict localeId resourceId
  (ResourceRepository.changeParent resourceId pid).mapError serverError
  let _ ← getResourceAuditDict localeId resourceId
  pure ()

def updateWithTranslations (resourceId : UUID) (command : ResourceCommand) : AuthProg Unit := do
  let n ← ResourceRepository.updateResource resourceId command
  raiseIf (n = 0) (resourceNotFound resourceId)
  validateAndUpsertTranslations resourceId command.translations

def updateResource (resourceId : UUID) (command : ResourceCommand) : AuthProg Unit := do
  let _ ← getResourceAuditDict localeId resourceId
  (updateWithTranslations resourceId command).mapError (toResponse command.code)
  let _ ← getResourceAuditDict localeId resourceId
  pure ()

/-- A resource deleted for good has no new row to log. -/
def deleteResource (resourceId : UUID) (command : DeleteCommand) : AuthProg Unit := do
  let _ ← getResourceAuditDict localeId resourceId
  if command.permanent then (ResourceRepository.deleteHard resourceId).mapError serverError
  else do
    (ResourceRepository.deleteSoft resourceId command.reason).mapError serverError
    let _ ← getResourceAuditDict localeId resourceId
    pure ()

def restoreResource (resourceId : UUID) : AuthProg Unit := do
  let _ ← getResourceAuditDict localeId resourceId
  (ResourceRepository.restoreResourceTree resourceId).mapError serverError
  let _ ← getResourceAuditDict localeId resourceId
  pure ()

/-! ### 3.1 `build_tree` -/

/-- `nodes`, a dict by id: a later item takes the place of an earlier one. -/
def nodesById (items : List ResourceItem) : List ResourceItem :=
  items.foldl (fun nodes item => if nodes.any fun n => n.id = item.id then
    nodes.map fun n => if n.id = item.id then item else n else nodes ++ [item]) []

/-- The node that a node is appended to; a node without one is a root item. -/
def parentIn (nodes : List ResourceItem) (n : ResourceItem) : Option UUID :=
  n.pid.filter fun p => nodes.any fun x => x.id = p

/-- By sequence, then by name. -/
def sortNodes (nodes : List ResourceItem) : List ResourceItem :=
  nodes.insertionSort fun a b =>
    a.sequence < b.sequence ∨ (a.sequence = b.sequence ∧ a.name ≤ b.name)

def childrenOf (nodes : List ResourceItem) (n : ResourceItem) : List ResourceItem :=
  sortNodes (nodes.filter fun c => parentIn nodes c = some n.id)

def buildTree (items : List ResourceItem) : List (Forest.Tree ResourceItem) :=
  let nodes := nodesById items
  (sortNodes (nodes.filter fun n => parentIn nodes n = none)).map
    (Forest.grow (childrenOf nodes) nodes.length)

end ResourceService

end NewlifeCore.Auth
