import NewlifeCore.Auth.Redis
import NewlifeCore.Auth.Resources

/-!
# Permissions

`PermissionService` and the methods of `PermissionRepository` and `PermissionCache` behind it.  The
list of a locale is kept in Redis for a month; none of the four requests that change it takes it out
again.  The audit log, and what is read for it, is left out.
-/

namespace NewlifeCore.Auth

open Txn Prog

/-! ## 1. Items and commands -/

/-- A row of `PermissionListResult`. -/
structure PermissionListItem where
  id : UUID
  name : String
  code : String
  isActive : Bool := true
  description : Option String := none
  remark : Option String := none
  resourceId : UUID
  verbId : UUID
deriving DecidableEq

/-- `CreatePermissionCommand` and `UpdatePermissionCommand`; without translations none is written. -/
structure PermissionCommand where
  code : String
  resourceId : UUID
  verbId : UUID
  isActive : Bool := true
  translations : List TranslationCommand := []

/-! ## 2. `PermissionRepository` -/

namespace PermissionRepository

open ResourceRepository (uniqueViolation)

def foreignKeyViolation : String :=
  "insert or update on table \"permission\" violates foreign key constraint"

/-- Whether another permission has the code, or the resource and the verb. -/
def taken (db : Db) (id : UUID) (command : PermissionCommand) : Bool :=
  db.permissions.any fun p => p.id ≠ id &&
    (p.code = command.code || (p.resourceId = command.resourceId && p.verbId = command.verbId))

def refersThere (db : Db) (command : PermissionCommand) : Bool :=
  (db.resources.any fun r => r.id = command.resourceId) &&
    db.verbs.any fun v => v.id = command.verbId

/-- The columns that a command sets. -/
def setColumns (command : PermissionCommand) (p : AuthPermission) : AuthPermission :=
  { p with
    code := command.code
    resourceId := command.resourceId
    verbId := command.verbId
    isActive := command.isActive }

def insertPermission (permissionId : UUID) (command : PermissionCommand) : AuthProg Unit :=
  execute fun db =>
    if (db.permissions.any fun p => p.id = permissionId) || taken db permissionId command then
      .error (.integrity uniqueViolation)
    else if !refersThere db command then .error (.integrity foreignKeyViolation)
    else .ok (permissionTable.insert [setColumns command
      { id := permissionId, code := command.code, verbId := command.verbId
        resourceId := command.resourceId }])

/-- One statement may not write a row twice. -/
def upsertTranslations (rows : List AuthPermissionTranslation) : AuthProg Unit :=
  if (rows.map AuthPermissionTranslation.localeId).Nodup then
    each rows fun row => execute fun _ => .ok (permissionTranslationTable.upsert row
      (fun t => { t with name := row.name, description := row.description, remark := row.remark })
      fun _ => rfl)
  else raise (.integrity "ON CONFLICT DO UPDATE command cannot affect row a second time")

/-- The constraints are checked when a row is there to be written. -/
def updatePermission (permissionId : UUID) (command : PermissionCommand) : AuthProg Nat :=
  executeCount fun db =>
    let change := permissionTable.update (fun p => p.id = permissionId && !p.isDeleted)
      (setColumns command) (fun _ => rfl) db
    if !(db.permissions.any fun p => p.id = permissionId && !p.isDeleted) then .ok change
    else if taken db permissionId command then .error (.integrity uniqueViolation)
    else if !refersThere db command then .error (.integrity foreignKeyViolation)
    else .ok change

/-- What refers to the permission goes with it. -/
def deleteHard (permissionId : UUID) : AuthProg Nat := do
  execute fun db => .ok (rolePermissionTable.delete (fun x => x.permissionId = permissionId) db)
  execute fun db => .ok
    (permissionTranslationTable.delete (fun t => t.permissionId = permissionId) db)
  executeCount fun db => .ok (permissionTable.delete (fun p => p.id = permissionId) db)

def deleteSoft (permissionId : UUID) (reason : Option String) : AuthProg Nat :=
  executeCount fun db => .ok (permissionTable.update (fun p => p.id = permissionId && !p.isDeleted)
    (fun p => { p with isDeleted := true, deleteReason := reason }) (fun _ => rfl) db)

def restorePermissions (permissionIds : List UUID) : AuthProg Unit :=
  execute fun db => .ok (permissionTable.update (fun p => p.id ∈ permissionIds)
    (fun p => { p with isDeleted := false, deleteReason := none }) (fun _ => rfl) db)

/-- A row with its translation in a locale; there is one at most. -/
def toListItem (db : Db) (localeId : UUID) (p : AuthPermission) : PermissionListItem :=
  let t := db.permissionTranslations.find? fun t => t.permissionId = p.id && t.localeId = localeId
  { id := p.id
    name := (t.map AuthPermissionTranslation.name).getD ""
    code := p.code
    isActive := p.isActive
    description := t.bind AuthPermissionTranslation.description
    remark := t.bind AuthPermissionTranslation.remark
    resourceId := p.resourceId
    verbId := p.verbId }

/-- What `list_for_locale` returns in a state. -/
def localeList (db : Db) (localeId : UUID) : List PermissionListItem :=
  ((db.permissions.filter fun p => !p.isDeleted).insertionSort
    fun a b => a.resourceId ≤ b.resourceId).map (toListItem db localeId)

def listForLocale (localeId : UUID) : AuthProg (List PermissionListItem) :=
  select fun db _ => localeList db localeId

end PermissionRepository

/-! ## 3. `PermissionCache` -/

/-- `model_dump_json` and `model_validate_json` of `PermissionListResult`: what was dumped is read
back, and is no empty text. -/
structure ListCodec where
  dump : List PermissionListItem → String
  validate : String → Except AuthError (List PermissionListItem)
  validate_dump : ∀ items, validate (dump items) = .ok items
  dump_ne : ∀ items, dump items ≠ ""

namespace PermissionCache

/-- `CacheExpiry.MONTH`. -/
def month : Int := 2592000

def getPermissionListJson (localeId : UUID) : AuthScript (Option String) :=
  Script.ask fun r t => r.get t (.permissionList localeId)

def setPermissionListJson (localeId : UUID) (payload : String) : AuthScript Unit :=
  Script.tell fun r t => r.setex t (.permissionList localeId) month payload

end PermissionCache

/-! ## 4. `PermissionService` -/

namespace PermissionService

def permissionNotFound (permissionId : UUID) : AuthError :=
  .notFound s!"Permission {permissionId} not found"

def serverError : AuthError := .internal "Internal Server Error"

/-- What the database raised, as a response. -/
def integrityError (code detail : String) : AuthError :=
  if detail = ResourceRepository.uniqueViolation then
    .conflict s!"Permission {code} already exists"
  else serverError

def validateAndUpsertTranslations (permissionId : UUID) (translations : List TranslationCommand) :
    AuthProg Unit :=
  if translations.isEmpty then pure ()
  else do
    let localeIds := translations.map TranslationCommand.localeId
    let activeLocaleIds ← ResourceRepository.fetchActiveLocaleIds localeIds
    raiseIf (activeLocaleIds.length ≠ localeIds.dedup.length)
      (.unprocessable "Invalid or inactive locale_id in translations")
    PermissionRepository.upsertTranslations (translations.map fun t =>
      ⟨permissionId, t.localeId, t.name, t.description, t.remark⟩)

/-- Whatever is raised here but a unique violation is a server error, the refusal of a locale too.
`permissionId` is what `uuid4()` draws. -/
def createPermission (permissionId : UUID) (command : PermissionCommand) : AuthProg UUID := do
  (do PermissionRepository.insertPermission permissionId command
      validateAndUpsertTranslations permissionId command.translations : AuthProg Unit).mapError fun
    | .integrity detail => integrityError command.code detail
    | _ => serverError
  pure permissionId

def updatePermission (permissionId : UUID) (command : PermissionCommand) : AuthProg Unit :=
  (do let n ← PermissionRepository.updatePermission permissionId command
      raiseIf (n = 0) (permissionNotFound permissionId)
      validateAndUpsertTranslations permissionId command.translations : AuthProg Unit).mapError fun
    | .integrity detail => integrityError command.code detail
    | e => e

def deletePermission (permissionId : UUID) (command : DeleteCommand) : AuthProg Unit :=
  (do let n ← if command.permanent then PermissionRepository.deleteHard permissionId
        else PermissionRepository.deleteSoft permissionId command.reason
      raiseIf (n = 0) (permissionNotFound permissionId) : AuthProg Unit).mapError fun
    | .integrity _ => serverError
    | e => e

def restorePermission (permissionIds : List UUID) : AuthProg Unit :=
  (PermissionRepository.restorePermissions permissionIds).mapError fun _ => serverError

/-- The list of the request's locale, from the cache or else from the table and into the cache. -/
def getPermissionList (codec : ListCodec) (localeId : Option UUID) :
    AuthScript (List PermissionListItem) :=
  match localeId with
  | none => pure []
  | some localeId => do
    let cached ← PermissionCache.getPermissionListJson localeId
    match cached.filter fun text => text ≠ "" with
    | some text => Script.query (ofExcept (codec.validate text))
    | none => do
      let permissions ← Script.query (PermissionRepository.listForLocale localeId)
      PermissionCache.setPermissionListJson localeId (codec.dump permissions)
      pure permissions

end PermissionService

end NewlifeCore.Auth
