import NewlifeCore.Auth.Resources
import NewlifeCore.Database.Act

/-!
# Roles

`RoleService` and the methods of `RoleRepository` that it writes with, statement by statement, and
the audit events that `RbacAuditService` publishes for it.
-/

namespace NewlifeCore.Auth.Roles

open Database

/-! ## 1. Commands -/

deriving instance DecidableEq for TranslationCommand, DeleteCommand

structure CreateRoleCommand where
  code : String
  name : Option String := none
  isActive : Bool := true
  description : Option String := none
  remark : Option String := none
  permissions : List UUID := []
  translations : List TranslationCommand
deriving DecidableEq

structure UpdateRoleCommand where
  code : String
  isActive : Bool := true
  permissions : List UUID := []
  translations : Option (List TranslationCommand) := none
deriving DecidableEq

structure AssignRolePermissionsCommand where
  permissionIds : List UUID := []
deriving DecidableEq

/-! ## 2. Tables -/

/-- `auth.role_translation`. -/
structure AuthRoleTranslation where
  roleId : UUID
  localeId : UUID
  name : String
deriving DecidableEq

/-- What the role methods read; of the locales, those that are active and not deleted. -/
structure RoleTables where
  roles : List AuthRole := []
  translations : List AuthRoleTranslation := []
  rolePermissions : List (UUID × UUID) := []
  activeLocales : List UUID := []

/-- A statement of a role method. -/
inductive RoleWrite
  | insertRole (id : UUID) (code : String) (isActive : Bool)
  | upsertRole (id : UUID) (code : String) (isActive : Bool)
  | upsertTranslations (rows : List AuthRoleTranslation)
  | insertRolePermissions (roleId : UUID) (permissionIds : List UUID)
  | deleteRolePermissions (roleId : UUID) (permissionIds : List UUID)
  | deleteAllRolePermissions (roleId : UUID)
  | deleteRole (id : UUID)
  | setDeleted (id : UUID) (isDeleted : Bool) (deleteReason : Option String)
deriving DecidableEq

def RoleWrite.apply (db : RoleTables) : RoleWrite → RoleTables
  | .insertRole id code isActive => { db with roles := db.roles ++ [{ id, code, isActive }] }
  | .upsertRole id code isActive =>
    if db.roles.any (·.id = id) then
      { db with
        roles := db.roles.map fun r => if r.id = id then { r with code, isActive } else r }
    else { db with roles := db.roles ++ [{ id, code, isActive }] }
  | .upsertTranslations rows =>
    { db with
      translations :=
        db.translations.filter (fun t =>
          !rows.any fun row => row.roleId = t.roleId && row.localeId = t.localeId) ++ rows }
  | .insertRolePermissions roleId ids =>
    { db with
      rolePermissions :=
        db.rolePermissions ++
          (ids.map (roleId, ·)).filter fun p => !db.rolePermissions.contains p }
  | .deleteRolePermissions roleId ids =>
    { db with
      rolePermissions :=
        db.rolePermissions.filter fun p => !(p.1 = roleId && ids.contains p.2) }
  | .deleteAllRolePermissions roleId =>
    { db with rolePermissions := db.rolePermissions.filter (·.1 ≠ roleId) }
  | .deleteRole id => { db with roles := db.roles.filter (·.id ≠ id) }
  | .setDeleted id isDeleted deleteReason =>
    { db with
      roles := db.roles.map fun r => if r.id = id then { r with isDeleted, deleteReason } else r }

/-! ## 3. Audit events -/

inductive OperationType
  | create
  | update
  | delete
  | restore
  | recycle
deriving DecidableEq

/-- `RoleDetailResult`, which `get_by_id` returns for a deleted role too. -/
structure RoleDetail where
  id : UUID
  code : String
  isActive : Bool
  deleteReason : Option String
  permissions : List UUID
deriving DecidableEq

/-- What `old_data` and `new_data` hold. -/
inductive AuditData
  | role (detail : RoleDetail)
  | created (command : CreateRoleCommand) (id : UUID)
  | permissions (roleId : UUID) (permissionIds : List UUID)
  | permanentlyDeleted
  | recycled (detail : Option RoleDetail) (id : UUID) (deleteReason : Option String)
deriving DecidableEq

/-- `AdminOperationLogEvent`. -/
structure AdminOperationLogEvent where
  operationType : OperationType
  recordId : UUID
  operationCode : String
  oldData : Option AuditData := none
  newData : Option AuditData := none
deriving DecidableEq

def authRoleTable : String := "role"

def authRolePermissionTable : String := "role_permission"

/-- What the session of a request writes. -/
inductive DbWrite
  | role (w : RoleWrite)
  | auditLog (event : AdminOperationLogEvent)
deriving DecidableEq

def DbWrite.apply (db : RoleTables) : DbWrite → RoleTables
  | .role w => w.apply db
  | .auditLog _ => db

abbrev RoleAct (α : Type) : Type := Act RoleTables DbWrite AdminOperationLogEvent α

/-- Reads the tables as the transaction of the session sees them. -/
def seeing {α : Type} (read : RoleTables → α) (db : RoleTables) (ws : List DbWrite) : α :=
  read (ws.foldl DbWrite.apply db)

/-! ## 4. `RoleRepository` -/

namespace RoleRepository

def execute (w : RoleWrite) : RoleAct Unit := Act.execute (.role w)

def roleDetail (roleId : UUID) (db : RoleTables) : Option RoleDetail :=
  (db.roles.find? (·.id = roleId)).map fun r =>
    { id := r.id, code := r.code, isActive := r.isActive, deleteReason := r.deleteReason
      permissions := ((db.rolePermissions.filter (·.1 = roleId)).map Prod.snd).dedup }

def getById (roleId : UUID) : RoleAct (Option RoleDetail) := Act.fetch (seeing (roleDetail roleId))

def fetchActiveLocaleIds (localeIds : List UUID) : RoleAct (List UUID) :=
  Act.fetchvals (seeing fun db => (db.activeLocales.filter localeIds.contains).dedup)

def insertRole (id : UUID) (code : String) (isActive : Bool) : RoleAct Unit :=
  execute (.insertRole id code isActive)

def upsertTranslations (rows : List AuthRoleTranslation) : RoleAct Unit :=
  execute (.upsertTranslations rows)

def insertRolePermissions (roleId : UUID) (permissionIds : List UUID) : RoleAct Unit :=
  if permissionIds.isEmpty then pure () else execute (.insertRolePermissions roleId permissionIds)

def fetchPermissionIdsForRole (roleId : UUID) : RoleAct (List UUID) :=
  Act.fetchvals (seeing fun db => (db.rolePermissions.filter (·.1 = roleId)).map Prod.snd)

/-- An upsert affects its one row. -/
def upsertRole (roleId : UUID) (code : String) (isActive : Bool) : RoleAct Nat := do
  execute (.upsertRole roleId code isActive)
  pure 1

def deleteRolePermissions (roleId : UUID) (permissionIds : List UUID) : RoleAct Unit :=
  if permissionIds.isEmpty then pure () else execute (.deleteRolePermissions roleId permissionIds)

def deleteAllRolePermissions (roleId : UUID) : RoleAct Unit :=
  execute (.deleteAllRolePermissions roleId)

def insertRolePermissionRows (roleId : UUID) (permissionIds : List UUID) : RoleAct Unit :=
  if permissionIds.isEmpty then pure () else execute (.insertRolePermissions roleId permissionIds)

def deleteSoft (roleId : UUID) (reason : Option String) : RoleAct Unit :=
  execute (.setDeleted roleId true reason)

def deleteHard (roleId : UUID) : RoleAct Unit := do
  deleteAllRolePermissions roleId
  execute (.deleteRole roleId)

def restoreRole (roleId : UUID) : RoleAct Unit := execute (.setDeleted roleId false none)

end RoleRepository

/-! ## 5. `RoleService` -/

/-- `RbacAuditService.create_log`. -/
def createLog (event : AdminOperationLogEvent) : RoleAct Unit := Act.publish event

namespace RoleService

def translationRows (roleId : UUID) (translations : List TranslationCommand) :
    List AuthRoleTranslation :=
  translations.map fun t => { roleId, localeId := t.localeId, name := t.name }

def validateAndUpsertTranslations (roleId : UUID) (translations : List TranslationCommand) :
    RoleAct Unit := do
  if translations.isEmpty then pure ()
  else
    let localeIds := translations.map TranslationCommand.localeId
    let active ← RoleRepository.fetchActiveLocaleIds localeIds
    if active.length ≠ localeIds.dedup.length then Act.raise .apiBaseException
    else RoleRepository.upsertTranslations (translationRows roleId translations)

/-- The role under a new id. -/
def createRole (roleId : UUID) (command : CreateRoleCommand) : RoleAct UUID := do
  Act.guarded do
    RoleRepository.insertRole roleId command.code command.isActive
    validateAndUpsertTranslations roleId command.translations
    RoleRepository.insertRolePermissions roleId command.permissions
  createLog
    { operationType := .create, recordId := roleId, operationCode := authRoleTable
      newData := some (.created command roleId) }
  createLog
    { operationType := .create, recordId := roleId, operationCode := authRolePermissionTable
      newData := some (.permissions roleId command.permissions) }
  pure roleId

def updateRole (roleId : UUID) (command : UpdateRoleCommand) : RoleAct Unit := do
  let old ← RoleRepository.getById roleId
  let oldPermissionIds ← RoleRepository.fetchPermissionIdsForRole roleId
  Act.guarded do
    let affected ← RoleRepository.upsertRole roleId command.code command.isActive
    validateAndUpsertTranslations roleId (command.translations.getD [])
    RoleRepository.insertRolePermissions roleId
      (command.permissions.dedup.filter fun p => !oldPermissionIds.contains p)
    RoleRepository.deleteRolePermissions roleId
      (oldPermissionIds.dedup.filter fun p => !command.permissions.contains p)
    if affected = 0 then Act.raise .apiBaseException else pure ()
  let new ← RoleRepository.getById roleId
  if old.isSome && new.isSome then
    createLog
      { operationType := .update, recordId := roleId, operationCode := authRoleTable
        oldData := old.map .role, newData := new.map .role }
  else pure ()
  createLog
    { operationType := .update, recordId := roleId, operationCode := authRolePermissionTable
      oldData := some (.permissions roleId oldPermissionIds)
      newData := some (.permissions roleId command.permissions) }

def deleteRole (roleId : UUID) (command : DeleteCommand) : RoleAct Unit := do
  let old ← RoleRepository.getById roleId
  let oldPermissionIds ← RoleRepository.fetchPermissionIdsForRole roleId
  Act.guarded do
    if command.permanent then RoleRepository.deleteHard roleId
    else RoleRepository.deleteSoft roleId command.reason
  if command.permanent then do
    createLog
      { operationType := .delete, recordId := roleId, operationCode := authRoleTable
        oldData := old.map .role, newData := some .permanentlyDeleted }
    createLog
      { operationType := .delete, recordId := roleId, operationCode := authRolePermissionTable
        oldData := some (.permissions roleId oldPermissionIds)
        newData := some (.permissions roleId []) }
  else
    createLog
      { operationType := .recycle, recordId := roleId, operationCode := authRoleTable
        oldData := old.map .role, newData := some (.recycled old roleId command.reason) }

def restoreRole (roleId : UUID) : RoleAct Unit := do
  let old ← RoleRepository.getById roleId
  Act.guarded (RoleRepository.restoreRole roleId)
  let new ← RoleRepository.getById roleId
  createLog
    { operationType := .restore, recordId := roleId, operationCode := authRoleTable
      oldData := old.map .role, newData := new.map .role }

def assignRolePermissions (roleId : UUID) (command : AssignRolePermissionsCommand) :
    RoleAct Unit := do
  let original ← RoleRepository.fetchPermissionIdsForRole roleId
  Act.guarded do
    RoleRepository.insertRolePermissionRows roleId
      (command.permissionIds.filter fun p => !original.contains p)
    RoleRepository.deleteRolePermissions roleId
      (original.filter fun p => !command.permissionIds.contains p)
  createLog
    { operationType := .update, recordId := roleId, operationCode := authRolePermissionTable
      oldData := some (.permissions roleId original)
      newData := some (.permissions roleId command.permissionIds) }

end RoleService

/-- An operation of `RoleService` with its arguments. -/
inductive RoleOperation
  | create (roleId : UUID) (command : CreateRoleCommand)
  | update (roleId : UUID) (command : UpdateRoleCommand)
  | delete (roleId : UUID) (command : DeleteCommand)
  | restore (roleId : UUID)
  | assign (roleId : UUID) (command : AssignRolePermissionsCommand)
deriving DecidableEq

def RoleOperation.run : RoleOperation → RoleAct Unit
  | .create roleId command => do
    let _ ← RoleService.createRole roleId command
    pure ()
  | .update roleId command => RoleService.updateRole roleId command
  | .delete roleId command => RoleService.deleteRole roleId command
  | .restore roleId => RoleService.restoreRole roleId
  | .assign roleId command => RoleService.assignRolePermissions roleId command

/-! ## 6. What an operation keeps -/

variable {I : Work RoleTables DbWrite AdminOperationLogEvent → Prop}

/-- An invariant that statements on roles and events keep. -/
abbrev RoleStable (I : Work RoleTables DbWrite AdminOperationLogEvent → Prop) : Prop :=
  Act.Stable I (fun w => ∃ r, w = .role r) fun _ => True

theorem RoleStable.execute (hI : RoleStable I) (w : RoleWrite) :
    Act.Keeps I (RoleRepository.execute w) :=
  Act.Stable.execute hI ⟨w, rfl⟩

theorem RoleStable.createLog (hI : RoleStable I) (event : AdminOperationLogEvent) :
    Act.Keeps I (createLog event) :=
  Act.Stable.publish_keeps hI trivial

theorem RoleStable.insertRolePermissions (hI : RoleStable I) (roleId : UUID) (ids : List UUID) :
    Act.Keeps I (RoleRepository.insertRolePermissions roleId ids) :=
  .ite (.pure _) (hI.execute _)

theorem RoleStable.deleteRolePermissions (hI : RoleStable I) (roleId : UUID) (ids : List UUID) :
    Act.Keeps I (RoleRepository.deleteRolePermissions roleId ids) :=
  .ite (.pure _) (hI.execute _)

theorem RoleStable.validateAndUpsertTranslations (hI : RoleStable I) (roleId : UUID)
    (translations : List TranslationCommand) :
    Act.Keeps I (RoleService.validateAndUpsertTranslations roleId translations) := by
  refine .ite (.pure _) (.bind (Act.Stable.fetchvals hI _) fun _ => ?_)
  exact .ite (.raise _) (hI.execute _)

/-- **What every statement and event keeps, every operation keeps**, wherever it fails. -/
theorem RoleOperation.run_keeps (hI : RoleStable I) (op : RoleOperation) :
    Act.Keeps I op.run := by
  have hdetail : ∀ roleId, Act.Keeps I (RoleRepository.getById roleId) := fun _ =>
    Act.Stable.fetch hI _
  have hids : ∀ roleId, Act.Keeps I (RoleRepository.fetchPermissionIdsForRole roleId) := fun _ =>
    Act.Stable.fetchvals hI _
  cases op with
  | create roleId command =>
    refine .bind (.bind (.guarded ?_) fun _ => ?_) fun _ => .pure _
    · exact .bind (hI.execute _) fun _ => .bind (hI.validateAndUpsertTranslations _ _) fun _ =>
        hI.insertRolePermissions _ _
    · exact .bind (hI.createLog _) fun _ => .bind (hI.createLog _) fun _ => .pure _
  | update roleId command =>
    refine .bind (hdetail _) fun old => .bind (hids _) fun ids => .bind (.guarded ?_) fun _ => ?_
    · refine .bind (.bind (hI.execute _) fun _ => .pure _) fun affected => ?_
      refine .bind (hI.validateAndUpsertTranslations _ _) fun _ => ?_
      refine .bind (hI.insertRolePermissions _ _) fun _ => ?_
      exact .bind (hI.deleteRolePermissions _ _) fun _ => .ite (.raise _) (.pure _)
    · refine .bind (hdetail _) fun new => .ite ?_ ?_
      · exact .bind (hI.createLog _) fun _ => hI.createLog _
      · exact .bind (.pure _) fun _ => hI.createLog _
  | delete roleId command =>
    refine .bind (hdetail _) fun old => .bind (hids _) fun ids => .bind (.guarded ?_) fun _ => ?_
    · exact .ite (.bind (hI.execute _) fun _ => hI.execute _) (hI.execute _)
    · exact .ite (.bind (hI.createLog _) fun _ => hI.createLog _) (hI.createLog _)
  | restore roleId =>
    refine .bind (hdetail _) fun old => .bind (.guarded (hI.execute _)) fun _ => ?_
    exact .bind (hdetail _) fun new => hI.createLog _
  | assign roleId command =>
    refine .bind (hids _) fun original => .bind (.guarded ?_) fun _ => hI.createLog _
    exact .bind (.ite (.pure _) (hI.execute _)) fun _ => hI.deleteRolePermissions _ _

end NewlifeCore.Auth.Roles
