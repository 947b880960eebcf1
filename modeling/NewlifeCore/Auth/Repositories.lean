import Mathlib.Data.List.Sort
import Mathlib.Data.String.Basic
import NewlifeCore.Auth.Redis

/-!
# Users, roles and permissions

The repository methods that sign-in, token refresh, role administration and permission checks use.
`listUserRolePermissions` is what a user is granted.
-/

namespace NewlifeCore.Auth

open Txn Prog

/-! ## 1. `UserRepository` -/

namespace UserRepository

/-- The account with its profile, unless it is deleted. -/
def sensitiveById (db : Db) (userId : UUID) : Option AuthUser :=
  db.users.find? fun u =>
    u.id = userId && !u.isDeleted && db.userProfiles.any fun p => p.userId = u.id

def getSensitiveById (userId : UUID) : AuthProg (Option AuthUser) :=
  select fun db _ => sensitiveById db userId

def updateLastLoginAt (userId : UUID) (lastLoginAt : Int) : AuthProg Unit :=
  execute fun db => .ok (userTable.update (fun u => u.id = userId)
    (fun u => { u with lastLoginAt := some lastLoginAt }) (fun _ => rfl) db)

def getUserRoleIds (userId : UUID) : AuthProg (List UUID) :=
  select fun db _ => (db.userRoles.filter fun x => x.userId = userId).map AuthUserRole.roleId

def insertUserRoles (userId : UUID) (roleIds : List UUID) : AuthProg Unit :=
  execute fun db =>
    if roleIds.all fun x => db.roles.any fun r => r.id = x then
      .ok (userRoleTable.insert ((roleIds.map fun x => ⟨userId, x⟩).filter fun x =>
        x ∉ db.userRoles))
    else .error (.integrity "insert or update on table violates foreign key constraint")

def deleteUserRoles (userId : UUID) (roleIds : List UUID) : AuthProg Unit :=
  execute fun db => .ok (userRoleTable.delete (fun x => x.userId = userId && x.roleId ∈ roleIds) db)

def bindRoles (userId : UUID) (roleIds : List UUID) : AuthProg (List UUID × List UUID) := do
  let originalRoles ← getUserRoleIds userId
  let insertRoleIds := (roleIds.filter fun x => x ∉ originalRoles).dedup
  let deleteRoleIds := (originalRoles.filter fun x => x ∉ roleIds).dedup
  if insertRoleIds.isEmpty then pure () else insertUserRoles userId insertRoleIds
  if deleteRoleIds.isEmpty then pure () else deleteUserRoles userId deleteRoleIds
  pure (insertRoleIds, deleteRoleIds)

end UserRepository

/-! ## 2. `RoleRepository` -/

namespace RoleRepository

def listUserRoleCodes (userId : UUID) : AuthProg (List String) :=
  select fun db _ => ((db.users.filter fun u => u.id = userId && !u.isDeleted).flatMap fun u =>
    (db.userRoles.filter fun x => x.userId = u.id).flatMap fun x =>
      (db.roles.filter fun r => r.id = x.roleId && !r.isDeleted).map AuthRole.code).insertionSort
        (· ≤ ·)

def fetchPermissionIdsForRole (roleId : UUID) : AuthProg (List UUID) :=
  select fun db _ => (db.rolePermissions.filter fun x => x.roleId = roleId).map
    AuthRolePermission.permissionId

def deleteRolePermissions (roleId : UUID) (permissionIds : List UUID) : AuthProg Unit :=
  if permissionIds.isEmpty then pure ()
  else execute fun db => .ok (rolePermissionTable.delete
    (fun x => x.roleId = roleId && x.permissionId ∈ permissionIds) db)

def deleteAllRolePermissions (roleId : UUID) : AuthProg Unit :=
  execute fun db => .ok (rolePermissionTable.delete (fun x => x.roleId = roleId) db)

def deleteSoft (roleId : UUID) (reason : Option String) : AuthProg Unit :=
  execute fun db => .ok (roleTable.update (fun r => r.id = roleId)
    (fun r => { r with isDeleted := true, deleteReason := reason }) (fun _ => rfl) db)

/-- The rows of `auth.user_role` go with the role they refer to. -/
def deleteHard (roleId : UUID) : AuthProg Unit := do
  deleteAllRolePermissions roleId
  execute fun db => .ok (userRoleTable.delete (fun x => x.roleId = roleId) db)
  execute fun db => .ok (roleTable.delete (fun r => r.id = roleId) db)

end RoleRepository

/-! ## 3. `PermissionRepository` -/

namespace PermissionRepository

/-- `ORDER BY resource.code, verb.action, permission.code`. -/
def recordKey (x : PermissionRecord) : List String :=
  [x.resourceCode.getD "", x.action.getD "", x.code]

/-- The records of the permissions of a role, as of SQL `now()`. -/
def rolePermissionRecords (db : Db) (now : Int) (roleId : UUID) : List PermissionRecord :=
  (db.rolePermissions.filter fun x =>
    x.roleId = roleId && x.expireDate.all fun e => now < e).flatMap fun x =>
  (db.permissions.filter fun p => p.id = x.permissionId && !p.isDeleted && p.isActive).flatMap
    fun p =>
  (db.verbs.filter fun v => v.id = p.verbId && !v.isDeleted && v.isActive).flatMap fun v =>
  (db.resources.filter fun r => r.id = p.resourceId && !r.isDeleted && r.isVisible).map fun r =>
    ⟨p.code, some v.action, some r.code⟩

/-- The records that a user's roles grant, as of SQL `now()`. -/
def userRoleRecords (db : Db) (now : Int) (userId : UUID) : List PermissionRecord :=
  (db.users.filter fun u => u.id = userId && !u.isDeleted && u.isActive && u.verified).flatMap
    fun u =>
  (db.userRoles.filter fun x => x.userId = u.id).flatMap fun x =>
  (db.roles.filter fun r => r.id = x.roleId && !r.isDeleted && r.isActive).flatMap fun r =>
    rolePermissionRecords db now r.id

def listUserRolePermissions (userId : UUID) : AuthProg (List PermissionRecord) :=
  select fun db now => (userRoleRecords db now userId).dedup.insertionSort fun a b => recordKey a ≤ recordKey b

/-- All active permissions, for superusers. -/
def listAllPermissions : AuthProg (List PermissionRecord) :=
  select fun db _ => (db.permissions.filter fun p => p.isActive).map fun p =>
    ⟨p.code, (db.verbs.find? fun v => v.id = p.verbId).map AuthVerb.action,
      (db.resources.find? fun r => r.id = p.resourceId).map AuthResource.code⟩

end PermissionRepository

end NewlifeCore.Auth
