import NewlifeCore.Facility.Constants
import NewlifeCore.Txn.Table
import NewlifeCore.Txn.Exec

/-!
# The tables of authentication and authorization

The rows of the `auth` schema that sign-in, token rotation and permission checks read and write,
with the columns they use.  `Auth.Db` is one state of them; `AuthProg` is a repository or provider
method over it.
-/

namespace NewlifeCore.Auth

open Txn

/-! ## 1. Rows -/

/-- `auth.user`. -/
structure AuthUser where
  id : UUID
  phoneNumber : Option String := none
  email : Option String := none
  verified : Bool := false
  isActive : Bool := true
  isSuperuser : Bool := false
  isAdmin : Bool := false
  lastLoginAt : Option Int := none
  isDeleted : Bool := false
  deleteReason : Option String := none

/-- `auth.user_profile`. -/
structure AuthUserProfile where
  userId : UUID
  firstName : String := ""
  lastName : String := ""
  preferredName : Option String := none

inductive ThirdPartyProvider
  | microsoft
deriving DecidableEq

/-- `auth.user_third_party`. -/
structure AuthUserThirdParty where
  id : UUID
  userId : UUID
  provider : ThirdPartyProvider
  providerTenantId : UUID
  providerUid : String
  isDeleted : Bool := false

/-- `auth.device`. -/
structure AuthDevice where
  id : UUID
  userId : UUID
  lastSeenAt : Int
  lastIp : Option String
  lastUserAgent : Option String

/-- `auth.refresh_token`. -/
structure AuthRefreshToken where
  id : UUID
  userId : UUID
  deviceId : UUID
  familyId : UUID
  parentId : Option UUID := none
  replacedById : Option UUID := none
  tokenHash : String
  expiresAt : Int
  lastUsedAt : Int
  revokedAt : Option Int := none
  revokedReason : Option String := none
  ip : Option String := none
  userAgent : Option String := none

/-- `auth.role`. -/
structure AuthRole where
  id : UUID
  code : String
  isActive : Bool := true
  isDeleted : Bool := false
  deleteReason : Option String := none

/-- `auth.role_translation`. -/
structure AuthRoleTranslation where
  roleId : UUID
  localeId : UUID
  name : String
  description : Option String := none
  remark : Option String := none

/-- `auth.user_role`. -/
structure AuthUserRole where
  userId : UUID
  roleId : UUID
deriving DecidableEq

/-- `auth.role_permission`. -/
structure AuthRolePermission where
  roleId : UUID
  permissionId : UUID
  expireDate : Option Int := none

/-- `auth.permission`. -/
structure AuthPermission where
  id : UUID
  code : String
  verbId : UUID
  resourceId : UUID
  isActive : Bool := true
  isDeleted : Bool := false
  deleteReason : Option String := none

/-- `auth.permission_translation`. -/
structure AuthPermissionTranslation where
  permissionId : UUID
  localeId : UUID
  name : String
  description : Option String := none
  remark : Option String := none

/-- `auth.verb`. -/
structure AuthVerb where
  id : UUID
  action : String
  isActive : Bool := true
  isDeleted : Bool := false

inductive ResourceType
  | system
  | general
deriving DecidableEq

/-- `auth.resource`; `pid` names the parent. -/
structure AuthResource where
  id : UUID
  code : String
  pid : Option UUID := none
  key : String := ""
  icon : Option String := none
  path : Option String := none
  type : ResourceType := .general
  sequence : Decimal := 0
  isVisible : Bool := true
  isDeleted : Bool := false
  deleteReason : Option String := none

/-- `auth.resource_translation`. -/
structure AuthResourceTranslation where
  resourceId : UUID
  localeId : UUID
  name : String

/-- `system.locale`. -/
structure SystemLocale where
  id : UUID
  isActive : Bool := true
  isDeleted : Bool := false

/-! ## 2. The state -/

structure Db where
  users : List AuthUser := []
  userProfiles : List AuthUserProfile := []
  devices : List AuthDevice := []
  refreshTokens : List AuthRefreshToken := []
  roles : List AuthRole := []
  userRoles : List AuthUserRole := []
  rolePermissions : List AuthRolePermission := []
  permissions : List AuthPermission := []
  verbs : List AuthVerb := []
  resources : List AuthResource := []
  resourceTranslations : List AuthResourceTranslation := []
  locales : List SystemLocale := []
  userThirdParties : List AuthUserThirdParty := []
  roleTranslations : List AuthRoleTranslation := []
  permissionTranslations : List AuthPermissionTranslation := []

/-- The names of the rows that are written. -/
inductive RowName
  | user (id : UUID)
  | device (id : UUID)
  | refreshToken (id : UUID)
  | role (id : UUID)
  | userRole (userId roleId : UUID)
  | rolePermission (roleId permissionId : UUID)
  | resource (id : UUID)
  | resourceTranslation (resourceId localeId : UUID)
  | userProfile (userId : UUID)
  | userThirdParty (userId : UUID) (provider : ThirdPartyProvider) (providerUid : String)
  | roleTranslation (roleId localeId : UUID)
  | permission (id : UUID)
  | permissionTranslation (permissionId localeId : UUID)
deriving DecidableEq

/-- The versions stored under a row name. -/
inductive RowContent
  | users (rows : List AuthUser)
  | devices (rows : List AuthDevice)
  | refreshTokens (rows : List AuthRefreshToken)
  | roles (rows : List AuthRole)
  | userRoles (rows : List AuthUserRole)
  | rolePermissions (rows : List AuthRolePermission)
  | resources (rows : List AuthResource)
  | resourceTranslations (rows : List AuthResourceTranslation)
  | userProfiles (rows : List AuthUserProfile)
  | userThirdParties (rows : List AuthUserThirdParty)
  | roleTranslations (rows : List AuthRoleTranslation)
  | permissions (rows : List AuthPermission)
  | permissionTranslations (rows : List AuthPermissionTranslation)

instance : RowStore Db RowName where
  Row := RowContent
  row db
    | .user x => .users (db.users.filter fun r => RowName.user r.id = .user x)
    | .device x => .devices (db.devices.filter fun r => RowName.device r.id = .device x)
    | .refreshToken x =>
      .refreshTokens (db.refreshTokens.filter fun r => RowName.refreshToken r.id = .refreshToken x)
    | .role x => .roles (db.roles.filter fun r => RowName.role r.id = .role x)
    | .userRole u x =>
      .userRoles (db.userRoles.filter fun r => RowName.userRole r.userId r.roleId = .userRole u x)
    | .rolePermission x p => .rolePermissions (db.rolePermissions.filter fun r =>
        RowName.rolePermission r.roleId r.permissionId = .rolePermission x p)
    | .resource x => .resources (db.resources.filter fun r => RowName.resource r.id = .resource x)
    | .resourceTranslation x l => .resourceTranslations (db.resourceTranslations.filter fun r =>
        RowName.resourceTranslation r.resourceId r.localeId = .resourceTranslation x l)
    | .userProfile u => .userProfiles (db.userProfiles.filter fun r =>
        RowName.userProfile r.userId = .userProfile u)
    | .userThirdParty u p x => .userThirdParties (db.userThirdParties.filter fun r =>
        RowName.userThirdParty r.userId r.provider r.providerUid = .userThirdParty u p x)
    | .roleTranslation x l => .roleTranslations (db.roleTranslations.filter fun r =>
        RowName.roleTranslation r.roleId r.localeId = .roleTranslation x l)
    | .permission x =>
      .permissions (db.permissions.filter fun r => RowName.permission r.id = .permission x)
    | .permissionTranslation x l => .permissionTranslations (db.permissionTranslations.filter fun r =>
        RowName.permissionTranslation r.permissionId r.localeId = .permissionTranslation x l)

/-! ## 3. Tables -/

def userTable : Table Db RowName AuthUser where
  get := Db.users
  set db l := { db with users := l }
  name r := .user r.id
  frame db l x h := by cases x <;> first | rfl | exact congrArg RowContent.users h

def deviceTable : Table Db RowName AuthDevice where
  get := Db.devices
  set db l := { db with devices := l }
  name r := .device r.id
  frame db l x h := by cases x <;> first | rfl | exact congrArg RowContent.devices h

def refreshTokenTable : Table Db RowName AuthRefreshToken where
  get := Db.refreshTokens
  set db l := { db with refreshTokens := l }
  name r := .refreshToken r.id
  frame db l x h := by cases x <;> first | rfl | exact congrArg RowContent.refreshTokens h

def roleTable : Table Db RowName AuthRole where
  get := Db.roles
  set db l := { db with roles := l }
  name r := .role r.id
  frame db l x h := by cases x <;> first | rfl | exact congrArg RowContent.roles h

def userRoleTable : Table Db RowName AuthUserRole where
  get := Db.userRoles
  set db l := { db with userRoles := l }
  name r := .userRole r.userId r.roleId
  frame db l x h := by cases x <;> first | rfl | exact congrArg RowContent.userRoles h

def rolePermissionTable : Table Db RowName AuthRolePermission where
  get := Db.rolePermissions
  set db l := { db with rolePermissions := l }
  name r := .rolePermission r.roleId r.permissionId
  frame db l x h := by cases x <;> first | rfl | exact congrArg RowContent.rolePermissions h

def resourceTable : Table Db RowName AuthResource where
  get := Db.resources
  set db l := { db with resources := l }
  name r := .resource r.id
  frame db l x h := by cases x <;> first | rfl | exact congrArg RowContent.resources h

def resourceTranslationTable : Table Db RowName AuthResourceTranslation where
  get := Db.resourceTranslations
  set db l := { db with resourceTranslations := l }
  name r := .resourceTranslation r.resourceId r.localeId
  frame db l x h := by cases x <;> first | rfl | exact congrArg RowContent.resourceTranslations h

def userProfileTable : Table Db RowName AuthUserProfile where
  get := Db.userProfiles
  set db l := { db with userProfiles := l }
  name r := .userProfile r.userId
  frame db l x h := by cases x <;> first | rfl | exact congrArg RowContent.userProfiles h

def userThirdPartyTable : Table Db RowName AuthUserThirdParty where
  get := Db.userThirdParties
  set db l := { db with userThirdParties := l }
  name r := .userThirdParty r.userId r.provider r.providerUid
  frame db l x h := by cases x <;> first | rfl | exact congrArg RowContent.userThirdParties h

def roleTranslationTable : Table Db RowName AuthRoleTranslation where
  get := Db.roleTranslations
  set db l := { db with roleTranslations := l }
  name r := .roleTranslation r.roleId r.localeId
  frame db l x h := by cases x <;> first | rfl | exact congrArg RowContent.roleTranslations h

def permissionTable : Table Db RowName AuthPermission where
  get := Db.permissions
  set db l := { db with permissions := l }
  name r := .permission r.id
  frame db l x h := by cases x <;> first | rfl | exact congrArg RowContent.permissions h

def permissionTranslationTable : Table Db RowName AuthPermissionTranslation where
  get := Db.permissionTranslations
  set db l := { db with permissionTranslations := l }
  name r := .permissionTranslation r.permissionId r.localeId
  frame db l x h := by cases x <;> first | rfl | exact congrArg RowContent.permissionTranslations h

/-! ## 4. Methods -/

/-- The exceptions of the auth services, and what the database raises. -/
inductive AuthError
  | badRequest (detail : String)
  | serviceUnavailable (detail : String)
  | refreshTokenInvalid (detail : String)
  | unauthorized (detail : String)
  | invalidToken (detail : String)
  | forbidden (detail : String)
  | notFound (detail : String)
  | conflict (detail : String)
  | unprocessable (detail : String)
  | integrity (detail : String)
  | internal (detail : String)
deriving DecidableEq

/-- A method over the database; nothing here takes an advisory lock. -/
abbrev AuthProg (α : Type) := Prog Db RowName Empty AuthError α

end NewlifeCore.Auth
