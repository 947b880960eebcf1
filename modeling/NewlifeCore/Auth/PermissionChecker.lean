import NewlifeCore.Auth.RouteMatching
import NewlifeCore.Auth.SessionRuns
import NewlifeCore.Txn.Desk

/-!
# Who may call a route

`PermissionChecker`, which looks a user's codes up in Redis and nowhere else, and the check of
`AuthMiddleware` that calls it.  Beside the checks run the sign-ins and refreshes that fill the
codes of a user in, and every request that may change them in the database.
-/

namespace NewlifeCore.Auth

open Txn Script

/-! ## 1. `PermissionChecker` -/

namespace PermissionChecker

def hasPermission (ctx : Option UserContext) (permissionCode : String) (userId : Option UUID) :
    AuthScript Bool :=
  match ctx with
  | none => raise (.unauthorized "Unauthorized")
  | some user =>
    if user.isSuperuser then pure true
    else ask fun r t => r.hexists t (.permission (userId.getD user.userId)) permissionCode

def hasAnyPermission (ctx : Option UserContext) : List String → Option UUID → AuthScript Bool
  | [], _ => pure false
  | permissionCode :: permissionCodes, userId => do
    if ← hasPermission ctx permissionCode userId then pure true
    else hasAnyPermission ctx permissionCodes userId

def hasAllPermissions (ctx : Option UserContext) : List String → Option UUID → AuthScript Bool
  | [], _ => pure true
  | permissionCode :: permissionCodes, userId => do
    if ← hasPermission ctx permissionCode userId then hasAllPermissions ctx permissionCodes userId
    else pure false

end PermissionChecker

/-! ## 2. `AuthMiddleware` -/

/-- `ForbiddenException()`. -/
def AuthMiddleware.forbiddenException : AuthError := .forbidden "Forbidden"

/-- `_check_permissions`. -/
def AuthMiddleware.checkPermissions (authConfig : AuthConfig) (ctx : Option UserContext) :
    AuthScript Unit :=
  match ctx with
  | none => raise (.unauthorized "Authentication required")
  | some user =>
    if authConfig.allowSuperuser && user.isSuperuser then pure ()
    else do
      let permissionCodes := authConfig.permissionCodes.getD []
      let hasPermission ←
        if authConfig.requireAll then PermissionChecker.hasAllPermissions ctx permissionCodes none
        else PermissionChecker.hasAnyPermission ctx permissionCodes none
      if hasPermission then pure () else raise forbiddenException

/-! ## 3. Requests -/

/-- The request, its answer aside. -/
def SessionRequest.body {settings : AuthSettings} : SessionRequest settings → AuthScript Unit
  | .adminLogin ctx draw user => do
    let _ ← LoginService.completeAdminLogin settings ctx draw user
  | .memberLogin ctx draw user appCode => do
    let _ ← LoginService.completeMemberLogin settings ctx draw user appCode
  | .refresh ctx draw token => do
    let _ ← RefreshTokenService.refreshToken settings ctx draw token
  | .refreshMember ctx draw token => do
    let _ ← RefreshTokenService.refreshMemberToken settings ctx draw token
  | .logout accessToken refreshToken =>
    RefreshTokenService.logout settings accessToken refreshToken
  | .logoutMember accessToken refreshToken =>
    RefreshTokenService.logoutMember settings accessToken refreshToken
  | .call ctx isAdmin token => do
    let _ ← AuthMiddleware.authenticate settings ctx isAdmin token

/-- `AdminUserService.bind_roles`, which takes the user's codes out of Redis. -/
def AdminUserService.bindRoles (userId : UUID) (roleIds : List UUID) : AuthScript Unit := do
  let _ ← query (UserRepository.bindRoles userId roleIds)
  RoleCache.clearUserRolesCache userId
  PermissionCache.clearUserPermissionsCache userId

/-- What runs side by side; `X` names the other requests on the database. -/
inductive AccessRequest (settings : AuthSettings) (X : Type)
  | session (request : SessionRequest settings)
  | bindRoles (userId : UUID) (roleIds : List UUID)
  /-- On roles, permissions, resources, accounts. -/
  | transaction (x : X)
  /-- The check of a route. -/
  | check (authConfig : AuthConfig) (user : UserContext)

/-- What a request runs, any transactions being given. -/
def AccessRequest.body {settings : AuthSettings} {X : Type} (transactions : X → AuthProg Unit) :
    AccessRequest settings X → AuthScript Unit
  | .session request => request.body
  | .bindRoles userId roleIds => AdminUserService.bindRoles userId roleIds
  | .transaction x => query (transactions x)
  | .check authConfig user => AuthMiddleware.checkPermissions authConfig (some user)

end NewlifeCore.Auth
