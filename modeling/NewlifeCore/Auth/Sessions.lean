import NewlifeCore.Auth.RefreshTokenProvider
import NewlifeCore.Auth.Repositories

/-!
# Signing in, refreshing and signing out

`JWTProvider`, `LoginService`, `RefreshTokenService` and the two token checks of `AuthMiddleware`.
The encoding and signing of access tokens is a parameter, with what the checks of the decoder
promise; so is the hash a blacklisted token is stored by.
-/

namespace NewlifeCore.Auth

open Txn Script

/-! ## 1. Access tokens -/

inductive AccessTokenAudType
  | admin
  | user
deriving DecidableEq

/-- The claims of an access token that are read again. -/
structure AccessTokenPayload where
  sub : UUID
  exp : Int
  aud : String
  iat : Int
  userId : UUID
  email : String
  roles : Option (List String) := none
  familyId : UUID
  azp : Option String := none
deriving DecidableEq

/-- **Signed tokens**: what was encoded is what is decoded, for its own audience and until it
expires. -/
structure JwtCodec where
  Text : Type
  encode : AccessTokenPayload → Text
  decode : Text → String → Int → Option AccessTokenPayload
  decode_encode : ∀ {p aud now q}, decode (encode p) aud now = some q → q = p
  audience : ∀ {text aud now p}, decode text aud now = some p → p.aud = aud
  unexpired : ∀ {text aud now p}, decode text aud now = some p → now < p.exp * secondMicros

/-- The settings of the auth services. -/
structure AuthSettings where
  jwt : JwtCodec
  blacklistHash : jwt.Text → String
  hashToken : String → String
  accessTokenExpireMinutes : Int
  refreshTokenExpireDays : Int
  appName : String

namespace AuthSettings

variable (settings : AuthSettings)

def tokens : TokenSettings := ⟨settings.hashToken, settings.refreshTokenExpireDays * dayMicros⟩

def bindingSeconds : Int := max 1 (settings.refreshTokenExpireDays * 24 * 60 * 60)

def audience : AccessTokenAudType → String
  | .admin => settings.appName ++ "-admin"
  | .user => settings.appName ++ "-app"

end AuthSettings

variable (settings : AuthSettings)

namespace JWTProvider

/-- A user without an email address has no valid claims. -/
def createAccessToken (user : AuthUser) (familyId : UUID) (aud : AccessTokenAudType)
    (roles : Option (List String)) (azp : Option String) : AuthScript settings.jwt.Text := do
  let now ← now
  match user.email with
  | none => raise (.internal "validation error for AccessTokenPayload")
  | some email => pure (settings.jwt.encode {
      sub := user.id, aud := settings.audience aud, userId := user.id, email, roles, familyId, azp
      exp := (now + settings.accessTokenExpireMinutes * minuteMicros) / secondMicros
      iat := now / secondMicros })

def verifyToken (token : settings.jwt.Text) (isAdmin : Bool) :
    AuthScript (Option AccessTokenPayload) := do
  let now ← now
  pure (settings.jwt.decode token (settings.audience (if isAdmin then .admin else .user)) now)

end JWTProvider

/-- A token pair. -/
structure TokenResult where
  accessToken : settings.jwt.Text
  refreshToken : String
  tokenType : String := "bearer"
  expiresIn : Int

/-- The profile a login answers with. -/
structure ProfileResult where
  id : UUID
  email : String
  roles : List String
  lastLoginAt : Option Int

structure LoginResult where
  profile : ProfileResult
  token : TokenResult settings

def tokenResult (accessToken : settings.jwt.Text) (refreshToken : String) : TokenResult settings where
  accessToken := accessToken
  refreshToken := refreshToken
  expiresIn := settings.accessTokenExpireMinutes * 60

def profileResult (user : AuthUser) (roles : List String) : ProfileResult :=
  ⟨user.id, user.email.getD "", roles, user.lastLoginAt⟩

/-! ## 2. `LoginService` -/

def expiresInSeconds : Int := 60 * 60 * 24

namespace RoleService

def roleCodes (user : AuthUser) : AuthScript (List String) :=
  if user.isSuperuser then pure ["superadmin"]
  else query (RoleRepository.listUserRoleCodes user.id)

def initUserRolesCache (user : AuthUser) (seconds : Int) : AuthScript (Option (List String)) := do
  let roleCodes ← roleCodes user
  if roleCodes.isEmpty then do
    RoleCache.clearUserRolesCache user.id
    pure none
  else do
    let codes ← RoleCache.initUserRolesCache user.id roleCodes seconds
    pure (some codes)

end RoleService

namespace PermissionService

def permissionRecords (user : AuthUser) : AuthScript (List PermissionRecord) :=
  if user.isSuperuser then query PermissionRepository.listAllPermissions
  else query (PermissionRepository.listUserRolePermissions user.id)

def initUserPermissionsCache (user : AuthUser) (seconds : Int) :
    AuthScript (Option (List String)) := do
  let permissions ← permissionRecords user
  if permissions.isEmpty then do
    PermissionCache.clearUserPermissionsCache user.id
    pure none
  else do
    let codes ← PermissionCache.initUserPermissionsCache user.id permissions seconds
    pure (some codes)

end PermissionService

/-- What a login draws at random. -/
structure LoginDraw where
  familyId : UUID
  deviceId : UUID
  token : TokenDraw

namespace LoginService

variable (ctx : RequestContext) (draw : LoginDraw)

def completeAdminLogin (user : AuthUser) : AuthScript (LoginResult settings) := do
  if !user.isAdmin || !user.verified || !user.isActive then
    raise (.unauthorized "User is not allowed to access the admin portal")
  else do
    let roles ← RoleService.initUserRolesCache user expiresInSeconds
    let _ ← PermissionService.initUserPermissionsCache user expiresInSeconds
    let accessToken ← JWTProvider.createAccessToken settings user draw.familyId .admin roles none
    let refreshToken ← query (RefreshTokenProvider.issue settings.tokens ctx draw.token user.id
      draw.deviceId draw.familyId)
    let now ← now
    query (UserRepository.updateLastLoginAt user.id now)
    pure ⟨profileResult user (roles.getD []), tokenResult settings accessToken refreshToken⟩

def completeMemberLogin (user : AuthUser) (appCode : String) :
    AuthScript (LoginResult settings) := do
  if !user.verified || !user.isActive then
    raise (.unauthorized "User is not allowed to access the app")
  else if appCode.isEmpty then raise (.unauthorized "Missing web app binding")
  else do
    let accessToken ←
      JWTProvider.createAccessToken settings user draw.familyId .user none (some appCode)
    let refreshToken ← query (RefreshTokenProvider.issue settings.tokens ctx draw.token user.id
      draw.deviceId draw.familyId)
    MemberRefreshAppBindingProvider.bind settings.bindingSeconds draw.familyId appCode
    let now ← now
    query (UserRepository.updateLastLoginAt user.id now)
    pure ⟨profileResult user [], tokenResult settings accessToken refreshToken⟩

end LoginService

/-! ## 3. `RefreshTokenService` -/

/-- `rotate` as its callers see it: the revocation of a reused family is committed before the
exception. -/
def rotateCommitted (ctx : RequestContext) (draw : TokenDraw) (refreshToken : String) :
    AuthScript (String × AuthRefreshToken) := do
  match ← query (RefreshTokenProvider.rotate settings.tokens ctx draw refreshToken) with
  | .rotated token data => pure (token, data)
  | .reused => do
    commitNow
    raise (.refreshTokenInvalid "Refresh token reused.")

/-- `revoke_by_token(token, revoke_family=True)`, which commits what it revoked. -/
def revokeCommitted (refreshToken : String) : AuthScript Bool := do
  let found ← query (RefreshTokenProvider.revokeByToken settings.tokens refreshToken true)
  if found then do
    commitNow
    pure true
  else pure false

namespace RefreshTokenService

variable (ctx : RequestContext)

/-- `rotate`, an invalid token being unauthorized. -/
def rotateOrUnauthorized (draw : TokenDraw) (refreshToken : String) :
    AuthScript (String × AuthRefreshToken) :=
  (rotateCommitted settings ctx draw refreshToken).tryCatch fun
    | .refreshTokenInvalid _ => raise (.unauthorized "Invalid refresh token")
    | e => raise e

def refreshToken (draw : TokenDraw) (token : String) : AuthScript (TokenResult settings) := do
  let (newRefresh, rtData) ← rotateOrUnauthorized settings ctx draw token
  match ← query (UserRepository.getSensitiveById rtData.userId) with
  | none => raise (.unauthorized "User not found")
  | some user =>
    if !user.isAdmin || !user.verified || !user.isActive then
      raise (.unauthorized "User is not allowed to access the admin portal")
    else do
      let roles ← RoleService.initUserRolesCache user expiresInSeconds
      let _ ← PermissionService.initUserPermissionsCache user expiresInSeconds
      let accessToken ←
        JWTProvider.createAccessToken settings user rtData.familyId .admin roles none
      pure (tokenResult settings accessToken newRefresh)

/-- The app that the request comes from has to be the one its family is bound to. -/
def boundAppCode (requestAppCode : String) (familyId : UUID) : AuthScript String := do
  match ← MemberRefreshAppBindingProvider.getAppCode familyId with
  | none => raise (.unauthorized "Invalid refresh token binding")
  | some bound =>
    if bound.isEmpty then raise (.unauthorized "Invalid refresh token binding")
    else if bound ≠ requestAppCode then
      raise (.forbidden "Refresh token cannot be used from this web app")
    else do
      MemberRefreshAppBindingProvider.bind settings.bindingSeconds familyId bound
      pure bound

/-- `resolve_request_app_code`, the app being required. -/
def resolveRequestAppCode : AuthScript String :=
  match ctx.appCode with
  | some code =>
    if code.isEmpty then raise (.forbidden "Unknown or missing web app Origin") else pure code
  | none => raise (.forbidden "Unknown or missing web app Origin")

def refreshMemberToken (draw : TokenDraw) (token : String) :
    AuthScript (TokenResult settings) := do
  let requestAppCode ← resolveRequestAppCode ctx
  let (newRefresh, rtData) ← rotateOrUnauthorized settings ctx draw token
  let bound ← boundAppCode settings requestAppCode rtData.familyId
  match ← query (UserRepository.getSensitiveById rtData.userId) with
  | none => raise (.unauthorized "User not found")
  | some user =>
    if !user.verified || !user.isActive then
      raise (.unauthorized "User is not allowed to access the app")
    else do
      let accessToken ←
        JWTProvider.createAccessToken settings user rtData.familyId .user none (some bound)
      pure (tokenResult settings accessToken newRefresh)

/-- A verified token is blacklisted until it expires. -/
def blacklist (token : settings.jwt.Text) : Option AccessTokenPayload → AuthScript Unit
  | none => pure ()
  | some payload =>
    if payload.exp = 0 then pure ()
    else do
      let _ ← TokenBlacklistProvider.addToBlacklist (settings.blacklistHash token)
        (payload.exp * secondMicros)
      pure ()

def revokeIfGiven : Option String → AuthScript Unit
  | none => pure ()
  | some token =>
    if token.isEmpty then pure ()
    else do
      let _ ← revokeCommitted settings token
      pure ()

def logout (accessToken : settings.jwt.Text) (refreshToken : Option String) :
    AuthScript Unit := do
  let payload ← JWTProvider.verifyToken settings accessToken true
  blacklist settings accessToken payload
  revokeIfGiven settings refreshToken

/-- The family's binding to its app is cleared too. -/
def clearBinding : Option AccessTokenPayload → AuthScript Unit
  | none => pure ()
  | some payload =>
    if payload.exp = 0 then pure () else MemberRefreshAppBindingProvider.clear payload.familyId

def logoutMember (accessToken : settings.jwt.Text) (refreshToken : Option String) :
    AuthScript Unit := do
  let payload ← JWTProvider.verifyToken settings accessToken false
  blacklist settings accessToken payload
  clearBinding payload
  revokeIfGiven settings refreshToken

end RefreshTokenService

/-! ## 4. `AuthMiddleware` -/

/-- Who a request is made by. -/
structure UserContext where
  userId : UUID
  isSuperuser : Bool
  isAdmin : Bool
  loginAdmin : Bool
  payload : AccessTokenPayload
  username : String

namespace AuthMiddleware

/-- The context of a user, named by the local part of the email address. -/
def userContext (user : AuthUser) (loginAdmin : Bool) (payload : AccessTokenPayload) :
    AuthScript UserContext :=
  match user.email with
  | none => raise (.internal "'NoneType' object has no attribute 'split'")
  | some email => pure {
      userId := user.id, isSuperuser := user.isSuperuser, isAdmin := user.isAdmin, loginAdmin
      payload, username := String.ofList (email.toList.takeWhile fun c => c ≠ '@') }

def verifyAdminToken (token : settings.jwt.Text) : AuthScript UserContext := do
  match ← JWTProvider.verifyToken settings token true with
  | none => raise (.invalidToken "Invalid authorization token")
  | some payload =>
    match ← query (UserRepository.getSensitiveById payload.sub) with
    | none => raise (.unauthorized "Unauthorized")
    | some user =>
      if !user.isActive || !user.isAdmin || !user.verified then
        raise (.unauthorized "Unauthorized")
      else userContext user true payload

def verifyUserToken (ctx : RequestContext) (token : settings.jwt.Text) :
    AuthScript UserContext := do
  match ← JWTProvider.verifyToken settings token false with
  | none => raise (.invalidToken "Invalid authorization token")
  | some payload =>
    match payload.azp with
    | none => raise (.invalidToken "Missing authorized party")
    | some azp =>
      if azp.isEmpty then raise (.invalidToken "Missing authorized party")
      else do
        let requestAppCode ← RefreshTokenService.resolveRequestAppCode ctx
        if azp ≠ requestAppCode then raise (.forbidden "Token is not valid for this web app")
        else
          match ← query (UserRepository.getSensitiveById payload.sub) with
          | none => raise (.unauthorized "Unauthorized")
          | some user =>
            if !user.isActive || !user.verified then raise (.unauthorized "Unauthorized")
            else userContext user false payload

/-- The credentials of a request, for a route of one of the two audiences. -/
def authenticate (ctx : RequestContext) (isAdmin : Bool) :
    Option settings.jwt.Text → AuthScript UserContext
  | none => raise (.unauthorized "Authentication required")
  | some token => if isAdmin then verifyAdminToken settings token
      else verifyUserToken settings ctx token

end AuthMiddleware

end NewlifeCore.Auth
