import NewlifeCore.Auth.Sessions

/-!
# What the session requests are made of

Whether a request leaves a family, a binding or a cache alone is settled statement by statement, and
the way its services put the statements together is the same each time.  So they are walked once,
for any property of scripts that composes.

* `Reading`: the clock, and SELECTs that do not look at the refresh tokens, have the property.  Then
  `authenticate` has it.
* `Caching`: so have the commands on the caches of roles and permissions, hence what fills them
  (`initUserRolesCache`, `initUserPermissionsCache`).
* `SigningIn`: so have the statements of a login for the families `F`, hence the logins and, given
  it of the rotation, the refreshes.

What is known of a rotation or a sign-out depends on the tokens that are stored; it stays with the
property.
-/

namespace NewlifeCore.Auth

open Txn Script

variable {settings : AuthSettings} {P : ∀ α : Type, AuthScript α → Prop} {F : UUID → Prop}

/-! ## 1. Reading -/

structure Reading (P : ∀ α : Type, AuthScript α → Prop) : Prop extends Compositional P where
  now : P Int now
  select : ∀ {α : Type} {q : Db → Int → α},
    (∀ db l t, q { db with refreshTokens := l } t = q db t) → P α (query (Prog.select q))

namespace Reading

variable (h : Reading P)
include h

theorem createAccessToken (user : AuthUser) (familyId : UUID) (aud : AccessTokenAudType)
    (roles : Option (List String)) (azp : Option String) :
    P _ (JWTProvider.createAccessToken settings user familyId aud roles azp) := by
  refine h.bind h.now fun now => ?_
  cases user.email with
  | none => exact h.raise _
  | some email => exact h.ret _

theorem verifyToken (token : settings.jwt.Text) (isAdmin : Bool) :
    P _ (JWTProvider.verifyToken settings token isAdmin) := h.bind h.now fun _ => h.ret _

theorem resolveRequestAppCode (ctx : RequestContext) :
    P _ (RefreshTokenService.resolveRequestAppCode ctx) := by
  unfold RefreshTokenService.resolveRequestAppCode
  split
  · split
    · exact h.raise _
    · exact h.ret _
  · exact h.raise _

theorem userContext (user : AuthUser) (loginAdmin : Bool) (payload : AccessTokenPayload) :
    P _ (AuthMiddleware.userContext user loginAdmin payload) := by
  unfold AuthMiddleware.userContext
  split
  · exact h.raise _
  · exact h.ret _

theorem verifyAdminToken (token : settings.jwt.Text) :
    P _ (AuthMiddleware.verifyAdminToken settings token) := by
  refine h.bind (h.verifyToken token true) fun payload => ?_
  split
  · exact h.raise _
  · refine h.bind (h.select fun _ _ _ => rfl) fun found => ?_
    split
    · exact h.raise _
    · split
      · exact h.raise _
      · exact h.userContext _ _ _

theorem verifyUserToken (ctx : RequestContext) (token : settings.jwt.Text) :
    P _ (AuthMiddleware.verifyUserToken settings ctx token) := by
  refine h.bind (h.verifyToken token false) fun payload => ?_
  split
  · exact h.raise _
  · split
    · exact h.raise _
    · split
      · exact h.raise _
      · refine h.bind (h.resolveRequestAppCode ctx) fun appCode => ?_
        split
        · exact h.raise _
        · refine h.bind (h.select fun _ _ _ => rfl) fun found => ?_
          split
          · exact h.raise _
          · split
            · exact h.raise _
            · exact h.userContext _ _ _

/-- **A call that is let in or refused** is made of readings. -/
theorem authenticate (ctx : RequestContext) (isAdmin : Bool) (token : Option settings.jwt.Text) :
    P _ (AuthMiddleware.authenticate settings ctx isAdmin token) := by
  unfold AuthMiddleware.authenticate
  split
  · exact h.raise _
  · split
    · exact h.verifyAdminToken _
    · exact h.verifyUserToken _ _

end Reading

/-! ## 2. Caches -/

structure Caching (P : ∀ α : Type, AuthScript α → Prop) : Prop extends Reading P where
  role : ∀ (userId : UUID) (e : Redis → Int → Option RedisEntry),
    P Unit (tell fun r t => r.put (.role userId) (e r t))
  permission : ∀ (userId : UUID) (e : Redis → Int → Option RedisEntry),
    P Unit (tell fun r t => r.put (.permission userId) (e r t))

namespace Caching

variable (h : Caching P)
include h

theorem initUserRolesCache (user : AuthUser) (seconds : Int) :
    P _ (RoleService.initUserRolesCache user seconds) := by
  refine h.bind ?_ fun codes => ?_
  · unfold RoleService.roleCodes
    split
    · exact h.ret _
    · exact h.select fun _ _ _ => rfl
  · split
    · exact h.bind (h.role _ _) fun _ => h.ret _
    · refine h.bind (h.bind (h.role _ _) fun _ => ?_) fun _ => h.ret _
      split
      · exact h.ret _
      · exact h.bind (h.role _ _) fun _ => h.bind (h.role _ _) fun _ => h.ret _

theorem initUserPermissionsCache (user : AuthUser) (seconds : Int) :
    P _ (PermissionService.initUserPermissionsCache user seconds) := by
  refine h.bind ?_ fun permissions => ?_
  · unfold PermissionService.permissionRecords
    split
    · exact h.select fun _ _ _ => rfl
    · exact h.select fun _ _ _ => rfl
  · split
    · exact h.bind (h.permission _ _) fun _ => h.ret _
    · refine h.bind (h.bind (h.permission _ _) fun _ => ?_) fun _ => h.ret _
      split
      · exact h.ret _
      · exact h.bind (h.each (fun _ => h.permission _ _) _) fun _ =>
          h.bind (h.permission _ _) fun _ => h.ret _

theorem refreshToken {ctx : RequestContext} {draw : TokenDraw} {token : String}
    (hrotate : P _ (RefreshTokenService.rotateOrUnauthorized settings ctx draw token)) :
    P _ (RefreshTokenService.refreshToken settings ctx draw token) := by
  refine h.bind hrotate fun x => h.bind (h.select fun _ _ _ => rfl) fun found => ?_
  cases found with
  | none => exact h.raise _
  | some user =>
    dsimp only
    split
    · exact h.raise _
    · exact h.bind (h.initUserRolesCache user _) fun _ =>
        h.bind (h.initUserPermissionsCache user _) fun _ =>
          h.bind (h.createAccessToken _ _ _ _ _) fun _ => h.ret _

end Caching

/-! ## 3. Logins and refreshes -/

structure SigningIn (F : UUID → Prop) (P : ∀ α : Type, AuthScript α → Prop) : Prop extends
    Reading P where
  issue : ∀ {familyId : UUID}, F familyId → ∀ (tokens : TokenSettings) (ctx : RequestContext)
    (draw : TokenDraw) (userId deviceId : UUID),
      P String (query (RefreshTokenProvider.issue tokens ctx draw userId deviceId familyId))
  updateLastLoginAt : ∀ (userId : UUID) (n : Int),
    P Unit (query (UserRepository.updateLastLoginAt userId n))
  bindApp : ∀ (seconds : Int) (familyId : UUID) (appCode : String),
    P Unit (MemberRefreshAppBindingProvider.bind seconds familyId appCode)

namespace SigningIn

variable (h : SigningIn F P) {ctx : RequestContext}
include h

theorem completeAdminLogin (hc : Caching P) {draw : LoginDraw} (hnew : F draw.familyId)
    (user : AuthUser) : P _ (LoginService.completeAdminLogin settings ctx draw user) := by
  unfold LoginService.completeAdminLogin
  split
  · exact h.raise _
  · exact h.bind (hc.initUserRolesCache user _) fun _ =>
      h.bind (hc.initUserPermissionsCache user _) fun _ =>
        h.bind (h.createAccessToken _ _ _ _ _) fun _ => h.bind (h.issue hnew _ _ _ _ _) fun _ =>
          h.bind h.now fun _ => h.bind (h.updateLastLoginAt _ _) fun _ => h.ret _

theorem completeMemberLogin {draw : LoginDraw} (hnew : F draw.familyId) (user : AuthUser)
    (appCode : String) :
    P _ (LoginService.completeMemberLogin settings ctx draw user appCode) := by
  unfold LoginService.completeMemberLogin
  split
  · exact h.raise _
  · split
    · exact h.raise _
    · exact h.bind (h.createAccessToken _ _ _ _ _) fun _ =>
        h.bind (h.issue hnew _ _ _ _ _) fun _ => h.bind (h.bindApp _ _ _) fun _ =>
          h.bind h.now fun _ => h.bind (h.updateLastLoginAt _ _) fun _ => h.ret _

theorem boundAppCode {familyId : UUID}
    (hget : P _ (MemberRefreshAppBindingProvider.getAppCode familyId)) (appCode : String) :
    P _ (RefreshTokenService.boundAppCode settings appCode familyId) := by
  refine h.bind hget fun found => ?_
  cases found with
  | none => exact h.raise _
  | some bound =>
    dsimp only
    split
    · exact h.raise _
    · split
      · exact h.raise _
      · exact h.bind (h.bindApp _ _ _) fun _ => h.ret _

theorem refreshMemberToken {draw : TokenDraw} {token : String}
    (hget : ∀ familyId, P _ (MemberRefreshAppBindingProvider.getAppCode familyId))
    (hrotate : P _ (RefreshTokenService.rotateOrUnauthorized settings ctx draw token)) :
    P _ (RefreshTokenService.refreshMemberToken settings ctx draw token) := by
  refine h.bind (h.resolveRequestAppCode ctx) fun _ => h.bind hrotate fun x =>
    h.bind (h.boundAppCode (hget _) _) fun _ => h.bind (h.select fun _ _ _ => rfl) fun found => ?_
  cases found with
  | none => exact h.raise _
  | some user =>
    dsimp only
    split
    · exact h.raise _
    · exact h.bind (h.createAccessToken _ _ _ _ _) fun _ => h.ret _

end SigningIn

/-! ## 4. Sign-outs -/

namespace Reading

variable (h : Reading P)
include h

theorem blacklist (htell : ∀ hash seconds, P Unit (tell fun r t =>
      r.setex t (.tokenBlacklist hash) seconds "1"))
    (token : settings.jwt.Text) (payload : Option AccessTokenPayload) :
    P _ (RefreshTokenService.blacklist settings token payload) := by
  cases payload with
  | none => exact h.ret ()
  | some payload =>
    dsimp only [RefreshTokenService.blacklist]
    split
    · exact h.ret ()
    · refine h.bind (h.bind h.now fun now => ?_) fun _ => h.ret ()
      dsimp only
      split
      · exact h.bind (htell _ _) fun _ => h.ret _
      · exact h.ret _

theorem clearBinding (hclear : ∀ familyId, P Unit (MemberRefreshAppBindingProvider.clear familyId))
    (payload : Option AccessTokenPayload) :
    P _ (RefreshTokenService.clearBinding payload) := by
  cases payload with
  | none => exact h.ret ()
  | some payload =>
    dsimp only [RefreshTokenService.clearBinding]
    split
    · exact h.ret ()
    · exact hclear _

theorem revokeIfGiven (hrevoke : ∀ token, P Bool (revokeCommitted settings token))
    (refreshToken : Option String) :
    P _ (RefreshTokenService.revokeIfGiven settings refreshToken) := by
  cases refreshToken with
  | none => exact h.ret ()
  | some token =>
    dsimp only [RefreshTokenService.revokeIfGiven]
    split
    · exact h.ret ()
    · exact h.bind (hrevoke token) fun _ => h.ret ()

end Reading

end NewlifeCore.Auth
