import NewlifeCore.Auth.PermissionChecker
import NewlifeCore.Auth.PortalSeparation
import NewlifeCore.Txn.TimedLine

/-!
# How long a permission outlives its revocation

A user's codes are filled into Redis for a day when the user signs in or refreshes, and nothing but
`bind_roles` takes them out again.  So a code that no role grants any longer passes checks for up to
a day.  Here is that it passes them for no longer, whatever runs side by side: every check that
begins a day after the revocation is refused.

* §1: the codes of a user are one line of Redis, `permissionLine`, in the library's terms of lines
  that are filled for a time.  A line is extended by a fill and by nothing else (`quiet_other`).
* §2 and §3: a sign-in reads the codes by one SELECT and writes them field by field, then gives the
  hash its time (`at_writing`, `at_fill`).  What a sign-in changes in the database is not what codes
  depend on (`accessKept`), so that a SELECT after the revocation finds none of the revoked ones.
* §4: the requests that fill nothing run alongside.
* §5 reads a check: one that finds none of the needed codes on the line is refused
  (`checkPermissions_refuses`), for every combination of the route's conditions.
* §6: a fill that began before the revocation may still write afterwards, but the time it gives the
  hash runs from its own moment; the library bounds that (`Lapsing`), and `Lapsing.lacks` turns the
  bound into a refusal.  `revoked_within_a_day` is the run theorem, §7 a day in a portal of one
  role.
-/

namespace NewlifeCore.Auth

open Txn Script

/-! ## 1. The codes of a user, as a line of Redis -/

namespace RedisValue

/-- The fields of a hash. -/
def fieldNames : RedisValue → List String
  | hash fields => fields.map Prod.fst
  | _ => []

end RedisValue

/-- The roles of a user grant a code, as of SQL `now()`. -/
def HoldsCode (db : Db) (now : Int) (userId : UUID) (code : String) : Prop :=
  ∃ x ∈ PermissionRepository.userRoleRecords db now userId, x.code = code

/-- The user is no superuser. -/
def Ordinary (userId : UUID) (db : Db) : Prop :=
  ∀ u ∈ db.users, u.id = userId → u.isSuperuser = false

/-- **The codes of a user in Redis**, filled for a day from what the roles grant. -/
def permissionLine (userId : UUID) : TimedLine Db Redis String where
  look r := (r (.permission userId)).map fun e =>
    ⟨fun code => code ∈ e.value.fieldNames, e.expireAt⟩
  ttl := expiresInSeconds * secondMicros
  grants db now code := HoldsCode db now userId code
  Fit db := Ordinary userId db

section Commands

variable {userId : UUID} {key : RedisKey}

theorem look_put_self (r : Redis) (e : RedisEntry) :
    (permissionLine userId).look (r.put (.permission userId) (some e)) =
      some ⟨fun code => code ∈ e.value.fieldNames, e.expireAt⟩ := by
  simp [permissionLine]

/-- A command on another key. -/
theorem quiet_other (h : key ≠ .permission userId) (e : Redis → Int → Option RedisEntry) :
    (permissionLine userId).Quiet fun r t => r.put key (e r t) := by
  intro r t
  refine .inl ?_
  simp only [permissionLine]
  rw [Redis.put_other _ (Ne.symm h)]

theorem look_delete (r : Redis) :
    (permissionLine userId).look (r.delete (.permission userId)) = none := by
  simp [permissionLine, Redis.delete]

/-- A DELETE of the codes of any user. -/
theorem quiet_clear (other : UUID) :
    (permissionLine userId).Quiet fun r _ => r.delete (.permission other) := by
  by_cases h : other = userId
  · subst h
    exact .of_empties fun r _ => look_delete r
  · exact quiet_other (fun heq => h (RedisKey.permission.inj heq)) fun _ _ => none

/-- What is in a hash that is there now is on the line. -/
theorem has_of_fields {r : Redis} {t : Int} {code : String}
    (h : code ∈ (r.fields t (.permission userId)).map Prod.fst) :
    (permissionLine userId).Has r code := by
  unfold Redis.fields at h
  split at h
  · rename_i fields expireAt hentry
    obtain ⟨hkey, -⟩ := Option.filter_eq_some_iff.mp hentry
    refine ⟨_, congrArg (Option.map _) hkey, ?_⟩
    exact h
  · cases h

theorem hset_added (r : Redis) (t : Int) (code : String) (record : PermissionRecord) :
    (permissionLine userId).Added code r (r.hset t (.permission userId) code record) := by
  refine ⟨_, look_put_self r _, fun y hy => ?_, fun e he => ?_⟩
  · obtain ⟨x, hx, rfl⟩ := List.mem_map.mp hy
    rcases List.mem_cons.mp hx with rfl | hx
    · exact .inl rfl
    · exact .inr (has_of_fields (List.mem_map_of_mem (List.mem_of_mem_filter hx)))
  · obtain ⟨entry, hentry, he⟩ := Option.bind_eq_some_iff.mp he
    obtain ⟨hkey, -⟩ := Option.filter_eq_some_iff.mp hentry
    exact ⟨_, congrArg (Option.map _) hkey, he⟩

theorem hset_loud (code : String) (record : PermissionRecord) : ¬ (permissionLine userId).Quiet
    fun r t => r.hset t (.permission userId) code record := by
  intro h
  have hsome := @look_put_self userId Redis.empty
    ⟨.hash ((code, record) :: (Redis.empty.fields 0 (.permission userId)).filter
      fun x => x.1 ≠ code), (Redis.empty.entry 0 (.permission userId)).bind RedisEntry.expireAt⟩
  rcases h Redis.empty 0 with hstill | hempty
  · cases hsome.symm.trans hstill
  · cases hsome.symm.trans hempty

theorem expire_timed (r : Redis) (t : Int) : (permissionLine userId).Timed t r
    (r.expire t (.permission userId) expiresInSeconds) := by
  intro l hl
  obtain ⟨e, he, rfl⟩ := Option.map_eq_some_iff.mp hl
  rw [Redis.expire, Redis.put_self] at he
  obtain ⟨entry, hentry, rfl⟩ := Option.map_eq_some_iff.mp he
  obtain ⟨hkey, -⟩ := Option.filter_eq_some_iff.mp hentry
  exact ⟨rfl, fun y hy => ⟨_, congrArg (Option.map _) hkey, hy⟩⟩

theorem expire_loud : ¬ (permissionLine userId).Quiet
    fun r t => r.expire t (.permission userId) expiresInSeconds := by
  intro h
  rcases h (Redis.empty.put (.permission userId) (some ⟨.hash [], none⟩)) 0 with hstill | hempty
  · simp [permissionLine, Redis.expire, Redis.entry, Option.filter] at hstill
  · simp [permissionLine, Redis.expire, Redis.entry, Option.filter] at hempty

end Commands

/-! ## 2. What sign-ins leave alone -/

/-- What the codes of a user depend on in the user's row. -/
def AuthUser.accessKey (u : AuthUser) : UUID × Bool × Bool × Bool × Bool :=
  (u.id, u.isDeleted, u.isActive, u.verified, u.isSuperuser)

/-- The same roles and grants, for the same accounts. -/
structure SameAccess (db db' : Db) : Prop where
  users : db'.users.map AuthUser.accessKey = db.users.map AuthUser.accessKey
  userRoles : db'.userRoles = db.userRoles
  roles : db'.roles = db.roles
  rolePermissions : db'.rolePermissions = db.rolePermissions
  permissions : db'.permissions = db.permissions
  verbs : db'.verbs = db.verbs
  resources : db'.resources = db.resources

theorem SameAccess.refl (db : Db) : SameAccess db db := ⟨rfl, rfl, rfl, rfl, rfl, rfl, rfl⟩

theorem SameAccess.trans {db₁ db₂ db₃ : Db} (h₁ : SameAccess db₁ db₂) (h₂ : SameAccess db₂ db₃) :
    SameAccess db₁ db₃ where
  users := h₂.users.trans h₁.users
  userRoles := h₂.userRoles.trans h₁.userRoles
  roles := h₂.roles.trans h₁.roles
  rolePermissions := h₂.rolePermissions.trans h₁.rolePermissions
  permissions := h₂.permissions.trans h₁.permissions
  verbs := h₂.verbs.trans h₁.verbs
  resources := h₂.resources.trans h₁.resources

/-- The records of a user, from the users' keys. -/
theorem userRoleRecords_eq (db : Db) (now : Int) (userId : UUID) :
    PermissionRepository.userRoleRecords db now userId =
      ((db.users.map AuthUser.accessKey).filter fun k =>
        k.1 = userId && !k.2.1 && k.2.2.1 && k.2.2.2.1).flatMap fun k =>
      (db.userRoles.filter fun x => x.userId = k.1).flatMap fun x =>
      (db.roles.filter fun r => r.id = x.roleId && !r.isDeleted && r.isActive).flatMap fun r =>
        PermissionRepository.rolePermissionRecords db now r.id := by
  rw [PermissionRepository.userRoleRecords, List.filter_map, List.flatMap_map]
  rfl

theorem SameAccess.userRoleRecords {db db' : Db} (h : SameAccess db db') (now : Int)
    (userId : UUID) : PermissionRepository.userRoleRecords db' now userId =
      PermissionRepository.userRoleRecords db now userId := by
  simp only [userRoleRecords_eq, PermissionRepository.rolePermissionRecords, h.users, h.userRoles,
    h.roles, h.rolePermissions, h.permissions, h.verbs, h.resources]

theorem SameAccess.ordinary {db db' : Db} (h : SameAccess db db') {userId : UUID}
    (hdb : Ordinary userId db) : Ordinary userId db' := by
  intro u hu hid
  have hkey : u.accessKey ∈ db.users.map AuthUser.accessKey :=
    h.users ▸ List.mem_map_of_mem (f := AuthUser.accessKey) hu
  obtain ⟨u₀, hu₀, heq⟩ := List.mem_map.mp hkey
  simp only [AuthUser.accessKey, Prod.mk.injEq] at heq
  obtain ⟨hid₀, -, -, -, hsuper⟩ := heq
  exact hsuper ▸ hdb u₀ hu₀ (hid₀.trans hid)

/-- **Sign-ins keep to the tokens, the devices and the time of the last login.** -/
def accessKept : Guarantee Db RowName where
  rel _ db db' := SameAccess db db'
  refl _ db := .refl db
  trans := .trans
  mono _ h := h

theorem accessKept_unheard (userId : UUID) (rows : List RowName) (f : Db → Db)
    (hf : ∀ db, accessKept.rel rows db (f db)) : (permissionLine userId).Unheard f := by
  intro db hdb
  refine ⟨(hf db).ordinary hdb, fun now code hgranted => ?_⟩
  obtain ⟨x, hx, hcode⟩ := hgranted
  exact ⟨x, (hf db).userRoleRecords now userId ▸ hx, hcode⟩

section Kept

open Prog RefreshTokenProvider

variable (tokens : TokenSettings) (ctx : RequestContext) (draw : TokenDraw)

theorem insertRefreshToken_kept (row : AuthRefreshToken) :
    (insertRefreshToken row).Keeps accessKept := by
  refine .execute fun db c hc db' => ?_
  split at hc
  · cases hc
  · cases hc
    exact ⟨rfl, rfl, rfl, rfl, rfl, rfl, rfl⟩

theorem upsertDevice_kept (deviceId userId : UUID) (now : Int) :
    (upsertDevice ctx deviceId userId now).Keeps accessKept := by
  refine .execute fun db c hc db' => ?_
  cases hc
  exact ⟨rfl, rfl, rfl, rfl, rfl, rfl, rfl⟩

theorem issue_kept (userId deviceId familyId : UUID) :
    (issue tokens ctx draw userId deviceId familyId).Keeps accessKept := by
  refine Keeps.bind (fun now => ?_) (.readOnly .now)
  refine Keeps.bind (fun _ => ?_) (upsertDevice_kept ctx deviceId userId now)
  exact Keeps.bind (fun _ => .ret _) (insertRefreshToken_kept _)

theorem revokeFamily_kept (familyId : UUID) (reason : String) :
    (revokeFamily familyId reason).Keeps accessKept := by
  refine Keeps.bind (fun now => .execute fun db c hc db' => ?_) (.readOnly .now)
  cases hc
  exact ⟨rfl, rfl, rfl, rfl, rfl, rfl, rfl⟩

theorem rotateRow_kept (rt : AuthRefreshToken) (now : Int) :
    (rotateRow tokens ctx draw rt now).Keeps accessKept := by
  unfold rotateRow
  split
  · exact Keeps.bind (fun _ => .ret _) (revokeFamily_kept _ _)
  · refine Keeps.bind (fun _ => ?_) (.execute fun db c hc db' => ?_)
    · refine Keeps.bind (fun _ => ?_) (insertRefreshToken_kept _)
      refine Keeps.bind (fun _ => .ret _) (.execute fun db c hc db' => ?_)
      cases hc
      exact ⟨rfl, rfl, rfl, rfl, rfl, rfl, rfl⟩
    · cases hc
      exact ⟨rfl, rfl, rfl, rfl, rfl, rfl, rfl⟩

theorem rotate_kept (token : String) : (rotate tokens ctx draw token).Keeps accessKept := by
  refine Keeps.bind (fun now => ?_) (.readOnly .now)
  refine Keeps.bind (fun found => ?_) (.readOnly (.select _))
  split
  · trivial
  · split
    · trivial
    · exact rotateRow_kept tokens ctx draw _ now

theorem updateLastLoginAt_kept (userId : UUID) (lastLoginAt : Int) :
    (UserRepository.updateLastLoginAt userId lastLoginAt).Keeps accessKept := by
  refine .execute fun db c hc db' => ?_
  cases hc
  refine ⟨?_, rfl, rfl, rfl, rfl, rfl, rfl⟩
  refine (List.map_map ..).trans (List.map_congr_left fun u _ => ?_)
  simp only [Function.comp_apply]
  split
  · rfl
  · rfl

end Kept

/-! ## 3. Fills -/

section Fills

open TimedLine

variable {userId : UUID} {α β : Type} {may : String → Prop}

/-- A method whose changes keep to what sign-ins may do. -/
theorem at_query {p : AuthProg α} (hp : p.Keeps accessKept) :
    (permissionLine userId).At .away (query p : AuthScript α) :=
  .query (accessKept_unheard userId) hp

/-- The fields are written one by one, and then they get their time. -/
theorem at_writing (records : List PermissionRecord) (hmay : ∀ x ∈ records, may x.code)
    {f : Unit → AuthScript β} (hf : ∀ b, (permissionLine userId).At .away (f b)) :
    (permissionLine userId).At (.opened may)
      ((each records fun permission =>
        tell fun r t => r.hset t (.permission userId) permission.code permission).bind fun _ =>
        (tell fun r t => r.expire t (.permission userId) expiresInSeconds).bind f) := by
  induction records with
  | nil => exact .expire (fun r t => expire_timed r t) expire_loud hf
  | cons x records ih =>
    refine .add (hmay x List.mem_cons_self) (fun r t => hset_added r t x.code x)
      (hset_loud x.code x) fun _ => ?_
    exact ih fun y hy => hmay y (List.mem_cons_of_mem x hy)

/-- **The fill of a user's codes**, past its SELECT. -/
theorem at_fill (records : List PermissionRecord) (hmay : ∀ x ∈ records, may x.code) :
    (permissionLine userId).At (.chosen may)
      (PermissionCache.initUserPermissionsCache userId records expiresInSeconds) := by
  cases records with
  | nil => exact .drop (fun r _ => look_delete r) fun _ => .ret _
  | cons x records =>
    exact .clear (fun r _ => look_delete r) fun _ =>
      at_writing (x :: records) hmay fun _ => .ret _

/-- The codes of another user. -/
theorem at_fill_other {other : UUID} (hother : other ≠ userId) (records : List PermissionRecord)
    (seconds : Int) : (permissionLine userId).At .away
      (PermissionCache.initUserPermissionsCache other records seconds) := by
  have hkey : RedisKey.permission other ≠ .permission userId :=
    fun h => hother (RedisKey.permission.inj h)
  have hwrite : ∀ records : List PermissionRecord, (permissionLine userId).At .away
      (each records fun permission =>
        tell fun r t => r.hset t (.permission other) permission.code permission :
          AuthScript Unit) := by
    intro records
    induction records with
    | nil => exact .ret _
    | cons x records ih => exact At.bind (fun _ => ih) (.tell (quiet_other hkey _))
  refine At.bind (fun _ => ?_) (.tell (quiet_other hkey fun _ _ => none))
  split
  · exact .ret _
  · refine At.bind (fun _ => ?_) (hwrite records)
    exact At.bind (fun _ => .ret _) (.tell (quiet_other hkey _))

/-- **A sign-in fills a user's codes in from what its SELECT finds**, if its record of the user says
that the user is no superuser. -/
theorem at_initUserPermissionsCache (user : AuthUser)
    (hordinary : user.id = userId → user.isSuperuser = false) : (permissionLine userId).At .away
      (PermissionService.initUserPermissionsCache user expiresInSeconds) := by
  by_cases hid : user.id = userId
  · have hrecords : PermissionService.permissionRecords user =
        query (PermissionRepository.listUserRolePermissions userId) := by
      rw [PermissionService.permissionRecords, hordinary hid, if_neg Bool.false_ne_true, hid]
    rw [PermissionService.initUserPermissionsCache, hrecords, hid]
    refine .choose fun db now _ => ?_
    show (permissionLine userId).At _ (if _ then _ else _)
    split
    · exact .drop (fun r _ => look_delete r) fun _ => .ret _
    · refine At.bind (fun _ => .ret _) (at_fill _ fun x hx => ⟨x, ?_, rfl⟩)
      exact List.mem_dedup.mp ((List.mem_insertionSort _).mp hx)
  · have hfilled : ∀ records : List PermissionRecord, (permissionLine userId).At .away
        (if records.isEmpty then do
            PermissionCache.clearUserPermissionsCache user.id
            pure none
          else do
            let codes ← PermissionCache.initUserPermissionsCache user.id records expiresInSeconds
            pure (some codes) : AuthScript (Option (List String))) := by
      intro records
      split
      · exact At.bind (fun _ => .ret _) (.tell (quiet_clear user.id))
      · exact At.bind (fun _ => .ret _) (at_fill_other hid records _)
    refine At.bind hfilled ?_
    unfold PermissionService.permissionRecords
    split
    · exact at_query (.readOnly (.select _))
    · exact at_query (.readOnly (.select _))

theorem at_initUserRolesCache (user : AuthUser) (seconds : Int) :
    (permissionLine userId).At .away (RoleService.initUserRolesCache user seconds) := by
  have hkey : RedisKey.role user.id ≠ .permission userId := fun h => by cases h
  have hcodes : (permissionLine userId).At .away (RoleService.roleCodes user) := by
    unfold RoleService.roleCodes
    split
    · exact .ret _
    · exact at_query (.readOnly (.select _))
  refine At.bind (fun codes => ?_) hcodes
  split
  · exact At.bind (fun _ => .ret _) (.tell (quiet_other hkey fun _ _ => none))
  · refine At.bind (fun _ => .ret _) ?_
    refine At.bind (fun _ => ?_) (.tell (quiet_other hkey fun _ _ => none))
    split
    · exact .ret _
    · refine At.bind (fun _ => ?_) (.tell (quiet_other hkey _))
      exact At.bind (fun _ => .ret _) (.tell (quiet_other hkey _))

variable (settings : AuthSettings)

theorem at_createAccessToken (user : AuthUser) (familyId : UUID) (aud : AccessTokenAudType)
    (roles : Option (List String)) (azp : Option String) : (permissionLine userId).At .away
      (JWTProvider.createAccessToken settings user familyId aud roles azp) := by
  refine At.bind (fun now => ?_) (.clock fun _ => .ret _)
  split
  · exact .raise _
  · exact .ret _

theorem at_completeAdminLogin (ctx : RequestContext) (draw : LoginDraw) (user : AuthUser)
    (hordinary : user.id = userId → user.isSuperuser = false) : (permissionLine userId).At .away
      (LoginService.completeAdminLogin settings ctx draw user) := by
  unfold LoginService.completeAdminLogin
  split
  · exact .raise _
  · refine At.bind (fun roles => ?_) (at_initUserRolesCache user _)
    refine At.bind (fun _ => ?_) (at_initUserPermissionsCache user hordinary)
    refine At.bind (fun _ => ?_) (at_createAccessToken settings user _ _ _ _)
    refine At.bind (fun _ => ?_) (at_query (issue_kept _ _ _ _ _ _))
    refine At.bind (fun now => ?_) (.clock fun _ => .ret _)
    exact At.bind (fun _ => .ret _) (at_query (updateLastLoginAt_kept _ _))

theorem at_rotateOrUnauthorized (ctx : RequestContext) (draw : TokenDraw) (token : String) :
    (permissionLine userId).At .away
      (RefreshTokenService.rotateOrUnauthorized settings ctx draw token) := by
  refine At.tryCatch (fun e => ?_) (At.bind (fun result => ?_) (at_query (rotate_kept _ _ _ _)))
  · cases e with
    | refreshTokenInvalid detail => exact .raise _
    | _ => exact .raise _
  · cases result with
    | rotated token data => exact .ret _
    | reused => exact .commit (.raise _)

/-- A record read from a database where the user is no superuser says so. -/
theorem Ordinary.sensitiveById {db : Db} (h : Ordinary userId db) {id : UUID} {user : AuthUser}
    (hfound : UserRepository.sensitiveById db id = some user) :
    user.id = userId → user.isSuperuser = false :=
  h user (List.mem_of_find?_eq_some hfound)

theorem at_refreshToken (ctx : RequestContext) (draw : TokenDraw) (token : String) :
    (permissionLine userId).At .away
      (RefreshTokenService.refreshToken settings ctx draw token) := by
  refine At.bind (fun rotated => ?_) (at_rotateOrUnauthorized settings ctx draw token)
  refine .select fun db now hdb => ?_
  cases hfound : UserRepository.sensitiveById db rotated.2.userId with
  | none => exact .raise _
  | some user =>
    show (permissionLine userId).At .away (if _ then _ else _)
    split
    · exact .raise _
    · refine At.bind (fun roles => ?_) (at_initUserRolesCache user _)
      refine At.bind (fun _ => ?_) (at_initUserPermissionsCache user (hdb.sensitiveById hfound))
      exact At.bind (fun _ => .ret _) (at_createAccessToken settings user _ _ _ _)

end Fills

/-! ## 4. The requests beside the fills -/

section Beside

open TimedLine

variable {userId : UUID} (settings : AuthSettings)

theorem aside_signingIn : SigningIn (fun _ => True) fun _ p => (permissionLine userId).Aside p where
  ret := .ret
  raise _ := trivial
  bind hp hf := .bind hf hp
  now := .now
  select _ := .query _
  issue _ _ _ _ _ _ := .query _
  updateLastLoginAt _ _ := .query _
  bindApp _ _ _ := .tell (quiet_other (fun h => by cases h) _)

theorem aside_rotateOrUnauthorized (ctx : RequestContext) (draw : TokenDraw) (token : String) :
    (permissionLine userId).Aside
      (RefreshTokenService.rotateOrUnauthorized settings ctx draw token) := by
  refine Aside.tryCatch (fun e => ?_) (Aside.bind (fun result => ?_) (.query _))
  · cases e with
    | refreshTokenInvalid detail => trivial
    | _ => trivial
  · cases result with
    | rotated token data => trivial
    | reused => trivial

theorem aside_revokeCommitted (token : String) :
    (permissionLine userId).Aside (revokeCommitted settings token) := by
  refine Aside.bind (fun found => ?_) (.query _)
  split
  · trivial
  · trivial

theorem aside_blacklist (token : settings.jwt.Text) (payload : Option AccessTokenPayload) :
    (permissionLine userId).Aside (RefreshTokenService.blacklist settings token payload) :=
  aside_signingIn.blacklist (fun _ _ => .tell (quiet_other (fun h => by cases h) _)) token payload

theorem aside_hasPermission (ctx : Option UserContext) (code : String) (other : Option UUID) :
    (permissionLine userId).Aside (PermissionChecker.hasPermission ctx code other) := by
  unfold PermissionChecker.hasPermission
  split
  · trivial
  · split
    · trivial
    · exact .ask _

theorem aside_checkPermissions (authConfig : AuthConfig) (ctx : Option UserContext) :
    (permissionLine userId).Aside (AuthMiddleware.checkPermissions authConfig ctx) := by
  have hany : ∀ codes other, (permissionLine userId).Aside
      (PermissionChecker.hasAnyPermission ctx codes other) := by
    intro codes other
    induction codes with
    | nil => trivial
    | cons code codes ih =>
      refine Aside.bind (fun granted => ?_) (aside_hasPermission ctx code other)
      split
      · trivial
      · exact ih
  have hall : ∀ codes other, (permissionLine userId).Aside
      (PermissionChecker.hasAllPermissions ctx codes other) := by
    intro codes other
    induction codes with
    | nil => trivial
    | cons code codes ih =>
      refine Aside.bind (fun granted => ?_) (aside_hasPermission ctx code other)
      split
      · exact ih
      · trivial
  cases ctx with
  | none => trivial
  | some user =>
    have hrefuse : ∀ granted : Bool, (permissionLine userId).Aside
        (if granted then pure () else raise AuthMiddleware.forbiddenException :
          AuthScript Unit) := by
      intro granted
      split
      · trivial
      · trivial
    show (permissionLine userId).Aside (if _ then _ else if _ then _ else _)
    split
    · trivial
    · split
      · exact Aside.bind hrefuse (hall _ _)
      · exact Aside.bind hrefuse (hany _ _)

end Beside

/-! ## 5. The checks that begin a day later -/

section Checks

open TimedLine PermissionChecker

variable {settings : AuthSettings} {X : Type} {transactions : X → AuthProg Unit} {userId : UUID}
  {revoked : List String}

/-- None of the codes is in Redis for the user. -/
def Lacks (userId : UUID) (revoked : List String) (r : Redis) (t : Int) : Prop :=
  ∀ code ∈ revoked, r.hexists t (.permission userId) code = false

/-- **A user without these codes may not call the route**: one of them is required, or one of the
route's is and they are all among them. -/
def AuthConfig.Needs (authConfig : AuthConfig) (revoked : List String) : Prop :=
  if authConfig.requireAll then ∃ code ∈ authConfig.permissionCodes.getD [], code ∈ revoked
  else ∀ code ∈ authConfig.permissionCodes.getD [], code ∈ revoked

variable {user : UserContext}

theorem hasPermission_returns (code : String) :
    (hasPermission (some user) code none).Foreseen (Lacks userId revoked) fun r =>
      ∃ granted, r = .ok granted := by
  show Script.Foreseen _ _ (if _ then _ else _)
  split
  · exact ⟨true, rfl⟩
  · exact fun r t _ => ⟨_, rfl⟩

theorem hasPermission_refuses (huser : user.userId = userId) (hsuper : user.isSuperuser = false)
    {code : String} (hcode : code ∈ revoked) :
    (hasPermission (some user) code none).Foreseen (Lacks userId revoked) fun r =>
      r = .ok false := by
  show Script.Foreseen _ _ (if _ then _ else _)
  rw [hsuper, if_neg Bool.false_ne_true]
  intro r t hlacks
  show Except.ok (r.hexists t (.permission user.userId) code) = _
  rw [huser, hlacks code hcode]

theorem hasAnyPermission_refuses (huser : user.userId = userId) (hsuper : user.isSuperuser = false)
    (codes : List String) (h : ∀ code ∈ codes, code ∈ revoked) :
    (hasAnyPermission (some user) codes none).Foreseen (Lacks userId revoked) fun r =>
      r = .ok false := by
  induction codes with
  | nil => rfl
  | cons code codes ih =>
    refine Foreseen.bind (fun granted hgranted => ?_) (fun e he => by cases he)
      (hasPermission_refuses huser hsuper (h code List.mem_cons_self))
    cases hgranted
    exact ih fun c hc => h c (List.mem_cons_of_mem code hc)

theorem hasAllPermissions_refuses (huser : user.userId = userId) (hsuper : user.isSuperuser = false)
    (codes : List String) (h : ∃ code ∈ codes, code ∈ revoked) :
    (hasAllPermissions (some user) codes none).Foreseen (Lacks userId revoked) fun r =>
      r = .ok false := by
  induction codes with
  | nil =>
    obtain ⟨code, hcode, -⟩ := h
    cases hcode
  | cons code codes ih =>
    by_cases hcode : code ∈ revoked
    · refine Foreseen.bind (fun granted hgranted => ?_) (fun e he => by cases he)
        (hasPermission_refuses huser hsuper hcode)
      cases hgranted
      rfl
    · have hrest : ∃ c ∈ codes, c ∈ revoked := by
        obtain ⟨c, hc, hrevoked⟩ := h
        rcases List.mem_cons.mp hc with rfl | hc
        · exact absurd hrevoked hcode
        · exact ⟨c, hc, hrevoked⟩
      refine Foreseen.bind (fun granted _ => ?_) (fun e ⟨_, he⟩ => by cases he)
        (hasPermission_returns code)
      cases granted with
      | false => rfl
      | true => exact ih hrest

/-- **A check without the codes that its route needs is refused.** -/
theorem checkPermissions_refuses (huser : user.userId = userId) (hsuper : user.isSuperuser = false)
    {authConfig : AuthConfig} (hneeds : authConfig.Needs revoked) :
    (AuthMiddleware.checkPermissions authConfig (some user)).Foreseen (Lacks userId revoked)
      fun r => r = .error AuthMiddleware.forbiddenException := by
  have hrefuse : ∀ granted : Bool, (Except.ok granted : Except AuthError Bool) = .ok false →
      (if granted then pure () else raise AuthMiddleware.forbiddenException :
        AuthScript Unit).Foreseen (Lacks userId revoked) fun r =>
          r = .error AuthMiddleware.forbiddenException := by
    intro granted hgranted
    cases hgranted
    rfl
  show Script.Foreseen _ _ (if _ then _ else if _ then _ else _)
  rw [hsuper, Bool.and_false, if_neg Bool.false_ne_true]
  unfold AuthConfig.Needs at hneeds
  split
  · rename_i hall
    rw [if_pos hall] at hneeds
    exact Foreseen.bind hrefuse (fun e he => by cases he)
      (hasAllPermissions_refuses huser hsuper _ hneeds)
  · rename_i hany
    rw [if_neg hany] at hneeds
    exact Foreseen.bind hrefuse (fun e he => by cases he)
      (hasAnyPermission_refuses huser hsuper _ hneeds)

/-! ## 6. Every interleaving -/

abbrev AccessDesk (settings : AuthSettings) (X : Type) :=
  Desk Db RowName Redis AuthError Unit (AccessRequest settings X)

/-- Any database, an empty Redis and nobody there. -/
def AccessDesk.opening (settings : AuthSettings) (X : Type) (db : Db) (clock : Int) :
    AccessDesk settings X where
  db
  store := Redis.empty
  clock

/-- A sign-in whose record of the user says superuser. -/
def AccessRequest.saysSuperuser (userId : UUID) : AccessRequest settings X → Bool
  | .session (.adminLogin _ _ user) => user.id = userId && user.isSuperuser
  | _ => false

/-- The user is no superuser, in the database and in what a sign-in begins with. -/
def StaysOrdinary (userId : UUID) (s : AccessDesk settings X)
    (a : Turn (AccessRequest settings X)) : Prop :=
  Ordinary userId s.db ∧ ∀ request, a = .begin request → request.saysSuperuser userId = false

/-- And no role grants the user one of the codes. -/
def StaysRevoked (userId : UUID) (revoked : List String) (s : AccessDesk settings X)
    (a : Turn (AccessRequest settings X)) : Prop :=
  StaysOrdinary userId s a ∧ ∀ code ∈ revoked, ¬ HoldsCode s.db s.clock userId code

theorem SessionRequest.body_serves (request : SessionRequest settings)
    (h : (.session request : AccessRequest settings X).saysSuperuser userId = false) :
    (permissionLine userId).Aside request.body ∨ (permissionLine userId).At .away request.body := by
  cases request with
  | adminLogin ctx draw user =>
    have hordinary : user.id = userId → user.isSuperuser = false :=
      fun hid => by simpa [AccessRequest.saysSuperuser, hid] using h
    exact .inr (At.bind (fun _ => .ret _) (at_completeAdminLogin settings ctx draw user hordinary))
  | memberLogin ctx draw user appCode =>
    exact .inl (Aside.bind (fun _ => .ret _)
      (aside_signingIn.completeMemberLogin trivial user appCode))
  | refresh ctx draw token =>
    exact .inr (At.bind (fun _ => .ret _) (at_refreshToken settings ctx draw token))
  | refreshMember ctx draw token =>
    exact .inl (Aside.bind (fun _ => .ret _) (aside_signingIn.refreshMemberToken (fun _ => .ask _)
      (aside_rotateOrUnauthorized settings ctx draw token)))
  | logout accessToken refreshToken =>
    refine .inl (Aside.bind (fun payload => ?_) (aside_signingIn.verifyToken accessToken true))
    exact Aside.bind (fun _ => aside_signingIn.revokeIfGiven (aside_revokeCommitted settings) _)
      (aside_blacklist settings _ _)
  | logoutMember accessToken refreshToken =>
    refine .inl (Aside.bind (fun payload => ?_) (aside_signingIn.verifyToken accessToken false))
    refine Aside.bind (fun _ => ?_) (aside_blacklist settings _ _)
    exact Aside.bind (fun _ => aside_signingIn.revokeIfGiven (aside_revokeCommitted settings) _)
      (aside_signingIn.clearBinding
        (fun _ => .tell (quiet_other (fun h => by cases h) fun _ _ => none)) payload)
  | call ctx isAdmin token =>
    exact .inl (Aside.bind (fun _ => .ret _) (aside_signingIn.authenticate ctx isAdmin token))

variable {s s₁ s' : AccessDesk settings X}

variable (transactions) in
theorem StaysOrdinary.regular {a : Turn (AccessRequest settings X)} (h : StaysOrdinary userId s a) :
    (permissionLine userId).Regular (AccessRequest.body transactions) s a := by
  refine ⟨h.1, fun request ha => ?_⟩
  have hsays := h.2 request ha
  cases request with
  | session request => exact request.body_serves hsays
  | bindRoles other roleIds =>
    refine .inl (Aside.bind (fun _ => ?_) (.query _))
    refine Aside.bind (fun _ => ?_) (.tell (quiet_other (fun h => by cases h) fun _ _ => none))
    exact .tell (quiet_clear other)
  | transaction x => exact .inl (.query _)
  | check authConfig user => exact .inl (aside_checkPermissions authConfig (some user))

theorem bounded_opening (db : Db) (clock : Int) :
    (permissionLine userId).Bounded (AccessDesk.opening settings X db clock) where
  vacant _ _ := rfl
  visits _ _ h := by cases h
  bound _ _ h := by cases h
  timeless _ h := by cases h

/-- A code that lapses is not found once its time is over. -/
theorem Lapsing.lacks {deadline : Int}
    (h : ∀ code ∈ revoked, (permissionLine userId).Lapsing code deadline s)
    (hclock : deadline ≤ s.clock) : Lacks userId revoked s.store s.clock := by
  intro code hcode
  refine Bool.eq_false_iff.mpr fun hfound => ?_
  obtain ⟨x, hx, hxcode⟩ := List.any_eq_true.mp hfound
  unfold Redis.fields at hx
  split at hx
  · rename_i fields expireAt hentry
    obtain ⟨hkey, halive⟩ := Option.filter_eq_some_iff.mp hentry
    obtain ⟨e, he, hdeadline⟩ := (h code hcode).stored _ (congrArg (Option.map _) hkey)
      (List.mem_map.mpr ⟨x, hx, of_decide_eq_true hxcode⟩)
    obtain rfl : expireAt = some e := he
    have hlt : s.clock < e := of_decide_eq_true halive
    omega
  · cases hx

/-- **A revoked code passes no check that begins a day later**, whatever runs side by side: from a
moment on no role grants the user any of some codes, and no fill of the user's codes is half-way
through at that moment; then every check of theirs that begins when a day is over is refused where
the route needs one of the codes. -/
theorem revoked_within_a_day (db : Db) (clock : Int)
    (hbefore : Desk.Run (AccessRequest.body transactions) (StaysOrdinary userId)
      (AccessDesk.opening settings X db clock) s₁)
    (hmid : ∀ n v, s₁.visits n = some v → ¬ (permissionLine userId).MidFill v.script)
    (hday : Desk.Run (AccessRequest.body transactions) (StaysRevoked userId revoked) s₁ s)
    (hclock : s₁.clock + 24 * 60 * 60 * 1000000 ≤ s.clock)
    (hlater : Desk.Run (AccessRequest.body transactions) (StaysRevoked userId revoked) s s')
    {n : Nat} {v : Visit Db RowName Redis AuthError Unit (AccessRequest settings X)}
    {authConfig : AuthConfig} {r : Except AuthError Unit} (hn : s.next ≤ n)
    (hv : s'.visits n = some v) (hlabel : v.label = .check authConfig user)
    (huser : user.userId = userId) (hsuper : user.isSuperuser = false)
    (hneeds : authConfig.Needs revoked) (hr : v.script.result = some r) :
    r = .error AuthMiddleware.forbiddenException := by
  have hregular : ∀ (s : AccessDesk settings X) (a : Turn (AccessRequest settings X)),
      StaysRevoked userId revoked s a →
        (permissionLine userId).Regular (AccessRequest.body transactions) s a :=
    fun s a h => h.1.regular transactions
  have hbounded : (permissionLine userId).Bounded s₁ :=
    (bounded_opening db clock).run (hbefore.mono fun _ _ h => h.regular transactions)
  have : Nonempty Redis := ⟨.empty⟩
  have hlapsing : ∀ s : AccessDesk settings X,
      Desk.Run (AccessRequest.body transactions) (StaysRevoked userId revoked) s₁ s →
        ∀ code ∈ revoked, (permissionLine userId).Lapsing code
          (s₁.clock + (permissionLine userId).ttl) s :=
    fun s hrun code hcode => (hbounded.lapsing hmid code).run
      (hrun.mono fun s a h => ⟨hregular s a h, h.2 code hcode⟩)
  have hlacks : ∀ s₂ : AccessDesk settings X,
      Desk.Run (AccessRequest.body transactions) (StaysRevoked userId revoked) s s₂ →
        Lacks userId revoked s₂.store s₂.clock :=
    fun s₂ hrun => Lapsing.lacks (hlapsing s₂ (hday.trans hrun))
      (Int.le_trans hclock hrun.clock_le)
  have hchecks : ∀ l : AccessRequest settings X, l = .check authConfig user →
      (AccessRequest.body transactions l).Foreseen (Lacks userId revoked) fun r =>
        r = .error AuthMiddleware.forbiddenException := by
    rintro l rfl
    exact checkPermissions_refuses huser hsuper hneeds
  have hvacant := (hbounded.run (hday.mono hregular)).vacant
  exact (Foreseen.run hvacant hlacks hchecks hlater n v hn hv hlabel).result hr

end Checks

/-! ## 7. One day -/

section Sample

instance (userId : UUID) (db : Db) : Decidable (Ordinary userId db) :=
  inferInstanceAs (Decidable (∀ u ∈ db.users, u.id = userId → u.isSuperuser = false))

instance (db : Db) (now : Int) (userId : UUID) (code : String) :
    Decidable (HoldsCode db now userId code) :=
  inferInstanceAs (Decidable (∃ x ∈ PermissionRepository.userRoleRecords db now userId,
    x.code = code))

variable {settings : AuthSettings} {X : Type}

instance (userId : UUID) (s : AccessDesk settings X) (a : Turn (AccessRequest settings X)) :
    Decidable (StaysOrdinary userId s a) :=
  inferInstanceAs (Decidable (_ ∧ ∀ request, a = .begin request → _))

instance (userId : UUID) (revoked : List String) (s : AccessDesk settings X)
    (a : Turn (AccessRequest settings X)) : Decidable (StaysRevoked userId revoked s a) :=
  inferInstanceAs (Decidable (_ ∧ ∀ code ∈ revoked, ¬ HoldsCode s.db s.clock userId code))

/-- An administrator with one role and one permission. -/
def oneRole : Db where
  users := [sampleUser]
  userRoles := [⟨1, 1⟩]
  roles := [{ id := 1, code := "editor" }]
  rolePermissions := [{ roleId := 1, permissionId := 1 }]
  permissions := [{ id := 1, code := "files:read", verbId := 1, resourceId := 1 }]
  verbs := [{ id := 1, action := "read" }]
  resources := [{ id := 1, code := "files" }]

def oneRoleUser : UserContext where
  userId := 1
  isSuperuser := false
  isAdmin := true
  loginAdmin := true
  payload := ⟨1, 60, "admin", 0, 1, "pastor@newlife.org", none, 1, none⟩
  username := "pastor"

def filesRead : AuthConfig where
  permissionCodes := some ["files:read"]

/-- The role loses its permission. -/
def unbinding (_ : Unit) : AuthProg Unit := RoleRepository.deleteRolePermissions 1 [1]

abbrev DayTurn := Turn (AccessRequest plainSettings Unit)

def oneDay : Int := 24 * 60 * 60 * 1000000

/-- A sign-in up to its SELECT of the permissions. -/
def signingIn : List DayTurn :=
  .begin (.session (.adminLogin {} sampleDraw sampleUser)) :: List.replicate 5 (.act 0)

/-- The rest of it. -/
def signedIn : List DayTurn := List.replicate 9 (.act 0) ++ [.finish 0]

def unbound : List DayTurn := [.begin (.transaction ()), .act 1, .finish 1]

def checkedAt (clock : Int) : List DayTurn :=
  [.tick clock, .begin (.check filesRead oneRoleUser), .act 2]

/-- What the day comes to. -/
theorem day_turns :
    ((Desk.checkedReplay (AccessRequest.body unbinding) (StaysOrdinary 1)
        (AccessDesk.opening plainSettings Unit oneRole 0)
        (signingIn ++ signedIn ++ unbound)).bind fun s₁ =>
      (Desk.checkedReplay (AccessRequest.body unbinding) (StaysRevoked 1 ["files:read"]) s₁
          [.tick oneDay]).bind fun s =>
        (Desk.checkedReplay (AccessRequest.body unbinding) (StaysRevoked 1 ["files:read"]) s
            [.begin (.check filesRead oneRoleUser), .act 2]).map fun s' =>
          ((s₁.visits 0).isSome, (s₁.visits 1).isSome, s₁.next, s₁.clock, s.clock, s.next,
            (s'.visits 2).map fun v => (v.label, v.script.result.isSome))) =
      some (false, false, 2, 0, oneDay, 2, some (.check filesRead oneRoleUser, true)) := rfl

/-- **A revoked permission, a day after.** -/
theorem revoked_within_a_day_role :
    ∃ (s' : AccessDesk plainSettings Unit) (v : Visit Db RowName Redis AuthError Unit _),
      Desk.Run (AccessRequest.body unbinding) (StaysOrdinary 1)
        (AccessDesk.opening plainSettings Unit oneRole 0) s' ∧ s'.visits 2 = some v ∧
      v.script.result = some (.error AuthMiddleware.forbiddenException) := by
  obtain ⟨s₁, h₁, h⟩ := Option.bind_eq_some_iff.mp day_turns
  obtain ⟨s, h₂, h⟩ := Option.bind_eq_some_iff.mp h
  obtain ⟨s', h₃, h⟩ := Option.map_eq_some_iff.mp h
  simp only [Prod.mk.injEq, Option.map_eq_some_iff] at h
  obtain ⟨hfirst, hsecond, hnext₁, hclock₁, hclock, hnext, v, hv, hlabel, hresult⟩ := h
  obtain ⟨r, hr⟩ := Option.isSome_iff_exists.mp hresult
  have hbefore := Desk.Run.of_checkedReplay .refl h₁
  have hday := Desk.Run.of_checkedReplay .refl h₂
  have hlater := Desk.Run.of_checkedReplay .refl h₃
  have hopening : (permissionLine 1).Bounded (AccessDesk.opening plainSettings Unit oneRole 0) :=
    bounded_opening oneRole 0
  have hvacant := (hopening.run (hbefore.mono fun _ _ h => h.regular unbinding)).vacant
  have hmid : ∀ n v, s₁.visits n = some v → ¬ (permissionLine 1).MidFill v.script := by
    intro n v hvisit
    exfalso
    match n with
    | 0 => simp [hvisit] at hfirst
    | 1 => simp [hvisit] at hsecond
    | n + 2 => simp [hvacant (n + 2) (by omega)] at hvisit
  have hpassed : s₁.clock + 24 * 60 * 60 * 1000000 ≤ s.clock := by
    rw [hclock₁, hclock]
    decide
  have hneeds : filesRead.Needs ["files:read"] := by simp [AuthConfig.Needs, filesRead]
  have hforbidden := revoked_within_a_day oneRole 0 hbefore hmid hday hpassed hlater
    (Nat.le_of_eq hnext) hv hlabel rfl rfl hneeds hr
  refine ⟨s', v, ?_, hv, hforbidden ▸ hr⟩
  exact hbefore.trans ((hday.trans hlater).mono fun _ _ h => h.1)

/-- What comes of the check after some turns. -/
def checkAfter (turns : List DayTurn) (clock : Int) : Option (Option (Except AuthError Unit)) :=
  (Desk.replay (AccessRequest.body unbinding) (AccessDesk.opening plainSettings Unit oneRole 0)
    (turns ++ checkedAt clock)).map fun s => (s.visits 2).bind fun v => v.script.result

/-- A microsecond before the day is over. -/
example : checkAfter (signingIn ++ signedIn ++ unbound) (oneDay - 1) = some (some (.ok ())) := rfl

/-- The revocation between the SELECT of a sign-in and its EXPIRE, and a check a day after it. -/
example : checkAfter (signingIn ++ unbound ++ .tick 1 :: signedIn) oneDay = some (some (.ok ())) :=
  rfl

end Sample

end NewlifeCore.Auth
