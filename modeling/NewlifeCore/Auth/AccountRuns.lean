import NewlifeCore.Auth.MicrosoftAccounts

/-!
# The calls that write accounts

`AccountCall` is a call of the admin user service, a run of the directory sync or a sign-in with a
Microsoft identity.  What most of their methods leave alone, and what an invariant of the database
has to stand for the sync and for a sign-in to keep it, whichever of their steps fail.
-/

namespace NewlifeCore.Auth

open Txn Attempt

/-! ## 1. Calls -/

inductive AccountCall
  | createUser (userId : UUID) (command : CreateAdminUserCommand)
  | updateUser (userId : UUID) (command : UpdateAdminUserCommand)
  | deleteUser (userId : UUID) (command : DeleteCommand)
  | restoreUser (ids : List UUID)
  | directorySync (settings : SyncSettings) (dryRun : Bool) (listing : DirectoryListing)
  | microsoftLogin (ctx : RequestContext) (draw : LoginDraw) (linkId : UUID) (idToken : String)
  | microsoftMemberLogin (ctx : RequestContext) (draw : LoginDraw) (linkId : UUID)
      (idToken : String) (registered : Bool)

def AccountCall.body (maps : CaseMaps) (oidc : MicrosoftOidcProvider) (settings : AuthSettings) :
    AccountCall → AuthAttempt Unit
  | .createUser userId command => method (discard (AdminUserService.createUser userId command))
  | .updateUser userId command => method (AdminUserService.updateUser userId command)
  | .deleteUser userId command => method (AdminUserService.deleteUser userId command)
  | .restoreUser ids => method (AdminUserService.restoreUser ids)
  | .directorySync syncSettings dryRun listing => do
    let _ ← MicrosoftUserSyncService.run maps syncSettings dryRun listing
    pure ()
  | .microsoftLogin ctx draw linkId idToken => do
    let _ ← MicrosoftAuthService.microsoftLogin maps oidc settings ctx draw linkId idToken
    pure ()
  | .microsoftMemberLogin ctx draw linkId idToken registered => do
    let _ ← MicrosoftAuthService.microsoftMemberLogin maps oidc settings ctx draw linkId idToken
      registered
    pure ()

variable {db db' : Db} {t : Int}

/-! ## 2. What the methods leave alone -/

/-- Ids, addresses and deletions are what they were. -/
def SameAddresses (db db' : Db) : Prop :=
  ∃ f : AuthUser → AuthUser,
    (∀ u, (f u).id = u.id ∧ (f u).email = u.email ∧ (f u).isDeleted = u.isDeleted) ∧
      db'.users = db.users.map f

/-- The links are what they were. -/
def SameLinks (db db' : Db) : Prop := db'.userThirdParties = db.userThirdParties

/-- Both are. -/
def SameIdentities (db db' : Db) : Prop := SameAddresses db db' ∧ SameLinks db db'

theorem SameAddresses.of_eq (h : db'.users = db.users) : SameAddresses db db' :=
  ⟨id, fun _ => ⟨rfl, rfl, rfl⟩, by rw [h, List.map_id]⟩

theorem SameAddresses.trans {db₁ db₂ db₃ : Db} (h : SameAddresses db₁ db₂)
    (h' : SameAddresses db₂ db₃) : SameAddresses db₁ db₃ := by
  obtain ⟨f, hf, hdb⟩ := h
  obtain ⟨g, hg, hdb'⟩ := h'
  refine ⟨g ∘ f, fun u => ?_, by rw [hdb', hdb, List.map_map]⟩
  exact ⟨(hg _).1.trans (hf u).1, (hg _).2.1.trans (hf u).2.1, (hg _).2.2.trans (hf u).2.2⟩

theorem SameIdentities.refl (db : Db) : SameIdentities db db := ⟨.of_eq rfl, rfl⟩

theorem SameIdentities.trans {db₁ db₂ db₃ : Db} (h : SameIdentities db₁ db₂)
    (h' : SameIdentities db₂ db₃) : SameIdentities db₁ db₃ :=
  ⟨h.1.trans h'.1, h'.2.trans h.2⟩

namespace UserRepository

theorem insertUser_exec {user : AuthUser} (h : (insertUser user).exec db t = .ok ((), db')) :
    (∀ r ∈ db.users, r.id ≠ user.id ∧ sameKey r user = false) ∧
      db' = { db with users := db.users ++ [user] } := by
  obtain ⟨c, hc, rfl⟩ := Prog.exec_executed h
  split at hc
  · cases hc
  · split at hc
    · cases hc
    · rename_i hfresh
      cases hc
      refine ⟨fun r hr => ?_, rfl⟩
      have hnot : ¬ (r.id = user.id ∨ sameKey r user = true) := fun hbad =>
        hfresh (List.any_eq_true.mpr ⟨r, hr, by simpa using hbad⟩)
      exact ⟨fun h => hnot (.inl h), Bool.eq_false_iff.mpr fun h => hnot (.inr h)⟩

theorem insertUserProfile_exec {profile : AuthUserProfile}
    (h : (insertUserProfile profile).exec db t = .ok ((), db')) :
    db' = { db with userProfiles := db.userProfiles ++ [profile] } := by
  obtain ⟨c, hc, rfl⟩ := Prog.exec_executed h
  split_ifs at hc
  cases hc
  rfl

/-- A profile without a last name is refused. -/
theorem insertUserProfile_named {profile : AuthUserProfile}
    (h : (insertUserProfile profile).exec db t = .ok ((), db')) : profile.lastName ≠ "" := by
  obtain ⟨c, hc, rfl⟩ := Prog.exec_executed h
  split_ifs at hc
  assumption

theorem updateDirectoryUserProfile_writes (userId : UUID) (firstName lastName : String)
    (preferredName : Option String) :
    (updateDirectoryUserProfile userId firstName lastName preferredName).Writes SameIdentities :=
  .execute fun db c h => by
    split_ifs at h
    cases h
    exact ⟨.of_eq rfl, rfl⟩

theorem createUserProfile_writes (userId : UUID) (firstName lastName : String)
    (preferredName : Option String) :
    (createUserProfile userId firstName lastName preferredName).Writes SameIdentities :=
  .execute fun db c h => by
    have hexec : (insertUserProfile { userId, firstName, lastName, preferredName }).exec db 0 =
        .ok ((), c.apply db) := by
      simp only [insertUserProfile, Prog.execute, Prog.exec, h]
    rw [insertUserProfile_exec hexec]
    exact ⟨.of_eq rfl, rfl⟩

theorem updateUserRows_sameAddresses {p : AuthUser → Bool} {f : AuthUser → AuthUser}
    {hf : ∀ r, userTable.name (f r) = userTable.name r}
    (hkeep : ∀ u, (f u).id = u.id ∧ (f u).email = u.email ∧ (f u).isDeleted = u.isDeleted) :
    SameIdentities db ((userTable.update p f hf db).apply db) := by
  refine ⟨⟨fun u => if p u then f u else u, fun u => ?_, ?_⟩, rfl⟩
  · dsimp only
    split
    · exact hkeep u
    · exact ⟨rfl, rfl, rfl⟩
  · exact congrArg Db.users (Table.update_self userTable)

theorem updateUserActiveFlag_writes (userId : UUID) (isActive : Bool) :
    (updateUserActiveFlag userId isActive).Writes SameIdentities :=
  .execute fun db c h => by
    cases h
    exact updateUserRows_sameAddresses fun _ => ⟨rfl, rfl, rfl⟩

theorem updateLastLoginAt_writes (userId : UUID) (lastLoginAt : Int) :
    (updateLastLoginAt userId lastLoginAt).Writes SameIdentities :=
  .execute fun db c h => by
    cases h
    exact updateUserRows_sameAddresses fun _ => ⟨rfl, rfl, rfl⟩

end UserRepository

namespace LoginService

theorem issue_writes (tokens : TokenSettings) (ctx : RequestContext) (draw : TokenDraw)
    (userId deviceId familyId : UUID) :
    (RefreshTokenProvider.issue tokens ctx draw userId deviceId familyId).Writes SameIdentities := by
  refine Prog.Writes.bind (fun now => ?_) (.readOnly .now)
  refine Prog.Writes.bind (fun _ => ?_) (.execute fun db c h => ?_)
  · refine Prog.Writes.bind (fun _ => .readOnly (.ret _)) (.execute fun db c h => ?_)
    split at h
    · cases h
    · cases h
      exact ⟨.of_eq rfl, rfl⟩
  · cases h
    exact ⟨.of_eq rfl, rfl⟩

variable (settings : AuthSettings) (ctx : RequestContext) (draw : LoginDraw) (user : AuthUser)

theorem createAccessToken_writes (familyId : UUID) (aud : AccessTokenAudType)
    (roles : Option (List String)) (azp : Option String) :
    (JWTProvider.createAccessToken settings user familyId aud roles azp).Writes SameIdentities := by
  refine Script.Writes.bind (fun now => ?_) .now
  split
  · trivial
  · trivial

theorem initUserRolesCache_writes (seconds : Int) :
    (RoleService.initUserRolesCache user seconds).Writes SameIdentities := by
  have hcodes : (RoleService.roleCodes user).Writes SameIdentities := by
    unfold RoleService.roleCodes
    split
    · trivial
    · exact .query (.readOnly (.select _))
  have hcache : ∀ codes, (RoleCache.initUserRolesCache user.id codes seconds).Writes
      SameIdentities := by
    intro codes
    refine Script.Writes.bind (fun _ => ?_) (.tell _)
    split
    · trivial
    · refine Script.Writes.bind (fun _ => ?_) (.tell _)
      exact Script.Writes.bind (fun _ => .ret _) (.tell _)
  refine Script.Writes.bind (fun codes => ?_) hcodes
  split
  · exact Script.Writes.bind (fun _ => .ret _) (.tell _)
  · exact Script.Writes.bind (fun _ => .ret _) (hcache codes)

theorem initUserPermissionsCache_writes (seconds : Int) :
    (PermissionService.initUserPermissionsCache user seconds).Writes SameIdentities := by
  have hrecords : (PermissionService.permissionRecords user).Writes SameIdentities := by
    unfold PermissionService.permissionRecords
    split
    · exact .query (.readOnly (.select _))
    · exact .query (.readOnly (.select _))
  have hcache : ∀ records, (PermissionCache.initUserPermissionsCache user.id records
      seconds).Writes SameIdentities := by
    intro records
    refine Script.Writes.bind (fun _ => ?_) (.tell _)
    split
    · trivial
    · refine Script.Writes.bind (fun _ => ?_) (.each (fun _ => .tell _) _)
      exact Script.Writes.bind (fun _ => .ret _) (.tell _)
  refine Script.Writes.bind (fun records => ?_) hrecords
  split
  · exact Script.Writes.bind (fun _ => .ret _) (.tell _)
  · exact Script.Writes.bind (fun _ => .ret _) (hcache records)

theorem completeAdminLogin_writes :
    (completeAdminLogin settings ctx draw user).Writes SameIdentities := by
  unfold completeAdminLogin
  split
  · trivial
  · refine Script.Writes.bind (fun roles => ?_) (initUserRolesCache_writes user _)
    refine Script.Writes.bind (fun _ => ?_) (initUserPermissionsCache_writes user _)
    refine Script.Writes.bind (fun _ => ?_) (createAccessToken_writes settings user _ _ _ _)
    refine Script.Writes.bind (fun _ => ?_) (.query (issue_writes _ _ _ _ _ _))
    refine Script.Writes.bind (fun now => ?_) .now
    refine Script.Writes.bind (fun _ => .ret _) (.query ?_)
    exact UserRepository.updateLastLoginAt_writes _ _

theorem completeMemberLogin_writes (appCode : String) :
    (completeMemberLogin settings ctx draw user appCode).Writes SameIdentities := by
  unfold completeMemberLogin
  split
  · trivial
  · split
    · trivial
    · refine Script.Writes.bind (fun _ => ?_) (createAccessToken_writes settings user _ _ _ _)
      refine Script.Writes.bind (fun _ => ?_) (.query (issue_writes _ _ _ _ _ _))
      refine Script.Writes.bind (fun _ => ?_) (.tell _)
      refine Script.Writes.bind (fun now => ?_) .now
      refine Script.Writes.bind (fun _ => .ret _) (.query ?_)
      exact UserRepository.updateLastLoginAt_writes _ _

end LoginService

theorem UserRepository.upsertAuthUserThirdParty_writes (rowId userId : UUID)
    (provider : ThirdPartyProvider) (providerUid : String) (tenantId : UUID) :
    (upsertAuthUserThirdParty rowId userId provider providerUid tenantId).Writes SameAddresses :=
  .execute fun db c h => by
    split_ifs at h
    cases h
    exact .of_eq rfl

/-! ### 2.1 An invariant of the sync and of sign-in -/

section Invariant

open MicrosoftUserSyncService

variable {maps : CaseMaps} {I J : Db → Prop}

/-- A method that leaves ids, addresses, deletions and links alone. -/
theorem keeps_sameIdentities {α : Type} {p : AuthProg α} (hp : p.Writes SameIdentities)
    (hJ : ∀ {db db'}, SameIdentities db db' → J db → J db') :
    Attempt.Keeps t (During J I) (method p : AuthAttempt α) (fun _ => During J I) (Holds I) :=
  .frame SameIdentities.refl SameIdentities.trans hJ hp

variable {tenantId : UUID} {record : GraphUserRecord} {draw : SyncDraw}

theorem updateProfile_keeps (hJ : ∀ {db db'}, SameIdentities db db' → J db → J db')
    (userId : UUID) :
    Attempt.Keeps t (During J I) (updateProfile record userId) (fun _ => During J I) (Holds I) := by
  unfold updateProfile
  generalize profileFieldsFromGraphUser record = names
  exact keeps_sameIdentities (UserRepository.updateDirectoryUserProfile_writes userId names.1
    names.2.1 names.2.2) hJ

theorem saveProfile_keeps (hJ : ∀ {db db'}, SameIdentities db db' → J db → J db')
    (userId : UUID) :
    Attempt.Keeps t (During J I) (saveProfile record userId) (fun _ => During J I) (Holds I) := by
  refine .bind (keeps_sameIdentities (.readOnly (.select _)) hJ) fun found => ?_
  split
  · exact updateProfile_keeps hJ userId
  · exact keeps_sameIdentities (UserRepository.createUserProfile_writes _ _ _ _) hJ

/-- What is known before an update is known when its link is written. -/
theorem updateUser_keeps (hJ : ∀ {db db'}, SameIdentities db db' → J db → J db') {userId : UUID}
    (hlink : Attempt.Keeps t (During J I) (link tenantId record draw userId) (fun _ => Holds I)
      (Holds I)) :
    Attempt.Keeps t (During J I) (updateUser tenantId record draw userId) (fun _ => Holds I)
      (Holds I) := by
  refine .bind (updateProfile_keeps hJ userId) fun _ => ?_
  exact .bind (keeps_sameIdentities (UserRepository.updateUserActiveFlag_writes _ _) hJ)
    fun _ => hlink

theorem linkUser_keeps (hJ : ∀ {db db'}, SameIdentities db db' → J db → J db') {userId : UUID}
    (hlink : Attempt.Keeps t (During J I) (link tenantId record draw userId) (fun _ => Holds I)
      (Holds I)) :
    Attempt.Keeps t (During J I) (linkUser tenantId record draw userId) (fun _ => Holds I)
      (Holds I) := by
  refine .bind (saveProfile_keeps hJ userId) fun _ => ?_
  exact .bind (keeps_sameIdentities (UserRepository.updateUserActiveFlag_writes _ _) hJ)
    fun _ => hlink

/-- The user that the identity of a record was linked to. -/
def linkedUser (db : Db) (providerUid : String) : Option UUID :=
  (UserRepository.linksOf db .microsoft providerUid).head?.map AuthUserThirdParty.userId

theorem linkedUser_same {providerUid : String} (h : SameLinks db db') :
    linkedUser db' providerUid = linkedUser db providerUid := by
  unfold linkedUser UserRepository.linksOf
  rw [h]

/-- **What the sync of a record keeps**: a link to the user that the identity has, or to any where
it has none, and an account for an address that has none. -/
structure SyncKeeps (maps : CaseMaps) (t : Int) (I : Db → Prop) : Prop where
  frame : ∀ {db db'}, SameIdentities db db' → I db → I db'
  linked : ∀ tenantId record draw userId, Attempt.Keeps t
    (During (fun db => I db ∧ linkedUser db record.objectId = some userId) I)
    (link tenantId record draw userId) (fun _ => Holds I) (Holds I)
  unlinked : ∀ tenantId record draw userId, Attempt.Keeps t
    (During (fun db => I db ∧ linkedUser db record.objectId = none) I)
    (link tenantId record draw userId) (fun _ => Holds I) (Holds I)
  created : ∀ tenantId record draw email, email ≠ "" → maps.normalize email = email →
    Attempt.Keeps t
      (During (fun db => I db ∧ linkedUser db record.objectId = none ∧
        UserRepository.sensitiveByEmailWithoutProfile maps db email = none) I)
      (createUser maps tenantId record draw email) (fun _ => Holds I) (Holds I)

theorem syncPerson_keeps (hsync : SyncKeeps maps t I) {dryRun : Bool} {email : String}
    (hne : email ≠ "") (hnorm : maps.normalize email = email) :
    Attempt.Keeps t (Holds I) (syncPerson maps tenantId record draw dryRun email)
      (fun _ => Holds I) (Holds I) := by
  have hJ : ∀ x {db db'}, SameIdentities db db' → (I db ∧ linkedUser db record.objectId = x) →
      I db' ∧ linkedUser db' record.objectId = x :=
    fun x _ _ h hdb => ⟨hsync.frame h hdb.1, (linkedUser_same h.2).trans hdb.2⟩
  have hdone : ∀ {P : Db → Prop} (_ : ∀ db, P db → I db) (o : SyncOutcome), Attempt.Keeps t
      (During P I) (Attempt.ret o : AuthAttempt SyncOutcome) (fun _ => Holds I) (Holds I) :=
    fun hP o => .ret fun _ hs => ⟨hP _ hs.1, hs.2⟩
  refine .bind Attempt.Keeps.read fun linked => ?_
  cases linked with
  | some userId =>
    cases dryRun with
    | true => exact hdone (fun _ h => h.1) _
    | false =>
      exact .bind (updateUser_keeps (hJ _) (hsync.linked _ _ _ _)) fun _ => hdone (fun _ h => h) _
  | none =>
    refine .bind Attempt.Keeps.read fun found => ?_
    cases found with
    | some existing =>
      cases dryRun with
      | true => exact hdone (fun _ h => h.1.1) _
      | false =>
        refine .bind (.conseq (linkUser_keeps (hJ none) (hsync.unlinked _ _ _ existing.id))
          (fun s hs => ⟨hs.1.1, hs.2⟩) (fun _ _ h => h) fun _ h => h) fun _ => ?_
        exact hdone (fun _ h => h) _
    | none =>
      cases dryRun with
      | true => exact hdone (fun _ h => h.1.1) _
      | false =>
        refine .bind (.conseq (hsync.created _ _ _ _ hne hnorm)
          (fun s hs => ⟨⟨hs.1.1.1, hs.1.1.2, hs.1.2⟩, hs.2⟩) (fun _ _ h => h) fun _ h => h)
          fun _ => ?_
        exact hdone (fun _ h => h) _

theorem syncOne_keeps (hsync : SyncKeeps maps t I) {dryRun : Bool} :
    Attempt.Keeps t (Holds I) (syncOne maps tenantId record draw dryRun) (fun _ => Holds I)
      (Holds I) := by
  unfold syncOne
  cases hemail : resolveSyncEmail maps record with
  | none => exact .ret fun _ h => h
  | some email =>
    have haddress : email ≠ "" ∧ maps.normalize email = email := by
      unfold resolveSyncEmail at hemail
      dsimp only at hemail
      split at hemail
      · cases hemail
      · rename_i hne
        cases hemail
        exact ⟨hne, maps.normalize_normalize _⟩
    dsimp only
    split
    · exact .ret fun _ h => h
    · split
      · exact .ret fun _ h => h
      · exact syncPerson_keeps hsync haddress.1 haddress.2

/-- **A run of the sync keeps what the sync of a record keeps**, whatever it catches. -/
theorem run_keeps (hsync : SyncKeeps maps t I) (settings : SyncSettings) (dryRun : Bool)
    (listing : DirectoryListing) :
    Attempt.Keeps t (Holds I) (run maps settings dryRun listing) (fun _ => Holds I) (Holds I) := by
  have htenant : Attempt.Keeps t (Holds I) (tenantOf settings) (fun _ => Holds I) (Holds I) := by
    unfold tenantOf
    split
    · exact .raise fun _ h => h
    · split
      · exact .raise fun _ h => h
      · split
        · exact .raise fun _ h => h
        · split
          · exact .raise fun _ h => h
          · exact .ret fun _ h => h
  refine .bind htenant fun tenantId => .bind (.foldEach (fun stats item => ?_) _ _) fun stats => ?_
  · refine .tryCatch (D := Holds I) ?_ fun e => .ret fun _ h => h
    exact .bind (syncOne_keeps hsync) fun _ => .ret fun _ h => h
  · split
    · exact .raise fun _ h => h
    · refine .bind ?_ fun _ => .ret fun _ h => h
      unfold finish
      split
      · exact .rollback fun _ h => h.rollback
      · exact .commitHolds

/-! ### 2.2 Signing in -/

open MicrosoftAuthService

/-- The account that an address signs in, with or without a profile. -/
def resolvedUser (maps : CaseMaps) (db : Db) (email : String) : Option AuthUser :=
  match UserRepository.sensitiveByEmail maps db email with
  | some u => some u
  | none => UserRepository.sensitiveByEmailWithoutProfile maps db email

/-- Nothing but a profile of the user is new. -/
def OnlyProfileOf (userId : UUID) (db₀ db : Db) : Prop :=
  SameIdentities db₀ db ∧ db.users = db₀.users ∧
    ∀ p ∈ db.userProfiles, p ∈ db₀.userProfiles ∨ p.userId = userId

variable {db₀ : Db} {email : String} {claims : MicrosoftClaims}

theorem ensureUserProfile_keeps {userId : UUID} :
    Attempt.Keeps t (During (fun db => db = db₀) I) (ensureUserProfile userId claims)
      (fun _ => During (OnlyProfileOf userId db₀) I) (Holds I) := by
  have hread : ∀ P : Db → Prop, (∀ db, P db → db = db₀) → ∀ s : Moment Db Redis, During P I s →
      During (OnlyProfileOf userId db₀) I s := by
    intro P hP s hs
    have hdb := hP _ hs.1
    exact ⟨hdb ▸ ⟨.refl _, rfl, fun p hp => .inl hp⟩, hs.2⟩
  refine .bind Attempt.Keeps.read fun found => ?_
  split
  · exact .ret fun s hs => hread _ (fun db h => h.1) s hs
  · refine .step fun db _ d hdb hexec => ?_
    rw [← hdb.1]
    have hd := UserRepository.insertUserProfile_exec hexec
    refine ⟨(UserRepository.createUserProfile_writes _ _ _ _).exec SameIdentities.refl
      SameIdentities.trans hexec, by rw [hd], fun p hp => ?_⟩
    rw [hd] at hp
    rcases List.mem_append.mp hp with hp | hp
    · exact .inl hp
    · rw [List.mem_singleton.mp hp]
      exact .inr rfl

/-- The account found once its profile is there is the account that had none. -/
theorem sensitiveByEmail_onlyProfileOf {u v : AuthUser}
    (hnone : UserRepository.sensitiveByEmail maps db₀ email = none)
    (h : OnlyProfileOf u.id db₀ db)
    (hfound : UserRepository.sensitiveByEmail maps db email = some v) : v.id = u.id := by
  unfold UserRepository.sensitiveByEmail at hnone hfound
  split at hfound
  · cases hfound
  · rename_i hne
    rw [if_neg hne, List.find?_eq_none] at hnone
    have hv := List.find?_some hfound
    have hmem := List.mem_of_find?_eq_some hfound
    rw [h.2.1] at hmem
    rw [Bool.and_eq_true, List.any_eq_true] at hv
    obtain ⟨hmatch, p, hp, hpv⟩ := hv
    have hpv : p.userId = v.id := of_decide_eq_true hpv
    rcases h.2.2 p hp with hold | hpu
    · refine absurd ?_ (hnone v hmem)
      rw [Bool.and_eq_true, List.any_eq_true]
      exact ⟨hmatch, p, hold, decide_eq_true hpv⟩
    · exact hpv.symm.trans hpu

/-- **Which account an address signs in.** -/
theorem userOfEmail_keeps (hI : I db₀)
    (hframe : ∀ {db db'}, SameIdentities db db' → I db → I db') :
    Attempt.Keeps t (During (fun db => db = db₀) I) (userOfEmail maps email claims)
      (fun user => During (fun db => SameIdentities db₀ db ∧
        ∃ u, resolvedUser maps db₀ email = some u ∧ u.id = user.id) I) (Holds I) := by
  refine .bind Attempt.Keeps.read fun found => ?_
  cases found with
  | some user =>
    refine .ret fun s hs => ⟨⟨hs.1.1 ▸ .refl _, user, ?_, rfl⟩, hs.2⟩
    have hfound := hs.1.2
    rw [hs.1.1] at hfound
    unfold resolvedUser
    rw [hfound]
  | none =>
    refine .bind Attempt.Keeps.read fun found => ?_
    cases found with
    | none => exact .raise fun s hs => ⟨hs.1.1.1 ▸ hI, hs.2⟩
    | some user =>
      refine .conseq (P := During (fun db => db = db₀ ∧
        (UserRepository.sensitiveByEmail maps db₀ email = none ∧
          resolvedUser maps db₀ email = some user)) I) (.assume fun ⟨hnone, hresolved⟩ => ?_)
        (fun s hs => ?_) (fun _ _ h => h) fun _ h => h
      · refine .bind ensureUserProfile_keeps fun _ => ?_
        refine .bind Attempt.Keeps.read fun found => ?_
        cases found with
        | none => exact .raise fun s hs => ⟨hframe hs.1.1.1 hI, hs.2⟩
        | some v =>
          refine .ret fun s hs => ⟨⟨hs.1.1.1, user, hresolved, ?_⟩, hs.2⟩
          exact (sensitiveByEmail_onlyProfileOf hnone hs.1.1 hs.1.2).symm
      · obtain ⟨⟨⟨hdb, hnone⟩, hfound⟩, hI'⟩ := hs
        rw [hdb] at hnone hfound
        refine ⟨⟨hdb, hnone, ?_⟩, hI'⟩
        unfold resolvedUser
        rw [hnone]
        exact hfound

variable {oidc : MicrosoftOidcProvider} {linkId : UUID} {idToken : String}

/-- **What recording a sign-in keeps**: the link of the identity to the account that the token's
address signs in. -/
def RecordKeeps (maps : CaseMaps) (oidc : MicrosoftOidcProvider) (t : Int) (I : Db → Prop)
    (db₀ : Db) (linkId : UUID) (idToken : String) : Prop :=
  ∀ claims upn u, oidc.verifyIdToken idToken = some claims → truthy claims.upn = some upn →
    resolvedUser maps db₀ (maps.normalize upn) = some u →
    Attempt.Keeps t (During (SameIdentities db₀) I)
      (recordMicrosoftThirdPartyLogin linkId u.id claims) (fun _ => Holds I) (Holds I)

theorem resolveMicrosoftUser_keeps (hI : I db₀)
    (hframe : ∀ {db db'}, SameIdentities db db' → I db → I db')
    (hrecord : RecordKeeps maps oidc t I db₀ linkId idToken) :
    Attempt.Keeps t (During (fun db => db = db₀) I) (resolveMicrosoftUser maps oidc linkId idToken)
      (fun _ => Holds I) (Holds I) := by
  have hraise : ∀ s : Moment Db Redis, During (fun db => db = db₀) I s → Holds I s :=
    fun s hs => ⟨hs.1 ▸ hI, hs.2⟩
  have hclaims : Attempt.Keeps t (During (fun db => db = db₀) I) (verifiedClaims oidc idToken)
      (fun claims => During (fun db => db = db₀ ∧ oidc.verifyIdToken idToken = some claims) I)
      (Holds I) := by
    unfold verifiedClaims
    split
    · exact .raise hraise
    · split
      · exact .raise hraise
      · rename_i claims hc
        exact .ret fun s hs => ⟨⟨hs.1, hc⟩, hs.2⟩
  refine .bind hclaims fun claims => .assume fun hc => ?_
  have hemail : Attempt.Keeps t (During (fun db => db = db₀) I) (emailOfClaims maps claims)
      (fun email => During (fun db => db = db₀ ∧
        ∃ upn, truthy claims.upn = some upn ∧ email = maps.normalize upn) I) (Holds I) := by
    unfold emailOfClaims
    split
    · exact .raise hraise
    · rename_i upn hupn
      exact .ret fun s hs => ⟨⟨hs.1, upn, hupn, rfl⟩, hs.2⟩
  refine .bind hemail fun email => .assume ?_
  rintro ⟨upn, hupn, rfl⟩
  refine .bind (userOfEmail_keeps hI hframe) fun user => .assume ?_
  rintro ⟨u, hu, hid⟩
  refine .bind ?_ fun _ => .ret fun _ h => h
  rw [← hid]
  exact hrecord claims upn u hc hupn hu

variable {settings : AuthSettings} {ctx : RequestContext} {loginDraw : LoginDraw}

theorem microsoftLogin_keeps (hI : I db₀)
    (hframe : ∀ {db db'}, SameIdentities db db' → I db → I db')
    (hrecord : RecordKeeps maps oidc t I db₀ linkId idToken) :
    Attempt.Keeps t (During (fun db => db = db₀) I)
      (microsoftLogin maps oidc settings ctx loginDraw linkId idToken) (fun _ => Holds I)
      (Holds I) := by
  refine .bind (resolveMicrosoftUser_keeps hI hframe hrecord) fun user => ?_
  split
  · exact .raise fun _ h => h
  · exact .scriptHolds hframe (LoginService.completeAdminLogin_writes _ _ _ _)

theorem resolveRequestAppCode_keeps (hJ : ∀ db, J db → I db) :
    Attempt.Keeps t (During J I) (script (RefreshTokenService.resolveRequestAppCode ctx))
      (fun _ => During J I) (Holds I) := by
  intro F s hs
  unfold Attempt.script
  cases F s.steps with
  | some e => exact hs.rollback
  | none =>
    unfold RefreshTokenService.resolveRequestAppCode
    cases hcode : ctx.appCode with
    | none => exact ⟨hJ _ hs.1, hs.2⟩
    | some code =>
      by_cases hempty : code.isEmpty = true
      · simp only [hempty, if_true]
        exact ⟨hJ _ hs.1, hs.2⟩
      · simp only [hempty, Bool.false_eq_true, if_false]
        exact hs

theorem microsoftMemberLogin_keeps (hI : I db₀)
    (hframe : ∀ {db db'}, SameIdentities db db' → I db → I db')
    (hrecord : RecordKeeps maps oidc t I db₀ linkId idToken) {registered : Bool} :
    Attempt.Keeps t (During (fun db => db = db₀) I)
      (microsoftMemberLogin maps oidc settings ctx loginDraw linkId idToken registered)
      (fun _ => Holds I) (Holds I) := by
  unfold microsoftMemberLogin
  split
  · exact .raise fun s hs => ⟨hs.1 ▸ hI, hs.2⟩
  · refine .bind (resolveRequestAppCode_keeps fun db hdb => hdb ▸ hI) fun appCode => ?_
    refine .bind (resolveMicrosoftUser_keeps hI hframe hrecord) fun user => ?_
    split
    · exact .raise fun _ h => h
    · exact .scriptHolds hframe (LoginService.completeMemberLogin_writes _ _ _ _ _)

end Invariant

end NewlifeCore.Auth
