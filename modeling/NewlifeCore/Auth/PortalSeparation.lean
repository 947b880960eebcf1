import NewlifeCore.Auth.SessionRuns
import NewlifeCore.Auth.SessionStatements

/-!
# Admin and member sessions

Both kinds of session store their tokens in one table, and only Redis knows which app a family
belongs to.  `refresh_member_token` asks it; `refresh_token` does not, so what keeps the two apart
is who presents a token to the admin portal (`RefreshFits`).

* The invariant of a run (`Kept`) follows the families from the login that started them: every
  stored token belongs to a started family (`FamiliesIn`), every binding names the app its family
  was started from (`BindingsIn`), and an access token is `Rightful` if its family was started for
  it.
* §2: what the caches hold does not enter into it (`CacheBlind`), which disposes of the fills of
  roles and permissions, and commands that leave bindings alone keep it (`SameSessions`).
* §3 takes the requests one by one.  A login starts its family; a member refresh asks the binding,
  which names the right app (`boundAppCode_keeps`); a rotation adds its successor to the family it
  found (`rotateCommitted_keeps`).  Only the admin refresh signs a token for a portal that nothing
  in the database or Redis ties the family to, which is where `RefreshFits` is used
  (`refreshToken_keeps`).
* §4 is the induction, and `Kept.separated` reads the separation off it, for the audiences of the
  portals are different (`audience_ne`).  §5 has a member's token presented to the admin portal.
-/

namespace NewlifeCore.Auth

open Txn Script

variable {settings : AuthSettings}

/-! ## 1. Separation -/

namespace Portal

variable (s : Portal settings)

/-- **Sessions do not cross**: an access token for the admin portal carries a family that an admin
login started, one for an app a family that a member login from this app started. -/
structure Separated : Prop where
  admin : ∀ text ∈ s.issued, ∀ now p,
    settings.jwt.decode text (settings.audience .admin) now = some p →
      (p.familyId, FamilyStart.admin) ∈ s.started
  user : ∀ text ∈ s.issued, ∀ now p,
    settings.jwt.decode text (settings.audience .user) now = some p →
      ∃ appCode, p.azp = some appCode ∧ (p.familyId, FamilyStart.member appCode) ∈ s.started

/-- **No admin refresh presents a live token of a member's family** for a user whom the admin
portal admits. -/
def RefreshFits : SessionRequest settings → Prop
  | .refresh _ _ token => ∀ r, s.world.db.tokenOf settings.tokens token = some r → r.Live →
      s.clock ≤ r.expiresAt → (∃ appCode, (r.familyId, FamilyStart.member appCode) ∈ s.started) →
        ∀ user, UserRepository.sensitiveById s.world.db r.userId = some user →
          user.email.isSome = true →
            (user.isAdmin && user.verified && user.isActive) = false
  | _ => True

end Portal

/-! ## 2. What requests keep -/

/-- Every stored token belongs to a family that was started. -/
def FamiliesIn (started : List (UUID × FamilyStart)) (db : Db) : Prop :=
  ∀ r ∈ db.refreshTokens, ∃ start, (r.familyId, start) ∈ started

/-- Every binding names the app its family was started from. -/
def BindingsIn (started : List (UUID × FamilyStart)) (redis : Redis) : Prop :=
  ∀ f e, redis (.memberRefreshApp f) = some e →
    ∃ appCode, e.value = .string appCode ∧ (f, FamilyStart.member appCode) ∈ started

/-- An access token of a session that was started for it. -/
def Rightful (started : List (UUID × FamilyStart)) (text : settings.jwt.Text) : Prop :=
  ∃ p, text = settings.jwt.encode p ∧
    (p.aud = settings.audience .admin ∧ (p.familyId, FamilyStart.admin) ∈ started ∨
      p.aud = settings.audience .user ∧
        ∃ appCode, p.azp = some appCode ∧ (p.familyId, FamilyStart.member appCode) ∈ started)

variable {started started' : List (UUID × FamilyStart)} {t : Int} {db db' : Db} {redis : Redis}

theorem BindingsIn.mono (h : BindingsIn started redis) (hsub : started ⊆ started') :
    BindingsIn started' redis :=
  fun f e he => (h f e he).imp fun _ ha => ⟨ha.1, hsub ha.2⟩

theorem Rightful.mono {text : settings.jwt.Text} (h : Rightful started text)
    (hsub : started ⊆ started') : Rightful started' text := by
  obtain ⟨p, htext, ⟨haud, hf⟩ | ⟨haud, a, hazp, hf⟩⟩ := h
  · exact ⟨p, htext, .inl ⟨haud, hsub hf⟩⟩
  · exact ⟨p, htext, .inr ⟨haud, a, hazp, hsub hf⟩⟩

theorem FamiliesIn.map {g : AuthRefreshToken → AuthRefreshToken}
    (h : FamiliesIn started db) (hdb : db'.refreshTokens = db.refreshTokens.map g)
    (hg : ∀ r, (g r).familyId = r.familyId) : FamiliesIn started db' := by
  intro r hr
  rw [hdb] at hr
  obtain ⟨q, hq, rfl⟩ := List.mem_map.mp hr
  rw [hg]
  exact h q hq

theorem revokedFamily_familyId (f : UUID) (now : Int) (reason : String) (r : AuthRefreshToken) :
    (revokedFamily f now reason r).familyId = r.familyId := by
  unfold revokedFamily
  split <;> rfl

theorem replacedIf_familyId (id newId : UUID) (now : Int) (r : AuthRefreshToken) :
    (replacedIf id newId now r).familyId = r.familyId := by
  unfold replacedIf
  split <;> rfl

/-- A rotation adds a token of the family it found. -/
theorem FamiliesIn.rotate {tokens : TokenSettings} {token : String} {draw : TokenDraw}
    {result : RotateResult} (h : FamiliesIn started db)
    (hrot : SerialRotation tokens token draw t db result db') : FamiliesIn started db' := by
  cases hrot with
  | reused rt stored unrevoked unexpired replaced d revokes =>
    exact h.map revokes (revokedFamily_familyId _ _ _)
  | rotated rt row stored live unexpired fresh parent family user new d tokens' =>
    have happ : FamiliesIn started { db with refreshTokens := db.refreshTokens ++ [row] } := by
      intro r hr
      rcases List.mem_append.mp hr with hr | hr
      · exact h r hr
      · rw [List.mem_singleton.mp hr, family]
        exact h rt (List.mem_of_find?_eq_some stored)
    exact happ.map tokens' (replacedIf_familyId _ _ _)

/-- Commands that leave bindings and blacklisted tokens alone. -/
def SameSessions (r r' : Redis) : Prop :=
  (∀ f, r' (.memberRefreshApp f) = r (.memberRefreshApp f)) ∧
    ∀ h, r' (.tokenBlacklist h) = r (.tokenBlacklist h)

theorem SameSessions.put {r : Redis} {key : RedisKey} {e : Option RedisEntry}
    (hf : ∀ f, RedisKey.memberRefreshApp f ≠ key) (hh : ∀ h, RedisKey.tokenBlacklist h ≠ key) :
    SameSessions r (r.put key e) :=
  ⟨fun f => Redis.put_other e (hf f), fun h => Redis.put_other e (hh h)⟩

section Caches

variable {P : Midway Db Redis → Prop} {E : World Db Redis → Prop}

/-- `P` does not look at the caches. -/
def CacheBlind (P : Midway Db Redis → Prop) : Prop :=
  ∀ s redis, P s → SameSessions s.store redis → P { s with store := redis }

theorem tell_role (hP : CacheBlind P) {userId : UUID} {e : Redis → Int → Option RedisEntry} :
    Keeps t P (tell fun r t => r.put (.role userId) (e r t) : AuthScript Unit) (fun _ => P) E :=
  .tell fun s hs => hP s _ hs (.put (fun _ => by simp) fun _ => by simp)

theorem tell_permission (hP : CacheBlind P) {userId : UUID}
    {e : Redis → Int → Option RedisEntry} :
    Keeps t P (tell fun r t => r.put (.permission userId) (e r t) : AuthScript Unit)
      (fun _ => P) E :=
  .tell fun s hs => hP s _ hs (.put (fun _ => by simp) fun _ => by simp)

/-- Reading changes nothing. -/
theorem select_keeps {α : Type} {q : Db → Int → α} :
    Keeps t P (query (Prog.select q) : AuthScript α) (fun _ => P) E :=
  .query (fun s a d hs h => by cases h; exact hs) fun s e _ h => by cases h

theorem now_keeps : Keeps t P (now : AuthScript Int) (fun _ => P) E := .now fun _ h => h

/-- Where nothing is left to say of what is returned. -/
theorem reading_keeps (hE : ∀ m, P m → E ⟨m.db, m.store⟩) :
    Reading fun _ p => Keeps t P p (fun _ => P) E where
  ret _ := .ret fun _ h => h
  raise _ := .raise hE
  bind hp hf := .bind hp hf
  now := now_keeps
  select _ := select_keeps

theorem caching_keeps (hP : CacheBlind P) (hE : ∀ m, P m → E ⟨m.db, m.store⟩) :
    Caching fun _ p => Keeps t P p (fun _ => P) E where
  toReading := reading_keeps hE
  role _ _ := tell_role hP
  permission _ _ := tell_permission hP

end Caches

/-! ## 3. The requests -/

/-- In the middle of a request: the families seen, the committed ones and the bindings. -/
structure Stage (work db store : List (UUID × FamilyStart)) (m : Midway Db Redis) : Prop where
  work : FamiliesIn work m.work
  db : FamiliesIn db m.db
  store : BindingsIn store m.store

/-- Between two requests. -/
structure Settled (started : List (UUID × FamilyStart)) (w : World Db Redis) : Prop where
  families : FamiliesIn started w.db
  bindings : BindingsIn started w.store

theorem Stage.settled {a : List (UUID × FamilyStart)} {m : Midway Db Redis}
    (h : Stage a started started m) : Settled started ⟨m.db, m.store⟩ := ⟨h.db, h.store⟩

theorem BindingsIn.same {r r' : Redis} (h : BindingsIn started r) (hr : SameSessions r r') :
    BindingsIn started r' := by
  intro f e he
  rw [hr.1 f] at he
  exact h f e he

theorem stage_blind (a b c : List (UUID × FamilyStart)) : CacheBlind (Stage a b c) :=
  fun _ _ hs hr => ⟨hs.work, hs.db, hs.store.same hr⟩

/-- The claims of a new access token. -/
theorem createAccessToken_keeps {P : Midway Db Redis → Prop} {E : World Db Redis → Prop}
    (hE : ∀ s, P s → E ⟨s.db, s.store⟩) {user : AuthUser} {f : UUID} {aud : AccessTokenAudType}
    {roles : Option (List String)} {azp : Option String} :
    Keeps t P (JWTProvider.createAccessToken settings user f aud roles azp)
      (fun text m => P m ∧ user.email.isSome = true ∧ ∃ p, text = settings.jwt.encode p ∧
        p.aud = settings.audience aud ∧ p.familyId = f ∧ p.azp = azp) E := by
  refine .bind (Q := fun _ => P) (.now fun _ h => h) fun now => ?_
  cases user.email with
  | none => exact .raise hE
  | some email => exact .ret fun m hm => ⟨hm, rfl, _, rfl, rfl, rfl, rfl⟩

theorem issue_keeps {ctx : RequestContext} {draw : TokenDraw} {userId deviceId f : UUID}
    (start : FamilyStart) {b c : List (UUID × FamilyStart)} {E : World Db Redis → Prop}
    {tokens : TokenSettings} (hE : ∀ s, Stage started b c s → E ⟨s.db, s.store⟩) :
    Keeps t (Stage started b c)
      (query (RefreshTokenProvider.issue tokens ctx draw userId deviceId f) : AuthScript String)
      (fun _ => Stage ((f, start) :: started) b c) E := by
  refine .query (fun m a d hm hd => ?_) fun m e hm _ => hE m hm
  obtain ⟨row, hrows, hf, -, -, -⟩ := exec_issue hd
  refine ⟨fun r hr => ?_, hm.db, hm.store⟩
  rw [hrows] at hr
  rcases List.mem_append.mp hr with hr | hr
  · exact (hm.work r hr).imp fun _ hs => List.mem_cons_of_mem _ hs
  · rw [List.mem_singleton.mp hr, hf]
    exact ⟨start, List.mem_cons_self⟩

theorem updateLastLoginAt_keeps {userId : UUID} {now : Int} {a b c : List (UUID × FamilyStart)}
    {E : World Db Redis → Prop} :
    Keeps t (Stage a b c) (query (UserRepository.updateLastLoginAt userId now) : AuthScript Unit)
      (fun _ => Stage a b c) E := by
  refine .query (fun m u d hm hd => ?_) fun m e hm he => by cases he
  refine ⟨fun r hr => hm.work r ?_, hm.db, hm.store⟩
  rw [exec_updateLastLoginAt hd] at hr
  exact hr

theorem completeAdminLogin_keeps {ctx : RequestContext} {draw : LoginDraw} {user : AuthUser} :
    Keeps t (Stage started started started)
      (LoginService.completeAdminLogin settings ctx draw user)
      (fun a m => Stage ((draw.familyId, .admin) :: started) started started m ∧
        Rightful ((draw.familyId, .admin) :: started) a.token.accessToken) (Settled started) := by
  have hE : ∀ m, Stage started started started m → Settled started ⟨m.db, m.store⟩ :=
    fun _ h => h.settled
  unfold LoginService.completeAdminLogin
  split
  · exact .raise hE
  · have hcaching := caching_keeps (t := t) (stage_blind started started started) hE
    refine .bind (hcaching.initUserRolesCache user _) fun roles => ?_
    refine .bind (hcaching.initUserPermissionsCache user _) fun _ => ?_
    refine .bind (createAccessToken_keeps hE) fun accessToken => ?_
    refine .assume fun ⟨_, p, htext, haud, hfamily, _⟩ => ?_
    refine .bind (issue_keeps .admin hE) fun refreshToken => ?_
    refine .bind now_keeps fun now => ?_
    refine .bind updateLastLoginAt_keeps fun _ => .ret fun m hm => ⟨hm, p, htext, .inl ⟨haud, ?_⟩⟩
    rw [hfamily]
    exact List.mem_cons_self

theorem bind_keeps {f : UUID} {appCode : String} {seconds : Int}
    {a b c : List (UUID × FamilyStart)} {E : World Db Redis → Prop}
    (h : (f, FamilyStart.member appCode) ∈ c) :
    Keeps t (Stage a b c) (MemberRefreshAppBindingProvider.bind seconds f appCode)
      (fun _ => Stage a b c) E := by
  refine .tell fun m hm => ⟨hm.work, hm.db, fun g e he => ?_⟩
  by_cases hg : g = f
  · subst hg
    have he : some ⟨RedisValue.string appCode, some (t + seconds * secondMicros)⟩ = some e :=
      (Redis.put_self _).symm.trans he
    cases he
    exact ⟨appCode, rfl, h⟩
  · refine hm.store g e ((Redis.put_other _ ?_).symm.trans he)
    simpa using hg

theorem completeMemberLogin_keeps {ctx : RequestContext} {draw : LoginDraw} {user : AuthUser}
    {appCode : String} :
    Keeps t (Stage started started started)
      (LoginService.completeMemberLogin settings ctx draw user appCode)
      (fun a m => Stage ((draw.familyId, .member appCode) :: started) started
          ((draw.familyId, .member appCode) :: started) m ∧
        Rightful ((draw.familyId, .member appCode) :: started) a.token.accessToken)
      (Settled started) := by
  have hE : ∀ m, Stage started started started m → Settled started ⟨m.db, m.store⟩ :=
    fun _ h => h.settled
  unfold LoginService.completeMemberLogin
  split
  · exact .raise hE
  · split
    · exact .raise hE
    · refine .bind (createAccessToken_keeps hE) fun accessToken => ?_
      refine .assume fun ⟨_, p, htext, haud, hfamily, hazp⟩ => ?_
      refine .bind (issue_keeps (.member appCode) hE) fun refreshToken => ?_
      refine .bind (Q := fun _ => Stage ((draw.familyId, .member appCode) :: started) started
        ((draw.familyId, .member appCode) :: started)) ?_ fun _ => ?_
      · refine .conseq (bind_keeps (c := (draw.familyId, .member appCode) :: started)
          (E := Settled started) List.mem_cons_self) (fun m hm => ⟨hm.work, hm.db, hm.store.mono ?_⟩)
          (fun _ _ h => h) fun _ h => h
        exact List.subset_cons_self _ _
      · refine .bind now_keeps fun now => ?_
        refine .bind updateLastLoginAt_keeps fun _ => .ret fun m hm => ⟨hm, p, htext, .inr ⟨haud, ?_⟩⟩
        rw [hfamily]
        exact ⟨appCode, hazp, List.mem_cons_self⟩

theorem SameAccounts.sensitiveById (h : SameAccounts db db') (userId : UUID) :
    UserRepository.sensitiveById db' userId = UserRepository.sensitiveById db userId := by
  unfold UserRepository.sensitiveById
  rw [h.1, h.2]

/-- What a rotation found when it began. -/
structure FoundToken (tokens : TokenSettings) (token : String) (t : Int) (w : World Db Redis)
    (db : Db) (data : AuthRefreshToken) where
  found : AuthRefreshToken
  stored : w.db.tokenOf tokens token = some found
  live : found.Live
  unexpired : t ≤ found.expiresAt
  family : data.familyId = found.familyId
  user : data.userId = found.userId
  accounts : SameAccounts w.db db

section Refresh

variable {w : World Db Redis} {ctx : RequestContext} {draw : TokenDraw} {token : String}

theorem rotateCommitted_keeps (hw : Settled started w) :
    Keeps t (fun m => m = ⟨w.db, w.db, w.store⟩) (rotateCommitted settings ctx draw token)
      (fun x m => Stage started started started m ∧
        Nonempty (FoundToken settings.tokens token t w m.work x.2)) (Settled started) := by
  refine .bind (Q := fun result m => m.db = w.db ∧ m.store = w.store ∧
    SerialRotation settings.tokens token draw t w.db result m.work ∧ SameAccounts w.db m.work)
    (.query (fun m result d hm hd => ?_) fun m e hm _ => ?_) fun result => ?_
  · subst hm
    exact ⟨rfl, rfl, exec_rotate hd, exec_rotate_accounts hd⟩
  · subst hm
    exact hw
  · cases result with
    | rotated text data =>
      refine .ret fun m ⟨hdb, hstore, hrot, hacc⟩ => ⟨⟨hw.families.rotate hrot, ?_, ?_⟩, ?_⟩
      · rw [hdb]
        exact hw.families
      · rw [hstore]
        exact hw.bindings
      · cases hrot with
        | rotated rt row stored live unexpired fresh parent family user new d tokens' =>
          exact ⟨rt, stored, live, unexpired, family, user, hacc⟩
    | reused =>
      refine .bind (Q := fun _ m => FamiliesIn started m.db ∧ BindingsIn started m.store)
        (.commitNow fun m ⟨_, hstore, hrot, _⟩ => ⟨hw.families.rotate hrot, ?_⟩) fun _ => ?_
      · exact hstore ▸ hw.bindings
      · exact .raise fun m hm => ⟨hm.1, hm.2⟩

theorem rotateOrUnauthorized_keeps (hw : Settled started w) :
    Keeps t (fun m => m = ⟨w.db, w.db, w.store⟩)
      (RefreshTokenService.rotateOrUnauthorized settings ctx draw token)
      (fun x m => Stage started started started m ∧
        Nonempty (FoundToken settings.tokens token t w m.work x.2)) (Settled started) :=
  .tryCatch (rotateCommitted_keeps hw) fun e => by cases e <;> exact ⟨_, rfl⟩

theorem refreshToken_keeps (hw : Settled started w)
    (hfits : ∀ r, w.db.tokenOf settings.tokens token = some r → r.Live → t ≤ r.expiresAt →
      (∃ appCode, (r.familyId, FamilyStart.member appCode) ∈ started) →
        ∀ user, UserRepository.sensitiveById w.db r.userId = some user →
          user.email.isSome = true → (user.isAdmin && user.verified && user.isActive) = false) :
    Keeps t (fun m => m = ⟨w.db, w.db, w.store⟩)
      (RefreshTokenService.refreshToken settings ctx draw token)
      (fun a m => Stage started started started m ∧ Rightful started a.accessToken)
      (Settled started) := by
  have hE : ∀ m, Stage started started started m → Settled started ⟨m.db, m.store⟩ :=
    fun _ h => h.settled
  refine .bind (rotateOrUnauthorized_keeps hw) fun x => ?_
  refine .bind (Q := fun found m => Stage started started started m ∧
    ∃ rt : FoundToken settings.tokens token t w m.work x.2,
      found = UserRepository.sensitiveById w.db rt.found.userId)
    (.query (fun m found d hm hd => ?_) fun m e hm he => by cases he) fun found => ?_
  · obtain ⟨hstage, ⟨rt⟩⟩ := hm
    cases hd
    refine ⟨hstage, rt, ?_⟩
    rw [← rt.user]
    exact rt.accounts.sensitiveById _
  · cases found with
    | none => exact .raise fun m hm => hE m hm.1
    | some user =>
      dsimp only
      split
      · exact .raise fun m hm => hE m hm.1
      · rename_i hadmitted
        refine .conseq (P := fun m => Stage started started started m ∧
          ∃ rt, w.db.tokenOf settings.tokens token = some rt ∧ rt.Live ∧ t ≤ rt.expiresAt ∧
            x.2.familyId = rt.familyId ∧ UserRepository.sensitiveById w.db rt.userId = some user)
          (.assume fun ⟨rt, stored, live, unexpired, family, hsome⟩ => ?_)
          (fun m ⟨hm, rt, hsome⟩ => ⟨hm, rt.found, rt.stored, rt.live, rt.unexpired, rt.family,
            hsome.symm⟩)
          (fun _ _ h => h) fun _ h => h
        have hcaching := caching_keeps (t := t) (stage_blind started started started) hE
        refine .bind (hcaching.initUserRolesCache user _) fun roles => ?_
        refine .bind (hcaching.initUserPermissionsCache user _) fun _ => ?_
        refine .bind (createAccessToken_keeps hE) fun accessToken => ?_
        refine .assume fun ⟨hemail, p, htext, haud, hfamily, _⟩ => .ret fun m hm => ?_
        refine ⟨hm, p, htext, .inl ⟨haud, ?_⟩⟩
        obtain ⟨start, hstart⟩ := hw.families rt (List.mem_of_find?_eq_some stored)
        rw [hfamily, family]
        cases start with
        | admin => exact hstart
        | member appCode =>
          have hrefused := hfits rt stored live unexpired ⟨appCode, hstart⟩ user hsome hemail
          simp only [Bool.or_eq_true, Bool.not_eq_true', not_or, Bool.not_eq_false] at hadmitted
          simp [hadmitted] at hrefused

/-- The app of a refreshed member session is the one its family was started from. -/
theorem boundAppCode_keeps {appCode : String} {f : UUID} :
    Keeps t (Stage started started started)
      (RefreshTokenService.boundAppCode settings appCode f)
      (fun bound m => Stage started started started m ∧ (f, FamilyStart.member bound) ∈ started)
      (Settled started) := by
  have hE : ∀ m, Stage started started started m → Settled started ⟨m.db, m.store⟩ :=
    fun _ h => h.settled
  refine .bind (Q := fun found m => Stage started started started m ∧
    ∀ bound, found = some bound → (f, FamilyStart.member bound) ∈ started)
    (.ask fun m hm => ⟨hm, fun bound hbound => ?_⟩) fun found => ?_
  · obtain ⟨e, he, hvalue⟩ := Option.bind_eq_some_iff.mp hbound
    obtain ⟨appCode, hstring, hf⟩ := hm.store f e (Option.filter_eq_some_iff.mp he).1
    rw [hstring] at hvalue
    cases hvalue
    exact hf
  · cases found with
    | none => exact .raise fun m hm => hE m hm.1
    | some bound =>
      refine .assume fun hbound => ?_
      dsimp only
      split
      · exact .raise hE
      · split
        · exact .raise hE
        · refine .bind (bind_keeps (hbound bound rfl)) fun _ => .ret fun m hm => ⟨hm, hbound bound rfl⟩

theorem refreshMemberToken_keeps (hw : Settled started w) :
    Keeps t (fun m => m = ⟨w.db, w.db, w.store⟩)
      (RefreshTokenService.refreshMemberToken settings ctx draw token)
      (fun a m => Stage started started started m ∧ Rightful started a.accessToken)
      (Settled started) := by
  have hE : ∀ m, Stage started started started m → Settled started ⟨m.db, m.store⟩ :=
    fun _ h => h.settled
  refine .bind (Q := fun _ m => m = ⟨w.db, w.db, w.store⟩) ?_ fun appCode => ?_
  · have hrefuse : ∀ m : Midway Db Redis, m = ⟨w.db, w.db, w.store⟩ →
        Settled started ⟨m.db, m.store⟩ := by
      rintro m rfl
      exact hw
    unfold RefreshTokenService.resolveRequestAppCode
    split
    · split
      · exact .raise hrefuse
      · exact .ret fun _ h => h
    · exact .raise hrefuse
  · refine .bind (rotateOrUnauthorized_keeps hw) fun x => ?_
    refine .bind (Q := fun bound m => Stage started started started m ∧
      (x.2.familyId, FamilyStart.member bound) ∈ started)
      (.conseq boundAppCode_keeps (fun m hm => hm.1) (fun _ _ h => h) fun _ h => h) fun bound => ?_
    refine .assume fun hbound => ?_
    refine .bind select_keeps fun found => ?_
    cases found with
    | none => exact .raise hE
    | some user =>
      dsimp only
      split
      · exact .raise hE
      · refine .bind (createAccessToken_keeps hE) fun accessToken => ?_
        refine .assume fun ⟨_, p, htext, haud, hfamily, hazp⟩ => .ret fun m hm => ?_
        refine ⟨hm, p, htext, .inr ⟨haud, bound, hazp, ?_⟩⟩
        rw [hfamily]
        exact hbound

end Refresh

section SignOut

variable {token : settings.jwt.Text}

theorem verifyToken_keeps {P : Midway Db Redis → Prop} {E : World Db Redis → Prop}
    {isAdmin : Bool} :
    Keeps t P (JWTProvider.verifyToken settings token isAdmin) (fun _ => P) E :=
  .bind now_keeps fun _ => .ret fun _ h => h

theorem BindingsIn.blacklisted (h : BindingsIn started redis) {tokenHash : String} {seconds : Int} :
    BindingsIn started (redis.setex t (.tokenBlacklist tokenHash) seconds "1") := by
  intro f e he
  have hother : redis.setex t (.tokenBlacklist tokenHash) seconds "1" (.memberRefreshApp f) =
      redis (.memberRefreshApp f) := Redis.put_other _ (by simp)
  exact h f e (hother.symm.trans he)

theorem blacklist_keeps {a b c : List (UUID × FamilyStart)} {E : World Db Redis → Prop}
    (payload : Option AccessTokenPayload) :
    Keeps t (Stage a b c) (RefreshTokenService.blacklist settings token payload)
      (fun _ => Stage a b c) E := by
  cases payload with
  | none => exact .ret fun _ h => h
  | some payload =>
    dsimp only [RefreshTokenService.blacklist]
    split
    · exact .ret fun _ h => h
    · refine .bind ?_ fun _ => .ret fun _ h => h
      refine .bind now_keeps fun now => ?_
      dsimp only
      split
      · exact .bind (.tell fun m hm => ⟨hm.work, hm.db, hm.store.blacklisted⟩)
          fun _ => .ret fun _ h => h
      · exact .ret fun _ h => h

theorem clearBinding_keeps {a b c : List (UUID × FamilyStart)} {E : World Db Redis → Prop}
    (payload : Option AccessTokenPayload) :
    Keeps t (Stage a b c) (RefreshTokenService.clearBinding payload) (fun _ => Stage a b c) E := by
  cases payload with
  | none => exact .ret fun _ h => h
  | some payload =>
    dsimp only [RefreshTokenService.clearBinding]
    split
    · exact .ret fun _ h => h
    · refine .tell fun m hm => ⟨hm.work, hm.db, fun f e he => ?_⟩
      by_cases hf : f = payload.familyId
      · subst hf
        have he : none = some e := (Redis.put_self _).symm.trans he
        cases he
      · exact hm.store f e ((Redis.put_other _ (by simpa using hf)).symm.trans he)

theorem revokeIfGiven_keeps (refreshToken : Option String) :
    Keeps t (Stage started started started) (RefreshTokenService.revokeIfGiven settings refreshToken)
      (fun _ => Stage started started started) (Settled started) := by
  cases refreshToken with
  | none => exact .ret fun _ h => h
  | some token =>
    dsimp only [RefreshTokenService.revokeIfGiven]
    split
    · exact .ret fun _ h => h
    · refine .bind ?_ fun _ => .ret fun _ h => h
      refine .bind (Q := fun _ => Stage started started started)
        (.query (fun m found d hm hd => ⟨?_, hm.db, hm.store⟩) fun m e hm _ => hm.settled)
        fun found => ?_
      · obtain ⟨found', d', hexec, -, hrows⟩ := exec_revokeByToken settings.tokens m.work t
          token
        rw [hexec] at hd
        cases hd
        cases hstored : m.work.tokenOf settings.tokens token with
        | none =>
          rw [hstored] at hrows
          exact hrows ▸ hm.work
        | some rt =>
          rw [hstored] at hrows
          exact hm.work.map hrows (revokedFamily_familyId _ _ _)
      · split
        · exact .bind (.commitNow fun m hm => ⟨hm.work, hm.work, hm.store⟩) fun _ => .ret fun _ h => h
        · exact .ret fun _ h => h

theorem logout_keeps {refreshToken : Option String} :
    Keeps t (Stage started started started)
      (RefreshTokenService.logout settings token refreshToken)
      (fun _ => Stage started started started) (Settled started) :=
  .bind verifyToken_keeps fun payload =>
    .bind (blacklist_keeps payload) fun _ => revokeIfGiven_keeps refreshToken

theorem logoutMember_keeps {refreshToken : Option String} :
    Keeps t (Stage started started started)
      (RefreshTokenService.logoutMember settings token refreshToken)
      (fun _ => Stage started started started) (Settled started) :=
  .bind verifyToken_keeps fun payload => .bind (blacklist_keeps payload) fun _ =>
    .bind (clearBinding_keeps payload) fun _ => revokeIfGiven_keeps refreshToken

end SignOut

/-! ## 4. Runs -/

namespace Portal

/-- What holds between the requests of a run. -/
structure Kept (s : Portal settings) : Prop where
  settled : Settled s.started s.world
  rightful : ∀ text ∈ s.issued, Rightful s.started text

variable {s : Portal settings}

theorem Kept.signedIn (h : s.Kept) {f : UUID} {start : FamilyStart}
    {p : AuthScript (LoginResult settings)} {c : List (UUID × FamilyStart)}
    (hc : c ⊆ (f, start) :: s.started)
    (hp : Keeps s.clock (Stage s.started s.started s.started) p
      (fun a m => Stage ((f, start) :: s.started) s.started c m ∧
        Rightful ((f, start) :: s.started) a.token.accessToken) (Settled s.started)) :
    (s.signedIn f start (p.serve s.world s.clock)).Kept := by
  have hserve := hp.serve (w := s.world) ⟨h.settled.families, h.settled.families, h.settled.bindings⟩
  cases hres : p.serve s.world s.clock with
  | mk r w =>
    rw [hres] at hserve
    cases r with
    | ok a =>
      obtain ⟨db, hstage, hright⟩ := hserve
      refine ⟨⟨hstage.work, hstage.store.mono hc⟩, fun text htext => ?_⟩
      rcases List.mem_cons.mp htext with rfl | htext
      · exact hright
      · exact (h.rightful text htext).mono (List.subset_cons_self _ _)
    | error e => exact ⟨hserve, h.rightful⟩

theorem Kept.refreshed (h : s.Kept) {p : AuthScript (TokenResult settings)}
    (hp : Keeps s.clock (fun m => m = ⟨s.world.db, s.world.db, s.world.store⟩) p
      (fun a m => Stage s.started s.started s.started m ∧ Rightful s.started a.accessToken)
      (Settled s.started)) :
    (s.refreshed (p.serve s.world s.clock)).Kept := by
  have hserve := hp.serve (w := s.world) rfl
  cases hres : p.serve s.world s.clock with
  | mk r w =>
    rw [hres] at hserve
    cases r with
    | ok a =>
      obtain ⟨db, hstage, hright⟩ := hserve
      refine ⟨⟨hstage.work, hstage.store⟩, fun text htext => ?_⟩
      rcases List.mem_cons.mp htext with rfl | htext
      · exact hright
      · exact h.rightful text htext
    | error e => exact ⟨hserve, h.rightful⟩

theorem Kept.served (h : s.Kept) {α : Type} {p : AuthScript α}
    (hp : Keeps s.clock (Stage s.started s.started s.started) p
      (fun _ => Stage s.started s.started s.started) (Settled s.started)) :
    ({ s with world := (p.serve s.world s.clock).2 } : Portal settings).Kept := by
  have hserve := hp.serve (w := s.world) ⟨h.settled.families, h.settled.families, h.settled.bindings⟩
  refine ⟨?_, h.rightful⟩
  cases hres : p.serve s.world s.clock with
  | mk r w =>
    rw [hres] at hserve
    cases r with
    | ok a =>
      obtain ⟨db, hstage⟩ := hserve
      exact ⟨hstage.work, hstage.store⟩
    | error e => exact hserve

theorem Kept.serve (h : s.Kept) (r : SessionRequest settings) (hfits : s.RefreshFits r) :
    (s.serve r).Kept := by
  cases r with
  | adminLogin ctx draw user =>
    exact h.signedIn (List.subset_cons_self _ _) completeAdminLogin_keeps
  | memberLogin ctx draw user appCode =>
    exact h.signedIn (List.Subset.refl _) completeMemberLogin_keeps
  | refresh ctx draw token => exact h.refreshed (refreshToken_keeps h.settled hfits)
  | refreshMember ctx draw token => exact h.refreshed (refreshMemberToken_keeps h.settled)
  | logout accessToken refreshToken => exact h.served logout_keeps
  | logoutMember accessToken refreshToken => exact h.served logoutMember_keeps
  | call ctx isAdmin token =>
    exact h.served ((reading_keeps fun _ hm => hm.settled).authenticate ctx isAdmin token)

theorem run_kept {s₀ s : Portal settings} (h₀ : s₀.Kept) (h : PortalRun RefreshFits s₀ s) :
    s.Kept := by
  induction h with
  | refl => exact h₀
  | tick t _ _ ih => exact ⟨ih.settled, ih.rightful⟩
  | serve r _ hr ih => exact ih.serve r hr

theorem audience_ne (settings : AuthSettings) :
    settings.audience .admin ≠ settings.audience .user := by
  intro h
  have := congrArg String.toList h
  simp [AuthSettings.audience] at this

theorem Kept.separated (h : s.Kept) : s.Separated where
  admin text htext now p hdecode := by
    obtain ⟨q, rfl, hq⟩ := h.rightful text htext
    obtain rfl := settings.jwt.decode_encode hdecode
    have haud := settings.jwt.audience hdecode
    rcases hq with ⟨-, hf⟩ | ⟨hq, -⟩
    · exact hf
    · exact absurd (haud.symm.trans hq) (audience_ne settings)
  user text htext now p hdecode := by
    obtain ⟨q, rfl, hq⟩ := h.rightful text htext
    obtain rfl := settings.jwt.decode_encode hdecode
    have haud := settings.jwt.audience hdecode
    rcases hq with ⟨hq, -⟩ | ⟨-, ha⟩
    · exact absurd (hq.symm.trans haud) (audience_ne settings)
    · exact ha

/-- Nobody has signed in yet. -/
structure Fresh (s : Portal settings) : Prop where
  tokens : s.world.db.refreshTokens = []
  store : s.world.store = Redis.empty
  started : s.started = []
  issued : s.issued = []

theorem Fresh.kept (h : s.Fresh) : s.Kept := by
  refine ⟨⟨fun r hr => ?_, fun f e he => ?_⟩, fun text htext => ?_⟩
  · rw [h.tokens] at hr
    cases hr
  · rw [h.store] at he
    cases he
  · rw [h.issued] at htext
    cases htext

/-- **In every run whose admin refreshes fit, sessions do not cross.** -/
theorem run_separated {s₀ s : Portal settings} (h₀ : s₀.Fresh) (h : PortalRun RefreshFits s₀ s) :
    s.Separated := (run_kept h₀.kept h).separated

end Portal

/-! ## 5. One account in both portals -/

/-- Tokens that are their own payload. -/
def plainCodec : JwtCodec where
  Text := AccessTokenPayload
  encode p := p
  decode p aud now := if p.aud = aud ∧ now < p.exp * secondMicros then some p else none
  decode_encode h := by split at h <;> simp_all
  audience h := by split at h <;> simp_all
  unexpired h := by split at h <;> simp_all

def plainSettings : AuthSettings where
  jwt := plainCodec
  blacklistHash p := p.email
  hashToken token := token
  accessTokenExpireMinutes := 15
  refreshTokenExpireDays := 7
  appName := "newlife"

/-- An administrator who is a member as well. -/
def sampleUser : AuthUser :=
  { id := 1, email := some "pastor@newlife.org", verified := true, isAdmin := true }

def samplePortal : Portal plainSettings where
  world := ⟨{ users := [sampleUser], userProfiles := [{ userId := 1 }] }, Redis.empty⟩
  clock := 0

theorem samplePortal_fresh : samplePortal.Fresh := ⟨rfl, rfl, rfl, rfl⟩

def sampleDraw : LoginDraw := ⟨10, 20, ⟨30, "first"⟩⟩

def memberDraw : LoginDraw := ⟨11, 21, ⟨41, "third"⟩⟩

namespace Portal

/-- The administrator signs in to both portals, and refreshes the member session. -/
def signedInTwice : Portal plainSettings :=
  ((samplePortal.serve (.adminLogin {} sampleDraw sampleUser)).serve
    (.memberLogin {} memberDraw sampleUser "serve")).serve
      (.refreshMember { appCode := some "serve" } ⟨42, "fourth"⟩ "third")

/-- And then the admin session: two sessions of one account, with two access tokens each. -/
theorem run_separated_sample :
    (signedInTwice.serve (.refresh {} ⟨31, "second"⟩ "first")).issued.length = 4 ∧
      Separated (signedInTwice.serve (.refresh {} ⟨31, "second"⟩ "first")) := by
  refine ⟨by decide +kernel, run_separated samplePortal_fresh
    (.serve _ (.serve _ (.serve _ (.serve _ .refl trivial) trivial) trivial) ?_)⟩
  rintro r hr - - ⟨appCode, hstart⟩
  -- the token is one of the admin session's, whose family no member login has started
  have hfound : (signedInTwice.world.db.tokenOf plainSettings.tokens "first").map
      AuthRefreshToken.familyId = some 10 := by decide +kernel
  have hfamily : r.familyId = 10 := by
    rw [hr] at hfound
    exact Option.some.inj hfound
  have hstarted : signedInTwice.started = [(11, .member "serve"), (10, .admin)] := rfl
  rw [hstarted, hfamily] at hstart
  simp at hstart

/-- **An admin refresh turns a member's session into an admin one.** -/
theorem refresh_crosses : ¬ ∀ s : Portal plainSettings,
    PortalRun (fun _ _ => True) samplePortal s → s.Separated := by
  intro h
  have hrun := h _ (.serve (.refresh {} ⟨31, "second"⟩ "first") (.serve
    (.memberLogin {} sampleDraw sampleUser "serve") .refl trivial) trivial)
  have hcrossed : (((samplePortal.serve (.memberLogin {} sampleDraw sampleUser "serve")).serve
      (.refresh {} ⟨31, "second"⟩ "first")).issued.any fun text =>
        (plainCodec.decode text (plainSettings.audience .admin) 0).any fun p =>
          p.familyId = 10) = true := by decide +kernel
  obtain ⟨text, htext, hdecode⟩ := List.any_eq_true.mp hcrossed
  obtain ⟨p, hp, hfamily⟩ := Option.any_eq_true _ _ |>.mp hdecode
  have hstart := hrun.admin text htext 0 p hp
  rw [of_decide_eq_true hfamily] at hstart
  revert hstart
  decide +kernel

end Portal

end NewlifeCore.Auth
