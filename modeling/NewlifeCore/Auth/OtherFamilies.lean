import NewlifeCore.Auth.SessionRuns
import NewlifeCore.Auth.SessionStatements
import NewlifeCore.Txn.Twins

/-!
# Every family but one

Two portals that differ only in the tokens of one family, in the app it is bound to and in what is
blacklisted answer alike whatever does not present a refresh token of that family, and differ in no
more afterwards.
-/

namespace NewlifeCore.Auth

open Txn Script

variable {settings : AuthSettings} {f : UUID} {t : Int} {db db' : Db}

/-! ## 1. Apart from one family -/

/-- Two rows that differ only if they belong to the family. -/
structure RowApart (f : UUID) (r r' : AuthRefreshToken) : Prop where
  id : r'.id = r.id
  tokenHash : r'.tokenHash = r.tokenHash
  familyId : r'.familyId = r.familyId
  same : r.familyId ≠ f → r' = r

/-- Everything but the tokens of the family is the same. -/
structure DbApart (f : UUID) (db db' : Db) : Prop where
  rows : List.Forall₂ (RowApart f) db.refreshTokens db'.refreshTokens
  rest : db' = { db with refreshTokens := db'.refreshTokens }

/-- The bindings of the other families are the same. -/
def StoreApart (f : UUID) (r r' : Redis) : Prop :=
  ∀ g, g ≠ f → r' (.memberRefreshApp g) = r (.memberRefreshApp g)

/-- **Two worlds that differ only in the family.** -/
structure Apart (f : UUID) (w w' : World Db Redis) : Prop where
  db : DbApart f w.db w'.db
  store : StoreApart f w.store w'.store

/-- In the middle of a request. -/
structure Beside (f : UUID) (m m' : Midway Db Redis) : Prop where
  work : DbApart f m.work m'.work
  db : DbApart f m.db m'.db
  store : StoreApart f m.store m'.store

theorem Beside.apart {m m' : Midway Db Redis} (h : Beside f m m') :
    Apart f ⟨m.db, m.store⟩ ⟨m'.db, m'.store⟩ := ⟨h.db, h.store⟩

theorem RowApart.refl (r : AuthRefreshToken) : RowApart f r r := ⟨rfl, rfl, rfl, fun _ => rfl⟩

theorem RowApart.map {r r' : AuthRefreshToken} {g : AuthRefreshToken → AuthRefreshToken}
    (hid : ∀ r, (g r).id = r.id) (hhash : ∀ r, (g r).tokenHash = r.tokenHash)
    (hfamily : ∀ r, (g r).familyId = r.familyId) (h : RowApart f r r') :
    RowApart f (g r) (g r') where
  id := (hid r').trans (h.id.trans (hid r).symm)
  tokenHash := (hhash r').trans (h.tokenHash.trans (hhash r).symm)
  familyId := (hfamily r').trans (h.familyId.trans (hfamily r).symm)
  same hne := congrArg g (h.same fun heq => hne ((hfamily r).trans heq))

/-- A row of another family is found alike by its hash. -/
theorem find?_apart {l l' : List AuthRefreshToken} {h : String}
    (hrows : List.Forall₂ (RowApart f) l l')
    (hother : ∀ r, (l.find? fun r => r.tokenHash = h) = some r → r.familyId ≠ f) :
    (l'.find? fun r => r.tokenHash = h) = l.find? fun r => r.tokenHash = h := by
  induction hrows with
  | nil => rfl
  | @cons r r' l l' hr _ ih =>
    rw [List.find?_cons] at hother ⊢
    rw [List.find?_cons, hr.tokenHash]
    split
    · rename_i heq
      rw [heq] at hother
      rw [hr.same (hother r rfl)]
    · rename_i heq
      rw [heq] at hother
      exact ih hother

theorem any_apart {l l' : List AuthRefreshToken} (id : UUID) (h : String)
    (hrows : List.Forall₂ (RowApart f) l l') :
    (l'.any fun r => r.id = id || r.tokenHash = h) =
      l.any fun r => r.id = id || r.tokenHash = h := by
  induction hrows with
  | nil => rfl
  | cons hr _ ih => rw [List.any_cons, List.any_cons, ih, hr.id, hr.tokenHash]

namespace DbApart

theorem refl (db : Db) : DbApart f db db := ⟨List.forall₂_same.mpr fun r _ => .refl r, rfl⟩

/-- A query that does not look at the tokens. -/
theorem select {α : Type} {q : Db → α} (h : DbApart f db db')
    (hq : ∀ db l, q { db with refreshTokens := l } = q db) : q db' = q db := by
  rw [h.rest, hq]

theorem set {l l' : List AuthRefreshToken} (h : DbApart f db db')
    (hrows : List.Forall₂ (RowApart f) l l') :
    DbApart f { db with refreshTokens := l } { db' with refreshTokens := l' } := by
  refine ⟨hrows, ?_⟩
  rw [h.rest]

theorem append (h : DbApart f db db') (row : AuthRefreshToken) :
    DbApart f { db with refreshTokens := db.refreshTokens ++ [row] }
      { db' with refreshTokens := db'.refreshTokens ++ [row] } :=
  h.set (List.rel_append h.rows (.cons (.refl row) .nil))

/-- An update of the tokens that keeps what they are found by. -/
theorem update {p : AuthRefreshToken → Bool} {g : AuthRefreshToken → AuthRefreshToken}
    {hf : ∀ r, refreshTokenTable.name (g r) = refreshTokenTable.name r} (h : DbApart f db db')
    (hid : ∀ r, (g r).id = r.id) (hhash : ∀ r, (g r).tokenHash = r.tokenHash)
    (hfamily : ∀ r, (g r).familyId = r.familyId)
    (hp : ∀ r r', RowApart f r r' → p r' = p r) :
    DbApart f ((refreshTokenTable.update p g hf db).apply db)
      ((refreshTokenTable.update p g hf db').apply db') := by
  have hset : ∀ db : Db, (refreshTokenTable.update p g hf db).apply db =
      { db with refreshTokens := db.refreshTokens.map fun r => if p r then g r else r } :=
    fun db => Table.update_self refreshTokenTable
  rw [hset, hset]
  refine h.set (List.rel_map (fun r r' hr => ?_) h.rows)
  rw [hp r r' hr]
  split
  · exact hr.map hid hhash hfamily
  · exact hr

/-- A token of another family is found alike. -/
theorem tokenOf {tokens : TokenSettings} {token : String} (h : DbApart f db db')
    (hother : ∀ rt, db.tokenOf tokens token = some rt → rt.familyId ≠ f) :
    db'.tokenOf tokens token = db.tokenOf tokens token := find?_apart h.rows hother

end DbApart

theorem StoreApart.put {r r' : Redis} {key : RedisKey} {e e' : Option RedisEntry}
    (h : StoreApart f r r') (hkey : e' = e ∨ ∀ g, RedisKey.memberRefreshApp g ≠ key) :
    StoreApart f (r.put key e) (r'.put key e') := by
  intro g hg
  unfold Redis.put
  split
  · rename_i hsame
    exact hkey.elim id fun hne => absurd hsame (hne g)
  · exact h g hg

/-! ## 2. What goes on alike -/

/-- **From wherever two worlds differ only in the family, the request goes on alike.** -/
def Alongside {α : Type} (t : Int) (f : UUID) (p : AuthScript α) : Prop :=
  ∀ m m', Beside f m m' → Twin t p m m' (fun _ => Beside f) (Apart f)

namespace Alongside

variable {α β : Type}

theorem ret (a : α) : Alongside t f (ret a : AuthScript α) := fun _ _ h => h

theorem raise (e : AuthError) : Alongside t f (raise e : AuthScript α) := fun _ _ h => h.apart

theorem bind {p : AuthScript α} {k : α → AuthScript β} (hp : Alongside t f p)
    (hk : ∀ a, Alongside t f (k a)) : Alongside t f (p.bind k) :=
  fun m m' h => Twin.bind (hp m m' h) fun a d d' hd => hk a d d' hd

theorem now : Alongside t f Script.now := fun _ _ h => h

theorem select {q : Db → Int → α} (hq : ∀ db l, q { db with refreshTokens := l } t = q db t) :
    Alongside t f (Script.query (Prog.select q)) :=
  fun _ _ h => Twin.select (h.work.select (q := fun db => q db t) hq) h

/-- What is written does not depend on what was there. -/
theorem put {key : RedisKey} {e : Int → Option RedisEntry} :
    Alongside t f (tell fun r t => r.put key (e t)) :=
  fun _ _ h => ⟨rfl, h.work, h.db, h.store.put (.inl rfl)⟩

theorem cache {key : RedisKey} {e : Redis → Int → Option RedisEntry}
    (hkey : ∀ g, RedisKey.memberRefreshApp g ≠ key) :
    Alongside t f (tell fun r t => r.put key (e r t)) :=
  fun _ _ h => ⟨rfl, h.work, h.db, h.store.put (.inr hkey)⟩

theorem query {p : AuthProg α} {k : α → AuthProg β} (hp : Alongside t f (Script.query p))
    (hk : ∀ a, Alongside t f (Script.query (k a))) : Alongside t f (Script.query (p.bind k)) :=
  fun m m' h => Twin.query (hp m m' h) fun a d d' hd => hk a d d' hd

theorem execute {stmt : Db → Except AuthError (Change Db RowName)}
    (hstmt : ∀ db db', DbApart f db db' → ∃ c c', stmt db = .ok c ∧ stmt db' = .ok c' ∧
      DbApart f (c.apply db) (c'.apply db')) :
    Alongside t f (Script.query (Prog.execute stmt)) := by
  intro m m' h
  obtain ⟨c, c', hc, hc', happly⟩ := hstmt m.work m'.work h.work
  exact Twin.execute hc hc' ⟨happly, h.db, h.store⟩

theorem insertRefreshToken (row : AuthRefreshToken) :
    Alongside t f (Script.query (RefreshTokenProvider.insertRefreshToken row)) := by
  intro m m' h
  have htaken := any_apart row.id row.tokenHash h.work.rows
  cases hany : m.work.refreshTokens.any fun r => r.id = row.id || r.tokenHash = row.tokenHash with
  | true =>
    rw [hany] at htaken
    exact Twin.refused (if_pos hany) (if_pos htaken) h.apart
  | false =>
    rw [hany] at htaken
    exact Twin.execute (if_neg (by simp [hany])) (if_neg (by simp [htaken]))
      ⟨h.work.append row, h.db, h.store⟩

theorem issue {tokens : TokenSettings} {ctx : RequestContext} {draw : TokenDraw}
    {userId deviceId familyId : UUID} :
    Alongside t f
      (Script.query (RefreshTokenProvider.issue tokens ctx draw userId deviceId familyId)) := by
  refine query (p := Prog.now) now fun n => query (execute fun db db' h => ?_) fun _ =>
    query (insertRefreshToken _) fun _ => ret _
  refine ⟨_, _, rfl, rfl, ?_⟩
  rw [h.rest]
  exact ⟨h.rows, rfl⟩

theorem updateLastLoginAt (userId : UUID) (n : Int) :
    Alongside t f (Script.query (UserRepository.updateLastLoginAt userId n)) := by
  refine execute fun db db' h => ⟨_, _, rfl, rfl, ?_⟩
  rw [h.rest]
  exact ⟨h.rows, rfl⟩

theorem getAppCode {familyId : UUID} (hother : familyId ≠ f) :
    Alongside t f (MemberRefreshAppBindingProvider.getAppCode familyId) := by
  intro m m' h
  have hget : m'.store.get t (.memberRefreshApp familyId) =
      m.store.get t (.memberRefreshApp familyId) := by
    unfold Redis.get Redis.entry
    rw [h.store familyId hother]
  exact ⟨hget, h⟩

theorem caching : Caching fun _ p => Alongside t f p where
  ret := ret
  raise := raise
  bind := bind
  now := now
  select hq := select fun db l => hq db l t
  role _ _ := cache (by simp)
  permission _ _ := cache (by simp)

theorem signingIn : SigningIn (fun _ => True) fun _ p => Alongside t f p where
  toReading := caching.toReading
  issue _ _ _ _ _ _ := issue
  updateLastLoginAt := updateLastLoginAt
  bindApp _ _ _ := put

theorem revokeFamily (familyId : UUID) (reason : String) :
    Alongside t f (Script.query (RefreshTokenProvider.revokeFamily familyId reason)) := by
  refine query (p := Prog.now) now fun n => execute fun db db' h => ⟨_, _, rfl, rfl, ?_⟩
  refine h.update (fun _ => rfl) (fun _ => rfl) (fun _ => rfl) fun r r' hr => ?_
  rw [hr.familyId]

theorem touchDevice {ctx : RequestContext} {deviceId : UUID} {n : Int} :
    Alongside t f (Script.query (RefreshTokenProvider.touchDevice ctx deviceId n)) := by
  refine execute fun db db' h => ⟨_, _, rfl, rfl, ?_⟩
  rw [h.rest]
  exact ⟨h.rows, rfl⟩

theorem markReplaced {id newId : UUID} {n : Int} :
    Alongside t f (Script.query (RefreshTokenProvider.markReplaced id newId n)) := by
  refine execute fun db db' h => ⟨_, _, rfl, rfl, ?_⟩
  refine h.update (fun _ => rfl) (fun _ => rfl) (fun _ => rfl) fun r r' hr => ?_
  rw [hr.id]

end Alongside

/-! ## 3. Refresh tokens of the other families -/

/-- The token is of another family, or of none. -/
def OfOthers (tokens : TokenSettings) (f : UUID) (token : String) (db : Db) : Prop :=
  ∀ rt, db.tokenOf tokens token = some rt → rt.familyId ≠ f

section Others

variable {ctx : RequestContext} {draw : TokenDraw} {token : String} {m m' : Midway Db Redis}

/-- What a rotation ends in: a successor belongs to the family of its predecessor. -/
def RotatedBeside (f : UUID) (result : RotateResult) (m m' : Midway Db Redis) : Prop :=
  Beside f m m' ∧ ∀ text data, result = .rotated text data → data.familyId ≠ f

theorem rotateRow_apart {tokens : TokenSettings} {rt : AuthRefreshToken} {now : Int}
    (hrt : rt.familyId ≠ f) (h : Beside f m m') :
    Twin t (Script.query (RefreshTokenProvider.rotateRow tokens ctx draw rt now)) m m'
      (RotatedBeside f) (Apart f) := by
  unfold RefreshTokenProvider.rotateRow
  split
  · exact .query (Alongside.revokeFamily _ _ _ _ h) fun _ _ _ hd => ⟨hd, by simp⟩
  · refine .query (Alongside.touchDevice _ _ h) fun _ _ _ hd => ?_
    refine .query (Alongside.insertRefreshToken _ _ _ hd) fun _ _ _ hd => ?_
    refine .query (Alongside.markReplaced _ _ hd) fun _ _ _ hd => ⟨hd, ?_⟩
    rintro text data hdata
    cases hdata
    exact hrt

theorem rotate_apart {tokens : TokenSettings} (h : Beside f m m')
    (hother : OfOthers tokens f token m.work) :
    Twin t (Script.query (RefreshTokenProvider.rotate tokens ctx draw token)) m m'
      (RotatedBeside f) (Apart f) := by
  refine .query (p := Prog.now) (Q := fun _ d d' => d = m ∧ d' = m') ⟨rfl, rfl⟩ fun now d d' hd => ?_
  obtain ⟨rfl, rfl⟩ := hd
  refine .query (Q := fun found e e' => found = d.work.tokenOf tokens token ∧ e = d ∧ e' = d')
    (.select (h.work.tokenOf hother) ⟨rfl, rfl, rfl⟩) fun found e e' he => ?_
  obtain ⟨rfl, rfl, rfl⟩ := he
  cases hfound : e.work.tokenOf tokens token with
  | none => exact h.apart
  | some rt =>
    dsimp only
    split
    · exact h.apart
    · exact rotateRow_apart (hother rt hfound) h

theorem rotateOrUnauthorized_apart (h : Beside f m m')
    (hother : OfOthers settings.tokens f token m.work) :
    Twin t (RefreshTokenService.rotateOrUnauthorized settings ctx draw token) m m'
      (fun x d d' => Beside f d d' ∧ x.2.familyId ≠ f) (Apart f) := by
  refine .tryCatch (fun e => by cases e <;> exact ⟨_, rfl⟩)
    (.bind (rotate_apart h hother) fun result d d' hd => ?_)
  cases result with
  | rotated text data => exact ⟨hd.1, hd.2 text data rfl⟩
  | reused => exact ⟨hd.1.work, hd.1.store⟩

theorem refreshToken_apart (h : Beside f m m') (hother : OfOthers settings.tokens f token m.work) :
    Twin t (RefreshTokenService.refreshToken settings ctx draw token) m m' (fun _ => Beside f)
      (Apart f) := by
  refine .bind (rotateOrUnauthorized_apart h hother) fun x d d' hd => ?_
  refine Alongside.bind (.select fun _ _ => rfl) (fun found => ?_) d d' hd.1
  cases found with
  | none => exact .raise _
  | some user =>
    dsimp only
    split
    · exact .raise _
    · exact .bind (Alongside.caching.initUserRolesCache user _) fun _ =>
        .bind (Alongside.caching.initUserPermissionsCache user _) fun _ =>
          .bind (Alongside.caching.createAccessToken _ _ _ _ _) fun _ => .ret _

theorem refreshMemberToken_apart (h : Beside f m m')
    (hother : OfOthers settings.tokens f token m.work) :
    Twin t (RefreshTokenService.refreshMemberToken settings ctx draw token) m m'
      (fun _ => Beside f) (Apart f) := by
  refine .bind (Q := fun _ d d' => d = m ∧ d' = m') ?_ fun appCode d d' hd => ?_
  · unfold RefreshTokenService.resolveRequestAppCode
    split
    · split
      · exact h.apart
      · exact ⟨rfl, rfl⟩
    · exact h.apart
  · obtain ⟨rfl, rfl⟩ := hd
    refine .bind (rotateOrUnauthorized_apart h hother) fun x d d' hd => ?_
    refine Alongside.bind (Alongside.signingIn.boundAppCode (.getAppCode hd.2) _)
      (fun bound => ?_) d d' hd.1
    refine .bind (.select fun _ _ => rfl) fun found => ?_
    cases found with
    | none => exact .raise _
    | some user =>
      dsimp only
      split
      · exact .raise _
      · exact .bind (Alongside.caching.createAccessToken _ _ _ _ _) fun _ => .ret _

theorem revokeByToken_apart {tokens : TokenSettings} (h : Beside f m m')
    (hother : OfOthers tokens f token m.work) :
    Twin t (Script.query (RefreshTokenProvider.revokeByToken tokens token true)) m m'
      (fun _ => Beside f) (Apart f) := by
  refine .query (Q := fun _ => Beside f) (.select (h.work.tokenOf hother) h) fun found d d' hd => ?_
  cases found with
  | none => exact hd
  | some rt => exact .query (Alongside.revokeFamily _ _ _ _ hd) fun _ _ _ hd => hd

/-- What the steps before the revocation leave alone. -/
def StillBeside (f : UUID) (db : Db) (m m' : Midway Db Redis) : Prop := Beside f m m' ∧ m.work = db

theorem blacklist_apart {accessToken : settings.jwt.Text} {payload : Option AccessTokenPayload}
    (h : StillBeside f db m m') :
    Twin t (RefreshTokenService.blacklist settings accessToken payload) m m'
      (fun _ => StillBeside f db) (Apart f) := by
  cases payload with
  | none => exact h
  | some payload =>
    dsimp only [RefreshTokenService.blacklist]
    split
    · exact h
    · refine .bind (Q := fun _ => StillBeside f db)
        (.bind (Q := fun _ => StillBeside f db) h fun now d d' hd => ?_) fun _ _ _ hd => hd
      dsimp only
      split
      · exact ⟨rfl, ⟨hd.1.work, hd.1.db, hd.1.store.put (.inl rfl)⟩, hd.2⟩
      · exact hd

theorem clearBinding_apart {payload : Option AccessTokenPayload} (h : StillBeside f db m m') :
    Twin t (RefreshTokenService.clearBinding payload) m m' (fun _ => StillBeside f db)
      (Apart f) := by
  cases payload with
  | none => exact h
  | some payload =>
    dsimp only [RefreshTokenService.clearBinding]
    split
    · exact h
    · exact ⟨rfl, ⟨h.1.work, h.1.db, h.1.store.put (.inl rfl)⟩, h.2⟩

theorem revokeIfGiven_apart {refreshToken : Option String} (h : StillBeside f db m m')
    (hother : ∀ token, refreshToken = some token → OfOthers settings.tokens f token db) :
    Twin t (RefreshTokenService.revokeIfGiven settings refreshToken) m m' (fun _ => Beside f)
      (Apart f) := by
  obtain ⟨h, rfl⟩ := h
  cases refreshToken with
  | none => exact h
  | some token =>
    dsimp only [RefreshTokenService.revokeIfGiven]
    split
    · exact h
    · refine .bind (Q := fun _ => Beside f) ?_ fun _ _ _ hd => hd
      refine .bind (revokeByToken_apart h (hother token rfl)) fun found d d' hd => ?_
      split
      · exact ⟨hd.work, hd.work, hd.store⟩
      · exact hd

theorem logout_apart {accessToken : settings.jwt.Text} {refreshToken : Option String}
    (h : Beside f m m')
    (hother : ∀ token, refreshToken = some token → OfOthers settings.tokens f token m.work) :
    Twin t (RefreshTokenService.logout settings accessToken refreshToken) m m'
      (fun _ => Beside f) (Apart f) :=
  .bind (Q := fun _ => StillBeside f m.work) ⟨h, rfl⟩ fun _ _ _ hd =>
    .bind (blacklist_apart hd) fun _ _ _ hd => revokeIfGiven_apart hd hother

theorem logoutMember_apart {accessToken : settings.jwt.Text} {refreshToken : Option String}
    (h : Beside f m m')
    (hother : ∀ token, refreshToken = some token → OfOthers settings.tokens f token m.work) :
    Twin t (RefreshTokenService.logoutMember settings accessToken refreshToken) m m'
      (fun _ => Beside f) (Apart f) :=
  .bind (Q := fun _ => StillBeside f m.work) ⟨h, rfl⟩ fun _ _ _ hd =>
    .bind (blacklist_apart hd) fun _ _ _ hd =>
      .bind (clearBinding_apart hd) fun _ _ _ hd => revokeIfGiven_apart hd hother

end Others

/-! ## 4. Runs -/

/-- What a request is answered with. -/
inductive SessionAnswer (settings : AuthSettings)
  | login (r : Except AuthError (LoginResult settings))
  | token (r : Except AuthError (TokenResult settings))
  | done (r : Except AuthError Unit)
  | context (r : Except AuthError UserContext)

/-- The refresh token that a request presents. -/
def SessionRequest.presented : SessionRequest settings → Option String
  | .refresh _ _ token => some token
  | .refreshMember _ _ token => some token
  | .logout _ token => token
  | .logoutMember _ token => token
  | _ => none

namespace Portal

variable (s : Portal settings)

def answer : SessionRequest settings → SessionAnswer settings
  | .adminLogin ctx draw user => .login
      ((LoginService.completeAdminLogin settings ctx draw user).serve s.world s.clock).1
  | .memberLogin ctx draw user appCode => .login
      ((LoginService.completeMemberLogin settings ctx draw user appCode).serve s.world s.clock).1
  | .refresh ctx draw token => .token
      ((RefreshTokenService.refreshToken settings ctx draw token).serve s.world s.clock).1
  | .refreshMember ctx draw token => .token
      ((RefreshTokenService.refreshMemberToken settings ctx draw token).serve s.world s.clock).1
  | .logout accessToken refreshToken => .done
      ((RefreshTokenService.logout settings accessToken refreshToken).serve s.world s.clock).1
  | .logoutMember accessToken refreshToken => .done
      ((RefreshTokenService.logoutMember settings accessToken refreshToken).serve
        s.world s.clock).1
  | .call ctx isAdmin token => .context
      ((AuthMiddleware.authenticate settings ctx isAdmin token).serve s.world s.clock).1

/-- **The answers to a schedule of requests**, each at its instant. -/
def answers (s : Portal settings) : List (Int × SessionRequest settings) →
    List (SessionAnswer settings)
  | [] => []
  | (t, r) :: rest => answer { s with clock := t } r :: answers (serve { s with clock := t } r) rest

/-- The request presents no refresh token of the family. -/
def Elsewhere (f : UUID) (r : SessionRequest settings) : Prop :=
  ∀ token, r.presented = some token → OfOthers settings.tokens f token s.world.db

/-- So does every request of the schedule. -/
def AllElsewhere (f : UUID) (s : Portal settings) : List (Int × SessionRequest settings) → Prop
  | [] => True
  | (t, r) :: rest => s.Elsewhere f r ∧ AllElsewhere f (serve { s with clock := t } r) rest

/-- **One request elsewhere**: the same answer, and nothing else that differs. -/
theorem serve_apart (s s' : Portal settings) (h : Apart f s.world s'.world)
    (hclock : s'.clock = s.clock) (r : SessionRequest settings) (hother : s.Elsewhere f r) :
    s'.answer r = s.answer r ∧ Apart f (s.serve r).world (s'.serve r).world := by
  obtain ⟨w', clock', started', issued'⟩ := s'
  obtain rfl : clock' = s.clock := hclock
  have hbeside : Beside f ⟨s.world.db, s.world.db, s.world.store⟩ ⟨w'.db, w'.db, w'.store⟩ :=
    ⟨h.db, h.db, h.store⟩
  have hserve : ∀ {α : Type} {p : AuthScript α},
      Twin s.clock p ⟨s.world.db, s.world.db, s.world.store⟩ ⟨w'.db, w'.db, w'.store⟩
        (fun _ => Beside f) (Apart f) →
      (p.serve w' s.clock).1 = (p.serve s.world s.clock).1 ∧
        Apart f (p.serve s.world s.clock).2 (p.serve w' s.clock).2 :=
    fun hp => Twin.serve (hp.conseq fun _ _ _ hd => ⟨hd.work, hd.store⟩)
  cases r with
  | adminLogin ctx draw user =>
    obtain ⟨hanswer, hleft⟩ := hserve (p := LoginService.completeAdminLogin settings ctx draw user)
      (Alongside.signingIn.completeAdminLogin Alongside.caching trivial user _ _ hbeside)
    refine ⟨congrArg SessionAnswer.login hanswer, ?_⟩
    rw [serve, serve, signedIn_world, signedIn_world]
    exact hleft
  | memberLogin ctx draw user appCode =>
    obtain ⟨hanswer, hleft⟩ := hserve
      (p := LoginService.completeMemberLogin settings ctx draw user appCode)
      (Alongside.signingIn.completeMemberLogin trivial user appCode _ _ hbeside)
    refine ⟨congrArg SessionAnswer.login hanswer, ?_⟩
    rw [serve, serve, signedIn_world, signedIn_world]
    exact hleft
  | refresh ctx draw token =>
    obtain ⟨hanswer, hleft⟩ := hserve (p := RefreshTokenService.refreshToken settings ctx draw token)
      (refreshToken_apart hbeside (hother token rfl))
    refine ⟨congrArg SessionAnswer.token hanswer, ?_⟩
    rw [serve, serve, refreshed_world, refreshed_world]
    exact hleft
  | refreshMember ctx draw token =>
    obtain ⟨hanswer, hleft⟩ := hserve
      (p := RefreshTokenService.refreshMemberToken settings ctx draw token)
      (refreshMemberToken_apart hbeside (hother token rfl))
    refine ⟨congrArg SessionAnswer.token hanswer, ?_⟩
    rw [serve, serve, refreshed_world, refreshed_world]
    exact hleft
  | logout accessToken refreshToken =>
    obtain ⟨hanswer, hleft⟩ := hserve
      (p := RefreshTokenService.logout settings accessToken refreshToken)
      (logout_apart hbeside hother)
    exact ⟨congrArg SessionAnswer.done hanswer, hleft⟩
  | logoutMember accessToken refreshToken =>
    obtain ⟨hanswer, hleft⟩ := hserve
      (p := RefreshTokenService.logoutMember settings accessToken refreshToken)
      (logoutMember_apart hbeside hother)
    exact ⟨congrArg SessionAnswer.done hanswer, hleft⟩
  | call ctx isAdmin token =>
    obtain ⟨hanswer, hleft⟩ := hserve
      (p := AuthMiddleware.authenticate settings ctx isAdmin token)
      (Alongside.caching.authenticate ctx isAdmin token _ _ hbeside)
    exact ⟨congrArg SessionAnswer.context hanswer, hleft⟩

/-- **A whole schedule elsewhere is answered the same.** -/
theorem answers_apart (schedule : List (Int × SessionRequest settings)) :
    ∀ {s s' : Portal settings}, Apart f s.world s'.world → s.AllElsewhere f schedule →
      s'.answers schedule = s.answers schedule := by
  induction schedule with
  | nil => exact fun _ _ => rfl
  | cons step rest ih =>
    intro s s' h hother
    obtain ⟨t, r⟩ := step
    obtain ⟨hanswer, hleft⟩ :=
      serve_apart { s with clock := t } { s' with clock := t } h rfl r hother.1
    rw [answers, answers, hanswer, ih hleft hother.2]

end Portal

end NewlifeCore.Auth
