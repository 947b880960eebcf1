import NewlifeCore.Auth.OtherFamilies
import NewlifeCore.Auth.PermissionChecker
import NewlifeCore.Txn.Conduct

/-!
# Revoked families

What becomes of a family of refresh tokens when any number of sign-ins, refreshes, sign-outs and
calls are served side by side.  Between two statements of a request anybody may have committed, so
the argument is about what each request may write, whatever it reads meanwhile.

* Every statement of every request is an `Effect`: it keeps the stored tokens, with their families
  and their revocations, adds tokens of some families only, and leaves the accounts as they are
  (`SessionRequest.careful`).  Which families a refresh adds to depends on the live token that it
  finds; that is the premise `Presents`.
* A request that presents no token of a family therefore writes none of it (`KeepsOut`), and so in
  every state of every run (`Tidy`).
* Once a family is revoked and nobody half-way through a request writes to it (`Out`), it stays so:
  whoever reads one of its tokens from then on finds it revoked (`Out.step`).
* And a refresh that begins then is refused (`refreshToken_refuses`).
-/

namespace NewlifeCore.Auth

open Txn Script

variable {settings : AuthSettings} {f : UUID} {db db' : Db} {F F' : UUID → Prop}

/-! ## 1. What a request may write -/

/-- The account behind the claims may use the portal. -/
def Admitted (db : Db) (isAdmin : Bool) (p : AccessTokenPayload) : Prop :=
  ∃ user, UserRepository.sensitiveById db p.sub = some user ∧ user.email.isSome = true ∧
    user.isActive = true ∧ user.verified = true ∧ (isAdmin = true → user.isAdmin = true)

/-- A stored token later on. -/
structure TokenStays (r r' : AuthRefreshToken) : Prop where
  id : r'.id = r.id
  tokenHash : r'.tokenHash = r.tokenHash
  familyId : r'.familyId = r.familyId
  revoked : r.revokedAt.isSome = true → r'.revokedAt.isSome = true

theorem TokenStays.refl (r : AuthRefreshToken) : TokenStays r r := ⟨rfl, rfl, rfl, fun h => h⟩

theorem TokenStays.trans {r₁ r₂ r₃ : AuthRefreshToken} (h₁ : TokenStays r₁ r₂)
    (h₂ : TokenStays r₂ r₃) : TokenStays r₁ r₃ where
  id := h₂.id.trans h₁.id
  tokenHash := h₂.tokenHash.trans h₁.tokenHash
  familyId := h₂.familyId.trans h₁.familyId
  revoked h := h₂.revoked (h₁.revoked h)

/-- **What a request may make of the database**: the tokens stay, those added are of the families
`F`, and whoever was admitted to a portal still is. -/
structure Effect (F : UUID → Prop) (h : Db → Db) : Prop where
  tokens : ∀ db, ∃ g ext, (h db).refreshTokens = db.refreshTokens.map g ++ ext ∧
    (∀ r, TokenStays r (g r)) ∧ ∀ r ∈ ext, F r.familyId
  admits : ∀ db isAdmin p, Admitted (h db) isAdmin p ↔ Admitted db isAdmin p

namespace Effect

variable {h h' : Db → Db} {tokens : TokenSettings} {token : String} {r : AuthRefreshToken}

/-- Of the tables that it is about, the statement rewrites none. -/
theorem of_elsewhere (htokens : ∀ db, (h db).refreshTokens = db.refreshTokens)
    (hadmits : ∀ db isAdmin p, Admitted (h db) isAdmin p ↔ Admitted db isAdmin p) : Effect F h where
  tokens db := ⟨fun r => r, [], by rw [htokens, List.map_id', List.append_nil],
    fun r => .refl r, fun _ hr => absurd hr List.not_mem_nil⟩
  admits := hadmits

theorem id : Effect F id := .of_elsewhere (fun _ => rfl) fun _ _ _ => .rfl

theorem comp (hh : Effect F h) (hh' : Effect F h') : Effect F (h ∘ h') where
  tokens db := by
    obtain ⟨g', ext', heq', hstays', hext'⟩ := hh'.tokens db
    obtain ⟨g, ext, heq, hstays, hext⟩ := hh.tokens (h' db)
    refine ⟨g ∘ g', ext'.map g ++ ext, ?_, fun r => (hstays' r).trans (hstays _), fun r hr => ?_⟩
    · show (h (h' db)).refreshTokens = _
      rw [heq, heq', List.map_append, List.map_map, List.append_assoc]
    · rcases List.mem_append.mp hr with hr | hr
      · obtain ⟨q, hq, rfl⟩ := List.mem_map.mp hr
        rw [(hstays q).familyId]
        exact hext' q hq
      · exact hext r hr
  admits db isAdmin p := (hh.admits _ _ _).trans (hh'.admits _ _ _)

/-- An UPDATE of the tokens, wherever it was issued. -/
theorem update {p : AuthRefreshToken → Bool} {g : AuthRefreshToken → AuthRefreshToken}
    {hf : ∀ r, refreshTokenTable.name (g r) = refreshTokenTable.name r} {view : Db}
    (hg : ∀ r, TokenStays r (g r)) : Effect F (refreshTokenTable.update p g hf view).apply where
  tokens db := by
    refine ⟨_, [], (List.append_nil _).symm, fun r => ?_, fun _ hr => absurd hr List.not_mem_nil⟩
    split
    · exact hg r
    · exact .refl r
  admits _ _ _ := .rfl

theorem insert {row : AuthRefreshToken} (hrow : F row.familyId) :
    Effect F (refreshTokenTable.insert [row]).apply where
  tokens db := by
    refine ⟨fun r => r, [row], ?_, fun r => .refl r, fun r hr => ?_⟩
    · rw [List.map_id']
      rfl
    · rw [List.mem_singleton.mp hr]
      exact hrow
  admits _ _ _ := .rfl

/-- What was found by its hash is found again. -/
theorem tokenOf (hh : Effect F h) (hr : db.tokenOf tokens token = some r) :
    ∃ r', (h db).tokenOf tokens token = some r' ∧ TokenStays r r' := by
  obtain ⟨g, ext, heq, hstays, -⟩ := hh.tokens db
  refine ⟨g r, ?_, hstays r⟩
  have hsame : db.refreshTokens.find? ((fun r => r.tokenHash = tokens.hashToken token) ∘ g) =
      some r := by
    rw [← hr, Db.tokenOf]
    refine List.find?_congr fun q _ => ?_
    simp [(hstays q).tokenHash]
  rw [Db.tokenOf, heq, List.find?_append, List.find?_map, hsame]
  rfl

/-- What is found was found before, or is of a family that was added to. -/
theorem tokenOf_back (hh : Effect F h) {r' : AuthRefreshToken}
    (hr : (h db).tokenOf tokens token = some r') :
    (∃ r, db.tokenOf tokens token = some r ∧ TokenStays r r') ∨ F r'.familyId := by
  cases hold : db.tokenOf tokens token with
  | some r =>
    obtain ⟨r₁, hr₁, hstays⟩ := hh.tokenOf hold
    rw [Option.some.inj (hr.symm.trans hr₁)]
    exact .inl ⟨r, rfl, hstays⟩
  | none =>
    obtain ⟨g, ext, heq, hstays, hext⟩ := hh.tokens db
    have hmem : r' ∈ db.refreshTokens.map g ++ ext := heq ▸ List.mem_of_find?_eq_some hr
    rcases List.mem_append.mp hmem with hmem | hmem
    · obtain ⟨q, hq, rfl⟩ := List.mem_map.mp hmem
      have hhash := List.find?_some hr
      rw [(hstays q).tokenHash] at hhash
      exact absurd hhash (List.find?_eq_none.mp hold q hq)
    · exact .inr (hext r' hmem)

/-- A family that nothing is added to stays revoked. -/
theorem familyRevoked (hh : Effect (· ≠ f) h) (hdb : db.FamilyRevoked f) :
    (h db).FamilyRevoked f := by
  obtain ⟨g, ext, heq, hstays, hext⟩ := hh.tokens db
  obtain ⟨r, hr, hrf⟩ := hdb.started
  refine ⟨⟨g r, ?_, (hstays r).familyId.trans hrf⟩, fun q hq hqf => ?_⟩
  · rw [heq]
    exact List.mem_append_left _ (List.mem_map_of_mem hr)
  · rw [heq] at hq
    rcases List.mem_append.mp hq with hq | hq
    · obtain ⟨p, hp, rfl⟩ := List.mem_map.mp hq
      exact (hstays p).revoked (hdb.revoked p hp ((hstays p).familyId.symm.trans hqf))
    · exact absurd hqf (hext q hq)

end Effect

/-- A recorded login changes nobody's standing. -/
theorem admitted_map {g : AuthUser → AuthUser} (hg : ∀ u, ∃ x, g u = { u with lastLoginAt := x })
    (isAdmin : Bool) (p : AccessTokenPayload) :
    Admitted { db with users := db.users.map g } isAdmin p ↔ Admitted db isAdmin p := by
  have hkept : ∀ u, (g u).id = u.id ∧ (g u).isDeleted = u.isDeleted ∧ (g u).email = u.email ∧
      (g u).isActive = u.isActive ∧ (g u).verified = u.verified ∧ (g u).isAdmin = u.isAdmin := by
    intro u
    obtain ⟨x, hx⟩ := hg u
    rw [hx]
    exact ⟨rfl, rfl, rfl, rfl, rfl, rfl⟩
  have hfound : UserRepository.sensitiveById { db with users := db.users.map g } p.sub =
      (UserRepository.sensitiveById db p.sub).map g := by
    unfold UserRepository.sensitiveById
    rw [List.find?_map]
    refine congrArg (Option.map g) (List.find?_congr fun u _ => ?_)
    obtain ⟨hid, hdeleted, -⟩ := hkept u
    simp [hid, hdeleted]
  unfold Admitted
  rw [hfound]
  constructor
  · rintro ⟨u', hu', h⟩
    obtain ⟨u, hu, rfl⟩ := Option.map_eq_some_iff.mp hu'
    obtain ⟨-, -, hemail, hactive, hverified, hadmin⟩ := hkept u
    rw [hemail, hactive, hverified, hadmin] at h
    exact ⟨u, hu, h⟩
  · rintro ⟨u, hu, h⟩
    obtain ⟨-, -, hemail, hactive, hverified, hadmin⟩ := hkept u
    refine ⟨g u, by rw [hu]; rfl, ?_⟩
    rw [hemail, hactive, hverified, hadmin]
    exact h

/-! ## 2. What each request writes -/

/-- The live token that is presented, if there is one, is of the families `F`. -/
def Presents (settings : AuthSettings) (F : UUID → Prop) (presented : Option String) (db : Db)
    (_ : Int) : Prop :=
  ∀ token ∈ presented, ∀ rt ∈ db.tokenOf settings.tokens token, rt.revokedAt = none → F rt.familyId

/-- While what it sees meets `I`, the request has effects on the families `F` only. -/
def Careful {α : Type} (I : Db → Int → Prop) (F : UUID → Prop) (p : AuthScript α) : Prop :=
  Conducts I (Effect F) (fun _ => True) p

namespace Careful

variable {α β : Type} {I : Db → Int → Prop}

theorem ret (a : α) : Careful I F (ret a : AuthScript α) := trivial

theorem raise (e : AuthError) : Careful I F (raise e : AuthScript α) := trivial

theorem bind {p : AuthScript α} {k : α → AuthScript β} (hp : Careful I F p)
    (hk : ∀ a, Careful I F (k a)) : Careful I F (p.bind k) := Conducts.bind (fun a _ => hk a) hp

theorem now : Careful I F Script.now := fun _ _ _ => trivial

theorem tell (c : Redis → Int → Redis) : Careful I F (tell c : AuthScript Unit) := fun _ _ => trivial

theorem ask (c : Redis → Int → α) : Careful I F (ask c : AuthScript α) := fun _ _ => trivial

theorem commitNow : Careful I F (commitNow : AuthScript Unit) := trivial

theorem select {q : Db → Int → α} : Careful I F (Script.query (Prog.select q)) :=
  fun _ _ _ => trivial

theorem execute {stmt : Db → Except AuthError (Change Db RowName)}
    (hstmt : ∀ db c, stmt db = .ok c → Effect F c.apply) :
    Careful I F (Script.query (Prog.execute stmt)) := fun db _ c _ hc => ⟨hstmt db c hc, trivial⟩

theorem queries {p : AuthProg α} {k : α → AuthProg β} (hp : Careful I F (Script.query p))
    (hk : ∀ a, Careful I F (Script.query (k a))) : Careful I F (Script.query (p.bind k)) :=
  Conducts.query_bind hp fun a _ => hk a

theorem updateLastLoginAt (userId : UUID) (now : Int) :
    Careful I F (Script.query (UserRepository.updateLastLoginAt userId now)) := by
  refine execute fun view c hc => ?_
  cases hc
  refine .of_elsewhere (fun _ => rfl) fun db isAdmin p => admitted_map (fun u => ?_) isAdmin p
  split
  · exact ⟨some now, rfl⟩
  · exact ⟨u.lastLoginAt, rfl⟩

theorem insertRefreshToken {row : AuthRefreshToken} (hrow : F row.familyId) :
    Careful I F (Script.query (RefreshTokenProvider.insertRefreshToken row)) := by
  refine execute fun db c hc => ?_
  obtain ⟨rfl, -⟩ := insert_fresh hc
  exact .insert hrow

/-- A login starts a family of `F`. -/
theorem issue {tokens : TokenSettings} {ctx : RequestContext} {draw : TokenDraw}
    {userId deviceId familyId : UUID} (hnew : F familyId) :
    Careful I F
      (Script.query (RefreshTokenProvider.issue tokens ctx draw userId deviceId familyId)) := by
  refine queries (p := Prog.now) now fun n => queries (execute fun db c hc => ?_) fun _ =>
    queries (insertRefreshToken hnew) fun _ => ret _
  cases hc
  exact .of_elsewhere (fun _ => rfl) fun _ _ _ => .rfl

theorem revokeFamily (familyId : UUID) (reason : String) :
    Careful I F (Script.query (RefreshTokenProvider.revokeFamily familyId reason)) := by
  refine queries (p := Prog.now) now fun n => execute fun db c hc => ?_
  cases hc
  exact .update fun r => ⟨rfl, rfl, rfl, fun _ => rfl⟩

/-- A successor is of the family of its predecessor. -/
theorem rotateRow {tokens : TokenSettings} {ctx : RequestContext} {draw : TokenDraw}
    {rt : AuthRefreshToken} {now : Int} (hrt : F rt.familyId) :
    Careful I F (Script.query (RefreshTokenProvider.rotateRow tokens ctx draw rt now)) := by
  unfold RefreshTokenProvider.rotateRow
  split
  · exact queries (revokeFamily _ _) fun _ => ret _
  · refine queries (execute fun db c hc => ?_) fun _ => queries (insertRefreshToken hrt) fun _ =>
      queries (execute fun db c hc => ?_) fun _ => ret _
    · cases hc
      exact .of_elsewhere (fun _ => rfl) fun _ _ _ => .rfl
    · cases hc
      exact .update fun r => ⟨rfl, rfl, rfl, fun h => h⟩

theorem rotateOrUnauthorized {ctx : RequestContext} {draw : TokenDraw} {token : String}
    (hI : ∀ db t, I db t → Presents settings F (some token) db t) :
    Careful I F (RefreshTokenService.rotateOrUnauthorized settings ctx draw token) := by
  refine Conducts.tryCatch (fun e => by cases e <;> trivial) (bind ?_ fun result => ?_)
  · refine queries (p := Prog.now) now fun n => ?_
    refine Conducts.query_bind (Q := fun found => ∀ rt, found = some rt → rt.revokedAt = none →
      F rt.familyId) (fun db t hdb rt hrt => hI db t hdb token rfl rt hrt) fun found hfound => ?_
    cases found with
    | none => exact raise _
    | some rt =>
      dsimp only
      split
      · exact raise _
      · rename_i hgood
        rw [Bool.or_eq_true, not_or] at hgood
        exact rotateRow (hfound rt rfl (by simpa using hgood.1))
  · cases result with
    | rotated text data => exact ret _
    | reused => exact bind commitNow fun _ => raise _

theorem revokeCommitted (token : String) : Careful I F (revokeCommitted settings token) := by
  refine bind (queries select fun found => ?_) fun found => ?_
  · cases found with
    | none => exact ret _
    | some rt => exact queries (revokeFamily _ _) fun _ => ret _
  · split
    · exact bind commitNow fun _ => ret _
    · exact ret _

theorem caching : Caching fun _ p => Careful I F p where
  ret := ret
  raise := raise
  bind := bind
  now := now
  select _ := select
  role _ _ := tell _
  permission _ _ := tell _

theorem signingIn : SigningIn F fun _ p => Careful I F p where
  toReading := caching.toReading
  issue hnew _ _ _ _ _ := issue hnew
  updateLastLoginAt := updateLastLoginAt
  bindApp _ _ _ := tell _

end Careful

/-- The family that a login starts. -/
def SessionRequest.starts : SessionRequest settings → Option UUID
  | .adminLogin _ draw _ => some draw.familyId
  | .memberLogin _ draw _ _ => some draw.familyId
  | _ => none

/-- **Every request has effects only**: on the family that it starts, or on that of the live token
that it presents. -/
theorem SessionRequest.careful (r : SessionRequest settings)
    (hstarts : ∀ g ∈ r.starts, F g) : Careful (Presents settings F r.presented) F r.body := by
  have hread : Caching fun _ p => Careful (Presents settings F r.presented) F p := Careful.caching
  have hsign : SigningIn F fun _ p => Careful (Presents settings F r.presented) F p :=
    Careful.signingIn
  have hverify : ∀ token isAdmin, Careful (Presents settings F r.presented) F
      (JWTProvider.verifyToken settings token isAdmin) := hread.verifyToken
  cases r with
  | adminLogin ctx draw user =>
    exact .bind (hsign.completeAdminLogin hread (hstarts _ rfl) user) fun _ => .ret _
  | memberLogin ctx draw user appCode =>
    exact .bind (hsign.completeMemberLogin (hstarts _ rfl) user appCode) fun _ => .ret _
  | refresh ctx draw token =>
    exact .bind (hread.refreshToken (.rotateOrUnauthorized fun _ _ h => h)) fun _ => .ret _
  | refreshMember ctx draw token =>
    exact .bind (hsign.refreshMemberToken (fun _ => .ask _)
      (.rotateOrUnauthorized fun _ _ h => h)) fun _ => .ret _
  | logout accessToken refreshToken =>
    exact .bind (hverify _ _) fun payload => .bind (hread.blacklist (fun _ _ => .tell _) _ payload)
      fun _ => hread.revokeIfGiven .revokeCommitted refreshToken
  | logoutMember accessToken refreshToken =>
    exact .bind (hverify _ _) fun payload => .bind (hread.blacklist (fun _ _ => .tell _) _ payload)
      fun _ => .bind (hread.clearBinding (fun _ => .tell _) payload) fun _ =>
        hread.revokeIfGiven .revokeCommitted refreshToken
  | call ctx isAdmin token => exact .bind (hread.authenticate ctx isAdmin token) fun _ => .ret _

/-! ## 3. Side by side -/

abbrev PortalDesk (settings : AuthSettings) :=
  Desk Db RowName Redis AuthError Unit (SessionRequest settings)

abbrev PortalVisit (settings : AuthSettings) :=
  Visit Db RowName Redis AuthError Unit (SessionRequest settings)

/-- Any database and store, and nobody there. -/
def PortalDesk.opening (settings : AuthSettings) (w : World Db Redis) (clock : Int) :
    PortalDesk settings where
  db := w.db
  store := w.store
  clock := clock

/-- The request presents no token of the family and does not start it. -/
def SessionRequest.Spares (f : UUID) (db : Db) (r : SessionRequest settings) : Prop :=
  (∀ token ∈ r.presented, ∀ rt ∈ db.tokenOf settings.tokens token, rt.familyId ≠ f) ∧
    r.starts ≠ some f

/-- **Nothing that the request writes is of the family**, so far and from here on. -/
structure KeepsOut (f : UUID) (v : PortalVisit settings) : Prop where
  script : Careful (Presents settings (· ≠ f) v.label.presented) (· ≠ f) v.script
  own : Effect (· ≠ f) v.own

section Sides

variable {s s' : PortalDesk settings} {n : Nat} {v : PortalVisit settings}
  {r : SessionRequest settings} {a : Turn (SessionRequest settings)}

theorem SessionRequest.Spares.before {h : Db → Db} (hh : Effect F h) (hr : r.Spares f (h db)) :
    r.Spares f db := by
  refine ⟨fun token htoken rt hrt => ?_, hr.2⟩
  obtain ⟨rt', hrt', hstays⟩ := hh.tokenOf hrt
  rw [← hstays.familyId]
  exact hr.1 token htoken rt' hrt'

theorem SessionRequest.Spares.presents {h : Db → Db} (hh : Effect (· ≠ f) h) (hr : r.Spares f db)
    (t : Int) : Presents settings (· ≠ f) r.presented (h db) t := by
  intro token htoken rt hrt _
  rcases hh.tokenOf_back hrt with ⟨rt₀, hrt₀, hstays⟩ | hne
  · rw [hstays.familyId]
    exact hr.1 token htoken rt₀ hrt₀
  · exact hne

theorem KeepsOut.begun (hstarts : r.starts ≠ some f) :
    KeepsOut f ({ label := r, script := r.body } : PortalVisit settings) where
  script := r.careful fun _ hg hgf => hstarts (hgf ▸ hg)
  own := .id

theorem KeepsOut.act (h : KeepsOut f v)
    (hI : Presents settings (· ≠ f) v.label.presented (v.own s.db) s.clock)
    (hact : s.act n v = some s') :
    ∃ v', s.ActedTo s' n v' ∧ v'.label = v.label ∧ KeepsOut f v' ∧
      (s'.db = s.db ∨ s'.db = v.own s.db) := by
  obtain ⟨v', hto, hlabel, hscript, hown, hdb⟩ :=
    Conducts.act h.script h.own .id (fun _ _ => .comp) hI hact
  exact ⟨v', hto, hlabel, ⟨hlabel ▸ hscript, hown⟩, hdb⟩

/-- **In every state of every run**: whoever presents no token of a family writes none of it. -/
structure Tidy (s : PortalDesk settings) : Prop where
  vacant : s.Vacant
  careful : ∀ n v, s.visits n = some v →
    Careful (fun _ _ => True) (fun _ => True) v.script ∧ Effect (fun _ => True) v.own
  spares : ∀ f n v, s.visits n = some v → v.label.Spares f s.db → KeepsOut f v

theorem tidy_opening (w : World Db Redis) (clock : Int) :
    Tidy (PortalDesk.opening settings w clock) where
  vacant _ _ := rfl
  careful _ _ h := by cases h
  spares _ _ _ h := by cases h

/-- What is committed in a step. -/
theorem Tidy.commits (h : Tidy s) (hstep : s.step SessionRequest.body a = some s') :
    ∃ g, Effect (fun _ => True) g ∧ s'.db = g s.db := by
  rcases Desk.step_cases hstep with ⟨t, -, -, rfl⟩ | ⟨l, -, rfl⟩ | ⟨n, v, -, hv, hact⟩ |
    ⟨n, v, -, hv, hend⟩
  · exact ⟨_, .id, rfl⟩
  · exact ⟨_, .id, rfl⟩
  · obtain ⟨hscript, hown⟩ := h.careful n v hv
    obtain ⟨-, -, -, -, -, hdb | hdb⟩ :=
      Conducts.act hscript hown .id (fun _ _ => .comp) trivial hact
    · exact ⟨_, .id, hdb⟩
    · exact ⟨_, hown, hdb⟩
  · rcases Desk.finish_cases hend with ⟨g, -, rfl⟩ | ⟨e, -, rfl⟩
    · exact ⟨_, (h.careful n v hv).2, rfl⟩
    · exact ⟨_, .id, rfl⟩

theorem Tidy.step (h : Tidy s) (hstep : s.step SessionRequest.body a = some s') : Tidy s' := by
  obtain ⟨g, hg, hdb⟩ := h.commits hstep
  have hbefore : ∀ f (r : SessionRequest settings), r.Spares f s'.db → r.Spares f s.db :=
    fun f r hr => .before hg (hdb ▸ hr)
  refine ⟨h.vacant.step hstep, fun m w hw => ?_, fun f m w hw hspares => ?_⟩
  all_goals
    rcases Desk.step_cases hstep with ⟨t, -, -, rfl⟩ | ⟨l, -, rfl⟩ | ⟨n, v, -, hv, hact⟩ |
      ⟨n, v, -, hv, hend⟩
  · exact h.careful m w hw
  · rcases Desk.put_cases hw with ⟨-, hw⟩ | ⟨-, hw⟩
    · obtain rfl := Option.some.inj hw
      exact ⟨Conducts.mono (fun _ _ _ _ _ _ _ _ => trivial) (fun _ h => h)
        (l.careful fun _ _ => trivial), .id⟩
    · exact h.careful m w hw
  · obtain ⟨hscript, hown⟩ := h.careful n v hv
    obtain ⟨v', hto, -, hscript', hown', -⟩ :=
      Conducts.act hscript hown .id (fun _ _ => .comp) trivial hact
    rcases hto.cases hw with ⟨-, rfl⟩ | ⟨-, hw⟩
    · exact ⟨hscript', hown'⟩
    · exact h.careful m w hw
  · exact h.careful m w (Desk.finish_other hend hw).2
  · exact h.spares f m w hw (hbefore f _ hspares)
  · rcases Desk.put_cases hw with ⟨-, hw⟩ | ⟨-, hw⟩
    · obtain rfl := Option.some.inj hw
      exact .begun hspares.2
    · exact h.spares f m w hw (hbefore f _ hspares)
  · obtain ⟨v₁, hlabel₁, hto₁⟩ := Desk.act_label hact
    rcases hto₁.cases hw with ⟨rfl, rfl⟩ | ⟨-, hw⟩
    · have hv' := hbefore f _ hspares
      rw [hlabel₁] at hv'
      have hkeeps := h.spares f m v hv hv'
      obtain ⟨v₂, hto₂, -, hkeeps', -⟩ := hkeeps.act (hv'.presents hkeeps.own _) hact
      rw [Option.some.inj (hto₂.self.symm.trans hw)] at hkeeps'
      exact hkeeps'
    · exact h.spares f m w hw (hbefore f _ hspares)
  · exact h.spares f m w (Desk.finish_other hend hw).2 (hbefore f _ hspares)

theorem Tidy.run {ok : PortalDesk settings → Turn (SessionRequest settings) → Prop} (h : Tidy s)
    (hrun : Desk.Run SessionRequest.body ok s s') : Tidy s' :=
  hrun.invariant h fun _ _ _ hs _ hstep => hs.step hstep

/-! ## 4. A revoked family stays revoked -/

/-- **The family is out**: it is revoked, and nobody half-way through a request writes to it. -/
structure Out (f : UUID) (s : PortalDesk settings) : Prop where
  revoked : s.db.FamilyRevoked f
  visits : ∀ n v, s.visits n = some v → KeepsOut f v

/-- A login starts a family that is not stored yet. -/
def StartsNew (s : PortalDesk settings) (a : Turn (SessionRequest settings)) : Prop :=
  ∀ r, a = .begin r → ∀ rt ∈ s.db.refreshTokens, r.starts ≠ some rt.familyId

theorem Db.FamilyRevoked.presents (h : db.FamilyRevoked f) (presented : Option String) (t : Int) :
    Presents settings (· ≠ f) presented db t := by
  intro token _ rt hrt hlive hf
  have hsome := h.revoked rt (List.mem_of_find?_eq_some hrt) hf
  rw [hlive] at hsome
  cases hsome

/-- What is committed in a step. -/
theorem Out.commits (h : Out f s) (hstep : s.step SessionRequest.body a = some s') :
    ∃ g, Effect (· ≠ f) g ∧ s'.db = g s.db := by
  rcases Desk.step_cases hstep with ⟨t, -, -, rfl⟩ | ⟨l, -, rfl⟩ | ⟨n, v, -, hv, hact⟩ |
    ⟨n, v, -, hv, hend⟩
  · exact ⟨_, .id, rfl⟩
  · exact ⟨_, .id, rfl⟩
  · have hkeeps := h.visits n v hv
    obtain ⟨-, -, -, -, hdb | hdb⟩ :=
      hkeeps.act ((hkeeps.own.familyRevoked h.revoked).presents _ _) hact
    · exact ⟨_, .id, hdb⟩
    · exact ⟨_, hkeeps.own, hdb⟩
  · rcases Desk.finish_cases hend with ⟨g, -, rfl⟩ | ⟨e, -, rfl⟩
    · exact ⟨_, (h.visits n v hv).own, rfl⟩
    · exact ⟨_, .id, rfl⟩

/-- **Nothing brings a revoked family back.** -/
theorem Out.step (h : Out f s) (hnew : StartsNew s a)
    (hstep : s.step SessionRequest.body a = some s') : Out f s' := by
  obtain ⟨g, hg, hdb⟩ := h.commits hstep
  refine ⟨hdb ▸ hg.familyRevoked h.revoked, fun m w hw => ?_⟩
  rcases Desk.step_cases hstep with ⟨t, -, -, rfl⟩ | ⟨l, rfl, rfl⟩ | ⟨n, v, -, hv, hact⟩ |
    ⟨n, v, -, hv, hend⟩
  · exact h.visits m w hw
  · rcases Desk.put_cases hw with ⟨-, hw⟩ | ⟨-, hw⟩
    · obtain rfl := Option.some.inj hw
      obtain ⟨rt, hrt, rfl⟩ := h.revoked.started
      exact .begun (hnew l rfl rt hrt)
    · exact h.visits m w hw
  · have hkeeps := h.visits n v hv
    obtain ⟨v', hto, -, hkeeps', -⟩ :=
      hkeeps.act ((hkeeps.own.familyRevoked h.revoked).presents _ _) hact
    rcases hto.cases hw with ⟨-, rfl⟩ | ⟨-, hw⟩
    · exact hkeeps'
    · exact h.visits m w hw
  · exact h.visits m w (Desk.finish_other hend hw).2

theorem Out.run (h : Out f s) (hrun : Desk.Run SessionRequest.body StartsNew s s') : Out f s' :=
  hrun.invariant h fun _ _ _ hs hnew hstep => hs.step hnew hstep

/-- All that is committed in a run. -/
theorem Out.committed (h : Out f s) (hrun : Desk.Run SessionRequest.body StartsNew s s') :
    ∃ g, Effect (· ≠ f) g ∧ s'.db = g s.db := by
  induction hrun with
  | refl => exact ⟨_, .id, rfl⟩
  | tail a hrun _ hstep ih =>
    obtain ⟨g, hg, hdb⟩ := ih
    obtain ⟨g', hg', hdb'⟩ := (h.run hrun).commits hstep
    exact ⟨g' ∘ g, hg'.comp hg, by rw [hdb', hdb]; rfl⟩

end Sides

/-! ## 5. No refresh of a revoked family -/

section Refused

variable {ctx : RequestContext} {draw : TokenDraw} {token : String}

/-- The token is stored, and revoked. -/
def StoredRevoked (settings : AuthSettings) (token : String) (db : Db) (_ : Int) : Prop :=
  ∃ rt, db.tokenOf settings.tokens token = some rt ∧ rt.revokedAt.isSome = true

/-- Whatever is committed beside it, the request does not return. -/
def Refuses {α : Type} (I : Db → Int → Prop) (p : AuthScript α) : Prop :=
  Conducts I (fun _ => True) (fun _ => False) p

theorem rotateOrUnauthorized_refuses : Refuses (StoredRevoked settings token)
    (RefreshTokenService.rotateOrUnauthorized settings ctx draw token) := by
  refine Conducts.tryCatch (fun e => by cases e <;> trivial)
    (Conducts.bind (Q := fun _ => False) (fun _ h => h.elim) ?_)
  refine Conducts.query_bind (p := Prog.now) (Q := fun _ => True) (fun _ _ _ => trivial)
    fun n _ => ?_
  refine Conducts.query_bind (Q := fun found : Option AuthRefreshToken => ∃ rt, found = some rt ∧
    rt.revokedAt.isSome = true) (fun db t hdb => hdb) fun found hfound => ?_
  obtain ⟨rt, rfl, hrevoked⟩ := hfound
  dsimp only
  rw [hrevoked, Bool.true_or, if_pos rfl]
  trivial

theorem refreshToken_refuses : Refuses (StoredRevoked settings token)
    (RefreshTokenService.refreshToken settings ctx draw token) :=
  Conducts.bind (fun _ h => h.elim) rotateOrUnauthorized_refuses

theorem refreshMemberToken_refuses : Refuses (StoredRevoked settings token)
    (RefreshTokenService.refreshMemberToken settings ctx draw token) := by
  refine Conducts.bind (Q := fun _ => True) (fun _ _ =>
    Conducts.bind (fun _ h => h.elim) rotateOrUnauthorized_refuses) ?_
  unfold RefreshTokenService.resolveRequestAppCode
  split
  · split
    · trivial
    · trivial
  · trivial

end Refused

end NewlifeCore.Auth
