import NewlifeCore.Auth.PortalSeparation
import NewlifeCore.Auth.RevokedFamilies

/-!
# Signing out

`logout` and `logout_member` blacklist the access token and revoke the family of the refresh token.
Here a sign-out is one of any number of requests that are served side by side, statement by
statement.

* A sign-out that is served undisturbed, no other request under way presenting a token of its
  family, leaves the family out (`Signing.step`, `Signing.out`): before its UPDATE nobody writes
  a token of the family, and its UPDATE holds the rows of all of them until it commits.
* Whatever is served afterwards, no refresh of that family returns (`Out.refreshes_refused`).
* What each of its steps changes is the family's alone, so that nobody else is answered differently
  (`Signing.turn`, `others_unaffected`).
* But no request asks whether its access token is blacklisted.  The token is let in as long as it
  is unexpired and its account may use the portal (`Out.calls_refused_iff`), which is all that
  `verify_token` and the middleware look at (`letIn_iff`).

A refresh that is half-way through when the family is revoked has read its token before, and commits
a successor that nobody revoked (`refresh_outlives_signOut`).
-/

namespace NewlifeCore.Auth

open Txn Script

variable {settings : AuthSettings} {f : UUID} {t : Int} {db db' : Db}

/-! ## 1. Who is let in -/

/-- **Where a token is good**: it is unexpired, for this portal, and its account may use it. -/
def Usable (settings : AuthSettings) (db : Db) (now : Int) (isAdmin : Bool)
    (token : settings.jwt.Text) : Prop :=
  ∃ p, settings.jwt.decode token (settings.audience (if isAdmin then .admin else .user)) now =
    some p ∧ Admitted db isAdmin p ∧ (isAdmin = false → ∃ azp, p.azp = some azp ∧ azp ≠ "")

section LetIn

variable {token : settings.jwt.Text} {m : Midway Db Redis}

theorem error_ne_ok {ε α : Type} (e : ε) : ¬ ∃ a : α, (Except.error e : Except ε α) = .ok a := by
  rintro ⟨_, h⟩
  cases h

theorem none_ne_some {α : Type} (q : α → Prop) : ¬ ∃ a, (none : Option α) = some a ∧ q a := by
  rintro ⟨_, h, -⟩
  cases h

theorem userContext_exec (user : AuthUser) (loginAdmin : Bool) (payload : AccessTokenPayload) :
    (∃ c, ((AuthMiddleware.userContext user loginAdmin payload).exec m t).1 = .ok c) ↔
      user.email.isSome = true := by
  unfold AuthMiddleware.userContext
  cases user.email with
  | none => exact iff_of_false (error_ne_ok _) (by simp)
  | some email => exact iff_of_true ⟨_, rfl⟩ rfl

/-- The end of both checks: the account is looked up, and refused unless it passes. -/
theorem account_exec (p : AccessTokenPayload) (isAdmin : Bool)
    {k : Option AuthUser → AuthScript UserContext} {refused : AuthUser → Bool}
    (hnone : k none = raise (.unauthorized "Unauthorized"))
    (hsome : ∀ user, k (some user) = if refused user then raise (.unauthorized "Unauthorized")
      else AuthMiddleware.userContext user isAdmin p)
    (hrefused : ∀ user, refused user = false ↔
      user.isActive = true ∧ user.verified = true ∧ (isAdmin = true → user.isAdmin = true)) :
    (∃ c, (((Script.query (UserRepository.getSensitiveById p.sub)).bind k).exec m t).1 = .ok c) ↔
      Admitted m.work isAdmin p := by
  unfold Admitted
  show (∃ c, ((k (UserRepository.sensitiveById m.work p.sub)).exec m t).1 = .ok c) ↔ _
  cases UserRepository.sensitiveById m.work p.sub with
  | none =>
    rw [hnone]
    exact iff_of_false (error_ne_ok _) (none_ne_some _)
  | some user =>
    rw [hsome]
    cases hpass : refused user with
    | true =>
      refine iff_of_false (error_ne_ok _) ?_
      rintro ⟨_, h, -, hadmitted⟩
      cases h
      rw [(hrefused user).mpr hadmitted] at hpass
      cases hpass
    | false =>
      have hadmitted := (hrefused user).mp hpass
      refine (userContext_exec user isAdmin p).trans ⟨fun h => ⟨user, rfl, h, hadmitted⟩, ?_⟩
      rintro ⟨_, h, hemail, -⟩
      cases h
      exact hemail

theorem verifyAdminToken_exec :
    (∃ c, ((AuthMiddleware.verifyAdminToken settings token).exec m t).1 = .ok c) ↔
      Usable settings m.work t true token := by
  unfold AuthMiddleware.verifyAdminToken JWTProvider.verifyToken Usable
  simp only [Script.bind_eq, Script.exec_bind, Script.now, Script.exec, Script.pure_eq, if_true]
  cases settings.jwt.decode token (settings.audience .admin) t with
  | none => exact iff_of_false (error_ne_ok _) (none_ne_some _)
  | some p =>
    refine (account_exec p true rfl (fun _ => rfl) fun user => ?_).trans ?_
    · cases user.isActive <;> cases user.isAdmin <;> cases user.verified <;> simp
    · refine ⟨fun h => ⟨p, rfl, h, by simp⟩, ?_⟩
      rintro ⟨q, hq, h, -⟩
      cases hq
      exact h

/-- A member's token is good for the app it was issued to. -/
theorem verifyUserToken_exec (ctx : RequestContext) :
    (∃ c, ((AuthMiddleware.verifyUserToken settings ctx token).exec m t).1 = .ok c) ↔
      ∃ p, settings.jwt.decode token (settings.audience .user) t = some p ∧
        Admitted m.work false p ∧ ∃ azp, p.azp = some azp ∧ azp ≠ "" ∧ ctx.appCode = some azp := by
  unfold AuthMiddleware.verifyUserToken JWTProvider.verifyToken
  simp only [Script.bind_eq, Script.exec_bind, Script.now, Script.exec, Script.pure_eq,
    Bool.false_eq_true, if_false]
  cases settings.jwt.decode token (settings.audience .user) t with
  | none => exact iff_of_false (error_ne_ok _) (none_ne_some _)
  | some p =>
    cases hazp : p.azp with
    | none =>
      refine iff_of_false ?_ ?_
      · simp only [hazp]
        exact error_ne_ok _
      · rintro ⟨_, h, -, azp, hq, -⟩
        cases h
        cases hazp.symm.trans hq
    | some azp =>
      have hcode : (∃ azp', p.azp = some azp' ∧ azp' ≠ "" ∧ ctx.appCode = some azp') ↔
          azp ≠ "" ∧ ctx.appCode = some azp := by
        simp [hazp]
      have hsame : (∃ q, some p = some q ∧ Admitted m.work false q ∧
          ∃ azp, q.azp = some azp ∧ azp ≠ "" ∧ ctx.appCode = some azp) ↔
          Admitted m.work false p ∧ azp ≠ "" ∧ ctx.appCode = some azp := by
        simp only [Option.some.injEq, exists_eq_left', hcode]
      rw [hsame]
      simp only [hazp]
      by_cases hempty : azp = ""
      · refine iff_of_false ?_ fun h => h.2.1 hempty
        rw [hempty]
        exact error_ne_ok _
      · rw [if_neg (by simpa using hempty)]
        unfold RefreshTokenService.resolveRequestAppCode
        cases ctx.appCode with
        | none => exact iff_of_false (error_ne_ok _) (by simp)
        | some code =>
          by_cases hcode : azp = code
          · subst hcode
            dsimp only
            rw [if_neg (by simpa using hempty)]
            show (∃ c, (Script.exec (if azp ≠ azp then _ else _) m t).1 = .ok c) ↔ _
            rw [if_neg (not_not_intro rfl)]
            refine (account_exec p false rfl (fun _ => rfl) fun user => ?_).trans ?_
            · cases user.isActive <;> cases user.verified <;> simp
            · exact ⟨fun h => ⟨h, hempty, rfl⟩, fun h => h.1⟩
          · refine iff_of_false ?_ fun h => hcode (Option.some.inj h.2.2).symm
            dsimp only
            split
            · exact error_ne_ok _
            · show ¬ ∃ c, (Script.exec (if azp ≠ code then _ else _) m t).1 = .ok c
              rw [if_pos hcode]
              exact error_ne_ok _

/-- **The middleware lets in what is good**, and asks for nothing else. -/
theorem letIn_iff : (∃ ctx isAdmin c,
    ((AuthMiddleware.authenticate settings ctx isAdmin (some token)).exec m t).1 = .ok c) ↔
      ∃ isAdmin, Usable settings m.work t isAdmin token := by
  constructor
  · rintro ⟨ctx, isAdmin, c, hc⟩
    cases isAdmin with
    | true => exact ⟨true, verifyAdminToken_exec.mp ⟨c, hc⟩⟩
    | false =>
      obtain ⟨p, hp, hadmitted, azp, hazp, hne, -⟩ := (verifyUserToken_exec ctx).mp ⟨c, hc⟩
      exact ⟨false, p, hp, hadmitted, fun _ => ⟨azp, hazp, hne⟩⟩
  · rintro ⟨isAdmin, h⟩
    cases isAdmin with
    | true =>
      obtain ⟨c, hc⟩ := verifyAdminToken_exec.mpr h
      exact ⟨{}, true, c, hc⟩
    | false =>
      obtain ⟨p, hp, hadmitted, happ⟩ := h
      obtain ⟨azp, hazp, hne⟩ := happ rfl
      obtain ⟨c, hc⟩ := (verifyUserToken_exec { appCode := some azp }).mpr
        ⟨p, hp, hadmitted, azp, hazp, hne, rfl⟩
      exact ⟨_, false, c, hc⟩

end LetIn

/-- The middleware only looks. -/
theorem authenticate_looks (ctx : RequestContext) (isAdmin : Bool)
    (token : Option settings.jwt.Text) :
    (AuthMiddleware.authenticate settings ctx isAdmin token).Looks := by
  have hreading : Reading fun _ (p : AuthScript _) => p.Looks :=
    ⟨⟨fun _ => trivial, fun _ => trivial, fun hp hf => .bind hf hp⟩, fun _ => trivial,
      fun _ _ => trivial⟩
  exact hreading.authenticate ctx isAdmin token

/-- From `since` on, and with the accounts as in `db`. -/
def SameStanding (db : Db) (since : Int) (db' : Db) (t : Int) : Prop :=
  since ≤ t ∧ ∀ isAdmin p, Admitted db' isAdmin p ↔ Admitted db isAdmin p

/-- The end of both checks, for an account that may not use the portal. -/
theorem account_refuses {I : Db → Int → Prop} (p : AccessTokenPayload) (isAdmin : Bool)
    {k : Option AuthUser → AuthScript UserContext} {refused : AuthUser → Bool}
    (hI : ∀ db t, I db t → ¬ Admitted db isAdmin p)
    (hnone : k none = raise (.unauthorized "Unauthorized"))
    (hsome : ∀ user, k (some user) = if refused user then raise (.unauthorized "Unauthorized")
      else AuthMiddleware.userContext user isAdmin p)
    (hrefused : ∀ user, refused user = false →
      user.isActive = true ∧ user.verified = true ∧ (isAdmin = true → user.isAdmin = true)) :
    Refuses I ((Script.query (UserRepository.getSensitiveById p.sub)).bind k) := by
  refine Conducts.bind (Q := fun found => ∀ user, found = some user → ¬ (user.email.isSome = true ∧
    user.isActive = true ∧ user.verified = true ∧ (isAdmin = true → user.isAdmin = true)))
    (fun found hfound => ?_)
    fun db t hdb user huser hadmitted => hI db t hdb ⟨user, huser, hadmitted⟩
  cases found with
  | none =>
    rw [hnone]
    trivial
  | some user =>
    rw [hsome]
    cases hpass : refused user with
    | true => trivial
    | false =>
      show Refuses I (AuthMiddleware.userContext user isAdmin p)
      unfold AuthMiddleware.userContext
      cases hemail : user.email with
      | none => trivial
      | some email =>
        exact (hfound user rfl ⟨by rw [hemail]; rfl, hrefused user hpass⟩).elim

/-- **A token that is never good is not let in**, whatever is committed between the look at the
clock and the look at the account. -/
theorem authenticate_refuses {accessToken : settings.jwt.Text} {since : Int}
    (h : ∀ t isAdmin, since ≤ t → ¬ Usable settings db t isAdmin accessToken)
    (ctx : RequestContext) (isAdmin : Bool) : Refuses (SameStanding db since)
      (AuthMiddleware.authenticate settings ctx isAdmin (some accessToken)) := by
  cases isAdmin with
  | true =>
    refine Conducts.bind (Q := fun payload => ∃ t, since ≤ t ∧
      settings.jwt.decode accessToken (settings.audience .admin) t = payload)
      (fun payload hpayload => ?_) fun _ t ht => ⟨t, ht.1, rfl⟩
    obtain ⟨t, ht, hp⟩ := hpayload
    cases payload with
    | none => trivial
    | some p =>
      refine account_refuses p true (fun db₁ t₁ h₁ hadmitted => ?_) rfl (fun _ => rfl)
        fun user hpass => ?_
      · exact h t true ht ⟨p, hp, (h₁.2 true p).mp hadmitted, by simp⟩
      · revert hpass
        cases user.isActive <;> cases user.isAdmin <;> cases user.verified <;> simp
  | false =>
    refine Conducts.bind (Q := fun payload => ∃ t, since ≤ t ∧
      settings.jwt.decode accessToken (settings.audience .user) t = payload)
      (fun payload hpayload => ?_) fun _ t ht => ⟨t, ht.1, rfl⟩
    obtain ⟨t, ht, hp⟩ := hpayload
    cases payload with
    | none => trivial
    | some p =>
      cases hazp : p.azp with
      | none =>
        simp only [hazp]
        trivial
      | some azp =>
        simp only [hazp]
        split
        · trivial
        · rename_i hempty
          refine Conducts.bind (Q := fun _ => True) (fun code _ => ?_) ?_
          · split
            · trivial
            · refine account_refuses p false (fun db₁ t₁ h₁ hadmitted => ?_) rfl (fun _ => rfl)
                fun user hpass => ?_
              · exact h t false ht ⟨p, hp, (h₁.2 false p).mp hadmitted, fun _ =>
                  ⟨azp, hazp, by simpa using hempty⟩⟩
              · revert hpass
                cases user.isActive <;> cases user.verified <;> simp
          · unfold RefreshTokenService.resolveRequestAppCode
            split
            · split <;> trivial
            · trivial

/-! ## 2. What a sign-out does -/

/-- The token is stored, and of the family. -/
def StoredIn (settings : AuthSettings) (f : UUID) (token : String) (db : Db) : Prop :=
  ∃ rt, db.tokenOf settings.tokens token = some rt ∧ rt.familyId = f

/-- The UPDATE of a sign-out. -/
def familyRevocation (f : UUID) (now : Int) (reason : String) (view : Db) : Change Db RowName :=
  refreshTokenTable.update (fun r => r.familyId = f) (RefreshTokenProvider.revokeRow now reason)
    (fun _ => rfl) view

/-- Before the token is looked for, the store is changed where no other family looks. -/
def Prepares {α : Type} (f : UUID) (Q : α → Prop) : AuthScript α → Prop
  | .ret a => Q a
  | .clock k => ∀ t, Prepares f Q (k t)
  | .command c k => (∀ r t, StoreApart f r (c r t).1) ∧ ∀ r t, Prepares f Q (k (c r t).2)
  | _ => False

/-- **On its way to its UPDATE**, which it commits at once. -/
def WillRevoke (settings : AuthSettings) (f : UUID) (token : String) : AuthScript Unit → Prop
  | .read q k => ∀ db t, StoredIn settings f token db → WillRevoke settings f token (k (q db t))
  | .clock k => ∀ t, WillRevoke settings f token (k t)
  | .command c k => (∀ r t, StoreApart f r (c r t).1) ∧
      ∀ r t, WillRevoke settings f token (k (c r t).2)
  | .write stmt k => (∃ now reason, ∀ db, stmt db = .ok (familyRevocation f now reason db)) ∧
      ∀ n, k n = .commit (.ret ())
  | _ => False

theorem Prepares.bind {α β : Type} {Q : α → Prop} {Q' : β → Prop} {k : α → AuthScript β}
    (hk : ∀ a, Q a → Prepares f Q' (k a)) : ∀ {p : AuthScript α}, Prepares f Q p →
      Prepares f Q' (p.bind k)
  | .ret a, hp => hk a hp
  | .clock _, hp => fun t => bind hk (hp t)
  | .command _ _, hp => ⟨hp.1, fun r t => bind hk (hp.2 r t)⟩

theorem WillRevoke.prepared {α : Type} {token : String} {Q : α → Prop} {k : α → AuthScript Unit}
    (hk : ∀ a, Q a → WillRevoke settings f token (k a)) : ∀ {p : AuthScript α}, Prepares f Q p →
      WillRevoke settings f token (p.bind k)
  | .ret a, hp => hk a hp
  | .clock _, hp => fun t => prepared hk (hp t)
  | .command _ _, hp => ⟨hp.1, fun r t => prepared hk (hp.2 r t)⟩

theorem StoreApart.refl (r : Redis) : StoreApart f r r := fun _ _ => rfl

theorem StoreApart.blacklisted (r : Redis) (tokenHash : String) (seconds : Int) :
    StoreApart f r (r.setex t (.tokenBlacklist tokenHash) seconds "1") :=
  fun _ _ => Redis.put_other _ (by simp)

theorem StoreApart.cleared (r : Redis) : StoreApart f r (r.delete (.memberRefreshApp f)) :=
  fun _ hg => Redis.put_other _ (by simpa using hg)

section SignOut

variable {accessToken : settings.jwt.Text} {token : String}

theorem verifyToken_prepares {isAdmin : Bool}
    (hfamily : ∀ aud now p, settings.jwt.decode accessToken aud now = some p → p.familyId = f) :
    Prepares f (fun payload : Option AccessTokenPayload => ∀ p, payload = some p → p.familyId = f)
      (JWTProvider.verifyToken settings accessToken isAdmin) :=
  fun _ p hp => hfamily _ _ p hp

theorem blacklist_prepares (payload : Option AccessTokenPayload) :
    Prepares f (fun _ => True) (RefreshTokenService.blacklist settings accessToken payload) := by
  cases payload with
  | none => trivial
  | some payload =>
    dsimp only [RefreshTokenService.blacklist]
    split
    · trivial
    · refine Prepares.bind (Q := fun _ => True) (fun _ _ => ?_)
        (Prepares.bind (Q := fun _ => True) (fun now _ => ?_) (p := Script.now) ?_)
      · trivial
      · dsimp only
        split
        · exact ⟨fun r t => .blacklisted r _ _, fun _ _ => trivial⟩
        · trivial
      · exact fun _ => trivial

theorem clearBinding_prepares {payload : Option AccessTokenPayload}
    (hfamily : ∀ p, payload = some p → p.familyId = f) :
    Prepares f (fun _ => True) (RefreshTokenService.clearBinding payload) := by
  cases payload with
  | none => trivial
  | some payload =>
    dsimp only [RefreshTokenService.clearBinding]
    split
    · trivial
    · rw [hfamily payload rfl]
      exact ⟨fun r _ => .cleared r, fun _ _ => trivial⟩

theorem revokeIfGiven_willRevoke (hne : token ≠ "") :
    WillRevoke settings f token (RefreshTokenService.revokeIfGiven settings (some token)) := by
  dsimp only [RefreshTokenService.revokeIfGiven]
  rw [if_neg (by simpa using hne)]
  intro db t hstored
  obtain ⟨rt, hrt, rfl⟩ := hstored
  have hfound : db.refreshTokens.find? (fun r => r.tokenHash = settings.tokens.hashToken token) =
      some rt := hrt
  beta_reduce
  rw [hfound]
  exact fun now => ⟨⟨now, "Logout", fun _ => rfl⟩, fun _ => rfl⟩

/-- `r` signs out with this access token and a refresh token of its family. -/
structure SignsOut (db : Db) (r : SessionRequest settings) (accessToken : settings.jwt.Text)
    (f : UUID) : Prop where
  refresh : ∃ token, (r = .logout accessToken (some token) ∨
    r = .logoutMember accessToken (some token)) ∧ token ≠ "" ∧ StoredIn settings f token db
  access : ∀ aud now p, settings.jwt.decode accessToken aud now = some p → p.familyId = f

theorem SignsOut.willRevoke {r : SessionRequest settings} (h : SignsOut db r accessToken f) :
    ∃ token, StoredIn settings f token db ∧ WillRevoke settings f token r.body := by
  obtain ⟨token, hr, hne, hstored⟩ := h.refresh
  refine ⟨token, hstored, ?_⟩
  rcases hr with rfl | rfl
  · refine WillRevoke.prepared (fun payload _ => ?_) (verifyToken_prepares h.access)
    exact WillRevoke.prepared (fun _ _ => revokeIfGiven_willRevoke hne) (blacklist_prepares payload)
  · refine WillRevoke.prepared (fun payload hpayload => ?_) (verifyToken_prepares h.access)
    refine WillRevoke.prepared (fun _ _ => ?_) (blacklist_prepares payload)
    exact WillRevoke.prepared (fun _ _ => revokeIfGiven_willRevoke hne)
      (clearBinding_prepares hpayload)

end SignOut

/-! ## 3. A sign-out among others -/

section Signing

variable {s s' s₁ s₂ s₃ : PortalDesk settings} {n : Nat} {token : String}
  {a : Turn (SessionRequest settings)} {v : PortalVisit settings}

/-- **Nobody disturbs the sign-out**: no other request under way presents a token of its family. -/
def Undisturbed (f : UUID) (n : Nat) (s : PortalDesk settings) (a : Turn (SessionRequest settings)) :
    Prop :=
  StartsNew s a ∧ ∀ m < s.next, m ≠ n → ∀ v ∈ s.visits m, v.label.Spares f s.db

/-- How far the sign-out is. -/
inductive Signing (settings : AuthSettings) (f : UUID) (token : String) (n : Nat)
    (s : PortalDesk settings) : Prop
  | before (v : PortalVisit settings) (there : s.visits n = some v) (own : v.own = id)
      (stored : StoredIn settings f token s.db) (script : WillRevoke settings f token v.script)
  | holding (v : PortalVisit settings) (there : s.visits n = some v) (now : Int) (reason : String)
      (view : Db) (own : v.own = (familyRevocation f now reason view).apply)
      (stored : StoredIn settings f token s.db)
      (held : ∀ r ∈ s.db.refreshTokens, r.familyId = f →
        RowName.refreshToken r.id ∈ (familyRevocation f now reason view).rows)
      (script : v.script = .commit (.ret ()))
  | through (v : PortalVisit settings) (there : s.visits n = some v) (out : Out f s) (own : v.own = id)
      (script : v.script = .ret ())
  | gone (out : Out f s) (absent : s.visits n = none) (numbered : n < s.next)

theorem StoredIn.later {h : Db → Db} (hstored : StoredIn settings f token db)
    (hh : Effect F h) : StoredIn settings f token (h db) := by
  obtain ⟨rt, hrt, hf⟩ := hstored
  obtain ⟨rt', hrt', hstays⟩ := hh.tokenOf hrt
  exact ⟨rt', hrt', hstays.familyId.trans hf⟩

/-- What the others do meanwhile: nothing to the family, and nothing to the sign-out. -/
theorem Undisturbed.others (h : Undisturbed f n s a) (htidy : Tidy s) (hv : s.visits n = some v)
    (hact : a ≠ .act n) (hend : a ≠ .finish n) (hstep : s.step SessionRequest.body a = some s') :
    s'.visits n = some v ∧ ∃ g, Effect (· ≠ f) g ∧ s'.db = g s.db := by
  have hkeeps : ∀ m w, m ≠ n → s.visits m = some w → w.label.Spares f s.db ∧ KeepsOut f w :=
    fun m w hm hw =>
      have hspares := h.2 m (htidy.vacant.lt hw) hm w hw
      ⟨hspares, htidy.spares f m w hw hspares⟩
  rcases Desk.step_cases hstep with ⟨t, -, -, rfl⟩ | ⟨l, -, rfl⟩ | ⟨m, w, rfl, hw, hm⟩ |
    ⟨m, w, rfl, hw, hm⟩
  · exact ⟨hv, _, .id, rfl⟩
  · exact ⟨(if_neg (Nat.ne_of_lt (htidy.vacant.lt hv))).trans hv, _, .id, rfl⟩
  · have hne : m ≠ n := fun hmn => hact (hmn ▸ rfl)
    obtain ⟨hspares, hw'⟩ := hkeeps m w hne hw
    obtain ⟨w', hto, -, -, hdb⟩ := hw'.act (hspares.presents hw'.own _) hm
    refine ⟨(hto.other hne.symm).trans hv, ?_⟩
    rcases hdb with hdb | hdb
    · exact ⟨_, .id, hdb⟩
    · exact ⟨_, hw'.own, hdb⟩
  · have hne : m ≠ n := fun hmn => hend (hmn ▸ rfl)
    rcases Desk.finish_cases hm with ⟨g, -, rfl⟩ | ⟨e, -, rfl⟩
    · exact ⟨(if_neg hne.symm).trans hv, _, (hkeeps m w hne hw).2.own, rfl⟩
    · exact ⟨(if_neg hne.symm).trans hv, _, .id, rfl⟩

/-- The UPDATE of a sign-out leaves every other family alone. -/
theorem familyRevocation_apart (now : Int) (reason : String) (view db : Db) :
    DbApart f db ((familyRevocation f now reason view).apply db) := by
  refine ⟨?_, rfl⟩
  show List.Forall₂ (RowApart f) db.refreshTokens (db.refreshTokens.map _)
  rw [List.forall₂_map_right_iff]
  refine List.forall₂_same.mpr fun r _ => ?_
  split
  · rename_i hr
    have hrf : r.familyId = f := of_decide_eq_true (Bool.and_eq_true_iff.mp hr).1
    exact ⟨rfl, rfl, rfl, fun hne => absurd hrf hne⟩
  · exact .refl r

/-- Held rows are revoked by it. -/
theorem familyRevocation_revoked {now : Int} {reason : String} {view : Db}
    (hstored : StoredIn settings f token db) (hheld : ∀ r ∈ db.refreshTokens, r.familyId = f →
      RowName.refreshToken r.id ∈ (familyRevocation f now reason view).rows) :
    ((familyRevocation f now reason view).apply db).FamilyRevoked f := by
  have heffect : Effect (fun _ => True) (familyRevocation f now reason view).apply :=
    .update fun r => ⟨rfl, rfl, rfl, fun _ => rfl⟩
  obtain ⟨rt, hrt, hf⟩ := hstored.later heffect
  refine ⟨⟨rt, List.mem_of_find?_eq_some hrt, hf⟩, fun q hq hqf => ?_⟩
  obtain ⟨r, hr, rfl⟩ := List.mem_map.mp hq
  dsimp only at hqf ⊢
  split
  · rfl
  · rename_i hnot
    rw [if_neg hnot] at hqf
    refine absurd ?_ hnot
    rw [Bool.and_eq_true]
    exact ⟨decide_eq_true hqf, List.contains_iff_mem.mpr (hheld r hr hqf)⟩

/-- **One step of the sign-out itself**: it comes closer, and nothing but its family notices. -/
theorem Signing.turn (h : Signing settings f token n s) (htidy : Tidy s)
    (hundisturbed : Undisturbed f n s a) (ha : a = .act n ∨ a = .finish n)
    (hstep : s.step SessionRequest.body a = some s') :
    Signing settings f token n s' ∧ Apart f ⟨s.db, s.store⟩ ⟨s'.db, s'.store⟩ := by
  have hsame : Apart f ⟨s.db, s.store⟩ ⟨s.db, s.store⟩ := ⟨.refl _, .refl _⟩
  cases h with
  | before v there own stored script =>
    obtain ⟨label, p, own', rows, saw⟩ := v
    obtain rfl : own' = id := own
    rcases ha with rfl | rfl
    · have hact : s.act n ⟨label, p, id, rows, saw⟩ = some s' := by
        have hbind : (s.visits n).bind (s.act n) = some s' := hstep
        rwa [there] at hbind
      cases p with
      | ret a => exact script.elim
      | raise e => exact script.elim
      | read q k =>
        cases hact
        exact ⟨.before _ (if_pos rfl) rfl stored (script _ _ stored), hsame⟩
      | clock k =>
        cases hact
        exact ⟨.before _ (if_pos rfl) rfl stored (script _), hsame⟩
      | write stmt k =>
        obtain ⟨⟨now, reason, hstmt⟩, hk⟩ := script
        simp only [Desk.act] at hact
        rw [hstmt] at hact
        dsimp only at hact
        split at hact
        · cases hact
          refine ⟨.holding _ (if_pos rfl) now reason s.db rfl stored (fun r hr hrf => ?_) (hk _),
            hsame⟩
          exact refreshTokenTable.mem_matching hr (decide_eq_true hrf)
        · cases hact
      | command c k =>
        cases hact
        exact ⟨.before _ (if_pos rfl) rfl stored (script.2 _ _), .refl _, script.1 _ _⟩
      | commit k => exact script.elim
    · have hend : s.finish n ⟨label, p, id, rows, saw⟩ = some s' := by
        have hbind : (s.visits n).bind (s.finish n) = some s' := hstep
        rwa [there] at hbind
      rcases Desk.finish_cases hend with ⟨g, hp, -⟩ | ⟨e, hp, -⟩
      · obtain rfl : p = .ret g := hp
        exact script.elim
      · obtain rfl : p = .raise e := hp
        exact script.elim
  | holding v there now reason view own stored held script =>
    obtain ⟨label, p, own', rows, saw⟩ := v
    obtain rfl : p = .commit (.ret ()) := script
    obtain rfl : own' = (familyRevocation f now reason view).apply := own
    rcases ha with rfl | rfl
    · have hact : s.act n ⟨label, .commit (.ret ()), (familyRevocation f now reason view).apply, rows,
          saw⟩ = some s' := by
        have hbind : (s.visits n).bind (s.act n) = some s' := hstep
        rwa [there] at hbind
      cases hact
      refine ⟨.through _ (if_pos rfl) ⟨familyRevocation_revoked stored held, fun m w hw => ?_⟩ rfl rfl,
        familyRevocation_apart _ _ _ _, .refl _⟩
      rcases Desk.put_cases hw with ⟨-, hw⟩ | ⟨hm, hw⟩
      · obtain rfl := Option.some.inj hw
        exact ⟨trivial, .id⟩
      · exact htidy.spares f m w hw (hundisturbed.2 m (htidy.vacant.lt hw) hm w hw)
    · have hend : s.finish n ⟨label, .commit (.ret ()), (familyRevocation f now reason view).apply,
          rows, saw⟩ = some s' := by
        have hbind : (s.visits n).bind (s.finish n) = some s' := hstep
        rwa [there] at hbind
      cases hend
  | through v there out own script =>
    obtain ⟨label, p, own', rows, saw⟩ := v
    obtain rfl : p = .ret () := script
    obtain rfl : own' = id := own
    rcases ha with rfl | rfl
    · have hact : s.act n ⟨label, .ret (), id, rows, saw⟩ = some s' := by
        have hbind : (s.visits n).bind (s.act n) = some s' := hstep
        rwa [there] at hbind
      cases hact
    · have hout := out.step hundisturbed.1 hstep
      have hend : s.finish n ⟨label, .ret (), id, rows, saw⟩ = some s' := by
        have hbind : (s.visits n).bind (s.finish n) = some s' := hstep
        rwa [there] at hbind
      cases hend
      exact ⟨.gone hout (if_pos rfl) (htidy.vacant.lt there), hsame⟩
  | gone out absent numbered =>
    rcases ha with rfl | rfl
    · have hbind : (s.visits n).bind (s.act n) = some s' := hstep
      rw [absent] at hbind
      cases hbind
    · have hbind : (s.visits n).bind (s.finish n) = some s' := hstep
      rw [absent] at hbind
      cases hbind

/-- Nobody takes a number that was taken before. -/
theorem absent_step (hn : n < s.next) (habsent : s.visits n = none)
    (hstep : s.step SessionRequest.body a = some s') : n < s'.next ∧ s'.visits n = none := by
  rcases Desk.step_cases hstep with ⟨t, -, -, rfl⟩ | ⟨l, -, rfl⟩ | ⟨m, w, -, hw, hact⟩ |
    ⟨m, w, -, hw, hend⟩
  · exact ⟨hn, habsent⟩
  · exact ⟨Nat.lt_succ_of_lt hn, (if_neg (Nat.ne_of_lt hn)).trans habsent⟩
  · have hne : n ≠ m := by
      rintro rfl
      cases habsent.symm.trans hw
    obtain ⟨w', -, hto⟩ := Desk.act_label hact
    exact ⟨hto.next ▸ hn, (hto.other hne).trans habsent⟩
  · have hne : n ≠ m := by
      rintro rfl
      cases habsent.symm.trans hw
    rcases Desk.finish_cases hend with ⟨g, -, rfl⟩ | ⟨e, -, rfl⟩
    · exact ⟨hn, (if_neg hne).trans habsent⟩
    · exact ⟨hn, (if_neg hne).trans habsent⟩

theorem Signing.step (h : Signing settings f token n s) (htidy : Tidy s)
    (hundisturbed : Undisturbed f n s a) (hstep : s.step SessionRequest.body a = some s') :
    Signing settings f token n s' := by
  by_cases ha : a = .act n ∨ a = .finish n
  · exact (h.turn htidy hundisturbed ha hstep).1
  rw [not_or] at ha
  cases h with
  | before v there own stored script =>
    obtain ⟨hv, g, hg, hdb⟩ := hundisturbed.others htidy there ha.1 ha.2 hstep
    exact .before v hv own (hdb ▸ stored.later hg) script
  | holding v there now reason view own stored held script =>
    obtain ⟨hv, g, hg, hdb⟩ := hundisturbed.others htidy there ha.1 ha.2 hstep
    refine .holding v hv now reason view own (hdb ▸ stored.later hg) (fun r hr hrf => ?_) script
    obtain ⟨g', ext, heq, hstays, hext⟩ := hg.tokens s.db
    rw [hdb, heq] at hr
    rcases List.mem_append.mp hr with hr | hr
    · obtain ⟨q, hq, rfl⟩ := List.mem_map.mp hr
      rw [(hstays q).id]
      exact held q hq ((hstays q).familyId.symm.trans hrf)
    · exact absurd hrf (hext r hr)
  | through v there out own script =>
    obtain ⟨hv, -⟩ := hundisturbed.others htidy there ha.1 ha.2 hstep
    exact .through v hv (out.step hundisturbed.1 hstep) own script
  | gone out absent numbered =>
    obtain ⟨hnumbered, habsent⟩ := absent_step numbered absent hstep
    exact .gone (out.step hundisturbed.1 hstep) habsent hnumbered

/-- **Served undisturbed**, from its begin on. -/
theorem Signing.run {r : SessionRequest settings} {accessToken : settings.jwt.Text}
    (htidy : Tidy s) (hr : SignsOut s.db r accessToken f)
    (hbegun : s.step SessionRequest.body (.begin r) = some s₁)
    (hserved : Desk.Run SessionRequest.body (Undisturbed f s.next) s₁ s₂) :
    Tidy s₂ ∧ ∃ token, Signing settings f token s.next s₂ := by
  obtain ⟨token, hstored, hwill⟩ := hr.willRevoke
  have hfirst : Signing settings f token s.next s₁ := by
    cases hbegun
    exact .before _ (if_pos rfl) rfl hstored hwill
  have hboth : Tidy s₂ ∧ Signing settings f token s.next s₂ :=
    hserved.invariant (I := fun s₁ => Tidy s₁ ∧ Signing settings f token s.next s₁)
      ⟨htidy.step hbegun, hfirst⟩ fun _ _ _ h hundisturbed hstep =>
        ⟨h.1.step hstep, h.2.step h.1 hundisturbed hstep⟩
  exact ⟨hboth.1, token, hboth.2⟩

/-- It is over once its visit is. -/
theorem Signing.out (h : Signing settings f token n s) (habsent : s.visits n = none) : Out f s := by
  cases h with
  | before v there => cases habsent.symm.trans there
  | holding v there => cases habsent.symm.trans there
  | through v there out => exact out
  | gone out => exact out

end Signing

/-! ## 4. After a sign-out -/

/-- The refresh token that a refresh presents. -/
def SessionRequest.refreshes : SessionRequest settings → Option String
  | .refresh _ _ token => some token
  | .refreshMember _ _ token => some token
  | _ => none

/-- No refresh with a token of the family that began after `since` has returned. -/
def RefreshesRefused (f : UUID) (since s : PortalDesk settings) : Prop :=
  ∀ n v token, since.next ≤ n → s.visits n = some v → v.label.refreshes = some token →
    StoredIn settings f token s.db → v.script.result ≠ some (.ok ())

/-- No request with the access token that began after `since` has been let in. -/
def CallsRefused (accessToken : settings.jwt.Text) (since s : PortalDesk settings) : Prop :=
  ∀ n v ctx isAdmin, since.next ≤ n → s.visits n = some v →
    v.label = .call ctx isAdmin (some accessToken) → v.script.result ≠ some (.ok ())

/-- What requests that come now find. -/
def PortalDesk.portal (s : PortalDesk settings) : Portal settings where
  world := ⟨s.db, s.store⟩
  clock := s.clock

/-- Whatever presents no refresh token of the family is answered alike in both states. -/
def AnswersAlike (f : UUID) (s s' : PortalDesk settings) : Prop :=
  ∀ schedule, s.portal.AllElsewhere f schedule →
    s'.portal.answers schedule = s.portal.answers schedule

variable {r : SessionRequest settings} {accessToken : settings.jwt.Text}
  {ok : PortalDesk settings → Turn (SessionRequest settings) → Prop} {s s' s'' : PortalDesk settings}

/-- **A sign-out among others**: begun in `s`, over in `s'`, and between them steps that all meet
`ok`. -/
structure SignedOut (ok : PortalDesk settings → Turn (SessionRequest settings) → Prop)
    (s s' : PortalDesk settings) (r : SessionRequest settings) (accessToken : settings.jwt.Text)
    (f : UUID) : Prop where
  request : SignsOut s.db r accessToken f
  served : ∃ s₁ s₂, s.step SessionRequest.body (.begin r) = some s₁ ∧
    Desk.Run SessionRequest.body ok s₁ s₂ ∧ ok s₂ (.finish s.next) ∧
      s₂.step SessionRequest.body (.finish s.next) = some s'

/-- None of its own steps is noticed by the others. -/
def OthersUnaffected (ok : PortalDesk settings → Turn (SessionRequest settings) → Prop)
    (s : PortalDesk settings) (r : SessionRequest settings) (f : UUID) : Prop :=
  ∀ s₁ s₂ s₃ a, s.step SessionRequest.body (.begin r) = some s₁ →
    Desk.Run SessionRequest.body ok s₁ s₂ → ok s₂ a → a = .act s.next ∨ a = .finish s.next →
      s₂.step SessionRequest.body a = some s₃ → AnswersAlike f s₂ s₃

/-- **A sign-out is final.** -/
structure SignOutFinal (ok : PortalDesk settings → Turn (SessionRequest settings) → Prop)
    (s s' : PortalDesk settings) (r : SessionRequest settings) (accessToken : settings.jwt.Text)
    (f : UUID) : Prop where
  others : OthersUnaffected ok s r f
  refreshes : ∀ s'', Desk.Run SessionRequest.body StartsNew s' s'' → RefreshesRefused f s' s''
  calls : ∀ s'', Desk.Run SessionRequest.body StartsNew s' s'' → CallsRefused accessToken s' s''

theorem others_unaffected (htidy : Tidy s) (hr : SignsOut s.db r accessToken f) :
    OthersUnaffected (Undisturbed f s.next) s r f := by
  intro s₁ s₂ s₃ a hbegun hserved hok ha hstep schedule hother
  obtain ⟨htidy₂, token, hsigning⟩ := Signing.run htidy hr hbegun hserved
  obtain ⟨-, hapart⟩ := hsigning.turn htidy₂ hok ha hstep
  exact Portal.answers_apart (s := PortalDesk.portal s₂) schedule hapart hother

/-- **No refresh of a family that is out returns.** -/
theorem Out.refreshes_refused (h : Out f s) (hvacant : s.Vacant)
    (hrun : Desk.Run SessionRequest.body StartsNew s s') : RefreshesRefused f s s' := by
  intro n v token hn hv hlabel hstored
  -- a token of the family that is stored now was stored when the family was put out
  have hfirst : StoredIn settings f token s.db := by
    obtain ⟨g, hg, hdb⟩ := h.committed hrun
    obtain ⟨rt, hrt, hf⟩ := hstored
    rcases hg.tokenOf_back (hdb ▸ hrt) with ⟨rt₀, hrt₀, hstays⟩ | hne
    · exact ⟨rt₀, hrt₀, hstays.familyId.symm.trans hf⟩
    · exact absurd hf hne
  have hseen : ∀ s₂, Desk.Run SessionRequest.body StartsNew s s₂ → ∀ m w, s.next ≤ m →
      s₂.visits m = some w → w.label.refreshes = some token →
        StoredRevoked settings token (w.own s₂.db) s₂.clock := by
    intro s₂ hrun₂ m w _ hw _
    obtain ⟨g, hg, hdb⟩ := h.committed hrun₂
    have hout := h.run hrun₂
    have hown := (hout.visits m w hw).own
    have hstored₂ : StoredIn settings f token s₂.db := hdb ▸ hfirst.later hg
    obtain ⟨rt, hrt, hf⟩ := hstored₂.later hown
    exact ⟨rt, hrt, (hown.familyRevoked hout.revoked).revoked rt (List.mem_of_find?_eq_some hrt) hf⟩
  have hbody : ∀ l : SessionRequest settings, l.refreshes = some token →
      Refuses (StoredRevoked settings token) l.body := by
    intro l hl
    cases l with
    | refresh ctx draw presented =>
      obtain rfl : presented = token := Option.some.inj hl
      exact Conducts.bind (fun _ h => h.elim) refreshToken_refuses
    | refreshMember ctx draw presented =>
      obtain rfl : presented = token := Option.some.inj hl
      exact Conducts.bind (fun _ h => h.elim) refreshMemberToken_refuses
    | _ => cases hl
  exact (Conducts.run hvacant hseen hbody hrun n v hn hv hlabel).not_ok ()

/-- **When the access token is refused**: exactly when it would be without the sign-out. -/
theorem Out.calls_refused_iff (h : Out f s) (hvacant : s.Vacant) :
    (∀ s', Desk.Run SessionRequest.body StartsNew s s' → CallsRefused accessToken s s') ↔
      ∀ t isAdmin, s.clock ≤ t → ¬ Usable settings s.db t isAdmin accessToken := by
  constructor
  · intro hrefused t isAdmin ht husable
    -- the clock moves on, and a request is let in at once
    let s₁ : PortalDesk settings := { s with clock := t }
    obtain ⟨ctx, isAdmin, c, hc⟩ :=
      letIn_iff.mpr ⟨isAdmin, (show Usable settings (Midway.mk s.db s.db s.store).work t isAdmin
        accessToken from husable)⟩
    let r : SessionRequest settings := .call ctx isAdmin (some accessToken)
    let v : PortalVisit settings := { label := r, script := r.body }
    let s₂ : PortalDesk settings := { s₁.put s₁.next (some v) with next := s₁.next + 1 }
    have hbegun : Desk.Run SessionRequest.body StartsNew s s₂ := by
      refine .tail (.begin r) (.tail (.tick t) .refl (fun r hr => by cases hr) (if_pos ht)) ?_ rfl
      intro r' hr' rt _ hstarts
      cases hr'
      cases hstarts
    have hlooks : r.body.Looks := by
      refine Looks.bind (fun _ => ?_) (authenticate_looks ctx isAdmin (some accessToken))
      trivial
    have hact : ∀ s : PortalDesk settings, StartsNew s (.act s₁.next) := fun _ r hr => by cases hr
    obtain ⟨s', v', hrun, hv', hlabel, hresult⟩ :=
      Desk.served_at_once hact r.body hlooks s₂ v (if_pos rfl) rfl
    refine hrefused s' (hbegun.trans hrun) s.next v' ctx isAdmin (Nat.le_refl _) hv' hlabel ?_
    rw [hresult]
    have hbody : (r.body.exec (s₂.midway v) s₂.clock).1 = .ok () := by
      show ((Script.bind (AuthMiddleware.authenticate settings ctx isAdmin (some accessToken))
        _).exec ⟨s.db, s.db, s.store⟩ t).1 = _
      rw [exec_bind]
      cases hexec : (AuthMiddleware.authenticate settings ctx isAdmin (some accessToken)).exec
          ⟨s.db, s.db, s.store⟩ t with
      | mk result m =>
        rw [hexec] at hc
        obtain rfl : result = .ok c := hc
        rfl
    rw [hbody]
  · intro hnever s' hrun n v ctx isAdmin hn hv hlabel
    have hseen : ∀ s₂, Desk.Run SessionRequest.body StartsNew s s₂ → ∀ m w, s.next ≤ m →
        s₂.visits m = some w → w.label = .call ctx isAdmin (some accessToken) →
          SameStanding s.db s.clock (w.own s₂.db) s₂.clock := by
      intro s₂ hrun₂ m w _ hw _
      obtain ⟨g, hg, hdb⟩ := h.committed hrun₂
      refine ⟨hrun₂.clock_le, fun isAdmin p => ?_⟩
      refine (((h.run hrun₂).visits m w hw).own.admits _ _ _).trans ?_
      rw [hdb]
      exact hg.admits _ _ _
    have hbody : ∀ l : SessionRequest settings, l = .call ctx isAdmin (some accessToken) →
        Refuses (SameStanding s.db s.clock) l.body := by
      rintro l rfl
      exact Conducts.bind (fun _ h => h.elim) (authenticate_refuses hnever ctx isAdmin)
    exact (Conducts.run hvacant hseen hbody hrun n v hn hv hlabel).not_ok ()

/-- **What a sign-out achieves** that nobody disturbs: no other session notices, no later refresh of
the family returns, and a later request with the access token is refused exactly where the token is
never good again. -/
theorem signOut_final {w : World Db Redis} {clock : Int}
    (hbefore : Desk.Run SessionRequest.body (fun _ _ => True) (PortalDesk.opening settings w clock) s)
    (h : SignedOut (Undisturbed f s.next) s s' r accessToken f) :
    OthersUnaffected (Undisturbed f s.next) s r f ∧
      (∀ s'', Desk.Run SessionRequest.body StartsNew s' s'' → RefreshesRefused f s' s'') ∧
      ((∀ s'', Desk.Run SessionRequest.body StartsNew s' s'' → CallsRefused accessToken s' s'') ↔
        ∀ t isAdmin, s'.clock ≤ t → ¬ Usable settings s'.db t isAdmin accessToken) := by
  have htidy : Tidy s := (tidy_opening w clock).run hbefore
  obtain ⟨hr, s₁, s₂, hbegun, hserved, hok, hend⟩ := h
  obtain ⟨htidy₂, token, hsigning⟩ := Signing.run htidy hr hbegun hserved
  obtain ⟨hsigning', -⟩ := hsigning.turn htidy₂ hok (.inr rfl) hend
  have habsent : s'.visits s.next = none := by
    rw [Option.eq_none_iff_forall_ne_some]
    intro v hv
    obtain ⟨w, -, hfinish⟩ := Option.bind_eq_some_iff.mp hend
    exact (Desk.finish_other hfinish hv).1 rfl
  have hout : Out f s' := hsigning'.out habsent
  have hvacant : s'.Vacant := htidy₂.vacant.step hend
  exact ⟨others_unaffected htidy hr, fun _ => hout.refreshes_refused hvacant,
    hout.calls_refused_iff hvacant⟩

/-! ## 5. Two sessions -/

section Sample

instance (f : UUID) (db : Db) (r : SessionRequest settings) : Decidable (r.Spares f db) :=
  inferInstanceAs (Decidable ((∀ token ∈ r.presented, ∀ rt ∈ db.tokenOf settings.tokens token,
    rt.familyId ≠ f) ∧ r.starts ≠ some f))

instance (s : PortalDesk settings) (a : Turn (SessionRequest settings)) :
    Decidable (StartsNew s a) :=
  inferInstanceAs (Decidable (∀ r, a = .begin r → ∀ rt ∈ s.db.refreshTokens,
    r.starts ≠ some rt.familyId))

instance (f : UUID) (n : Nat) (s : PortalDesk settings) (a : Turn (SessionRequest settings)) :
    Decidable (Undisturbed f n s a) :=
  inferInstanceAs (Decidable (_ ∧ ∀ m < s.next, m ≠ n → ∀ v ∈ s.visits m, v.label.Spares f s.db))

abbrev SessionTurn := Turn (SessionRequest plainSettings)

/-- The access token of the first login. -/
def sampleAccess : AccessTokenPayload where
  sub := 1
  exp := 900
  aud := "newlife-admin"
  iat := 0
  userId := 1
  email := "pastor@newlife.org"
  familyId := 10

/-- A member of the congregation, from the app to serve with. -/
def sampleMember : AuthUser := { id := 2, email := some "member@newlife.org", verified := true }

def sampleWorld : World Db Redis where
  db := { users := [sampleUser, sampleMember], userProfiles := [{ userId := 1 }, { userId := 2 }] }
  store := Redis.empty

/-- The pastor has signed in. -/
def signedInTurns : List SessionTurn :=
  .begin (.adminLogin {} sampleDraw sampleUser) :: (List.replicate 10 (.act 0) ++ [.finish 0])

/-- And the member is about to. -/
def memberTurns : List SessionTurn :=
  .begin (.memberLogin {} ⟨11, 21, ⟨31, "other"⟩⟩ sampleMember "serve") :: List.replicate 3 (.act 1)

def sampleSignOut : SessionRequest plainSettings := .logout sampleAccess (some "first")

/-- The pastor's sign-out, up to its end, while the member signs in.  Meanwhile the access token
expires. -/
def signOutTurns : List SessionTurn :=
  List.replicate 3 (.act 2) ++ List.replicate 3 (.act 1) ++ List.replicate 3 (.act 2) ++
    [.act 1, .finish 1, .act 2, .tick (900 * secondMicros)]

/-- The pastor's refresh token is presented again. -/
def presentedTurns : List SessionTurn :=
  .begin (.refresh {} ⟨32, "second"⟩ "first") :: List.replicate 2 (.act 3)

theorem signOut_turns :
    ((Desk.replay SessionRequest.body (PortalDesk.opening plainSettings sampleWorld 0)
        (signedInTurns ++ memberTurns)).bind fun s =>
      (s.step SessionRequest.body (.begin sampleSignOut)).bind fun s₁ =>
        (Desk.checkedReplay SessionRequest.body (Undisturbed 10 2) s₁ signOutTurns).bind fun s₂ =>
          (s₂.step SessionRequest.body (.finish 2)).bind fun s' =>
            (Desk.checkedReplay SessionRequest.body StartsNew s' presentedTurns).map fun s'' =>
              (s.next, (s.db.tokenOf plainSettings.tokens "first").map AuthRefreshToken.familyId,
                decide (Undisturbed 10 2 s₂ (.finish 2)), s'.clock,
                (s''.visits 3).map fun v => v.label.refreshes,
                s''.db.refreshTokens.map fun r => (r.id, r.revokedAt.isSome))) =
      some (2, some 10, true, 900 * secondMicros, some (some "first"),
        [(30, true), (31, false)]) := rfl

theorem signsOut_sample {db : Db}
    (h : (db.tokenOf plainSettings.tokens "first").map AuthRefreshToken.familyId = some 10) :
    SignsOut db sampleSignOut sampleAccess 10 where
  refresh := ⟨"first", .inl rfl, by decide, Option.map_eq_some_iff.mp h⟩
  access aud now p hp := congrArg AccessTokenPayload.familyId (plainCodec.decode_encode hp)

/-- From its expiry on the access token is never good. -/
theorem sampleAccess_expired {db : Db} {t : Int} {isAdmin : Bool} (ht : 900 * secondMicros ≤ t) :
    ¬ Usable plainSettings db t isAdmin sampleAccess := by
  rintro ⟨p, hp, -⟩
  obtain rfl : p = sampleAccess := plainCodec.decode_encode hp
  exact Int.not_le.mpr (plainCodec.unexpired hp) ht

/-- **Signed out beside a sign-in**: the sign-out is final, the member's token is live, and the
pastor's, presented again, is about to be refused. -/
theorem signOut_final_sample : ∃ (s s' s'' : PortalDesk plainSettings)
    (v : PortalVisit plainSettings),
    SignedOut (Undisturbed 10 s.next) s s' sampleSignOut sampleAccess 10 ∧
    SignOutFinal (Undisturbed 10 s.next) s s' sampleSignOut sampleAccess 10 ∧
    Desk.Run SessionRequest.body StartsNew s' s'' ∧
    s''.visits 3 = some v ∧ v.label.refreshes = some "first" ∧
    s''.db.refreshTokens.map (fun r => (r.id, r.revokedAt.isSome)) = [(30, true), (31, false)] := by
  obtain ⟨s, h, hrest⟩ := Option.bind_eq_some_iff.mp signOut_turns
  obtain ⟨s₁, h₁, hrest⟩ := Option.bind_eq_some_iff.mp hrest
  obtain ⟨s₂, h₂, hrest⟩ := Option.bind_eq_some_iff.mp hrest
  obtain ⟨s', h', hrest⟩ := Option.bind_eq_some_iff.mp hrest
  obtain ⟨s'', h'', hrest⟩ := Option.map_eq_some_iff.mp hrest
  simp only [Prod.mk.injEq, Option.map_eq_some_iff (f := fun v => SessionRequest.refreshes _)]
    at hrest
  obtain ⟨hnext, hfirst, hlast, hclock, ⟨v, hv, hlabel⟩, hrows⟩ := hrest
  have hbefore : Desk.Run SessionRequest.body (fun _ _ => True)
      (PortalDesk.opening plainSettings sampleWorld 0) s :=
    Desk.Run.of_replay (fun _ _ _ => trivial) .refl h
  have hserved : Desk.Run SessionRequest.body (Undisturbed 10 s.next) s₁ s₂ :=
    hnext ▸ Desk.Run.of_checkedReplay .refl h₂
  have hlater : Desk.Run SessionRequest.body StartsNew s' s'' :=
    Desk.Run.of_checkedReplay .refl h''
  have hsigned : SignedOut (Undisturbed 10 s.next) s s' sampleSignOut sampleAccess 10 :=
    ⟨signsOut_sample hfirst, s₁, s₂, h₁, hserved, hnext ▸ of_decide_eq_true hlast, hnext ▸ h'⟩
  obtain ⟨hothers, hrefreshes, hcalls⟩ := signOut_final hbefore hsigned
  have hexpired := hcalls.mpr fun t _ ht => sampleAccess_expired (hclock ▸ ht)
  exact ⟨s, s', s'', v, hsigned, ⟨hothers, hrefreshes, hexpired⟩, hlater, hv, hlabel, hrows⟩

theorem startsNew_finish {s : PortalDesk settings} {n : Nat} : StartsNew s (.finish n) := by
  intro r hr
  cases hr

/-- The pastor signs out, and the access token is presented again. -/
theorem letIn_turns :
    ((Desk.checkedReplay SessionRequest.body StartsNew
        (PortalDesk.opening plainSettings sampleWorld 0) signedInTurns).bind fun s =>
      (s.step SessionRequest.body (.begin sampleSignOut)).bind fun s₁ =>
        (Desk.checkedReplay SessionRequest.body StartsNew s₁ (List.replicate 7 (.act 1))).bind
          fun s₂ => (s₂.step SessionRequest.body (.finish 1)).bind fun s' =>
            (Desk.checkedReplay SessionRequest.body StartsNew s'
                (.begin (.call {} true (some sampleAccess)) :: List.replicate 2 (.act 2))).map
              fun s'' =>
                (s.next, (s.db.tokenOf plainSettings.tokens "first").map AuthRefreshToken.familyId,
                  s'.next, (s''.visits 2).map fun v => (v.label, v.script.result))) =
      some (1, some 10, 2, some (.call {} true (some sampleAccess), some (.ok ()))) := rfl

/-- **Nobody asks for the blacklist**: right after the sign-out the access token is let in. -/
theorem signOut_lets_in : ¬ ∀ (s s' : PortalDesk plainSettings) (r : SessionRequest plainSettings)
    (accessToken : AccessTokenPayload) (f : UUID),
    Desk.Run SessionRequest.body StartsNew (PortalDesk.opening plainSettings sampleWorld 0) s →
      SignedOut StartsNew s s' r accessToken f → SignOutFinal StartsNew s s' r accessToken f := by
  intro hfinal
  obtain ⟨s, h, hrest⟩ := Option.bind_eq_some_iff.mp letIn_turns
  obtain ⟨s₁, h₁, hrest⟩ := Option.bind_eq_some_iff.mp hrest
  obtain ⟨s₂, h₂, hrest⟩ := Option.bind_eq_some_iff.mp hrest
  obtain ⟨s', h', hrest⟩ := Option.bind_eq_some_iff.mp hrest
  obtain ⟨s'', h'', hrest⟩ := Option.map_eq_some_iff.mp hrest
  simp only [Prod.mk.injEq, Option.map_eq_some_iff (f := fun v => (Visit.label v, _))] at hrest
  obtain ⟨hnext, hfirst, hnext', v, hv, hlabel, hresult⟩ := hrest
  have hsigned : SignedOut StartsNew s s' sampleSignOut sampleAccess 10 :=
    ⟨signsOut_sample hfirst, s₁, s₂, h₁, .of_checkedReplay .refl h₂, startsNew_finish, hnext ▸ h'⟩
  have hrefused := (hfinal s s' _ _ _ (.of_checkedReplay .refl h) hsigned).calls s''
    (.of_checkedReplay .refl h'')
  exact hrefused 2 v {} true (Nat.le_of_eq hnext') hv hlabel hresult

/-- The pastor's token is refreshed, and signed out between the SELECT of the refresh and its
INSERT; then the successor is presented. -/
theorem outlives_turns :
    ((Desk.checkedReplay SessionRequest.body StartsNew
        (PortalDesk.opening plainSettings sampleWorld 0)
        (signedInTurns ++ .begin (.refresh {} ⟨31, "second"⟩ "first") ::
          List.replicate 4 (.act 1))).bind fun s =>
      (s.step SessionRequest.body (.begin sampleSignOut)).bind fun s₁ =>
        (Desk.checkedReplay SessionRequest.body StartsNew s₁ (List.replicate 7 (.act 2))).bind
          fun s₂ => (s₂.step SessionRequest.body (.finish 2)).bind fun s' =>
            (Desk.checkedReplay SessionRequest.body StartsNew s'
                (List.replicate 7 (.act 1) ++ .finish 1 ::
                  .begin (.refresh {} ⟨32, "third"⟩ "second") :: List.replicate 11 (.act 3))).map
              fun s'' =>
                (s.next, (s.db.tokenOf plainSettings.tokens "first").map AuthRefreshToken.familyId,
                  s'.next, (s''.visits 3).map (fun v => (v.label, v.script.result)),
                  (s''.db.tokenOf plainSettings.tokens "second").map
                    AuthRefreshToken.familyId)) =
      some (2, some 10, 3, some (.refresh {} ⟨32, "third"⟩ "second", some (.ok ())), some 10) := rfl

/-- **A refresh in flight outlives the sign-out**: its successor is of the family, and live. -/
theorem refresh_outlives_signOut : ¬ ∀ (s s' : PortalDesk plainSettings)
    (r : SessionRequest plainSettings) (accessToken : AccessTokenPayload) (f : UUID),
    Desk.Run SessionRequest.body StartsNew (PortalDesk.opening plainSettings sampleWorld 0) s →
      SignedOut StartsNew s s' r accessToken f →
        ∀ s'', Desk.Run SessionRequest.body StartsNew s' s'' → RefreshesRefused f s' s'' := by
  intro hfinal
  obtain ⟨s, h, hrest⟩ := Option.bind_eq_some_iff.mp outlives_turns
  obtain ⟨s₁, h₁, hrest⟩ := Option.bind_eq_some_iff.mp hrest
  obtain ⟨s₂, h₂, hrest⟩ := Option.bind_eq_some_iff.mp hrest
  obtain ⟨s', h', hrest⟩ := Option.bind_eq_some_iff.mp hrest
  obtain ⟨s'', h'', hrest⟩ := Option.map_eq_some_iff.mp hrest
  simp only [Prod.mk.injEq, Option.map_eq_some_iff (f := fun v => (Visit.label v, _))] at hrest
  obtain ⟨hnext, hfirst, hnext', ⟨v, hv, hlabel, hresult⟩, hsecond⟩ := hrest
  have hsigned : SignedOut StartsNew s s' sampleSignOut sampleAccess 10 :=
    ⟨signsOut_sample hfirst, s₁, s₂, h₁, .of_checkedReplay .refl h₂, startsNew_finish, hnext ▸ h'⟩
  have hrefused := hfinal s s' _ _ _ (.of_checkedReplay .refl h) hsigned s''
    (.of_checkedReplay .refl h'')
  refine hrefused 3 v "second" (Nat.le_of_eq hnext') hv ?_ (Option.map_eq_some_iff.mp hsecond)
    hresult
  rw [hlabel]
  rfl

end Sample

end NewlifeCore.Auth
