import NewlifeCore.Auth.Sessions
import NewlifeCore.Auth.TokenFamilies

/-!
# Runs of sign-ins, refreshes and sign-outs

Requests are served one after the other, each at one instant, with any time passing in between.
`Portal` keeps, beside the database and Redis, what was started and issued; and the methods of
`RefreshTokenProvider`, run alone, are described by what they make of the stored tokens.
-/

namespace NewlifeCore.Auth

open Txn

/-! ## 1. Requests -/

inductive SessionRequest (settings : AuthSettings)
  | adminLogin (ctx : RequestContext) (draw : LoginDraw) (user : AuthUser)
  | memberLogin (ctx : RequestContext) (draw : LoginDraw) (user : AuthUser) (appCode : String)
  | refresh (ctx : RequestContext) (draw : TokenDraw) (token : String)
  | refreshMember (ctx : RequestContext) (draw : TokenDraw) (token : String)
  | logout (accessToken : settings.jwt.Text) (refreshToken : Option String)
  | logoutMember (accessToken : settings.jwt.Text) (refreshToken : Option String)
  /-- A request to a route of one of the two audiences. -/
  | call (ctx : RequestContext) (isAdmin : Bool) (token : Option settings.jwt.Text)

/-- Who a family of tokens was started for. -/
inductive FamilyStart
  | admin
  | member (appCode : String)
deriving DecidableEq

/-- Between two requests: the stores, the clock, the families started and the access tokens
issued so far. -/
structure Portal (settings : AuthSettings) where
  world : World Db Redis
  clock : Int
  started : List (UUID × FamilyStart) := []
  issued : List settings.jwt.Text := []

variable {settings : AuthSettings}

namespace Portal

/-- What a request that signs in leaves behind. -/
def signedIn (s : Portal settings) (familyId : UUID) (start : FamilyStart)
    (r : Except AuthError (LoginResult settings) × World Db Redis) : Portal settings :=
  match r with
  | (.ok a, w) => { s with
      world := w, started := (familyId, start) :: s.started
      issued := a.token.accessToken :: s.issued }
  | (.error _, w) => { s with world := w }

/-- What a request that refreshes leaves behind. -/
def refreshed (s : Portal settings) (r : Except AuthError (TokenResult settings) × World Db Redis) :
    Portal settings :=
  match r with
  | (.ok a, w) => { s with world := w, issued := a.accessToken :: s.issued }
  | (.error _, w) => { s with world := w }

/-- **One request served.** -/
def serve (s : Portal settings) : SessionRequest settings → Portal settings
  | .adminLogin ctx draw user => s.signedIn draw.familyId .admin
      ((LoginService.completeAdminLogin settings ctx draw user).serve s.world s.clock)
  | .memberLogin ctx draw user appCode => s.signedIn draw.familyId (.member appCode)
      ((LoginService.completeMemberLogin settings ctx draw user appCode).serve s.world s.clock)
  | .refresh ctx draw token => s.refreshed
      ((RefreshTokenService.refreshToken settings ctx draw token).serve s.world s.clock)
  | .refreshMember ctx draw token => s.refreshed
      ((RefreshTokenService.refreshMemberToken settings ctx draw token).serve s.world s.clock)
  | .logout accessToken refreshToken => { s with world :=
      ((RefreshTokenService.logout settings accessToken refreshToken).serve s.world s.clock).2 }
  | .logoutMember accessToken refreshToken => { s with world :=
      ((RefreshTokenService.logoutMember settings accessToken refreshToken).serve
        s.world s.clock).2 }
  | .call ctx isAdmin token => { s with world :=
      ((AuthMiddleware.authenticate settings ctx isAdmin token).serve s.world s.clock).2 }

theorem signedIn_world (s : Portal settings) (familyId : UUID) (start : FamilyStart)
    (r : Except AuthError (LoginResult settings) × World Db Redis) :
    (s.signedIn familyId start r).world = r.2 := by
  obtain ⟨_ | _, w⟩ := r <;> rfl

theorem refreshed_world (s : Portal settings)
    (r : Except AuthError (TokenResult settings) × World Db Redis) :
    (s.refreshed r).world = r.2 := by
  obtain ⟨_ | _, w⟩ := r <;> rfl

end Portal

/-- **The runs whose requests all meet `ok`**, step added at the end. -/
inductive PortalRun (ok : Portal settings → SessionRequest settings → Prop) (s₀ : Portal settings) :
    Portal settings → Prop
  | refl : PortalRun ok s₀ s₀
  | tick {s} (t : Int) : PortalRun ok s₀ s → s.clock ≤ t → PortalRun ok s₀ { s with clock := t }
  | serve {s} (r : SessionRequest settings) : PortalRun ok s₀ s → ok s r →
      PortalRun ok s₀ (s.serve r)

/-! ## 2. What the methods make of the stored tokens, run alone -/

variable {tokens : TokenSettings} {ctx : RequestContext} {db db' : Db} {t : Int}

open Prog in
theorem exec_issue {draw : TokenDraw} {userId deviceId familyId : UUID} {token : String}
    (h : (RefreshTokenProvider.issue tokens ctx draw userId deviceId familyId).exec db t =
      .ok (token, db')) :
    ∃ row : AuthRefreshToken, db'.refreshTokens = db.refreshTokens ++ [row] ∧
      row.familyId = familyId ∧ row.parentId = none ∧ row.Live ∧
        ∀ r ∈ db.refreshTokens, r.id ≠ row.id := by
  obtain ⟨n, db₁, hn, h⟩ := exec_bind_ok h
  cases hn
  obtain ⟨_, db₂, hu, h⟩ := exec_bind_ok h
  obtain ⟨d, hd, rfl⟩ := exec_executed hu
  cases hd
  obtain ⟨_, db₃, hi, h⟩ := exec_bind_ok h
  obtain ⟨c, hc, rfl⟩ := exec_executed hi
  obtain ⟨rfl, hfresh⟩ := insert_fresh hc
  cases h
  exact ⟨_, rfl, rfl, rfl, ⟨rfl, rfl⟩, hfresh⟩

/-- The rows of a family after its revocation. -/
def revokedFamily (familyId : UUID) (now : Int) (reason : String) (r : AuthRefreshToken) :
    AuthRefreshToken :=
  if r.familyId = familyId then RefreshTokenProvider.revokeRow now reason r else r

open Prog in
theorem exec_revokeFamily (db : Db) (t : Int) (familyId : UUID) (reason : String) :
    ∃ d, (RefreshTokenProvider.revokeFamily familyId reason).exec db t = .ok ((), d) ∧
      d.refreshTokens = db.refreshTokens.map (revokedFamily familyId t reason) := by
  refine ⟨_, rfl, ?_⟩
  refine (congrArg Db.refreshTokens (Table.update_self refreshTokenTable)).trans ?_
  refine List.map_congr_left fun r _ => ?_
  simp [revokedFamily]

/-- **What one rotation does alone.** -/
inductive SerialRotation (tokens : TokenSettings) (token : String) (draw : TokenDraw) (t : Int)
    (db : Db) : RotateResult → Db → Prop
  | reused (rt : AuthRefreshToken) (stored : db.tokenOf tokens token = some rt)
      (unrevoked : rt.revokedAt = none) (unexpired : t ≤ rt.expiresAt)
      (replaced : rt.replacedById.isSome = true) (d : Db)
      (revokes : d.refreshTokens =
        db.refreshTokens.map (revokedFamily rt.familyId t "Refresh token reused")) :
      SerialRotation tokens token draw t db .reused d
  | rotated (rt row : AuthRefreshToken) (stored : db.tokenOf tokens token = some rt)
      (live : rt.Live) (unexpired : t ≤ rt.expiresAt)
      (fresh : ∀ r ∈ db.refreshTokens, r.id ≠ row.id) (parent : row.parentId = some rt.id)
      (family : row.familyId = rt.familyId) (user : row.userId = rt.userId) (new : row.Live)
      (d : Db) (tokens' : d.refreshTokens =
        (db.refreshTokens ++ [row]).map (replacedIf rt.id row.id t)) :
      SerialRotation tokens token draw t db (.rotated draw.token row) d

open Prog in
theorem exec_rotateRow {draw : TokenDraw} {token : String} {rt : AuthRefreshToken}
    {result : RotateResult} (hrt : db.tokenOf tokens token = some rt) (hrev : rt.revokedAt = none)
    (hexp : t ≤ rt.expiresAt)
    (h : (RefreshTokenProvider.rotateRow tokens ctx draw rt t).exec db t = .ok (result, db')) :
    SerialRotation tokens token draw t db result db' := by
  unfold RefreshTokenProvider.rotateRow at h
  by_cases hrep : rt.replacedById.isSome = true
  · rw [if_pos hrep] at h
    obtain ⟨_, db₁, h₁, h⟩ := exec_bind_ok h
    obtain ⟨d, hd, hmap⟩ := exec_revokeFamily db t rt.familyId "Refresh token reused"
    rw [hd] at h₁
    cases h₁
    cases h
    exact .reused rt hrt hrev hexp hrep _ hmap
  · rw [if_neg hrep] at h
    have hlive : rt.Live := ⟨hrev, by simpa using hrep⟩
    have hmem : rt ∈ db.refreshTokens := List.mem_of_find?_eq_some hrt
    obtain ⟨_, db₁, hu, h⟩ := exec_bind_ok h
    obtain ⟨c, hc, rfl⟩ := exec_executed hu
    cases hc
    obtain ⟨_, db₂, hi, h⟩ := exec_bind_ok h
    obtain ⟨c, hc, rfl⟩ := exec_executed hi
    obtain ⟨rfl, hfresh⟩ := insert_fresh hc
    obtain ⟨_, db₃, hm, h⟩ := exec_bind_ok h
    obtain ⟨c, hc, rfl⟩ := exec_executed hm
    cases hc
    cases h
    refine .rotated rt _ hrt hlive hexp hfresh rfl rfl rfl ⟨rfl, rfl⟩ _ ?_
    exact markReplaced_apply ⟨rt, List.mem_append_left _ hmem, rfl⟩ _

open Prog in
theorem exec_rotate {draw : TokenDraw} {token : String} {result : RotateResult}
    (h : (RefreshTokenProvider.rotate tokens ctx draw token).exec db t = .ok (result, db')) :
    SerialRotation tokens token draw t db result db' := by
  obtain ⟨n, db₁, hn, h⟩ := exec_bind_ok h
  cases hn
  obtain ⟨x, db₁, hx, h⟩ := exec_bind_ok h
  have hread : x = db.tokenOf tokens token ∧ db₁ = db := by
    cases hx
    exact ⟨rfl, rfl⟩
  obtain ⟨rfl, rfl⟩ := hread
  cases hrt : db₁.tokenOf tokens token with
  | none =>
    rw [hrt] at h
    cases h
  | some rt =>
    rw [hrt] at h
    dsimp only at h
    by_cases hbad : (rt.revokedAt.isSome || decide (t > rt.expiresAt)) = true
    · rw [if_pos hbad] at h
      cases h
    · rw [if_neg hbad] at h
      have hgood : rt.revokedAt = none ∧ t ≤ rt.expiresAt := by simpa using hbad
      exact exec_rotateRow hrt hgood.1 hgood.2 h

/-- What `revoke_by_token` with its family does alone. -/
theorem exec_revokeByToken (tokens : TokenSettings) (db : Db) (t : Int) (token : String) :
    ∃ found d, (RefreshTokenProvider.revokeByToken tokens token true).exec db t = .ok (found, d) ∧
      found = (db.tokenOf tokens token).isSome ∧
      match db.tokenOf tokens token with
      | none => d = db
      | some rt => d.refreshTokens = db.refreshTokens.map (revokedFamily rt.familyId t "Logout") := by
  have hread : ∀ x, db.tokenOf tokens token = x → ∃ found d,
      ((match x with
        | none => pure false
        | some rt => do
          if true then RefreshTokenProvider.revokeFamily rt.familyId "Logout"
          else RefreshTokenProvider.revokeById rt.id
          pure true : AuthProg Bool)).exec db t = .ok (found, d) ∧ found = x.isSome ∧
      match x with
      | none => d = db
      | some rt => d.refreshTokens = db.refreshTokens.map (revokedFamily rt.familyId t "Logout") := by
    intro x _
    cases x with
    | none => exact ⟨false, db, rfl, rfl, rfl⟩
    | some rt =>
      obtain ⟨d, hd, hmap⟩ := exec_revokeFamily db t rt.familyId "Logout"
      exact ⟨true, d, Prog.exec_seq hd, rfl, hmap⟩
  exact hread _ rfl

/-- What `update_last_login_at` does alone: nothing to the tokens. -/
theorem exec_updateLastLoginAt {userId : UUID} {now : Int} {u : Unit}
    (h : (UserRepository.updateLastLoginAt userId now).exec db t = .ok (u, db')) :
    db'.refreshTokens = db.refreshTokens := by
  obtain ⟨c, hc, rfl⟩ := Prog.exec_executed h
  cases hc
  rfl

/-- The accounts are what they were. -/
def SameAccounts (db db' : Db) : Prop := db'.users = db.users ∧ db'.userProfiles = db.userProfiles

theorem rotate_accounts {draw : TokenDraw} {token : String} :
    (RefreshTokenProvider.rotate tokens ctx draw token).Writes SameAccounts := by
  refine Prog.Writes.bind (fun now => ?_) (.readOnly .now)
  refine Prog.Writes.bind (fun x => ?_) (.readOnly (.select _))
  cases x with
  | none => trivial
  | some rt =>
    dsimp only
    split
    · trivial
    · unfold RefreshTokenProvider.rotateRow
      split
      · refine Prog.Writes.bind (fun _ => .readOnly (.ret _)) ?_
        refine Prog.Writes.bind (fun now => ?_) (.readOnly .now)
        exact .execute fun db c h => by cases h; exact ⟨rfl, rfl⟩
      · refine Prog.Writes.bind (fun _ => ?_) (.execute fun db c h => by cases h; exact ⟨rfl, rfl⟩)
        refine Prog.Writes.bind (fun _ => ?_) (.execute fun db c h => ?_)
        · refine Prog.Writes.bind (fun _ => .readOnly (.ret _)) ?_
          exact .execute fun db c h => by cases h; exact ⟨rfl, rfl⟩
        · obtain ⟨rfl, -⟩ := insert_fresh h
          exact ⟨rfl, rfl⟩

theorem exec_rotate_accounts {draw : TokenDraw} {token : String} {result : RotateResult}
    (h : (RefreshTokenProvider.rotate tokens ctx draw token).exec db t = .ok (result, db')) :
    SameAccounts db db' :=
  rotate_accounts.exec (fun _ => ⟨rfl, rfl⟩) (fun h₁ h₂ => ⟨h₂.1.trans h₁.1, h₂.2.trans h₁.2⟩) h

end NewlifeCore.Auth
