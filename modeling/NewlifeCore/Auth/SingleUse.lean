import NewlifeCore.Auth.TokenFamilies
import NewlifeCore.Txn.Serving

/-!
# Refresh tokens are single use

Any number of `issue`, `rotate`, `revoke_family` and `revoke_by_token` calls, statement by
statement.  Rotation reads a token, inserts its successor and marks it replaced without locking or
guarding anything, so what the families keep depends on what was committed meanwhile:
`TokenCall.Fits` is what has to be true at each commit, and `tokenOutline` the proof that it is
enough.

* §2 follows each call to the point where it can commit, while others commit around it.  All that it
  relies on is that the families evolve (`tokenRely`); what it has done by then is `TokenCall.Done`,
  with what it read at its beginning kept apart from what it writes (`rotate_wp`,
  `revokeByToken_wp`, `issue_wp`).
* §3 compares that with the committed tokens at the commit.  A revocation that holds the rows of the
  whole family revokes it as a whole (`Revokes.family`), a rotation whose token is still live marks
  it once; so `TokenCall.evolves`, one lemma for all calls, and the outline is complete.
* §4: the four parts of `SingleUse` are read off two committed states of a run, the first of them
  when the call was served.  A live token has at most one successor since replaced tokens stay
  replaced (`run_evolves`), and a family that was revoked stays revoked (`served_revokes`,
  `served_reuse`).
-/

namespace NewlifeCore.Auth

open Txn Prog

/-! ## 1. The calls -/

inductive TokenOperation
  | issue (userId deviceId familyId : UUID)
  | rotate (token : String)
  | revokeFamily (familyId : UUID) (reason : String)
  | revokeByToken (token : String) (family : Bool)

/-- One call: who makes it, what it draws and what it does. -/
structure TokenCall where
  ctx : RequestContext := {}
  draw : TokenDraw
  operation : TokenOperation

/-- A call whose token is refused is answered, without having written anything; any other
exception leaves its transaction to be rolled back. -/
def answered {α : Type} (p : AuthProg α) : AuthProg Unit :=
  (p.bind fun _ => ret ()).tryCatch fun
    | .refreshTokenInvalid _ => ret ()
    | e => raise e

variable (settings : TokenSettings)

def TokenCall.body (call : TokenCall) : AuthProg Unit :=
  match call.operation with
  | .issue userId deviceId familyId =>
    answered (RefreshTokenProvider.issue settings call.ctx call.draw userId deviceId familyId)
  | .rotate token => answered (RefreshTokenProvider.rotate settings call.ctx call.draw token)
  | .revokeFamily familyId reason => answered (RefreshTokenProvider.revokeFamily familyId reason)
  | .revokeByToken token family =>
    answered (RefreshTokenProvider.revokeByToken settings token family)

/-- The rows held are those of all tokens of the family. -/
def Db.HoldsFamily (db : Db) (held : List RowName) (familyId : UUID) : Prop :=
  ∀ r ∈ db.refreshTokens, r.familyId = familyId → RowName.refreshToken r.id ∈ held

/-- **What has to be true when a call commits**, of the committed tokens and the rows it holds: a
new family is new, a token that was replaced is still live, a family that was revoked got no token
since, and a token revoked alone was never replaced. -/
def TokenCall.Fits (call : TokenCall) (db : Db) (held : List RowName) : Prop :=
  match call.operation with
  | .issue _ _ familyId => ∀ r ∈ db.refreshTokens, r.familyId ≠ familyId
  | .rotate token => ∀ r ∈ db.tokenOf settings token,
      if RowName.refreshToken call.draw.id ∈ held then r.Live
      else held = [] ∨ db.HoldsFamily held r.familyId
  | .revokeFamily familyId _ => db.HoldsFamily held familyId
  | .revokeByToken token true => ∀ r ∈ db.tokenOf settings token,
      held = [] ∨ db.HoldsFamily held r.familyId
  | .revokeByToken token false => ∀ r ∈ db.tokenOf settings token,
      held = [] ∨ r.replacedById = none ∨ db.FamilyRevoked r.familyId

instance (db : Db) (held : List RowName) (familyId : UUID) :
    Decidable (db.HoldsFamily held familyId) :=
  inferInstanceAs (Decidable (∀ r ∈ db.refreshTokens, r.familyId = familyId →
    RowName.refreshToken r.id ∈ held))

instance (call : TokenCall) (db : Db) (held : List RowName) :
    Decidable (call.Fits settings db held) :=
  match call with
  | ⟨_, _, .issue _ _ familyId⟩ =>
    inferInstanceAs (Decidable (∀ r ∈ db.refreshTokens, r.familyId ≠ familyId))
  | ⟨_, draw, .rotate token⟩ =>
    inferInstanceAs (Decidable (∀ r ∈ db.tokenOf settings token,
      if RowName.refreshToken draw.id ∈ held then r.Live
      else held = [] ∨ db.HoldsFamily held r.familyId))
  | ⟨_, _, .revokeFamily familyId _⟩ =>
    inferInstanceAs (Decidable (db.HoldsFamily held familyId))
  | ⟨_, _, .revokeByToken token true⟩ =>
    inferInstanceAs (Decidable (∀ r ∈ db.tokenOf settings token,
      held = [] ∨ db.HoldsFamily held r.familyId))
  | ⟨_, _, .revokeByToken token false⟩ =>
    inferInstanceAs (Decidable (∀ r ∈ db.tokenOf settings token,
      held = [] ∨ r.replacedById = none ∨ db.FamilyRevoked r.familyId))

abbrev TokenSys := Sys Db RowName Empty AuthError TokenCall

/-- Every call fits when it commits. -/
def TokensFit (s : TokenSys) (a : Action TokenCall) : Prop :=
  ∀ i pre tx post, a = .commit i → focus s.txs i = some (pre, tx, post) →
    tx.label.Fits settings s.db tx.rows

/-- The same, to be evaluated. -/
def tokensFit (s : TokenSys) : Action TokenCall → Bool
  | .commit i => (focus s.txs i).all fun (_, tx, _) => tx.label.Fits settings s.db tx.rows
  | _ => true

theorem TokensFit.of_eval {s : TokenSys} {a : Action TokenCall}
    (h : tokensFit settings s a = true) : TokensFit settings s a := by
  rintro i pre tx post rfl hf
  simpa [tokensFit, hf] using h

/-! ## 2. What a call has done when it can commit -/

/-- The others make the families evolve. -/
def tokenRely : Rely Db Empty where
  rel _ db t db' t' := Evolves db db' ∧ t ≤ t'
  refl _ db t := ⟨.refl db, le_refl t⟩
  trans h₁ h₂ := ⟨h₁.1.trans h₂.1, le_trans h₁.2 h₂.2⟩
  tick _ db _ _ h := ⟨.refl db, h⟩
  mono _ h := h

abbrev TokenView := View Db RowName Empty

variable {settings}

/-- A revocation of the rows that a clause matched and that are held. -/
def revokedAmong (p : AuthRefreshToken → Bool) (held : List RowName) (now : Int) (reason : String)
    (r : AuthRefreshToken) : AuthRefreshToken :=
  if p r && held.contains (.refreshToken r.id) then RefreshTokenProvider.revokeRow now reason r
  else r

theorem revokedAmong_revocation (p : AuthRefreshToken → Bool) (held : List RowName) (now : Int)
    (reason : String) (r : AuthRefreshToken) :
    Revocation r (revokedAmong p held now reason r) := by
  unfold revokedAmong
  split
  · exact revokeRow_revocation now reason r
  · exact .refl r

theorem revokedAmong_isSome {p : AuthRefreshToken → Bool} {held : List RowName} {now : Int}
    {reason : String} {r : AuthRefreshToken} (hp : p r = true)
    (hheld : RowName.refreshToken r.id ∈ held) :
    (revokedAmong p held now reason r).revokedAt.isSome = true := by
  rw [revokedAmong, if_pos (by rw [hp, List.contains_iff_mem.mpr hheld]; rfl)]
  rfl

theorem revokedAmong_new {p : AuthRefreshToken → Bool} {held : List RowName} {now : Int}
    {reason : String} {r : AuthRefreshToken} (hold : r.revokedAt = none)
    (h : (revokedAmong p held now reason r).revokedAt.isSome = true) : p r = true := by
  unfold revokedAmong at h
  split at h
  · exact (Bool.and_eq_true_iff.mp ‹_›).1
  · rw [hold] at h
    cases h

/-- The transaction revoked what `p` matched, and nothing else. -/
def Revokes (p : AuthRefreshToken → Bool) (w : TokenView) : Prop :=
  ∃ now reason, ∀ db : Db,
    (w.own db).refreshTokens = db.refreshTokens.map (revokedAmong p w.rows now reason)

/-- The transaction wrote nothing. -/
def Untouched (w : TokenView) : Prop := w.own = id ∧ w.rows = []

/-- **What a rotation has done** when it can commit, begun in `v`. -/
inductive Rotated (settings : TokenSettings) (token : String) (newId : UUID) (v w : TokenView) : Prop
  /-- The token was unknown, revoked or expired. -/
  | refused (untouched : Untouched w)
      (why : ∀ r, v.db.tokenOf settings token = some r → ∃ r',
        w.db.tokenOf settings token = some r' ∧
          (r'.revokedAt.isSome = true ∨ r'.expiresAt < w.clock))
  /-- It had been replaced, and its family was revoked. -/
  | reused (rt : AuthRefreshToken) (stored : w.db.tokenOf settings token = some rt)
      (replaced : rt.replacedById.isSome = true) (held : RowName.refreshToken rt.id ∈ w.rows)
      (revokes : Revokes (fun r => r.familyId = rt.familyId) w)
  /-- It was neither, and has a successor. -/
  | replaced (rt row : AuthRefreshToken) (now : Int)
      (stored : w.db.tokenOf settings token = some rt)
      (was : ∀ r, v.db.tokenOf settings token = some r → r.replacedById = none)
      (own : ∀ db : Db, (w.own db).refreshTokens =
        (db.refreshTokens ++ [row]).map (replacedIf rt.id row.id now))
      (id : row.id = newId) (parent : row.parentId = some rt.id)
      (family : row.familyId = rt.familyId) (live : row.Live)
      (fresh : ∀ r ∈ w.db.refreshTokens, r.id ≠ row.id)
      (held : RowName.refreshToken newId ∈ w.rows)

/-- What an issue has done. -/
structure Issued (familyId : UUID) (w : TokenView) (row : AuthRefreshToken) : Prop where
  own : ∀ db : Db, (w.own db).refreshTokens = db.refreshTokens ++ [row]
  family : row.familyId = familyId
  parent : row.parentId = none
  live : row.Live
  fresh : ∀ r ∈ w.db.refreshTokens, r.id ≠ row.id

/-- What `revoke_by_token` revokes: the family of the token, or the token alone. -/
def sameToken : Bool → AuthRefreshToken → AuthRefreshToken → Bool
  | true, rt, r => r.familyId = rt.familyId
  | false, rt, r => r.id = rt.id

/-- What `revoke_by_token` has done: nothing to a token that was not there. -/
def RevokedBy (settings : TokenSettings) (token : String)
    (p : AuthRefreshToken → AuthRefreshToken → Bool) (v w : TokenView) : Prop :=
  (Untouched w ∧ v.db.tokenOf settings token = none) ∨
    ∃ rt, w.db.tokenOf settings token = some rt ∧ RowName.refreshToken rt.id ∈ w.rows ∧
      Revokes (p rt) w

/-- What a call has done when it can commit. -/
def TokenCall.Done (settings : TokenSettings) (call : TokenCall) (v w : TokenView) : Prop :=
  match call.operation with
  | .issue _ _ familyId => ∃ row, Issued familyId w row
  | .rotate token => Rotated settings token call.draw.id v w
  | .revokeFamily familyId _ => Revokes (fun r => r.familyId = familyId) w
  | .revokeByToken token family => RevokedBy settings token (sameToken family) v w

theorem Untouched.seen {v : TokenView} (h : Untouched v) : v.seen = v.db := by
  rw [View.seen, h.1]
  rfl

theorem Untouched.env {v w : TokenView} (h : Untouched v) (hw : Env tokenRely v w) :
    Untouched w := ⟨hw.own.trans h.1, hw.rows.trans h.2⟩

/-- Nobody else stores a row under a name that is held. -/
theorem fresh_locked {db db' : Db} {id : UUID}
    (hrow : RowStore.row db' (RowName.refreshToken id) = RowStore.row db (RowName.refreshToken id))
    (h : ∀ r ∈ db.refreshTokens, r.id ≠ id) : ∀ r ∈ db'.refreshTokens, r.id ≠ id := by
  have hnone : db.refreshTokens.filter (fun r => RowName.refreshToken r.id = .refreshToken id) =
      [] := by
    rw [List.filter_eq_nil_iff]
    intro r hr
    simpa using h r hr
  have hnone' := RowContent.refreshTokens.inj hrow
  rw [hnone, List.filter_eq_nil_iff] at hnone'
  intro r hr
  simpa using hnone' r hr

theorem revokes_wp (p : AuthRefreshToken → Bool) (reason : String) {v : TokenView}
    (hv : Untouched v) :
    wp tokenRely (answered (now.bind fun n => execute fun db => .ok (refreshTokenTable.update p
      (RefreshTokenProvider.revokeRow n reason) (fun _ => rfl) db)))
      (fun _ w => Revokes p w ∧ ∃ db, Evolves v.db db ∧ Evolves db w.db ∧
        w.rows = refreshTokenTable.matching p db) v := by
  intro v₁ h₁ v₂ h₂ _ c hc v₃ h₃ _ _ w hw
  have hv₂ := (hv.env h₁).env h₂
  obtain ⟨hown, hrows⟩ := hv₂.env h₃
  cases hc
  have hheld : w.rows = refreshTokenTable.matching p v₂.db := by
    rw [hw.rows]
    show refreshTokenTable.matching p v₂.seen ++ v₃.rows = _
    rw [hrows, hv₂.seen, List.append_nil]
  refine ⟨⟨v₁.clock, reason, fun db => ?_⟩, v₂.db, h₁.rel.1.trans h₂.rel.1,
    h₃.rel.1.trans hw.rel.1, hheld⟩
  rw [hw.own, hheld]
  show ((refreshTokenTable.update p (RefreshTokenProvider.revokeRow v₁.clock reason)
    (fun _ => rfl) v₂.seen).apply (v₃.own db)).refreshTokens = _
  rw [hown, hv₂.seen]
  rfl

theorem revokedBy_wp {p : AuthRefreshToken → AuthRefreshToken → Bool} {token : String}
    {rt : AuthRefreshToken} {v v₁ : TokenView} (hv : Untouched v₁)
    (hrt : v₁.db.tokenOf settings token = some rt) (hself : ∀ r, TokenKept rt r → p rt r = true)
    (hkept : ∀ r, TokenKept rt r → p r = p rt) :
    wp tokenRely (answered (now.bind fun n => execute fun db => .ok (refreshTokenTable.update (p rt)
      (RefreshTokenProvider.revokeRow n "Logout") (fun _ => rfl) db)))
      (fun _ => RevokedBy settings token p v) v₁ := by
  refine wp_mono (fun _ w hw => ?_) (revokes_wp _ _ hv)
  obtain ⟨hrevokes, db, hdb, hdbw, hheld⟩ := hw
  obtain ⟨r₁, hr₁, hk₁⟩ := hdb.tokenOf hrt
  obtain ⟨r₂, hr₂, hk₂⟩ := hdbw.tokenOf hr₁
  refine .inr ⟨r₂, hr₂, ?_, (hkept r₂ (hk₁.trans hk₂)).symm ▸ hrevokes⟩
  rw [hheld, hk₂.id]
  exact refreshTokenTable.mem_matching (List.mem_of_find?_eq_some hr₁) (hself r₁ hk₁)

theorem revokeByToken_wp {family : Bool} {token : String} {v : TokenView} (hv : Untouched v) :
    wp tokenRely (answered (RefreshTokenProvider.revokeByToken settings token family))
      (fun _ => RevokedBy settings token (sameToken family) v) v := by
  intro v₁ h₁
  have hv₁ := hv.env h₁
  have hread : v₁.seen.tokenOf settings token = v₁.db.tokenOf settings token := by rw [hv₁.seen]
  -- what the rest of the method does depends on the row that was read
  change wp tokenRely (answered ((ret (v₁.seen.tokenOf settings token)).bind _)) _ v₁
  rw [hread]
  cases hx : v₁.db.tokenOf settings token with
  | none =>
    intro w hw
    refine .inl ⟨hv₁.env hw, ?_⟩
    cases hr : v.db.tokenOf settings token with
    | none => rfl
    | some r =>
      obtain ⟨r', hr', -⟩ := h₁.rel.1.tokenOf hr
      rw [hx] at hr'
      cases hr'
  | some rt =>
    have hself : ∀ r, TokenKept rt r → sameToken family rt r = true := by
      intro r hk
      cases family
      · exact decide_eq_true hk.id
      · exact decide_eq_true hk.familyId
    have hkept : ∀ r, TokenKept rt r → sameToken family r = sameToken family rt := by
      intro r hk
      funext q
      cases family <;> simp [sameToken, hk.id, hk.familyId]
    cases family
    · exact revokedBy_wp hv₁ hx hself hkept
    · exact revokedBy_wp hv₁ hx hself hkept

theorem issue_wp {ctx : RequestContext} {draw : TokenDraw} {userId deviceId familyId : UUID}
    {v : TokenView} (hv : Untouched v) :
    wp tokenRely (answered (RefreshTokenProvider.issue settings ctx draw userId deviceId familyId))
      (fun _ w => ∃ row, Issued familyId w row) v := by
  intro v₁ h₁ v₂ h₂ _ c hc v₃ h₃ _ _ v₄ h₄ _ d hd v₅ h₅ d' hd' w hw
  cases hc
  have hv₃ := ((hv.env h₁).env h₂).env h₃
  have hown : ∀ db : Db, (v₅.own db).refreshTokens = db.refreshTokens := by
    intro db
    rw [h₅.own, h₄.own]
    have hid := congrArg Db.refreshTokens (congrFun hv₃.1 db)
    exact hid
  obtain ⟨rfl, -⟩ := insert_fresh hd
  obtain ⟨-, hfresh⟩ := insert_fresh hd'
  refine ⟨{
    id := draw.id, userId, deviceId, familyId, tokenHash := settings.hashToken draw.token
    expiresAt := v₁.clock + settings.ttl, lastUsedAt := v₁.clock, ip := ctx.ip
    userAgent := ctx.userAgent }, fun db => ?_, rfl, rfl, ⟨rfl, rfl⟩, ?_⟩
  · rw [hw.own]
    show (v₅.own db).refreshTokens ++ [_] = _
    rw [hown]
  · refine fresh_locked (hw.locked _ (by simp [View.change, refreshTokenTable, Table.insert])) ?_
    intro r hr
    exact hfresh r ((hown v₅.db).symm ▸ hr)

theorem rotateRow_wp {ctx : RequestContext} {draw : TokenDraw} {token : String} {now : Int}
    {rt : AuthRefreshToken} {v v₁ : TokenView} (hv : Untouched v₁)
    (hrt : v₁.db.tokenOf settings token = some rt)
    (hwas : ∀ r, v.db.tokenOf settings token = some r → TokenKept r rt) :
    wp tokenRely (answered (RefreshTokenProvider.rotateRow settings ctx draw rt now))
      (fun _ => Rotated settings token draw.id v) v₁ := by
  unfold RefreshTokenProvider.rotateRow
  by_cases hrep : rt.replacedById.isSome = true
  · rw [if_pos hrep]
    refine wp_mono (fun _ w hw => ?_) (revokes_wp (fun r => r.familyId = rt.familyId)
      "Refresh token reused" hv)
    obtain ⟨hrevokes, db, hdb, hdbw, hheld⟩ := hw
    obtain ⟨r₁, hr₁, hk₁⟩ := hdb.tokenOf hrt
    obtain ⟨r₂, hr₂, hk₂⟩ := hdbw.tokenOf hr₁
    have hk := hk₁.trans hk₂
    obtain ⟨x, hx⟩ := Option.isSome_iff_exists.mp hrep
    refine .reused r₂ hr₂ (by rw [hk.replaced x hx]; rfl) ?_ (hk.familyId ▸ hrevokes)
    rw [hheld, hk₂.id]
    exact refreshTokenTable.mem_matching (List.mem_of_find?_eq_some hr₁)
      (decide_eq_true hk₁.familyId)
  · rw [if_neg hrep]
    intro v₂ h₂ _ c hc v₃ h₃ _ _ v₄ h₄ _ d hd v₅ h₅ d' hd' v₆ h₆ _ e he v₇ h₇ _ _ w hw
    cases hc
    cases he
    obtain ⟨rfl, -⟩ := insert_fresh hd
    obtain ⟨-, hfresh⟩ := insert_fresh hd'
    have hv₃ := (hv.env h₂).env h₃
    have hown₅ : ∀ db : Db, (v₅.own db).refreshTokens = db.refreshTokens := by
      intro db
      rw [h₅.own, h₄.own]
      have hid := congrArg Db.refreshTokens (congrFun hv₃.1 db)
      exact hid
    have hown₆ : ∀ db : Db, (v₆.own db).refreshTokens = db.refreshTokens ++
        [RefreshTokenProvider.successor settings ctx draw rt now] := by
      intro db
      rw [h₆.own]
      show (v₅.own db).refreshTokens ++ [_] = _
      rw [hown₅]
    have hmem₅ : RowName.refreshToken draw.id ∈ (v₅.change (refreshTokenTable.insert
        [RefreshTokenProvider.successor settings ctx draw rt now])).rows :=
      List.mem_append_left _ (List.mem_singleton_self _)
    have hmem₇ : RowName.refreshToken draw.id ∈ v₇.rows := by
      rw [h₇.rows, h₆.rows]
      exact hmem₅
    have hevol : Evolves v₁.db v₆.db :=
      h₂.rel.1.trans (h₃.rel.1.trans (h₄.rel.1.trans (h₅.rel.1.trans h₆.rel.1)))
    obtain ⟨r₆, hr₆, hk₆⟩ := hevol.tokenOf hrt
    obtain ⟨r₈, hr₈, hk₈⟩ := (h₇.rel.1.trans hw.rel.1).tokenOf hr₆
    have hk := hk₆.trans hk₈
    have hstored : ∃ r ∈ v₆.seen.refreshTokens, r.id = rt.id := by
      refine ⟨r₆, ?_, hk₆.id⟩
      show r₆ ∈ (v₆.own v₆.db).refreshTokens
      rw [hown₆]
      exact List.mem_append_left _ (List.mem_of_find?_eq_some hr₆)
    refine .replaced r₈ (RefreshTokenProvider.successor settings ctx draw rt now) now hr₈
      (fun r hr => ?_) (fun db => ?_) rfl (by rw [hk.id]; rfl) hk.familyId.symm ⟨rfl, rfl⟩ ?_ ?_
    · by_contra hne
      obtain ⟨x, hx⟩ := Option.ne_none_iff_exists'.mp hne
      rw [(hwas r hr).replaced x hx] at hrep
      exact hrep rfl
    · rw [hw.own, hk.id, ← hown₆, ← h₇.own]
      exact markReplaced_apply hstored (v₇.own db)
    · refine fresh_locked (hw.locked _ (List.mem_append_right _ hmem₇)) ?_
      refine fresh_locked (h₇.locked _ (h₇.rows ▸ hmem₇)) ?_
      refine fresh_locked (h₆.locked _ hmem₅) ?_
      intro r hr
      refine hfresh r ?_
      show r ∈ (v₅.own v₅.db).refreshTokens
      rw [hown₅]
      exact hr
    · rw [hw.rows]
      exact List.mem_append_right _ hmem₇

theorem rotate_wp {ctx : RequestContext} {draw : TokenDraw} {token : String} {v : TokenView}
    (hv : Untouched v) :
    wp tokenRely (answered (RefreshTokenProvider.rotate settings ctx draw token))
      (fun _ => Rotated settings token draw.id v) v := by
  intro v₀ h₀ v₁ h₁
  have h₀₁ := h₀.trans h₁
  have hv₁ := hv.env h₀₁
  have hread : v₁.seen.tokenOf settings token = v₁.db.tokenOf settings token := by rw [hv₁.seen]
  have hwas : ∀ r, v.db.tokenOf settings token = some r →
      ∃ r', v₁.db.tokenOf settings token = some r' ∧ TokenKept r r' :=
    fun r hr => h₀₁.rel.1.tokenOf hr
  -- what the rest of the method does depends on the row that was read
  change wp tokenRely (answered ((ret (v₁.seen.tokenOf settings token)).bind _)) _ v₁
  rw [hread]
  cases hx : v₁.db.tokenOf settings token with
  | none =>
    intro w hw
    refine .refused (hv₁.env hw) fun r hr => ?_
    obtain ⟨r', h, -⟩ := hwas r hr
    rw [hx] at h
    cases h
  | some rt =>
    change wp tokenRely (answered (if _ then _ else _)) _ v₁
    by_cases hbad : (rt.revokedAt.isSome || decide (v₀.clock > rt.expiresAt)) = true
    · rw [if_pos hbad]
      intro w hw
      refine .refused (hv₁.env hw) fun _ _ => ?_
      obtain ⟨r', hr', hk⟩ := hw.rel.1.tokenOf hx
      refine ⟨r', hr', (Bool.or_eq_true_iff.mp hbad).imp hk.revoked fun hexp => ?_⟩
      rw [hk.expiresAt]
      exact lt_of_lt_of_le (of_decide_eq_true hexp) (le_trans h₁.clock hw.clock)
    · rw [if_neg hbad]
      refine rotateRow_wp hv₁ hx fun r hr => ?_
      obtain ⟨r', h, hk⟩ := hwas r hr
      rw [hx] at h
      cases h
      exact hk

theorem TokenCall.body_wp (call : TokenCall) {v : TokenView} (hv : Untouched v) :
    wp tokenRely (call.body settings) (fun _ => call.Done settings v) v := by
  obtain ⟨ctx, draw, operation⟩ := call
  cases operation with
  | issue userId deviceId familyId => exact issue_wp hv
  | rotate token => exact rotate_wp hv
  | revokeFamily familyId reason =>
    exact wp_mono (fun _ _ h => h.1) (revokes_wp (fun r => r.familyId = familyId) reason hv)
  | revokeByToken token family => exact revokeByToken_wp hv

/-! ## 3. What its commit makes of the families -/

theorem Untouched.evolves {w : TokenView} (h : Untouched w) : Evolves w.db (w.own w.db) := by
  rw [h.1]
  exact .refl _

/-- A family whose tokens are all held is revoked as a whole. -/
theorem Revokes.family {f : UUID} {w : TokenView} (h : Revokes (fun r => r.familyId = f) w)
    (hheld : w.db.HoldsFamily w.rows f) : Evolves w.db (w.own w.db) ∧
      ∀ r ∈ (w.own w.db).refreshTokens, r.familyId = f → r.revokedAt.isSome = true := by
  obtain ⟨now, reason, hown⟩ := h
  have hall : ∀ r ∈ w.db.refreshTokens, r.familyId = f →
      (revokedAmong (fun r => r.familyId = f) w.rows now reason r).revokedAt.isSome = true :=
    fun r hr hrf => revokedAmong_isSome (decide_eq_true hrf) (hheld r hr hrf)
  refine ⟨.revoke (hown w.db) (revokedAmong_revocation _ _ _ _) ?_, ?_⟩
  · intro r _ hold hnew _ q hq hqf
    have hrf : r.familyId = f := of_decide_eq_true (revokedAmong_new hold hnew)
    exact hall q hq (hqf.trans hrf)
  · intro r hr hrf
    rw [hown] at hr
    obtain ⟨q, hq, rfl⟩ := List.mem_map.mp hr
    exact hall q hq ((revokedAmong_revocation _ _ _ _ q).familyId.symm.trans hrf)

/-- A token revoked alone was not replaced, or its family is revoked already. -/
theorem Revokes.token {rt : AuthRefreshToken} {w : TokenView}
    (h : Revokes (fun r => r.id = rt.id) w) (hsound : w.db.SoundFamilies)
    (hrt : rt ∈ w.db.refreshTokens)
    (hfit : rt.replacedById = none ∨ w.db.FamilyRevoked rt.familyId) :
    Evolves w.db (w.own w.db) := by
  obtain ⟨now, reason, hown⟩ := h
  refine .revoke (hown w.db) (revokedAmong_revocation _ _ _ _) ?_
  intro r hr hold hnew hrep q hq hqf
  have hid : r.id = rt.id := of_decide_eq_true (revokedAmong_new hold hnew)
  rw [hsound.eq_of_id hr hrt hid] at hrep hqf
  rcases hfit with hnone | hrevoked
  · rw [hnone] at hrep
    cases hrep
  · exact (revokedAmong_revocation _ _ _ _ q).revoked (hrevoked.revoked q hq hqf)

/-- **A call that fits makes the families evolve.** -/
theorem TokenCall.evolves {call : TokenCall} {v w : TokenView} (hdone : call.Done settings v w)
    (hfit : call.Fits settings w.db w.rows) (hsound : w.db.SoundFamilies) :
    Evolves w.db (w.own w.db) := by
  obtain ⟨ctx, draw, operation⟩ := call
  cases operation with
  | issue userId deviceId familyId =>
    obtain ⟨row, h⟩ := hdone
    exact .issue (h.own w.db) h.fresh (fun r hr => h.family ▸ hfit r hr) h.parent h.live
  | rotate token =>
    cases hdone with
    | refused untouched why => exact untouched.evolves
    | reused rt stored replaced held revokes =>
      have hfit := hfit rt stored
      split at hfit
      · rw [hfit.replacedById] at replaced
        cases replaced
      · exact (revokes.family (hfit.resolve_left (List.ne_nil_of_mem held))).1
    | replaced rt row now stored was own id parent family live fresh held =>
      have hfit := hfit rt stored
      rw [if_pos held] at hfit
      exact .rotate (List.mem_of_find?_eq_some stored) hfit hsound (own w.db) fresh parent family live
  | revokeFamily familyId reason => exact (Revokes.family hdone hfit).1
  | revokeByToken token family =>
    cases family with
    | true =>
      rcases hdone with ⟨untouched, -⟩ | ⟨rt, stored, held, revokes⟩
      · exact untouched.evolves
      · exact (Revokes.family revokes ((hfit rt stored).resolve_left (List.ne_nil_of_mem held))).1
    | false =>
      rcases hdone with ⟨untouched, -⟩ | ⟨rt, stored, held, revokes⟩
      · exact untouched.evolves
      · exact Revokes.token revokes hsound (List.mem_of_find?_eq_some stored)
          ((hfit rt stored).resolve_left (List.ne_nil_of_mem held))

/-- The proof that it is enough for every call to fit when it commits. -/
def tokenOutline (settings : TokenSettings) :
    Outline (ε := AuthError) (TokenCall.body settings) (TokensFit settings) where
  inv db _ _ := db.SoundFamilies
  rely _ := tokenRely
  post call _ w := ∃ v, call.Done settings v w
  tick h _ := h
  runs _ _ := wp_mono (fun _ _ h => ⟨_, h⟩) (TokenCall.body_wp _ ⟨rfl, rfl⟩)
  commit {s i pre tx post s'} hok hs hf _ hinv hpost := by
    obtain ⟨v, hdone⟩ := hpost
    have hevolves : Evolves s.db (tx.own s.db) :=
      TokenCall.evolves (w := tx.view s.db s.clock) hdone (hok i pre tx post rfl hf) hinv
    obtain ⟨pre', ty, post', u, hf', -, hs'⟩ := step_commit hs
    rw [hf] at hf'
    cases hf'
    subst hs'
    exact ⟨hevolves.sound hinv, fun _ _ => ⟨hevolves, le_refl _⟩⟩

/-! ## 4. Single use -/

/-- The family a call is there to revoke. -/
def TokenCall.revokes (settings : TokenSettings) (call : TokenCall) (db : Db) : Option UUID :=
  match call.operation with
  | .revokeFamily familyId _ => some familyId
  | .revokeByToken token true => (db.tokenOf settings token).map AuthRefreshToken.familyId
  | _ => none

/-- **Refresh tokens are single use** from a state on, in the runs whose steps meet `ok`. -/
structure SingleUse (settings : TokenSettings) (ok : TokenSys → Action TokenCall → Prop)
    (s : TokenSys) : Prop where
  successor : ∀ r ∈ s.db.refreshTokens, ∀ r' ∈ s.db.refreshTokens, ∀ p, r.parentId = some p →
    r'.parentId = some p → r = r'
  live : ∀ r ∈ s.db.refreshTokens, ∀ r' ∈ s.db.refreshTokens, r.familyId = r'.familyId → r.Live →
    r'.Live → r = r'
  /-- A revoked family stays so, and gets no token. -/
  final : ∀ s', Run (TokenCall.body settings) ok s s' → ∀ f, s.db.FamilyRevoked f →
    s'.db.FamilyRevoked f ∧
      (s'.db.family f).map AuthRefreshToken.id = (s.db.family f).map AuthRefreshToken.id
  /-- A revocation revokes the family. -/
  revoke : ∀ call s₁ s₂ f, Served (TokenCall.body settings) ok call s s₁ s₂ →
    call.revokes settings s.db = some f → (∃ r ∈ s.db.refreshTokens, r.familyId = f) →
      s₂.db.FamilyRevoked f
  /-- So does a token that was replaced. -/
  reuse : ∀ call s₁ s₂ token r, Served (TokenCall.body settings) ok call s s₁ s₂ →
    call.operation = .rotate token → s.db.tokenOf settings token = some r →
      r.replacedById.isSome = true → s₁.clock ≤ r.expiresAt → s₂.db.FamilyRevoked r.familyId

theorem run_evolves {s s' : TokenSys} (h : (tokenOutline settings).Holds s)
    (hr : Run (TokenCall.body settings) (TokensFit settings) s s') : Evolves s.db s'.db := by
  induction hr with
  | refl => exact .refl _
  | @tail s₁ s₂ a hr ha hs ih =>
    refine ih.trans ?_
    have hholds := (tokenOutline settings).holds_run h hr
    cases a with
    | commit i =>
      obtain ⟨pre, tx, post, hf, ⟨v, hdone⟩, rfl⟩ := (tokenOutline settings).holds_commit hholds hs
      exact TokenCall.evolves (w := tx.view s₁.db s₁.clock) hdone (ha i pre tx post rfl hf)
        hholds.inv
    | _ =>
      rcases step_cases hs with ⟨t, ha, -, rfl⟩ | ⟨l, ha, rfl⟩ | ⟨i, pre, tx, post, ha, -, -, rfl⟩ |
        ⟨i, pre, tx, post, tx', ha, -, -, rfl⟩ | ⟨i, pre, tx, post, u, ha, -⟩ |
        ⟨i, pre, tx, post, ha, -, rfl⟩
      all_goals first | exact .refl _ | cases ha

/-- What a served call has done, and that it fitted. -/
theorem served_done {call : TokenCall} {s s₁ s₂ : TokenSys} (h : (tokenOutline settings).Holds s)
    (hserved : Served (TokenCall.body settings) (TokensFit settings) call s s₁ s₂) :
    ∃ w : TokenView, w.db = s₁.db ∧ w.clock = s₁.clock ∧ s₂.db = w.own w.db ∧
      call.Done settings (View.fresh s.db s.clock) w ∧ call.Fits settings w.db w.rows ∧
        w.db.SoundFamilies ∧ Evolves s.db w.db := by
  obtain ⟨i, pre, tx, post, hok, hf, rfl, hdone, hdb, -⟩ := (tokenOutline settings).served h hserved
    (TokenCall.body_wp call ⟨rfl, rfl⟩)
  have hr := (hserved.run .refl).1
  exact ⟨tx.view s₁.db s₁.clock, rfl, rfl, hdb, hdone, hok i pre tx post rfl hf,
    ((tokenOutline settings).holds_run h hr).inv, run_evolves h hr⟩

/-- A family is still there after a commit, and revoked when all its tokens are. -/
theorem Evolves.familyRevoked {db db' : Db} (h : Evolves db db') {f : UUID}
    (hstarted : ∃ r ∈ db.refreshTokens, r.familyId = f)
    (hall : ∀ r ∈ db'.refreshTokens, r.familyId = f → r.revokedAt.isSome = true) :
    db'.FamilyRevoked f := by
  obtain ⟨r, hr, hrf⟩ := hstarted
  obtain ⟨r', hr', hk⟩ := h.mem hr
  exact ⟨⟨r', hr', hk.familyId.trans hrf⟩, hall⟩

theorem served_revokes {call : TokenCall} {s s₁ s₂ : TokenSys} {f : UUID}
    (h : (tokenOutline settings).Holds s)
    (hserved : Served (TokenCall.body settings) (TokensFit settings) call s s₁ s₂)
    (hf : call.revokes settings s.db = some f) (hstarted : ∃ r ∈ s.db.refreshTokens, r.familyId = f) :
    s₂.db.FamilyRevoked f := by
  obtain ⟨w, -, -, hdb, hdone, hfit, -, hev⟩ := served_done h hserved
  rw [hdb]
  obtain ⟨ctx, draw, operation⟩ := call
  cases operation with
  | issue userId deviceId familyId => cases hf
  | rotate token => cases hf
  | revokeFamily familyId reason =>
    cases hf
    obtain ⟨hev', hall⟩ := Revokes.family hdone hfit
    exact (hev.trans hev').familyRevoked hstarted hall
  | revokeByToken token family =>
    cases family with
    | false => cases hf
    | true =>
      obtain ⟨r, hr, rfl⟩ := Option.map_eq_some_iff.mp hf
      rcases hdone with ⟨-, hnone⟩ | ⟨rt, stored, held, revokes⟩
      · rw [View.fresh_db, hr] at hnone
        cases hnone
      · obtain ⟨r', hr', hk⟩ := hev.tokenOf hr
        rw [hr'] at stored
        cases stored
        obtain ⟨hev', hall⟩ := Revokes.family revokes
          ((hfit rt hr').resolve_left (List.ne_nil_of_mem held))
        rw [hk.familyId] at hall
        exact (hev.trans hev').familyRevoked hstarted hall

theorem served_reuse {call : TokenCall} {s s₁ s₂ : TokenSys} {token : String}
    {r : AuthRefreshToken} (h : (tokenOutline settings).Holds s)
    (hserved : Served (TokenCall.body settings) (TokensFit settings) call s s₁ s₂)
    (hcall : call.operation = .rotate token) (hr : s.db.tokenOf settings token = some r)
    (hrep : r.replacedById.isSome = true) (hexp : s₁.clock ≤ r.expiresAt) :
    s₂.db.FamilyRevoked r.familyId := by
  obtain ⟨w, -, hclock, hdb, hdone, hfit, hsound, hev⟩ := served_done h hserved
  obtain ⟨ctx, draw, operation⟩ := call
  cases hcall
  obtain ⟨r', hr', hk⟩ := hev.tokenOf hr
  have hmem : r ∈ s.db.refreshTokens := List.mem_of_find?_eq_some hr
  have hmem' : r' ∈ w.db.refreshTokens := List.mem_of_find?_eq_some hr'
  obtain ⟨x, hx⟩ := Option.isSome_iff_exists.mp hrep
  have hrep' : r'.replacedById.isSome = true := by rw [hk.replaced x hx]; rfl
  rw [hdb]
  cases hdone with
  | refused untouched why =>
    -- a token that was both replaced and revoked has its family revoked already
    obtain ⟨r'', hr'', hwhy⟩ := why r hr
    rw [hr'] at hr''
    cases hr''
    rw [untouched.1]
    rcases hwhy with hrevoked | hexpired
    · exact hk.familyId ▸ hsound.closed r' hmem' hrevoked hrep'
    · rw [hk.expiresAt, hclock] at hexpired
      exact absurd hexp (not_le.mpr hexpired)
  | reused rt stored replaced held revokes =>
    rw [hr'] at stored
    cases stored
    have hfit := hfit r' hr'
    split at hfit
    · rw [hfit.replacedById] at hrep'
      cases hrep'
    · obtain ⟨hev', hall⟩ := revokes.family (hfit.resolve_left (List.ne_nil_of_mem held))
      rw [hk.familyId] at hall
      exact (hev.trans hev').familyRevoked ⟨r, hmem, rfl⟩ hall
  | replaced rt row now stored was own id parent family live fresh held =>
    rw [was r hr] at hrep
    cases hrep

/-- **Refresh tokens are single use** in every run whose calls fit when they commit. -/
theorem refreshTokens_singleUse (settings : TokenSettings) (db : Db) (t : Int)
    (hdb : db.SoundFamilies) (s : TokenSys)
    (hr : Run (TokenCall.body settings) (TokensFit settings) (Sys.idle db t) s) :
    SingleUse settings (TokensFit settings) s := by
  have h := (tokenOutline settings).holds_run ((tokenOutline settings).holds_idle hdb) hr
  have hsound : s.db.SoundFamilies := h.inv
  constructor
  · intro r hr r' hr' p hp hp'
    exact hsound.successor_unique hr hr' hp hp'
  · intro r hr r' hr' hfam hl hl'
    exact hsound.eq_of_id hr hr' (hsound.live r hr r' hr' hfam hl hl')
  · intro s' hr' f hf
    exact (run_evolves h hr').final f hf
  · intro call s₁ s₂ f hserved hf hstarted
    exact served_revokes h hserved hf hstarted
  · intro call s₁ s₂ token r hserved hcall hr hrep hexp
    exact served_reuse h hserved hcall hr hrep hexp

section Samples

/-- Tokens stored as they are, for a day. -/
def plainTokens : TokenSettings := ⟨fun token => token, dayMicros⟩

def issueFirst : TokenCall where
  draw := ⟨1, "first"⟩
  operation := .issue 10 20 30

/-- The first token is presented. -/
def presentFirst (draw : TokenDraw) : TokenCall where
  draw := draw
  operation := .rotate "first"

/-- `n` statements of the transaction at place `i`. -/
def statements (i n : Nat) : List (Action TokenCall) := List.replicate n (.statement i)

/-- A call alone, of `n` statements. -/
def alone (call : TokenCall) (n : Nat) : List (Action TokenCall) :=
  [.begin call, .start 0] ++ statements 0 n ++ [.commit 0]

/-- The second client reads the first token before the first client's rotation commits. -/
def presentedTwice : List (Action TokenCall) :=
  alone issueFirst 3 ++
    [.begin (presentFirst ⟨2, "second"⟩), .start 0, .begin (presentFirst ⟨3, "third"⟩), .start 1] ++
    statements 0 2 ++ statements 1 2 ++ statements 0 3 ++ [.commit 0] ++ statements 0 3 ++
    [.commit 0]

/-- The first token is presented again after its rotation. -/
def presentedAgain : List (Action TokenCall) :=
  alone issueFirst 3 ++ alone (presentFirst ⟨2, "second"⟩) 5 ++
    alone (presentFirst ⟨3, "third"⟩) 4

theorem refreshTokens_singleUse_again :
    ∃ s, Run (TokenCall.body plainTokens) (TokensFit plainTokens) (Sys.idle {} 0) s ∧
      (s.db.refreshTokens.map fun r => (r.id, r.revokedAt)) = [(1, some 0), (2, some 0)] ∧
      SingleUse plainTokens (TokensFit plainTokens) s := by
  have hrun : (replay (TokenCall.body plainTokens) (tokensFit plainTokens) (Sys.idle {} 0)
      presentedAgain).map (fun s => s.db.refreshTokens.map fun r => (r.id, r.revokedAt)) =
        some [(1, some 0), (2, some 0)] := by decide +kernel
  obtain ⟨s, hs, htokens⟩ := Option.map_eq_some_iff.mp hrun
  have hr : Run (TokenCall.body plainTokens) (TokensFit plainTokens) (Sys.idle {} 0) s :=
    run_of_replay (fun _ _ => TokensFit.of_eval plainTokens) .refl hs
  exact ⟨s, hr, htokens, refreshTokens_singleUse plainTokens {} 0 (.empty rfl) s hr⟩

/-- **Two clients present one token at once**: both rotations commit, and the token has two live
successors. -/
theorem refreshTokens_not_singleUse :
    ∃ s, Run (TokenCall.body plainTokens) (fun _ _ => True) (Sys.idle {} 0) s ∧
      ¬ SingleUse plainTokens (fun _ _ => True) s := by
  have hrun : (replay (TokenCall.body plainTokens) (fun _ _ => true) (Sys.idle {} 0)
      presentedTwice).map (fun s => s.db.refreshTokens.map fun r => (r.id, r.parentId)) =
        some [(1, none), (2, some 1), (3, some 1)] := by decide +kernel
  obtain ⟨s, hs, htokens⟩ := Option.map_eq_some_iff.mp hrun
  refine ⟨s, run_of_replay (fun _ _ _ => trivial) .refl hs, fun h => ?_⟩
  have hstored : ∀ x ∈ [(1, none), (2, some 1), (3, some 1)], ∃ r ∈ s.db.refreshTokens,
      (r.id, r.parentId) = x := by
    intro x hx
    rw [← htokens] at hx
    exact List.mem_map.mp hx
  obtain ⟨r, hr, hr₂⟩ := hstored (2, some 1) (by decide)
  obtain ⟨r', hr', hr₃⟩ := hstored (3, some 1) (by decide)
  obtain ⟨hid, hp⟩ := Prod.mk.inj hr₂
  obtain ⟨hid', hp'⟩ := Prod.mk.inj hr₃
  have heq := h.successor r hr r' hr' 1 hp hp'
  rw [heq, hid'] at hid
  cases hid

end Samples

end NewlifeCore.Auth
