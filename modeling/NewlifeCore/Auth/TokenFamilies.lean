import NewlifeCore.Auth.RefreshTokenProvider
import Mathlib.Data.List.Find
import Mathlib.Data.List.Nodup

/-!
# Families of refresh tokens

What is true of the stored tokens as long as rotation and revocation do what they are meant to: a
family has one live token at most, a token one successor, and a token that was both replaced and
revoked belongs to a family that is revoked altogether.  `Evolves` is what one transaction may
make of them; the four ways the provider writes tokens are such steps, each under the condition
that makes it one.
-/

namespace NewlifeCore.Auth

open Txn

/-! ## 1. Tokens and families -/

/-- Neither revoked nor replaced. -/
structure AuthRefreshToken.Live (r : AuthRefreshToken) : Prop where
  revokedAt : r.revokedAt = none
  replacedById : r.replacedById = none

instance (r : AuthRefreshToken) : Decidable r.Live :=
  decidable_of_iff (r.revokedAt = none ∧ r.replacedById = none)
    ⟨fun h => ⟨h.1, h.2⟩, fun h => ⟨h.revokedAt, h.replacedById⟩⟩

namespace Db

variable (db : Db)

/-- The token `rotate` and `revoke_by_token` find. -/
def tokenOf (settings : TokenSettings) (token : String) : Option AuthRefreshToken :=
  db.refreshTokens.find? fun r => r.tokenHash = settings.hashToken token

def family (familyId : UUID) : List AuthRefreshToken :=
  db.refreshTokens.filter fun r => r.familyId = familyId

/-- Every token of the family is revoked, and there is one. -/
structure FamilyRevoked (familyId : UUID) : Prop where
  started : ∃ r ∈ db.refreshTokens, r.familyId = familyId
  revoked : ∀ r ∈ db.refreshTokens, r.familyId = familyId → r.revokedAt.isSome = true

instance (familyId : UUID) : Decidable (db.FamilyRevoked familyId) :=
  decidable_of_iff ((∃ r ∈ db.refreshTokens, r.familyId = familyId) ∧
    ∀ r ∈ db.refreshTokens, r.familyId = familyId → r.revokedAt.isSome = true)
    ⟨fun h => ⟨h.1, h.2⟩, fun h => ⟨h.started, h.revoked⟩⟩

/-- **Sound families**: unique keys, one live token a family, and each successor the one its parent
names. -/
structure SoundFamilies : Prop where
  ids : (db.refreshTokens.map AuthRefreshToken.id).Nodup
  live : ∀ r ∈ db.refreshTokens, ∀ r' ∈ db.refreshTokens, r.familyId = r'.familyId → r.Live →
    r'.Live → r.id = r'.id
  parent : ∀ r ∈ db.refreshTokens, ∀ p, r.parentId = some p →
    ∃ q ∈ db.refreshTokens, q.id = p ∧ q.replacedById = some r.id
  closed : ∀ r ∈ db.refreshTokens, r.revokedAt.isSome = true → r.replacedById.isSome = true →
    db.FamilyRevoked r.familyId

end Db

variable {db db' db₁ db₂ db₃ : Db}

theorem Db.SoundFamilies.empty (h : db.refreshTokens = []) : db.SoundFamilies := by
  constructor <;> simp [h]

theorem Db.SoundFamilies.eq_of_id (h : db.SoundFamilies) {r r' : AuthRefreshToken}
    (hr : r ∈ db.refreshTokens) (hr' : r' ∈ db.refreshTokens) (hid : r.id = r'.id) : r = r' :=
  List.inj_on_of_nodup_map h.ids hr hr' hid

/-- **One successor at most.** -/
theorem Db.SoundFamilies.successor_unique (h : db.SoundFamilies) {r r' : AuthRefreshToken} {p : UUID}
    (hr : r ∈ db.refreshTokens) (hr' : r' ∈ db.refreshTokens) (hp : r.parentId = some p)
    (hp' : r'.parentId = some p) : r = r' := by
  obtain ⟨q, hq, hqid, hqr⟩ := h.parent r hr p hp
  obtain ⟨q', hq', hqid', hqr'⟩ := h.parent r' hr' p hp'
  have hqq : q = q' := h.eq_of_id hq hq' (hqid.trans hqid'.symm)
  rw [← hqq, hqr] at hqr'
  exact h.eq_of_id hr hr' (Option.some.inj hqr')

/-! ## 2. What a transaction may make of them -/

/-- A stored token later on: it may have been replaced or revoked since, and stays so. -/
structure TokenKept (r r' : AuthRefreshToken) : Prop where
  id : r'.id = r.id
  tokenHash : r'.tokenHash = r.tokenHash
  familyId : r'.familyId = r.familyId
  expiresAt : r'.expiresAt = r.expiresAt
  parentId : r'.parentId = r.parentId
  revoked : r.revokedAt.isSome = true → r'.revokedAt.isSome = true
  replaced : ∀ x, r.replacedById = some x → r'.replacedById = some x

theorem TokenKept.refl (r : AuthRefreshToken) : TokenKept r r :=
  ⟨rfl, rfl, rfl, rfl, rfl, fun h => h, fun _ h => h⟩

theorem TokenKept.trans {r₁ r₂ r₃ : AuthRefreshToken} (h₁ : TokenKept r₁ r₂)
    (h₂ : TokenKept r₂ r₃) : TokenKept r₁ r₃ where
  id := h₂.id.trans h₁.id
  tokenHash := h₂.tokenHash.trans h₁.tokenHash
  familyId := h₂.familyId.trans h₁.familyId
  expiresAt := h₂.expiresAt.trans h₁.expiresAt
  parentId := h₂.parentId.trans h₁.parentId
  revoked h := h₂.revoked (h₁.revoked h)
  replaced x h := h₂.replaced x (h₁.replaced x h)

/-- **A step of the stored tokens**: none is lost, soundness is kept, and a revoked family stays
revoked and gets no new token. -/
structure Evolves (db db' : Db) : Prop where
  tokens : ∃ g ext, db'.refreshTokens = db.refreshTokens.map g ++ ext ∧
    ∀ r ∈ db.refreshTokens, TokenKept r (g r)
  sound : db.SoundFamilies → db'.SoundFamilies
  final : ∀ f, db.FamilyRevoked f → db'.FamilyRevoked f ∧
    (db'.family f).map AuthRefreshToken.id = (db.family f).map AuthRefreshToken.id

namespace Evolves

theorem of_eq (h : db'.refreshTokens = db.refreshTokens) : Evolves db db' where
  tokens := ⟨fun r => r, [], by rw [h, List.map_id', List.append_nil], fun r _ => .refl r⟩
  sound hs := by
    constructor
    · rw [h]; exact hs.ids
    · rw [h]; exact hs.live
    · rw [h]; exact hs.parent
    · intro r hr h₁ h₂
      rw [h] at hr
      have := hs.closed r hr h₁ h₂
      exact ⟨by rw [h]; exact this.started, by rw [h]; exact this.revoked⟩
  final f hf := ⟨⟨by rw [h]; exact hf.started, by rw [h]; exact hf.revoked⟩, by
    rw [Db.family, Db.family, h]⟩

theorem refl (db : Db) : Evolves db db := of_eq rfl

theorem trans (h₁ : Evolves db₁ db₂) (h₂ : Evolves db₂ db₃) : Evolves db₁ db₃ where
  tokens := by
    obtain ⟨g₁, ext₁, he₁, hk₁⟩ := h₁.tokens
    obtain ⟨g₂, ext₂, he₂, hk₂⟩ := h₂.tokens
    refine ⟨g₂ ∘ g₁, ext₁.map g₂ ++ ext₂, ?_, fun r hr => ?_⟩
    · rw [he₂, he₁, List.map_append, List.map_map, List.append_assoc]
    · have hmem : g₁ r ∈ db₂.refreshTokens := by
        rw [he₁]
        exact List.mem_append_left _ (List.mem_map_of_mem hr)
      exact (hk₁ r hr).trans (hk₂ _ hmem)
  sound h := h₂.sound (h₁.sound h)
  final f hf := by
    obtain ⟨hf₂, hids₁⟩ := h₁.final f hf
    obtain ⟨hf₃, hids₂⟩ := h₂.final f hf₂
    exact ⟨hf₃, hids₂.trans hids₁⟩

theorem mem (h : Evolves db db') {r : AuthRefreshToken} (hr : r ∈ db.refreshTokens) :
    ∃ r' ∈ db'.refreshTokens, TokenKept r r' := by
  obtain ⟨g, ext, he, hk⟩ := h.tokens
  exact ⟨g r, by rw [he]; exact List.mem_append_left _ (List.mem_map_of_mem hr), hk r hr⟩

/-- A token that was found is found again. -/
theorem tokenOf (h : Evolves db db') {settings : TokenSettings} {token : String}
    {r : AuthRefreshToken} (hr : db.tokenOf settings token = some r) :
    ∃ r', db'.tokenOf settings token = some r' ∧ TokenKept r r' := by
  obtain ⟨g, ext, he, hk⟩ := h.tokens
  refine ⟨g r, ?_, hk r (List.mem_of_find?_eq_some hr)⟩
  have hsame : db.refreshTokens.find? ((fun r => r.tokenHash = settings.hashToken token) ∘ g) =
      some r := by
    rw [← hr, Db.tokenOf]
    refine List.find?_congr fun q hq => ?_
    simp [(hk q hq).tokenHash]
  rw [Db.tokenOf, he, List.find?_append, List.find?_map, hsame]
  rfl

end Evolves

/-! ## 3. The writes of the provider -/

/-- A stored token that may have been revoked, and nothing else. -/
structure Revocation (r r' : AuthRefreshToken) : Prop extends TokenKept r r' where
  replacedById : r'.replacedById = r.replacedById

theorem revokeRow_revocation (now : Int) (reason : String) (r : AuthRefreshToken) :
    Revocation r (RefreshTokenProvider.revokeRow now reason r) :=
  ⟨⟨rfl, rfl, rfl, rfl, rfl, fun _ => rfl, fun _ h => h⟩, rfl⟩

theorem Revocation.refl (r : AuthRefreshToken) : Revocation r r := ⟨.refl r, rfl⟩

theorem Revocation.live {r r' : AuthRefreshToken} (h : Revocation r r') (hr' : r'.Live) :
    r.Live where
  revokedAt := by
    cases hrev : r.revokedAt with
    | none => rfl
    | some t =>
      have hsome := h.revoked (by rw [hrev]; rfl)
      rw [hr'.revokedAt] at hsome
      cases hsome
  replacedById := h.replacedById.symm.trans hr'.replacedById

theorem map_family {g : AuthRefreshToken → AuthRefreshToken} {f : UUID} :
    ∀ {l : List AuthRefreshToken}, (∀ r ∈ l, TokenKept r (g r)) →
      ((l.map g).filter fun r => r.familyId = f).map AuthRefreshToken.id =
        (l.filter fun r => r.familyId = f).map AuthRefreshToken.id
  | [], _ => rfl
  | r :: l, hk => by
    have hr := hk r List.mem_cons_self
    have ih := map_family (f := f) fun q hq => hk q (List.mem_cons_of_mem _ hq)
    by_cases h : r.familyId = f
    · simp [hr.familyId, h, hr.id, ih]
    · simp [hr.familyId, h, ih]

/-- **Revoking tokens**: a token that was replaced is revoked with its family only. -/
theorem Evolves.revoke {g : AuthRefreshToken → AuthRefreshToken}
    (hdb : db'.refreshTokens = db.refreshTokens.map g) (hg : ∀ r, Revocation r (g r))
    (hclosed : ∀ r ∈ db.refreshTokens, r.revokedAt = none → (g r).revokedAt.isSome = true →
      r.replacedById.isSome = true →
        ∀ q ∈ db.refreshTokens, q.familyId = r.familyId → (g q).revokedAt.isSome = true) :
    Evolves db db' := by
  have hrevoked : ∀ f, db.FamilyRevoked f → db'.FamilyRevoked f := by
    intro f hf
    obtain ⟨r, hr, hrf⟩ := hf.started
    refine ⟨⟨g r, by rw [hdb]; exact List.mem_map_of_mem hr, (hg r).familyId.trans hrf⟩, ?_⟩
    intro q hq hqf
    rw [hdb] at hq
    obtain ⟨p, hp, rfl⟩ := List.mem_map.mp hq
    exact (hg p).revoked (hf.revoked p hp ((hg p).familyId.symm.trans hqf))
  refine ⟨⟨g, [], by rw [hdb, List.append_nil], fun r _ => (hg r).toTokenKept⟩, fun hs => ?_,
    fun f hf => ⟨hrevoked f hf, ?_⟩⟩
  · refine ⟨?_, ?_, ?_, ?_⟩
    · have hids : db.refreshTokens.map (AuthRefreshToken.id ∘ g) =
          db.refreshTokens.map AuthRefreshToken.id := List.map_congr_left fun r _ => (hg r).id
      rw [hdb, List.map_map, hids]
      exact hs.ids
    all_goals simp only [hdb, List.forall_mem_map]
    · intro r hr q hq hfam hrl hql
      have live : ∀ r, (g r).Live → r.Live := fun r h => (hg r).live h
      rw [(hg r).familyId, (hg q).familyId] at hfam
      rw [(hg r).id, (hg q).id]
      exact hs.live r hr q hq hfam (live r hrl) (live q hql)
    · intro r hr p hp
      obtain ⟨q, hq, hqid, hqr⟩ := hs.parent r hr p ((hg r).parentId.symm.trans hp)
      refine ⟨g q, List.mem_map_of_mem hq, (hg q).id.trans hqid, ?_⟩
      rw [(hg q).replacedById, (hg r).id]
      exact hqr
    · intro r hr hrev hrep
      rw [(hg r).replacedById] at hrep
      rw [(hg r).familyId]
      cases hold : r.revokedAt with
      | some t => exact hrevoked _ (hs.closed r hr (by rw [hold]; rfl) hrep)
      | none =>
        refine ⟨⟨g r, by rw [hdb]; exact List.mem_map_of_mem hr, (hg r).familyId⟩, ?_⟩
        simp only [hdb, List.forall_mem_map]
        intro q hq hqf
        exact hclosed r hr hold hrev hrep q hq ((hg q).familyId.symm.trans hqf)
  · rw [Db.family, Db.family, hdb]
    exact map_family fun r _ => (hg r).toTokenKept

/-- An inserted row has a new key. -/
theorem insert_fresh {db : Db} {row : AuthRefreshToken} {c : Change Db RowName} {e : AuthError}
    (h : (if db.refreshTokens.any fun r => r.id = row.id || r.tokenHash = row.tokenHash then
      .error e else .ok (refreshTokenTable.insert [row]) : Except AuthError (Change Db RowName)) =
        .ok c) :
    c = refreshTokenTable.insert [row] ∧ ∀ r ∈ db.refreshTokens, r.id ≠ row.id := by
  split at h
  · cases h
  · rename_i hnone
    refine ⟨(Except.ok.inj h).symm, fun r hr hid => hnone ?_⟩
    exact List.any_eq_true.mpr ⟨r, hr, by simp [hid]⟩

/-- **Starting a family.** -/
theorem Evolves.issue {row : AuthRefreshToken} (hdb : db'.refreshTokens = db.refreshTokens ++ [row])
    (hid : ∀ r ∈ db.refreshTokens, r.id ≠ row.id)
    (hnew : ∀ r ∈ db.refreshTokens, r.familyId ≠ row.familyId)
    (hparent : row.parentId = none) (hlive : row.Live) : Evolves db db' := by
  have hrevoked : ∀ f, db.FamilyRevoked f → db'.FamilyRevoked f ∧ row.familyId ≠ f := by
    intro f hf
    obtain ⟨r, hr, hrf⟩ := hf.started
    have hne : row.familyId ≠ f := fun h => hnew r hr (hrf.trans h.symm)
    refine ⟨⟨⟨r, by rw [hdb]; exact List.mem_append_left _ hr, hrf⟩, fun q hq hqf => ?_⟩, hne⟩
    rw [hdb] at hq
    rcases List.mem_append.mp hq with hq | hq
    · exact hf.revoked q hq hqf
    · rw [List.mem_singleton.mp hq] at hqf
      exact absurd hqf hne
  refine ⟨⟨fun r => r, [row], by rw [hdb, List.map_id'], fun r _ => .refl r⟩, fun hs => ?_,
    fun f hf => ⟨(hrevoked f hf).1, ?_⟩⟩
  · refine ⟨?_, ?_, ?_, ?_⟩
    · rw [hdb, List.map_append]
      refine List.Nodup.append hs.ids (List.nodup_singleton _) fun x hx hx' => ?_
      obtain ⟨r, hr, rfl⟩ := List.mem_map.mp hx
      exact hid r hr (List.mem_singleton.mp hx')
    all_goals simp only [hdb, List.mem_append, List.mem_singleton]
    · rintro r (hr | rfl) q (hq | rfl) hfam hrl hql
      · exact hs.live r hr q hq hfam hrl hql
      · exact absurd hfam (hnew r hr)
      · exact absurd hfam.symm (hnew q hq)
      · rfl
    · rintro r (hr | rfl) p hp
      · obtain ⟨q, hq, hqid, hqr⟩ := hs.parent r hr p hp
        exact ⟨q, .inl hq, hqid, hqr⟩
      · rw [hparent] at hp
        cases hp
    · rintro r (hr | rfl) hrev hrep
      · exact (hrevoked _ (hs.closed r hr hrev hrep)).1
      · rw [hlive.revokedAt] at hrev
        cases hrev
  · rw [Db.family, Db.family, hdb, List.filter_append]
    simp [(hrevoked f hf).2]

/-- The row of a token after its rotation. -/
def replacedIf (id newId : UUID) (now : Int) (r : AuthRefreshToken) : AuthRefreshToken :=
  if r.id = id then RefreshTokenProvider.replaceRow newId now r else r

/-- The row is marked wherever it is, if it was there when the statement was issued. -/
theorem markReplaced_apply {id newId : UUID} {now : Int} {view : Db}
    (h : ∃ r ∈ view.refreshTokens, r.id = id) (db : Db) :
    ((refreshTokenTable.update (fun r => r.id = id) (RefreshTokenProvider.replaceRow newId now)
      (fun _ => rfl) view).apply db).refreshTokens =
        db.refreshTokens.map (replacedIf id newId now) := by
  obtain ⟨q, hq, hqid⟩ := h
  have hmatch : RowName.refreshToken id ∈ refreshTokenTable.matching (fun r => r.id = id) view :=
    hqid ▸ refreshTokenTable.mem_matching hq (decide_eq_true rfl)
  refine List.map_congr_left fun r _ => ?_
  unfold replacedIf
  by_cases hid : r.id = id
  · have hname : refreshTokenTable.name r = RowName.refreshToken id :=
      congrArg RowName.refreshToken hid
    rw [← hname] at hmatch
    simp [hid, hmatch]
  · simp [hid]

/-- **Rotating a live token.** -/
theorem Evolves.rotate {t row : AuthRefreshToken} {now : Int} (ht : t ∈ db.refreshTokens)
    (hlive : t.Live) (hsound : db.SoundFamilies)
    (hdb : db'.refreshTokens =
      (db.refreshTokens ++ [row]).map (replacedIf t.id row.id now))
    (hid : ∀ r ∈ db.refreshTokens, r.id ≠ row.id) (hparent : row.parentId = some t.id)
    (hfamily : row.familyId = t.familyId) (hrow : row.Live) : Evolves db db' := by
  have hkept : ∀ r ∈ db.refreshTokens, TokenKept r (replacedIf t.id row.id now r) := by
    intro r hr
    unfold replacedIf
    by_cases h : r.id = t.id
    · rw [if_pos h, hsound.eq_of_id hr ht h]
      exact ⟨rfl, rfl, rfl, rfl, rfl, fun h => h, fun x hx => by
        rw [hlive.replacedById] at hx; cases hx⟩
    · rw [if_neg h]
      exact .refl r
  have hother : ∀ r, r.id ≠ t.id → replacedIf t.id row.id now r = r := fun r h => if_neg h
  have hnew : replacedIf t.id row.id now row = row := hother row fun h => hid t ht h.symm
  rw [List.map_append, List.map_singleton, hnew] at hdb
  have hrevokedAt : ∀ r, (replacedIf t.id row.id now r).revokedAt = r.revokedAt := by
    intro r
    unfold replacedIf
    split <;> rfl
  -- the family of `t` is not revoked, so a revoked one is left alone
  have hrevoked : ∀ f, db.FamilyRevoked f → db'.FamilyRevoked f ∧ row.familyId ≠ f := by
    intro f hf
    have hne : row.familyId ≠ f := by
      intro h
      have := hf.revoked t ht (hfamily.symm.trans h)
      rw [hlive.revokedAt] at this
      cases this
    obtain ⟨r, hr, hrf⟩ := hf.started
    refine ⟨⟨⟨_, by rw [hdb]; exact List.mem_append_left _ (List.mem_map_of_mem hr),
      (hkept r hr).familyId.trans hrf⟩, fun q hq hqf => ?_⟩, hne⟩
    rw [hdb] at hq
    rcases List.mem_append.mp hq with hq | hq
    · obtain ⟨p, hp, rfl⟩ := List.mem_map.mp hq
      exact (hkept p hp).revoked (hf.revoked p hp ((hkept p hp).familyId.symm.trans hqf))
    · rw [List.mem_singleton.mp hq] at hqf
      exact absurd hqf hne
  refine ⟨⟨_, [row], hdb, hkept⟩, fun _ => ?_, fun f hf => ⟨(hrevoked f hf).1, ?_⟩⟩
  · refine ⟨?_, ?_, ?_, ?_⟩
    · have hids : db.refreshTokens.map (AuthRefreshToken.id ∘ replacedIf t.id row.id now) =
          db.refreshTokens.map AuthRefreshToken.id :=
        List.map_congr_left fun r hr => (hkept r hr).id
      rw [hdb, List.map_append, List.map_map, hids]
      refine List.Nodup.append hsound.ids (List.nodup_singleton _) fun x hx hx' => ?_
      obtain ⟨r, hr, rfl⟩ := List.mem_map.mp hx
      exact hid r hr (List.mem_singleton.mp hx')
    all_goals simp only [hdb, List.mem_append, List.mem_singleton, List.mem_map]
    · -- a token live now was live before, and is not `t`
      have was : ∀ r, (replacedIf t.id row.id now r).Live → r.Live ∧ r.id ≠ t.id := by
        intro r h
        by_cases hrt : r.id = t.id
        · have := h.replacedById
          rw [replacedIf, if_pos hrt] at this
          cases this
        · rw [hother r hrt] at h
          exact ⟨h, hrt⟩
      rintro r (⟨r, hr, rfl⟩ | rfl) q (⟨q, hq, rfl⟩ | rfl) hfam hrl hql
      · rw [(hkept r hr).familyId, (hkept q hq).familyId] at hfam
        rw [(hkept r hr).id, (hkept q hq).id]
        exact hsound.live r hr q hq hfam (was r hrl).1 (was q hql).1
      · rw [(hkept r hr).familyId, hfamily] at hfam
        exact absurd (hsound.live r hr t ht hfam (was r hrl).1 hlive) (was r hrl).2
      · rw [(hkept q hq).familyId, hfamily] at hfam
        exact absurd (hsound.live q hq t ht hfam.symm (was q hql).1 hlive) (was q hql).2
      · rfl
    · rintro r (⟨r, hr, rfl⟩ | rfl) p hp
      · rw [(hkept r hr).parentId] at hp
        obtain ⟨q, hq, hqid, hqr⟩ := hsound.parent r hr p hp
        refine ⟨_, .inl ⟨q, hq, rfl⟩, (hkept q hq).id.trans hqid, ?_⟩
        rw [(hkept r hr).id]
        exact (hkept q hq).replaced _ hqr
      · rw [hparent] at hp
        cases hp
        exact ⟨_, .inl ⟨t, ht, rfl⟩, (hkept t ht).id, by rw [replacedIf, if_pos rfl]; rfl⟩
    · rintro r (⟨r, hr, rfl⟩ | rfl) hrev hrep
      · rw [hrevokedAt] at hrev
        rw [(hkept r hr).familyId]
        by_cases hrt : r.id = t.id
        · rw [hsound.eq_of_id hr ht hrt, hlive.revokedAt] at hrev
          cases hrev
        · rw [hother r hrt] at hrep
          exact (hrevoked _ (hsound.closed r hr hrev hrep)).1
      · rw [hrow.revokedAt] at hrev
        cases hrev
  · rw [Db.family, Db.family, hdb, List.filter_append, List.map_append, map_family hkept]
    simp [(hrevoked f hf).2]

end NewlifeCore.Auth
