import NewlifeCore.Auth.Addresses

/-!
# One account per Microsoft identity

The sync looks an identity up before the address; a sign-in goes by the address and records the
identity.  An identity has one account as long as no sign-in brings it to another one than it is
linked to.

`IdentityIdentifies` is the property with the look-up in it, `LinksIdentify` the invariant without.
Both writers of links use one upsert, and `upsert_identify_iff` says exactly when that keeps
identities apart: no other user has the identity already.  The sync meets the condition by its
look-up, and an administrator writes no link; so the condition of the theorem is on sign-ins alone,
and says of the token what the look-up would have found.
-/

namespace NewlifeCore.Auth

open Txn Attempt

variable {db db' : Db} {t : Int}

/-! ## 1. Links -/

/-- A link, not deleted, of an identity to a user. -/
def Linked (db : Db) (userId : UUID) (provider : ThirdPartyProvider) (providerUid : String) : Prop :=
  ∃ l ∈ UserRepository.linksOf db provider providerUid, l.userId = userId

/-- **An identity has at most one account**, and the look-up finds it. -/
def IdentityIdentifies (db : Db) : Prop :=
  ∀ userId provider providerUid, Linked db userId provider providerUid →
    (∀ userId', Linked db userId' provider providerUid → userId' = userId) ∧
      ∀ t : Int, (UserRepository.getUserIdByThirdParty provider providerUid).eval db t =
        .ok (some userId)

/-- The same, without the look-up. -/
def LinksIdentify (db : Db) : Prop :=
  ∀ userId userId' provider providerUid, Linked db userId provider providerUid →
    Linked db userId' provider providerUid → userId' = userId

theorem LinksIdentify.identifies (h : LinksIdentify db) : IdentityIdentifies db := by
  intro userId provider providerUid hlinked
  refine ⟨fun _ h' => h _ _ _ _ hlinked h', fun t => congrArg Except.ok ?_⟩
  show (UserRepository.linksOf db provider providerUid).head?.map AuthUserThirdParty.userId = _
  have hmem := hlinked
  obtain ⟨l, hl, -⟩ := hmem
  cases hlinks : UserRepository.linksOf db provider providerUid with
  | nil =>
    rw [hlinks] at hl
    cases hl
  | cons first rest =>
    have hfirst : Linked db first.userId provider providerUid :=
      ⟨first, by rw [hlinks]; exact List.mem_cons_self, rfl⟩
    exact congrArg some (h _ _ _ _ hlinked hfirst)

theorem IdentityIdentifies.links (h : IdentityIdentifies db) : LinksIdentify db := by
  intro _ _ _ _ hlinked hlinked'
  exact (h _ _ _ hlinked).1 _ hlinked'

theorem linked_iff {userId : UUID} {provider : ThirdPartyProvider} {providerUid : String} :
    Linked db userId provider providerUid ↔ ∃ l ∈ db.userThirdParties, l.isDeleted = false ∧
      userThirdPartyTable.name l = .userThirdParty userId provider providerUid := by
  simp only [Linked, UserRepository.linksOf, userThirdPartyTable, List.mem_filter,
    Bool.and_eq_true, decide_eq_true_eq, Bool.not_eq_true', RowName.userThirdParty.injEq]
  grind

theorem linked_same {userId : UUID} {provider : ThirdPartyProvider} {providerUid : String}
    (h : SameLinks db db') : Linked db' userId provider providerUid ↔
      Linked db userId provider providerUid := by
  rw [linked_iff, linked_iff, h]

theorem LinksIdentify.sameLinks (h : SameLinks db db') (hdb : LinksIdentify db) :
    LinksIdentify db' := by
  intro _ _ _ _ hlinked hlinked'
  exact hdb _ _ _ _ ((linked_same h).mp hlinked) ((linked_same h).mp hlinked')

theorem LinksIdentify.sameIdentities (h : SameIdentities db db') (hdb : LinksIdentify db) :
    LinksIdentify db' := hdb.sameLinks h.2

section Upsert

variable {rowId userId tenantId : UUID} {provider : ThirdPartyProvider} {providerUid : String}

/-- The rows after an upsert: a link of this name is not deleted any more, or there is a new one. -/
theorem upsert_exec (h : (UserRepository.upsertAuthUserThirdParty rowId userId provider providerUid
      tenantId).exec db t = .ok ((), db')) :
    let name := RowName.userThirdParty userId provider providerUid
    let found := db.userThirdParties.any fun l => userThirdPartyTable.name l = name
    (found = true → db'.userThirdParties = db.userThirdParties.map fun l =>
      if userThirdPartyTable.name l = name then
        { l with providerTenantId := tenantId, isDeleted := false } else l) ∧
    (¬ found = true → db'.userThirdParties = db.userThirdParties ++
      [{ id := rowId, userId, provider, providerUid, providerTenantId := tenantId }]) := by
  obtain ⟨c, hc, rfl⟩ := Prog.exec_executed h
  split_ifs at hc
  cases hc
  let new : AuthUserThirdParty :=
    { id := rowId, userId, provider, providerUid, providerTenantId := tenantId }
  let renew : AuthUserThirdParty → AuthUserThirdParty := fun l =>
    { l with providerTenantId := tenantId, isDeleted := false }
  exact ⟨fun h => congrArg Db.userThirdParties (userThirdPartyTable.upsert_found new renew h),
    fun h => congrArg Db.userThirdParties (userThirdPartyTable.upsert_new new renew h)⟩

/-- **What an upsert links**: its user to its identity, beside what was linked. -/
theorem upsert_linked (h : (UserRepository.upsertAuthUserThirdParty rowId userId provider providerUid
      tenantId).exec db t = .ok ((), db')) {u : UUID} {p : ThirdPartyProvider} {x : String} :
    Linked db' u p x ↔ Linked db u p x ∨ (u = userId ∧ p = provider ∧ x = providerUid) := by
  obtain ⟨hfound, hnew⟩ := upsert_exec h
  rw [linked_iff, linked_iff]
  by_cases hany : (db.userThirdParties.any fun l => userThirdPartyTable.name l =
      RowName.userThirdParty userId provider providerUid) = true
  · rw [hfound hany]
    obtain ⟨l₀, hl₀, hname₀⟩ := List.any_eq_true.mp hany
    have hname₀ := of_decide_eq_true hname₀
    constructor
    · rintro ⟨l, hl, hdel, hname⟩
      obtain ⟨l', hl', rfl⟩ := List.mem_map.mp hl
      by_cases hsame : userThirdPartyTable.name l' = .userThirdParty userId provider providerUid
      · rw [if_pos hsame] at hname
        exact .inr (RowName.userThirdParty.inj (hname.symm.trans hsame))
      · rw [if_neg hsame] at hname hdel
        exact .inl ⟨l', hl', hdel, hname⟩
    · rintro (⟨l, hl, hdel, hname⟩ | ⟨rfl, rfl, rfl⟩)
      · refine ⟨_, List.mem_map_of_mem hl, ?_, ?_⟩
        · split
          · rfl
          · exact hdel
        · split
          · exact hname
          · exact hname
      · refine ⟨_, List.mem_map_of_mem hl₀, ?_, ?_⟩
        · rw [if_pos hname₀]
        · rw [if_pos hname₀]
          exact hname₀
  · rw [hnew hany]
    constructor
    · rintro ⟨l, hl, hdel, hname⟩
      rcases List.mem_append.mp hl with hl | hl
      · exact .inl ⟨l, hl, hdel, hname⟩
      · obtain rfl := List.mem_singleton.mp hl
        exact .inr (RowName.userThirdParty.inj hname.symm)
    · rintro (⟨l, hl, hdel, hname⟩ | ⟨rfl, rfl, rfl⟩)
      · exact ⟨l, List.mem_append_left _ hl, hdel, hname⟩
      · exact ⟨_, List.mem_append_right _ List.mem_cons_self, rfl, rfl⟩

/-- **An upsert keeps identities apart exactly when no other user has the identity.** -/
theorem upsert_identify_iff (hdb : LinksIdentify db)
    (h : (UserRepository.upsertAuthUserThirdParty rowId userId provider providerUid tenantId).exec
      db t = .ok ((), db')) :
    LinksIdentify db' ↔ ∀ u, Linked db u provider providerUid → u = userId := by
  constructor
  · intro h' u hu
    exact h' _ _ _ _ ((upsert_linked h).mpr (.inr ⟨rfl, rfl, rfl⟩)) ((upsert_linked h).mpr (.inl hu))
  · intro hown u u' p x hu hu'
    rcases (upsert_linked h).mp hu with hu | ⟨hu, hp, hx⟩
    · rcases (upsert_linked h).mp hu' with hu' | ⟨hu', hp, hx⟩
      · exact hdb _ _ _ _ hu hu'
      · rw [hu', hown u (hp ▸ hx ▸ hu)]
    · rcases (upsert_linked h).mp hu' with hu' | ⟨hu', -, -⟩
      · rw [hu, hown u' (hp ▸ hx ▸ hu')]
      · rw [hu, hu']

end Upsert

/-! ## 2. Runs -/

section Identities

variable {maps : CaseMaps} {oidc : MicrosoftOidcProvider} {settings : AuthSettings}
  {w w₀ : World Db Redis}

/-- The identity that a token signs in belongs to no other account than the one its address
names. -/
def SignInFits (maps : CaseMaps) (oidc : MicrosoftOidcProvider) (db : Db) (idToken : String) :
    Prop :=
  ∀ claims upn u providerUid tenantId, oidc.verifyIdToken idToken = some claims →
    truthy claims.upn = some upn → resolvedUser maps db (maps.normalize upn) = some u →
    claims.identity = some (providerUid, tenantId) →
    ∀ userId, Linked db userId .microsoft providerUid → userId = u.id

/-- **What a call signs in fits.** -/
def IdentityFits (maps : CaseMaps) (oidc : MicrosoftOidcProvider) (w : World Db Redis) (_ : Int) :
    AccountCall → Prop
  | .microsoftLogin _ _ _ idToken => SignInFits maps oidc w.db idToken
  | .microsoftMemberLogin _ _ _ idToken _ => SignInFits maps oidc w.db idToken
  | _ => True

/-- Writing a link to an identity that no other user has. -/
theorem upsert_identify {rowId userId tenantId : UUID} {providerUid : String} {J : Db → Prop}
    (hJ : ∀ db, J db → LinksIdentify db)
    (hown : ∀ db, J db → ∀ u, Linked db u .microsoft providerUid → u = userId) :
    Attempt.Keeps t (During J LinksIdentify) (method (UserRepository.upsertAuthUserThirdParty rowId
      userId .microsoft providerUid tenantId) : AuthAttempt Unit) (fun _ => Holds LinksIdentify)
      (Holds LinksIdentify) :=
  .step (K := fun _ => LinksIdentify) fun db _ _ hdb hexec =>
    (upsert_identify_iff (hJ db hdb) hexec).mpr (hown db hdb)

theorem linked_of_linkedUser {providerUid : String} {userId : UUID} (hdb : LinksIdentify db)
    (h : linkedUser db providerUid = some userId) {u : UUID}
    (hu : Linked db u .microsoft providerUid) : u = userId := by
  unfold linkedUser at h
  obtain ⟨l, hl, hid⟩ := Option.map_eq_some_iff.mp h
  have hlinked : Linked db userId .microsoft providerUid :=
    ⟨l, List.mem_of_mem_head? hl, hid⟩
  exact hdb _ _ _ _ hlinked hu

theorem not_linked_of_linkedUser {providerUid : String} (h : linkedUser db providerUid = none)
    {u : UUID} (hu : Linked db u .microsoft providerUid) : False := by
  unfold linkedUser at h
  obtain ⟨l, hl, -⟩ := hu
  rw [Option.map_eq_none_iff, List.head?_eq_none_iff] at h
  rw [h] at hl
  cases hl

/-- The sync looks the identity up first. -/
theorem sync_identify : SyncKeeps maps t LinksIdentify where
  frame := LinksIdentify.sameIdentities
  linked _ _ _ _ := upsert_identify (fun _ hdb => hdb.1) fun _ hdb _ hu =>
    linked_of_linkedUser hdb.1 hdb.2 hu
  unlinked _ _ _ _ := upsert_identify (fun _ hdb => hdb.1) fun _ hdb _ hu =>
    (not_linked_of_linkedUser hdb.2 hu).elim
  created tenantId record draw email _ _ := by
    refine .bind (.step (K := fun _ db => LinksIdentify db ∧
      linkedUser db record.objectId = none) fun db _ d hdb hexec => ?_) fun _ => ?_
    · obtain ⟨_, db₁, hinsert, hprofile⟩ := Prog.exec_bind_ok hexec
      obtain ⟨-, rfl⟩ := UserRepository.insertUser_exec hinsert
      have hsame : SameLinks db d := by rw [UserRepository.insertUserProfile_exec hprofile]; rfl
      exact ⟨hdb.1.sameLinks hsame, (linkedUser_same hsame).trans hdb.2.1⟩
    · exact upsert_identify (fun _ hdb => hdb.1) fun _ hdb _ hu =>
        (not_linked_of_linkedUser hdb.2 hu).elim

theorem record_identify {linkId : UUID} {idToken : String} (h : LinksIdentify db)
    (hfits : SignInFits maps oidc db idToken) :
    RecordKeeps maps oidc t LinksIdentify db linkId idToken := by
  intro claims upn u hclaims hupn hu
  have hweaken : ∀ db', SameIdentities db db' → LinksIdentify db' :=
    fun db' hdb => h.sameIdentities hdb
  unfold MicrosoftAuthService.recordMicrosoftThirdPartyLogin
  split
  · exact .ret fun s hs => ⟨hweaken _ hs.1, hs.2⟩
  · rename_i providerUid tenantId hidentity
    refine .tryCatch (D := Holds LinksIdentify) (upsert_identify hweaken fun db' hdb userId hl => ?_)
      fun _ => .ret fun _ h => h
    exact hfits claims upn u providerUid tenantId hclaims hupn hu hidentity userId
      ((linked_same hdb.2).mp hl)

/-- The calls of an administrator write no link. -/
theorem adminCall_identify {α : Type} {p : AuthProg α} (F : Faults AuthError)
    (hw : LinksIdentify w.db) (hp : ∀ a d, p.exec w.db t = .ok (a, d) → SameLinks w.db d) :
    LinksIdentify ((method p : AuthAttempt α).serve F w t).2.db :=
  Attempt.Keeps.serveMethod F hw fun a d hexec => hw.sameLinks (hp a d hexec)

/-- **One call keeps identities apart**, whichever of its steps fail. -/
theorem AccountCall.identities_step (c : AccountCall) (F : Faults AuthError)
    (h : LinksIdentify w.db) (hfits : IdentityFits maps oidc w t c) :
    LinksIdentify ((c.body maps oidc settings).serve F w t).2.db := by
  cases c with
  | createUser userId command =>
    refine adminCall_identify F h fun _ d hexec => ?_
    exact absurd hexec (AdminUserService.createUser_raises userId command)
  | updateUser userId command =>
    refine adminCall_identify F h fun _ d hexec => ?_
    obtain ⟨_, db₁, hrow, hexec⟩ := Prog.exec_bind_ok (Prog.exec_mapError_ok.mp hexec)
    obtain ⟨c, hc, rfl⟩ := Prog.exec_executed hexec
    obtain ⟨c₁, hc₁, rfl⟩ := Prog.exec_executed hrow
    dsimp only at hc₁
    split_ifs at hc₁ hc
    cases hc₁
    cases hc
    rfl
  | deleteUser userId command =>
    have hlinks : ∀ a d, (AdminUserService.deleteUser userId command).exec w.db t = .ok (a, d) →
        SameLinks w.db d := fun a d hexec => by
      cases hexec
      rfl
    exact adminCall_identify F h hlinks
  | restoreUser ids =>
    refine adminCall_identify F h fun _ d hexec => ?_
    obtain ⟨_, -, hexec⟩ := (Prog.exec_reads_iff (.raiseIf _ _)).mp hexec
    cases hexec
    rfl
  | directorySync syncSettings dryRun listing =>
    refine Attempt.Keeps.serveHolds (.bind (run_keeps sync_identify _ _ _) fun _ => ?_) F h
    exact .ret fun _ h => h
  | microsoftLogin ctx draw linkId idToken =>
    exact serve_keeps F h (microsoftLogin_keeps h LinksIdentify.sameIdentities
      (record_identify h hfits))
  | microsoftMemberLogin ctx draw linkId idToken registered =>
    exact serve_keeps F h (microsoftMemberLogin_keeps h LinksIdentify.sameIdentities
      (record_identify h hfits))

/-- **A Microsoft identity maps to at most one account** in every state that calls whose sign-ins
fit lead to. -/
theorem identity_identifies_account (h₀ : IdentityIdentifies w₀.db)
    (h : Served (AccountCall.body maps oidc settings) (IdentityFits maps oidc) w₀ w) :
    IdentityIdentifies w.db :=
  (h.invariant (I := fun w => LinksIdentify w.db) h₀.links
    fun c F _ _ hI hok => c.identities_step F hI hok).identifies

end Identities

/-! ### 2.1 A renamed identity -/

theorem emptyWorld_identities : IdentityIdentifies emptyWorld.db := by
  rintro userId provider providerUid ⟨l, hl, -⟩
  cases hl

/-- Ann's first token names the account that the sync has linked to her identity. -/
theorem before_fits : SignInFits .ascii renamedIdentity twoAccounts.db "before" := by
  have hlinks : ∀ l ∈ twoAccounts.db.userThirdParties, l.providerUid = "a" → l.userId = 1 := by
    decide +kernel
  have huser : (resolvedUser .ascii twoAccounts.db
      (CaseMaps.ascii.normalize "ann@efcnewlife.org")).map AuthUser.id = some 1 := by
    decide +kernel
  have hname : ((renamedIdentity.verifyIdToken "before").bind fun c => truthy c.upn) =
      some "ann@efcnewlife.org" := by
    decide +kernel
  have huid : ((renamedIdentity.verifyIdToken "before").bind fun c =>
      c.identity.map Prod.fst) = some "a" := by
    decide +kernel
  intro claims upn u providerUid tenantId hclaims hupn hu hidentity userId hlinked
  rw [hclaims, Option.bind_some] at hname huid
  rw [hidentity] at huid
  rw [hupn] at hname
  rw [Option.some.inj hname] at hu
  rw [hu] at huser
  obtain ⟨l, hl, rfl⟩ := hlinked
  obtain ⟨hmem, hl⟩ := List.mem_filter.mp hl
  simp only [Bool.and_eq_true, decide_eq_true_eq] at hl
  exact (hlinks l hmem (hl.1.2.trans (Option.some.inj huid))).trans (Option.some.inj huser).symm

/-- Ann signs in with a token. -/
def annSignsIn (idToken : String) : AccountCall :=
  .microsoftMemberLogin { appCode := some "web" } sampleDraw 50 idToken true

/-- Ann is synced, and signs in with her own address. -/
theorem identity_identifies_account_sample :
    IdentityIdentifies (served (annSignsIn "before") twoAccounts).db := by
  have hfits : IdentityFits .ascii renamedIdentity twoAccounts 0 (annSignsIn "before") :=
    before_fits
  have hrun : Served (AccountCall.body .ascii renamedIdentity plainSettings)
      (IdentityFits .ascii renamedIdentity) emptyWorld (served (annSignsIn "before") twoAccounts) :=
    .request _ _ 0 (.request _ _ 0 .refl trivial) hfits
  exact identity_identifies_account emptyWorld_identities hrun

/-- **A renamed identity is linked to two accounts**: signing in goes by the address and never
looks the identity up. -/
theorem renamed_identity_has_two_accounts : ¬ ∀ w,
    Served (AccountCall.body .ascii renamedIdentity plainSettings) (fun _ _ _ => True) emptyWorld w →
      IdentityIdentifies w.db := by
  intro h
  have hrun : IdentityIdentifies (served (annSignsIn "after") twoAccounts).db :=
    h _ (.request _ _ 0 (.request _ _ 0 .refl trivial) trivial)
  have hlinked : ∀ userId ∈ [1, 3], Linked (served (annSignsIn "after") twoAccounts).db userId
      .microsoft "a" := by
    unfold Linked
    decide +kernel
  exact absurd ((hrun 1 _ _ (hlinked 1 (by simp))).1 3 (hlinked 3 (by simp))) (by decide)

end NewlifeCore.Auth
