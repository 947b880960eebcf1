import NewlifeCore.Auth.Identities
import NewlifeCore.Auth.SyncIsolation

/-!
# What the dry run of the directory sync predicts

The dry run looks every record up in the database as it is, the sync in what the records before it
have left.  `Directory` is what both look up; the two agree as long as no record finds something
that an earlier one has brought.

* §1 leaves the tables behind.  A person is linked, known by address, or new (`action`), and what a
  sync makes of the directory is `sync`.  `Reaches` is a directory that some persons were synced
  into as foreseen; `Reaches.foreseen_iff` says of the next one when the two directories agree on
  it.
* §2 and §3 come back to the tables: `directoryOf` is what a database answers, each statement of a
  record keeps, links or opens something in it, and `syncPerson_quietly` is the whole record.  The
  statements that can fail are those that a constraint refuses (`insertUser_error`).
* §4 is the induction over a run.  `outcomes_eq_forecast_iff` has both directions: while no record
  was a surprise the run is at a `Stage` of its forecast, and the first that is one comes to
  something else than was foreseen, which the rest of the run cannot undo in the counts.
* `AllLinked.outcomes` is the second sync, to which everybody is linked.  §5 reads the statistics
  off the outcomes, and `predicts_iff` is the equivalence.
-/

namespace NewlifeCore.Auth

open Txn Attempt

/-! ## 1. What a record is looked up in -/

/-- A record that is not skipped. -/
structure Person where
  objectId : String
  email : String

/-- **A directory**: the identities that are linked, the addresses of accounts that are not deleted,
and those that any account keeps. -/
structure Directory where
  linked : String → Prop
  live : String → Prop
  stored : String → Prop

namespace Directory

variable (dir : Directory) (p : Person)

open Classical in
/-- What the sync does with a person. -/
noncomputable def action : SyncOutcome :=
  if dir.linked p.objectId then .updated else if dir.live p.email then .linked else .created

/-- The address of a new account is taken. -/
def Refuses : Prop := ¬ dir.linked p.objectId ∧ ¬ dir.live p.email ∧ dir.stored p.email

/-- The directory once a person is synced. -/
def sync : Directory where
  linked x := dir.linked x ∨ x = p.objectId
  live e := dir.live e ∨ (¬ dir.linked p.objectId ∧ e = p.email)
  stored e := dir.stored e ∨ (¬ dir.linked p.objectId ∧ ¬ dir.live p.email ∧ e = p.email)

/-- The sync of `q` makes no difference to what is done with `p`. -/
def Apart (q p : Person) : Prop :=
  ¬ dir.linked p.objectId → q.objectId ≠ p.objectId ∧
    (¬ dir.live p.email → ¬ dir.linked q.objectId → q.email ≠ p.email)

/-- **No record comes as a surprise**: none takes the address of a deleted account, and none depends
on one before it. -/
structure Foresees (ps : List Person) : Prop where
  free : ∀ p ∈ ps, ¬ dir.Refuses p
  apart : ps.Pairwise dir.Apart

variable {dir}

/-- `now` is what `dir` has become once `done` were synced as it foresaw. -/
structure Reaches (dir : Directory) (done : List Person) (now : Directory) : Prop where
  linked : ∀ x, now.linked x ↔ dir.linked x ∨ ∃ q ∈ done, q.objectId = x
  live : ∀ e, now.live e ↔ dir.live e ∨ ∃ q ∈ done, ¬ dir.linked q.objectId ∧ q.email = e
  stored : ∀ e, now.stored e → dir.stored e ∨ now.live e
  kept : ∀ e, dir.stored e → now.stored e

variable {now : Directory} {done ps : List Person} {p q : Person}

theorem Reaches.refl : Reaches dir [] dir := by
  refine ⟨fun x => ?_, fun e => ?_, fun e => .inl, fun e h => h⟩ <;> simp

theorem action_eq_updated_iff : dir.action p = .updated ↔ dir.linked p.objectId := by
  unfold action
  grind

theorem action_eq_linked_iff :
    dir.action p = .linked ↔ ¬ dir.linked p.objectId ∧ dir.live p.email := by
  unfold action
  grind

theorem action_eq_created_iff :
    dir.action p = .created ↔ ¬ dir.linked p.objectId ∧ ¬ dir.live p.email := by
  unfold action
  grind

theorem action_eq_iff : now.action p = dir.action p ↔
    (now.linked p.objectId ↔ dir.linked p.objectId) ∧
      (¬ dir.linked p.objectId → (now.live p.email ↔ dir.live p.email)) := by
  unfold action
  grind

/-- **When the next person is no surprise.** -/
theorem Reaches.foreseen_iff (h : Reaches dir done now) :
    (¬ now.Refuses p ∧ now.action p = dir.action p) ↔
      ¬ dir.Refuses p ∧ ∀ q ∈ done, dir.Apart q p := by
  have hlinked := h.linked p.objectId
  have hlive := h.live p.email
  have hstored := h.stored p.email
  have hkept := h.kept p.email
  rw [action_eq_iff]
  unfold Refuses Apart
  by_cases hknown : dir.linked p.objectId
  · grind
  · by_cases haccount : dir.live p.email
    · grind
    · grind

theorem Reaches.sync (h : Reaches dir done now) (hp : now.action p = dir.action p) :
    Reaches dir (done ++ [p]) (now.sync p) := by
  obtain ⟨hlinked, -⟩ := action_eq_iff.mp hp
  refine ⟨fun x => ?_, fun e => ?_, fun e he => ?_, fun e he => .inl (h.kept e he)⟩
  · have := h.linked x
    simp only [Directory.sync, List.mem_append, List.mem_singleton]
    grind
  · have := h.live e
    simp only [Directory.sync, List.mem_append, List.mem_singleton]
    grind
  · have := h.stored e
    simp only [Directory.sync] at he ⊢
    grind

theorem foresees_cons : dir.Foresees (p :: ps) ↔
    ¬ dir.Refuses p ∧ (∀ q ∈ ps, dir.Apart p q) ∧ dir.Foresees ps := by
  constructor
  · rintro ⟨hfree, hapart⟩
    obtain ⟨hp, hps⟩ := List.pairwise_cons.mp hapart
    exact ⟨hfree p List.mem_cons_self, hp, fun q hq => hfree q (List.mem_cons_of_mem _ hq), hps⟩
  · rintro ⟨hp, hapart, hfree, hps⟩
    refine ⟨fun q hq => ?_, List.pairwise_cons.mpr ⟨hapart, hps⟩⟩
    rcases List.mem_cons.mp hq with rfl | hq
    · exact hp
    · exact hfree q hq

end Directory

/-! ## 2. Records -/

/-- Every link and every profile has its account. -/
structure References (db : Db) : Prop where
  link : ∀ l ∈ db.userThirdParties, ∃ u ∈ db.users, u.id = l.userId
  profile : ∀ p ∈ db.userProfiles, ∃ u ∈ db.users, u.id = p.userId

/-- What the statements of a sync beside links and new accounts do: flags and profiles change, and
an account may get its profile. -/
structure Edits (db db' : Db) : Prop where
  identities : SameIdentities db db'
  profiles : ∀ p ∈ db'.userProfiles, (∃ p₀ ∈ db.userProfiles, p₀.userId = p.userId) ∨
    ∃ u ∈ db.users, u.id = p.userId

/-- The directory of a database, for addresses as the sync resolves them. -/
def directoryOf (maps : CaseMaps) (db : Db) : Directory where
  linked x := ∃ userId, Linked db userId .microsoft x
  live e := maps.normalize e = e ∧ ∃ u ∈ db.users, UserRepository.emailMatches maps e u = true
  stored e := ∃ u ∈ db.users, u.email = some e

variable {maps : CaseMaps} {db db' : Db} {t : Int}

theorem SameAddresses.hasUser (h : SameAddresses db db') {id : UUID} :
    (∃ u ∈ db'.users, u.id = id) ↔ ∃ u ∈ db.users, u.id = id := by
  obtain ⟨f, hf, husers⟩ := h
  rw [husers]
  simp only [List.mem_map, exists_exists_and_eq_and, (hf _).1]

theorem SameAddresses.emailMatches (h : SameAddresses db db') {email : String} :
    (∃ u ∈ db'.users, UserRepository.emailMatches maps email u = true) ↔
      ∃ u ∈ db.users, UserRepository.emailMatches maps email u = true := by
  obtain ⟨f, hf, husers⟩ := h
  rw [husers]
  simp only [List.mem_map, exists_exists_and_eq_and, UserRepository.emailMatches, (hf _).2.1,
    (hf _).2.2]

theorem SameAddresses.stored (h : SameAddresses db db') {email : String} :
    (∃ u ∈ db'.users, u.email = some email) ↔ ∃ u ∈ db.users, u.email = some email := by
  obtain ⟨f, hf, husers⟩ := h
  rw [husers]
  simp only [List.mem_map, exists_exists_and_eq_and, (hf _).2.1]

theorem SameIdentities.directory (h : SameIdentities db db') :
    directoryOf maps db' = directoryOf maps db := by
  unfold directoryOf
  congr 1
  · funext x
    exact propext (exists_congr fun _ => linked_same h.2)
  · funext e
    exact propext (and_congr_right fun _ => h.1.emailMatches)
  · funext e
    exact propext h.1.stored

theorem Edits.trans {db₁ db₂ db₃ : Db} (h : Edits db₁ db₂) (h' : Edits db₂ db₃) :
    Edits db₁ db₃ := by
  refine ⟨h.identities.trans h'.identities, fun p hp => ?_⟩
  rcases h'.profiles p hp with ⟨q, hq, hid⟩ | hu
  · rw [← hid]
    exact h.profiles q hq
  · exact .inr (h.identities.1.hasUser.mp hu)

theorem Edits.references (h : Edits db db') (hdb : References db) : References db' := by
  refine ⟨fun l hl => ?_, fun p hp => ?_⟩
  · rw [h.identities.2] at hl
    exact h.identities.1.hasUser.mpr (hdb.link l hl)
  · refine h.identities.1.hasUser.mpr ?_
    rcases h.profiles p hp with ⟨p₀, hp₀, hid⟩ | hu
    · rw [← hid]
      exact hdb.profile p₀ hp₀
    · exact hu

/-! ## 3. What the statements of a record come to -/

namespace MicrosoftUserSyncService

open UserRepository

/-- An exception that no constraint of a table raised. -/
def Invalid (e : AuthError) : Prop := ∀ m, e ≠ .integrity m

/-- An identity that its column takes. -/
def Storable (objectId : String) : Prop := objectId ≠ "" ∧ objectId.length ≤ 255

/-- The names that the sync makes of a record are not empty. -/
def Named (record : GraphUserRecord) : Prop :=
  (profileFieldsFromGraphUser record).1 ≠ "" ∧ (profileFieldsFromGraphUser record).2.1 ≠ ""

/-- A record that is not skipped has a given name and a surname. -/
theorem named_of_isRealPerson {record : GraphUserRecord} (h : isRealPerson record = true) :
    Named record := by
  unfold isRealPerson at h
  rw [Bool.and_eq_true, decide_eq_true_eq, decide_eq_true_eq] at h
  unfold Named profileFieldsFromGraphUser profileFieldsFromMicrosoftClaims
  simp [h.1, h.2]

/-- An identity is linked, and nothing else looked up has changed. -/
structure Links (maps : CaseMaps) (objectId : String) (db db' : Db) : Prop where
  directory : directoryOf maps db' = { directoryOf maps db with
    linked := fun x => (directoryOf maps db).linked x ∨ x = objectId }
  references : References db'
  users : ∀ id, (∃ u ∈ db'.users, u.id = id) ↔ ∃ u ∈ db.users, u.id = id
  fits : Storable objectId

variable {tenantId : UUID} {record : GraphUserRecord} {draw : SyncDraw} {userId : UUID}

theorem Links.edited {objectId : String} {db₁ : Db} (hedits : Edits db db₁)
    (h : Links maps objectId db₁ db') : Links maps objectId db db' := by
  refine ⟨?_, h.references, fun id => (h.users id).trans hedits.identities.1.hasUser, h.fits⟩
  rw [h.directory, hedits.identities.directory]

/-- Nobody is linked to an account that is not there. -/
theorem link_quietly (hdb : References db) (huser : ∃ u ∈ db.users, u.id = userId) :
    Quietly t db (link tenantId record draw userId) (fun _ => Links maps record.objectId db)
      (fun e => Invalid e ∧ ¬ Storable record.objectId) := by
  refine .method (fun _ db' hexec => ?_) fun e hexec => ?_
  · have hlinked := fun x => exists_congr fun u =>
      upsert_linked hexec (u := u) (p := .microsoft) (x := x)
    obtain ⟨c, hc, rfl⟩ := Prog.exec_executed hexec
    split at hc
    · cases hc
    · rename_i hempty
      split at hc
      · cases hc
      · rename_i hfits
        split at hc
        · cases hc
        · cases hc
          refine ⟨?_, ⟨fun l hl => ?_, hdb.profile⟩, fun _ => Iff.rfl, hempty,
            by simpa [fits] using hfits⟩
          · unfold directoryOf
            congr 1
            funext x
            refine propext ((hlinked x).trans ?_)
            simp [exists_or]
          · let renew : AuthUserThirdParty → AuthUserThirdParty := fun l =>
              { l with providerTenantId := tenantId, isDeleted := false }
            rcases userThirdPartyTable.name_upserted (f := renew) (fun _ => rfl) hl with
              ⟨l₀, hl₀, hname⟩ | hname
            · obtain ⟨hid, -⟩ := RowName.userThirdParty.inj hname
              rw [← hid]
              exact hdb.link l₀ hl₀
            · obtain ⟨hid, -⟩ := RowName.userThirdParty.inj hname
              rw [hid]
              exact huser
  · obtain ⟨u, hu, hid⟩ := huser
    have hany : (db.users.any fun u => u.id = userId) = true :=
      List.any_eq_true.mpr ⟨u, hu, decide_eq_true hid⟩
    simp only [upsertAuthUserThirdParty, Prog.execute, Prog.exec, hany] at hexec
    split at hexec
    · rename_i e' hrefused
      cases hexec
      by_cases hempty : record.objectId = ""
      · rw [if_pos hempty] at hrefused
        cases hrefused
        exact ⟨fun m => AuthError.noConfusion, fun hfits => hfits.1 hempty⟩
      · rw [if_neg hempty] at hrefused
        split at hrefused
        · rename_i hlong
          cases hrefused
          refine ⟨fun m => AuthError.noConfusion, fun hfits => ?_⟩
          simp [fits, hfits.2] at hlong
        · cases hrefused
    · cases hexec

theorem updateProfile_quietly {E : AuthError → Prop} (hnamed : Named record) :
    Quietly t db (updateProfile record userId) (fun _ => Edits db) E := by
  unfold Named at hnamed
  unfold updateProfile
  generalize profileFieldsFromGraphUser record = names at hnamed ⊢
  refine Quietly.method (q := updateDirectoryUserProfile userId names.1 names.2.1 names.2.2)
    (fun _ db' hexec => ?_) fun e hexec => ?_
  · have hsame := (updateDirectoryUserProfile_writes userId _ _ _).exec .refl .trans hexec
    obtain ⟨c, hc, rfl⟩ := Prog.exec_executed hexec
    rw [if_neg hnamed.1, if_neg hnamed.2] at hc
    cases hc
    refine ⟨hsame, fun p hp => .inl ?_⟩
    obtain ⟨p₀, hp₀, rfl⟩ := List.mem_map.mp hp
    refine ⟨p₀, hp₀, ?_⟩
    split <;> rfl
  · simp only [updateDirectoryUserProfile, Prog.execute, Prog.exec, if_neg hnamed.1,
      if_neg hnamed.2] at hexec
    cases hexec

theorem activeFlag_quietly {isActive : Bool} {E : AuthError → Prop} :
    Quietly t db (method (updateUserActiveFlag userId isActive) : AuthAttempt Unit)
      (fun _ => Edits db) E := by
  refine Quietly.method (fun _ db' hexec => ?_) fun e hexec => ?_
  · have hsame := (updateUserActiveFlag_writes userId isActive).exec .refl .trans hexec
    obtain ⟨c, hc, rfl⟩ := Prog.exec_executed hexec
    cases hc
    exact ⟨hsame, fun p hp => .inl ⟨p, hp, rfl⟩⟩
  · cases hexec

/-- The insertion of a profile for an account that has none. -/
theorem insertUserProfile_error {profile : AuthUserProfile} {e : AuthError}
    (huser : ∃ u ∈ db.users, u.id = profile.userId)
    (hnone : ∀ p ∈ db.userProfiles, p.userId ≠ profile.userId)
    (hfirst : profile.firstName ≠ "") (hlast : profile.lastName ≠ "")
    (hexec : (insertUserProfile profile).exec db t = .error e) : e = valueTooLong ∧
      ¬ (profile.firstName.length ≤ 64 ∧ profile.lastName.length ≤ 64 ∧
        fits 64 profile.preferredName) := by
  have huser : (db.users.any fun u => u.id = profile.userId) = true := by simpa using huser
  have hnone : (db.userProfiles.any fun p => p.userId = profile.userId) = false := by
    simpa using hnone
  simp only [insertUserProfile, Prog.execute, Prog.exec, huser, hnone, if_neg hfirst,
    if_neg hlast] at hexec
  by_cases hfits : (fits 64 (some profile.firstName) && fits 64 (some profile.lastName) &&
      fits 64 profile.preferredName) = true
  · simp [hfits] at hexec
  · refine ⟨by simp [hfits] at hexec; exact hexec.symm, fun hall => hfits ?_⟩
    simpa [fits, and_assoc] using hall

theorem createProfile_quietly {firstName lastName : String} (preferredName : Option String)
    (hfirst : firstName ≠ "") (hlast : lastName ≠ "")
    (huser : ∃ u ∈ db.users, u.id = userId) (hnone : ∀ p ∈ db.userProfiles, p.userId ≠ userId) :
    Quietly t db (method (createUserProfile userId firstName lastName preferredName) :
      AuthAttempt Unit) (fun _ => Edits db) Invalid := by
  refine Quietly.method (fun _ db' hexec => ?_) fun e hexec m => ?_
  · have hsame := (createUserProfile_writes userId _ _ _).exec .refl .trans hexec
    refine ⟨hsame, fun p hp => ?_⟩
    rw [insertUserProfile_exec hexec] at hp
    rcases List.mem_append.mp hp with hp | hp
    · exact .inl ⟨p, hp, rfl⟩
    · obtain rfl := List.mem_singleton.mp hp
      exact .inr huser
  · rw [(insertUserProfile_error huser hnone hfirst hlast hexec).1]
    exact AuthError.noConfusion

theorem saveProfile_quietly (hnamed : Named record) (huser : ∃ u ∈ db.users, u.id = userId) :
    Quietly t db (saveProfile record userId) (fun _ => Edits db) Invalid := by
  refine .bind (Q := fun found db' => db = db' ∧
    found = db.userProfiles.any fun p => p.userId = userId) (.select ⟨rfl, rfl⟩) ?_
  rintro found _ ⟨rfl, hfound⟩
  split
  · exact updateProfile_quietly hnamed
  · rename_i hnot
    have hnone : ∀ p ∈ db.userProfiles, p.userId ≠ userId := by
      rw [hfound] at hnot
      simpa using hnot
    unfold Named at hnamed
    generalize profileFieldsFromGraphUser record = names at hnamed ⊢
    exact createProfile_quietly names.2.2 hnamed.1 hnamed.2 huser hnone

theorem updateUser_quietly (hdb : References db) (hnamed : Named record) (huser : ∃ u ∈ db.users, u.id = userId) :
    Quietly t db (updateUser tenantId record draw userId) (fun _ => Links maps record.objectId db)
      (fun e => Invalid e ∧ ¬ Storable record.objectId) := by
  refine .bind (updateProfile_quietly hnamed) fun _ db₁ h₁ => .bind activeFlag_quietly fun _ db₂ h₂ => ?_
  have hedits := h₁.trans h₂
  exact (link_quietly (hedits.references hdb) (hedits.identities.1.hasUser.mpr huser)).conseq
    (fun _ _ hlinks => hlinks.edited hedits) fun _ he => he

theorem linkUser_quietly (hdb : References db) (hnamed : Named record)
    (huser : ∃ u ∈ db.users, u.id = userId) :
    Quietly t db (linkUser tenantId record draw userId) (fun _ => Links maps record.objectId db)
      Invalid := by
  refine .bind (saveProfile_quietly hnamed huser) fun _ db₁ h₁ =>
    .bind activeFlag_quietly fun _ db₂ h₂ => ?_
  have hedits := h₁.trans h₂
  exact (link_quietly (hedits.references hdb) (hedits.identities.1.hasUser.mpr huser)).conseq
    (fun _ _ hlinks => hlinks.edited hedits) fun _ he => he.1

theorem first64_fits (text : String) : (first64 text).length ≤ 64 := by
  simp only [first64, String.length_ofList]
  exact (List.length_take ..).trans_le (min_le_left ..)

theorem first64_ne_empty {text : String} (h : text ≠ "") : first64 text ≠ "" := by
  have hne : text.toList ≠ [] := fun hnil => h (String.toList_inj.mp (hnil.trans rfl))
  intro hfirst
  have hnil : text.toList.take 64 = [] := by
    rw [← String.toList_ofList (l := text.toList.take 64)]
    exact congrArg String.toList hfirst
  rcases List.take_eq_nil_iff.mp hnil with hzero | hnil
  · cases hzero
  · exact hne hnil

theorem fits_first64 (name : Option String) : fits 64 (name.map first64) = true := by
  cases name with
  | none => rfl
  | some name => simp [fits, first64_fits]

/-- What a new account leaves to be looked up. -/
structure Opens (maps : CaseMaps) (userId : UUID) (email : String) (db db' : Db) : Prop where
  free : ¬ (directoryOf maps db).stored email
  directory : directoryOf maps db' = { directoryOf maps db with
    live := fun e => (directoryOf maps db).live e ∨ e = email
    stored := fun e => (directoryOf maps db).stored e ∨ e = email }
  references : References db'
  users : ∀ id, (∃ u ∈ db'.users, u.id = id) ↔ (∃ u ∈ db.users, u.id = id) ∨ id = userId

theorem insertUser_opens {user : AuthUser} {email : String} {profile : AuthUserProfile} {db₁ : Db}
    (hdb : References db) (hexec : (insertUser user).exec db t = .ok ((), db₁))
    (hexec₁ : (insertUserProfile profile).exec db₁ t = .ok ((), db'))
    (hemail : user.email = some email) (hlive : user.isDeleted = false)
    (hnorm : maps.normalize email = email) (hprofile : profile.userId = user.id) :
    Opens maps user.id email db db' := by
  obtain ⟨hfresh, rfl⟩ := insertUser_exec hexec
  rw [insertUserProfile_exec hexec₁]
  have hmatch : ∀ e, emailMatches maps e user = true ↔ maps.normalize e = email := by
    intro e
    simp only [emailMatches, hemail, hlive, Bool.not_false, Bool.true_and, Option.any_some,
      decide_eq_true_eq]
    rw [← hnorm, maps.sqlLower_normalize, hnorm]
    exact eq_comm
  refine ⟨?_, ?_, ⟨fun l hl => ?_, fun p hp => ?_⟩, fun id => ?_⟩
  · rintro ⟨u, hu, he⟩
    exact AdminUserService.sameKey_email hemail (hfresh u hu).2 he
  · unfold directoryOf
    congr 1
    · funext e
      simp only [List.mem_append, List.mem_singleton, or_and_right, exists_or, exists_eq_left,
        hmatch]
      refine propext ?_
      grind
    · funext e
      simp only [List.mem_append, List.mem_singleton, or_and_right, exists_or, exists_eq_left,
        hemail, Option.some.injEq]
      refine propext ?_
      grind
  · obtain ⟨u, hu, hid⟩ := hdb.link l hl
    exact ⟨u, List.mem_append_left _ hu, hid⟩
  · rcases List.mem_append.mp hp with hp | hp
    · obtain ⟨u, hu, hid⟩ := hdb.profile p hp
      exact ⟨u, List.mem_append_left _ hu, hid⟩
    · obtain rfl := List.mem_singleton.mp hp
      exact ⟨user, by simp, hprofile.symm⟩
  · simp only [List.mem_append, List.mem_singleton, or_and_right, exists_or, exists_eq_left]
    exact or_congr_right eq_comm

/-- A user is refused for its address alone. -/
theorem insertUser_error {user : AuthUser} {email : String} {e : AuthError}
    (hexec : (insertUser user).exec db t = .error e) (hemail : user.email = some email)
    (hphone : user.phoneNumber = none) (hfresh : ¬ ∃ u ∈ db.users, u.id = user.id) :
    (directoryOf maps db).stored email ∨ e = valueTooLong := by
  by_cases hstored : ∃ u ∈ db.users, u.email = some email
  · exact .inl hstored
  · have hany : (db.users.any fun r => r.id = user.id || sameKey r user) = false := by
      rw [List.any_eq_false]
      intro r hr
      have hid : r.id ≠ user.id := fun h => hfresh ⟨r, hr, h⟩
      have hne : r.email ≠ some email := fun h => hstored ⟨r, hr, h⟩
      cases hnumber : r.phoneNumber <;> simp [hid, sameKey, hemail, hphone, hnumber, hne]
    simp only [insertUser, Prog.execute, Prog.exec, hany] at hexec
    grind

theorem createDirectoryUser_quietly {email : String} {verified isActive isAdmin : Bool}
    {firstName lastName : String} (preferredName : Option String) (hdb : References db)
    (hfirst : firstName ≠ "") (hlast : lastName ≠ "") (hne : email ≠ "")
    (hnorm : maps.normalize email = email) (hfresh : ¬ ∃ u ∈ db.users, u.id = userId) :
    Quietly t db (method (createDirectoryUser maps userId email verified isActive isAdmin firstName
        lastName preferredName) : AuthAttempt Unit) (fun _ => Opens maps userId email db)
      (fun e => (directoryOf maps db).stored email ∨ Invalid e) := by
  have hemail : emptyAsNull (some (maps.normalize email)) = some email := by
    rw [hnorm]
    exact emptyAsNull_some hne
  refine .method (fun _ db' hexec => ?_) fun e hexec => ?_
  · obtain ⟨_, db₁, hinsert, hprofile⟩ := Prog.exec_bind_ok hexec
    exact insertUser_opens hdb hinsert hprofile hemail rfl hnorm rfl
  · rcases Prog.exec_bind_error hexec with hinsert | ⟨_, db₁, hinsert, hprofile⟩
    · refine (insertUser_error hinsert hemail rfl hfresh).imp_right ?_
      rintro rfl m
      exact AuthError.noConfusion
    · obtain ⟨-, rfl⟩ := insertUser_exec hinsert
      refine absurd ⟨first64_fits _, first64_fits _, ?_⟩
        (insertUserProfile_error ⟨_, List.mem_append_right _ List.mem_cons_self, rfl⟩
          (fun p hp hid => ?_) (first64_ne_empty hfirst) (first64_ne_empty hlast) hprofile).2
      · obtain ⟨u, hu, huser⟩ := hdb.profile p hp
        exact hfresh ⟨u, hu, huser.trans hid⟩
      · exact fits_first64 preferredName

theorem createUser_quietly {email : String} (hdb : References db) (hnamed : Named record)
    (hne : email ≠ "") (hnorm : maps.normalize email = email) (hfresh : ¬ ∃ u ∈ db.users, u.id = draw.newUserId) :
    Quietly t db (createUser maps tenantId record draw email)
      (fun _ db' => ∃ db₁, Opens maps draw.newUserId email db db₁ ∧
        Links maps record.objectId db₁ db')
      (fun e => (directoryOf maps db).stored email ∨ Invalid e) := by
  unfold createUser
  unfold Named at hnamed
  generalize profileFieldsFromGraphUser record = names at hnamed ⊢
  refine .bind (createDirectoryUser_quietly names.2.2 hdb hnamed.1 hnamed.2 hne hnorm hfresh)
    fun _ db₁ hopens => ?_
  exact (link_quietly hopens.references ((hopens.users _).mpr (.inr rfl))).conseq
    (fun _ db' hlinks => ⟨db₁, hopens, hlinks⟩) fun _ he => .inr he.1

/-- **What the sync of a person does**: what the directory asks for. -/
structure Synced (maps : CaseMaps) (newUserId : UUID) (p : Person) (db : Db) (o : SyncOutcome)
    (db' : Db) : Prop where
  allowed : ¬ (directoryOf maps db).Refuses p
  outcome : o = (directoryOf maps db).action p
  directory : directoryOf maps db' = (directoryOf maps db).sync p
  references : References db'
  users : ∀ id, (∃ u ∈ db'.users, u.id = id) → (∃ u ∈ db.users, u.id = id) ∨ id = newUserId
  fits : Storable p.objectId

theorem Links.synced {p : Person} {newUserId : UUID} {o : SyncOutcome}
    (h : Links maps p.objectId db db') (hout : o = (directoryOf maps db).action p)
    (hknown : (directoryOf maps db).linked p.objectId ∨ (directoryOf maps db).live p.email) :
    Synced maps newUserId p db o db' := by
  refine ⟨fun hno => ?_, hout, ?_, h.references, fun id hid => .inl ((h.users id).mp hid), h.fits⟩
  · exact hknown.elim hno.1 hno.2.1
  · rw [h.directory]
    simp only [Directory.sync, Directory.mk.injEq, true_and]
    refine ⟨funext fun e => propext ⟨.inl, ?_⟩, funext fun e => propext ⟨.inl, ?_⟩⟩
    · rintro (he | ⟨hnot, rfl⟩)
      · exact he
      · exact hknown.resolve_left hnot
    · rintro (he | ⟨hnot, hnone, -⟩)
      · exact he
      · exact (hknown.elim hnot hnone).elim

theorem Opens.synced {p : Person} {newUserId : UUID} {db₁ : Db}
    (hnew : ¬ (directoryOf maps db).linked p.objectId)
    (hnone : ¬ (directoryOf maps db).live p.email)
    (h : Opens maps newUserId p.email db db₁) (hlinks : Links maps p.objectId db₁ db') :
    Synced maps newUserId p db .created db' := by
  refine ⟨fun hno => h.free hno.2.2, (Directory.action_eq_created_iff.mpr ⟨hnew, hnone⟩).symm, ?_,
    hlinks.references, fun id hid => (h.users id).mp ((hlinks.users id).mp hid), hlinks.fits⟩
  rw [hlinks.directory, h.directory]
  unfold Directory.sync
  simp only [hnew, hnone, not_false_eq_true, true_and]

theorem find_account (db : Db) {email : String} (hne : email ≠ "")
    (hnorm : maps.normalize email = email) :
    (sensitiveByEmailWithoutProfile maps db email = none ↔ ¬ (directoryOf maps db).live email) ∧
      ∀ u, sensitiveByEmailWithoutProfile maps db email = some u → u ∈ db.users := by
  unfold sensitiveByEmailWithoutProfile
  rw [if_neg hne]
  refine ⟨?_, fun u hu => List.mem_of_find?_eq_some hu⟩
  rw [List.find?_eq_none]
  simp [directoryOf, hnorm]

/-- The sync of a linked person. -/
theorem syncPerson_linked {email : String} {newUserId : UUID} (hdb : References db)
    (hnamed : Named record) (hlinked : (directoryOf maps db).linked record.objectId) :
    Quietly t db (syncPerson maps tenantId record draw false email)
      (Synced maps newUserId ⟨record.objectId, email⟩ db)
      (fun e => Invalid e ∧ ¬ Storable record.objectId) := by
  refine .bind (Q := fun found db' => db = db' ∧ found = linkedUser db record.objectId)
    (.select ⟨rfl, rfl⟩) ?_
  rintro found _ ⟨rfl, hfound⟩
  cases found with
  | some userId =>
    obtain ⟨l, hl, hid⟩ := Option.map_eq_some_iff.mp hfound.symm
    have huser : ∃ u ∈ db.users, u.id = userId := by
      rw [← hid]
      exact hdb.link l (List.mem_filter.mp (List.mem_of_mem_head? hl)).1
    refine .bind (updateUser_quietly hdb hnamed huser) fun _ db' hlinks =>
      .ret (hlinks.synced ?_ (.inl hlinked))
    exact (Directory.action_eq_updated_iff.mpr hlinked).symm
  | none =>
    obtain ⟨u, hu⟩ := hlinked
    exact (not_linked_of_linkedUser hfound.symm hu).elim

theorem syncPerson_quietly {email : String} (hdb : References db) (hnamed : Named record)
    (hne : email ≠ "") (hnorm : maps.normalize email = email) (hfresh : ¬ ∃ u ∈ db.users, u.id = draw.newUserId) :
    Quietly t db (syncPerson maps tenantId record draw false email)
      (Synced maps draw.newUserId ⟨record.objectId, email⟩ db)
      (fun e => (directoryOf maps db).Refuses ⟨record.objectId, email⟩ ∨ Invalid e) := by
  by_cases hnew : (directoryOf maps db).linked record.objectId
  · exact (syncPerson_linked hdb hnamed hnew).conseq (fun _ _ h => h) fun _ he => .inr he.1
  refine .bind (Q := fun found db' => db = db' ∧ found = linkedUser db record.objectId)
    (.select ⟨rfl, rfl⟩) ?_
  rintro found _ ⟨rfl, hfound⟩
  cases found with
  | some userId =>
    obtain ⟨l, hl, hid⟩ := Option.map_eq_some_iff.mp hfound.symm
    exact (hnew ⟨userId, l, List.mem_of_mem_head? hl, hid⟩).elim
  | none =>
    obtain ⟨hnone, hmem⟩ := find_account db hne hnorm
    refine .bind (Q := fun found db' => db = db' ∧
      found = sensitiveByEmailWithoutProfile maps db email) (.select ⟨rfl, rfl⟩) ?_
    rintro found _ ⟨rfl, hfound⟩
    cases found with
    | some existing =>
      have hlive : (directoryOf maps db).live email := by
        by_contra hnot
        rw [hnone.mpr hnot] at hfound
        cases hfound
      refine .bind ((linkUser_quietly hdb hnamed ⟨existing, hmem _ hfound.symm, rfl⟩).conseq
        (fun _ _ h => h) fun _ he => .inr he) fun _ db' hlinks =>
          .ret (hlinks.synced ?_ (.inr hlive))
      exact (Directory.action_eq_linked_iff.mpr ⟨hnew, hlive⟩).symm
    | none =>
      have hnobody := hnone.mp hfound.symm
      refine .bind ((createUser_quietly hdb hnamed hne hnorm hfresh).conseq (fun _ _ h => h) ?_) ?_
      · exact fun _ he => he.imp_left fun hstored => ⟨hnew, hnobody, hstored⟩
      · rintro _ db' ⟨db₁, hopens, hlinks⟩
        exact .ret (hopens.synced hnew hnobody hlinks)

/-! ## 4. What the records of a run come to -/

/-- The address that a record is synced under, unless it is skipped. -/
def admitted (maps : CaseMaps) (record : GraphUserRecord) : Except SyncOutcome String :=
  match resolveSyncEmail maps record with
  | none => .error .skippedNoEmail
  | some email =>
    if !isSyncEmailDomain maps email then .error .skippedDomainMismatch
    else match skipReason maps record email with
    | some skipped => .error skipped
    | none => .ok email

def personOf (maps : CaseMaps) (record : GraphUserRecord) : Option Person :=
  (admitted maps record).toOption.map fun email => ⟨record.objectId, email⟩

/-- What a directory says of a record. -/
noncomputable def foretold (maps : CaseMaps) (dir : Directory) (record : GraphUserRecord) :
    SyncOutcome :=
  match admitted maps record with
  | .error o => o
  | .ok email => dir.action ⟨record.objectId, email⟩

variable (maps tenantId) in
/-- The sync of a directory entry, dry or not. -/
def syncItem (dryRun : Bool) (item : GraphUserRecord × SyncDraw) : AuthAttempt SyncOutcome :=
  syncOne maps tenantId item.1 item.2 dryRun

theorem syncItem_eq (dryRun : Bool) (item : GraphUserRecord × SyncDraw) :
    syncItem maps tenantId dryRun item = match admitted maps item.1 with
      | .error o => ret o
      | .ok email => syncPerson maps tenantId item.1 item.2 dryRun email := by
  unfold syncItem syncOne admitted
  cases resolveSyncEmail maps item.1 with
  | none => rfl
  | some email =>
    dsimp only
    split
    · rfl
    · cases skipReason maps item.1 email <;> rfl

theorem admitted_email {record : GraphUserRecord} {email : String}
    (h : admitted maps record = .ok email) : email ≠ "" ∧ maps.normalize email = email := by
  unfold admitted at h
  cases hemail : resolveSyncEmail maps record with
  | none =>
    rw [hemail] at h
    cases h
  | some email' =>
    rw [hemail] at h
    obtain rfl : email' = email := by
      dsimp only at h
      split at h
      · cases h
      · split at h
        · cases h
        · exact Except.ok.inj h
    unfold resolveSyncEmail at hemail
    dsimp only at hemail
    split at hemail
    · cases hemail
    · rename_i hne
      cases hemail
      exact ⟨hne, maps.normalize_normalize _⟩

/-- What is admitted has the names of a person. -/
theorem admitted_named {record : GraphUserRecord} {email : String}
    (h : admitted maps record = .ok email) : Named record := by
  by_contra hnot
  have hreal : isRealPerson record = false :=
    Bool.eq_false_iff.mpr fun hreal => hnot (named_of_isRealPerson hreal)
  unfold admitted at h
  split at h
  · cases h
  · split at h
    · cases h
    · rw [skipReason, if_pos (by rw [hreal]; rfl)] at h
      cases h

theorem skipReason_outcome {record : GraphUserRecord} {email : String} {o : SyncOutcome}
    (h : skipReason maps record email = some o) :
    o = .skippedNotRealPerson ∨ o = .skippedServiceAccount := by
  unfold skipReason at h
  split at h
  · cases h
    exact .inl rfl
  · obtain ⟨_, -, rfl⟩ := Option.map_eq_some_iff.mp h
    exact .inr rfl

theorem skipped_outcome {record : GraphUserRecord} {o : SyncOutcome}
    (h : admitted maps record = .error o) : o ≠ .created ∧ o ≠ .linked := by
  unfold admitted at h
  cases hemail : resolveSyncEmail maps record with
  | none =>
    rw [hemail] at h
    cases h
    exact ⟨nofun, nofun⟩
  | some email =>
    rw [hemail] at h
    dsimp only at h
    split at h
    · cases h
      exact ⟨nofun, nofun⟩
    · split at h
      · rename_i hskip
        cases h
        rcases skipReason_outcome hskip with rfl | rfl <;> exact ⟨nofun, nofun⟩
      · cases h

theorem syncItem_statements (dryRun : Bool) (item : GraphUserRecord × SyncDraw) :
    Statements (syncItem maps tenantId dryRun item) := by
  cases dryRun with
  | false => exact syncEntry_statements maps tenantId item
  | true =>
    rw [syncItem_eq]
    cases admitted maps item.1 with
    | error o => exact .ret _
    | ok email =>
      refine .bind (.method _) fun linked => ?_
      cases linked with
      | some userId => exact .ret _
      | none =>
        refine .bind (.method _) fun found => ?_
        cases found <;> exact .ret _

/-- The dry run only looks. -/
theorem dryItem_quietly (item : GraphUserRecord × SyncDraw) {E : AuthError → Prop} :
    Quietly t db (syncItem maps tenantId true item)
      (fun o db' => db' = db ∧ o = foretold maps (directoryOf maps db) item.1) E := by
  rw [syncItem_eq]
  unfold foretold
  cases hadmitted : admitted maps item.1 with
  | error o => exact .ret ⟨rfl, rfl⟩
  | ok email =>
    obtain ⟨hne, hnorm⟩ := admitted_email hadmitted
    refine .bind (Q := fun found db' => db = db' ∧ found = linkedUser db item.1.objectId)
      (.select ⟨rfl, rfl⟩) ?_
    rintro found _ ⟨rfl, hfound⟩
    cases found with
    | some userId =>
      obtain ⟨l, hl, hid⟩ := Option.map_eq_some_iff.mp hfound.symm
      refine .ret ⟨rfl, (Directory.action_eq_updated_iff.mpr ?_).symm⟩
      exact ⟨userId, l, List.mem_of_mem_head? hl, hid⟩
    | none =>
      have hnew : ¬ (directoryOf maps db).linked item.1.objectId := fun ⟨u, hu⟩ =>
        not_linked_of_linkedUser hfound.symm hu
      obtain ⟨hnone, -⟩ := find_account db hne hnorm
      refine .bind (Q := fun found db' => db = db' ∧
        found = sensitiveByEmailWithoutProfile maps db email) (.select ⟨rfl, rfl⟩) ?_
      rintro found _ ⟨rfl, hfound⟩
      cases found with
      | some existing =>
        refine .ret ⟨rfl, (Directory.action_eq_linked_iff.mpr ⟨hnew, ?_⟩).symm⟩
        by_contra hnot
        rw [hnone.mpr hnot] at hfound
        cases hfound
      | none =>
        exact .ret ⟨rfl, (Directory.action_eq_created_iff.mpr ⟨hnew, hnone.mp hfound.symm⟩).symm⟩

/-- A record, synced. -/
theorem syncItem_quietly {item : GraphUserRecord × SyncDraw} {p : Person} (hdb : References db)
    (hp : personOf maps item.1 = some p) (hfresh : ¬ ∃ u ∈ db.users, u.id = item.2.newUserId) :
    Quietly t db (syncItem maps tenantId false item) (Synced maps item.2.newUserId p db)
      (fun e => (directoryOf maps db).Refuses p ∨ Invalid e) := by
  unfold personOf at hp
  rw [syncItem_eq]
  cases hadmitted : admitted maps item.1 with
  | error o =>
    rw [hadmitted] at hp
    cases hp
  | ok email =>
    rw [hadmitted] at hp
    cases hp
    obtain ⟨hne, hnorm⟩ := admitted_email hadmitted
    exact syncPerson_quietly hdb (admitted_named hadmitted) hne hnorm hfresh

/-- A record that is skipped. -/
theorem skipped_quietly {dryRun : Bool} {item : GraphUserRecord × SyncDraw}
    (hp : personOf maps item.1 = none) {E : AuthError → Prop} :
    Quietly t db (syncItem maps tenantId dryRun item) (fun o db' => db' = db ∧
      (∀ dir, o = foretold maps dir item.1) ∧ o ≠ .created ∧ o ≠ .linked) E := by
  unfold personOf at hp
  rw [syncItem_eq]
  unfold foretold
  cases hadmitted : admitted maps item.1 with
  | error o => exact .ret ⟨rfl, fun _ => rfl, skipped_outcome hadmitted⟩
  | ok email =>
    rw [hadmitted] at hp
    cases hp

variable (maps tenantId) in
/-- What the records of a run come to, one by one, with no step failing but for its statement. -/
def actions (t : Int) (w : World Db Redis) (dryRun : Bool)
    (xs : List (GraphUserRecord × SyncDraw)) : List (Except AuthError SyncOutcome) :=
  outcomes (syncItem maps tenantId dryRun) t w.db w.store w.db (undisturbed xs)

/-- The records that are not skipped. -/
def people (maps : CaseMaps) (xs : List (GraphUserRecord × SyncDraw)) : List Person :=
  xs.filterMap fun x => personOf maps x.1

/-- New accounts get ids that no account has. -/
structure FreshIds (db : Db) (xs : List (GraphUserRecord × SyncDraw)) : Prop where
  nodup : (xs.map fun x => x.2.newUserId).Nodup
  unused : ∀ x ∈ xs, ¬ ∃ u ∈ db.users, u.id = x.2.newUserId

/-- In the middle of a run that went as `dir` foresaw: `done` are synced, `xs` are to come. -/
structure Stage (maps : CaseMaps) (dir : Directory) (done : List Person)
    (xs : List (GraphUserRecord × SyncDraw)) (db : Db) : Prop where
  reached : dir.Reaches done (directoryOf maps db)
  references : References db
  fresh : FreshIds db xs

variable {dir : Directory} {done : List Person} {x : GraphUserRecord × SyncDraw}
  {xs : List (GraphUserRecord × SyncDraw)} {c : Db} {r : Redis}

theorem Stage.skipped (h : Stage maps dir done (x :: xs) db) : Stage maps dir done xs db :=
  ⟨h.reached, h.references, (List.nodup_cons.mp h.fresh.nodup).2,
    fun y hy => h.fresh.unused y (List.mem_cons_of_mem _ hy)⟩

theorem Stage.synced {p : Person} {o : SyncOutcome} (h : Stage maps dir done (x :: xs) db)
    (hsynced : Synced maps x.2.newUserId p db o db') (ho : o = dir.action p) :
    Stage maps dir (done ++ [p]) xs db' := by
  refine ⟨?_, hsynced.references, (List.nodup_cons.mp h.fresh.nodup).2, fun y hy hused => ?_⟩
  · rw [hsynced.directory]
    exact h.reached.sync (hsynced.outcome.symm.trans ho)
  · rcases hsynced.users _ hused with hused | hid
    · exact h.fresh.unused y (List.mem_cons_of_mem _ hy) hused
    · exact (List.nodup_cons.mp h.fresh.nodup).1 (List.mem_map.mpr ⟨y, hy, hid⟩)

theorem people_skipped (hx : personOf maps x.1 = none) : people maps (x :: xs) = people maps xs :=
  List.filterMap_cons_none hx

theorem people_cons {p : Person} (hx : personOf maps x.1 = some p) :
    people maps (x :: xs) = p :: people maps xs := List.filterMap_cons_some hx

theorem foretold_person {p : Person} (hx : personOf maps x.1 = some p) :
    foretold maps dir x.1 = dir.action p := by
  unfold personOf at hx
  unfold foretold
  cases hadmitted : admitted maps x.1 with
  | error o =>
    rw [hadmitted] at hx
    cases hx
  | ok email =>
    rw [hadmitted] at hx
    cases hx
    rfl

variable (maps) in
/-- What a directory says of some records. -/
noncomputable def forecast (dir : Directory) (xs : List (GraphUserRecord × SyncDraw)) :
    List (Except AuthError SyncOutcome) := xs.map fun x => .ok (foretold maps dir x.1)

/-- The turn of a record that is skipped. -/
theorem turn_skipped (dryRun : Bool) (hx : personOf maps x.1 = none) :
    ∃ o, turn (syncItem maps tenantId dryRun) t c r db ⟨x, noFaults⟩ = (.ok o, db) ∧
      (∀ dir, o = foretold maps dir x.1) ∧ o ≠ .created ∧ o ≠ .linked := by
  have hquiet : Quietly t db (syncItem maps tenantId dryRun x) _ fun _ => False :=
    skipped_quietly hx
  have hturn := hquiet.turn c r
  cases hrun : turn (syncItem maps tenantId dryRun) t c r db ⟨x, noFaults⟩ with
  | mk o db' =>
    rw [hrun] at hturn
    cases o with
    | error e => exact hturn.elim
    | ok o =>
      obtain ⟨rfl, hfacts⟩ := hturn
      exact ⟨o, rfl, hfacts⟩

/-- **The dry run does what the database at its start says.** -/
theorem dry_outcomes : outcomes (syncItem maps tenantId true) t c r db (undisturbed xs) =
    forecast maps (directoryOf maps db) xs := by
  induction xs with
  | nil => rfl
  | cons x xs ih =>
    have hquiet : Quietly t db (syncItem maps tenantId true x) _ fun _ => False :=
      dryItem_quietly x
    have hturn := hquiet.turn c r
    rw [undisturbed, List.map_cons, outcomes, forecast, List.map_cons]
    cases hrun : turn (syncItem maps tenantId true) t c r db ⟨x, noFaults⟩ with
    | mk o db' =>
      rw [hrun] at hturn
      cases o with
      | error e => exact hturn.elim
      | ok o =>
        obtain ⟨rfl, rfl⟩ := hturn
        exact congrArg _ ih

/-- **A run goes as foreseen exactly when no record to come is a surprise.** -/
theorem outcomes_eq_forecast_iff (h : Stage maps dir done xs db)
    (honly : ∀ e, .error e ∈ outcomes (syncItem maps tenantId false) t c r db (undisturbed xs) →
      ¬ Invalid e) :
    outcomes (syncItem maps tenantId false) t c r db (undisturbed xs) = forecast maps dir xs ↔
      (∀ p ∈ people maps xs, ∀ q ∈ done, dir.Apart q p) ∧ dir.Foresees (people maps xs) := by
  induction xs generalizing db done with
  | nil => exact ⟨fun _ => ⟨nofun, nofun, .nil⟩, fun _ => rfl⟩
  | cons x xs ih =>
    rw [undisturbed, List.map_cons, outcomes] at honly ⊢
    rw [forecast, List.map_cons, List.cons_eq_cons]
    cases hx : personOf maps x.1 with
    | none =>
      obtain ⟨o, hturn, ho, -⟩ : ∃ o, turn (syncItem maps tenantId false) t c r db ⟨x, noFaults⟩ =
        (.ok o, db) ∧ _ := turn_skipped false hx
      rw [hturn] at honly ⊢
      rw [people_skipped hx, ← ho dir]
      simp only [true_and]
      exact ih h.skipped fun e he => honly e (List.mem_cons_of_mem _ he)
    | some p =>
      have hquiet : Quietly t db (syncItem maps tenantId false x) _ _ :=
        syncItem_quietly h.references hx (h.fresh.unused x List.mem_cons_self)
      have hturn := hquiet.turn c r
      rw [people_cons hx, foretold_person hx, Directory.foresees_cons]
      have hnext := h.reached.foreseen_iff (p := p)
      cases hrun : turn (syncItem maps tenantId false) t c r db ⟨x, noFaults⟩ with
      | mk o db' =>
        rw [hrun] at hturn honly
        cases o with
        | error e =>
          have hrefused := hturn.resolve_right (honly e List.mem_cons_self)
          constructor
          · rintro ⟨⟨⟩, -⟩
          · rintro ⟨hdone, hp, -⟩
            have := hnext.mpr ⟨hp, hdone p List.mem_cons_self⟩
            exact absurd hrefused this.1
        | ok o =>
          have honly := fun e he => honly e (List.mem_cons_of_mem _ he)
          constructor
          · rintro ⟨ho, hrest⟩
            have ho := Except.ok.inj ho
            obtain ⟨hp, hdone⟩ := hnext.mp ⟨hturn.allowed, hturn.outcome.symm.trans ho⟩
            obtain ⟨hlater, hforeseen⟩ := (ih (h.synced hturn ho) honly).mp hrest
            refine ⟨fun q hq s hs => ?_, hp, fun q hq => hlater q hq p (by simp), hforeseen⟩
            rcases List.mem_cons.mp hq with rfl | hq
            · exact hdone s hs
            · exact hlater q hq s (List.mem_append_left _ hs)
          · rintro ⟨hdone, hp, happart, hforeseen⟩
            have ho := hturn.outcome.trans (hnext.mpr ⟨hp, hdone p List.mem_cons_self⟩).2
            refine ⟨congrArg _ ho, (ih (h.synced hturn ho) honly).mpr
              ⟨fun q hq s hs => ?_, hforeseen⟩⟩
            rcases List.mem_append.mp hs with hs | hs
            · exact hdone q (List.mem_cons_of_mem _ hq) s hs
            · obtain rfl := List.mem_singleton.mp hs
              exact happart q hq

/-- Where a run that went as foreseen ends. -/
theorem Stage.finish (h : Stage maps dir done xs db)
    (hout : outcomes (syncItem maps tenantId false) t c r db (undisturbed xs) =
      forecast maps dir xs) :
    Stage maps dir (done ++ people maps xs) []
        (after (syncItem maps tenantId false) t c r db (undisturbed xs)) ∧
      ∀ p ∈ people maps xs, Storable p.objectId := by
  induction xs generalizing db done with
  | nil => exact ⟨by rw [people, List.filterMap_nil, List.append_nil]; exact h, nofun⟩
  | cons x xs ih =>
    rw [undisturbed, List.map_cons, outcomes, forecast, List.map_cons, List.cons_eq_cons] at hout
    rw [undisturbed, List.map_cons, after]
    obtain ⟨ho, hrest⟩ := hout
    cases hx : personOf maps x.1 with
    | none =>
      obtain ⟨o, hturn, -⟩ : ∃ o, turn (syncItem maps tenantId false) t c r db ⟨x, noFaults⟩ =
        (.ok o, db) ∧ _ := turn_skipped false hx
      rw [hturn] at hrest ⊢
      rw [people_skipped hx]
      exact ih h.skipped hrest
    | some p =>
      have hquiet : Quietly t db (syncItem maps tenantId false x) _ _ :=
        syncItem_quietly h.references hx (h.fresh.unused x List.mem_cons_self)
      have hturn := hquiet.turn c r
      rw [foretold_person hx] at ho
      rw [people_cons hx]
      cases hrun : turn (syncItem maps tenantId false) t c r db ⟨x, noFaults⟩ with
      | mk o' db' =>
        rw [hrun] at hturn ho hrest
        cases ho
        obtain ⟨hstage, hfits⟩ := ih (h.synced hturn rfl) hrest
        rw [List.append_assoc] at hstage
        refine ⟨hstage, fun q hq => ?_⟩
        rcases List.mem_cons.mp hq with rfl | hq
        · exact hturn.fits
        · exact hfits q hq

/-- Everybody on a list is linked. -/
structure AllLinked (maps : CaseMaps) (db : Db) (xs : List (GraphUserRecord × SyncDraw)) :
    Prop where
  references : References db
  linked : ∀ p ∈ people maps xs, (directoryOf maps db).linked p.objectId
  fits : ∀ p ∈ people maps xs, Storable p.objectId

theorem linkedItem_quietly {item : GraphUserRecord × SyncDraw} {p : Person} (hdb : References db)
    (hp : personOf maps item.1 = some p) (hlinked : (directoryOf maps db).linked p.objectId) :
    Quietly t db (syncItem maps tenantId false item) (Synced maps item.2.newUserId p db)
      (fun _ => ¬ Storable p.objectId) := by
  unfold personOf at hp
  rw [syncItem_eq]
  cases hadmitted : admitted maps item.1 with
  | error o =>
    rw [hadmitted] at hp
    cases hp
  | ok email =>
    rw [hadmitted] at hp
    cases hp
    exact (syncPerson_linked hdb (admitted_named hadmitted) hlinked).conseq (fun _ _ h => h) fun _ he => he.2

/-- **Once everybody is linked, a sync only updates.** -/
theorem AllLinked.outcomes (h : AllLinked maps db xs) :
    ∀ o ∈ outcomes (syncItem maps tenantId false) t c r db (undisturbed xs),
      ∃ a, o = .ok a ∧ a ≠ .created ∧ a ≠ .linked := by
  induction xs generalizing db with
  | nil =>
    intro o ho
    cases ho
  | cons x xs ih =>
    rw [undisturbed, List.map_cons, Attempt.outcomes]
    cases hx : personOf maps x.1 with
    | none =>
      obtain ⟨o, hturn, -, hskip⟩ : ∃ o, turn (syncItem maps tenantId false) t c r db
        ⟨x, noFaults⟩ = (.ok o, db) ∧ _ := turn_skipped false hx
      have hlinked := h.linked
      have hfits := h.fits
      rw [people_skipped hx] at hlinked hfits
      rw [hturn]
      intro o' ho'
      rcases List.mem_cons.mp ho' with rfl | ho'
      · exact ⟨o, rfl, hskip⟩
      · exact ih ⟨h.references, hlinked, hfits⟩ o' ho'
    | some p =>
      have hlinked := h.linked
      have hfits := h.fits
      rw [people_cons hx] at hlinked hfits
      have hp := hlinked p List.mem_cons_self
      have hquiet : Quietly t db (syncItem maps tenantId false x) _ _ :=
        linkedItem_quietly h.references hx hp
      have hturn := hquiet.turn c r
      cases hrun : turn (syncItem maps tenantId false) t c r db ⟨x, noFaults⟩ with
      | mk o db' =>
        rw [hrun] at hturn
        cases o with
        | error e =>
          exact absurd (hfits p List.mem_cons_self) hturn
        | ok o =>
          have hupdated : o = .updated :=
            hturn.outcome.trans (Directory.action_eq_updated_iff.mpr hp)
          have hnext : AllLinked maps db' xs := by
            refine ⟨hturn.references, fun q hq => ?_,
              fun q hq => hfits q (List.mem_cons_of_mem _ hq)⟩
            rw [hturn.directory]
            exact .inl (hlinked q (List.mem_cons_of_mem _ hq))
          intro o' ho'
          rcases List.mem_cons.mp ho' with rfl | ho'
          · exact ⟨o, rfl, by simp [hupdated]⟩
          · exact ih hnext o' ho'

/-! ## 5. Runs -/

section Runs

variable (maps) (settings : SyncSettings)

/-- One run on a list of records: what it reports and what it leaves. -/
def report (dryRun : Bool) (t : Int) (w : World Db Redis)
    (xs : List (GraphUserRecord × SyncDraw)) :
    Except AuthError MicrosoftUserSyncStats × World Db Redis :=
  match run maps settings dryRun { records := xs } noFaults t (.start w) with
  | (r, s) => (r, ⟨s.db, s.store⟩)

/-- The counts that two runs agree on. -/
def counts (stats : MicrosoftUserSyncStats) : List Nat :=
  [stats.created, stats.updated, stats.linked, stats.skippedNoEmail, stats.skippedDomainMismatch,
    stats.skippedNotRealPerson, stats.skippedServiceAccount]

/-- **The dry run predicts the sync** of the records `xs`, which a second sync meets as `ys`: it
changes nothing, counts the same and comes to the same action for each record, and the second sync
creates and links nothing. -/
structure Predicts (tenantId : UUID) (t t' : Int) (w : World Db Redis)
    (xs ys : List (GraphUserRecord × SyncDraw)) : Prop where
  unchanged : (report maps settings true t w xs).2 = w
  counts : ∃ dry real, (report maps settings true t w xs).1 = .ok dry ∧
    (report maps settings false t w xs).1 = .ok real ∧ counts dry = counts real
  actions : actions maps tenantId t w true xs = actions maps tenantId t w false xs
  settled : ∃ again, (report maps settings false t' (report maps settings false t w xs).2 ys).1 =
    .ok again ∧ again.created = 0 ∧ again.linked = 0

/-- **No record of a list comes as a surprise** to the accounts there are. -/
def Foreseen (db : Db) (xs : List (GraphUserRecord × SyncDraw)) : Prop :=
  (directoryOf maps db).Foresees (people maps xs)

variable {maps settings} {w : World Db Redis} {ys : List (GraphUserRecord × SyncDraw)} {t' : Int}

variable (maps tenantId) in
theorem syncRecord_item (dryRun : Bool) (stats : MicrosoftUserSyncStats)
    (item : GraphUserRecord × SyncDraw) : syncRecord maps tenantId dryRun stats item =
      ((syncItem maps tenantId dryRun item).bind fun o => ret (counted stats item o)).tryCatch
        fun e => ret (reported stats item e) := rfl

/-- What a run reports is the tally of what its records come to. -/
theorem report_eq (htenant : tenantOf settings = ret tenantId) (dryRun : Bool) :
    report maps settings dryRun t w xs =
      (.ok (tally counted reported {} (undisturbed xs) (actions maps tenantId t w dryRun xs)),
        if dryRun then w else
          ⟨after (syncItem maps tenantId dryRun) t w.db w.store w.db (undisturbed xs),
            w.store⟩) := by
  obtain ⟨k, hloop⟩ := foldEach_run (syncItem_statements dryRun)
    (fun stats item => syncRecord_item maps tenantId dryRun stats item)
    (F := noFaults) (t := t) w.store xs {} (.start w)
  rw [arriving_noFaults] at hloop
  have hrun : run maps settings dryRun { records := xs } =
      (foldEach xs {} (syncRecord maps tenantId dryRun)).bind fun stats =>
        (finish dryRun).bind fun _ => ret stats := by
    unfold run
    rw [htenant]
    rfl
  unfold report
  rw [hrun, bind_ok hloop]
  cases dryRun <;> rfl

/-- Accounts that are neither created nor linked are not counted as such. -/
theorem tally_settled {os : List (Except AuthError SyncOutcome)}
    (h : ∀ o ∈ os, ∃ a, o = .ok a ∧ a ≠ .created ∧ a ≠ .linked) :
    ∀ (items : List (Item (GraphUserRecord × SyncDraw) AuthError)) (acc : MicrosoftUserSyncStats),
      (tally counted reported acc items os).created = acc.created ∧
        (tally counted reported acc items os).linked = acc.linked := by
  induction os with
  | nil =>
    intro items acc
    cases items <;> exact ⟨rfl, rfl⟩
  | cons o os ih =>
    intro items acc
    obtain ⟨a, rfl, hcreated, hlinked⟩ := h o List.mem_cons_self
    cases items with
    | nil => exact ⟨rfl, rfl⟩
    | cons item items =>
      have hrest := ih (fun o ho => h o (List.mem_cons_of_mem _ ho)) items (counted acc item.item a)
      rw [tally]
      refine ⟨hrest.1.trans ?_, hrest.2.trans ?_⟩
      · cases a <;> first | rfl | exact absurd rfl hcreated
      · cases a <;> first | rfl | exact absurd rfl hlinked

/-- **When the dry run predicts the sync**, where only constraints refuse a statement: exactly if
no record comes as a surprise. -/
theorem predicts_iff (htenant : tenantOf settings = ret tenantId) (hdb : References w.db)
    (hfresh : FreshIds w.db xs) (hsame : ys.map Prod.fst = xs.map Prod.fst)
    (honly : ∀ e, .error e ∈ actions maps tenantId t w false xs → ∃ m, e = .integrity m) :
    Predicts maps settings tenantId t t' w xs ys ↔ Foreseen maps w.db xs := by
  have hstart : Stage maps (directoryOf maps w.db) [] xs w.db := ⟨.refl, hdb, hfresh⟩
  have hdry : actions maps tenantId t w true xs = forecast maps (directoryOf maps w.db) xs :=
    dry_outcomes
  have hgoes : actions maps tenantId t w false xs = forecast maps (directoryOf maps w.db) xs ↔
      _ := outcomes_eq_forecast_iff hstart fun e he hinvalid => by
    obtain ⟨m, hm⟩ := honly e he
    exact hinvalid m hm
  constructor
  · intro h
    exact (hgoes.mp (h.actions.symm.trans hdry)).2
  · intro h
    have hreal := hgoes.mpr ⟨nofun, h⟩
    have hactions := hdry.trans hreal.symm
    obtain ⟨hend, hfits⟩ := hstart.finish hreal
    have hpeople : people maps ys = people maps xs := by
      have hmap : ∀ l : List (GraphUserRecord × SyncDraw),
          people maps l = (l.map Prod.fst).filterMap (personOf maps) := fun l => by
        rw [List.filterMap_map]
        rfl
      rw [hmap, hmap, hsame]
    have hlinked : AllLinked maps (report maps settings false t w xs).2.db ys := by
      rw [report_eq htenant]
      refine ⟨hend.references, fun p hp => ?_, fun p hp => hfits p (hpeople ▸ hp)⟩
      rw [hpeople] at hp
      exact (hend.reached.linked p.objectId).mpr (.inr ⟨p, hp, rfl⟩)
    refine ⟨?_, ?_, hactions, ?_⟩
    · rw [report_eq htenant]
      rfl
    · rw [report_eq htenant, report_eq htenant, hactions]
      exact ⟨_, _, rfl, rfl, rfl⟩
    · have hagain : ∀ w', report maps settings false t' w' ys = _ :=
        fun _ => report_eq htenant false
      rw [hagain]
      exact ⟨_, rfl, tally_settled hlinked.outcomes _ _⟩

end Runs

theorem tenantOf_configured : tenantOf configured = ret 255 := by
  have htext : uuidOfText (strip "00000000-0000-0000-0000-0000000000ff") = some 255 := by
    decide +kernel
  unfold tenantOf configured
  rw [if_neg nofun]
  dsimp only
  rw [if_neg (by decide), htext]
  rfl

theorem noAccounts_references : References noAccounts.db := ⟨nofun, nofun⟩

theorem noAccounts_fresh (h : (xs.map fun x => x.2.newUserId).Nodup) :
    FreshIds noAccounts.db xs := by
  refine ⟨h, ?_⟩
  rintro x - ⟨u, hu, -⟩
  cases hu

theorem only_constraints {os : List (Except AuthError SyncOutcome)} (h : os.all Except.isOk = true)
    (e : AuthError) (he : .error e ∈ os) : ∃ m, e = .integrity m := by
  cases List.all_eq_true.mp h _ he

/-- Two new members. -/
theorem predicts_iff_twoMembers :
    Predicts .ascii configured 255 0 1 noAccounts twoMembers.records twoMembers.records ↔
      Foreseen .ascii noAccounts.db twoMembers.records := by
  have hok : (actions .ascii 255 0 noAccounts false twoMembers.records).all Except.isOk = true := by
    decide +kernel
  exact predicts_iff tenantOf_configured noAccounts_references (noAccounts_fresh (by decide)) rfl
    (only_constraints hok)

/-- The directory lists a member twice. -/
def listedTwice : List (GraphUserRecord × SyncDraw) :=
  [(member "a" "ann", ⟨1, 2⟩), (member "a" "ann", ⟨3, 4⟩)]

/-- **A member who is listed twice is to be created twice, and is created once.** -/
theorem not_predicts : ¬ ∀ (maps : CaseMaps) (settings : SyncSettings) (tenantId : UUID)
    (t t' : Int) (w : World Db Redis) (xs ys : List (GraphUserRecord × SyncDraw)),
    tenantOf settings = ret tenantId → References w.db → FreshIds w.db xs →
    ys.map Prod.fst = xs.map Prod.fst →
    (∀ e, .error e ∈ actions maps tenantId t w false xs → ∃ m, e = .integrity m) →
    Predicts maps settings tenantId t t' w xs ys := by
  intro h
  have hok : (actions .ascii 255 0 noAccounts false listedTwice).all Except.isOk = true := by
    decide +kernel
  have hpredicts := h .ascii configured 255 0 1 noAccounts listedTwice listedTwice
    tenantOf_configured noAccounts_references (noAccounts_fresh (by decide)) rfl
    (only_constraints hok)
  have hactions := congrArg (List.map Except.toOption) hpredicts.actions
  have hdry : (actions .ascii 255 0 noAccounts true listedTwice).map Except.toOption =
      [some .created, some .created] := by decide +kernel
  have hreal : (actions .ascii 255 0 noAccounts false listedTwice).map Except.toOption =
      [some .created, some .updated] := by decide +kernel
  rw [hdry, hreal] at hactions
  cases hactions

end MicrosoftUserSyncService

end NewlifeCore.Auth
