import NewlifeCore.Cli.RemoveMockData

/-!
# What `remove-mock-data` removes

The command either raises and leaves the tables as they are, or it deletes what is Mock data.  It
takes a slot template or a Blackout for Mock data when its name contains the marker's prefix, which
a name can do without the marker.

* §1 says what Mock data is, in terms of the rows: a user with the testing suffix, what such a user
  owns, a Ministry with one among its members, a fixture whose name `mock_fixture_name` wrote.
* §2 says what may stand in the way (`Blocked`), and when a name can be relied on (`NamesTell`).
* §3 evaluates each lookup of the command to the set it stands for: `scopedUserIds_runs`,
  `markedIds_runs`, `allCandidateMinistryIds_runs`, `strayOwners_runs`.
* §4 evaluates the checks: `dependencyError_runs` finds a row of somebody else behind a candidate
  exactly if there is one.
-/

namespace NewlifeCore.Cli

open Database

/-! ## 1. Mock data -/

section

variable (suffix : String) (legacy : Bool) (db : MockTables)

/-- A user with the testing suffix, or, when opted in, a frozen legacy account. -/
def MockUser (u : AuthUser) : Prop :=
  emailHasTestingSuffix suffix u.email = some true ∨ legacy = true ∧ isLegacyDemo u = true

def MockUserId (id : UUID) : Prop := ∃ u ∈ db.users, u.id = id ∧ MockUser suffix legacy u

/-- A Ministry with a Mock user among its members, or, when opted in, with a marked name. -/
def CandidateMinistry (id : UUID) : Prop :=
  (∃ m ∈ db.members, m.ministryId = id ∧ MockUserId suffix legacy db m.userId) ∨
    legacy = true ∧ ∃ t ∈ db.translations, t.ministryId = id ∧
      nameStartsWith legacySeedMarker t.name = true

/-- A row that a Mock user owns or that is attached to a candidate Ministry. -/
def MockRow (r : OwnedRow) : Prop :=
  MockUserId suffix legacy db r.userId ∨
    ∃ m, r.ministryId = some m ∧ CandidateMinistry suffix legacy db m

def MockRowId (model : OwnedModel) (id : UUID) : Prop :=
  ∃ r ∈ db.owned model, r.id = id ∧ MockRow suffix legacy db r

/-- A fixture whose name `mock_fixture_name` wrote, or, when opted in, with the legacy prefix. -/
def MockFixture (r : FixtureRow) : Prop :=
  (∃ label runIdentity, r.name = mockFixtureName label runIdentity) ∨
    legacy = true ∧ nameStartsWith legacySeedMarker r.name = true

/-- Every table has a primary key. -/
structure Keyed (db : MockTables) : Prop where
  users : (db.users.map (·.id)).Nodup
  owned : ∀ model, ((db.owned model).map (·.id)).Nodup
  fixtures : ∀ model, ((db.fixtures model).map (·.id)).Nodup

/-- **Exactly the Mock data is gone**, of the fixtures those that `Taken` holds of.  Where a
deletion may clear a reference the rows are compared by their ids. -/
structure Removed (Taken : FixtureRow → Prop) (db' : MockTables) : Prop where
  users : ∀ u, u ∈ db'.users ↔ u ∈ db.users ∧ ¬MockUser suffix legacy u
  userParts : ∀ p, p ∈ db'.userParts ↔ p ∈ db.userParts ∧ ¬MockUserId suffix legacy db p.parentId
  ministries : ∀ id, id ∈ db'.ministries ↔
    id ∈ db.ministries ∧ ¬CandidateMinistry suffix legacy db id
  members : ∀ m, m ∈ db'.members ↔ m ∈ db.members ∧
    ¬MockUserId suffix legacy db m.userId ∧ ¬CandidateMinistry suffix legacy db m.ministryId
  translations : ∀ t, t ∈ db'.translations ↔
    t ∈ db.translations ∧ ¬CandidateMinistry suffix legacy db t.ministryId
  ministryParts : ∀ p, p ∈ db'.ministryParts ↔
    p ∈ db.ministryParts ∧ ¬CandidateMinistry suffix legacy db p.parentId
  approvals : ∀ id, id ∈ db'.approvals.map (·.id) ↔
    ∃ a ∈ db.approvals, a.id = id ∧ ¬CandidateMinistry suffix legacy db a.ministryId
  owned : ∀ model id, id ∈ (db'.owned model).map (·.id) ↔
    ∃ r ∈ db.owned model, r.id = id ∧ ¬MockRow suffix legacy db r
  parts : ∀ model p, p ∈ db'.parts model ↔
    p ∈ db.parts model ∧ ¬MockRowId suffix legacy db model p.parentId
  overrideLogs : ∀ id, id ∈ db'.overrideLogs.map (·.id) ↔ ∃ l ∈ db.overrideLogs, l.id = id ∧
    ¬MockRowId suffix legacy db .facilityBooking l.facilityBookingId
  fixtures : ∀ model r, r ∈ db'.fixtures model ↔ r ∈ db.fixtures model ∧ ¬Taken r

/-- **Only Mock data is gone**: besides, nobody else's row and no fixture that a person created. -/
structure OnlyMock (db' : MockTables) : Prop where
  removed : Removed suffix legacy db (MockFixture legacy) db'
  owned : ∀ model, ∀ r ∈ db.owned model, ¬MockUserId suffix legacy db r.userId →
    r.id ∈ (db'.owned model).map (·.id)
  members : ∀ m ∈ db.members, ¬MockUserId suffix legacy db m.userId → m ∈ db'.members
  persons : ∀ model, ∀ r ∈ db.fixtures model, r.byPerson = true → r ∈ db'.fixtures model

/-- **The command removes Mock data only, and all or nothing.** -/
structure RemovesOnlyMock (rounds : List (Round MockTables)) : Prop where
  succeeds : ∀ result k, run suffix legacy { tables := db, rounds } = (.ok (.ok result), k) →
    OnlyMock suffix legacy db (view db k.session.durable)
  raises : ∀ outcome k, run suffix legacy { tables := db, rounds } = (outcome, k) →
    (∀ result, outcome ≠ .ok (.ok result)) → view db k.session.durable = db

/-! ## 2. When it goes wrong -/

/-- A fixture that the command deletes. -/
def TakenFixture (r : FixtureRow) : Prop :=
  nameContains mockRunMarkerPrefix r.name = true ∨
    legacy = true ∧ nameStartsWith legacySeedMarker r.name = true

/-- **Nothing is deleted in any case**: a user has no email, or somebody outside the scope stands
behind what is in it. -/
inductive Blocked : Prop
  | email (h : suffix ≠ "") (u : AuthUser) (hu : u ∈ db.users) (he : u.email = none)
  | strayOwner (h : legacy = true) (r : OwnedRow) (hr : r ∈ db.owned .facilityBooking)
      (hremark : nameStartsWith legacySeedMarker (r.remark.getD "") = true)
      (ho : ¬MockUserId suffix legacy db r.userId)
  | dependency (model : String × List Dependency) (hm : model ∈ ministryScopedModels)
      (column : Dependency) (hc : column ∈ model.2) (ministry user : UUID)
      (hrow : (some ministry, some user) ∈ column db)
      (hministry : CandidateMinistry suffix legacy db ministry)
      (huser : ¬MockUserId suffix legacy db user)
  | overrider (l : FacilityBookingOverrideLog) (hl : l ∈ db.overrideLogs)
      (huser : MockUserId suffix legacy db l.overriddenById)
      (hbooking : ¬MockRowId suffix legacy db .facilityBooking l.facilityBookingId)

/-- **The names can be relied on**: a fixture that the command deletes is a Mock fixture, and not a
person's. -/
def NamesTell : Prop :=
  ∀ model, ∀ r ∈ db.fixtures model, TakenFixture legacy r →
    MockFixture legacy r ∧ r.byPerson = false

end

/-! ## 3. The scope -/

section

variable {suffix : String} {legacy : Bool} {db : MockTables} {ids scope candidates : List UUID}

@[simp] theorem mem_uniqueUuids {id : UUID} : id ∈ uniqueUuids ids ↔ id ∈ ids := by
  simp [uniqueUuids]

theorem mem_map_filter {α : Type} (rows : List α) (p : α → Bool) (column : α → UUID) {id : UUID} :
    id ∈ (rows.filter p).map column ↔ ∃ r ∈ rows, column r = id ∧ p r = true := by
  simp only [List.mem_map, List.mem_filter]
  exact ⟨fun ⟨r, ⟨hr, hp⟩, he⟩ => ⟨r, hr, he, hp⟩, fun ⟨r, hr, he, hp⟩ => ⟨r, ⟨hr, hp⟩, he⟩⟩

theorem testingUserIds_eq_none (h : testingUserIds suffix db.users = none) :
    Blocked suffix legacy db := by
  unfold testingUserIds at h
  split at h
  · rename_i hany
    obtain ⟨u, hu, hnone⟩ := List.any_eq_true.mp hany
    unfold emailHasTestingSuffix at hnone
    split at hnone
    · cases hnone
    · rename_i hsuffix
      exact .email hsuffix u hu (by simpa using hnone)
  · cases h

theorem testingUserIds_eq_some (h : testingUserIds suffix db.users = some ids) :
    (∀ id, id ∈ ids ↔ ∃ u ∈ db.users, u.id = id ∧
      emailHasTestingSuffix suffix u.email = some true) ∧
      (suffix ≠ "" → ∀ u ∈ db.users, u.email ≠ none) := by
  unfold testingUserIds at h
  split at h
  · cases h
  · rename_i hany
    cases h
    constructor
    · intro id
      simp only [mem_map_filter, decide_eq_true_eq]
    · intro hsuffix u hu hnone
      refine hany (List.any_eq_true.mpr ⟨u, hu, ?_⟩)
      simp [emailHasTestingSuffix, hsuffix, hnone]

/-- **The users in scope** are the Mock users. -/
theorem scopedUserIds_runs : Act.Runs db (Blocked suffix legacy db) []
    (scopedUserIds suffix legacy) fun ids ws => ws = [] ∧
      (∀ id, id ∈ ids ↔ MockUserId suffix legacy db id) ∧
      (suffix ≠ "" → ∀ u ∈ db.users, u.email ≠ none) := by
  refine .bind (.fetch _ (Q := fun rows ws => ws = [] ∧ rows = db.users) ⟨rfl, rfl⟩) ?_
  rintro _ _ ⟨rfl, rfl⟩
  cases htest : testingUserIds suffix db.users with
  | none => exact .raise _ (testingUserIds_eq_none htest)
  | some ids =>
    obtain ⟨hids, hemails⟩ := testingUserIds_eq_some htest
    refine .pure ⟨rfl, fun id => ?_, hemails⟩
    rw [mem_uniqueUuids, List.mem_append, hids]
    constructor
    · rintro (⟨u, hu, rfl, hs⟩ | hlegacy)
      · exact ⟨u, hu, rfl, .inl hs⟩
      · split at hlegacy
        · rename_i hopted
          obtain ⟨u, hu, rfl, hdemo⟩ := (mem_map_filter _ _ _).mp hlegacy
          exact ⟨u, hu, rfl, .inr ⟨hopted, hdemo⟩⟩
        · cases hlegacy
    · rintro ⟨u, hu, rfl, hs | ⟨hopted, hdemo⟩⟩
      · exact .inl ⟨u, hu, rfl, hs⟩
      · rw [if_pos hopted]
        exact .inr ((mem_map_filter _ _ _).mpr ⟨u, hu, rfl, hdemo⟩)

theorem fixtureIds_runs {B : Prop} (model : Fixture) (p : FixtureRow → Bool) : Act.Runs db B []
    (do
      let rows ← Act.fetch fun db ws => (view db ws).fixtures model
      return uniqueUuids ((rows.filter p).map (·.id)) : Cmd (List UUID))
    fun ids ws => ws = [] ∧ ∀ id, id ∈ ids ↔ ∃ r ∈ db.fixtures model, r.id = id ∧ p r = true := by
  refine .bind (.fetch _ (Q := fun rows ws => ws = [] ∧ rows = db.fixtures model) ⟨rfl, rfl⟩) ?_
  rintro _ _ ⟨rfl, rfl⟩
  exact .pure ⟨rfl, fun id => by rw [mem_uniqueUuids, mem_map_filter]⟩

/-- **The fixtures in scope** are those that are taken. -/
theorem markedIds_runs {B : Prop} : Act.Runs db B [] (markedIds legacy) fun ids ws => ws = [] ∧
    (∀ id, id ∈ ids.1 ↔ ∃ r ∈ db.fixtures .facilityRoomSlotTemplate, r.id = id ∧
      TakenFixture legacy r) ∧
    ∀ id, id ∈ ids.2 ↔ ∃ r ∈ db.fixtures .facilityRoomBlackout, r.id = id ∧
      TakenFixture legacy r := by
  refine .bind (fixtureIds_runs _ _) ?_
  rintro slots _ ⟨rfl, hslots⟩
  refine .bind (fixtureIds_runs _ _) ?_
  rintro blackouts _ ⟨rfl, hblackouts⟩
  cases hlegacy : legacy with
  | false =>
    refine .pure ⟨rfl, fun id => ?_, fun id => ?_⟩
    · simp [hslots, TakenFixture]
    · simp [hblackouts, TakenFixture]
  | true =>
    refine .bind (fixtureIds_runs _ _) ?_
    rintro legacySlots _ ⟨rfl, hlegacySlots⟩
    refine .bind (fixtureIds_runs _ _) ?_
    rintro legacyBlackouts _ ⟨rfl, hlegacyBlackouts⟩
    refine .pure ⟨rfl, fun id => ?_, fun id => ?_⟩
    · simp only [mem_uniqueUuids, List.mem_append, hslots, hlegacySlots, TakenFixture, true_and,
        and_or_left, exists_or]
    · simp only [mem_uniqueUuids, List.mem_append, hblackouts, hlegacyBlackouts, TakenFixture,
        true_and, and_or_left, exists_or]

theorem candidateMinistryIds_runs {B : Prop} : Act.Runs db B [] (candidateMinistryIds scope)
    fun ids ws => ws = [] ∧ ∀ id, id ∈ ids ↔
      ∃ m ∈ db.members, m.ministryId = id ∧ m.userId ∈ scope := by
  unfold candidateMinistryIds
  cases hscope : scope with
  | nil => exact .pure ⟨rfl, by simp⟩
  | cons user users =>
    refine .bind (.fetchvals _ (Q := fun rows ws => ws = [] ∧ rows = (db.members.filter fun m =>
      (user :: users).contains m.userId).map (·.ministryId)) ⟨rfl, rfl⟩) ?_
    rintro _ _ ⟨rfl, rfl⟩
    refine .pure ⟨rfl, fun id => ?_⟩
    simp only [mem_uniqueUuids, mem_map_filter, List.contains_iff_mem]

theorem seedMarkedMinistryIds_runs {B : Prop} : Act.Runs db B [] seedMarkedMinistryIds
    fun ids ws => ws = [] ∧ ∀ id, id ∈ ids ↔ ∃ t ∈ db.translations, t.ministryId = id ∧
      nameStartsWith legacySeedMarker t.name = true := by
  refine .bind (.fetch _ (Q := fun rows ws => ws = [] ∧ rows = db.translations) ⟨rfl, rfl⟩) ?_
  rintro _ _ ⟨rfl, rfl⟩
  exact .pure ⟨rfl, fun id => by rw [mem_uniqueUuids, mem_map_filter]⟩

/-- **The Ministries in scope** are the candidates. -/
theorem allCandidateMinistryIds_runs {B : Prop}
    (hscope : ∀ id, id ∈ scope ↔ MockUserId suffix legacy db id) :
    Act.Runs db B [] (allCandidateMinistryIds scope legacy) fun ids ws => ws = [] ∧
      ∀ id, id ∈ ids ↔ CandidateMinistry suffix legacy db id := by
  refine .bind candidateMinistryIds_runs ?_
  rintro candidates _ ⟨rfl, hcandidates⟩
  simp only [hscope] at hcandidates
  split
  · rename_i hlegacy
    refine .bind seedMarkedMinistryIds_runs ?_
    rintro marked _ ⟨rfl, hmarked⟩
    refine .pure ⟨rfl, fun id => ?_⟩
    simp only [mem_uniqueUuids, List.mem_append, hcandidates, hmarked, CandidateMinistry, hlegacy,
      true_and]
  · rename_i hlegacy
    refine .pure ⟨rfl, fun id => ?_⟩
    rw [mem_uniqueUuids, hcandidates]
    exact (or_iff_left fun h => hlegacy h.1).symm

theorem outOfScopeSeedMarkedBookingOwners_runs {B : Prop}
    (hscope : ∀ id, id ∈ scope ↔ MockUserId suffix legacy db id) :
    Act.Runs db B [] (outOfScopeSeedMarkedBookingOwners scope) fun ids ws => ws = [] ∧
      ∀ id, id ∈ ids ↔ ∃ r ∈ db.owned .facilityBooking, r.userId = id ∧
        nameStartsWith legacySeedMarker (r.remark.getD "") = true ∧
        ¬MockUserId suffix legacy db r.userId := by
  refine .bind (.fetch _ (Q := fun rows ws => ws = [] ∧ rows = db.owned .facilityBooking)
    ⟨rfl, rfl⟩) ?_
  rintro _ _ ⟨rfl, rfl⟩
  refine .pure ⟨rfl, fun id => ?_⟩
  simp only [mem_uniqueUuids, mem_map_filter, Bool.and_eq_true, Bool.not_eq_true',
    ← Bool.not_eq_true, List.contains_iff_mem, hscope]

/-- **The stray owners** are asked for when opted in, and then found. -/
theorem strayOwners_runs {B : Prop} (hscope : ∀ id, id ∈ scope ↔ MockUserId suffix legacy db id) :
    Act.Runs db B [] (strayOwners scope legacy) fun ids ws => ws = [] ∧
      ∀ id, id ∈ ids ↔ legacy = true ∧ ∃ r ∈ db.owned .facilityBooking, r.userId = id ∧
        nameStartsWith legacySeedMarker (r.remark.getD "") = true ∧
        ¬MockUserId suffix legacy db r.userId := by
  unfold strayOwners
  split
  · rename_i hlegacy
    refine .mono (outOfScopeSeedMarkedBookingOwners_runs hscope) ?_
    rintro ids ws ⟨hws, hids⟩
    exact ⟨hws, fun id => (hids id).trans (and_iff_right hlegacy).symm⟩
  · rename_i hlegacy
    exact .pure ⟨rfl, by simp [hlegacy]⟩

/-! ## 4. The checks -/

/-- A column has one of the Ministries with a user who is not in scope. -/
def Depends (db : MockTables) (candidates scope : List UUID) (column : Dependency) : Prop :=
  ∃ ministry user, (some ministry, some user) ∈ column db ∧ ministry ∈ candidates ∧ user ∉ scope

theorem outOfScope_ne_nil_iff (column : Dependency) :
    outOfScope candidates scope (column db) ≠ [] ↔ Depends db candidates scope column := by
  constructor
  · intro hne
    obtain ⟨id, hid⟩ := List.exists_mem_of_ne_nil _ hne
    obtain ⟨⟨ministry, user⟩, hrow, hid⟩ := List.mem_filterMap.mp hid
    cases ministry with
    | none => cases hid
    | some ministry =>
      cases user with
      | none => cases hid
      | some user =>
        simp only [Option.ite_none_right_eq_some, Bool.and_eq_true, List.contains_iff_mem,
          Bool.not_eq_true', ← Bool.not_eq_true] at hid
        exact ⟨ministry, user, hrow, hid.1.1, hid.1.2⟩
  · rintro ⟨ministry, user, hrow, hm, hu⟩
    have hmem : ministry ∈ outOfScope candidates scope (column db) :=
      List.mem_filterMap.mpr ⟨_, hrow, by simp [hm, hu]⟩
    exact List.ne_nil_of_mem hmem

theorem dependencies_runs {B : Prop} (columns : List Dependency) : Act.Runs db B []
    (ministriesWithOutOfScopeDependency candidates scope columns) fun found ws => ws = [] ∧
      (found ≠ [] ↔ ∃ column ∈ columns, Depends db candidates scope column) := by
  induction columns with
  | nil => exact .pure ⟨rfl, by simp⟩
  | cons column columns ih =>
    refine .bind (.fetchvals _ (Q := fun rows ws => ws = [] ∧
      rows = outOfScope candidates scope (column db)) ⟨rfl, rfl⟩) ?_
    rintro _ _ ⟨rfl, rfl⟩
    refine .bind ih ?_
    rintro found _ ⟨rfl, hfound⟩
    refine .pure ⟨rfl, ?_⟩
    rw [List.exists_mem_cons_iff, ← hfound, ← outOfScope_ne_nil_iff]
    have hunique : uniqueUuids (outOfScope candidates scope (column db)) = [] ↔
        outOfScope candidates scope (column db) = [] := by
      simp only [List.eq_nil_iff_forall_not_mem, mem_uniqueUuids]
    simp only [ne_eq, List.append_eq_nil_iff, hunique]
    exact not_and_or

theorem offendingModels_runs {B : Prop} (models : List (String × List Dependency)) :
    Act.Runs db B [] (offendingModels candidates scope models) fun offending ws => ws = [] ∧
      (offending ≠ [] ↔ ∃ model ∈ models, ∃ column ∈ model.2,
        Depends db candidates scope column) := by
  induction models with
  | nil => exact .pure ⟨rfl, by simp⟩
  | cons model models ih =>
    refine .bind (dependencies_runs model.2) ?_
    rintro found _ ⟨rfl, hfound⟩
    refine .bind ih ?_
    rintro offending _ ⟨rfl, hoffending⟩
    refine .pure ⟨rfl, ?_⟩
    rw [List.exists_mem_cons_iff, ← hfound, ← hoffending]
    cases found <;> simp

theorem dependencyErrorMessage_runs {B : Prop} (offending : List (String × List UUID)) :
    Act.Runs db B [] (dependencyErrorMessage offending) fun _ ws => ws = [] := by
  refine .bind (Q := fun _ ws => ws = []) ?_ fun _ _ hws => .pure hws
  unfold ministryNames
  split
  · exact .pure rfl
  · exact .fetch _ rfl

/-- **The check** finds a row of somebody else behind a candidate, if there is one. -/
theorem dependencyError_runs {B : Prop} : Act.Runs db B [] (dependencyError scope candidates)
    fun message ws => ws = [] ∧ (message ≠ none ↔ ∃ model ∈ ministryScopedModels,
      ∃ column ∈ model.2, Depends db candidates scope column) := by
  unfold dependencyError
  split
  · rename_i hempty
    refine .pure ⟨rfl, iff_of_false (by simp) ?_⟩
    rintro ⟨-, -, -, -, ministry, user, -, hm, -⟩
    rw [List.isEmpty_iff.mp hempty] at hm
    cases hm
  · refine .bind (offendingModels_runs _) ?_
    rintro offending _ ⟨rfl, hoffending⟩
    rw [← hoffending]
    split
    · rename_i hnil
      exact .pure ⟨rfl, by simpa using hnil⟩
    · rename_i hne
      refine .bind (dependencyErrorMessage_runs offending) ?_
      rintro message _ rfl
      exact .pure ⟨rfl, by simpa using hne⟩

end

end NewlifeCore.Cli
