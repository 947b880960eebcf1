import NewlifeCore.Cli.MockDataOnly

/-!
# `remove-mock-data`, from end to end

What the deletions leave behind, one after the other; what a run of the command therefore does to
the tables; and when that is what it is for.
-/

namespace NewlifeCore.Cli

open Database

/-! ## 1. What a deletion leaves -/

section

variable {db : MockTables} {D : OwnedModel → List UUID} {C S : List UUID}
  {F : Fixture → List UUID} {model m : OwnedModel} {ids scope candidates : List UUID}

/-- What the command asks of a row. -/
def OwnedRow.key (r : OwnedRow) : UUID × UUID × Option UUID := (r.id, r.userId, r.ministryId)

def keys (db : MockTables) (model : OwnedModel) : List (UUID × UUID × Option UUID) :=
  (db.owned model).map OwnedRow.key

theorem keys_apply_owned : keys ((Deletion.owned model ids).apply db) m =
    if m = model then (keys db m).filter fun k => !ids.contains k.1 else keys db m := by
  simp only [keys, Deletion.apply]
  by_cases hm : m = model
  · rw [if_pos hm, if_pos hm, List.filter_map]
    rfl
  · rw [if_neg hm, if_neg hm]
    split
    · rw [List.map_map]
      rfl
    · rfl

/-- The tables without what the Mock users own. -/
def withoutOwned (db : MockTables) (D : OwnedModel → List UUID) : MockTables :=
  view db [.owned .facilityBooking (D .facilityBooking),
    .owned .facilityBookingSeries (D .facilityBookingSeries),
    .owned .facilityBookingDraft (D .facilityBookingDraft),
    .owned .facilityBookingSeriesDraft (D .facilityBookingSeriesDraft)]

theorem keys_withoutOwned :
    keys (withoutOwned db D) m = (keys db m).filter fun k => !(D m).contains k.1 := by
  simp only [withoutOwned, view, List.foldl, keys_apply_owned]
  cases m <;> rfl

theorem mem_withoutOwned {r : OwnedRow} (hr : r ∈ (withoutOwned db D).owned m) :
    r.id ∉ D m ∧ ∃ r₀ ∈ db.owned m, r₀.key = r.key := by
  have hkey : r.key ∈ keys (withoutOwned db D) m := List.mem_map_of_mem hr
  rw [keys_withoutOwned, List.mem_filter] at hkey
  obtain ⟨hmem, hid⟩ := hkey
  exact ⟨by simpa [OwnedRow.key] using hid, List.mem_map.mp hmem⟩

theorem withoutOwned_ids :
    ((withoutOwned db D).owned m).map (·.id) =
      ((db.owned m).filter fun r => !(D m).contains r.id).map (·.id) := by
  have h := congrArg (List.map Prod.fst) (@keys_withoutOwned db D m)
  simpa only [keys, List.map_map, List.filter_map, Function.comp_def, OwnedRow.key] using h

theorem withoutOwned_parts :
    (withoutOwned db D).parts m = (db.parts m).filter fun p => !(D m).contains p.parentId := by
  cases m <;> rfl

theorem withoutOwned_overrideLogs : (withoutOwned db D).overrideLogs =
    (db.overrideLogs.filter fun l => !(D .facilityBooking).contains l.facilityBookingId).map
      fun l => { l with overriddenBookingId := unset (D .facilityBooking) l.overriddenBookingId } :=
  rfl

/-- The tables at the end. -/
def removal (db : MockTables) (D : OwnedModel → List UUID) (C S : List UUID)
    (F : Fixture → List UUID) : MockTables :=
  view (withoutOwned db D) [.ministries C, .users S,
    .fixtures .facilityRoomSlotTemplate (F .facilityRoomSlotTemplate),
    .fixtures .facilityRoomBlackout (F .facilityRoomBlackout)]

theorem removal_fixtures (model : Fixture) :
    (removal db D C S F).fixtures model =
      (db.fixtures model).filter fun r => !(F model).contains r.id := by
  cases model <;> rfl

theorem removal_owned (h : ∀ m, ∀ r ∈ (withoutOwned db D).owned m, r.userId ∉ S) :
    ((removal db D C S F).owned m).map (·.id) = ((withoutOwned db D).owned m).map (·.id) := by
  simp only [removal, view, List.foldl, Deletion.apply]
  split
  · rw [List.filter_map, List.map_map, List.filter_eq_self.mpr]
    · rfl
    · intro r hr
      simpa using h m r hr
  · rw [List.map_map]
    rfl

theorem removal_parts (h : ∀ m, ∀ r ∈ (withoutOwned db D).owned m, r.userId ∉ S) :
    (removal db D C S F).parts m = (db.parts m).filter fun p => !(D m).contains p.parentId := by
  rw [← withoutOwned_parts]
  simp only [removal, view, List.foldl, Deletion.apply]
  split
  · refine List.filter_eq_self.mpr fun p _ => ?_
    simp only [Bool.not_eq_true', List.any_eq_false, List.mem_map, Bool.and_eq_true,
      decide_eq_true_eq, List.contains_iff_mem]
    rintro _ ⟨r, hr, rfl⟩ ⟨-, hu⟩
    exact h m r hr hu
  · rfl

/-- **What refuses the deletion of the users** is an override of a Booking that stays. -/
theorem refused_users_iff (h : ∀ m, ∀ r ∈ (withoutOwned db D).owned m, r.userId ∉ S) :
    (Deletion.users S).refused (view (withoutOwned db D) [.ministries C]) = true ↔
      ∃ l ∈ db.overrideLogs, l.overriddenById ∈ S ∧ l.facilityBookingId ∉ D .facilityBooking := by
  have howned : ∀ m, (((view (withoutOwned db D) [.ministries C]).owned m).any fun r =>
      S.contains r.userId) = false := by
    intro m
    simp only [view, List.foldl, Deletion.apply, List.any_map, List.any_eq_false,
      Function.comp_apply, List.contains_iff_mem]
    exact h m
  have hlogs : (view (withoutOwned db D) [.ministries C]).overrideLogs =
      (withoutOwned db D).overrideLogs := rfl
  simp only [Deletion.refused, howned, hlogs, withoutOwned_overrideLogs, Bool.false_or,
    List.any_map, List.any_filter, List.any_eq_true, Function.comp_apply, Bool.and_eq_true,
    Bool.not_eq_true', ← Bool.not_eq_true, List.contains_iff_mem]
  exact exists_congr fun l => and_congr_right fun _ => and_comm

/-! ## 2. The deletions -/

variable {B : Prop} {ws : List Deletion}

/-- A deletion comes to pass unless it is refused. -/
theorem delete_runs (d : Deletion) (hB : d.refused (view db ws) = true → B) :
    Act.Runs db B ws (delete d) fun _ ws' =>
      view db ws' = d.apply (view db ws) ∧ d.refused (view db ws) = false := by
  refine .bind (.look _ (Q := fun refused ws' =>
    ws' = ws ∧ refused = d.refused (view db ws)) ⟨rfl, rfl⟩) ?_
  rintro _ _ ⟨rfl, rfl⟩
  split
  · rename_i hrefused
    exact .refuse (hB hrefused)
  · rename_i hallowed
    exact .execute ⟨view_append .., by simpa using hallowed⟩

theorem deleteByIds_runs (deletion : List UUID → Deletion) (hids : (deletion ids).ids = ids)
    (hB : (deletion ids).refused (view db ws) = true → B) :
    Act.Runs db B ws (deleteByIds deletion ids) fun _ ws' =>
      view db ws' = (deletion ids).apply (view db ws) ∧
        (deletion ids).refused (view db ws) = false := by
  unfold deleteByIds
  split
  · rename_i hempty
    have hnil := hids.trans (List.isEmpty_iff.mp hempty)
    exact .pure ⟨(Deletion.apply_nil _ hnil).symm, Deletion.refused_nil _ hnil⟩
  · exact .bind (delete_runs _ hB) fun _ _ h => .pure h

theorem selectIds_runs (wanted : List UUID) (p : OwnedRow → Bool) :
    Act.Runs db B ws (selectIds model wanted p) fun ids ws' => ws' = ws ∧ ∀ id, id ∈ ids ↔
      wanted ≠ [] ∧ ∃ r ∈ (view db ws).owned model, r.id = id ∧ p r = true := by
  unfold selectIds
  split
  · rename_i hempty
    exact .pure ⟨rfl, by simp [List.isEmpty_iff.mp hempty]⟩
  · rename_i hne
    refine .fetchvals _ ⟨rfl, fun id => ?_⟩
    rw [mem_map_filter]
    exact (and_iff_right (by simpa using hne)).symm

/-- A row of one of the users, or attached to one of the Ministries. -/
def Hit (scope candidates : List UUID) (k : UUID × UUID × Option UUID) : Prop :=
  k.2.1 ∈ scope ∨ ∃ ministry ∈ candidates, k.2.2 = some ministry

theorem deleteMinistryScoped_runs : Act.Runs db B ws
    (deleteMinistryScoped model scope candidates) fun _ ws' => ∃ ids,
      view db ws' = (Deletion.owned model ids).apply (view db ws) ∧
      ∀ id, id ∈ ids ↔ ∃ k ∈ keys (view db ws) model, k.1 = id ∧ Hit scope candidates k := by
  refine .bind (selectIds_runs _ _) ?_
  rintro owned _ ⟨rfl, howned⟩
  refine .bind (selectIds_runs _ _) ?_
  rintro attached _ ⟨rfl, hattached⟩
  refine .mono (deleteByIds_runs (.owned model) rfl nofun) fun _ ws' h =>
    ⟨uniqueUuids (owned ++ attached), h.1, fun id => ?_⟩
  rw [mem_uniqueUuids, List.mem_append, howned, hattached]
  constructor
  · rintro (⟨-, r, hr, rfl, hp⟩ | ⟨-, r, hr, rfl, hp⟩)
    · exact ⟨_, List.mem_map_of_mem hr, rfl, .inl (List.contains_iff_mem.mp hp)⟩
    · obtain ⟨ministry, he, hm⟩ := (Option.any_eq_true _ _).mp hp
      exact ⟨_, List.mem_map_of_mem hr, rfl, .inr ⟨ministry, List.contains_iff_mem.mp hm, he⟩⟩
  · rintro ⟨_, hk, rfl, hit⟩
    obtain ⟨r, hr, rfl⟩ := List.mem_map.mp hk
    rcases hit with hu | ⟨ministry, hm, he⟩
    · exact .inl ⟨List.ne_nil_of_mem hu, r, hr, rfl, List.contains_iff_mem.mpr hu⟩
    · refine .inr ⟨List.ne_nil_of_mem hm, r, hr, rfl, ?_⟩
      change r.ministryId = some ministry at he
      rw [he]
      exact List.contains_iff_mem.mpr hm

end

/-! ## 3. What is removed -/

section

variable {suffix : String} {legacy : Bool} {db : MockTables} {D : OwnedModel → List UUID}
  {C S : List UUID} {F : Fixture → List UUID}

theorem Keyed.mockUserId_iff (h : Keyed db) {u : AuthUser} (hu : u ∈ db.users) :
    MockUserId suffix legacy db u.id ↔ MockUser suffix legacy u := by
  constructor
  · rintro ⟨v, hv, he, hmock⟩
    exact List.inj_on_of_nodup_map h.users hv hu he ▸ hmock
  · exact fun hmock => ⟨u, hu, rfl, hmock⟩

theorem Keyed.mockRowId_iff (h : Keyed db) {model : OwnedModel} {r : OwnedRow}
    (hr : r ∈ db.owned model) :
    MockRowId suffix legacy db model r.id ↔ MockRow suffix legacy db r := by
  constructor
  · rintro ⟨r', hr', he, hmock⟩
    exact List.inj_on_of_nodup_map (h.owned model) hr' hr he ▸ hmock
  · exact fun hmock => ⟨r, hr, rfl, hmock⟩

theorem Keyed.taken_iff (h : Keyed db) {model : Fixture} {r : FixtureRow}
    (hr : r ∈ db.fixtures model) :
    (∃ r' ∈ db.fixtures model, r'.id = r.id ∧ TakenFixture legacy r') ↔ TakenFixture legacy r := by
  constructor
  · rintro ⟨r', hr', he, htaken⟩
    exact List.inj_on_of_nodup_map (h.fixtures model) hr' hr he ▸ htaken
  · exact fun htaken => ⟨r, hr, rfl, htaken⟩

theorem hit_key_iff (hS : ∀ id, id ∈ S ↔ MockUserId suffix legacy db id)
    (hC : ∀ id, id ∈ C ↔ CandidateMinistry suffix legacy db id) (r : OwnedRow) :
    Hit S C r.key ↔ MockRow suffix legacy db r := by
  simp only [Hit, OwnedRow.key, MockRow, hS, hC, and_comm]

/-- Nothing of a Mock user is left. -/
theorem stays_of_withoutOwned (hS : ∀ id, id ∈ S ↔ MockUserId suffix legacy db id)
    (hD : ∀ model id, id ∈ D model ↔ MockRowId suffix legacy db model id) (model : OwnedModel) :
    ∀ r ∈ (withoutOwned db D).owned model, r.userId ∉ S := by
  intro r hr hu
  obtain ⟨hid, r₀, hr₀, hkey⟩ := mem_withoutOwned hr
  have hids : r₀.id = r.id := congrArg Prod.fst hkey
  have husers : r₀.userId = r.userId := congrArg (·.2.1) hkey
  exact hid ((hD model r.id).mpr ⟨r₀, hr₀, hids, .inl (husers ▸ (hS r.userId).mp hu)⟩)

/-- **The deletions remove the Mock data**, and the fixtures that are taken for it. -/
theorem removed_removal (hkeyed : Keyed db) (hS : ∀ id, id ∈ S ↔ MockUserId suffix legacy db id)
    (hC : ∀ id, id ∈ C ↔ CandidateMinistry suffix legacy db id)
    (hD : ∀ model id, id ∈ D model ↔ MockRowId suffix legacy db model id)
    (hF : ∀ model id, id ∈ F model ↔ ∃ r ∈ db.fixtures model, r.id = id ∧ TakenFixture legacy r) :
    Removed suffix legacy db (TakenFixture legacy) (removal db D C S F) where
  users u := by
    simp only [removal, withoutOwned, view, List.foldl, Deletion.apply, List.mem_filter]
    refine and_congr_right fun hu => ?_
    simp [hS, hkeyed.mockUserId_iff hu]
  userParts p := by
    simp [removal, withoutOwned, view, Deletion.apply, hS]
  ministries id := by
    simp [removal, withoutOwned, view, Deletion.apply, hC]
  members m := by
    simp [removal, withoutOwned, view, Deletion.apply, hS, hC, and_comm]
  translations t := by
    simp [removal, withoutOwned, view, Deletion.apply, hC]
  ministryParts p := by
    simp [removal, withoutOwned, view, Deletion.apply, hC]
  approvals id := by
    simp only [removal, withoutOwned, view, List.foldl, Deletion.apply, List.map_map]
    exact (mem_map_filter _ _ _).trans (by simp [hC])
  owned model id := by
    rw [removal_owned (stays_of_withoutOwned hS hD), withoutOwned_ids]
    simp only [mem_map_filter, Bool.not_eq_true', ← Bool.not_eq_true, List.contains_iff_mem, hD]
    refine exists_congr fun r => and_congr_right fun hr => and_congr_right fun _ => ?_
    rw [hkeyed.mockRowId_iff hr]
  parts model p := by
    rw [removal_parts (stays_of_withoutOwned hS hD)]
    simp [hD]
  overrideLogs id := by
    have hlogs : (removal db D C S F).overrideLogs = (withoutOwned db D).overrideLogs := by
      simp [removal, view, Deletion.apply]
    rw [hlogs, withoutOwned_overrideLogs, List.map_map]
    exact (mem_map_filter _ _ _).trans (by simp [hD])
  fixtures model r := by
    rw [removal_fixtures, List.mem_filter]
    refine and_congr_right fun hr => ?_
    simp only [Bool.not_eq_true', ← Bool.not_eq_true, List.contains_iff_mem, hF,
      hkeyed.taken_iff hr]

/-! ## 4. The command -/

/-- What the command looks up is what its deletions are meant for. -/
structure Scope (suffix : String) (legacy : Bool) (db : MockTables) (S C : List UUID)
    (F : Fixture → List UUID) : Prop where
  users : ∀ id, id ∈ S ↔ MockUserId suffix legacy db id
  ministries : ∀ id, id ∈ C ↔ CandidateMinistry suffix legacy db id
  fixtures : ∀ model id, id ∈ F model ↔ ∃ r ∈ db.fixtures model, r.id = id ∧ TakenFixture legacy r

/-- The Bookings, Series and Drafts that are deleted. -/
theorem Scope.deleted_iff (h : Scope suffix legacy db S C F) (model : OwnedModel) (id : UUID) :
    (∃ k ∈ keys db model, k.1 = id ∧ Hit S C k) ↔ MockRowId suffix legacy db model id := by
  constructor
  · rintro ⟨_, hk, rfl, hit⟩
    obtain ⟨r, hr, rfl⟩ := List.mem_map.mp hk
    exact ⟨r, hr, rfl, (hit_key_iff h.users h.ministries r).mp hit⟩
  · rintro ⟨r, hr, rfl, hmock⟩
    exact ⟨r.key, List.mem_map_of_mem hr, rfl, (hit_key_iff h.users h.ministries r).mpr hmock⟩

/-- The fixtures of each table. -/
def marked (slots blackouts : List UUID) : Fixture → List UUID
  | .facilityRoomSlotTemplate => slots
  | .facilityRoomBlackout => blackouts

/-- **The deletions** come to pass unless a Mock user has overridden somebody else's Booking. -/
theorem deleteAll_runs {slots blackouts : List UUID}
    (h : Scope suffix legacy db S C (marked slots blackouts)) :
    Act.Runs db (Blocked suffix legacy db) [] (deleteAll S C slots blackouts) fun _ ws => ∃ D,
        view db ws = removal db D C S (marked slots blackouts) ∧
        (∀ model id, id ∈ D model ↔ MockRowId suffix legacy db model id) ∧
        ¬∃ l ∈ db.overrideLogs, l.overriddenById ∈ S ∧ l.facilityBookingId ∉ D .facilityBooking := by
  refine .bind deleteMinistryScoped_runs ?_
  rintro _ ws₁ ⟨bookings, hws₁, hbookings⟩
  refine .bind deleteMinistryScoped_runs ?_
  rintro _ ws₂ ⟨series, hws₂, hseries⟩
  refine .bind deleteMinistryScoped_runs ?_
  rintro _ ws₃ ⟨drafts, hws₃, hdrafts⟩
  refine .bind deleteMinistryScoped_runs ?_
  rintro _ ws₄ ⟨seriesDrafts, hws₄, hseriesDrafts⟩
  simp only [hws₁, keys_apply_owned, reduceCtorEq, if_false] at hseries
  simp only [hws₁, hws₂, keys_apply_owned, reduceCtorEq, if_false] at hdrafts
  simp only [hws₁, hws₂, hws₃, keys_apply_owned, reduceCtorEq, if_false] at hseriesDrafts
  let D : OwnedModel → List UUID
    | .facilityBooking => bookings
    | .facilityBookingSeries => series
    | .facilityBookingDraft => drafts
    | .facilityBookingSeriesDraft => seriesDrafts
  have hD : ∀ model id, id ∈ D model ↔ MockRowId suffix legacy db model id := by
    intro model id
    rw [← h.deleted_iff]
    cases model with
    | facilityBooking => exact hbookings id
    | facilityBookingSeries => exact hseries id
    | facilityBookingDraft => exact hdrafts id
    | facilityBookingSeriesDraft => exact hseriesDrafts id
  have hwithout : view db ws₄ = withoutOwned db D := by
    rw [hws₄, hws₃, hws₂, hws₁]
    rfl
  have hrefused := refused_users_iff (C := C) (stays_of_withoutOwned h.users hD)
  refine .bind (deleteByIds_runs .ministries rfl nofun) ?_
  rintro _ ws₅ ⟨hws₅, -⟩
  have hview : view db ws₅ = view (withoutOwned db D) [.ministries C] := by
    rw [hws₅, hwithout]
    rfl
  refine .bind (deleteByIds_runs .users rfl ?_) ?_
  · intro hr
    rw [hview, hrefused] at hr
    obtain ⟨l, hl, hu, hb⟩ := hr
    exact .overrider l hl ((h.users _).mp hu) (mt (hD _ _).mpr hb)
  · rintro _ ws₆ ⟨hws₆, hallowed⟩
    rw [hview, ← Bool.not_eq_true, hrefused] at hallowed
    refine .bind (deleteByIds_runs (.fixtures .facilityRoomSlotTemplate) rfl nofun) ?_
    rintro _ ws₇ ⟨hws₇, -⟩
    refine .bind (deleteByIds_runs (.fixtures .facilityRoomBlackout) rfl nofun) ?_
    rintro _ ws₈ ⟨hws₈, -⟩
    refine .pure ⟨D, ?_, hD, hallowed⟩
    rw [hws₈, hws₇, hws₆, hview]
    rfl

theorem removal_nil : removal db (fun _ => []) [] [] (fun _ => []) = db := by
  simp only [removal, withoutOwned, view, List.foldl]
  iterate 8 rw [Deletion.apply_nil _ rfl]

/-- What a run that returns has found and done. -/
def Outcome (suffix : String) (legacy : Bool) (db : MockTables)
    (result : Except String RemoveMockDataResult) (ws : List Deletion) : Prop :=
  match result with
  | .ok _ => ¬Blocked suffix legacy db ∧
      Removed suffix legacy db (TakenFixture legacy) (view db ws)
  | .error _ => Blocked suffix legacy db ∧ ws = []

/-- What passes the checks is not blocked. -/
theorem Scope.not_blocked (h : Scope suffix legacy db S C F)
    (hemails : suffix ≠ "" → ∀ u ∈ db.users, u.email ≠ none)
    (hstray : legacy = true → ∀ r ∈ db.owned .facilityBooking,
      nameStartsWith legacySeedMarker (r.remark.getD "") = true →
        MockUserId suffix legacy db r.userId)
    (hdependency : ¬∃ model ∈ ministryScopedModels, ∃ column ∈ model.2, Depends db C S column)
    (hoverrider : ∀ l ∈ db.overrideLogs, l.overriddenById ∈ S →
      MockRowId suffix legacy db .facilityBooking l.facilityBookingId) :
    ¬Blocked suffix legacy db := by
  intro hblocked
  cases hblocked with
  | email hsuffix u hu he => exact hemails hsuffix u hu he
  | strayOwner hlegacy r hr hremark ho => exact ho (hstray hlegacy r hr hremark)
  | dependency model hm column hc ministry user hrow hministry huser =>
    exact hdependency ⟨model, hm, column, hc, ministry, user, hrow,
      (h.ministries ministry).mpr hministry, mt (h.users user).mp huser⟩
  | overrider l hl huser hbooking => exact hbooking (hoverrider l hl ((h.users _).mpr huser))

/-- **A run of the command** ends with the Mock data removed, or with nothing done where it is
blocked. -/
theorem run_ends (hkeyed : Keyed db) :
    Act.Ends db (Blocked suffix legacy db) [] (run suffix legacy) (Outcome suffix legacy db) := by
  refine .bind scopedUserIds_runs ?_
  rintro S _ ⟨rfl, hS, hemails⟩
  refine .bind markedIds_runs ?_
  rintro ⟨slots, blackouts⟩ _ ⟨rfl, hslots, hblackouts⟩
  refine .bind (allCandidateMinistryIds_runs hS) ?_
  rintro C _ ⟨rfl, hC⟩
  have hscope : Scope suffix legacy db S C (marked slots blackouts) :=
    ⟨hS, hC, fun model => by cases model; exacts [hslots, hblackouts]⟩
  refine .bind (strayOwners_runs hS) ?_
  rintro strayOwners _ ⟨rfl, hstray⟩
  split
  · rename_i hne
    obtain ⟨id, hid⟩ := List.exists_mem_of_ne_nil strayOwners (by simpa using hne)
    obtain ⟨hlegacy, r, hr, rfl, hremark, ho⟩ := (hstray id).mp hid
    exact .of_runs (Q := fun result _ => result = .error strayOwnerMessage) (.pure rfl) <| by
      rintro _ _ rfl
      exact ⟨.strayOwner hlegacy r hr hremark ho, rfl⟩
  · rename_i hnil
    have hstray : legacy = true → ∀ r ∈ db.owned .facilityBooking,
        nameStartsWith legacySeedMarker (r.remark.getD "") = true →
          MockUserId suffix legacy db r.userId := by
      intro hlegacy r hr hremark
      by_contra ho
      have hid := (hstray r.userId).mpr ⟨hlegacy, r, hr, rfl, hremark, ho⟩
      simp only [Bool.not_eq_true', Bool.not_eq_false, List.isEmpty_iff] at hnil
      exact absurd (hnil ▸ hid) List.not_mem_nil
    split
    · rename_i hempty
      simp only [Bool.and_eq_true, List.isEmpty_iff] at hempty
      obtain ⟨⟨⟨rfl, rfl⟩, rfl⟩, rfl⟩ := hempty
      have hD : ∀ model id, id ∈ ([] : List UUID) ↔ MockRowId suffix legacy db model id := by
        intro model id
        rw [← hscope.deleted_iff]
        simp [Hit]
      refine .of_runs (Q := fun result ws => result = .ok ⟨0, 0, 0, 0, 0, 0, 0⟩ ∧ ws = [])
        (.pure ⟨rfl, rfl⟩) ?_
      rintro _ _ ⟨rfl, -⟩
      refine ⟨hscope.not_blocked hemails hstray ?_ fun _ _ h => absurd h List.not_mem_nil, ?_⟩
      · rintro ⟨model, -, column, -, ministry, user, -, h, -⟩
        exact absurd h List.not_mem_nil
      · have hF : marked [] [] = fun _ => [] := by
          funext model
          cases model <;> rfl
        have hremoved := removed_removal (D := fun _ => []) hkeyed hS hC hD hscope.fixtures
        rwa [hF, removal_nil] at hremoved
    · refine .bind dependencyError_runs ?_
      rintro message _ ⟨rfl, hdependency⟩
      cases message with
      | some message =>
        obtain ⟨model, hm, column, hc, ministry, user, hrow, hministry, huser⟩ :=
          hdependency.mp nofun
        exact .of_runs (Q := fun result _ => result = .error message) (.pure rfl) <| by
          rintro _ _ rfl
          exact ⟨.dependency model hm column hc ministry user hrow ((hC ministry).mp hministry)
            (mt (hS user).mpr huser), rfl⟩
      | none =>
        refine .bind (deleteAll_runs hscope) ?_
        rintro result ws ⟨D, hview, hD, hallowed⟩
        refine .commit ⟨hscope.not_blocked hemails hstray ?_ fun l hl hu => ?_, ?_⟩
        · exact fun h => hdependency.mpr h rfl
        · by_contra hb
          exact hallowed ⟨l, hl, hu, mt (hD _ _).mp hb⟩
        · exact hview ▸ removed_removal hkeyed hS hC hD hscope.fixtures

/-! ## 5. When it is what the command is for -/

/-- What `mock_fixture_name` writes has the prefix that the command looks for. -/
theorem MockFixture.taken {r : FixtureRow} (h : MockFixture legacy r) : TakenFixture legacy r := by
  refine h.imp_left ?_
  rintro ⟨label, runIdentity, hname⟩
  rw [nameContains, decide_eq_true_eq, hname]
  refine ⟨("Mock " ++ label ++ " (").toList, (runIdentity ++ ")").toList, ?_⟩
  simp only [mockFixtureName, mockRunMarker, String.toList_append, List.append_assoc]

/-- A table of what a user has is one that the checks go through. -/
theorem ownedColumn_checked (model : OwnedModel) :
    ∃ checked ∈ ministryScopedModels, ownedColumn model ∈ checked.2 := by
  cases model <;> simp [ministryScopedModels]

theorem onlyMock_of_removed {db' : MockTables} (hblocked : ¬Blocked suffix legacy db)
    (hremoved : Removed suffix legacy db (TakenFixture legacy) db') (hnames : NamesTell legacy db) :
    OnlyMock suffix legacy db db' where
  removed :=
    { hremoved with
      fixtures := fun model r => by
        rw [hremoved.fixtures]
        refine and_congr_right fun hr => not_congr ?_
        exact ⟨fun htaken => (hnames model r hr htaken).1, MockFixture.taken⟩ }
  owned model r hr huser := by
    refine (hremoved.owned model r.id).mpr ⟨r, hr, rfl, ?_⟩
    rintro (hmock | ⟨ministry, hm, hcandidate⟩)
    · exact huser hmock
    · obtain ⟨checked, hchecked, hcolumn⟩ := ownedColumn_checked model
      refine hblocked (.dependency checked hchecked _ hcolumn ministry r.userId ?_ hcandidate huser)
      exact List.mem_map.mpr ⟨r, hr, by rw [hm]⟩
  members m hm huser := by
    refine (hremoved.members m).mpr ⟨hm, huser, fun hcandidate => ?_⟩
    exact hblocked (.dependency _ (.head _) _ (.head _) m.ministryId m.userId
      (List.mem_map_of_mem hm) hcandidate huser)
  persons model r hr hperson := by
    refine (hremoved.fixtures model r).mpr ⟨hr, fun htaken => ?_⟩
    exact absurd hperson (by simp [(hnames model r hr htaken).2])

/-- A run either succeeds and removes what it takes for Mock data, or leaves the tables as they are,
which it does only when it is blocked or a round trip fails. -/
theorem run_cases (h : Keyed db) (rounds : List (Round MockTables))
    (hrounds : ∀ r ∈ rounds, r.tables = db) :
    (∃ result k, run suffix legacy { tables := db, rounds } = (.ok (.ok result), k) ∧
      ¬Blocked suffix legacy db ∧
      Removed suffix legacy db (TakenFixture legacy) (view db k.session.durable)) ∨
    RemovesOnlyMock suffix legacy db rounds ∧
      (Blocked suffix legacy db ∨ ∃ r ∈ rounds, r.fate ≠ .done) := by
  have hends := @run_ends suffix legacy db h
  have hstart := Act.Running.start (W := Deletion) (E := Unit) rounds hrounds
  rcases hrun : run suffix legacy { tables := db, rounds } with ⟨outcome, k⟩
  have hraised : k.session.durable = [] → (∀ result, outcome ≠ .ok (.ok result)) →
      RemovesOnlyMock suffix legacy db rounds := by
    intro hdurable hne
    constructor
    · intro result k' hrun'
      exact absurd (congrArg Prod.fst (hrun.symm.trans hrun')) (hne result)
    · intro outcome' k' hrun' _
      obtain rfl : k = k' := congrArg Prod.snd (hrun.symm.trans hrun')
      exact congrArg (view db) hdurable
  match outcome, hrun with
  | .error kind, hrun =>
    obtain ⟨hdurable, hwhy⟩ := hends.raises _ hstart _ _ hrun
    exact .inr ⟨hraised hdurable nofun, hwhy⟩
  | .ok (.error message), hrun =>
    obtain ⟨hblocked, hdurable⟩ := hends.returns _ hstart _ _ hrun
    exact .inr ⟨hraised hdurable nofun, .inl hblocked⟩
  | .ok (.ok result), hrun => exact .inl ⟨result, k, rfl, hends.returns _ hstart _ _ hrun⟩

theorem removesOnlyMock_of_ok {rounds : List (Round MockTables)} {result : RemoveMockDataResult}
    {k : Work MockTables Deletion Unit}
    (hrun : run suffix legacy { tables := db, rounds } = (.ok (.ok result), k)) :
    RemovesOnlyMock suffix legacy db rounds ↔
      OnlyMock suffix legacy db (view db k.session.durable) := by
  constructor
  · exact fun honly => honly.succeeds result k hrun
  · intro honly
    constructor
    · intro result' k' hrun'
      obtain rfl : k = k' := congrArg Prod.snd (hrun.symm.trans hrun')
      exact honly
    · intro outcome k' hrun' hne
      exact absurd (congrArg Prod.fst (hrun'.symm.trans hrun)) (hne result)

/-- Where nothing fails and nothing is in the way, the names decide. -/
theorem namesTell_of_onlyMock (h : Keyed db) (hblocked : ¬Blocked suffix legacy db)
    (honly : RemovesOnlyMock suffix legacy db []) : NamesTell legacy db := by
  intro model r hr htaken
  rcases @run_cases suffix legacy db h [] nofun with
    ⟨result, k, hrun, -, hremoved⟩ | ⟨-, hwhy⟩
  · rw [removesOnlyMock_of_ok hrun] at honly
    have hgone : r ∉ (view db k.session.durable).fixtures model := fun hstays =>
      ((hremoved.fixtures model r).mp hstays).2 htaken
    constructor
    · by_contra hmock
      exact hgone ((honly.removed.fixtures model r).mpr ⟨hr, hmock⟩)
    · by_contra hperson
      exact hgone (honly.persons model r hr (by simpa using hperson))
  · simp [hblocked] at hwhy

/-- **The command removes Mock data only** exactly when it is blocked in any case, or when every
fixture whose name it takes for marked is a Mock fixture, and not a person's. -/
theorem removesOnlyMock_iff (suffix : String) (legacy : Bool) (db : MockTables) (h : Keyed db) :
    (∀ rounds, (∀ r ∈ rounds, r.tables = db) → RemovesOnlyMock suffix legacy db rounds) ↔
      (¬Blocked suffix legacy db → NamesTell legacy db) := by
  constructor
  · intro hall hblocked
    exact namesTell_of_onlyMock h hblocked (hall [] nofun)
  · intro hnames rounds hrounds
    rcases @run_cases suffix legacy db h rounds hrounds with
      ⟨result, k, hrun, hblocked, hremoved⟩ | ⟨honly, -⟩
    · rw [removesOnlyMock_of_ok hrun]
      exact onlyMock_of_removed hblocked hremoved (hnames hblocked)
    · exact honly

end

/-- A person's slot template, which is called what it is about. -/
def hammock : FixtureRow := ⟨1, "Hammock: closed", true⟩

/-- Nobody's data is Mock data. -/
def hammockTables : MockTables :=
  { fixtures := fun | .facilityRoomSlotTemplate => [hammock] | .facilityRoomBlackout => [] }

theorem hammock_keyed : Keyed hammockTables :=
  ⟨by decide, fun _ => .nil, fun model => by cases model <;> decide⟩

theorem hammock_not_blocked : ¬Blocked "@mock.test" false hammockTables := by
  intro hblocked
  cases hblocked with
  | email h u hu he => cases hu
  | strayOwner h r hr hremark ho => cases hr
  | dependency model hm column hc ministry user hrow hministry huser =>
    rcases hministry with ⟨m, hm, -⟩ | ⟨hlegacy, -⟩
    · cases hm
    · cases hlegacy
  | overrider l hl huser hbooking => cases hl

/-- **A person's slot template is deleted.** -/
theorem hammock_not_onlyMock :
    Keyed hammockTables ∧ ¬RemovesOnlyMock "@mock.test" false hammockTables [] := by
  refine ⟨hammock_keyed, fun honly => ?_⟩
  have hnames := namesTell_of_onlyMock hammock_keyed hammock_not_blocked honly
  have htaken : TakenFixture false hammock := .inl (by decide +kernel)
  cases (hnames .facilityRoomSlotTemplate hammock (.head _) htaken).2

/-- A Mock user with what the command seeded, and somebody else's slot template. -/
def seededTables : MockTables :=
  { users := [⟨1, some "booker@mock.test"⟩, ⟨2, some "ann@church.test"⟩]
    owned := fun | .facilityBooking => [{ id := 5, userId := 1, ministryId := none }] | _ => []
    fixtures := fun
      | .facilityRoomSlotTemplate =>
          [⟨3, "Mock Slot (mock:run-1)", false⟩, ⟨4, "Sunday service", true⟩]
      | .facilityRoomBlackout => [] }

/-- On such tables the command removes Mock data only. -/
theorem seeded_onlyMock : Keyed seededTables ∧
    ∀ rounds, (∀ r ∈ rounds, r.tables = seededTables) →
      RemovesOnlyMock "@mock.test" false seededTables rounds := by
  have hkeyed : Keyed seededTables :=
    ⟨by decide, fun model => by cases model <;> decide, fun model => by cases model <;> decide⟩
  refine ⟨hkeyed, (removesOnlyMock_iff _ _ _ hkeyed).mpr fun _ model r hr htaken => ?_⟩
  cases model with
  | facilityRoomBlackout => cases hr
  | facilityRoomSlotTemplate =>
    rcases List.mem_cons.mp hr with rfl | hr
    · exact ⟨.inl ⟨"Slot", "run-1", by decide +kernel⟩, rfl⟩
    · obtain rfl := List.mem_singleton.mp hr
      rcases htaken with hname | ⟨hlegacy, -⟩
      · exact absurd hname (by decide +kernel)
      · cases hlegacy

end NewlifeCore.Cli
