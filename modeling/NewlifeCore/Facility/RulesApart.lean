import NewlifeCore.Exclusive
import NewlifeCore.Facility.Calls
import NewlifeCore.Facility.RoomSlotTemplateService
import NewlifeCore.Facility.Serial
import NewlifeCore.Txn.Sequence

/-!
# Opening hours and Blackouts stay apart

`create_template`, `update_template`, `create_blackout` and `update_blackout` compare what they are
about to write with the active rows and refuse an overlap; `restore_template` and
`restore_blackout` undelete a row without the comparison.  So in a sequence of these calls no two
live rows overlap as long as what is restored has nothing live in its place, and a single
restoration that has breaks it.

* §1 is what two rules can share: a weekday of their masks, a day of their ranges, a time of day.
  Each is a symmetric relation, and each answers one test of the source (`ShareWeekday.and_ne_zero`,
  `ShareDay.effectiveDatesOverlap`, `ShareTime.timeRangesOverlap`).
* §2, slot templates.  `assertNoOverlap_ok` reads the comparison: one that passes has seen every
  live template but the one it excludes, and none overlaps.  `createTemplate_exec` and its siblings
  say what a call leaves, `SlotTemplateCall.apart_step` that one call keeps `Apart`, the invariant,
  and `slotTemplates_stay_disjoint` carries it over a sequence.  `restoreTemplate_disjoint_iff`
  shows the condition on a restoration to be exact.
* §3, Blackouts, the same over scopes, kinds, masks and ranges.  What is new is that a creation
  and an update also apply their impact, which cancels Bookings and leaves the Blackouts alone
  (`applyImpact_sameBlackouts`), and that the comparison widens what it asks the database for, so
  that an overlap is shown to pass each of its tests in turn (`overlapsCandidate_of_overlaps`).
-/

namespace NewlifeCore

open Txn Prog

variable {db db₀ db' : Db} {t : Int}

/-! ## 1. What two rules share -/

/-- A weekday of both masks. -/
def ShareWeekday (m m' : Nat) : Prop :=
  ∃ day : Int, RoomBlackoutRepository.maskHasDay m day = true ∧
    RoomBlackoutRepository.maskHasDay m' day = true

/-- A day of the range, open where an end is missing. -/
def EffectiveOn (start stop : Option Int) (day : Int) : Prop :=
  (∀ f ∈ start, f ≤ day) ∧ ∀ u ∈ stop, day ≤ u

/-- A day of both ranges. -/
def ShareDay (start stop start' stop' : Option Int) : Prop :=
  ∃ day, EffectiveOn start stop day ∧ EffectiveOn start' stop' day

/-- A time of day of both windows. -/
def ShareTime (s e s' e' : TimeOfDay) : Prop :=
  ∃ u : TimeOfDay, s ≤ u ∧ u < e ∧ s' ≤ u ∧ u < e'

theorem ShareWeekday.symm {m m' : Nat} : ShareWeekday m m' → ShareWeekday m' m :=
  fun ⟨day, h, h'⟩ => ⟨day, h', h⟩

theorem ShareDay.symm {s e s' e' : Option Int} : ShareDay s e s' e' → ShareDay s' e' s e :=
  fun ⟨day, h, h'⟩ => ⟨day, h', h⟩

theorem ShareTime.symm {s e s' e' : TimeOfDay} : ShareTime s e s' e' → ShareTime s' e' s e :=
  fun ⟨u, h₁, h₂, h₃, h₄⟩ => ⟨u, h₃, h₄, h₁, h₂⟩

theorem ShareWeekday.and_ne_zero {m m' : Nat} (h : ShareWeekday m m') : m &&& m' ≠ 0 := by
  obtain ⟨day, hm, hm'⟩ := h
  intro hzero
  have hbit : (m &&& m').testBit day.toNat = true := by
    rw [Nat.testBit_and]
    exact Bool.and_eq_true_iff.mpr ⟨hm, hm'⟩
  rw [hzero, Nat.zero_testBit] at hbit
  cases hbit

theorem ShareDay.effectiveDatesOverlap {s e s' e' : Option Int} (h : ShareDay s e s' e') :
    RoomBlackoutRepository.effectiveDatesOverlap s e s' e' = true := by
  obtain ⟨day, ⟨hs, he⟩, hs', he'⟩ := h
  have hcross : ∀ f ∈ s, ∀ u ∈ e', ¬ f > u := fun f hf u hu =>
    not_lt.mpr (le_trans (hs f hf) (he' u hu))
  have hcross' : ∀ f ∈ s', ∀ u ∈ e, ¬ f > u := fun f hf u hu =>
    not_lt.mpr (le_trans (hs' f hf) (he u hu))
  cases s <;> cases e <;> cases s' <;> cases e' <;>
    simp_all [RoomBlackoutRepository.effectiveDatesOverlap]

theorem ShareTime.timeRangesOverlap {s e s' e' : TimeOfDay} (h : ShareTime s e s' e') :
    RoomBlackoutRepository.timeRangesOverlap s e s' e' = true := by
  obtain ⟨u, hs, he, hs', he'⟩ := h
  have hlt : ∀ a b : TimeOfDay, a ≤ u → u < b → decide (a < b) = true :=
    fun a b ha hb => decide_eq_true (show a.micros < b.micros from lt_of_le_of_lt ha hb)
  exact Bool.and_eq_true_iff.mpr ⟨hlt s e' hs he', hlt s' e hs' he⟩

/-! ## 2. Slot templates -/

namespace RoomSlotTemplate

/-- Active and not deleted. -/
def live (r : RoomSlotTemplate) : Bool := r.isActive && !r.isDeleted

/-- **Two templates overlap**: one room, and a weekday, a day and a time of day in common. -/
def Overlaps (a b : RoomSlotTemplate) : Prop :=
  a.facilityId = b.facilityId ∧ ShareWeekday a.daysOfWeekMask b.daysOfWeekMask ∧
    ShareDay a.effectiveFrom a.effectiveTo b.effectiveFrom b.effectiveTo ∧
    ShareTime a.startTime a.endTime b.startTime b.endTime

theorem Overlaps.symm {a b : RoomSlotTemplate} (h : a.Overlaps b) : b.Overlaps a :=
  ⟨h.1.symm, h.2.1.symm, h.2.2.1.symm, h.2.2.2.symm⟩

/-- Distinct ids, and no two live templates overlap. -/
abbrev Apart (rows : List RoomSlotTemplate) : Prop :=
  Exclusive.Apart RoomSlotTemplate.id live Overlaps rows

end RoomSlotTemplate

/-- **No two live slot templates of a database overlap.** -/
def SlotTemplatesDisjoint (db : Db) : Prop :=
  db.slotTemplates.Pairwise fun a b => a.live = true → b.live = true → ¬ a.Overlaps b

/-- The calls of `RoomSlotTemplateService` that write. -/
inductive SlotTemplateCall
  | create (templateId : UUID) (command : RoomSlotTemplateCommand)
  | update (templateId : UUID) (command : RoomSlotTemplateCommand)
  | delete (templateId : UUID) (command : DeleteCommand)
  | restore (templateId : UUID)

def SlotTemplateCall.body : SlotTemplateCall → Portal Unit
  | .create id command => discard (RoomSlotTemplateService.createTemplate id command)
  | .update id command => RoomSlotTemplateService.updateTemplate id command
  | .delete id command => RoomSlotTemplateService.deleteTemplate id command
  | .restore id => RoomSlotTemplateService.restoreTemplate id

/-- **What is restored is inactive or has no live template in its place.** -/
def TemplateRestoreFits (db : Db) (_ : Int) : SlotTemplateCall → Prop
  | .restore id => ∀ r ∈ db.slotTemplates, r.id = id → r.isActive = true →
      ∀ r' ∈ db.slotTemplates, r'.id ≠ id → r'.live = true → ¬ r'.Overlaps r
  | _ => True

namespace RoomSlotTemplateService

variable {command : RoomSlotTemplateCommand} {mask : Nat} {exclude : Option UUID}

/-- **The comparison sees every overlap** with a live template that is not excluded. -/
theorem assertNoOverlap_ok (h : (assertNoOverlap command mask exclude).eval db t = .ok ())
    {r r' : RoomSlotTemplate} (hr : r ∈ db.slotTemplates) (hne : exclude ≠ some r.id)
    (hlive : r.live = true) (hactive : (values command mask r').live = true) :
    ¬ r.Overlaps (values command mask r') := by
  intro hover
  obtain ⟨hroom, hdays, hdates, htimes⟩ := hover.symm
  have hcommand : command.isActive = true := (Bool.and_eq_true_iff.mp hactive).1
  unfold assertNoOverlap at h
  rw [if_neg (by simp [hcommand])] at h
  obtain ⟨candidates, hcandidates, hraise⟩ := (eval_bind_iff (ReadOnly.select _)).mp h
  cases hcandidates
  have hnone := eval_raiseIf_ok.mp hraise
  have hmem : r ∈ db.slotTemplates.filter fun t => !t.isDeleted && t.isActive &&
      t.facilityId = command.facilityId && t.daysOfWeekMask &&& mask ≠ 0 &&
      !(exclude = some t.id) := by
    have hl := Bool.and_eq_true_iff.mp hlive
    have hbits : r.daysOfWeekMask &&& mask ≠ 0 := hdays.symm.and_ne_zero
    have hsame : r.facilityId = command.facilityId := hroom.symm
    refine List.mem_filter.mpr ⟨hr, ?_⟩
    simp [hl.1, by simpa using hl.2, hbits, hsame, hne]
  have := List.any_eq_false.mp hnone r hmem
  exact this (Bool.and_eq_true_iff.mpr ⟨hdates.effectiveDatesOverlap, htimes.timeRangesOverlap⟩)

/-- What a creation leaves. -/
theorem createTemplate_exec {id : UUID}
    (h : (discard (createTemplate id command)).exec db t = .ok ((), db')) :
    ∃ mask, (assertNoOverlap command mask none).eval db t = .ok () ∧
      (∀ r ∈ db.slotTemplates, r.id ≠ id) ∧
      db'.slotTemplates = db.slotTemplates ++ [newTemplate command mask id] := by
  obtain ⟨_, db₁, h, hret⟩ := exec_bind_ok h
  cases hret
  obtain ⟨_, -, h⟩ := (exec_reads_iff (assertRoomExists_readOnly _)).mp h
  obtain ⟨_, -, h⟩ := (exec_reads_iff (ReadOnly.ofExcept _)).mp h
  obtain ⟨mask, -, h⟩ := (exec_reads_iff (ReadOnly.ofExcept _)).mp h
  obtain ⟨_, hassert, h⟩ := (exec_reads_iff (assertNoOverlap_readOnly _ _ _)).mp h
  obtain ⟨_, db₂, hinsert, h⟩ := exec_bind_ok h
  cases h
  obtain ⟨hins, rfl⟩ := (exec_insertInto slotTemplateTable _ _).mp hinsert
  refine ⟨mask, hassert, fun r hr hid => ?_, rfl⟩
  exact hins.fresh _ List.mem_cons_self r hr (congrArg RowName.slotTemplate hid)

/-- What an update leaves. -/
theorem updateTemplate_exec {id : UUID}
    (h : (updateTemplate id command).exec db t = .ok ((), db')) :
    ∃ mask, (assertNoOverlap command mask (some id)).eval db t = .ok () ∧
      db'.slotTemplates = db.slotTemplates.map fun r =>
        if r.id = id && !r.isDeleted then values command mask r else r := by
  obtain ⟨_, -, h⟩ := (exec_reads_iff (ReadOnly.select _)).mp h
  obtain ⟨_, -, h⟩ := (exec_reads_iff (ReadOnly.raiseIf _ _)).mp h
  obtain ⟨_, -, h⟩ := (exec_reads_iff (assertRoomExists_readOnly _)).mp h
  obtain ⟨_, -, h⟩ := (exec_reads_iff (ReadOnly.ofExcept _)).mp h
  obtain ⟨mask, -, h⟩ := (exec_reads_iff (ReadOnly.ofExcept _)).mp h
  obtain ⟨_, hassert, h⟩ := (exec_reads_iff (assertNoOverlap_readOnly _ _ _)).mp h
  obtain ⟨affected, db₁, hupdate, h⟩ := exec_bind_ok h
  cases hupdate
  have hdb := exec_readOnly (ReadOnly.raiseIf _ _) h
  refine ⟨mask, hassert, ?_⟩
  rw [hdb]
  exact congrArg Db.slotTemplates (Table.update_self slotTemplateTable)

/-- What a deletion leaves. -/
theorem deleteTemplate_exec {id : UUID} {deletion : DeleteCommand}
    (h : (deleteTemplate id deletion).exec db t = .ok ((), db')) :
    db'.slotTemplates = db.slotTemplates.filter (fun r => !decide (r.id = id)) ∨
      db'.slotTemplates = db.slotTemplates.map fun r => if decide (r.id = id) then
        { r with isDeleted := true, deleteReason := deletion.reason } else r := by
  obtain ⟨_, -, h⟩ := (exec_reads_iff (ReadOnly.select _)).mp h
  obtain ⟨_, -, h⟩ := (exec_reads_iff (ReadOnly.raiseIf _ _)).mp h
  split at h
  · cases h
    exact .inl (congrArg Db.slotTemplates (Table.delete_self slotTemplateTable))
  · cases h
    exact .inr (congrArg Db.slotTemplates (Table.update_self slotTemplateTable))

/-- What a restoration leaves. -/
theorem restoreTemplate_exec {id : UUID}
    (h : (restoreTemplate id).exec db t = .ok ((), db')) :
    db'.slotTemplates = db.slotTemplates.map fun r =>
      if decide (r.id = id) then { r with isDeleted := false, deleteReason := none } else r := by
  cases h
  exact congrArg Db.slotTemplates (Table.update_self slotTemplateTable)

end RoomSlotTemplateService

open RoomSlotTemplateService in
/-- **One call keeps the templates apart.** -/
theorem SlotTemplateCall.apart_step (c : SlotTemplateCall) (h : RoomSlotTemplate.Apart db.slotTemplates)
    (hfits : TemplateRestoreFits db t c) (hc : c.body.exec db t = .ok ((), db')) :
    RoomSlotTemplate.Apart db'.slotTemplates := by
  have hsymm : ∀ {a b : RoomSlotTemplate}, a.Overlaps b → b.Overlaps a := fun h => h.symm
  cases c with
  | create id command =>
    obtain ⟨mask, hassert, hfresh, hdb⟩ := createTemplate_exec hc
    rw [hdb]
    exact h.insert hfresh fun hlive r hr hl => assertNoOverlap_ok hassert hr (by simp) hl hlive
  | update id command =>
    obtain ⟨mask, hassert, hdb⟩ := updateTemplate_exec hc
    rw [hdb]
    refine h.rewriteOne hsymm (k := id) (fun r hr => by simpa using (Bool.and_eq_true_iff.mp hr).1)
      (fun _ => rfl) fun r _ _ hlive r' hr' hne hl => ?_
    exact assertNoOverlap_ok hassert hr' (by simpa using Ne.symm hne) hl hlive
  | delete id deletion =>
    rcases deleteTemplate_exec hc with hdb | hdb
    · rw [hdb]
      exact h.filter _
    · rw [hdb]
      exact h.retire hsymm (k := id) (by simp) (fun _ => rfl)
        fun _ => by simp [RoomSlotTemplate.live]
  | restore id =>
    rw [restoreTemplate_exec hc]
    refine h.rewriteOne hsymm (k := id) (by simp) (fun _ => rfl) fun r hr hid hlive r' hr' hne hl => ?_
    exact hfits r hr (by simpa using hid) (Bool.and_eq_true_iff.mp hlive).1 r' hr' hne hl

/-- The condition is exact: a restoration that does not fit makes two live templates overlap. -/
theorem restoreTemplate_disjoint_iff {id : UUID} (h : RoomSlotTemplate.Apart db.slotTemplates) :
    SlotTemplatesDisjoint ((SlotTemplateCall.restore id).body.after db t) ↔
      TemplateRestoreFits db t (.restore id) := by
  have hexec : (SlotTemplateCall.restore id).body.exec db t =
      .ok ((), (SlotTemplateCall.restore id).body.after db t) := rfl
  have hiff := h.rewriteOne_iff (f := fun r => { r with isDeleted := false, deleteReason := none })
    (p := fun r => decide (r.id = id)) (k := id) (fun h => h.symm) (by simp) (fun _ => rfl)
  unfold SlotTemplatesDisjoint
  rw [RoomSlotTemplateService.restoreTemplate_exec hexec, hiff]
  simp only [TemplateRestoreFits, RoomSlotTemplate.live, Bool.not_false, Bool.and_true]
  exact Iff.rfl

/-- **Slot templates of a room stay disjoint** in every sequence of calls whose restorations
fit. -/
theorem slotTemplates_stay_disjoint (h₀ : db₀.slotTemplates = [])
    (h : InTurn SlotTemplateCall.body TemplateRestoreFits db₀ db) : SlotTemplatesDisjoint db := by
  have hempty : RoomSlotTemplate.Apart db₀.slotTemplates := h₀ ▸ Exclusive.Apart.nil
  exact (h.invariant (I := fun db => RoomSlotTemplate.Apart db.slotTemplates) hempty
    fun c _ _ _ hI hok hc => c.apart_step hI hok hc).apart

/-- Mondays from noon to one in room 3. -/
def mondayNoon : RoomSlotTemplateCommand where
  facilityId := 3
  name := "choir practice"
  daysOfWeek := [0]
  startTime := .noon
  endTime := .ofHms 13 0 0 oneOClock_inDay
  slotDurationMinutes := 60

/-- One room, and no opening hours yet. -/
def Db.newRoom : Db where
  rooms := [{ id := 3 }]

/-- Tuesdays at that hour. -/
def tuesdayNoon : RoomSlotTemplateCommand :=
  { mondayNoon with name := "bible study", daysOfWeek := [1] }

/-- Both, and the first deleted again. -/
def besideDeleted : Db :=
  (SlotTemplateCall.delete 1 {}).body.after ((SlotTemplateCall.create 2 tuesdayNoon).body.after
    ((SlotTemplateCall.create 1 mondayNoon).body.after Db.newRoom 0) 0) 0

/-- The first is restored beside the second: two live templates of one room. -/
theorem slotTemplates_stay_disjoint_sample :
    ((SlotTemplateCall.restore 1).body.after besideDeleted 0).slotTemplates.map
        (fun r => (r.facilityId, r.live)) = [(3, true), (3, true)] ∧
      SlotTemplatesDisjoint ((SlotTemplateCall.restore 1).body.after besideDeleted 0) := by
  have hrun : InTurn SlotTemplateCall.body TemplateRestoreFits Db.newRoom besideDeleted :=
    .call _ 0 (.call _ 0 (.call _ 0 .refl trivial) trivial) trivial
  have hmasks : ∀ r ∈ besideDeleted.slotTemplates, ∀ r' ∈ besideDeleted.slotTemplates,
      r.id = 1 → r'.id ≠ 1 → r'.daysOfWeekMask &&& r.daysOfWeekMask = 0 := by decide +kernel
  have h₀ : Db.newRoom.slotTemplates = [] := rfl
  refine ⟨by decide +kernel, slotTemplates_stay_disjoint h₀ (.call (.restore 1) 0 hrun ?_)⟩
  intro r hr hid _ r' hr' hne _ hoverlap
  exact hoverlap.2.1.and_ne_zero (hmasks r hr r' hr' hid hne)

/-- **Restoring a template brings back an overlap**: another one was created in its place. -/
theorem restored_templates_overlap : ¬ ∀ db₀ db : Db, db₀.slotTemplates = [] →
    InTurn SlotTemplateCall.body (fun _ _ _ => True) db₀ db → SlotTemplatesDisjoint db := by
  intro h
  have hrun := h Db.newRoom _ rfl
    (.call (.restore 1) 0 (.call (.create 2 mondayNoon) 0 (.call (.delete 1 {}) 0
      (.call (.create 1 mondayNoon) 0 .refl trivial) trivial) trivial) trivial)
  have hpair := List.pairwise_pair.mp hrun
  refine hpair rfl rfl ⟨rfl, ⟨0, rfl, rfl⟩, ⟨0, ⟨nofun, nofun⟩, nofun, nofun⟩, .noon, ?_⟩
  decide

/-! ## 3. Blackouts -/

namespace RoomBlackout

/-- Active and not deleted. -/
def live (b : RoomBlackout) : Bool := b.isActive && !b.isDeleted

/-- One room, or campus-wide on a side. -/
def ScopesMeet (a b : RoomBlackout) : Prop :=
  a.facilityId = none ∨ b.facilityId = none ∨ a.facilityId = b.facilityId

/-- The dates on which both hold: the date of two one-off Blackouts, a weekday and a day of the
ranges of two recurring ones. -/
def DatesMeet (a b : RoomBlackout) : Prop :=
  match a.kind with
  | .oneOff => ∃ day, a.blackoutDate = some day ∧ b.blackoutDate = some day
  | .recurring =>
    (∃ m m', a.daysOfWeekMask = some m ∧ b.daysOfWeekMask = some m' ∧ ShareWeekday m m') ∧
      ShareDay a.effectiveFrom a.effectiveTo b.effectiveFrom b.effectiveTo

/-- **Two Blackouts of a kind overlap.** -/
structure Overlaps (a b : RoomBlackout) : Prop where
  kind : a.kind = b.kind
  scopes : a.ScopesMeet b
  dates : a.DatesMeet b
  times : ShareTime a.startTime a.endTime b.startTime b.endTime

theorem Overlaps.symm {a b : RoomBlackout} (h : a.Overlaps b) : b.Overlaps a := by
  refine ⟨h.kind.symm, ?_, ?_, h.times.symm⟩
  · rcases h.scopes with ha | hb | hab
    · exact .inr (.inl ha)
    · exact .inl hb
    · exact .inr (.inr hab.symm)
  · have hdates := h.dates
    unfold DatesMeet at hdates ⊢
    rw [← h.kind]
    cases hk : a.kind with
    | oneOff =>
      rw [hk] at hdates
      obtain ⟨day, ha, hb⟩ := hdates
      exact ⟨day, hb, ha⟩
    | recurring =>
      rw [hk] at hdates
      obtain ⟨⟨m, m', ha, hb, hm⟩, hday⟩ := hdates
      exact ⟨⟨m', m, hb, ha, hm.symm⟩, hday.symm⟩

/-- Distinct ids, and no two live Blackouts overlap. -/
abbrev Apart (rows : List RoomBlackout) : Prop :=
  Exclusive.Apart RoomBlackout.id live Overlaps rows

end RoomBlackout

/-- **No two live Blackouts of a database overlap.** -/
def BlackoutsDisjoint (db : Db) : Prop :=
  db.blackouts.Pairwise fun a b => a.live = true → b.live = true → ¬ a.Overlaps b

/-- The calls of `RoomBlackoutService` that write. -/
inductive BlackoutCall
  | create (request : Request) (command : CreateRoomBlackoutCommand)
  | update (blackoutId : UUID) (command : UpdateRoomBlackoutCommand)
  | delete (blackoutId : UUID) (command : DeleteCommand)
  | restore (blackoutId : UUID)

def BlackoutCall.body (app : App) : BlackoutCall → Portal Unit
  | .create r command => discard (RoomBlackoutService.createBlackout app r command)
  | .update id command => RoomBlackoutService.updateBlackout id command
  | .delete id command => RoomBlackoutService.deleteBlackout id command
  | .restore id => RoomBlackoutService.restoreBlackout id

/-- **What is restored is inactive or has no live Blackout in its place.** -/
def BlackoutRestoreFits (db : Db) (_ : Int) : BlackoutCall → Prop
  | .restore id => ∀ b ∈ db.blackouts, b.id = id → b.isActive = true →
      ∀ b' ∈ db.blackouts, b'.id ≠ id → b'.live = true → ¬ b'.Overlaps b
  | _ => True

/-! ### 3.1 Applying an impact -/

/-- The Blackouts are what they were. -/
def SameBlackouts (db db' : Db) : Prop := db'.blackouts = db.blackouts

theorem cancelOccurrences_sameBlackouts (ids : List UUID) (byId : Option UUID)
    (reason : Option String) :
    (RecurringBookingService.cancelOccurrences ids byId reason).Writes SameBlackouts := by
  refine Writes.each (fun id => ?_) ids
  refine Writes.bind (fun now => ?_) (.readOnly .now)
  refine Writes.bind (fun _ => ?_) (.execute fun db c h => ?_)
  · exact .execute fun db c h => by cases h; rfl
  · cases h
    rfl

theorem applyBlackoutImpact_sameBlackouts (r : Request) (items : List BlackoutImpactOccurrence)
    (reason : String) :
    (RecurringBookingService.applyBlackoutImpact r items reason).Writes SameBlackouts := by
  refine Writes.bind (fun operatorId => ?_) (.readOnly (BookingService.authenticatedUser_readOnly _))
  refine Writes.bind (fun _ => ?_) (cancelOccurrences_sameBlackouts _ _ _)
  refine Writes.bind (fun now => ?_) (.readOnly .now)
  refine Writes.bind (fun _ => .readOnly (.ret _)) (Writes.each (fun id => ?_) _)
  refine Writes.bind (fun result => ?_)
    (.readOnly (RecurringBookingService.seriesWithOccurrences_readOnly _))
  unfold RecurringBookingService.closeSeriesIf
  split
  · exact .execute fun db c h => by cases h; rfl
  · trivial

theorem applyImpact_sameBlackouts (r : Request) (items : List BlackoutImpactOccurrence)
    (reason : String) :
    (RoomBlackoutService.applyImpact r items reason).Writes SameBlackouts := by
  unfold RoomBlackoutService.applyImpact
  split
  · trivial
  · exact Writes.bind (fun _ => .readOnly (.ret _)) (applyBlackoutImpact_sameBlackouts _ _ _)

namespace RoomBlackoutService

variable {command : UpdateRoomBlackoutCommand} {kind : RoomBlackoutKind} {mask : Option Nat}
  {exclude : Option UUID}

/-- A row that overlaps what a command writes passes every test of the comparison. -/
theorem overlapsCandidate_of_overlaps {b b' : RoomBlackout}
    (h : b.Overlaps (toPayload command kind mask b')) : overlapsCandidate command kind mask b = true := by
  obtain ⟨hkind, hscopes, hdates, htimes⟩ := h
  have hkind : b.kind = kind := hkind
  have hscope : RoomBlackoutRepository.scopesOverlap command.facilityId b.facilityId = true := by
    have hscopes : b.facilityId = none ∨ command.facilityId = none ∨
      b.facilityId = command.facilityId := hscopes
    unfold RoomBlackoutRepository.scopesOverlap
    rcases hscopes with h | h | h <;> simp [h]
  have htime := htimes.symm.timeRangesOverlap
  unfold overlapsCandidate
  refine Bool.and_eq_true_iff.mpr ⟨Bool.and_eq_true_iff.mpr ⟨hscope, htime⟩, ?_⟩
  unfold RoomBlackout.DatesMeet at hdates
  rw [hkind] at hdates
  cases kind with
  | oneOff =>
    obtain ⟨day, hb, hcommand⟩ := hdates
    have hcommand : command.blackoutDate = some day := hcommand
    simp [hb, hcommand]
  | recurring =>
    obtain ⟨⟨m, m', hm, hm', hdays⟩, hday⟩ := hdates
    have hm' : mask = some m' := hm'
    refine Bool.and_eq_true_iff.mpr ⟨?_, hday.symm.effectiveDatesOverlap⟩
    simp [hm, hm', hdays.and_ne_zero]

/-- **The comparison sees every overlap** with a live Blackout that is not excluded. -/
theorem assertNoOverlap_ok (h : (assertNoOverlap command kind mask exclude).eval db t = .ok ())
    {b b' : RoomBlackout} (hb : b ∈ db.blackouts) (hne : exclude ≠ some b.id)
    (hlive : b.live = true) (hactive : (toPayload command kind mask b').live = true) :
    ¬ b.Overlaps (toPayload command kind mask b') := by
  intro hover
  have hcommand : command.isActive = true := (Bool.and_eq_true_iff.mp hactive).1
  unfold assertNoOverlap at h
  rw [if_neg (by simp [hcommand])] at h
  obtain ⟨candidates, hcandidates, hraise⟩ := (eval_bind_iff (ReadOnly.select _)).mp h
  cases hcandidates
  have hnone := eval_raiseIf_ok.mp hraise
  refine List.any_eq_false.mp hnone b (List.mem_filter.mpr ⟨hb, ?_⟩)
    (overlapsCandidate_of_overlaps hover)
  have hl := Bool.and_eq_true_iff.mp hlive
  have hkind : b.kind = kind := hover.kind
  have hscopes : b.facilityId = none ∨ command.facilityId = none ∨
    b.facilityId = command.facilityId := hover.scopes
  have hscope : (command.facilityId.isNone || decide (b.facilityId = command.facilityId) ||
      b.facilityId.isNone) = true := by
    rcases hscopes with h | h | h <;> simp [h]
  simp only [hl.1, hkind, hscope, hne]
  simpa using hl.2

/-- What a creation leaves. -/
theorem createBlackout_exec {app : App} {r : Request} {c : CreateRoomBlackoutCommand}
    (h : (discard (createBlackout app r c)).exec db t = .ok ((), db')) :
    ∃ kind mask,
      (assertNoOverlap c.toUpdateRoomBlackoutCommand kind mask none).eval db t = .ok () ∧
      (∀ b ∈ db.blackouts, b.id ≠ r.ids.blackout) ∧ db'.blackouts = db.blackouts ++
        [proposedBlackout c.toUpdateRoomBlackoutCommand kind mask r.ids.blackout] := by
  obtain ⟨_, db₁, h, hret⟩ := exec_bind_ok h
  cases hret
  obtain ⟨_, -, h⟩ := (exec_reads_iff (assertRoomExists_readOnly _)).mp h
  obtain ⟨⟨kind, mask⟩, -, h⟩ := (exec_reads_iff (ReadOnly.ofExcept _)).mp h
  obtain ⟨_, hassert, h⟩ := (exec_reads_iff (assertNoOverlap_readOnly _ _ _ _)).mp h
  obtain ⟨items, -, h⟩ := (exec_reads_iff (confirmedImpact_readOnly _ _ _)).mp h
  obtain ⟨_, db₂, hinsert, h⟩ := exec_bind_ok h
  obtain ⟨hins, hdb₂⟩ := (exec_insertInto blackoutTable _ _).mp hinsert
  obtain ⟨_, db₃, himpact, h⟩ := exec_bind_ok h
  cases h
  refine ⟨kind, mask, hassert, fun b hb hid => ?_, ?_⟩
  · exact hins.fresh _ List.mem_cons_self b hb (congrArg RowName.blackout hid)
  · have htrans : ∀ {a b c : Db}, SameBlackouts a b → SameBlackouts b c → SameBlackouts a c :=
      fun h₁ h₂ => Eq.trans h₂ h₁
    have hsame := Writes.exec (R := SameBlackouts) (fun _ => rfl) htrans
      (applyImpact_sameBlackouts _ _ _) himpact
    exact Eq.trans hsame (congrArg Db.blackouts hdb₂)

/-- What an update leaves. -/
theorem updateBlackout_exec {id : UUID} (h : (updateBlackout id command).exec db t = .ok ((), db')) :
    ∃ kind mask, (assertNoOverlap command kind mask (some id)).eval db t = .ok () ∧
      db'.blackouts = db.blackouts.map fun b =>
        if b.id = id && !b.isDeleted then toPayload command kind mask b else b := by
  obtain ⟨_, -, h⟩ := (exec_reads_iff (ReadOnly.select _)).mp h
  obtain ⟨_, -, h⟩ := (exec_reads_iff (ReadOnly.raiseIf _ _)).mp h
  obtain ⟨_, -, h⟩ := (exec_reads_iff (assertRoomExists_readOnly _)).mp h
  obtain ⟨⟨kind, mask⟩, -, h⟩ := (exec_reads_iff (ReadOnly.ofExcept _)).mp h
  obtain ⟨_, hassert, h⟩ := (exec_reads_iff (assertNoOverlap_readOnly _ _ _ _)).mp h
  obtain ⟨affected, db₁, hupdate, h⟩ := exec_bind_ok h
  cases hupdate
  have hdb := exec_readOnly (ReadOnly.raiseIf _ _) h
  refine ⟨kind, mask, hassert, ?_⟩
  rw [hdb]
  exact congrArg Db.blackouts (Table.update_self blackoutTable)

/-- What a deletion leaves. -/
theorem deleteBlackout_exec {id : UUID} {deletion : DeleteCommand}
    (h : (deleteBlackout id deletion).exec db t = .ok ((), db')) :
    db'.blackouts = db.blackouts.filter (fun b => !decide (b.id = id)) ∨
      db'.blackouts = db.blackouts.map fun b => if decide (b.id = id) then
        { b with isDeleted := true, deleteReason := deletion.reason } else b := by
  obtain ⟨_, -, h⟩ := (exec_reads_iff (ReadOnly.select _)).mp h
  obtain ⟨_, -, h⟩ := (exec_reads_iff (ReadOnly.raiseIf _ _)).mp h
  split at h
  · cases h
    exact .inl (congrArg Db.blackouts (Table.delete_self blackoutTable))
  · cases h
    exact .inr (congrArg Db.blackouts (Table.update_self blackoutTable))

/-- What a restoration leaves. -/
theorem restoreBlackout_exec {id : UUID} (h : (restoreBlackout id).exec db t = .ok ((), db')) :
    db'.blackouts = db.blackouts.map fun b =>
      if decide (b.id = id) then { b with isDeleted := false, deleteReason := none } else b := by
  cases h
  exact congrArg Db.blackouts (Table.update_self blackoutTable)

end RoomBlackoutService

/-! ### 3.2 Runs -/

open RoomBlackoutService in
/-- **One call keeps the Blackouts apart.** -/
theorem BlackoutCall.apart_step {app : App} (c : BlackoutCall) (h : RoomBlackout.Apart db.blackouts)
    (hfits : BlackoutRestoreFits db t c) (hc : (c.body app).exec db t = .ok ((), db')) :
    RoomBlackout.Apart db'.blackouts := by
  have hsymm : ∀ {a b : RoomBlackout}, a.Overlaps b → b.Overlaps a := fun h => h.symm
  cases c with
  | create r command =>
    obtain ⟨kind, mask, hassert, hfresh, hdb⟩ := createBlackout_exec hc
    rw [hdb]
    exact h.insert hfresh fun hlive b hb hl => assertNoOverlap_ok hassert hb (by simp) hl hlive
  | update id command =>
    obtain ⟨kind, mask, hassert, hdb⟩ := updateBlackout_exec hc
    rw [hdb]
    refine h.rewriteOne hsymm (k := id) (fun b hb => by simpa using (Bool.and_eq_true_iff.mp hb).1)
      (fun _ => rfl) fun b _ _ hlive b' hb' hne hl => ?_
    exact assertNoOverlap_ok hassert hb' (by simpa using Ne.symm hne) hl hlive
  | delete id deletion =>
    rcases deleteBlackout_exec hc with hdb | hdb
    · rw [hdb]
      exact h.filter _
    · rw [hdb]
      exact h.retire hsymm (k := id) (by simp) (fun _ => rfl) fun _ => by simp [RoomBlackout.live]
  | restore id =>
    rw [restoreBlackout_exec hc]
    refine h.rewriteOne hsymm (k := id) (by simp) (fun _ => rfl) fun b hb hid hlive b' hb' hne hl => ?_
    have hfree := hfits b hb (by simpa using hid) (Bool.and_eq_true_iff.mp hlive).1 b' hb' hne hl
    exact fun hover => hfree ⟨hover.kind, hover.scopes, hover.dates, hover.times⟩

/-- The condition is exact: a restoration that does not fit makes two live Blackouts overlap. -/
theorem restoreBlackout_disjoint_iff {app : App} {id : UUID} (h : RoomBlackout.Apart db.blackouts) :
    BlackoutsDisjoint (((BlackoutCall.restore id).body app).after db t) ↔
      BlackoutRestoreFits db t (.restore id) := by
  have hexec : ((BlackoutCall.restore id).body app).exec db t =
      .ok ((), ((BlackoutCall.restore id).body app).after db t) := rfl
  have hsame : ∀ {b' b : RoomBlackout}, b'.Overlaps b ↔
      b'.Overlaps { b with isDeleted := false, deleteReason := none } := fun {_ _} =>
    ⟨fun h => ⟨h.kind, h.scopes, h.dates, h.times⟩, fun h => ⟨h.kind, h.scopes, h.dates, h.times⟩⟩
  have hiff := h.rewriteOne_iff (f := fun b => { b with isDeleted := false, deleteReason := none })
    (p := fun b => decide (b.id = id)) (k := id) (fun h => h.symm) (by simp) (fun _ => rfl)
  unfold BlackoutsDisjoint
  rw [RoomBlackoutService.restoreBlackout_exec hexec, hiff]
  simp only [← hsame, BlackoutRestoreFits, RoomBlackout.live, Bool.not_false, Bool.and_true]

/-- **Blackouts whose scopes meet stay disjoint** in every sequence of calls whose restorations
fit. -/
theorem blackouts_stay_disjoint {app : App} (h₀ : db₀.blackouts = [])
    (h : InTurn (BlackoutCall.body app) BlackoutRestoreFits db₀ db) : BlackoutsDisjoint db := by
  have hempty : RoomBlackout.Apart db₀.blackouts := h₀ ▸ Exclusive.Apart.nil
  exact (h.invariant (I := fun db => RoomBlackout.Apart db.blackouts) hempty
    fun c _ _ _ hI hok hc => c.apart_step hI hok hc).apart

/-- The whole campus on the first day, from noon to one. -/
def campusNoon : CreateRoomBlackoutCommand where
  name := "retreat"
  reason := "retreat"
  kind := "one_off"
  blackoutDate := some 0
  startTime := .noon
  endTime := .ofHms 13 0 0 oneOClock_inDay

theorem twoOClock_inDay : 0 ≤ 14 * hourMicros + 0 * minuteMicros + 0 * 1000000 ∧
    14 * hourMicros + 0 * minuteMicros + 0 * 1000000 < dayMicros := by decide

/-- One room on the first day, from noon to one or from one to two. -/
def roomNoon : CreateRoomBlackoutCommand := { campusNoon with facilityId := some 3 }

def roomOne : CreateRoomBlackoutCommand :=
  { roomNoon with startTime := campusNoon.endTime, endTime := .ofHms 14 0 0 twoOClock_inDay }

/-- Both, and the first deleted again. -/
def closedFromOne : Db :=
  ((BlackoutCall.delete 1 {}).body App.utc).after
    (((BlackoutCall.create (.numbered 7 2) roomOne).body App.utc).after
      (((BlackoutCall.create (.numbered 7 1) roomNoon).body App.utc).after Db.oneRoom 0) 0) 0

/-- The first is restored beside the second: two live Blackouts of one room, which touch. -/
theorem blackouts_stay_disjoint_sample :
    (((BlackoutCall.restore 1).body App.utc).after closedFromOne 0).blackouts.map
        (fun b => (b.facilityId, b.live)) = [(some 3, true), (some 3, true)] ∧
      BlackoutsDisjoint (((BlackoutCall.restore 1).body App.utc).after closedFromOne 0) := by
  have hrun : InTurn (BlackoutCall.body App.utc) BlackoutRestoreFits Db.oneRoom closedFromOne :=
    .call _ 0 (.call _ 0 (.call _ 0 .refl trivial) trivial) trivial
  have htimes : ∀ b ∈ closedFromOne.blackouts, ∀ b' ∈ closedFromOne.blackouts,
      b.id = 1 → b'.id ≠ 1 →
        RoomBlackoutRepository.timeRangesOverlap b'.startTime b'.endTime b.startTime b.endTime =
          false := by decide +kernel
  have h₀ : Db.oneRoom.blackouts = [] := rfl
  refine ⟨by decide +kernel, blackouts_stay_disjoint h₀ (.call (.restore 1) 0 hrun ?_)⟩
  intro b hb hid _ b' hb' hne _ hoverlap
  have happart := htimes b hb b' hb' hid hne
  rw [hoverlap.times.timeRangesOverlap] at happart
  cases happart

/-- What the overlap of one-off Blackouts looks at. -/
def RoomBlackout.summary (b : RoomBlackout) :
    (Bool × Option UUID × RoomBlackoutKind) × Option Int × TimeOfDay × TimeOfDay :=
  ((b.live, b.facilityId, b.kind), b.blackoutDate, b.startTime, b.endTime)

/-- **Restoring a Blackout brings back an overlap**: another one was created in its place. -/
theorem restored_blackouts_overlap : ¬ ∀ (app : App) (db₀ db : Db), db₀.blackouts = [] →
    InTurn (BlackoutCall.body app) (fun _ _ _ => True) db₀ db → BlackoutsDisjoint db := by
  intro h
  have hrun := h App.utc Db.oneRoom _ rfl
    (.call (.restore 1) 0 (.call (.create (.numbered 7 2) campusNoon) 0 (.call (.delete 1 {}) 0
      (.call (.create (.numbered 7 1) campusNoon) 0 .refl trivial) trivial) trivial) trivial)
  have hfinal : (((BlackoutCall.restore 1).body App.utc).after
      (((BlackoutCall.create (.numbered 7 2) campusNoon).body App.utc).after
        (((BlackoutCall.delete 1 {}).body App.utc).after
          (((BlackoutCall.create (.numbered 7 1) campusNoon).body App.utc).after Db.oneRoom 0) 0) 0) 0
            ).blackouts.map RoomBlackout.summary =
      List.replicate 2 ((true, none, .oneOff), some 0, .noon, .ofHms 13 0 0 (by decide)) := by
    decide +kernel
  obtain ⟨a, l, hl, ha, hrest⟩ := List.map_eq_cons_iff.mp hfinal
  obtain ⟨b, l', rfl, hb, hnil⟩ := List.map_eq_cons_iff.mp hrest
  unfold BlackoutsDisjoint at hrun
  rw [hl] at hrun
  have hapart := (List.pairwise_cons.mp hrun).1 b List.mem_cons_self
  simp only [RoomBlackout.summary, Prod.mk.injEq] at ha hb
  obtain ⟨⟨hla, hscope, hka⟩, hda, hsa, hea⟩ := ha
  obtain ⟨⟨hlb, -, hkb⟩, hdb, hsb, heb⟩ := hb
  refine hapart hla hlb ⟨hka.trans hkb.symm, .inl hscope, ?_, .noon, ?_⟩
  · unfold RoomBlackout.DatesMeet
    rw [hka]
    exact ⟨0, hda, hdb⟩
  · rw [hsa, hea, hsb, heb]
    decide

end NewlifeCore
