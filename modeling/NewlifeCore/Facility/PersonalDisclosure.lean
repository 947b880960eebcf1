import NewlifeCore.Facility.ShownConflicts

/-!
# What a Personal caller learns of the occupants

The timetable, the one-time conflicts, and the conflicts, error and evaluation of a recurring
proposal, as a Personal caller gets them, in two states that differ in who occupies.  They are equal
just when the occupied rooms of every proposed occurrence fall into Rental rooms and Ministry rooms
the same way.
-/

namespace NewlifeCore

open Txn Prog AvailabilityService RecurringBookingService

variable {viewer : UUID} {db db' : Db} {t : Int} {app : App} {r : Request}
  {command : CreateRecurringBookingSeriesCommand} {prepared : PreparedSeries}

/-! ## 1. Lists that show the same -/

/-- The lists show the same, and nothing in them can be displaced. -/
structure ShownAlike (cs cs' : List SeriesConflict) : Prop where
  shown : memberSafeConflicts cs' = memberSafeConflicts cs
  blocking : ∀ c ∈ cs, c.isOverridable = false

/-- Conflicts that show the same differ in their occupying Bookings. -/
theorem eq_of_toMember_eq {c c' : SeriesConflict} (h : c'.toMember = c.toMember) :
    c' = { c with occupyingBookings := c'.occupyingBookings } := by
  cases c
  cases c'
  simp only [SeriesConflict.toMember, MemberConflict.mk.injEq] at h
  obtain ⟨rfl, rfl, rfl, rfl, rfl, rfl, rfl, rfl, rfl⟩ := h
  rfl

namespace ShownAlike

variable {cs cs' : List SeriesConflict}

theorem symm (h : ShownAlike cs cs') : ShownAlike cs' cs where
  shown := h.shown.symm
  blocking := by
    intro c' hc'
    have hmem : c'.toMember ∈ memberSafeConflicts cs := h.shown ▸ List.mem_map_of_mem hc'
    obtain ⟨c, hc, heq⟩ := List.mem_map.mp hmem
    exact (congrArg MemberConflict.isOverridable heq).symm.trans (h.blocking c hc)

theorem dates (h : ShownAlike cs cs') :
    cs'.map SeriesConflict.occurrenceDate = cs.map SeriesConflict.occurrenceDate := by
  have hdates := congrArg (List.map MemberConflict.occurrenceDate) h.shown
  rw [memberSafeConflicts, memberSafeConflicts, List.map_map, List.map_map] at hdates
  exact hdates

theorem remaining (h : ShownAlike cs cs') (command : CreateRecurringBookingSeriesCommand) :
    ShownAlike (remainingConflicts command cs) (remainingConflicts command cs') where
  shown := by
    have hkeep := congrArg (List.filter fun c =>
      !command.excludedDates.contains c.occurrenceDate) h.shown
    rw [memberSafeConflicts, memberSafeConflicts, List.filter_map, List.filter_map] at hkeep
    exact hkeep
  blocking c hc := h.blocking c (List.mem_filter.mp hc).1

theorem overridable_nil (h : ShownAlike cs cs') : cs.filter SeriesConflict.isOverridable = [] :=
  List.filter_eq_nil_iff.mpr fun c hc => by simp [h.blocking c hc]

theorem blocking_self (h : ShownAlike cs cs') : cs.filter (fun c => !c.isOverridable) = cs :=
  List.filter_eq_self.mpr fun c hc => by simp [h.blocking c hc]

theorem invalidExclusion (h : ShownAlike cs cs') (command : CreateRecurringBookingSeriesCommand)
    (prepared : PreparedSeries) : RecurringBookingService.invalidExclusion command prepared cs' =
      RecurringBookingService.invalidExclusion command prepared cs := by
  unfold RecurringBookingService.invalidExclusion
  rw [h.dates]

/-- What is read off the first conflict, and off the list as it is shown, is the same. -/
theorem head (h : ShownAlike cs cs') : cs = [] ∧ cs' = [] ∨ ∃ c rest items rest', cs = c :: rest ∧
    cs' = { c with occupyingBookings := items } :: rest' := by
  cases cs with
  | nil => exact .inl ⟨rfl, List.map_eq_nil_iff.mp h.shown⟩
  | cons c rest =>
    cases cs' with
    | nil => cases h.shown
    | cons c' rest' =>
      have hc := eq_of_toMember_eq (List.cons.inj h.shown).1
      exact .inr ⟨c, rest, c'.occupyingBookings, rest', rfl, hc ▸ rfl⟩

theorem all (h : ShownAlike cs cs') :
    cs'.all SeriesConflict.isOverridable = cs.all SeriesConflict.isOverridable := by
  have hblocking := h.blocking
  obtain ⟨rfl, rfl⟩ | ⟨c, rest, items, rest', rfl, rfl⟩ := h.head
  · rfl
  · simp [hblocking c List.mem_cons_self]

theorem raised (h : ShownAlike cs cs') :
    (cs'.head?.map fun c => (remainingConflictError c, remainingConflictContext cs')) =
      cs.head?.map fun c => (remainingConflictError c, remainingConflictContext cs) := by
  have hshown := h.shown
  obtain ⟨rfl, rfl⟩ | ⟨c, rest, items, rest', rfl, rfl⟩ := h.head
  · rfl
  · simp only [List.head?_cons, Option.map_some, remainingConflictContext, hshown]
    rfl

theorem proposalInvalidity (h : ShownAlike cs cs') (command : CreateRecurringBookingSeriesCommand) :
    RecurringBookingService.proposalInvalidity command cs' =
      RecurringBookingService.proposalInvalidity command cs := by
  obtain ⟨rfl, rfl⟩ | ⟨c, rest, items, rest', rfl, rfl⟩ := h.head
  · rfl
  · rfl

end ShownAlike

/-! ## 2. What follows the conflicts -/

/-- **The same groups make lists that show the same**, and what follows only has to be alike for
such lists. -/
theorem collectConflicts_alike (h : Disguised viewer db db') (hpersonal : command.ministryId = none)
    (hp : PreparedFor viewer prepared) (hgroups : ∀ o ∈ prepared.occurrences,
      roomGroups db t command.rooms o = roomGroups db' t command.rooms o)
    {α : Type} {f : List SeriesConflict → Portal α}
    (hf : ∀ {cs cs'}, ShownAlike cs cs' → (f cs).eval db t = (f cs').eval db' t) :
    Alike db db' t ((collectConflicts command prepared).bind f) := by
  obtain ⟨quota, closed, hquota, hclosed, hread, hread'⟩ :=
    collectConflicts_disguised (t := t) h hpersonal hp
  refine Alike.bind_ok (collectConflicts_readOnly _ _) hread hread' (hf ⟨?_, fun c hc => ?_⟩)
  · have hmet : memberSafeConflicts (metConflicts db' t command.rooms closed
        prepared.occurrences) = memberSafeConflicts (metConflicts db t command.rooms closed
          prepared.occurrences) := by
      rw [metConflicts_shown, metConflicts_shown]
      refine List.flatMap_congr fun o ho => ?_
      rw [hgroups o ho]
    rw [memberSafeConflicts] at hmet
    rw [memberSafeConflicts_sorted, memberSafeConflicts_sorted, memberSafeConflicts,
      memberSafeConflicts, List.map_append, List.map_append, hmet]
    rfl
  · rcases List.mem_append.mp ((List.mem_insertionSort _).mp hc) with hc | hc
    · exact (hquota c hc).2
    · obtain ⟨o, -, hc⟩ := List.mem_flatMap.mp hc
      rcases List.mem_append.mp hc with hc | hc
      · obtain ⟨items, -, rfl⟩ := List.mem_map.mp hc
        rfl
      · exact (hclosed o c hc).2.2

/-! ## 3. The views of a recurring proposal -/

theorem getMinRecurringBookingWeeks_disguised (h : Disguised viewer db db') :
    Alike db db' t SettingService.getMinRecurringBookingWeeks :=
  setting_disguised h _ _ _

/-- **The occupied rooms of every proposed occurrence fall into the same groups in both.** -/
def SameGroups (app : App) (r : Request) (command : CreateRecurringBookingSeriesCommand)
    (db db' : Db) (t : Int) : Prop :=
  ∀ prepared, (prepareSeries app r command).eval db t = .ok prepared →
    ∀ o ∈ prepared.occurrences,
      roomGroups db t command.rooms o = roomGroups db' t command.rooms o

/-- What is prepared in the attempt is what `_prepare_series` returns. -/
theorem tryPrepare_ok (h : (tryPrepare app r command).eval db t = .ok (.ok prepared)) :
    (prepareSeries app r command).eval db t = .ok prepared := by
  have hreads := prepareSeries_readOnly app r command
  have htried := eval_tryCatch (s := db) (t := t) (h := fun e => if e.kind = .badRequest then
    (ret (.error e) : Portal (Except ApiError PreparedSeries)) else raise e)
      (ReadOnly.bind (f := fun prepared => ret (.ok prepared)) (fun _ => ReadOnly.ret _) hreads)
  rw [eval_bind hreads] at htried
  replace h := htried.symm.trans h
  cases hread : (prepareSeries app r command).eval db t with
  | ok p =>
    rw [hread] at h
    cases h
    rfl
  | error e =>
    rw [hread] at h
    dsimp only at h
    split at h <;> cases h

section

variable (h : Disguised viewer db db') (hpersonal : command.ministryId = none)
  (hviewer : ∀ u, r.operatorId = some u → command.userId.getD u = viewer)
  (hgroups : SameGroups app r command db db' t)

include h hpersonal hviewer hgroups

theorem shownConflicts_alike : Alike db db' t (shownConflicts app r command) := by
  refine Alike.bind (prepareSeries_readOnly _ _ _) (prepareSeries_disguised h _ _ hpersonal hviewer)
    fun prepared hprepared => ?_
  exact collectConflicts_alike h hpersonal (prepareSeries_for hpersonal hviewer hprepared)
    (hgroups prepared hprepared) fun hcs => congrArg Except.ok hcs.shown.symm

theorem previewBookingSeries_alike :
    Alike db db' t (previewBookingSeries app r command) := by
  unfold previewBookingSeries previewConflicts
  simp only [bind_eq, bind_bind]
  refine Alike.bind (prepareSeries_readOnly _ _ _) (prepareSeries_disguised h _ _ hpersonal hviewer)
    fun prepared hprepared => ?_
  refine collectConflicts_alike h hpersonal (prepareSeries_for hpersonal hviewer hprepared)
    (hgroups prepared hprepared) fun {cs cs'} hcs => ?_
  have hleft := hcs.remaining command
  refine eval_bind_congr (quoteOccurrences_readOnly _ _ _) (quoteOccurrences_readOnly _ _ _)
    (quoteOccurrences_disguised h hpersonal _ _) fun quote _ => ?_
  rw [hleft.overridable_nil, hleft.symm.overridable_nil]
  refine eval_bind_congr (overrideTargets_readOnly _ _) (overrideTargets_readOnly _ _)
    (Alike.ret _) fun targets _ => ?_
  refine eval_bind_congr SettingService.getMinRecurringBookingWeeks_readOnly
    SettingService.getMinRecurringBookingWeeks_readOnly
    (getMinRecurringBookingWeeks_disguised h) fun minWeeks _ => ?_
  have hshown : cs'.map SeriesConflict.toMember = cs.map SeriesConflict.toMember := hcs.shown
  refine congrArg Except.ok ?_
  simp only [recurringBookingPreviewToMemberApi, hshown, hcs.dates, hleft.all]

theorem remainingConflictRaised_alike :
    Alike db db' t (remainingConflictRaised app r command) := by
  refine Alike.bind (prepareSeries_readOnly _ _ _) (prepareSeries_disguised h _ _ hpersonal hviewer)
    fun prepared hprepared => ?_
  refine collectConflicts_alike h hpersonal (prepareSeries_for hpersonal hviewer hprepared)
    (hgroups prepared hprepared) fun {cs cs'} hcs => ?_
  have hleft := hcs.remaining command
  rw [hcs.invalidExclusion]
  refine eval_bind_congr (ReadOnly.raiseIf _ _) (ReadOnly.raiseIf _ _) (Alike.raiseIf _ _)
    fun _ _ => ?_
  refine eval_bind_congr SettingService.getMinRecurringBookingWeeks_readOnly
    SettingService.getMinRecurringBookingWeeks_readOnly
    (getMinRecurringBookingWeeks_disguised h) fun minWeeks _ => ?_
  refine eval_bind_congr (ReadOnly.raiseIf _ _) (ReadOnly.raiseIf _ _) (Alike.raiseIf _ _)
    fun _ _ => ?_
  refine congrArg Except.ok ?_
  rw [hleft.blocking_self, hleft.symm.blocking_self]
  exact hleft.raised.symm

omit hgroups in
theorem tryPrepare_alike : Alike db db' t (tryPrepare app r command) := by
  have hreads := prepareSeries_readOnly app r command
  refine Alike.tryCatch (ReadOnly.bind (fun _ => ReadOnly.ret _) hreads) ?_ fun e => ?_
  · exact Alike.bind hreads (prepareSeries_disguised h _ _ hpersonal hviewer) fun _ _ => Alike.ret _
  · split <;> rfl

theorem shownEvaluation_alike : Alike db db' t (shownEvaluation app r command) := by
  have hshape : ∀ {isConfirmable code detail} {cs cs' : List MemberConflict}, cs' = cs →
      (⟨isConfirmable, cs, code, detail⟩ : MemberEvaluation) = ⟨isConfirmable, cs', code, detail⟩ :=
    fun heq => by rw [heq]
  unfold shownEvaluation evaluateProposal
  simp only [bind_eq, bind_bind]
  refine Alike.bind ReadOnly.now Alike.now fun nowUtc _ => ?_
  refine Alike.bind (proposalPaymentHold_readOnly _ _ _) (proposalPaymentHold_disguised h _ _ _)
    fun hold _ => ?_
  refine Alike.bind (tryPrepare_readOnly _ _ _) (tryPrepare_alike h hpersonal hviewer)
    fun tried htried => ?_
  cases tried with
  | error e => exact Alike.ret _
  | ok prepared =>
    have hprepared := tryPrepare_ok htried
    dsimp only
    unfold evaluatePrepared
    simp only [bind_eq, bind_bind]
    refine collectConflicts_alike h hpersonal (prepareSeries_for hpersonal hviewer hprepared)
      (hgroups prepared hprepared) fun {cs cs'} hcs => ?_
    have hleft := hcs.remaining command
    rw [hcs.invalidExclusion]
    by_cases hinvalid : invalidExclusion command prepared cs = true
    · rw [if_pos hinvalid, if_pos hinvalid]
      exact congrArg Except.ok (hshape hcs.shown)
    rw [if_neg hinvalid, if_neg hinvalid]
    simp only [bind_bind]
    refine eval_bind_congr SettingService.getMinRecurringBookingWeeks_readOnly
      SettingService.getMinRecurringBookingWeeks_readOnly
      (getMinRecurringBookingWeeks_disguised h) fun minWeeks _ => ?_
    by_cases hfew : ((remainingOccurrences command prepared).length : Int) < minWeeks
    · rw [if_pos hfew, if_pos hfew]
      exact congrArg Except.ok (hshape hcs.shown)
    rw [if_neg hfew, if_neg hfew, hleft.overridable_nil, hleft.symm.overridable_nil,
      hleft.blocking_self, hleft.symm.blocking_self, hleft.proposalInvalidity]
    simp only [bind_bind]
    refine eval_bind_congr (overrideTargets_readOnly _ _) (overrideTargets_readOnly _ _)
      (Alike.ret _) fun targets _ => ?_
    refine eval_bind_congr (quoteOccurrences_readOnly _ _ _) (quoteOccurrences_readOnly _ _ _)
      (quoteOccurrences_disguised h hpersonal _ _) fun quote _ => ?_
    exact congrArg Except.ok (hshape hcs.shown)

end

/-! ## 4. The views together -/

/-- What a Personal caller gets is the same in both. -/
structure PersonalAlike (app : App) (r : Request) (command : CreateRecurringBookingSeriesCommand)
    (db db' : Db) (t : Int) : Prop where
  timetable : ∀ day, Alike db db' t (getRoomsAvailability app r { targetDate := day })
  oneTime : ∀ lines nowUtc localTz allowOverride,
    Alike db db' t (oneTimeConflicts lines nowUtc localTz allowOverride)
  conflicts : Alike db db' t (shownConflicts app r command)
  preview : Alike db db' t (previewBookingSeries app r command)
  error : Alike db db' t (remainingConflictRaised app r command)
  evaluation : Alike db db' t (shownEvaluation app r command)

/-- The groups can be read back from the conflicts that are shown. -/
theorem sameGroups_of_shown (h : Disguised viewer db db') (hpersonal : command.ministryId = none)
    (hviewer : ∀ u, r.operatorId = some u → command.userId.getD u = viewer)
    (hshown : Alike db db' t (shownConflicts app r command)) :
    SameGroups app r command db db' t := by
  intro prepared hprepared o ho
  have hprepared' := (prepareSeries_disguised h app r hpersonal hviewer).symm.trans hprepared
  have hp := prepareSeries_for hpersonal hviewer hprepared
  obtain ⟨quota, closed, hquota, hclosed, hread, hread'⟩ :=
    collectConflicts_disguised (t := t) h hpersonal hp
  have hlist : ∀ {db : Db} {cs : List SeriesConflict},
      (prepareSeries app r command).eval db t = .ok prepared →
      (collectConflicts command prepared).eval db t = .ok cs →
      (shownConflicts app r command).eval db t = .ok (memberSafeConflicts cs) :=
    fun hprepared hread => (eval_bind_iff (prepareSeries_readOnly _ _ _)).mpr ⟨_, hprepared,
      (eval_bind_iff (collectConflicts_readOnly _ _)).mpr ⟨_, hread, rfl⟩⟩
  have hsame := (hlist hprepared hread).symm.trans (hshown.trans (hlist hprepared' hread'))
  have hgroups := congrArg (List.filter fun c =>
    decide (c.occurrenceDate = o.occurrenceDate) && decide (c.kind = .occupancy))
      (Except.ok.inj hsame)
  rw [shown_occupancy hquota hclosed hp ho, shown_occupancy hquota hclosed hp ho] at hgroups
  exact List.map_injective_iff.mpr
    (fun _ _ heq => congrArg MemberConflict.facilityIds heq) hgroups

/-- **A Personal caller learns no more of the occupants than how they group the rooms**, and that
he learns. -/
theorem personalViews_alike_iff (h : Disguised viewer db db') (hpersonal : command.ministryId = none)
    (hviewer : ∀ u, r.operatorId = some u → command.userId.getD u = viewer) :
    PersonalAlike app r command db db' t ↔ SameGroups app r command db db' t := by
  constructor
  · intro halike
    exact sameGroups_of_shown h hpersonal hviewer halike.conflicts
  · intro hgroups
    exact {
      timetable := timetable_disguised h app r
      oneTime := oneTimeConflicts_disguised h
      conflicts := shownConflicts_alike h hpersonal hviewer hgroups
      preview := previewBookingSeries_alike h hpersonal hviewer hgroups
      error := remainingConflictRaised_alike h hpersonal hviewer hgroups
      evaluation := shownEvaluation_alike h hpersonal hviewer hgroups }

/-! ### 4.1 Two rooms taken at once -/

/-- A Booking of a room for the hour after noon of day 10. -/
def noonBooking (id userId facilityId : UUID) (ministryId : Option UUID) : Booking where
  id := id
  userId := userId
  facilityId := facilityId
  ministryId := ministryId
  bookingType := .oneTime
  startAt := WallClock.combine 10 .noon
  endAt := WallClock.combine 10 .noon + hourMicros
  status := .confirmed
  title := ⟨"choir", choir_length⟩

def noonSlot (id bookingId facilityId : UUID) : BookingSlot where
  id := id
  facilityBookingId := bookingId
  facilityId := facilityId
  startAt := WallClock.combine 10 .noon
  endAt := WallClock.combine 10 .noon + hourMicros
  status := .confirmed

/-- Two rooms, each taken by another user for that hour, for himself or for a Ministry. -/
def Db.twoTaken (userId : UUID) (first second : Option UUID) : Db :=
  { Db.oneRoom with
    rooms := [{ id := 3 }, { id := 4 }]
    slotTemplates := Db.oneRoom.slotTemplates.flatMap fun t => [t, { t with id := 2, facilityId := 4 }]
    ministries := [{ id := 5, status := .active, hasPriorityBooking := false }]
    bookings := [noonBooking 11 userId 3 first, noonBooking 12 userId 4 second]
    bookingSlots := [noonSlot 21 11 3, noonSlot 22 12 4] }

/-- Both rooms, weekly from day 10 to day 17. -/
def bookBoth : CreateRecurringBookingSeriesCommand :=
  { bookWeekly 10 17 with
    rooms := [{ facilityId := 3, sequence := 0 }, { facilityId := 4, sequence := 1 }] }

theorem twoTaken_disguised (userId userId' : UUID) (first second first' second' : Option UUID)
    (h : userId ≠ 7) (h' : userId' ≠ 7) :
    Disguised 7 (.twoTaken userId first second) (.twoTaken userId' first' second') where
  tables := ⟨_, _, _, _, rfl⟩
  bookings := .cons ⟨rfl, .inr ⟨h, h'⟩⟩ (.cons ⟨rfl, .inr ⟨h, h'⟩⟩ .nil)
  series := .nil
  user := rfl

theorem bookBoth_viewer (u : UUID) (hu : (Request.numbered 7 100).operatorId = some u) :
    bookBoth.userId.getD u = 7 := (Option.some.inj hu).symm

/-- Two Rentals of user 8, or two Bookings of user 9's for the Ministry: user 7 sees the same. -/
theorem personalViews_alike_twoTaken : PersonalAlike .utc (.numbered 7 100) bookBoth
    (.twoTaken 8 none none) (.twoTaken 9 (some 5) (some 5)) 0 := by
  refine (personalViews_alike_iff
    (twoTaken_disguised 8 9 none none (some 5) (some 5) (by decide) (by decide)) rfl
    bookBoth_viewer).mpr fun prepared hprepared => ?_
  have hgroups : (match (prepareSeries .utc (.numbered 7 100) bookBoth).eval
      (.twoTaken 8 none none) 0 with
    | .ok prepared => decide (∀ o ∈ prepared.occurrences,
        roomGroups (.twoTaken 8 none none) 0 bookBoth.rooms o =
          roomGroups (.twoTaken 9 (some 5) (some 5)) 0 bookBoth.rooms o)
    | .error _ => false) = true := by decide +kernel
  rw [hprepared] at hgroups
  exact of_decide_eq_true hgroups

/-- Once only the second Booking is the Ministry's, the rooms that user 7 sees taken fall apart. -/
theorem personalViews_not_alike :
    Disguised 7 (.twoTaken 8 none none) (.twoTaken 8 none (some 5)) ∧ bookBoth.ministryId = none ∧
    (∀ u, (Request.numbered 7 100).operatorId = some u → bookBoth.userId.getD u = 7) ∧
    ¬PersonalAlike .utc (.numbered 7 100) bookBoth
      (.twoTaken 8 none none) (.twoTaken 8 none (some 5)) 0 := by
  refine ⟨twoTaken_disguised 8 8 none none none (some 5) (by decide) (by decide), rfl,
    bookBoth_viewer, fun halike => ?_⟩
  have htogether : ((shownConflicts .utc (.numbered 7 100) bookBoth).eval
      (.twoTaken 8 none none) 0).toOption.map (List.map MemberConflict.facilityIds) =
        some [[3, 4]] := by decide +kernel
  have hapart : ((shownConflicts .utc (.numbered 7 100) bookBoth).eval
      (.twoTaken 8 none (some 5)) 0).toOption.map (List.map MemberConflict.facilityIds) =
        some [[3], [4]] := by decide +kernel
  rw [halike.conflicts, hapart] at htogether
  exact absurd htogether (by decide)

end NewlifeCore
