import NewlifeCore.Facility.Reads

/-!
# What the checks of a Series find out

`_collect_conflicts` and what follows from it, among any other transactions: an occurrence that is
kept has only displaceable occupants, no Blackout, and for a Personal Booker no other Rental
Booking in its week.
-/

namespace NewlifeCore

open Txn Prog RecurringBookingService

variable {R : Rely Db LockKey}

/-! ## 1. Blackouts -/

/-- A Blackout closes a room on a local day of an interval. -/
def ClosesDay (bl : RoomBlackout) (facilityId : UUID) (localStart localEnd day : Int) : Prop :=
  bl.isDeleted = false ∧ RoomBlackoutRepository.activeForRoomDay bl facilityId day = true ∧
    RoomBlackoutRepository.timeRangesOverlap
      (RoomBlackoutRepository.daySlot localStart localEnd day).1
      (RoomBlackoutRepository.daySlot localStart localEnd day).2 bl.startTime bl.endTime = true

/-- No Blackout closes the room on a day of the interval. -/
def OpenOn (db : Db) (facilityId : UUID) (localStart localEnd day : Int) : Prop :=
  ∀ bl ∈ db.blackouts, ¬ ClosesDay bl facilityId localStart localEnd day

theorem anyDayOverlaps_wp (facilityId : UUID) (localStart localEnd : Int) :
    ∀ (days : List Int) (v : PortalView),
      wp R (RoomBlackoutRepository.anyDayOverlaps facilityId localStart localEnd days)
        (fun closed w => Env R v w ∧ (closed = false → ∀ day ∈ days,
          Read R v (fun db _ => OpenOn db facilityId localStart localEnd day) w)) v
  | [], v => wp_ret fun _ hw => ⟨hw, fun _ day hd => absurd hd (by simp)⟩
  | day :: days, v => by
    refine wp_seq (wp_select_once _ v) fun blackouts w₁ hw₁ h₁ => ?_
    split
    · exact wp_ret fun w₂ hw₂ => ⟨h₁.1.trans hw₂, fun h => by cases h⟩
    · rename_i hno
      refine wp_conseq (anyDayOverlaps_wp facilityId localStart localEnd days w₁)
        fun closed w₂ hw₂ h₂ => ⟨h₁.1.trans h₂.1, fun hc d hd => ?_⟩
      rcases List.mem_cons.mp hd with rfl | hd
      · refine (h₁.2.later hw₂).mono fun db n hbl bl hmem hcloses => hno ?_
        refine List.any_eq_true.mpr ⟨bl, ?_, hcloses.2.2⟩
        rw [hbl, List.mem_insertionSort, List.mem_filter]
        exact ⟨hmem, hcloses.2.1⟩
      · exact (h₂.2 hc d hd).since h₁.1

/-- The local days of an interval are open. -/
def OpenThroughout (R : Rely Db LockKey) (v : PortalView) (tz : Zone) (facilityId : UUID)
    (o : PreparedOccurrence) (w : PortalView) : Prop :=
  ∀ day ∈ RoomBlackoutRepository.intervalDays (tz.toLocal o.startAt) (tz.toLocal o.endAt),
    Read R v (fun db _ => OpenOn db facilityId (tz.toLocal o.startAt) (tz.toLocal o.endAt) day) w

theorem blackoutRoom_wp (tz : Zone) (o : PreparedOccurrence) (ids : List UUID)
    (room : BookingRoomLineCommand) (v : PortalView) :
    wp R (blackoutRoom tz o ids room) (fun ids' w => Env R v w ∧ (ids' = [] → ids = [] ∧
      OpenThroughout R v tz room.facilityId o w)) v := by
  refine wp_seq (anyDayOverlaps_wp _ _ _ _ v) fun closed w₁ hw₁ h₁ => wp_ret fun w₂ hw₂ => ?_
  refine ⟨h₁.1.trans hw₂, fun hids => ?_⟩
  cases closed with
  | true => simp at hids
  | false => exact ⟨hids, fun day hd => (h₁.2 rfl day hd).later (.of_env hw₂)⟩

theorem blackoutRooms_wp (tz : Zone) (o : PreparedOccurrence) (rooms : List BookingRoomLineCommand)
    (v : PortalView) :
    wp R (foldEach rooms [] (blackoutRoom tz o)) (fun ids w => Env R v w ∧
      (ids = [] → ∀ room ∈ rooms, OpenThroughout R v tz room.facilityId o w)) v := by
  refine wp_conseq (wp_foldEach (fun done ids w => Env R v w ∧
    (ids = [] → ∀ room ∈ done, OpenThroughout R v tz room.facilityId o w)) ?_ rooms [] [] v ?_
    ⟨Env.refl v, fun _ room hr => absurd hr (by simp)⟩) fun _ _ _ h => by simpa using h
  · rintro done ids w w' ⟨h₁, h₂⟩ hw
    exact ⟨h₁.trans hw, fun hi room hr day hd => (h₂ hi room hr day hd).later (.of_env hw)⟩
  · rintro done ids room w - ⟨h₁, h₂⟩
    refine wp_conseq (blackoutRoom_wp tz o ids room w) fun ids' w' hw' h => ?_
    refine ⟨h₁.trans h.1, fun hi r hr day hd => ?_⟩
    rcases List.mem_append.mp hr with hr | hr
    · exact (h₂ (h.2 hi).1 r hr day hd).later hw'
    · obtain rfl := List.mem_singleton.mp hr
      exact ((h.2 hi).2 day hd).since h₁

/-! ## 2. Occupants of an occurrence -/

/-- Two result rows are about one Booking and agree on what decides its fate. -/
def SameOccupant (a b : OccupyingBooking) : Prop :=
  a.bookingId = b.bookingId ∧ a.startAt = b.startAt ∧ a.ministryId = b.ministryId

theorem mergeOccupying_mem {facilityId : UUID} {item : OccupyingBooking} :
    ∀ {merged : List OccupyingBooking}, ∀ m ∈ mergeOccupying facilityId item merged,
      SameOccupant m item ∨ ∃ m' ∈ merged, SameOccupant m m'
  | [], m, h => by
    simp only [mergeOccupying, List.mem_singleton] at h
    exact .inl (h ▸ ⟨rfl, rfl, rfl⟩)
  | m₀ :: merged, m, h => by
    unfold mergeOccupying at h
    split at h
    · rcases List.mem_cons.mp h with rfl | h
      · exact .inr ⟨m₀, List.mem_cons_self, rfl, rfl, rfl⟩
      · exact .inr ⟨m, List.mem_cons_of_mem _ h, rfl, rfl, rfl⟩
    · rcases List.mem_cons.mp h with rfl | h
      · exact .inr ⟨m, List.mem_cons_self, rfl, rfl, rfl⟩
      · rcases mergeOccupying_mem m h with h' | ⟨m', hm', he⟩
        · exact .inl h'
        · exact .inr ⟨m', List.mem_cons_of_mem _ hm', he⟩

/-- A Booking is among the merged rows. -/
def Merged (merged : List OccupyingBooking) (id : UUID) : Prop := ∃ m ∈ merged, m.bookingId = id

theorem mergeOccupying_merged {facilityId : UUID} {item : OccupyingBooking} :
    ∀ {merged : List OccupyingBooking},
      Merged (mergeOccupying facilityId item merged) item.bookingId ∧
      ∀ id, Merged merged id → Merged (mergeOccupying facilityId item merged) id
  | [] => ⟨⟨_, List.mem_singleton.mpr rfl, rfl⟩, fun id h => by obtain ⟨m, hm, -⟩ := h; cases hm⟩
  | m₀ :: merged => by
    unfold mergeOccupying
    split
    · rename_i hm₀
      refine ⟨⟨_, List.mem_cons_self, hm₀⟩, fun id h => ?_⟩
      obtain ⟨m, hm, hid⟩ := h
      rcases List.mem_cons.mp hm with rfl | hm
      · exact ⟨_, List.mem_cons_self, hid⟩
      · exact ⟨m, List.mem_cons_of_mem _ hm, hid⟩
    · obtain ⟨⟨m₁, hm₁, h₁⟩, ih⟩ := mergeOccupying_merged
      refine ⟨⟨m₁, List.mem_cons_of_mem _ hm₁, h₁⟩, fun id h => ?_⟩
      obtain ⟨m, hm, hid⟩ := h
      rcases List.mem_cons.mp hm with rfl | hm
      · exact ⟨_, List.mem_cons_self, hid⟩
      · obtain ⟨m', hm', hid'⟩ := ih id ⟨m, hm, hid⟩
        exact ⟨m', List.mem_cons_of_mem _ hm', hid'⟩

theorem foldl_mergeOccupying {facilityId : UUID} : ∀ (rows merged : List OccupyingBooking),
    (∀ m ∈ rows.foldl (fun merged item => mergeOccupying facilityId item merged) merged,
      (∃ r ∈ rows, SameOccupant m r) ∨ ∃ m' ∈ merged, SameOccupant m m') ∧
    (∀ r ∈ rows, Merged (rows.foldl (fun merged item => mergeOccupying facilityId item merged)
      merged) r.bookingId) ∧
    ∀ id, Merged merged id →
      Merged (rows.foldl (fun merged item => mergeOccupying facilityId item merged) merged) id
  | [], merged => ⟨fun m hm => .inr ⟨m, hm, rfl, rfl, rfl⟩, fun r hr => absurd hr (by simp),
      fun _ h => h⟩
  | row :: rows, merged => by
    obtain ⟨h₁, h₂, h₃⟩ := foldl_mergeOccupying rows
      (mergeOccupying facilityId row merged)
    refine ⟨fun m hm => ?_, fun r hr => ?_, fun id h => h₃ id (mergeOccupying_merged.2 id h)⟩
    · rcases h₁ m hm with ⟨r, hr, he⟩ | ⟨m', hm', he⟩
      · exact .inl ⟨r, List.mem_cons_of_mem _ hr, he⟩
      · rcases mergeOccupying_mem m' hm' with h | ⟨m'', hm'', h⟩
        · exact .inl ⟨row, List.mem_cons_self, he.1.trans h.1, he.2.1.trans h.2.1,
            he.2.2.trans h.2.2⟩
        · exact .inr ⟨m'', hm'', he.1.trans h.1, he.2.1.trans h.2.1, he.2.2.trans h.2.2⟩
    · rcases List.mem_cons.mp hr with rfl | hr
      · exact h₃ _ mergeOccupying_merged.1
      · exact h₂ r hr

/-- An occupying row came from a live Booking with the same start and association. -/
def Witnessed (db : Db) (m : OccupyingBooking) : Prop :=
  ∃ b ∈ db.bookings, b.id = m.bookingId ∧ b.startAt = m.startAt ∧ b.ministryId = m.ministryId ∧
    b.isDeleted = false ∧ isLive b.status = true

/-- Every occupant of the room during the occurrence is merged. -/
def AllMerged (o : PreparedOccurrence) (facilityId : UUID) (merged : List OccupyingBooking)
    (db : Db) (n : Int) : Prop :=
  ∀ r, Occupant db n facilityId o.startAt o.endAt r → Merged merged r.2.id

theorem occupyingBookingsForRoom_wp (o : PreparedOccurrence) (merged : List OccupyingBooking)
    (room : BookingRoomLineCommand) (v : PortalView) :
    wp R (occupyingBookingsForRoom o merged room) (fun merged' w => Env R v w ∧
      (∀ m ∈ merged', (∃ m' ∈ merged, SameOccupant m m') ∨
        Read R v (fun db _ => Witnessed db m) w) ∧
      (∀ id, Merged merged id → Merged merged' id) ∧
      Read R v (AllMerged o room.facilityId merged') w) v := by
  refine wp_seq (wp_select_once _ v) fun rows w₁ hw₁ h₁ => wp_ret fun w₂ hw₂ => ?_
  obtain ⟨hsound, hrows, hkeeps⟩ := foldl_mergeOccupying rows merged
  have hread := h₁.2.later (.of_env hw₂)
  refine ⟨h₁.1.trans hw₂, fun m hm => ?_, hkeeps, hread.mono fun db n he r hr => ?_⟩
  · rcases hsound m hm with ⟨row, hrow, hs⟩ | h
    · refine .inr (hread.mono fun db n he => ?_)
      rw [he] at hrow
      obtain ⟨r, hr, rfl⟩ := List.mem_map.mp hrow
      have h' := mem_occupyingRows.mp hr
      exact ⟨r.2, h'.2.1, hs.1.symm, hs.2.1.symm, hs.2.2.symm, h'.2.2.2.2.2.2.1,
        occupant_live hr⟩
    · exact .inl h
  · exact hrows (toOccupying db r.1 r.2) (he ▸ List.mem_map.mpr ⟨r, hr, rfl⟩)

theorem occupyingBookingsForOccurrence_wp (command : CreateRecurringBookingSeriesCommand)
    (o : PreparedOccurrence) (v : PortalView) :
    wp R (occupyingBookingsForOccurrence command o) (fun merged w => Env R v w ∧
      (∀ m ∈ merged, Read R v (fun db _ => Witnessed db m) w) ∧
      ∀ room ∈ command.rooms, Read R v (AllMerged o room.facilityId merged) w) v := by
  refine wp_conseq (wp_foldEach (fun done merged w => Env R v w ∧
    (∀ m ∈ merged, Read R v (fun db _ => Witnessed db m) w) ∧
    ∀ room ∈ done, Read R v (AllMerged o room.facilityId merged) w)
    ?_ command.rooms [] [] v ?_
    ⟨Env.refl v, fun m hm => absurd hm (by simp), fun room hr => absurd hr (by simp)⟩)
    fun _ _ _ h => by simpa using h
  · rintro done merged w w' ⟨h₁, h₂, h₃⟩ hw
    exact ⟨h₁.trans hw, fun m hm => (h₂ m hm).later (.of_env hw),
      fun room hr => (h₃ room hr).later (.of_env hw)⟩
  · rintro done merged room w - ⟨h₁, h₂, h₃⟩
    refine wp_conseq (occupyingBookingsForRoom_wp o merged room w) fun merged' w' hw' h => ?_
    obtain ⟨henv, hsound, hkeeps, hall⟩ := h
    refine ⟨h₁.trans henv, fun m hm => ?_, fun r hr => ?_⟩
    · rcases hsound m hm with ⟨m', hm', hs⟩ | hread
      · refine ((h₂ m' hm').later hw').mono fun db n hb => ?_
        obtain ⟨b, hb, hid, hst, hmi, hrest⟩ := hb
        exact ⟨b, hb, hid.trans hs.1.symm, hst.trans hs.2.1.symm, hmi.trans hs.2.2.symm, hrest⟩
      · exact hread.since h₁
    · rcases List.mem_append.mp hr with hr | hr
      · exact ((h₃ r hr).later hw').mono fun db n hr' x hx => hkeeps _ (hr' x hx)
      · exact List.mem_singleton.mp hr ▸ hall.since h₁

/-! ## 3. The weekly quota -/

/-- The facility-local week an instant falls in. -/
def weekOf (tz : Zone) (u : Int) : Int := sundayWeekStart (tz.localDate u)

/-- A live Personal Rental Booking of a user. -/
def RentalOf (db : Db) (n : Int) (userId : UUID) (b : Booking) : Prop :=
  b ∈ db.bookings ∧ b.userId = userId ∧ b.ministryId = none ∧ b.isDeleted = false ∧
    activeOccupancy db n b = true

theorem minOf_le (d : Int) : ∀ (ds : List Int), ∀ x ∈ d :: ds, minOf d ds ≤ x := by
  have key : ∀ (ds : List Int) (d : Int), minOf d ds ≤ d ∧ ∀ x ∈ ds, minOf d ds ≤ x := by
    intro ds
    induction ds with
    | nil => exact fun d => ⟨le_refl d, fun x hx => absurd hx (by simp)⟩
    | cons y ds ih =>
      intro d
      obtain ⟨h₁, h₂⟩ := ih (min d y)
      refine ⟨le_trans h₁ (min_le_left d y), fun x hx => ?_⟩
      rcases List.mem_cons.mp hx with rfl | hx
      · exact le_trans h₁ (min_le_right d x)
      · exact h₂ x hx
  intro ds x hx
  rcases List.mem_cons.mp hx with rfl | hx
  · exact (key ds x).1
  · exact (key ds d).2 x hx

theorem le_maxOf (d : Int) : ∀ (ds : List Int), ∀ x ∈ d :: ds, x ≤ maxOf d ds := by
  have key : ∀ (ds : List Int) (d : Int), d ≤ maxOf d ds ∧ ∀ x ∈ ds, x ≤ maxOf d ds := by
    intro ds
    induction ds with
    | nil => exact fun d => ⟨le_refl d, fun x hx => absurd hx (by simp)⟩
    | cons y ds ih =>
      intro d
      obtain ⟨h₁, h₂⟩ := ih (max d y)
      refine ⟨le_trans (le_max_left d y) h₁, fun x hx => ?_⟩
      rcases List.mem_cons.mp hx with rfl | hx
      · exact le_trans (le_max_right d x) h₁
      · exact h₂ x hx
  intro ds x hx
  rcases List.mem_cons.mp hx with rfl | hx
  · exact (key ds x).1
  · exact (key ds d).2 x hx

/-- **The range the quota query asks for covers the weeks of all occurrences**, in a zone whose
days follow one another. -/
theorem quotaRange_covers {tz : Zone} (htz : tz.DaysInOrder) {d : Int} {ds : List Int} {u x : Int}
    (hx : x ∈ d :: ds) (hweek : weekOf tz u = sundayWeekStart x) :
    tz.startOfDay (sundayWeekStart (minOf d ds)) ≤ u ∧
      u < tz.startOfDay (sundayWeekStart (maxOf d ds) + 7) := by
  have hu := sundayWeekStart_le (tz.localDate u)
  unfold weekOf at hweek
  have hlo := sundayWeekStart_mono (minOf_le d ds x hx)
  have hhi := sundayWeekStart_mono (le_maxOf d ds x hx)
  constructor
  · rw [htz]
    omega
  · rw [← not_le, htz]
    omega

/-- The booker has no other live Rental in the week of an instant. -/
def QuotaFree (tz : Zone) (bookerId : UUID) (u : Int) (db : Db) (n : Int) : Prop :=
  ∀ b, RentalOf db n bookerId b → weekOf tz b.startAt ≠ weekOf tz u

theorem weeklyQuotaConflictDates_wp (bookerId : UUID) (occurrences : List PreparedOccurrence)
    (tz : Zone) (v : PortalView) :
    wp R (weeklyQuotaConflictDates bookerId occurrences tz) (fun dates w => Env R v w ∧
      (tz.DaysInOrder → ∀ o ∈ occurrences, o.occurrenceDate ∉ dates →
        Read R v (QuotaFree tz bookerId o.startAt) w)) v := by
  unfold weeklyQuotaConflictDates
  split
  · exact wp_raise
  · rename_i d ds hds
    refine wp_seq (wp_select_once _ v) fun existing w₁ hw₁ h₁ => wp_ret fun w₂ hw₂ => ?_
    refine ⟨h₁.1.trans hw₂, fun htz o ho hno => ?_⟩
    refine (h₁.2.later (.of_env hw₂)).mono fun db n hex b hb hweek => hno ?_
    have hrange := quotaRange_covers htz (hds ▸ List.mem_map.mpr ⟨o, ho, rfl⟩ :
      startDate tz o ∈ d :: ds) hweek
    refine List.mem_map.mpr ⟨o, List.mem_filter.mpr ⟨ho, ?_⟩, rfl⟩
    rw [List.contains_iff_mem, List.mem_map]
    refine ⟨b.startAt, ?_, hweek⟩
    rw [hex, List.mem_map]
    refine ⟨b, List.mem_filter.mpr ⟨hb.1, ?_⟩, rfl⟩
    simp [hb.2.1, hb.2.2.1, hb.2.2.2.1, hb.2.2.2.2, hrange.1, hrange.2]

/-! ## 4. The conflicts -/

/-- A conflict that stops nothing is a Priority Ministry's, over Bookings it may displace. -/
def OverridesOnly (R : Rely Db LockKey) (v : PortalView) (prepared : PreparedSeries)
    (c : SeriesConflict) (w : PortalView) : Prop :=
  c.isOverridable = true → prepared.isPriority = true ∧ ∀ m ∈ c.occupyingBookings,
    Read R v (fun db _ => Displaceable db prepared.nowUtc m.bookingId) w

/-- A Booking is displaced by one of the conflicts of a date. -/
def DisplacedBy (conflicts : List SeriesConflict) (date : Int) (id : UUID) : Prop :=
  ∃ c ∈ conflicts, c.occurrenceDate = date ∧ Merged c.occupyingBookings id

/-- The occurrence's rooms are free but for what its conflicts displace, and open. -/
def FreeFor (R : Rely Db LockKey) (v : PortalView) (command : CreateRecurringBookingSeriesCommand)
    (tz : Zone) (conflicts : List SeriesConflict) (o : PreparedOccurrence) (w : PortalView) : Prop :=
  ∀ room ∈ command.rooms,
    Read R v (fun db n => ∀ r, Occupant db n room.facilityId o.startAt o.endAt r →
      DisplacedBy conflicts o.occurrenceDate r.2.id) w ∧
    OpenThroughout R v tz room.facilityId o w

theorem FreeFor.later {v w w' : PortalView} {command : CreateRecurringBookingSeriesCommand}
    {tz : Zone} {conflicts : List SeriesConflict} {o : PreparedOccurrence}
    (h : FreeFor R v command tz conflicts o w) (hw : Later R w w') :
    FreeFor R v command tz conflicts o w' := fun room hr =>
  ⟨(h room hr).1.later hw, fun day hd => ((h room hr).2 day hd).later hw⟩

theorem FreeFor.mono {v w : PortalView} {command : CreateRecurringBookingSeriesCommand}
    {tz : Zone} {cs ds : List SeriesConflict} {o : PreparedOccurrence}
    (h : FreeFor R v command tz cs o w) (hcs : ∀ c ∈ cs, c.occurrenceDate = o.occurrenceDate →
      c ∈ ds) : FreeFor R v command tz ds o w := fun room hr =>
  ⟨(h room hr).1.mono fun _ _ hr' r hocc =>
    let ⟨c, hc, hd, hm⟩ := hr' r hocc
    ⟨c, hcs c hc hd, hd, hm⟩, (h room hr).2⟩

theorem FreeFor.since {v u w : PortalView} {command : CreateRecurringBookingSeriesCommand}
    {tz : Zone} {cs : List SeriesConflict} {o : PreparedOccurrence}
    (h : FreeFor R u command tz cs o w) (hv : Env R v u) : FreeFor R v command tz cs o w :=
  fun room hr => ⟨(h room hr).1.since hv, fun day hd => ((h room hr).2 day hd).since hv⟩

theorem ministryConflict_returns (command : CreateRecurringBookingSeriesCommand)
    (o : PreparedOccurrence) (items : List OccupyingBooking) :
    Returns (fun cs => (∀ c ∈ cs, c.occurrenceDate = o.occurrenceDate ∧ c.isOverridable = false) ∧
      (cs = [] → items = [])) (ministryConflict command o items) := by
  unfold ministryConflict
  split
  · exact ⟨fun c hc => absurd hc (by simp), fun _ => rfl⟩
  · split
    · refine ⟨fun c hc => ?_, fun h => by simp at h⟩
      rw [List.mem_singleton.mp hc]
      exact ⟨rfl, rfl⟩
    · refine Returns.seq _ fun contact => ⟨fun c hc => ?_, fun h => by simp at h⟩
      rw [List.mem_singleton.mp hc]
      exact ⟨rfl, rfl⟩

/-- The conflict of the Bookings that stop an occurrence. -/
def blockingConflict (command : CreateRecurringBookingSeriesCommand) (prepared : PreparedSeries)
    (o : PreparedOccurrence) (first : OccupyingBooking) (rest : List OccupyingBooking) :
    SeriesConflict :=
  let showBooker := command.ministryId.isSome && !prepared.isPriority
  { occurrenceDate := o.occurrenceDate, kind := .occupancy
    facilityIds := uniqueFacilityIds (first :: rest), occupyingBookings := first :: rest
    bookerDisplayName := if showBooker then first.bookerDisplayName else none
    bookerEmail := if showBooker then first.bookerEmail else none }

theorem blockedConflict_mem {command : CreateRecurringBookingSeriesCommand}
    {prepared : PreparedSeries} {o : PreparedOccurrence} {items rest : List OccupyingBooking}
    {first : OccupyingBooking} (h : items = first :: rest) :
    blockingConflict command prepared o first rest ∈ blockedConflict command prepared o items := by
  subst h
  exact List.mem_singleton.mpr rfl

theorem overridableConflict_mem (o : PreparedOccurrence) {items : List OccupyingBooking}
    {item : OccupyingBooking} (h : item ∈ items) :
    { occurrenceDate := o.occurrenceDate, kind := .occupancy
      facilityIds := uniqueFacilityIds items, isOverridable := true
      occupyingBookings := items : SeriesConflict } ∈ overridableConflict o items := by
  unfold overridableConflict
  rw [if_neg (by simpa using List.ne_nil_of_mem h)]
  exact List.mem_singleton.mpr rfl

theorem closedConflict_mem {o : PreparedOccurrence} {kind : RecurringConflictKind}
    {ids rest : List UUID} {id : UUID} (h : ids = id :: rest) :
    { occurrenceDate := o.occurrenceDate, kind := kind, facilityIds := ids : SeriesConflict } ∈
      closedConflict o kind ids := by
  subst h
  exact List.mem_singleton.mpr rfl

/-- What the conflicts found for one occurrence say. -/
structure OccurrenceReview (R : Rely Db LockKey) (v : PortalView)
    (command : CreateRecurringBookingSeriesCommand) (prepared : PreparedSeries)
    (o : PreparedOccurrence) (cs : List SeriesConflict) (w : PortalView) : Prop where
  dates : ∀ c ∈ cs, c.occurrenceDate = o.occurrenceDate
  overrides : ∀ c ∈ cs, OverridesOnly R v prepared c w
  free : (∀ c ∈ cs, c.isOverridable = true) → FreeFor R v command prepared.localTz cs o w

theorem OverridesOnly.later {v w w' : PortalView} {prepared : PreparedSeries} {c : SeriesConflict}
    (h : OverridesOnly R v prepared c w) (hw : Later R w w') : OverridesOnly R v prepared c w' :=
  fun hc => ⟨(h hc).1, fun m hm => ((h hc).2 m hm).later hw⟩

theorem OverridesOnly.since {v u w : PortalView} {prepared : PreparedSeries} {c : SeriesConflict}
    (h : OverridesOnly R u prepared c w) (hv : Env R v u) : OverridesOnly R v prepared c w :=
  fun hc => ⟨(h hc).1, fun m hm => ((h hc).2 m hm).since hv⟩

theorem OccurrenceReview.later {v w w' : PortalView}
    {command : CreateRecurringBookingSeriesCommand} {prepared : PreparedSeries}
    {o : PreparedOccurrence} {cs : List SeriesConflict}
    (h : OccurrenceReview R v command prepared o cs w) (hw : Later R w w') :
    OccurrenceReview R v command prepared o cs w' :=
  ⟨h.dates, fun c hc => (h.overrides c hc).later hw, fun hall => (h.free hall).later hw⟩

theorem OccurrenceReview.since {v u w : PortalView}
    {command : CreateRecurringBookingSeriesCommand} {prepared : PreparedSeries}
    {o : PreparedOccurrence} {cs : List SeriesConflict}
    (h : OccurrenceReview R u command prepared o cs w) (hv : Env R v u) :
    OccurrenceReview R v command prepared o cs w :=
  ⟨h.dates, fun c hc => (h.overrides c hc).since hv, fun hall => (h.free hall).since hv⟩

theorem mem_overridableConflict {o : PreparedOccurrence} {items : List OccupyingBooking}
    {c : SeriesConflict} (h : c ∈ overridableConflict o items) :
    items ≠ [] ∧ c.occurrenceDate = o.occurrenceDate ∧ c.occupyingBookings = items := by
  unfold overridableConflict at h
  split at h
  · cases h
  · rename_i hne
    rw [List.mem_singleton.mp h]
    exact ⟨by simpa using hne, rfl, rfl⟩

theorem mem_blockedConflict {command : CreateRecurringBookingSeriesCommand}
    {prepared : PreparedSeries} {o : PreparedOccurrence} {items : List OccupyingBooking}
    {c : SeriesConflict} (h : c ∈ blockedConflict command prepared o items) :
    c.occurrenceDate = o.occurrenceDate ∧ c.isOverridable = false := by
  unfold blockedConflict at h
  split at h
  · cases h
  · rw [List.mem_singleton.mp h]
    exact ⟨rfl, rfl⟩

theorem mem_closedConflict {o : PreparedOccurrence} {kind : RecurringConflictKind}
    {ids : List UUID} {c : SeriesConflict} (h : c ∈ closedConflict o kind ids) :
    c.occurrenceDate = o.occurrenceDate ∧ c.isOverridable = false := by
  unfold closedConflict at h
  split at h
  · cases h
  · rw [List.mem_singleton.mp h]
    exact ⟨rfl, rfl⟩

/-- **When every conflict of an occurrence can be displaced**, no other part of them is there. -/
theorem parts_of_overridable {command : CreateRecurringBookingSeriesCommand}
    {prepared : PreparedSeries} {o : PreparedOccurrence} {items blocked : List OccupyingBooking}
    {ministry : List SeriesConflict} {ids hoursIds : List UUID}
    (hministry : ∀ c ∈ ministry, c.isOverridable = false)
    (hall : ∀ c ∈ overridableConflict o items ++ blockedConflict command prepared o blocked ++
      ministry ++ closedConflict o .blackout ids ++ closedConflict o .openingHours hoursIds,
        c.isOverridable = true) : blocked = [] ∧ ministry = [] ∧ ids = [] ∧ hoursIds = [] := by
  have hno : ∀ c, c.isOverridable = false → c ∉ overridableConflict o items ++
      blockedConflict command prepared o blocked ++ ministry ++ closedConflict o .blackout ids ++
        closedConflict o .openingHours hoursIds :=
    fun c hc hmem => by rw [hall c hmem] at hc; cases hc
  simp only [List.mem_append, not_or] at hno
  have hclosed : ∀ {kind ids}, (∀ c, c.isOverridable = false → c ∉ closedConflict o kind ids) →
      ids = [] := by
    intro kind ids hnot
    cases ids with
    | nil => rfl
    | cons id rest => exact absurd (closedConflict_mem rfl) (hnot _ rfl)
  refine ⟨?_, ?_, hclosed fun c hc => (hno c hc).1.2, hclosed fun c hc => (hno c hc).2⟩
  · cases hb : blocked with
    | nil => rfl
    | cons first rest => exact absurd (blockedConflict_mem hb) (hno _ rfl).1.1.1.2
  · cases ministry with
    | nil => rfl
    | cons c rest =>
      have hc := hministry c List.mem_cons_self
      exact absurd List.mem_cons_self (hno c hc).1.1.2

/-- Then each occupant is a Rental that may be displaced. -/
theorem occupants_of_overridable {prepared : PreparedSeries} {occupying : List OccupyingBooking}
    (hministry : (occupying.filter fun item => item.ministryId.isSome) = [])
    (hblocked : ((occupying.filter fun item => item.ministryId.isNone).filter
      fun item => !overridable prepared item) = []) :
    ∀ m ∈ occupying, m.ministryId = none ∧ overridable prepared m = true := by
  intro m hm
  have hnone : m.ministryId = none := by
    have := List.filter_eq_nil_iff.mp hministry m hm
    simpa using this
  refine ⟨hnone, ?_⟩
  have := List.filter_eq_nil_iff.mp hblocked m (List.mem_filter.mpr ⟨hm, by simp [hnone]⟩)
  simpa using this

theorem occurrenceConflicts_wp (command : CreateRecurringBookingSeriesCommand)
    (prepared : PreparedSeries) (o : PreparedOccurrence) (v : PortalView) :
    wp R (occurrenceConflicts command prepared o) (fun cs w => Env R v w ∧
      OccurrenceReview R v command prepared o cs w) v := by
  refine wp_seq (occupyingBookingsForOccurrence_wp command o v) fun occupying w₁ hw₁ h₁ => ?_
  obtain ⟨henv₁, hwit, hall⟩ := h₁
  refine wp_seq (wp_and (wp_quiet (ministryConflict_readOnly command o _) w₁)
    (wp_returns (ministryConflict_returns command o _))) fun ministry w₂ hw₂ h₂ => ?_
  refine wp_seq (blackoutRooms_wp prepared.localTz o command.rooms w₂) fun ids w₃ hw₃ h₃ => ?_
  refine wp_seq (wp_quiet (openingHoursRooms_readOnly command prepared.localTz o ids) w₃)
    fun hoursIds w₄ hw₄ h₄ => wp_ret fun w hw => ?_
  have hlater₁ : Later R w₁ w := hw₂.trans (hw₃.trans (hw₄.trans (.of_env hw)))
  have hlater₃ : Later R w₃ w := hw₄.trans (.of_env hw)
  have henv₂ : Env R v w₂ := henv₁.trans h₂.1
  refine ⟨henv₂.trans (h₃.1.trans (h₄.trans hw)), fun c hc => ?_, fun c hc hover => ?_, ?_⟩
  · simp only [List.mem_append] at hc
    rcases hc with (((hc | hc) | hc) | hc) | hc
    · exact (mem_overridableConflict hc).2.1
    · exact (mem_blockedConflict hc).1
    · exact (h₂.2.1 c hc).1
    · exact (mem_closedConflict hc).1
    · exact (mem_closedConflict hc).1
  · -- only the first conflict is overridable, and its Bookings are Rentals not started yet
    have hnot : ∀ {b}, c.isOverridable = b → b = true := fun h => h ▸ hover
    simp only [List.mem_append] at hc
    rcases hc with (((hc | hc) | hc) | hc) | hc
    · obtain ⟨hne, -, hitems⟩ := mem_overridableConflict hc
      have hitem : ∀ m ∈ c.occupyingBookings, m ∈ occupying ∧ m.ministryId = none ∧
          prepared.isPriority = true ∧ prepared.nowUtc < m.startAt := by
        intro m hm
        rw [hitems] at hm
        simp only [overridable, List.mem_filter, Bool.and_eq_true, Option.isNone_iff_eq_none,
          decide_eq_true_eq, gt_iff_lt] at hm
        exact ⟨hm.1.1, hm.1.2, hm.2.1, hm.2.2⟩
      refine ⟨?_, fun m hm => ?_⟩
      · obtain ⟨m, hm⟩ := List.exists_mem_of_ne_nil _ hne
        exact (hitem m (hitems ▸ hm)).2.2.1
      · obtain ⟨hocc, hmin, -, hstart⟩ := hitem m hm
        refine ((hwit m hocc).later hlater₁).mono fun db n hb => ?_
        obtain ⟨b, hb, hid, hst, hmi, hdel, hlive⟩ := hb
        exact ⟨b, hb, hid, hmi.trans hmin, hst ▸ hstart, hdel, hlive⟩
    · cases hnot (mem_blockedConflict hc).2
    · cases hnot (h₂.2.1 c hc).2
    · cases hnot (mem_closedConflict hc).2
    · cases hnot (mem_closedConflict hc).2
  · intro hfree room hr
    -- a kind of conflict that is not overridable has not been found
    obtain ⟨hblocked, hnone, hids, -⟩ := parts_of_overridable (fun c hc => (h₂.2.1 c hc).2) hfree
    have hrentals := occupants_of_overridable (h₂.2.2 hnone) hblocked
    refine ⟨?_, fun day hd => (((h₃.2 hids) room hr day hd).since henv₂).later hlater₃⟩
    refine ((hall room hr).later hlater₁).mono fun db n hmerged r hocc => ?_
    obtain ⟨m, hm, hid⟩ := hmerged r hocc
    -- the first conflict holds the occupant
    obtain ⟨hnone, hover⟩ := hrentals m hm
    have hrental : m ∈ occupying.filter fun item => item.ministryId.isNone :=
      List.mem_filter.mpr ⟨hm, Option.isNone_iff_eq_none.mpr hnone⟩
    have hmem := List.mem_filter.mpr ⟨hrental, hover⟩
    exact ⟨_, List.mem_append_left _ (List.mem_append_left _ (List.mem_append_left _
      (List.mem_append_left _ (overridableConflict_mem o hmem)))), rfl, m, hmem, hid⟩

/-- What the conflicts of a whole schedule say. -/
structure ScheduleReview (R : Rely Db LockKey) (v : PortalView)
    (command : CreateRecurringBookingSeriesCommand) (prepared : PreparedSeries)
    (cs : List SeriesConflict) (w : PortalView) : Prop where
  overrides : ∀ c ∈ cs, OverridesOnly R v prepared c w
  occurrences : ∀ o ∈ prepared.occurrences, ∃ found, (∀ c ∈ found, c ∈ cs) ∧
    OccurrenceReview R v command prepared o found w
  quota : command.ministryId = none → prepared.localTz.DaysInOrder →
    ∀ o ∈ prepared.occurrences,
      (∀ c ∈ cs, c.occurrenceDate = o.occurrenceDate → c.isOverridable = true) →
      Read R v (QuotaFree prepared.localTz prepared.bookerId o.startAt) w

theorem quotaConflicts_wp (command : CreateRecurringBookingSeriesCommand)
    (prepared : PreparedSeries) (v : PortalView) :
    wp R (quotaConflicts command prepared) (fun cs w => Env R v w ∧
      (∀ c ∈ cs, c.isOverridable = false) ∧
      (command.ministryId = none → prepared.localTz.DaysInOrder → ∀ o ∈ prepared.occurrences,
        (∀ c ∈ cs, c.occurrenceDate ≠ o.occurrenceDate) →
        Read R v (QuotaFree prepared.localTz prepared.bookerId o.startAt) w)) v := by
  unfold quotaConflicts
  split
  · rename_i m hm
    exact wp_ret fun w hw => ⟨hw, fun c hc => absurd hc (by simp), fun h => by rw [hm] at h; cases h⟩
  · refine wp_seq (weeklyQuotaConflictDates_wp _ _ _ v) fun dates w₁ hw₁ h₁ => wp_ret fun w hw => ?_
    refine ⟨h₁.1.trans hw, fun c hc => ?_, fun _ htz o ho hno => ?_⟩
    · obtain ⟨d, -, rfl⟩ := List.mem_map.mp hc
      rfl
    · refine (h₁.2 htz o ho fun hd => ?_).later (.of_env hw)
      exact hno _ (List.mem_map.mpr ⟨o.occurrenceDate, hd, rfl⟩) rfl

theorem collectConflicts_wp (command : CreateRecurringBookingSeriesCommand)
    (prepared : PreparedSeries) (v : PortalView) :
    wp R (collectConflicts command prepared) (fun cs w => Env R v w ∧
      ScheduleReview R v command prepared cs w) v := by
  refine wp_seq (quotaConflicts_wp command prepared v) fun quota w₁ hw₁ h₁ => ?_
  let I : List PreparedOccurrence → List (List SeriesConflict) → PortalView → Prop :=
    fun done out w => Env R w₁ w ∧
      (∀ cs ∈ out, ∃ o, OccurrenceReview R w₁ command prepared o cs w) ∧
      ∀ o ∈ done, ∃ cs ∈ out, OccurrenceReview R w₁ command prepared o cs w
  refine wp_seq (wp_mapEach I ?_ prepared.occurrences [] [] w₁ ?_
    ⟨Env.refl w₁, fun cs h => absurd h (by simp), fun o h => absurd h (by simp)⟩)
    fun found w₂ hw₂ h₂ => wp_ret fun w hw => ?_
  · rintro done out w w' ⟨he, hout, hdone⟩ hw
    refine ⟨he.trans hw, fun cs hcs => ?_, fun o ho => ?_⟩
    · obtain ⟨o, h⟩ := hout cs hcs
      exact ⟨o, h.later (.of_env hw)⟩
    · obtain ⟨cs, hcs, h⟩ := hdone o ho
      exact ⟨cs, hcs, h.later (.of_env hw)⟩
  · rintro done out o w - ⟨he, hout, hdone⟩
    refine wp_conseq (occurrenceConflicts_wp command prepared o w) fun cs w' hw' h => ?_
    have hnew := h.2.since he
    refine ⟨he.trans h.1, fun ds hds => ?_, fun x hx => ?_⟩
    · rcases List.mem_append.mp hds with hds | hds
      · obtain ⟨x, hx⟩ := hout ds hds
        exact ⟨x, hx.later hw'⟩
      · exact ⟨o, List.mem_singleton.mp hds ▸ hnew⟩
    · rcases List.mem_append.mp hx with hx | hx
      · obtain ⟨ds, hds, h⟩ := hdone x hx
        exact ⟨ds, List.mem_append_left _ hds, h.later hw'⟩
      · exact ⟨cs, by simp, List.mem_singleton.mp hx ▸ hnew⟩
  · simp only [List.nil_append] at h₂
    obtain ⟨henv₂, hout, hdone⟩ := h₂
    obtain ⟨henv₁, hquota, hfree⟩ := h₁
    have hmem : ∀ c, c ∈ (quota ++ found.flatten).insertionSort conflictLe ↔
        c ∈ quota ∨ ∃ cs ∈ found, c ∈ cs := by
      intro c
      rw [List.mem_insertionSort, List.mem_append, List.mem_flatten]
    refine ⟨henv₁.trans (henv₂.trans hw), fun c hc => ?_, fun o ho => ?_, fun hm htz o ho hall => ?_⟩
    · rcases (hmem c).mp hc with hc | ⟨cs, hcs, hc⟩
      · intro hover
        rw [hquota c hc] at hover
        cases hover
      · obtain ⟨o, h⟩ := hout cs hcs
        exact ((h.overrides c hc).later (.of_env hw)).since henv₁
    · obtain ⟨cs, hcs, h⟩ := hdone o ho
      exact ⟨cs, fun c hc => (hmem c).mpr (.inr ⟨cs, hcs, hc⟩), (h.later (.of_env hw)).since henv₁⟩
    · refine (hfree hm htz o ho fun c hc hd => ?_).later (hw₂.trans (.of_env hw))
      have hover := hall c ((hmem c).mpr (.inl hc)) hd
      rw [hquota c hc] at hover
      cases hover

/-! ## 5. The occurrences that are kept -/

/-- What `_unexcluded_occurrences` returns. -/
structure KeptReview (R : Rely Db LockKey) (v : PortalView)
    (command : CreateRecurringBookingSeriesCommand) (prepared : PreparedSeries)
    (kept : List PreparedOccurrence × List SeriesConflict) (w : PortalView) : Prop where
  env : Env R v w
  remaining : kept.1 = remainingOccurrences command prepared
  priority : kept.2 ≠ [] → prepared.isPriority = true
  displaces : ∀ c ∈ kept.2, ∀ m ∈ c.occupyingBookings,
    Read R v (fun db _ => Displaceable db prepared.nowUtc m.bookingId) w
  free : ∀ o ∈ kept.1, FreeFor R v command prepared.localTz kept.2 o w
  quota : command.ministryId = none → prepared.localTz.DaysInOrder → ∀ o ∈ kept.1,
    Read R v (QuotaFree prepared.localTz prepared.bookerId o.startAt) w

theorem raiseRemainingConflict_wp (blocking : List SeriesConflict) (v : PortalView) :
    wp R (raiseRemainingConflict blocking) (fun _ w => Env R v w ∧ blocking = []) v := by
  cases blocking with
  | nil => exact wp_ret fun w hw => ⟨hw, rfl⟩
  | cons c cs => exact wp_raise

theorem unexcludedOccurrences_wp (command : CreateRecurringBookingSeriesCommand)
    (prepared : PreparedSeries) (v : PortalView) :
    wp R (unexcludedOccurrences command prepared)
      (fun kept w => KeptReview R v command prepared kept w) v := by
  refine wp_seq (collectConflicts_wp command prepared v) fun cs w₁ hw₁ h₁ => ?_
  refine wp_seq (wp_quiet (ReadOnly.raiseIf _ _) w₁) fun _ w₂ hw₂ h₂ => ?_
  refine wp_seq (wp_quiet SettingService.getMinRecurringBookingWeeks_readOnly w₂)
    fun minWeeks w₃ hw₃ h₃ => ?_
  refine wp_seq (wp_quiet (ReadOnly.raiseIf _ _) w₃) fun _ w₄ hw₄ h₄ => ?_
  refine wp_seq (raiseRemainingConflict_wp _ w₄) fun _ w₅ hw₅ h₅ => wp_ret fun w hw => ?_
  obtain ⟨henv, hreview⟩ := h₁
  have hlast : Env R w₁ w := h₂.trans (h₃.trans (h₄.trans (h₅.1.trans hw)))
  have hlater : Later R w₁ w := .of_env hlast
  -- a conflict of a kept date is overridable, hence handed on
  have hleft : ∀ c ∈ cs, ∀ o ∈ remainingOccurrences command prepared,
      c.occurrenceDate = o.occurrenceDate → c.isOverridable = true := by
    intro c hc o ho hd
    by_contra hno
    have hkeep := (List.mem_filter.mp ho).2
    rw [← hd] at hkeep
    have : c ∈ (remainingConflicts command cs).filter fun c => !c.isOverridable :=
      List.mem_filter.mpr ⟨List.mem_filter.mpr ⟨hc, hkeep⟩, by simpa using hno⟩
    rw [h₅.2] at this
    cases this
  have hkept : ∀ c ∈ cs, ∀ o ∈ remainingOccurrences command prepared,
      c.occurrenceDate = o.occurrenceDate →
      c ∈ (remainingConflicts command cs).filter SeriesConflict.isOverridable := by
    intro c hc o ho hd
    have hkeep := (List.mem_filter.mp ho).2
    rw [← hd] at hkeep
    exact List.mem_filter.mpr ⟨List.mem_filter.mpr ⟨hc, hkeep⟩, hleft c hc o ho hd⟩
  have hover : ∀ c ∈ (remainingConflicts command cs).filter SeriesConflict.isOverridable,
      c ∈ cs ∧ c.isOverridable = true := fun c hc =>
    ⟨(List.mem_filter.mp (List.mem_filter.mp hc).1).1, (List.mem_filter.mp hc).2⟩
  have hprep : ∀ o ∈ remainingOccurrences command prepared, o ∈ prepared.occurrences :=
    fun o ho => (List.mem_filter.mp ho).1
  refine ⟨henv.trans hlast, rfl, fun hne => ?_, fun c hc m hm => ?_, fun o ho => ?_,
    fun hm htz o ho => ?_⟩
  · obtain ⟨c, hc⟩ := List.exists_mem_of_ne_nil _ hne
    exact (hreview.overrides c (hover c hc).1 (hover c hc).2).1
  · exact ((hreview.overrides c (hover c hc).1 (hover c hc).2).2 m hm).later hlater
  · obtain ⟨found, hsub, h⟩ := hreview.occurrences o (hprep o ho)
    refine (FreeFor.mono (h.free fun c hc => ?_) fun c hc hd => ?_).later hlater
    · exact hleft c (hsub c hc) o ho (h.dates c hc)
    · exact hkept c (hsub c hc) o ho hd
  · exact (hreview.quota hm htz o (hprep o ho) fun c hc hd => hleft c hc o ho hd).later hlater

end NewlifeCore
