import Mathlib.Algebra.Order.BigOperators.Group.List
import NewlifeCore.Facility.Timetable
import NewlifeCore.Facility.Serial
import NewlifeCore.Lists

/-!
# What the Timetable shows of the slots

The day's occupancy is read from the slot table, but each row carries its Booking's own interval.
A room's cells and events are therefore exact just when these intervals tell the same story as
the slots they stand for; both directions are proved here.

* §2 and §3 go from the tables to an item.  `list_occupying_slots` picks the room's slots that meet
  the interval (`occupyingRows_eq`), the projection turns each into its Booking's interval
  (`occupancyForRoomDay_shape`), and the items of a Timetable are one for each room, made from its
  templates, open windows and slots (`getRoomsAvailability_items`).
* §4, the cells: a partly open cell is occupied when an interval meets its open part
  (`classifyCell_isOccupied`), and an Override cell has only displaceable occupants.
* §5, the events: the Ministry intervals, clipped to the open windows and merged
  (`roomItem_events`).  That the events take as much time as the slots and no more is an equality of
  durations, which §1 turns into one of lists (`duration_eq_of_perm`): a wider interval keeps more
  unless it keeps the same.
* §6: `IntervalsTell` is the condition, in terms of the stored rows, and `timetable_exact_iff` the
  equivalence for each room of the result.
-/

namespace NewlifeCore

open Txn Prog AvailabilityService

variable {db : Db} {t : Int}

/-! ## 1. Clipping -/

theorem mem_clipInterval {i seg : Interval} {windows : List Interval} :
    seg ∈ clipInterval i windows ↔
      ∃ w ∈ windows, seg = (max i.1 w.1, min i.2 w.2) ∧ max i.1 w.1 < min i.2 w.2 := by
  simp only [clipInterval, List.mem_filter, List.mem_map, decide_eq_true_eq]
  constructor
  · rintro ⟨⟨w, hw, rfl⟩, h⟩
    exact ⟨w, hw, rfl, h⟩
  · rintro ⟨w, hw, rfl, h⟩
    exact ⟨⟨w, hw, rfl⟩, h⟩

/-- The time a list of intervals takes. -/
def duration (is : List Interval) : Int := (is.map fun i => i.2 - i.1).sum

@[simp] theorem duration_nil : duration [] = 0 := rfl

@[simp] theorem duration_cons (i : Interval) (is : List Interval) :
    duration (i :: is) = i.2 - i.1 + duration is := by
  simp [duration]

@[simp] theorem duration_append (is js : List Interval) :
    duration (is ++ js) = duration is + duration js := by
  simp [duration]

theorem duration_perm {is js : List Interval} (h : is.Perm js) : duration is = duration js :=
  (h.map _).sum_eq

theorem clipInterval_cons (i w : Interval) (ws : List Interval) : clipInterval i (w :: ws) =
    (if max i.1 w.1 < min i.2 w.2 then [(max i.1 w.1, min i.2 w.2)] else []) ++
      clipInterval i ws := by
  simp only [clipInterval, List.map_cons, List.filter_cons]
  split <;> simp_all

/-- A wider interval keeps at least as much, and just as much only where it keeps the same. -/
theorem duration_clipInterval_le {outer inner : Interval} (h₁ : outer.1 ≤ inner.1)
    (h₂ : inner.2 ≤ outer.2) : ∀ windows : List Interval,
      duration (clipInterval inner windows) ≤ duration (clipInterval outer windows) ∧
        (duration (clipInterval outer windows) = duration (clipInterval inner windows) →
          clipInterval outer windows = clipInterval inner windows)
  | [] => ⟨le_refl _, fun _ => rfl⟩
  | w :: ws => by
    obtain ⟨hle, heq⟩ := duration_clipInterval_le h₁ h₂ ws
    rw [clipInterval_cons, clipInterval_cons, duration_append, duration_append]
    have hstart : max outer.1 w.1 ≤ max inner.1 w.1 := max_le_max_right _ h₁
    have hend : min inner.2 w.2 ≤ min outer.2 w.2 := min_le_min_right _ h₂
    by_cases hin : max inner.1 w.1 < min inner.2 w.2
    · have hout : max outer.1 w.1 < min outer.2 w.2 := by omega
      rw [if_pos hin, if_pos hout]
      simp only [duration_cons, duration_nil]
      refine ⟨by omega, fun h => ?_⟩
      have hs : max outer.1 w.1 = max inner.1 w.1 := by omega
      have he : min outer.2 w.2 = min inner.2 w.2 := by omega
      rw [hs, he, heq (by omega)]
    · rw [if_neg hin, duration_nil]
      by_cases hout : max outer.1 w.1 < min outer.2 w.2
      · rw [if_pos hout]
        simp only [duration_cons, duration_nil]
        exact ⟨by omega, fun h => by omega⟩
      · rw [if_neg hout]
        refine ⟨by simpa using hle, fun h => ?_⟩
        rw [heq (by simpa using h)]

/-- Where each item of a list fills at least as much by one account as by the other, and both
accounts list the same intervals, each item fills as much by both. -/
theorem duration_eq_of_perm {α : Type} {f g : α → List Interval} {l : List α}
    (hle : ∀ a ∈ l, duration (g a) ≤ duration (f a)) (h : (l.flatMap f).Perm (l.flatMap g)) :
    ∀ a ∈ l, duration (f a) = duration (g a) := by
  have hsum : ∀ (k : α → List Interval) (l : List α),
      duration (l.flatMap k) = (l.map fun a => duration (k a)).sum := by
    intro k l
    induction l with
    | nil => rfl
    | cons a l ih => simp [ih]
  have htotal := duration_perm h
  rw [hsum, hsum] at htotal
  clear h hsum
  induction l with
  | nil => simp
  | cons a l ih =>
    simp only [List.map_cons, List.sum_cons] at htotal
    have ha := hle a List.mem_cons_self
    have hl := fun b hb => hle b (List.mem_cons_of_mem a hb)
    have hrest : (l.map fun b => duration (g b)).sum ≤ (l.map fun b => duration (f b)).sum :=
      List.sum_le_sum hl
    intro b hb
    rcases List.mem_cons.mp hb with rfl | hb
    · omega
    · exact ih hl (by omega) b hb

/-! ## 2. The slots of a room -/

/-- The slots that occupy a room, each with its Booking: confirmed, and of a Booking in force. -/
def occupyingSlots (db : Db) (now : Int) (facilityId : UUID) : List (BookingSlot × Booking) :=
  (db.bookingSlots.filter fun slot => slot.facilityId = facilityId && slot.status = .confirmed).flatMap
    fun slot => (db.bookings.filter fun b => slot.facilityBookingId = b.id && !b.isDeleted &&
      activeOccupancy db now b).map fun b => (slot, b)

/-- The interval of a slot. -/
def slotInterval (r : BookingSlot × Booking) : Interval := (r.1.startAt, r.1.endAt)

/-- The interval of the Booking itself: from the start of its first to the end of its last. -/
def ownInterval (r : BookingSlot × Booking) : Interval := (r.2.startAt, r.2.endAt)

/-- `list_occupying_slots` picks the room's slots that meet the interval. -/
theorem occupyingRows_eq (db : Db) (now : Int) (facilityId : UUID) (startAt endAt : Int) :
    occupyingRows db now facilityId startAt endAt = (occupyingSlots db now facilityId).filter
      fun r => intervalsOverlap (slotInterval r) (startAt, endAt) := by
  unfold occupyingRows occupyingSlots
  rw [filter_flatMap (p := fun s => overlaps s.startAt s.endAt startAt endAt), List.filter_filter]
  · congr 2
    funext s
    exact Bool.and_comm _ _
  · intro s r hr
    obtain ⟨b, -, rfl⟩ := List.mem_map.mp hr
    rfl

/-- Every slot lies within its Booking's own interval. -/
def Db.SlotsWithin (db : Db) : Prop :=
  ∀ s ∈ db.bookingSlots, ∀ b ∈ db.bookings, s.facilityBookingId = b.id →
    b.startAt ≤ s.startAt ∧ s.endAt ≤ b.endAt

theorem foldl_min_le {α : Type} (f : α → Int) : ∀ (l : List α) (a : Int),
    l.foldl (fun s x => min s (f x)) a ≤ a ∧ ∀ x ∈ l, l.foldl (fun s x => min s (f x)) a ≤ f x
  | [], a => ⟨le_refl a, nofun⟩
  | x :: l, a => by
    obtain ⟨hstart, hrest⟩ := foldl_min_le f l (min a (f x))
    refine ⟨le_trans hstart (min_le_left _ _), fun y hy => ?_⟩
    rcases List.mem_cons.mp hy with rfl | hy
    · exact le_trans hstart (min_le_right _ _)
    · exact hrest y hy

theorem le_foldl_max {α : Type} (f : α → Int) : ∀ (l : List α) (a : Int),
    a ≤ l.foldl (fun s x => max s (f x)) a ∧ ∀ x ∈ l, f x ≤ l.foldl (fun s x => max s (f x)) a
  | [], a => ⟨le_refl a, nofun⟩
  | x :: l, a => by
    obtain ⟨hstart, hrest⟩ := le_foldl_max f l (max a (f x))
    refine ⟨le_trans (le_max_left _ _) hstart, fun y hy => ?_⟩
    rcases List.mem_cons.mp hy with rfl | hy
    · exact le_trans (le_max_right _ _) hstart
    · exact hrest y hy

theorem envelopeInterval_covers {lines : List ResolvedBookingLine} : ∀ line ∈ lines,
    (envelopeInterval lines).1 ≤ line.startAt ∧ line.endAt ≤ (envelopeInterval lines).2 := by
  intro line hline
  cases lines with
  | nil => cases hline
  | cons first rest =>
    have hmin := foldl_min_le ResolvedBookingLine.startAt rest first.startAt
    have hmax := le_foldl_max ResolvedBookingLine.endAt rest first.endAt
    rcases List.mem_cons.mp hline with rfl | hline
    · exact ⟨hmin.1, hmax.1⟩
    · exact ⟨hmin.2 _ hline, hmax.2 _ hline⟩

/-- The rows that `create_booking` writes: each slot lies within the header's interval. -/
theorem bookingSlotRows_within {id : Nat → UUID} {bookingId : UUID}
    {lines : List ResolvedBookingLine} : ∀ s ∈ bookingSlotRows id bookingId lines,
      (envelopeInterval lines).1 ≤ s.startAt ∧ s.endAt ≤ (envelopeInterval lines).2 := by
  intro s hs
  obtain ⟨i, hi, rfl⟩ := List.mem_mapIdx.mp hs
  exact envelopeInterval_covers _ (List.getElem_mem hi)

theorem Db.SlotsWithin.occupying (h : db.SlotsWithin) {facilityId : UUID}
    {r : BookingSlot × Booking} (hr : r ∈ occupyingSlots db t facilityId) :
    (ownInterval r).1 ≤ (slotInterval r).1 ∧ (slotInterval r).2 ≤ (ownInterval r).2 := by
  simp only [occupyingSlots, List.mem_flatMap, List.mem_map, List.mem_filter, Bool.and_eq_true,
    decide_eq_true_eq] at hr
  obtain ⟨s, ⟨hs, -⟩, b, ⟨hb, ⟨hid, -⟩, -⟩, rfl⟩ := hr
  exact h s hs b hb hid

/-! ## 3. What a room's item is made of -/

/-- What the projection looks at in an interval: where it lies, when its Booking starts and which
Ministry holds it. -/
def OccupancyInterval.shape (o : OccupancyInterval) : Interval × Int × Option UUID :=
  ((o.startAt, o.endAt), o.bookingStartAt, o.ministryId)

theorem addOccupancy_returns (isMinistryContext isPriority : Bool) (s : DayOccupancy)
    (row : OccupyingBooking) :
    Returns (fun s' => s'.2.map OccupancyInterval.shape = s.2.map OccupancyInterval.shape ++
        [((row.startAt, row.endAt), row.startAt, row.ministryId)])
      (addOccupancy isMinistryContext isPriority s row) := by
  unfold addOccupancy
  dsimp only
  split
  · exact List.map_append
  · cases hm : row.ministryId with
    | none => exact List.map_append
    | some m => exact Returns.seq _ fun name => Returns.seq _ fun contact => List.map_append

/-- The slots of a room that meet the 24 hours from a day's midnight. -/
def daySlots (db : Db) (now : Int) (facilityId : UUID) (day : Int) (tz : Zone) :
    List (BookingSlot × Booking) :=
  (occupyingSlots db now facilityId).filter fun r => intervalsOverlap (slotInterval r)
    (tz.startOfDay day, tz.startOfDay day + dayMicros)

/-- What a slot's row shows of its Booking. -/
def ownShape (r : BookingSlot × Booking) : Interval × Int × Option UUID :=
  (ownInterval r, r.2.startAt, r.2.ministryId)

/-- **The day's occupancy has an interval for each of its slots, and it is the Booking's own.** -/
theorem occupancyForRoomDay_shape {facilityId : UUID} {day : Int} {tz : Zone}
    {isMinistryContext isPriority : Bool} {occupancies : List OccupancyInterval}
    (h : (occupancyForRoomDay facilityId day tz isMinistryContext isPriority).eval db t =
      .ok occupancies) :
    occupancies.map OccupancyInterval.shape =
      (daySlots db t facilityId day tz).map ownShape := by
  obtain ⟨rows, hrows, h⟩ := (eval_bind_iff (ReadOnly.select _)).mp h
  obtain ⟨s, hs, hret⟩ := (eval_bind_iff
    (ReadOnly.foldEach (addOccupancy_readOnly _ _) _ _)).mp h
  cases hret
  have hrows : rows = (daySlots db t facilityId day tz).map fun r => toOccupying db r.1 r.2 := by
    rw [daySlots, ← occupyingRows_eq]
    exact (Except.ok.inj hrows).symm
  have hall := eval_foldEach (addOccupancy_readOnly isMinistryContext isPriority)
    (fun done (s : DayOccupancy) => s.2.map OccupancyInterval.shape =
      done.map fun row => ((row.startAt, row.endAt), row.startAt, row.ministryId)) rows [] rfl ?_ hs
  · rw [hall, List.nil_append, hrows, List.map_map]
    rfl
  · intro done s row s' _ hdone hstep
    rw [exec_returns (addOccupancy_returns _ _ s row)
      (eval_ok (addOccupancy_readOnly _ _ s row) hstep), hdone, List.map_append]
    rfl

/-- The room's templates on a weekday. -/
def activeTemplates (db : Db) (facilityId : UUID) (dayOfWeek : Int) : List RoomSlotTemplate :=
  (db.slotTemplates.filter fun s => !s.isDeleted && s.isActive && s.facilityId = facilityId &&
    RoomBlackoutRepository.maskHasDay s.daysOfWeekMask dayOfWeek).insertionSort
      fun a b => a.startTime ≤ b.startTime

/-- The room's Blackouts on a day. -/
def activeBlackouts (db : Db) (facilityId : UUID) (day : Int) : List RoomBlackout :=
  (db.blackouts.filter fun b => RoomBlackoutRepository.activeForRoomDay b facilityId day).insertionSort
    fun a b => a.startTime ≤ b.startTime

/-- The templates that apply to a room on a day. -/
def dayTemplates (db : Db) (facilityId : UUID) (day : Int) : List RoomSlotTemplate :=
  filterApplicableTemplates (activeTemplates db facilityId (Date.weekday day)) day

/-- The room's open windows on a day. -/
def openWindows (db : Db) (facilityId : UUID) (day : Int) (tz : Zone) : List Interval :=
  buildOpenWindows day (dayTemplates db facilityId day) (activeBlackouts db facilityId day) tz

theorem roomAvailability_eval {d : DayView} {room : FacilityRoom} {item : RoomAvailability}
    (h : (roomAvailability d room).eval db t = .ok (some item)) :
    ∃ occupancies : List OccupancyInterval,
      occupancies.map OccupancyInterval.shape = (daySlots db t room.id d.day d.tz).map ownShape ∧
      item = d.roomItem room (dayTemplates db room.id d.day) (openWindows db room.id d.day d.tz)
        occupancies := by
  obtain ⟨active, hactive, h⟩ := (eval_bind_iff (ReadOnly.select _)).mp h
  cases hactive
  obtain ⟨blackouts, hblackouts, h⟩ := (eval_bind_iff (ReadOnly.select _)).mp h
  cases hblackouts
  obtain ⟨occupancies, ho, h⟩ := (eval_bind_iff (occupancyForRoomDay_readOnly _ _ _ _ _)).mp h
  refine ⟨occupancies, occupancyForRoomDay_shape ho, ?_⟩
  dsimp only at h
  split at h
  · exact (Option.some.inj (Except.ok.inj h)).symm
  · cases h

theorem resolveMinistryContext_returns (r : Request) (ministryId : Option UUID) :
    Returns (fun p => p.1 = ministryId.isSome) (resolveMinistryContext r ministryId) := by
  cases ministryId with
  | none => exact rfl
  | some m =>
    refine Returns.seq _ fun ministry => Returns.seq _ fun status => Returns.seq _ fun _ => ?_
    split
    · trivial
    · exact Returns.seq _ fun member => Returns.seq _ fun _ => rfl

/-- **The items of the Timetable**: each is made from its room's templates, windows and slots. -/
theorem getRoomsAvailability_items {app : App} {r : Request}
    {command : RoomAvailabilityQueryCommand} {result : RoomAvailabilityList} {db' : Db}
    (h : (getRoomsAvailability app r command).exec db t = .ok (result, db')) :
    ∃ d : DayView, (SettingService.getFacilityTimezone app).eval db t = .ok d.tz ∧
      d.day = command.targetDate ∧ d.nowUtc = t ∧ d.isMinistryContext = command.ministryId.isSome ∧
      ∀ item ∈ result.items, ∃ room : FacilityRoom, ∃ occupancies : List OccupancyInterval,
        occupancies.map OccupancyInterval.shape = (daySlots db t room.id d.day d.tz).map ownShape ∧
        item = d.roomItem room (dayTemplates db room.id d.day)
          (openWindows db room.id d.day d.tz) occupancies := by
  obtain ⟨tz, htz, h⟩ := (exec_reads_iff (SettingService.getFacilityTimezone_readOnly _)).mp h
  obtain ⟨n, hn, h⟩ := (exec_reads_iff ReadOnly.now).mp h
  cases hn
  obtain ⟨u, -, h⟩ := (exec_reads_iff (ReadOnly.raiseIf _ _)).mp h
  obtain ⟨⟨isMinistryContext, isPriority⟩, hp, h⟩ :=
    (exec_reads_iff (resolveMinistryContext_readOnly _ _)).mp h
  obtain ⟨lines, -, h⟩ := (exec_reads_iff SettingService.getMaxBookingLines_readOnly).mp h
  obtain ⟨rooms, -, h⟩ := (exec_reads_iff (ReadOnly.select _)).mp h
  obtain ⟨items, hitems, h⟩ :=
    (exec_reads_iff (ReadOnly.mapEach (roomAvailability_readOnly _) _)).mp h
  cases h
  have hcontext := exec_returns (resolveMinistryContext_returns r command.ministryId)
    (eval_ok (resolveMinistryContext_readOnly _ _) hp)
  refine ⟨⟨command.targetDate, tz, t, isMinistryContext, isPriority⟩, htz, rfl, rfl, hcontext,
    fun item hitem => ?_⟩
  obtain ⟨found, hfound, rfl⟩ := List.mem_filterMap.mp hitem
  obtain ⟨room, -, hroom⟩ := eval_mapEach_mem (roomAvailability_readOnly _) hitems hfound
  exact ⟨room, roomAvailability_eval hroom⟩

/-! ## 4. The cells -/

def TimetableCellState.isOccupied (s : TimetableCellState) : Bool :=
  s = .unavailable || s = .override

/-- The interval meets the open part of a cell. -/
def meetsOpen (windows : List Interval) (cell i : Interval) : Bool :=
  (clipInterval cell windows).any fun part => intervalsOverlap part i

variable {windows : List Interval} {cell : Interval} {occupancies : List OccupancyInterval}
  {isPriority : Bool} {nowUtc : Int}

/-- **A partly open cell is occupied** when an interval meets its open part. -/
theorem classifyCell_isOccupied (hopen : clipInterval cell windows ≠ []) :
    (classifyCell cell windows occupancies isPriority nowUtc).isOccupied = true ↔
      ∃ o ∈ occupancies, meetsOpen windows cell (o.startAt, o.endAt) = true := by
  have hne : (clipInterval cell windows).isEmpty = false := by
    simpa [List.isEmpty_iff] using hopen
  unfold classifyCell
  dsimp only
  rw [hne]
  simp only [Bool.false_eq_true, if_false]
  split
  · rename_i hnone
    rw [List.isEmpty_iff, List.filter_eq_nil_iff] at hnone
    constructor
    · intro h
      cases h
    · rintro ⟨o, ho, hmeets⟩
      exact absurd hmeets (hnone o ho)
  · rename_i hsome
    rw [List.isEmpty_iff, List.filter_eq_nil_iff] at hsome
    push Not at hsome
    constructor
    · intro _
      exact hsome
    · intro _
      split <;> rfl

/-- An Override cell has only occupants that a Priority Ministry may displace. -/
theorem classifyCell_override
    (h : classifyCell cell windows occupancies isPriority nowUtc = .override) :
    ∀ o ∈ occupancies, meetsOpen windows cell (o.startAt, o.endAt) = true →
      isOverridable isPriority nowUtc o = true := by
  unfold classifyCell at h
  dsimp only at h
  split at h
  · cases h
  · split at h
    · cases h
    · split at h
      · rename_i hall
        simp only [Bool.and_eq_true, decide_eq_true_eq] at hall
        intro o ho hmeets
        have hkept := List.filter_eq_self.mp
          (List.filter_sublist.eq_of_length hall.2)
        exact hkept o (List.mem_filter.mpr ⟨ho, hmeets⟩)
      · cases h

/-- The cells of an item: the day's half hours, each classified. -/
theorem mem_roomItem_cells {d : DayView} {room : FacilityRoom}
    {templates : List RoomSlotTemplate} {c : RoomAvailabilityCell}
    (hc : c ∈ (d.roomItem room templates windows occupancies).cells) :
    (c.startAt, c.endAt) ∈ dayCellBounds d.day d.tz ∧
      c.state = classifyCell (c.startAt, c.endAt) windows occupancies d.isPriority d.nowUtc := by
  simp only [DayView.roomItem, DayView.cellStates, ← List.map_prod_left_eq_zip, List.map_map,
    List.mem_map] at hc
  obtain ⟨cell, hcell, rfl⟩ := hc
  exact ⟨hcell, rfl⟩

theorem exists_roomItem_cell {d : DayView} {room : FacilityRoom}
    {templates : List RoomSlotTemplate} (hcell : cell ∈ dayCellBounds d.day d.tz) :
    ∃ c ∈ (d.roomItem room templates windows occupancies).cells, (c.startAt, c.endAt) = cell := by
  simp only [DayView.roomItem, DayView.cellStates, ← List.map_prod_left_eq_zip, List.map_map,
    List.mem_map, exists_exists_and_eq_and]
  exact ⟨cell, hcell, rfl⟩

theorem mem_dayCellBounds {day : Int} {tz : Zone} (h : cell ∈ dayCellBounds day tz) :
    tz.startOfDay day ≤ cell.1 ∧ cell.2 = cell.1 + 1800000000 ∧
      cell.2 ≤ tz.startOfDay day + dayMicros := by
  simp only [dayCellBounds, timetableCellsPerDay, timetableCellMinutes, minuteMicros, List.mem_map,
    List.mem_range] at h
  obtain ⟨index, hindex, rfl⟩ := h
  simp only [dayMicros]
  omega

/-- A slot that meets a cell meets the day. -/
theorem mem_daySlots {facilityId : UUID} {day : Int} {tz : Zone} {r : BookingSlot × Booking}
    (hcell : cell ∈ dayCellBounds day tz) (hr : r ∈ occupyingSlots db t facilityId)
    (hmeets : intervalsOverlap (slotInterval r) cell = true) : r ∈ daySlots db t facilityId day tz := by
  have hin := mem_dayCellBounds hcell
  refine List.mem_filter.mpr ⟨hr, ?_⟩
  simp only [intervalsOverlap, Bool.and_eq_true, decide_eq_true_eq] at hmeets ⊢
  omega

theorem meetsOpen_iff {i : Interval} : meetsOpen windows cell i = true ↔
    ∃ w ∈ windows, max cell.1 w.1 < min cell.2 w.2 ∧ max cell.1 w.1 < i.2 ∧ i.1 < min cell.2 w.2 := by
  simp only [meetsOpen, List.any_eq_true, mem_clipInterval, intervalsOverlap, Bool.and_eq_true,
    decide_eq_true_eq, gt_iff_lt]
  constructor
  · rintro ⟨-, ⟨w, hw, rfl, hlt⟩, h⟩
    exact ⟨w, hw, hlt, h⟩
  · rintro ⟨w, hw, hlt, h⟩
    exact ⟨_, ⟨w, hw, rfl, hlt⟩, h⟩

theorem meetsOpen_mono {i j : Interval} (h₁ : j.1 ≤ i.1) (h₂ : i.2 ≤ j.2)
    (h : meetsOpen windows cell i = true) : meetsOpen windows cell j = true := by
  rw [meetsOpen_iff] at h ⊢
  obtain ⟨w, hw, hlt, ha, hb⟩ := h
  exact ⟨w, hw, hlt, lt_of_lt_of_le ha h₂, lt_of_le_of_lt h₁ hb⟩

/-- What meets the open part of a cell meets the cell. -/
theorem meetsOpen_overlaps {i : Interval} (h : meetsOpen windows cell i = true) :
    intervalsOverlap i cell = true := by
  obtain ⟨w, -, hlt, ha, hb⟩ := meetsOpen_iff.mp h
  simp only [intervalsOverlap, Bool.and_eq_true, decide_eq_true_eq]
  omega

/-! ## 5. The events -/

/-- The intervals shown as Ministry events. -/
def ministryIntervals (events : List RoomAvailabilityEvent) : List Interval :=
  (events.filter fun e => e.occupancyKind = .ministry).map fun e => (e.startAt, e.endAt)

/-- The slots that are held by a Ministry. -/
def ministrySlots (rows : List (BookingSlot × Booking)) : List (BookingSlot × Booking) :=
  rows.filter fun r => r.2.ministryId.isSome

theorem roomItem_events {d : DayView} {room : FacilityRoom} {templates : List RoomSlotTemplate}
    {rows : List (BookingSlot × Booking)} (hd : d.isMinistryContext = true)
    (hrows : occupancies.map OccupancyInterval.shape = rows.map ownShape) :
    (ministryIntervals (d.roomItem room templates windows occupancies).events).Perm
      ((ministrySlots rows).flatMap fun r => clipInterval (ownInterval r) windows) := by
  -- an item's segments, where a Ministry holds it
  let segments (s : Interval × Int × Option UUID) : List Interval :=
    if s.2.2.isSome then clipInterval s.1 windows else []
  have hitem : ∀ o : OccupancyInterval, ((projectItem windows d.isPriority d.nowUtc o).filter
      fun e => e.occupancyKind = .ministry).map (fun e => (e.startAt, e.endAt)) =
        segments o.shape := by
    intro o
    simp only [projectItem, segments, OccupancyInterval.shape]
    by_cases hm : o.ministryId.isSome = true
    · simp [hm, List.filter_map, List.map_map, Function.comp_def]
    · simp [hm, List.filter_map, Function.comp_def]
  have hrow : rows.flatMap (fun r => segments (ownShape r)) =
      (ministrySlots rows).flatMap fun r => clipInterval (ownInterval r) windows := by
    clear hrows
    induction rows with
    | nil => rfl
    | cons r rows ih =>
      rw [List.flatMap_cons, ih]
      by_cases hm : r.2.ministryId.isSome = true
      · simp [ministrySlots, segments, ownShape, hm]
      · simp [ministrySlots, segments, ownShape, hm]
  simp only [ministryIntervals, DayView.roomItem, hd, if_true, List.filter_map, List.map_map,
    Function.comp_def, projectMinistryEvents]
  refine (((List.perm_insertionSort _ _).filter _).map _).trans (List.Perm.of_eq ?_)
  rw [← hrow, List.filter_flatMap, List.map_flatMap]
  have hshape := congrArg (List.flatMap segments) hrows
  rw [List.flatMap_map, List.flatMap_map] at hshape
  rw [← hshape]
  congr 1
  funext o
  exact hitem o

/-! ## 6. Exactness -/

/-- **The item shows the room's slots**: a cell with an open part is occupied exactly when a slot
meets the cell, an Override cell shows only Rental slots that may be displaced, and the Ministry
events are the Ministry slots clipped to the open windows, each once. -/
structure ShowsSlots (db : Db) (t : Int) (windows : List Interval) (isMinistryContext : Bool)
    (item : RoomAvailability) : Prop where
  occupied : ∀ c ∈ item.cells, clipInterval (c.startAt, c.endAt) windows ≠ [] →
    (c.state.isOccupied = true ↔ ∃ r ∈ occupyingSlots db t item.id,
      intervalsOverlap (slotInterval r) (c.startAt, c.endAt) = true)
  override : ∀ c ∈ item.cells, c.state = .override → ∀ r ∈ occupyingSlots db t item.id,
    meetsOpen windows (c.startAt, c.endAt) (slotInterval r) = true →
      r.2.ministryId = none ∧ t < r.2.startAt
  events : isMinistryContext = true → (ministryIntervals item.events).Perm
    ((ministrySlots (occupyingSlots db t item.id)).flatMap fun r =>
      clipInterval (slotInterval r) windows)

/-- No Ministry slot meets an open window outside the 24 hours from midnight: so it is on every
local day that is no longer. -/
def WithinDay (db : Db) (t : Int) (windows : List Interval) (facilityId : UUID) (day : Int)
    (tz : Zone) : Prop :=
  ∀ r ∈ ministrySlots (occupyingSlots db t facilityId), clipInterval (slotInterval r) windows ≠ [] →
    r ∈ daySlots db t facilityId day tz

/-- **The Bookings' own intervals tell of the room's slots**: a slot that reaches only the closed
part of a partly open cell leaves some Booking in its open part; a Booking that spans the open part
of a cell has company of a slot there; and a Ministry Booking takes of the open windows what its
slot takes. -/
structure IntervalsTell (db : Db) (t : Int) (windows : List Interval) (facilityId : UUID)
    (day : Int) (tz : Zone) (isMinistryContext : Bool) : Prop where
  closedPart : ∀ cell ∈ dayCellBounds day tz, clipInterval cell windows ≠ [] →
    ∀ r ∈ occupyingSlots db t facilityId, intervalsOverlap (slotInterval r) cell = true →
      meetsOpen windows cell (slotInterval r) = false →
        ∃ r' ∈ daySlots db t facilityId day tz, meetsOpen windows cell (ownInterval r') = true
  gaps : ∀ cell ∈ dayCellBounds day tz, ∀ r ∈ daySlots db t facilityId day tz,
    meetsOpen windows cell (ownInterval r) = true →
      ∃ r' ∈ occupyingSlots db t facilityId, intervalsOverlap (slotInterval r') cell = true
  ministry : isMinistryContext = true → WithinDay db t windows facilityId day tz →
    ∀ r ∈ ministrySlots (daySlots db t facilityId day tz),
      clipInterval (ownInterval r) windows = clipInterval (slotInterval r) windows
  -- a local day of 25 hours: what the own intervals add has to make up for the slots not read
  longDay : isMinistryContext = true → ¬ WithinDay db t windows facilityId day tz →
    ((ministrySlots (daySlots db t facilityId day tz)).flatMap fun r =>
      clipInterval (ownInterval r) windows).Perm
        ((ministrySlots (occupyingSlots db t facilityId)).flatMap fun r =>
          clipInterval (slotInterval r) windows)

theorem ministrySlots_flatMap_day {facilityId : UUID} {day : Int} {tz : Zone}
    (h : WithinDay db t windows facilityId day tz) :
    ((ministrySlots (occupyingSlots db t facilityId)).flatMap fun r =>
        clipInterval (slotInterval r) windows) =
      (ministrySlots (daySlots db t facilityId day tz)).flatMap fun r =>
        clipInterval (slotInterval r) windows := by
  rw [flatMap_filter_of_nil fun r hr hne => (List.mem_filter.mp (h r hr hne)).2]
  unfold ministrySlots daySlots
  rw [List.filter_comm]

section Exact

variable {d : DayView} {room : FacilityRoom} {templates : List RoomSlotTemplate}
  (hshape : occupancies.map OccupancyInterval.shape = (daySlots db t room.id d.day d.tz).map ownShape)
include hshape

theorem exists_occupancy_iff (P : Interval → Prop) :
    (∃ o ∈ occupancies, P (o.startAt, o.endAt)) ↔
      ∃ r ∈ daySlots db t room.id d.day d.tz, P (ownInterval r) := by
  have h : ∀ s, s ∈ occupancies.map OccupancyInterval.shape ↔
      s ∈ (daySlots db t room.id d.day d.tz).map ownShape := fun s => by rw [hshape]
  constructor
  · rintro ⟨o, ho, hP⟩
    obtain ⟨r, hr, he⟩ := List.mem_map.mp ((h _).mp (List.mem_map_of_mem ho))
    have hown : ownInterval r = (o.startAt, o.endAt) := congrArg Prod.fst he
    exact ⟨r, hr, hown ▸ hP⟩
  · rintro ⟨r, hr, hP⟩
    obtain ⟨o, ho, he⟩ := List.mem_map.mp ((h _).mpr (List.mem_map_of_mem hr))
    have hown : (o.startAt, o.endAt) = ownInterval r := congrArg Prod.fst he
    exact ⟨o, ho, hown ▸ hP⟩

theorem occupied_iff (hslots : db.SlotsWithin) :
    (∀ c ∈ (d.roomItem room templates windows occupancies).cells,
      clipInterval (c.startAt, c.endAt) windows ≠ [] →
      (c.state.isOccupied = true ↔ ∃ r ∈ occupyingSlots db t room.id,
        intervalsOverlap (slotInterval r) (c.startAt, c.endAt) = true)) ↔
    (∀ cell ∈ dayCellBounds d.day d.tz, clipInterval cell windows ≠ [] →
      ∀ r ∈ occupyingSlots db t room.id, intervalsOverlap (slotInterval r) cell = true →
        meetsOpen windows cell (slotInterval r) = false →
          ∃ r' ∈ daySlots db t room.id d.day d.tz, meetsOpen windows cell (ownInterval r') = true) ∧
    (∀ cell ∈ dayCellBounds d.day d.tz, ∀ r ∈ daySlots db t room.id d.day d.tz,
      meetsOpen windows cell (ownInterval r) = true →
        ∃ r' ∈ occupyingSlots db t room.id, intervalsOverlap (slotInterval r') cell = true) := by
  have hstate : ∀ c ∈ (d.roomItem room templates windows occupancies).cells,
      clipInterval (c.startAt, c.endAt) windows ≠ [] → (c.state.isOccupied = true ↔
        ∃ r ∈ daySlots db t room.id d.day d.tz,
          meetsOpen windows (c.startAt, c.endAt) (ownInterval r) = true) := by
    intro c hc hopen
    rw [(mem_roomItem_cells hc).2, classifyCell_isOccupied hopen]
    exact exists_occupancy_iff hshape fun i => meetsOpen windows (c.startAt, c.endAt) i = true
  constructor
  · intro h
    have hcells : ∀ cell ∈ dayCellBounds d.day d.tz,
        ∃ c ∈ (d.roomItem room templates windows occupancies).cells, (c.startAt, c.endAt) = cell :=
      fun cell hcell => exists_roomItem_cell hcell
    refine ⟨fun cell hcell hopen r hr hmeets _ => ?_, fun cell hcell r hr hmeets => ?_⟩
    all_goals obtain ⟨c, hc, rfl⟩ := hcells cell hcell
    · exact (hstate c hc hopen).mp ((h c hc hopen).mpr ⟨r, hr, hmeets⟩)
    · have hopen : clipInterval (c.startAt, c.endAt) windows ≠ [] := by
        obtain ⟨part, hpart, -⟩ := List.any_eq_true.mp hmeets
        exact List.ne_nil_of_mem hpart
      exact (h c hc hopen).mp ((hstate c hc hopen).mpr ⟨r, hr, hmeets⟩)
  · rintro ⟨hclosed, hgaps⟩ c hc hopen
    have hcell := (mem_roomItem_cells hc).1
    rw [hstate c hc hopen]
    constructor
    · rintro ⟨r, hr, hmeets⟩
      exact hgaps _ hcell r hr hmeets
    · rintro ⟨r, hr, hmeets⟩
      cases ho : meetsOpen windows (c.startAt, c.endAt) (slotInterval r) with
      | false => exact hclosed _ hcell hopen r hr hmeets ho
      | true =>
        -- the slot lies in its Booking's interval, so this reaches the open part too
        have hin := hslots.occupying hr
        exact ⟨r, mem_daySlots hcell hr hmeets, meetsOpen_mono hin.1 hin.2 ho⟩

theorem override_displaceable (hslots : db.SlotsWithin) :
    ∀ c ∈ (d.roomItem room templates windows occupancies).cells, c.state = .override →
      ∀ r ∈ occupyingSlots db t room.id,
        meetsOpen windows (c.startAt, c.endAt) (slotInterval r) = true →
          r.2.ministryId = none ∧ d.nowUtc < r.2.startAt := by
  intro c hc hstate r hr hmeets
  obtain ⟨hcell, hclass⟩ := mem_roomItem_cells hc
  have hin := hslots.occupying hr
  have hday := mem_daySlots hcell hr (meetsOpen_overlaps hmeets)
  obtain ⟨o, ho, he⟩ := List.mem_map.mp (hshape ▸ List.mem_map_of_mem hday)
  have hown : (o.startAt, o.endAt) = ownInterval r := congrArg Prod.fst he
  have hover := classifyCell_override (hclass ▸ hstate) o ho
    (hown ▸ meetsOpen_mono hin.1 hin.2 hmeets)
  simp only [isOverridable, Bool.and_eq_true, Option.isNone_iff_eq_none, decide_eq_true_eq,
    gt_iff_lt] at hover
  have hministry : o.ministryId = r.2.ministryId := congrArg (fun s => s.2.2) he
  have hstart : o.bookingStartAt = r.2.startAt := congrArg (fun s => s.2.1) he
  exact ⟨hministry ▸ hover.1.1, hstart ▸ hover.2⟩

theorem events_iff (hslots : db.SlotsWithin) (hd : d.isMinistryContext = true) :
    (ministryIntervals (d.roomItem room templates windows occupancies).events).Perm
        ((ministrySlots (occupyingSlots db t room.id)).flatMap fun r =>
          clipInterval (slotInterval r) windows) ↔
      (WithinDay db t windows room.id d.day d.tz →
        ∀ r ∈ ministrySlots (daySlots db t room.id d.day d.tz),
          clipInterval (ownInterval r) windows = clipInterval (slotInterval r) windows) ∧
      (¬ WithinDay db t windows room.id d.day d.tz →
        ((ministrySlots (daySlots db t room.id d.day d.tz)).flatMap fun r =>
          clipInterval (ownInterval r) windows).Perm
            ((ministrySlots (occupyingSlots db t room.id)).flatMap fun r =>
              clipInterval (slotInterval r) windows)) := by
  rw [(roomItem_events hd hshape).congr_left]
  by_cases hday : WithinDay db t windows room.id d.day d.tz
  · simp only [hday, true_imp_iff, not_true_eq_false, false_imp_iff, and_true]
    rw [ministrySlots_flatMap_day hday]
    have hle : ∀ r ∈ ministrySlots (daySlots db t room.id d.day d.tz),
        duration (clipInterval (slotInterval r) windows) ≤
            duration (clipInterval (ownInterval r) windows) ∧
          (duration (clipInterval (ownInterval r) windows) =
              duration (clipInterval (slotInterval r) windows) →
            clipInterval (ownInterval r) windows = clipInterval (slotInterval r) windows) := by
      intro r hr
      have hin := hslots.occupying (List.mem_filter.mp (List.mem_filter.mp hr).1).1
      exact duration_clipInterval_le hin.1 hin.2 windows
    constructor
    · intro hperm r hr
      exact (hle r hr).2 (duration_eq_of_perm (fun a ha => (hle a ha).1) hperm r hr)
    · intro hsame
      exact List.Perm.of_eq (List.flatMap_congr hsame)
  · simp [hday]

end Exact

/-- **The Timetable is exact just where the Bookings' own intervals tell of the slots**: for every
stored set of Bookings, each room of the result shows its slots if and only if they do. -/
theorem timetable_exact_iff (app : App) (r : Request) (command : RoomAvailabilityQueryCommand)
    {db db' : Db} {t : Int} {result : RoomAvailabilityList} (hslots : db.SlotsWithin)
    (h : (getRoomsAvailability app r command).exec db t = .ok (result, db')) :
    ∃ tz, (SettingService.getFacilityTimezone app).eval db t = .ok tz ∧ ∀ item ∈ result.items,
      (ShowsSlots db t (openWindows db item.id command.targetDate tz) command.ministryId.isSome item ↔
        IntervalsTell db t (openWindows db item.id command.targetDate tz) item.id command.targetDate
          tz command.ministryId.isSome) := by
  obtain ⟨d, htz, hday, hnow, hcontext, hitems⟩ := getRoomsAvailability_items h
  refine ⟨d.tz, htz, fun item hitem => ?_⟩
  obtain ⟨room, occupancies, hshape, rfl⟩ := hitems item hitem
  rw [← hday, ← hcontext]
  constructor
  · rintro ⟨hoccupied, -, hevents⟩
    obtain ⟨hclosed, hgaps⟩ := (occupied_iff hshape hslots).mp hoccupied
    exact ⟨hclosed, hgaps, fun hd => ((events_iff hshape hslots hd).mp (hevents hd)).1,
      fun hd => ((events_iff hshape hslots hd).mp (hevents hd)).2⟩
  · rintro ⟨hclosed, hgaps, hministry, hlong⟩
    refine ⟨(occupied_iff hshape hslots).mpr ⟨hclosed, hgaps⟩, ?_,
      fun hd => (events_iff hshape hslots hd).mpr ⟨hministry hd, hlong hd⟩⟩
    intro c hc hstate r hr hmeets
    exact hnow ▸ override_displaceable hshape hslots c hc hstate r hr hmeets

/-! ### 6.1 A Booking with a gap -/

/-- The room at noon and again at three, in one Booking. -/
def bookTwice (day : Int) : CreateBookingCommand :=
  { bookNoon day with
    rooms := [{ facilityId := 3, sequence := 0 },
      { facilityId := 3, sequence := 1
        startAt := some (WallClock.combine day .noon + 3 * hourMicros)
        endAt := some (WallClock.combine day .noon + 4 * hourMicros) }] }

/-- The room after it was booked. -/
def Db.bookedBy (command : CreateBookingCommand) : Db :=
  (BookingService.createBooking App.utc (.numbered 7 100) command).after Db.oneRoom 50

instance (db : Db) : Decidable db.SlotsWithin :=
  inferInstanceAs (Decidable (∀ s ∈ db.bookingSlots, ∀ b ∈ db.bookings,
    s.facilityBookingId = b.id → b.startAt ≤ s.startAt ∧ s.endAt ≤ b.endAt))

/-- Another member's look at day 10. -/
def lookAtDayTen : RoomAvailabilityQueryCommand where
  targetDate := 10

theorem App.utc_timezone : Returns (fun tz => tz = Zone.utc)
    (SettingService.getFacilityTimezone App.utc) := by
  refine Returns.seq _ fun value => (Returns.ofExcept _).mono fun tz htz => ?_
  unfold SettingService.parseTimezone at htz
  split at htz
  · split at htz
    · cases htz
    · exact (Except.ok.inj htz).symm
  · cases htz

theorem utc_of_eval {db : Db} {t : Int} {tz : Zone}
    (h : (SettingService.getFacilityTimezone App.utc).eval db t = .ok tz) : tz = Zone.utc :=
  exec_returns (Ψ := fun tz => tz = Zone.utc) App.utc_timezone
    (eval_ok (SettingService.getFacilityTimezone_readOnly _) h)

/-- A room booked once a day, to which the equivalence applies. -/
theorem timetable_exact_iff_noon :
    ∃ result db', (getRoomsAvailability App.utc (.numbered 8 200) lookAtDayTen).exec
        (Db.bookedBy (bookNoon 10)) 60 = .ok (result, db') ∧
      ∃ tz, (SettingService.getFacilityTimezone App.utc).eval (Db.bookedBy (bookNoon 10)) 60 =
          .ok tz ∧ ∀ item ∈ result.items,
        (ShowsSlots (Db.bookedBy (bookNoon 10)) 60
            (openWindows (Db.bookedBy (bookNoon 10)) item.id 10 tz) false item ↔
          IntervalsTell (Db.bookedBy (bookNoon 10)) 60
            (openWindows (Db.bookedBy (bookNoon 10)) item.id 10 tz) item.id 10 tz false) := by
  have hok : ((getRoomsAvailability App.utc (.numbered 8 200) lookAtDayTen).exec
      (Db.bookedBy (bookNoon 10)) 60).isOk = true := by decide +kernel
  cases h : (getRoomsAvailability App.utc (.numbered 8 200) lookAtDayTen).exec
      (Db.bookedBy (bookNoon 10)) 60 with
  | error e => rw [h] at hok; cases hok
  | ok out =>
    exact ⟨out.1, out.2, rfl, timetable_exact_iff App.utc _ lookAtDayTen (by decide +kernel) h⟩

/-- The Timetable shows the slots of every room, whatever is stored. -/
def TimetableExact (app : App) : Prop :=
  ∀ (r : Request) (command : RoomAvailabilityQueryCommand) (db db' : Db) (t : Int)
    (result : RoomAvailabilityList), db.SlotsWithin →
    (getRoomsAvailability app r command).exec db t = .ok (result, db') →
    ∃ tz, (SettingService.getFacilityTimezone app).eval db t = .ok tz ∧ ∀ item ∈ result.items,
      ShowsSlots db t (openWindows db item.id command.targetDate tz) command.ministryId.isSome item

/-- **The gap of a Booking is shown as occupied**: between noon and three the room is free, and no
cell says so. -/
theorem timetable_not_exact : ¬ TimetableExact App.utc := by
  intro hexact
  -- one o'clock is shown as occupied
  have hshown : (match (getRoomsAvailability App.utc (.numbered 8 200) lookAtDayTen).exec
        (Db.bookedBy (bookTwice 10)) 60 with
      | .ok (result, _) => result.items.any fun item => item.id = 3 && item.cells.any fun c =>
          c.startAt = WallClock.combine 10 .noon + hourMicros &&
            c.endAt = WallClock.combine 10 .noon + hourMicros + 1800000000 && c.state.isOccupied
      | .error _ => false) = true := by decide +kernel
  have hfree : ∀ r ∈ occupyingSlots (Db.bookedBy (bookTwice 10)) 60 3,
      intervalsOverlap (slotInterval r) (WallClock.combine 10 .noon + hourMicros,
        WallClock.combine 10 .noon + hourMicros + 1800000000) = false := by decide +kernel
  have hopen : clipInterval (WallClock.combine 10 .noon + hourMicros,
      WallClock.combine 10 .noon + hourMicros + 1800000000)
        (openWindows (Db.bookedBy (bookTwice 10)) 3 10 Zone.utc) ≠ [] := by decide +kernel
  cases h : (getRoomsAvailability App.utc (.numbered 8 200) lookAtDayTen).exec
      (Db.bookedBy (bookTwice 10)) 60 with
  | error e => rw [h] at hshown; cases hshown
  | ok out =>
    obtain ⟨result, db'⟩ := out
    rw [h] at hshown
    simp only [List.any_eq_true, Bool.and_eq_true, decide_eq_true_eq] at hshown
    obtain ⟨item, hitem, hid, c, hc, ⟨hstart, hend⟩, hoccupied⟩ := hshown
    obtain ⟨tz, htz, hshows⟩ := hexact _ _ _ _ _ _ (by decide +kernel) h
    obtain rfl := utc_of_eval htz
    have hcell := (hshows item hitem).occupied c hc
    rw [hid, hstart, hend] at hcell
    obtain ⟨r, hr, hmeets⟩ := (hcell hopen).mp hoccupied
    rw [hfree r hr] at hmeets
    cases hmeets

end NewlifeCore
