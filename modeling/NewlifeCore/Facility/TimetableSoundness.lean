import NewlifeCore.Facility.TimetableOccupancy
import NewlifeCore.Intervals

/-!
# What the Timetable offers can be booked

A stretch that the Timetable shows as Available, where it is open time, passes what
`create_booking` tests: nobody occupies it, no Blackout closes it, and it lies in one opening
window by the wall clock.

* §1 and §2: merging templates and cutting Blackouts out of them keeps exactly the instants it
  should (`mergeOpenWindows_spec`, `covers_buildOpenWindows`).
* §3: the Timetable is computed in UTC and `create_booking` tests the wall clock.  On a day on which
  the zone keeps one offset (`SteadyOn`) the two orders agree, which is all that is used of the
  zone.
* §4 goes from open time to the tests: no Blackout overlaps it (`hasBlackoutOverlap_eval`), and it
  lies in one merged opening window (`withinOpeningHours`), for windows are apart.
* §5 goes from what is shown to the occupants: a free interval meets Available cells only
  (`mergeFreeFrom_available`, `available_of_reported`), and an occupant of open time would have made
  its cell occupied (`occupyingRows_empty`).
* §6: `timetable_sound`.  An Available cell may be partly closed, so that open time has to be asked
  for; the last theorem has the half hour in which a room closes.
-/

namespace NewlifeCore

open Txn Prog AvailabilityService Intervals

variable {db : Db} {t : Int}

/-! ## 1. Merged windows -/

theorem covers_mergeFrom {u : Int} : ∀ {rest : List Interval} {p : Interval},
    (∀ w ∈ rest, p.1 ≤ w.1) → rest.Pairwise (fun a b => a.1 ≤ b.1) →
      (Covers (mergeFrom p rest) u ↔ Covers (p :: rest) u)
  | [], _, _, _ => Iff.rfl
  | (startAt, endAt) :: rest, p, hprev, hsorted => by
    have hfirst := hprev _ List.mem_cons_self
    have hrest : ∀ w ∈ rest, p.1 ≤ w.1 := fun w hw => hprev w (List.mem_cons_of_mem _ hw)
    unfold mergeFrom
    split
    · rename_i hjoin
      rw [covers_mergeFrom (p := (p.1, max p.2 endAt)) hrest hsorted.of_cons, covers_cons,
        holds_join hfirst hjoin, covers_cons, covers_cons, or_assoc]
    · rw [covers_cons, covers_mergeFrom (List.pairwise_cons.mp hsorted).1 hsorted.of_cons,
        covers_cons (i := p)]

theorem mergeFrom_start : ∀ {rest : List Interval} {p : Interval},
    (∀ w ∈ rest, p.1 ≤ w.1) → rest.Pairwise (fun a b => a.1 ≤ b.1) →
      ∀ w ∈ mergeFrom p rest, p.1 ≤ w.1
  | [], _, _, _, w, hw => by
    rw [List.mem_singleton.mp hw]
  | (startAt, endAt) :: rest, p, hprev, hsorted, w, hw => by
    have hrest : ∀ w ∈ rest, p.1 ≤ w.1 := fun w hw => hprev w (List.mem_cons_of_mem _ hw)
    unfold mergeFrom at hw
    split at hw
    · exact mergeFrom_start (p := (p.1, max p.2 endAt)) hrest hsorted.of_cons w hw
    · rcases List.mem_cons.mp hw with rfl | hw
      · exact le_refl _
      · exact le_trans (hprev _ List.mem_cons_self)
          (mergeFrom_start (List.pairwise_cons.mp hsorted).1 hsorted.of_cons w hw)

theorem mergeFrom_separated : ∀ {rest : List Interval} {p : Interval},
    (∀ w ∈ rest, p.1 ≤ w.1) → rest.Pairwise (fun a b => a.1 ≤ b.1) →
      Separated (mergeFrom p rest)
  | [], _, _, _ => List.pairwise_singleton _ _
  | (startAt, endAt) :: rest, p, hprev, hsorted => by
    have hrest : ∀ w ∈ rest, p.1 ≤ w.1 := fun w hw => hprev w (List.mem_cons_of_mem _ hw)
    unfold mergeFrom
    split
    · exact mergeFrom_separated (p := (p.1, max p.2 endAt)) hrest hsorted.of_cons
    · rename_i happart
      have hlater := (List.pairwise_cons.mp hsorted).1
      refine List.pairwise_cons.mpr ⟨fun w hw => ?_, mergeFrom_separated hlater hsorted.of_cons⟩
      exact lt_of_lt_of_le (not_le.mp happart) (mergeFrom_start hlater hsorted.of_cons w hw)

/-- **Merging covers the same time**, with intervals that are in order and apart. -/
theorem mergeOpenWindows_spec (windows : List Interval) :
    Separated (mergeOpenWindows windows) ∧
      ∀ u, Covers (mergeOpenWindows windows) u ↔ Covers windows u := by
  have hperm := List.perm_insertionSort (fun a b : Interval => a.1 ≤ b.1) windows
  have hsorted := List.pairwise_insertionSort (fun a b : Interval => a.1 ≤ b.1) windows
  unfold mergeOpenWindows
  cases hs : windows.insertionSort fun a b : Interval => a.1 ≤ b.1 with
  | nil =>
    rw [hs] at hperm
    rw [List.nil_perm.mp hperm]
    exact ⟨List.Pairwise.nil, fun u => Iff.rfl⟩
  | cons first rest =>
    rw [hs] at hperm hsorted
    have hfirst := (List.pairwise_cons.mp hsorted).1
    refine ⟨mergeFrom_separated hfirst hsorted.of_cons, fun u => ?_⟩
    rw [covers_mergeFrom hfirst hsorted.of_cons, covers_perm hperm]

/-! ## 2. Open windows -/

/-- **A Blackout takes its own time and no other.** -/
theorem covers_subtractBlackout {blackout seg : Interval} {u : Int} :
    Covers (subtractBlackout blackout seg) u ↔ Holds seg u ∧ ¬ Holds blackout u := by
  unfold subtractBlackout intervalsOverlap
  by_cases hmeet : seg.1 < blackout.2 ∧ seg.2 > blackout.1
  · have hguard : (decide (seg.1 < blackout.2) && decide (seg.2 > blackout.1)) = true := by
      simpa using hmeet
    rw [hguard]
    simp only [Bool.not_true, Bool.false_eq_true, if_false, covers_append]
    constructor
    · rintro (h | h)
      all_goals split at h
      · simp only [covers_cons, covers_nil, or_false, Holds] at h ⊢
        omega
      · exact absurd h covers_nil
      · simp only [covers_cons, covers_nil, or_false, Holds] at h ⊢
        omega
      · exact absurd h covers_nil
    · rintro ⟨hseg, hcut⟩
      rcases covers_cut hcut hseg with h | h
      · have hlt : seg.1 < blackout.1 := lt_of_le_of_lt h.1 (lt_of_lt_of_le h.2 (min_le_right _ _))
        rw [if_pos hlt]
        exact .inl (by simpa using h)
      · have hlt : blackout.2 < seg.2 := lt_of_le_of_lt (le_trans (le_max_right _ _) h.1) h.2
        rw [if_pos hlt]
        exact .inr (by simpa using h)
  · have hguard : (decide (seg.1 < blackout.2) && decide (seg.2 > blackout.1)) = false := by
      simpa using hmeet
    rw [hguard]
    simp only [Bool.not_false, if_true, covers_cons, covers_nil, or_false, Holds]
    omega

theorem covers_subtractAll {α : Type} {g : α → Interval} {u : Int} : ∀ {blackouts : List α}
    {segments : List Interval},
    Covers (blackouts.foldl (fun segs b => segs.flatMap (subtractBlackout (g b))) segments) u ↔
      Covers segments u ∧ ∀ b ∈ blackouts, ¬ Holds (g b) u
  | [], segments => by simp
  | b :: blackouts, segments => by
    have hfirst : Covers (segments.flatMap (subtractBlackout (g b))) u ↔
        Covers segments u ∧ ¬ Holds (g b) u := by
      rw [covers_flatMap]
      simp only [covers_subtractBlackout]
      exact ⟨fun ⟨i, hi, hu, hb⟩ => ⟨⟨i, hi, hu⟩, hb⟩, fun ⟨⟨i, hi, hu⟩, hb⟩ => ⟨i, hi, hu, hb⟩⟩
    rw [List.foldl_cons, covers_subtractAll, hfirst, List.forall_mem_cons, and_assoc]

/-- **The open windows of a day** are the time of its templates, less that of its Blackouts. -/
theorem covers_buildOpenWindows {day : Int} {templates : List RoomSlotTemplate}
    {blackouts : List RoomBlackout} {tz : Zone} {u : Int} :
    Covers (buildOpenWindows day templates blackouts tz) u ↔
      (∃ s ∈ templates, Holds (combineLocal day s.startTime tz, combineLocal day s.endTime tz) u) ∧
      ∀ b ∈ blackouts, ¬ Holds (combineLocal day b.startTime tz, combineLocal day b.endTime tz) u := by
  have hmerged : ∀ u, Covers (mergeOpenWindows ((templates.map fun s =>
      (combineLocal day s.startTime tz, combineLocal day s.endTime tz)).filter
        fun w => w.1 < w.2)) u ↔
      ∃ s ∈ templates, Holds (combineLocal day s.startTime tz, combineLocal day s.endTime tz) u := by
    intro u
    rw [(mergeOpenWindows_spec _).2, covers_filter_lt]
    simp [Covers]
  unfold buildOpenWindows
  dsimp only
  cases hb : blackouts.isEmpty with
  | true =>
    rw [if_pos rfl, hmerged, List.isEmpty_iff.mp hb]
    simp
  | false =>
    rw [if_neg (by simp), covers_flatMap]
    simp only [covers_filter_lt, covers_subtractAll, covers_cons, covers_nil, or_false]
    rw [← hmerged]
    constructor
    · rintro ⟨w, hw, hu, hb⟩
      exact ⟨⟨w, hw, hu⟩, hb⟩
    · rintro ⟨⟨w, hw, hu⟩, hb⟩
      exact ⟨w, hw, hu, hb⟩

/-! ## 3. Days without a change of offset -/

/-- The zone keeps one offset through a local day. -/
def Zone.SteadyOn (tz : Zone) (day : Int) : Prop :=
  ∃ offset, (∀ v, tz.wallOffset (WallClock.combine day v) = offset) ∧
    ∀ u, WallClock.date (u + offset) = day → tz.offset u = offset

theorem fixed_steadyOn (offset : Int) (h : -dayMicros < offset ∧ offset < dayMicros) (day : Int) :
    (Zone.fixed offset h).SteadyOn day :=
  ⟨offset, fun _ => rfl, fun _ _ => rfl⟩

theorem date_of_between {day w : Int} {a b : TimeOfDay} (h₁ : WallClock.combine day a ≤ w)
    (h₂ : w ≤ WallClock.combine day b) : WallClock.date w = day := by
  have ha := a.nonneg
  have hb := b.lt_day
  simp only [WallClock.combine, WallClock.date, dayMicros] at *
  omega

theorem combine_le_iff {day w : Int} {v : TimeOfDay} (h : WallClock.date w = day) :
    WallClock.combine day v ≤ w ↔ v ≤ WallClock.time w := by
  have hw := WallClock.combine_date_time w
  rw [h] at hw
  show _ ↔ v.micros ≤ (WallClock.time w).micros
  simp only [WallClock.combine] at hw ⊢
  omega

theorem lt_combine_iff {day w : Int} {v : TimeOfDay} (h : WallClock.date w = day) :
    w < WallClock.combine day v ↔ WallClock.time w < v := by
  rw [← not_le, combine_le_iff h]
  exact not_le (a := v.micros) (b := (WallClock.time w).micros)

theorem combine_lt_iff {day w : Int} {v : TimeOfDay} (h : WallClock.date w = day) :
    WallClock.combine day v < w ↔ v < WallClock.time w := by
  have hw := WallClock.combine_date_time w
  rw [h] at hw
  show _ ↔ v.micros < (WallClock.time w).micros
  simp only [WallClock.combine] at hw ⊢
  omega

/-! ## 4. What `create_booking` tests -/

/-- The CHECK constraints on the intervals of slots and Blackouts. -/
structure Db.IntervalsProper (db : Db) : Prop where
  slots : ∀ s ∈ db.bookingSlots, s.startAt < s.endAt
  blackouts : ∀ b ∈ db.blackouts, b.startTime < b.endTime

/-- Every moment of the interval is open time of the room. -/
def InOpenTime (db : Db) (tz : Zone) (facilityId : UUID) (day : Int) (i : Interval) : Prop :=
  ∀ u, i.1 ≤ u → u < i.2 → Covers (openWindows db facilityId day tz) u

/-- The interval lasts the slot duration of the template it starts in. -/
def LongEnough (db : Db) (tz : Zone) (facilityId : UUID) (day : Int) (i : Interval) : Prop :=
  ∀ s, templateContainingStart (dayTemplates db facilityId day) i.1 tz = some s →
    s.slotDurationMinutes * minuteMicros ≤ i.2 - i.1

/-- **The tests of `create_booking`** on a line, as any caller's call makes them: the occupancy scan
finds nothing, and the room is not closed by a Blackout or outside its opening hours. -/
structure PassesCheckout (db : Db) (t : Int) (tz : Zone) (line : ResolvedBookingLine) : Prop where
  occupancy : ∀ context nowUtc allowOverride,
    ∃ e, (evaluateOneTimeOccupancy [line] context nowUtc tz allowOverride).eval db t = .ok e ∧
      e.conflicts = [] ∧ e.targets = []
  notClosed : (raiseIfRoomClosed line.facilityId line.startAt line.endAt tz true).eval db t = .ok ()

section OpenTime

variable {tz : Zone} {facilityId : UUID} {day : Int} {i : Interval}

/-- Where open time lies on a steady day: by the wall clock between the ends of a template, and
outside every Blackout. -/
theorem openTime_wall {offset : Int} (hwall : ∀ v, tz.wallOffset (WallClock.combine day v) = offset)
    {u : Int} (h : Covers (openWindows db facilityId day tz) u) :
    (∃ s ∈ dayTemplates db facilityId day, WallClock.combine day s.startTime ≤ u + offset ∧
      u + offset < WallClock.combine day s.endTime) ∧
    ∀ b ∈ activeBlackouts db facilityId day, ¬ (WallClock.combine day b.startTime ≤ u + offset ∧
      u + offset < WallClock.combine day b.endTime) := by
  obtain ⟨⟨s, hs, hu⟩, hb⟩ := covers_buildOpenWindows.mp h
  simp only [Holds, combineLocal, Zone.toUtc, hwall] at hu hb
  refine ⟨⟨s, hs, by omega, by omega⟩, fun b hmem hin => hb b hmem ⟨by omega, by omega⟩⟩

/-- An interval of open time on a steady day, by the wall clock. -/
structure OnWall (tz : Zone) (day offset : Int) (i : Interval) : Prop where
  start : tz.toLocal i.1 = i.1 + offset
  end_ : tz.toLocal i.2 = i.2 + offset
  startDate : WallClock.date (i.1 + offset) = day
  endDate : WallClock.date (i.2 + offset) = day

theorem InOpenTime.onWall {offset : Int}
    (hwall : ∀ v, tz.wallOffset (WallClock.combine day v) = offset)
    (hsteady : ∀ u, WallClock.date (u + offset) = day → tz.offset u = offset) (hi : i.1 < i.2)
    (h : InOpenTime db tz facilityId day i) : OnWall tz day offset i := by
  obtain ⟨⟨s, -, hs₁, hs₂⟩, -⟩ := openTime_wall hwall (h i.1 (le_refl _) hi)
  obtain ⟨⟨s', -, he₁, he₂⟩, -⟩ := openTime_wall hwall (h (i.2 - 1) (by omega) (by omega))
  have hstart : WallClock.date (i.1 + offset) = day := date_of_between hs₁ (le_of_lt hs₂)
  have hend : WallClock.date (i.2 + offset) = day :=
    date_of_between (a := s'.startTime) (b := s'.endTime) (by omega) (by omega)
  refine ⟨?_, ?_, hstart, hend⟩
  · rw [Zone.toLocal, hsteady _ hstart]
  · rw [Zone.toLocal, hsteady _ hend]

/-- **No Blackout overlaps open time.** -/
theorem hasBlackoutOverlap_eval {offset : Int}
    (hwall : ∀ v, tz.wallOffset (WallClock.combine day v) = offset) (hw : OnWall tz day offset i)
    (hi : i.1 < i.2) (hproper : db.IntervalsProper) (h : InOpenTime db tz facilityId day i) :
    (RoomBlackoutRepository.hasBlackoutOverlap facilityId i.1 i.2 tz).eval db t = .ok false := by
  have hnone : RoomBlackoutRepository.slotOverlapsBlackouts (activeBlackouts db facilityId day)
      (WallClock.time (i.1 + offset)) (WallClock.time (i.2 + offset)) = false := by
    rw [RoomBlackoutRepository.slotOverlapsBlackouts, List.any_eq_false]
    intro b hb hoverlap
    simp only [RoomBlackoutRepository.timeRangesOverlap, Bool.and_eq_true, decide_eq_true_eq]
      at hoverlap
    rw [← lt_combine_iff hw.startDate, ← combine_lt_iff hw.endDate] at hoverlap
    obtain ⟨hfirst, hlast⟩ := hoverlap
    have hmem : b ∈ db.blackouts := (List.mem_filter.mp ((List.mem_insertionSort _).mp hb)).1
    have hb' : b.startTime.micros < b.endTime.micros := hproper.blackouts b hmem
    -- the Blackout and the interval share the later of their starts
    have hin := h (max i.1 (WallClock.combine day b.startTime - offset)) (le_max_left _ _)
      (by omega)
    refine (openTime_wall hwall hin).2 b hb ⟨by omega, ?_⟩
    simp only [WallClock.combine] at hfirst ⊢
    omega
  have hdays : RoomBlackoutRepository.intervalDays (i.1 + offset) (i.2 + offset) = [day] := by
    simp [RoomBlackoutRepository.intervalDays, hw.startDate, hw.endDate]
  have hslot : RoomBlackoutRepository.daySlot (i.1 + offset) (i.2 + offset) day =
      (WallClock.time (i.1 + offset), WallClock.time (i.2 + offset)) := by
    simp [RoomBlackoutRepository.daySlot, hw.startDate, hw.endDate]
  rw [RoomBlackoutRepository.hasBlackoutOverlap, hw.start, hw.end_, hdays]
  refine (eval_bind_iff (ReadOnly.select _)).mpr ⟨activeBlackouts db facilityId day, rfl, ?_⟩
  rw [hslot, hnone]
  rfl

/-- **Open time lies in one opening window.** -/
theorem withinOpeningHours {offset : Int}
    (hwall : ∀ v, tz.wallOffset (WallClock.combine day v) = offset) (hw : OnWall tz day offset i)
    (hi : i.1 < i.2) (h : InOpenTime db tz facilityId day i)
    (hlong : LongEnough db tz facilityId day i) :
    memberIntervalWithinOpeningHours i.1 i.2 (activeTemplates db facilityId (Date.weekday day)) tz =
      true := by
  have hday : tz.localDate i.1 = day := by rw [Zone.localDate, hw.start, hw.startDate]
  obtain ⟨⟨s, hs, hs₁, hs₂⟩, -⟩ := openTime_wall hwall (h i.1 (le_refl _) hi)
  unfold memberIntervalWithinOpeningHours
  rw [if_neg (by omega)]
  dsimp only
  rw [hday]
  split
  · -- the interval starts in a template
    rename_i hnone
    have hout := List.find?_eq_none.mp hnone s hs
    rw [hw.start] at hout
    simp only [Bool.and_eq_true, decide_eq_true_eq] at hout
    exact absurd ⟨(combine_le_iff hw.startDate).mp hs₁, (lt_combine_iff hw.startDate).mp hs₂⟩ hout
  · rename_i start hstart
    rw [if_neg (not_lt.mpr (hlong start hstart)), hw.start, hw.end_]
    -- the templates cover the interval by the wall clock, hence one merged window holds it
    obtain ⟨hsep, hmerged⟩ := mergeOpenWindows_spec
      (((dayTemplates db facilityId day).filter fun s => s.startTime < s.endTime).map fun s =>
        (WallClock.combine day s.startTime, WallClock.combine day s.endTime))
    obtain ⟨w, hwin, hw₁, hw₂⟩ := hsep.within (s := i.1 + offset) (e := i.2 + offset) (by omega)
      fun v hv₁ hv₂ => by
        obtain ⟨⟨s, hs, hs₁, hs₂⟩, -⟩ :=
          openTime_wall hwall (h (v - offset) (by omega) (by omega))
        refine (hmerged v).mpr ⟨_, List.mem_map_of_mem (List.mem_filter.mpr ⟨hs, ?_⟩), ?_⟩
        · have hlt : s.startTime.micros < s.endTime.micros := by
            simp only [WallClock.combine] at hs₁ hs₂
            omega
          exact decide_eq_true hlt
        · exact ⟨by omega, by omega⟩
    exact List.any_eq_true.mpr ⟨w, hwin, by simp [hw₁, hw₂]⟩

/-- **Open time passes the closing tests.** -/
theorem openTime_notClosed (hsteady : tz.SteadyOn day) (hproper : db.IntervalsProper)
    (hi : i.1 < i.2) (h : InOpenTime db tz facilityId day i)
    (hlong : LongEnough db tz facilityId day i) :
    (raiseIfRoomClosed facilityId i.1 i.2 tz true).eval db t = .ok () := by
  obtain ⟨offset, hwall, hoffset⟩ := hsteady
  have hw := h.onWall hwall hoffset hi
  have hday : tz.localDate i.1 = day := by rw [Zone.localDate, hw.start, hw.startDate]
  refine (eval_bind_iff (hasBlackoutOverlap_readOnly _ _ _ _)).mpr
    ⟨false, hasBlackoutOverlap_eval hwall hw hi hproper h, ?_⟩
  refine (eval_bind_iff (ReadOnly.raiseIf _ _)).mpr ⟨(), rfl, ?_⟩
  refine (eval_bind_iff (ReadOnly.select _)).mpr
    ⟨activeTemplates db facilityId (Date.weekday day), by rw [hday]; rfl, ?_⟩
  rw [raiseIfOutsideOpeningHours, withinOpeningHours hwall hw hi h hlong]
  rfl

end OpenTime

/-! ## 5. What the Timetable reports as free -/

/-- The interval lies in a run of consecutive Available cells: from the start of one to the end of
another, with nothing but Available cells between. -/
def InAvailableRun (item : RoomAvailability) (i : Interval) : Prop :=
  ∃ first ∈ item.cells, ∃ last ∈ item.cells, first.startAt ≤ i.1 ∧ i.2 ≤ last.endAt ∧
    ∀ c ∈ item.cells, first.startAt ≤ c.startAt → c.endAt ≤ last.endAt → c.state = .available

/-- The interval lies in one of the free intervals of the morning or the afternoon. -/
def InFreeInterval (item : RoomAvailability) (i : Interval) : Prop :=
  ∃ free ∈ item.availability.am ++ item.availability.pm, free.1 ≤ i.1 ∧ i.2 ≤ free.2

/-- **The free intervals hold Available cells only**: a cell that meets one of them is Available. -/
theorem mergeFreeFrom_available (hi : Int) : ∀ (lo : Int) {l : List (Interval × TimetableCellState)}
    {current : Option Interval}, l.Pairwise (fun p q => p.1.2 ≤ q.1.1) →
    (∀ p ∈ l, lo ≤ p.1.1 ∧ p.1.1 < p.1.2 ∧ p.1.2 ≤ hi) →
    (∀ i, current = some i → lo ≤ i.1 ∧ i.2 ≤ hi ∧ ∀ p ∈ l, i.2 ≤ p.1.1) →
    ∀ free ∈ mergeFreeFrom current l, lo ≤ free.1 ∧ free.2 ≤ hi ∧
      ∀ p ∈ l, intervalsOverlap free p.1 = true → p.2 = .available
  | lo, [], current, _, _, hcurrent, free, hfree => by
    have := hcurrent free (by simpa [mergeFreeFrom, eq_comm] using hfree)
    exact ⟨this.1, this.2.1, nofun⟩
  | lo, (cell, state) :: l, current, hsorted, hcells, hcurrent, free, hfree => by
    have hcell : lo ≤ cell.1 ∧ cell.1 < cell.2 ∧ cell.2 ≤ hi := hcells _ List.mem_cons_self
    have hl := fun p hp => hcells p (List.mem_cons_of_mem _ hp)
    have hlater : ∀ p ∈ l, cell.2 ≤ p.1.1 := (List.pairwise_cons.mp hsorted).1
    unfold mergeFreeFrom at hfree
    split at hfree
    · rcases List.mem_append.mp hfree with hfree | hfree
      · -- the run that ends here stops before this cell
        obtain ⟨hlo, hhi, hbefore⟩ := hcurrent free (by simpa using hfree)
        refine ⟨hlo, hhi, fun p hp hmeets => ?_⟩
        have := hbefore p hp
        simp only [intervalsOverlap, Bool.and_eq_true, decide_eq_true_eq] at hmeets
        omega
      · obtain ⟨hlo, hhi, hall⟩ := mergeFreeFrom_available hi cell.2 hsorted.of_cons
          (fun p hp => ⟨hlater p hp, (hl p hp).2⟩) (fun i hi => by cases hi) free hfree
        refine ⟨by omega, hhi, fun p hp hmeets => ?_⟩
        rcases List.mem_cons.mp hp with rfl | hp
        · simp only [intervalsOverlap, Bool.and_eq_true, decide_eq_true_eq] at hmeets
          omega
        · exact hall p hp hmeets
    · rename_i hstate
      obtain ⟨hlo, hhi, hall⟩ := mergeFreeFrom_available hi lo hsorted.of_cons hl (fun i hi => by
        obtain rfl := Option.some.inj hi
        refine ⟨?_, hcell.2.2, hlater⟩
        cases current with
        | none => exact hcell.1
        | some i => exact (hcurrent i rfl).1) free hfree
      refine ⟨hlo, hhi, fun p hp hmeets => ?_⟩
      rcases List.mem_cons.mp hp with rfl | hp
      · exact not_not.mp hstate
      · exact hall p hp hmeets

theorem mem_dayCellBounds_iff {day : Int} {tz : Zone} {cell : Interval} :
    cell ∈ dayCellBounds day tz ↔ ∃ k : Nat, k < 48 ∧ cell.1 = tz.startOfDay day + 1800000000 * k ∧
      cell.2 = cell.1 + 1800000000 := by
  simp only [dayCellBounds, timetableCellsPerDay, timetableCellMinutes, minuteMicros, List.mem_map,
    List.mem_range]
  constructor
  · rintro ⟨k, hk, rfl⟩
    exact ⟨k, hk, rfl, by omega⟩
  · rintro ⟨k, hk, h₁, h₂⟩
    exact ⟨k, hk, Prod.ext h₁.symm (by omega)⟩

theorem dayCellBounds_pairwise (day : Int) (tz : Zone) :
    (dayCellBounds day tz).Pairwise fun a b => a.2 ≤ b.1 := by
  refine List.Pairwise.map _ (fun j k hjk => ?_) List.pairwise_lt_range
  simp only [timetableCellMinutes, minuteMicros]
  omega

section Reported

variable {d : DayView} {room : FacilityRoom} {templates : List RoomSlotTemplate}
  {windows : List Interval} {occupancies : List OccupancyInterval} {i : Interval}

/-- **What is reported as free meets Available cells only**, and lies within the day's cells. -/
theorem available_of_reported
    (h : InAvailableRun (d.roomItem room templates windows occupancies) i ∨
      InFreeInterval (d.roomItem room templates windows occupancies) i) :
    d.tz.startOfDay d.day ≤ i.1 ∧ i.2 ≤ d.tz.startOfDay d.day + dayMicros ∧
      ∀ cell ∈ dayCellBounds d.day d.tz, intervalsOverlap i cell = true →
        classifyCell cell windows occupancies d.isPriority d.nowUtc = .available := by
  rcases h with ⟨first, hfirst, last, hlast, hstart, hend, hrun⟩ | ⟨free, hfree, hstart, hend⟩
  · have hf := mem_dayCellBounds_iff.mp (mem_roomItem_cells hfirst).1
    have hl := mem_dayCellBounds_iff.mp (mem_roomItem_cells hlast).1
    obtain ⟨f, hf48, hf₁, hf₂⟩ := hf
    obtain ⟨m, hm48, hm₁, hm₂⟩ := hl
    dsimp only at hf₁ hf₂ hm₁ hm₂
    simp only [dayMicros]
    refine ⟨by omega, by omega, fun cell hcell hmeets => ?_⟩
    obtain ⟨k, hk48, hk₁, hk₂⟩ := mem_dayCellBounds_iff.mp hcell
    obtain ⟨c, hc, rfl⟩ : ∃ c ∈ (d.roomItem room templates windows occupancies).cells,
        (c.startAt, c.endAt) = cell := exists_roomItem_cell hcell
    simp only [intervalsOverlap, Bool.and_eq_true, decide_eq_true_eq] at hmeets
    rw [← (mem_roomItem_cells hc).2]
    exact hrun c hc (by omega) (by omega)
  · have hmem : free ∈ mergeFreeFrom none ((dayCellBounds d.day d.tz).map fun cell =>
        (cell, classifyCell cell windows occupancies d.isPriority d.nowUtc)) := by
      rw [List.map_prod_left_eq_zip]
      rcases List.mem_append.mp hfree with hfree | hfree
      · exact (List.mem_filter.mp hfree).1
      · exact (List.mem_filter.mp hfree).1
    obtain ⟨hlo, hhi, hall⟩ := mergeFreeFrom_available
      (d.tz.startOfDay d.day + dayMicros) (d.tz.startOfDay d.day)
      ((dayCellBounds_pairwise d.day d.tz).map _ fun _ _ hab => hab) (fun p hp => by
        obtain ⟨cell, hcell, rfl⟩ := List.mem_map.mp hp
        have := mem_dayCellBounds hcell
        dsimp only
        omega) (fun i hi => by cases hi) free hmem
    refine ⟨by omega, by omega, fun cell hcell hmeets => ?_⟩
    refine hall (cell, _) (List.mem_map_of_mem hcell) ?_
    simp only [intervalsOverlap, Bool.and_eq_true, decide_eq_true_eq] at hmeets ⊢
    omega

/-- **Nobody occupies open time that is reported as free.** -/
theorem occupyingRows_empty (hproper : db.IntervalsProper) (hslots : db.SlotsWithin)
    (hshape : occupancies.map OccupancyInterval.shape =
      (daySlots db t room.id d.day d.tz).map ownShape)
    (hfree : InAvailableRun (d.roomItem room templates (openWindows db room.id d.day d.tz)
        occupancies) i ∨
      InFreeInterval (d.roomItem room templates (openWindows db room.id d.day d.tz) occupancies) i)
    (hi : i.1 < i.2) (hopen : InOpenTime db d.tz room.id d.day i) :
    occupyingRows db t room.id i.1 i.2 = [] := by
  obtain ⟨hlo, hhi, hall⟩ := available_of_reported hfree
  rw [occupyingRows_eq, List.filter_eq_nil_iff]
  intro r hr hmeets
  simp only [intervalsOverlap, Bool.and_eq_true, decide_eq_true_eq] at hmeets
  have hin := hslots.occupying hr
  have hslot : (slotInterval r).1 < (slotInterval r).2 := by
    obtain ⟨s, hs, hr'⟩ := List.mem_flatMap.mp hr
    obtain ⟨b, -, rfl⟩ := List.mem_map.mp hr'
    exact hproper.slots s (List.mem_filter.mp hs).1
  -- a moment of both, and the cell and the window it falls in
  obtain ⟨u, hu⟩ : ∃ u, u = max i.1 (slotInterval r).1 := ⟨_, rfl⟩
  obtain ⟨w, hw, hwu⟩ := hopen u (by omega) (by omega)
  obtain ⟨cell, hcell, hcu⟩ : ∃ cell ∈ dayCellBounds d.day d.tz, Holds cell u := by
    simp only [dayMicros] at hhi
    refine ⟨(d.tz.startOfDay d.day + 1800000000 * ((u - d.tz.startOfDay d.day) / 1800000000),
      d.tz.startOfDay d.day + 1800000000 * ((u - d.tz.startOfDay d.day) / 1800000000) + 1800000000),
      mem_dayCellBounds_iff.mpr
        ⟨((u - d.tz.startOfDay d.day) / 1800000000).toNat, by omega, by dsimp only; omega, rfl⟩, ?_⟩
    simp only [Holds]
    omega
  simp only [Holds] at hwu hcu
  have hcells := hall cell hcell (by
    simp only [intervalsOverlap, Bool.and_eq_true, decide_eq_true_eq]
    omega)
  have hopenPart : meetsOpen (openWindows db room.id d.day d.tz) cell (ownInterval r) = true :=
    meetsOpen_iff.mpr ⟨w, hw, by omega, by omega, by omega⟩
  have hne : clipInterval cell (openWindows db room.id d.day d.tz) ≠ [] := by
    obtain ⟨part, hpart, -⟩ := List.any_eq_true.mp hopenPart
    exact List.ne_nil_of_mem hpart
  have hday : r ∈ daySlots db t room.id d.day d.tz := mem_daySlots hcell hr (by
    simp only [intervalsOverlap, Bool.and_eq_true, decide_eq_true_eq]
    omega)
  have hoccupied : (classifyCell cell (openWindows db room.id d.day d.tz) occupancies d.isPriority
      d.nowUtc).isOccupied = true :=
    (classifyCell_isOccupied hne).mpr ((exists_occupancy_iff hshape
      fun i => meetsOpen (openWindows db room.id d.day d.tz) cell i = true).mpr ⟨r, hday, hopenPart⟩)
  rw [hcells] at hoccupied
  cases hoccupied

end Reported

/-- A scan that meets no occupant finds neither a conflict nor a target. -/
theorem evaluateOneTimeOccupancy_free {line : ResolvedBookingLine}
    (h : occupyingRows db t line.facilityId line.startAt line.endAt = [])
    (context : Option MinistryProposalContext) (nowUtc : Int) (tz : Zone) (allowOverride : Bool) :
    (evaluateOneTimeOccupancy [line] context nowUtc tz allowOverride).eval db t = .ok {} := by
  have hline : ∀ canOverride, (foldEach [line] ({} : OccupancyScan)
      (scanLine context canOverride nowUtc)).eval db t = .ok {} := by
    intro canOverride
    refine (eval_bind_iff (scanLine_readOnly _ _ _ _ _)).mpr ⟨{}, ?_, rfl⟩
    refine (eval_bind_iff (ReadOnly.select _)).mpr ⟨[], ?_, rfl⟩
    simp [h]
  exact (eval_bind_iff (ReadOnly.foldEach (scanLine_readOnly _ _ _) _ _)).mpr
    ⟨{}, hline _, rfl⟩

/-! ## 6. Soundness -/

/-- **What the Timetable offers can be booked**: on a day without a change of offset, an interval
of open time within a run of Available cells or a free interval of an item, as long as the slot
duration of the template it starts in, passes the tests of `create_booking` in the same state. -/
theorem timetable_sound (app : App) (r : Request) (command : RoomAvailabilityQueryCommand)
    {db db' : Db} {t : Int} {result : RoomAvailabilityList} (hproper : db.IntervalsProper)
    (hslots : db.SlotsWithin)
    (h : (getRoomsAvailability app r command).exec db t = .ok (result, db')) :
    ∃ tz, (SettingService.getFacilityTimezone app).eval db t = .ok tz ∧
      (tz.SteadyOn command.targetDate → ∀ item ∈ result.items, ∀ i : Interval, i.1 < i.2 →
        InAvailableRun item i ∨ InFreeInterval item i →
        InOpenTime db tz item.id command.targetDate i →
        LongEnough db tz item.id command.targetDate i →
        ∀ sequence, PassesCheckout db t tz ⟨item.id, i.1, i.2, sequence⟩) := by
  obtain ⟨d, htz, hday, -, -, hitems⟩ := getRoomsAvailability_items h
  refine ⟨d.tz, htz, fun hsteady item hitem i hi hfree hopen hlong sequence => ?_⟩
  obtain ⟨room, occupancies, hshape, rfl⟩ := hitems item hitem
  rw [← hday] at hsteady hopen hlong
  refine ⟨fun context nowUtc allowOverride => ⟨{}, ?_, rfl, rfl⟩, ?_⟩
  · exact evaluateOneTimeOccupancy_free
      (occupyingRows_empty hproper hslots hshape hfree hi hopen) _ _ _ _
  · exact openTime_notClosed hsteady hproper hi hopen hlong

/-- The item shows the room from the start of one Available cell to the end of another. -/
def showsRun (i : Interval) (item : RoomAvailability) : Bool :=
  item.id = 3 && item.cells.any (fun c => c.startAt = i.1) &&
    item.cells.any (fun c => c.endAt = i.2) &&
    item.cells.all fun c => !(i.1 ≤ c.startAt && c.endAt ≤ i.2) || c.state = .available

theorem showsRun_inAvailableRun {i : Interval} {item : RoomAvailability}
    (h : showsRun i item = true) : item.id = 3 ∧ InAvailableRun item i := by
  simp only [showsRun, Bool.and_eq_true, decide_eq_true_eq, List.any_eq_true, List.all_eq_true,
    Bool.or_eq_true, Bool.not_eq_true'] at h
  obtain ⟨⟨⟨hid, first, hfirst, hstart⟩, last, hlast, hend⟩, hall⟩ := h
  refine ⟨hid, first, hfirst, last, hlast, le_of_eq hstart, le_of_eq hend.symm, fun c hc h₁ h₂ => ?_⟩
  rcases hall c hc with hout | havailable
  · rw [hstart] at h₁
    rw [hend] at h₂
    simp [h₁, h₂] at hout
  · exact havailable

/-- A look at day 10 that shows a run. -/
theorem exists_shownRun (db : Db) (i : Interval)
    (h : (match (getRoomsAvailability App.utc (.numbered 8 200) lookAtDayTen).exec db 60 with
      | .ok (result, _) => result.items.any (showsRun i)
      | .error _ => false) = true) :
    ∃ result db', (getRoomsAvailability App.utc (.numbered 8 200) lookAtDayTen).exec db 60 =
      .ok (result, db') ∧ ∃ item ∈ result.items, item.id = 3 ∧ InAvailableRun item i := by
  cases he : (getRoomsAvailability App.utc (.numbered 8 200) lookAtDayTen).exec db 60 with
  | error e => rw [he] at h; cases h
  | ok out =>
    rw [he] at h
    obtain ⟨item, hitem, hshows⟩ := List.any_eq_true.mp h
    exact ⟨out.1, out.2, rfl, item, hitem, showsRun_inAvailableRun hshows⟩

instance (db : Db) : Decidable db.IntervalsProper :=
  decidable_of_iff ((∀ s ∈ db.bookingSlots, s.startAt < s.endAt) ∧
    ∀ b ∈ db.blackouts, b.startTime < b.endTime) ⟨fun h => ⟨h.1, h.2⟩, fun h => ⟨h.slots, h.blackouts⟩⟩

/-- The afternoon of day 10, from one to three. -/
def oneToThree : Interval :=
  (WallClock.combine 10 .noon + hourMicros, WallClock.combine 10 .noon + 3 * hourMicros)

/-- A free afternoon beside a Booking at noon. -/
theorem timetable_sound_afternoon :
    PassesCheckout (Db.bookedBy (bookNoon 10)) 60 Zone.utc ⟨3, oneToThree.1, oneToThree.2, 0⟩ := by
  obtain ⟨result, db', h, item, hitem, hid, hrun⟩ :=
    exists_shownRun (Db.bookedBy (bookNoon 10)) oneToThree (by decide +kernel)
  obtain ⟨tz, htz, hsound⟩ := timetable_sound App.utc _ lookAtDayTen (by decide +kernel)
    (by decide +kernel) h
  obtain rfl := utc_of_eval htz
  have hwindow : openWindows (Db.bookedBy (bookNoon 10)) 3 10 Zone.utc =
      [(WallClock.combine 10 .midnight, WallClock.combine 10 .endOfDay)] := by decide +kernel
  have hduration : (templateContainingStart (dayTemplates (Db.bookedBy (bookNoon 10)) 3 10)
      oneToThree.1 Zone.utc).map RoomSlotTemplate.slotDurationMinutes = some 60 := by decide +kernel
  have := hsound (fixed_steadyOn _ _ _) item hitem oneToThree (by decide) (.inl hrun)
  rw [hid] at this
  refine this (fun u h₁ h₂ => ?_) (fun s hs => ?_) 0
  · show Covers (openWindows (Db.bookedBy (bookNoon 10)) 3 10 Zone.utc) u
    rw [hwindow]
    simp only [covers_cons, covers_nil, or_false, Holds]
    exact ⟨le_trans (by decide) h₁, lt_of_lt_of_le h₂ (by decide)⟩
  · change templateContainingStart (dayTemplates (Db.bookedBy (bookNoon 10)) 3 10) oneToThree.1
      Zone.utc = some s at hs
    rw [hs, Option.map_some, Option.some.injEq] at hduration
    rw [hduration]
    decide

/-- All that is reported as free can be booked, partly open cells included. -/
def TimetableSound (app : App) : Prop :=
  ∀ (r : Request) (command : RoomAvailabilityQueryCommand) (db db' : Db) (t : Int)
    (result : RoomAvailabilityList), db.IntervalsProper → db.SlotsWithin →
    (getRoomsAvailability app r command).exec db t = .ok (result, db') →
    ∃ tz, (SettingService.getFacilityTimezone app).eval db t = .ok tz ∧
      ∀ item ∈ result.items, ∀ i : Interval, i.1 < i.2 → t < i.1 →
        InAvailableRun item i ∨ InFreeInterval item i →
        LongEnough db tz item.id command.targetDate i →
        ∀ sequence, PassesCheckout db t tz ⟨item.id, i.1, i.2, sequence⟩

/-- The room with opening hours that end at a quarter to three. -/
def Db.closesEarly : Db :=
  { Db.oneRoom with
    slotTemplates := [{ id := 1, facilityId := 3, daysOfWeekMask := 127, startTime := .midnight
                        endTime := .ofHms 14 45 0 (by decide), slotDurationMinutes := 60 }] }

/-- **A partly open cell is Available as a whole**: the half hour in which the room closes is
offered, and a Booking to its end is outside the opening hours. -/
theorem timetable_not_sound : ¬ TimetableSound App.utc := by
  intro hsound
  obtain ⟨result, db', h, item, hitem, hid, hrun⟩ :=
    exists_shownRun Db.closesEarly oneToThree (by decide +kernel)
  obtain ⟨tz, htz, hall⟩ := hsound _ _ _ _ _ _ (by decide +kernel) (by decide +kernel) h
  obtain rfl := utc_of_eval htz
  have hduration : (templateContainingStart (dayTemplates Db.closesEarly 3 10) oneToThree.1
      Zone.utc).map RoomSlotTemplate.slotDurationMinutes = some 60 := by decide +kernel
  have hclosed : ((raiseIfRoomClosed 3 oneToThree.1 oneToThree.2 Zone.utc true).eval
      Db.closesEarly 60).isOk = false := by decide +kernel
  have hpasses := hall item hitem oneToThree (by decide) (by decide) (.inl hrun)
  rw [hid] at hpasses
  have hok := (hpasses (fun s hs => by
    change templateContainingStart (dayTemplates Db.closesEarly 3 10) oneToThree.1
      Zone.utc = some s at hs
    rw [hs, Option.map_some, Option.some.injEq] at hduration
    rw [hduration]
    decide) 0).notClosed
  change (raiseIfRoomClosed 3 oneToThree.1 oneToThree.2 Zone.utc true).eval Db.closesEarly 60 =
    .ok () at hok
  rw [hok] at hclosed
  cases hclosed

end NewlifeCore
