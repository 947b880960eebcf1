import NewlifeCore.Facility.OpenWindows
import NewlifeCore.ZoneTable

/-!
# The opening-hours test is containment

`member_interval_within_opening_hours` merges the templates of a day by the wall clock and looks for
one merged window that holds the interval.  On a day without a change of the clocks that is to say
that the templates cover the interval throughout, however they are ordered and where they touch.
-/

namespace NewlifeCore

open Intervals

/-! ## 1. Merging keeps the order -/

theorem mergeFrom_sorted : ∀ {rest : List Interval} {p : Interval},
    (∀ w ∈ rest, p.1 ≤ w.1) → rest.Pairwise (fun a b => a.1 ≤ b.1) →
      (mergeFrom p rest).Pairwise fun a b => a.1 ≤ b.1
  | [], _, _, _ => List.pairwise_singleton _ _
  | (startAt, endAt) :: rest, p, hprev, hsorted => by
    have hrest : ∀ w ∈ rest, p.1 ≤ w.1 := fun w hw => hprev w (List.mem_cons_of_mem _ hw)
    have hlater := (List.pairwise_cons.mp hsorted).1
    unfold mergeFrom
    split
    · exact mergeFrom_sorted (p := (p.1, max p.2 endAt)) hrest hsorted.of_cons
    · refine List.pairwise_cons.mpr ⟨fun w hw => ?_, mergeFrom_sorted hlater hsorted.of_cons⟩
      exact le_trans (hprev _ List.mem_cons_self) (mergeFrom_start hlater hsorted.of_cons w hw)

theorem mergeOpenWindows_sorted (windows : List Interval) :
    (mergeOpenWindows windows).Pairwise fun a b => a.1 ≤ b.1 := by
  have hsorted := List.pairwise_insertionSort (fun a b : Interval => a.1 ≤ b.1) windows
  unfold mergeOpenWindows
  cases hs : windows.insertionSort fun a b : Interval => a.1 ≤ b.1 with
  | nil => exact List.Pairwise.nil
  | cons first rest =>
    rw [hs] at hsorted
    exact mergeFrom_sorted (List.pairwise_cons.mp hsorted).1 hsorted.of_cons

/-! ## 2. A day without a change -/

section

variable {tz : Zone} {day offset : Int} {templates : List RoomSlotTemplate} {u startAt endAt : Int}

theorem holds_span_iff (h : tz.NoChangeOn day offset) {s : RoomSlotTemplate} :
    Holds (s.span day tz) u ↔ WallClock.combine day s.startTime ≤ u + offset ∧
      u + offset < WallClock.combine day s.endTime := by
  simp only [Holds, RoomSlotTemplate.span, localSpan, AvailabilityService.combineLocal, Zone.toUtc,
    h.wall _ (WallClock.date_combine _ _)]
  omega

theorem toLocal_of_date (h : tz.NoChangeOn day offset) (hu : WallClock.date (u + offset) = day) :
    tz.toLocal u = u + offset := by
  rw [Zone.toLocal, h.kept u hu]

/-- The template that the wall clock of the start lies in is the one whose span holds the start. -/
theorem contains_start_iff (h : tz.NoChangeOn day offset) (hstart : tz.localDate startAt = day)
    {s : RoomSlotTemplate} :
    (decide (s.startTime ≤ WallClock.time (tz.toLocal startAt)) &&
      decide (WallClock.time (tz.toLocal startAt) < s.endTime)) = true ↔
      Holds (s.span day tz) startAt := by
  have hdate := h.shown startAt hstart
  rw [Bool.and_eq_true, decide_eq_true_eq, decide_eq_true_eq, toLocal_of_date h hdate,
    ← combine_le_iff hdate, ← lt_combine_iff hdate, holds_span_iff h]

/-- The windows that the test merges. -/
def wallWindows (day : Int) (applicable : List RoomSlotTemplate) : List Interval :=
  (applicable.filter fun t => t.startTime < t.endTime).map fun t =>
    (WallClock.combine day t.startTime, WallClock.combine day t.endTime)

/-- The wall-clock windows cover what the spans cover. -/
theorem covers_wallWindows (h : tz.NoChangeOn day offset) :
    Covers (wallWindows day templates) (u + offset) ↔
      Covers (templates.map fun s => s.span day tz) u := by
  constructor
  · rintro ⟨w, hw, hu⟩
    obtain ⟨s, hs, rfl⟩ := List.mem_map.mp hw
    exact ⟨_, List.mem_map_of_mem (List.mem_filter.mp hs).1, (holds_span_iff h).mpr hu⟩
  · rintro ⟨i, hi, hu⟩
    obtain ⟨s, hs, rfl⟩ := List.mem_map.mp hi
    have hwall := (holds_span_iff h).mp hu
    refine ⟨_, List.mem_map_of_mem (List.mem_filter.mpr ⟨hs, ?_⟩), hwall⟩
    have hlt : s.startTime.micros < s.endTime.micros := by
      simp only [WallClock.combine] at hwall
      omega
    exact decide_eq_true hlt

/-- A wall-clock window ends within its day. -/
theorem date_of_covers {w : Int} (h : Covers (wallWindows day templates) w) :
    w + 1 < (day + 1) * dayMicros := by
  obtain ⟨i, hi, -, hend⟩ := h
  obtain ⟨s, -, rfl⟩ := List.mem_map.mp hi
  have hday := s.endTime.lt_day
  simp only [WallClock.combine, dayMicros] at *
  omega

/-- **One merged window holds the interval exactly when the spans cover it.** -/
theorem exists_window_iff (h : tz.NoChangeOn day offset) (hstart : tz.localDate startAt = day)
    (hlt : startAt < endAt) :
    (∃ w ∈ mergeOpenWindows (wallWindows day templates), w.1 ≤ tz.toLocal startAt ∧
        tz.toLocal endAt ≤ w.2) ↔
      ∀ u, startAt ≤ u → u < endAt → Covers (templates.map fun s => s.span day tz) u := by
  obtain ⟨hsep, hmerged⟩ := mergeOpenWindows_spec (wallWindows day templates)
  have hdate := h.shown startAt hstart
  rw [toLocal_of_date h hdate]
  constructor
  · rintro ⟨w, hw, hws, hwe⟩ u hsu hue
    have hinDay := (WallClock.date_eq_iff.mp hdate).2
    rcases lt_trichotomy (WallClock.date (endAt + offset)) day with hearly | heq | hlate
    · have hwalls : startAt + offset ≤ endAt + offset := by omega
      have hle := WallClock.date_le_of_le hwalls
      omega
    · rw [toLocal_of_date h heq] at hwe
      rw [← covers_wallWindows h, ← hmerged]
      exact ⟨w, hw, by omega, by omega⟩
    · -- the end is shown on a later day, and no window reaches past its own
      have hafter := WallClock.lt_date_iff.mp (h.later endAt hlate)
      have hlast : Covers (wallWindows day templates) (w.2 - 1) :=
        (hmerged _).mp ⟨w, hw, by omega, by omega⟩
      have hend := date_of_covers hlast
      omega
  · intro hcovers
    have hend : WallClock.date (endAt + offset) = day := by
      have hlast := (covers_wallWindows h).mpr (hcovers (endAt - 1) (by omega) (by omega))
      have hbound := date_of_covers hlast
      have hinDay := (WallClock.date_eq_iff.mp hdate).1
      exact WallClock.date_eq_iff.mpr ⟨by omega, by omega⟩
    rw [toLocal_of_date h hend]
    refine hsep.within (by omega) fun v hv₁ hv₂ => (hmerged v).mpr ?_
    have hv := (covers_wallWindows h).mpr (hcovers (v - offset) (by omega) (by omega))
    rwa [Int.sub_add_cancel] at hv

/-- Of templates that are apart, one at most holds an instant. -/
theorem apart_unique (hapart : Apart (templates.map fun s => s.span day tz))
    {s s' : RoomSlotTemplate} (hs : s ∈ templates) (hs' : s' ∈ templates)
    (hu : Holds (s.span day tz) u) (hu' : Holds (s'.span day tz) u) : s = s' := by
  by_contra hne
  have happart := List.pairwise_map.mp hapart
  have : Std.Symm fun a b : RoomSlotTemplate =>
      ∀ u, ¬ (Holds (a.span day tz) u ∧ Holds (b.span day tz) u) :=
    ⟨fun _ _ hab v hv => hab v hv.symm⟩
  exact happart.forall hs hs' hne u ⟨hu, hu'⟩

end

/-! ## 3. The test -/

/-- **The test says that the templates cover the interval**, and that it lasts the slot duration of
the template it starts in; and merging gives windows in order, apart, that cover the same time. -/
theorem openingHours_containment :
    (∀ (tz : Zone) (day offset : Int), tz.NoChangeOn day offset →
      ∀ templates : List RoomSlotTemplate,
        Apart ((filterApplicableTemplates templates day).map fun s => s.span day tz) →
      ∀ startAt endAt : Int, tz.localDate startAt = day →
        (memberIntervalWithinOpeningHours startAt endAt templates tz = true ↔
          startAt < endAt ∧
          (∀ u, startAt ≤ u → u < endAt →
            Covers ((filterApplicableTemplates templates day).map fun s => s.span day tz) u) ∧
          ∃ s ∈ filterApplicableTemplates templates day, Holds (s.span day tz) startAt ∧
            s.slotDurationMinutes * minuteMicros ≤ endAt - startAt)) ∧
    ∀ windows : List Interval,
      (mergeOpenWindows windows).Pairwise (fun a b => a.1 ≤ b.1) ∧
      Separated (mergeOpenWindows windows) ∧
      ∀ u, Covers (mergeOpenWindows windows) u ↔ Covers windows u := by
  refine ⟨fun tz day offset h templates hapart startAt endAt hstart => ?_, fun windows =>
    ⟨mergeOpenWindows_sorted windows, mergeOpenWindows_spec windows⟩⟩
  unfold memberIntervalWithinOpeningHours
  by_cases hle : endAt ≤ startAt
  · rw [if_pos hle]
    exact iff_of_false (by simp) fun hlt => absurd hlt.1 (not_lt.mpr hle)
  have hlt := not_le.mp hle
  rw [if_neg hle, hstart]
  dsimp only
  split
  · -- no template holds the start
    rename_i hnone
    refine iff_of_false (by simp) ?_
    rintro ⟨-, -, s, hs, hu, -⟩
    exact List.find?_eq_none.mp hnone s hs ((contains_start_iff h hstart).mpr hu)
  · rename_i s hfind
    rw [templateContainingStart] at hfind
    have hs := List.mem_of_find?_eq_some hfind
    have hcontains := List.find?_some hfind
    have hu := (contains_start_iff h hstart).mp hcontains
    split
    · rename_i hshort
      refine iff_of_false (by simp) ?_
      rintro ⟨-, -, s', hs', hu', hlong⟩
      obtain rfl := apart_unique hapart hs hs' hu hu'
      omega
    · rename_i hlong
      have hwindow : (∃ w ∈ mergeOpenWindows (wallWindows day (filterApplicableTemplates templates
          day)), w.1 ≤ tz.toLocal startAt ∧ tz.toLocal endAt ≤ w.2) ↔ _ :=
        exists_window_iff h hstart hlt
      simp only [List.any_eq_true, Bool.and_eq_true, decide_eq_true_eq]
      constructor
      · intro hany
        exact ⟨hlt, hwindow.mp hany, s, hs, hu, not_lt.mp hlong⟩
      · rintro ⟨-, hcovers, -⟩
        exact hwindow.mpr hcovers

/-- The room is open in the afternoon. -/
def afternoonTemplate : RoomSlotTemplate :=
  { morningTemplate with id := 2, startTime := .noon, endTime := .endOfDay }

/-- The clocks go forward an hour at two in the morning of the first day. -/
def summerTime : ZoneTable :=
  ⟨0, [⟨2 * hourMicros, hourMicros⟩], Zone.zero_bounded, by decide, by decide⟩

/-- An interval across two templates that touch, on the day after the clocks went forward. -/
theorem openingHours_touching :
    memberIntervalWithinOpeningHours (33 * hourMicros) (37 * hourMicros)
      [afternoonTemplate, morningTemplate] summerTime.toZone = true := by
  have hmorning : morningTemplate.span 1 summerTime.toZone =
      (23 * hourMicros, 35 * hourMicros) := by
    decide
  have hafternoon : afternoonTemplate.span 1 summerTime.toZone =
      (35 * hourMicros, 47 * hourMicros - 1000000) := by
    decide
  have happlicable : filterApplicableTemplates [afternoonTemplate, morningTemplate] 1 =
    [afternoonTemplate, morningTemplate] := rfl
  obtain ⟨offset, hoffset⟩ := summerTime.noChangeOn 1 (by decide)
  have htest := openingHours_containment.1 summerTime.toZone 1 offset hoffset
    [afternoonTemplate, morningTemplate]
  simp only [happlicable, List.map_cons, List.map_nil, hmorning, hafternoon] at htest
  refine (htest ?_ _ _ (by decide)).mpr ⟨by decide, fun u hstart hend => ?_, ?_⟩
  · simp only [Apart, List.pairwise_cons, List.mem_singleton, forall_eq, Holds]
    exact ⟨fun u hu => by omega, by simp⟩
  · simp only [covers_cons, covers_nil, Holds]
    simp only [hourMicros] at *
    omega
  · refine ⟨morningTemplate, by simp, ?_, by decide⟩
    rw [hmorning]
    exact ⟨by decide, by decide⟩

end NewlifeCore
