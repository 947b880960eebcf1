import NewlifeCore.Facility.TimetableSoundness

/-!
# Open windows are templates minus Blackouts

`_build_open_windows` cuts each Blackout of a day out of the merged templates.  The instants it
leaves are right on every day.  The windows themselves overlap where a Blackout ends before it
starts, which one does whose local start is skipped by a change of the clocks: what it cuts in two
is not shortened.
-/

namespace NewlifeCore

open AvailabilityService Intervals

/-! ## 1. What the windows are to be -/

/-- A local time span of a day, in UTC. -/
def localSpan (day : Int) (tz : Zone) (startTime endTime : TimeOfDay) : Interval :=
  (combineLocal day startTime tz, combineLocal day endTime tz)

def RoomSlotTemplate.span (s : RoomSlotTemplate) (day : Int) (tz : Zone) : Interval :=
  localSpan day tz s.startTime s.endTime

def RoomBlackout.span (b : RoomBlackout) (day : Int) (tz : Zone) : Interval :=
  localSpan day tz b.startTime b.endTime

section

variable (day : Int) (templates : List RoomSlotTemplate) (blackouts : List RoomBlackout)
  (tz : Zone)

/-- **The windows are the templates minus the Blackouts**, without overlap, and whatever the order
of the Blackouts. -/
structure WindowsExact : Prop where
  covers : ∀ u, Covers (buildOpenWindows day templates blackouts tz) u ↔
    (∃ s ∈ templates, Holds (s.span day tz) u) ∧ ∀ b ∈ blackouts, ¬ Holds (b.span day tz) u
  apart : Apart (buildOpenWindows day templates blackouts tz)
  order : ∀ others, others.Perm blackouts → ∀ u,
    Covers (buildOpenWindows day templates others tz) u ↔
      Covers (buildOpenWindows day templates blackouts tz) u

/-- **A Blackout cuts twice**: it ends before it starts, in the midst of template time that no
Blackout before it has reached, and the Blackouts after it leave an instant of what lies between
its end and its start. -/
def CutsTwice : Prop :=
  ∃ before b after, blackouts = before ++ b :: after ∧
    (∀ u, (b.span day tz).2 - 1 ≤ u → u ≤ (b.span day tz).1 →
      ∃ s ∈ templates, Holds (s.span day tz) u) ∧
    (∀ c ∈ before, (b.span day tz).1 < (c.span day tz).1 ∨ (c.span day tz).2 < (b.span day tz).2) ∧
    ∃ u, (b.span day tz).2 ≤ u ∧ u < (b.span day tz).1 ∧ ∀ c ∈ after, ¬ Holds (c.span day tz) u

end

/-! ## 2. One Blackout -/

/-- The Blackout cuts the segment into two pieces that both hold the instant. -/
structure Doubles (blackout seg : Interval) (u : Int) : Prop where
  from_ : blackout.2 ≤ u
  until_ : u < blackout.1
  start : seg.1 < blackout.2
  end_ : blackout.1 < seg.2

section

variable {blackout seg : Interval} {u : Int}

theorem subtractBlackout_doubles (h : Doubles blackout seg u) :
    subtractBlackout blackout seg = [(seg.1, blackout.1), (blackout.2, seg.2)] := by
  obtain ⟨hfrom, huntil, hstart, hend⟩ := h
  have hoverlap : intervalsOverlap seg blackout = true := by
    simp only [intervalsOverlap, Bool.and_eq_true, decide_eq_true_eq]
    omega
  rw [subtractBlackout, hoverlap, if_neg (by simp), if_pos (by omega), if_pos (by omega),
    min_eq_right (by omega), max_eq_right (by omega)]
  rfl

theorem multiplicity_piece {c : Prop} [Decidable c] {i : Interval} :
    multiplicity (if c then [i] else []) u = if c ∧ Holds i u then 1 else 0 := by
  by_cases hc : c <;> simp [hc, multiplicity_cons]

/-- Otherwise an instant of the segment stays in at most one piece. -/
theorem multiplicity_subtractBlackout_le (h : ¬ Doubles blackout seg u) :
    multiplicity (subtractBlackout blackout seg) u ≤ if Holds seg u then 1 else 0 := by
  by_cases hseg : Holds seg u
  · rw [if_pos hseg]
    unfold subtractBlackout
    split
    · simp [multiplicity_cons, hseg]
    · rename_i hoverlap
      simp only [intervalsOverlap, Bool.not_eq_true', Bool.and_eq_false_iff, decide_eq_false_iff_not,
        not_or, not_not] at hoverlap
      rw [multiplicity_append, multiplicity_piece, multiplicity_piece]
      by_cases hfirst : seg.1 < blackout.1 ∧ Holds (seg.1, min seg.2 blackout.1) u
      · by_cases hsecond : blackout.2 < seg.2 ∧ Holds (max seg.1 blackout.2, seg.2) u
        · -- only an instant of both pieces is counted twice
          simp only [Holds] at hfirst hsecond
          exact absurd ⟨by omega, by omega, by omega, by omega⟩ h
        · rw [if_pos hfirst, if_neg hsecond]
      · rw [if_neg hfirst]
        split <;> omega
  · rw [if_neg hseg, Nat.le_zero, Intervals.multiplicity_eq_zero, covers_subtractBlackout]
    exact fun hc => hseg hc.1

/-- An instant outside the Blackout stays. -/
theorem le_multiplicity_subtractBlackout (h : ¬ Holds blackout u) :
    (if Holds seg u then 1 else 0) ≤ multiplicity (subtractBlackout blackout seg) u := by
  split
  · exact multiplicity_pos.mpr (covers_subtractBlackout.mpr ⟨‹_›, h⟩)
  · exact Nat.zero_le _

/-- What is left of a segment lies within it, beside the Blackout. -/
theorem mem_subtractBlackout {piece : Interval} (h : piece ∈ subtractBlackout blackout seg) :
    seg.1 ≤ piece.1 ∧ piece.2 ≤ seg.2 ∧ (piece.2 ≤ blackout.1 ∨ blackout.2 ≤ piece.1) := by
  unfold subtractBlackout at h
  split at h
  · rename_i hapart
    simp only [intervalsOverlap, Bool.not_eq_true', Bool.and_eq_false_iff, decide_eq_false_iff_not]
      at hapart
    rw [List.mem_singleton.mp h]
    exact ⟨le_refl _, le_refl _, by omega⟩
  · rcases List.mem_append.mp h with h | h
    · split at h
      · rw [List.mem_singleton.mp h]
        exact ⟨le_refl _, min_le_left _ _, .inl (min_le_right _ _)⟩
      · cases h
    · split at h
      · rw [List.mem_singleton.mp h]
        exact ⟨le_max_left _ _, le_refl _, .inr (le_max_right _ _)⟩
      · cases h

/-- A stretch beside the Blackout stays in one piece. -/
theorem subtractBlackout_spans {lo hi : Int} (hlo : seg.1 ≤ lo) (hhi : hi < seg.2) (hle : lo ≤ hi)
    (hbeside : hi < blackout.1 ∨ blackout.2 ≤ lo) :
    ∃ piece ∈ subtractBlackout blackout seg, piece.1 ≤ lo ∧ hi < piece.2 := by
  unfold subtractBlackout
  split
  · exact ⟨seg, .head _, hlo, hhi⟩
  · rcases hbeside with hbefore | hafter
    · refine ⟨(seg.1, min seg.2 blackout.1), List.mem_append_left _ ?_, hlo, lt_min hhi hbefore⟩
      rw [if_pos (by omega)]
      exact .head _
    · refine ⟨(max seg.1 blackout.2, seg.2), List.mem_append_right _ ?_, max_le hlo hafter, hhi⟩
      rw [if_pos (by omega)]
      exact .head _

end

/-! ## 3. All Blackouts of a day -/

/-- What the Blackouts leave of some segments. -/
def cutAll {α : Type} (g : α → Interval) (blackouts : List α) (segments : List Interval) :
    List Interval :=
  blackouts.foldl (fun segs b => segs.flatMap (subtractBlackout (g b))) segments

section

variable {α : Type} {g : α → Interval} {u : Int}

theorem cutAll_cons (b : α) (bs : List α) (segments : List Interval) :
    cutAll g (b :: bs) segments = cutAll g bs (segments.flatMap (subtractBlackout (g b))) := rfl

theorem cutAll_append (bs cs : List α) (segments : List Interval) :
    cutAll g (bs ++ cs) segments = cutAll g cs (cutAll g bs segments) := List.foldl_append

/-- What is left lies within a segment, beside every Blackout. -/
theorem mem_cutAll {piece : Interval} : ∀ {bs : List α} {segments : List Interval},
    piece ∈ cutAll g bs segments → ∃ seg ∈ segments, seg.1 ≤ piece.1 ∧ piece.2 ≤ seg.2 ∧
      ∀ b ∈ bs, piece.2 ≤ (g b).1 ∨ (g b).2 ≤ piece.1
  | [], _, h => ⟨piece, h, le_refl _, le_refl _, by simp⟩
  | b :: bs, segments, h => by
    rw [cutAll_cons] at h
    obtain ⟨mid, hmid, hm₁, hm₂, hrest⟩ := mem_cutAll h
    obtain ⟨seg, hseg, hpiece⟩ := List.mem_flatMap.mp hmid
    obtain ⟨hs₁, hs₂, hbeside⟩ := mem_subtractBlackout hpiece
    refine ⟨seg, hseg, le_trans hs₁ hm₁, le_trans hm₂ hs₂, List.forall_mem_cons.mpr ⟨?_, hrest⟩⟩
    omega

/-- A stretch beside every Blackout stays in one piece. -/
theorem cutAll_spans (lo hi : Int) (hle : lo ≤ hi) : ∀ {bs : List α} {segments : List Interval},
    (∃ seg ∈ segments, seg.1 ≤ lo ∧ hi < seg.2) →
      (∀ b ∈ bs, hi < (g b).1 ∨ (g b).2 ≤ lo) →
        ∃ piece ∈ cutAll g bs segments, piece.1 ≤ lo ∧ hi < piece.2
  | [], _, h, _ => h
  | b :: bs, segments, ⟨seg, hseg, hlo, hhi⟩, hbeside => by
    obtain ⟨piece, hpiece, hp⟩ := subtractBlackout_spans hlo hhi hle (hbeside b (.head _))
    rw [cutAll_cons]
    exact cutAll_spans lo hi hle ⟨piece, List.mem_flatMap.mpr ⟨seg, hseg, hpiece⟩, hp⟩
      fun c hc => hbeside c (.tail _ hc)

theorem le_multiplicity_cutAll : ∀ {bs : List α} {segments : List Interval},
    (∀ b ∈ bs, ¬ Holds (g b) u) → multiplicity segments u ≤ multiplicity (cutAll g bs segments) u
  | [], _, _ => le_refl _
  | b :: bs, segments, h => by
    rw [cutAll_cons]
    exact le_trans
      (le_multiplicity_flatMap fun _ _ => le_multiplicity_subtractBlackout (h b (.head _)))
      (le_multiplicity_cutAll fun c hc => h c (.tail _ hc))

/-- An instant is held no more often unless a Blackout doubles it in what those before it left. -/
theorem multiplicity_cutAll_le : ∀ {bs : List α} {segments : List Interval},
    (∀ before b after, bs = before ++ b :: after →
      ∀ seg ∈ cutAll g before segments, ¬ Doubles (g b) seg u) →
    multiplicity (cutAll g bs segments) u ≤ multiplicity segments u
  | [], _, _ => le_refl _
  | b :: bs, segments, h => by
    rw [cutAll_cons]
    refine le_trans (multiplicity_cutAll_le fun before c after hbs seg hseg => ?_)
      (multiplicity_flatMap_le fun seg hseg =>
        multiplicity_subtractBlackout_le (h [] b bs rfl seg hseg))
    exact h (b :: before) c after (by rw [hbs, List.cons_append]) seg hseg

end

/-! ## 4. The windows of a day -/

section

variable {day : Int} {templates : List RoomSlotTemplate} {blackouts : List RoomBlackout}
  {tz : Zone} {u : Int}

/-- The merged templates, before any Blackout. -/
def templateWindows (day : Int) (templates : List RoomSlotTemplate) (tz : Zone) : List Interval :=
  mergeOpenWindows ((templates.map fun s => s.span day tz).filter fun w => w.1 < w.2)

theorem templateWindows_separated : Separated (templateWindows day templates tz) :=
  (mergeOpenWindows_spec _).1

theorem covers_templateWindows :
    Covers (templateWindows day templates tz) u ↔ ∃ s ∈ templates, Holds (s.span day tz) u := by
  rw [templateWindows, (mergeOpenWindows_spec _).2, covers_filter_lt]
  simp [Covers]

/-- The pieces of one window. -/
def windowPieces (day : Int) (blackouts : List RoomBlackout) (tz : Zone) (window : Interval) :
    List Interval :=
  (cutAll (fun b : RoomBlackout => b.span day tz) blackouts [window]).filter fun seg => seg.1 < seg.2

theorem buildOpenWindows_eq (h : blackouts ≠ []) :
    buildOpenWindows day templates blackouts tz =
      (templateWindows day templates tz).flatMap (windowPieces day blackouts tz) := by
  unfold buildOpenWindows
  dsimp only
  rw [if_neg (by simpa using h)]
  rfl

theorem buildOpenWindows_nil :
    buildOpenWindows day templates [] tz = templateWindows day templates tz := rfl

/-- Only an empty piece is dropped. -/
theorem multiplicity_windowPieces {window : Interval} :
    multiplicity (windowPieces day blackouts tz window) u =
      multiplicity (cutAll (fun b : RoomBlackout => b.span day tz) blackouts [window]) u := by
  unfold windowPieces Intervals.multiplicity
  rw [List.countP_filter]
  refine List.countP_congr fun seg _ => ?_
  simp only [Bool.and_eq_true, decide_eq_true_eq, and_iff_left_iff_imp]
  exact fun hu => lt_of_le_of_lt hu.1 hu.2

theorem multiplicity_singleton {i : Interval} : multiplicity [i] u = if Holds i u then 1 else 0 := by
  simp [multiplicity_cons]

/-- **Without a Blackout that cuts twice the windows are apart.** -/
theorem openWindows_apart (h : ¬ CutsTwice day templates blackouts tz) :
    Apart (buildOpenWindows day templates blackouts tz) := by
  by_cases hnil : blackouts = []
  · rw [hnil, buildOpenWindows_nil]
    exact templateWindows_separated.apart
  · rw [buildOpenWindows_eq hnil, apart_iff]
    intro u
    have hseparated : Separated (templateWindows day templates tz) := templateWindows_separated
    have hmerged := apart_iff.mp hseparated.apart u
    by_cases hopen : ∀ b ∈ blackouts, ¬ Holds (b.span day tz) u
    · refine le_trans (multiplicity_flatMap_le fun window hwindow => ?_) hmerged
      rw [multiplicity_windowPieces, ← multiplicity_singleton]
      refine multiplicity_cutAll_le fun before b after hblackouts seg hseg hdoubles => h ?_
      -- the segment in which an instant would be doubled lies in template time, beside the
      -- Blackouts before
      obtain ⟨w, hw, hw₁, hw₂, hbeside⟩ := mem_cutAll hseg
      rw [List.mem_singleton.mp hw] at hw₁ hw₂
      obtain ⟨hfrom, huntil, hstart, hend⟩ := hdoubles
      refine ⟨before, b, after, hblackouts, fun v hv₁ hv₂ => ?_, fun c hc => ?_, u, hfrom, huntil,
        fun c hc => hopen c ?_⟩
      · exact covers_templateWindows.mp ⟨window, hwindow, by omega, by omega⟩
      · have := hbeside c hc
        omega
      · rw [hblackouts]
        exact List.mem_append_right _ (.tail _ hc)
    · -- a Blackout holds the instant, so nothing is left of it
      have hnone : ¬ Covers ((templateWindows day templates tz).flatMap
          (windowPieces day blackouts tz)) u := by
        rw [← buildOpenWindows_eq hnil, covers_buildOpenWindows]
        exact fun hc => hopen hc.2
      rw [multiplicity_eq_zero.mpr hnone]
      exact Nat.zero_le _

/-- **A Blackout that cuts twice leaves windows that overlap.** -/
theorem openWindows_not_apart (h : CutsTwice day templates blackouts tz) :
    ¬ Apart (buildOpenWindows day templates blackouts tz) := by
  obtain ⟨before, b, after, rfl, htemplates, hbefore, u, hfrom, huntil, hafter⟩ := h
  rw [buildOpenWindows_eq (by simp)]
  intro hapart
  -- one merged window holds the whole stretch around the Blackout
  have hseparated : Separated (templateWindows day templates tz) := templateWindows_separated
  obtain ⟨window, hwindow, hw₁, hw₂⟩ := hseparated.within (s := (b.span day tz).2 - 1)
    (e := (b.span day tz).1 + 1) (by omega)
    fun v hv₁ hv₂ => covers_templateWindows.mpr (htemplates v hv₁ (by omega))
  have hpieces := (List.pairwise_flatMap.mp hapart).1 window hwindow
  have hmult := apart_iff.mp hpieces u
  rw [multiplicity_windowPieces, cutAll_append, cutAll_cons] at hmult
  -- and so does a piece that the Blackouts before leave of it, which is then cut twice
  obtain ⟨seg, hseg, hs₁, hs₂⟩ := cutAll_spans (g := fun c : RoomBlackout => c.span day tz)
    ((b.span day tz).2 - 1) (b.span day tz).1 (by omega) ⟨window, List.mem_singleton.mpr rfl, hw₁, by omega⟩
    fun c hc => (hbefore c hc).imp_right fun hlt => by omega
  have hdoubles : Doubles (b.span day tz) seg u := ⟨hfrom, huntil, by omega, hs₂⟩
  have htwo : 2 ≤ multiplicity (subtractBlackout (b.span day tz) seg) u := by
    rw [subtractBlackout_doubles hdoubles, multiplicity_cons, multiplicity_cons, multiplicity_nil,
      if_pos ⟨by omega, by omega⟩, if_pos ⟨by omega, by omega⟩]
  have hcut := le_trans htwo (List.Sublist.countP_le (p := fun i => decide (Holds i u))
    (List.sublist_flatten_of_mem (List.mem_map_of_mem (f := subtractBlackout _) hseg)))
  have hrest := le_trans hcut (le_multiplicity_cutAll hafter)
  exact absurd (le_trans hrest hmult) (by decide)

end

/-- **Open windows are templates minus Blackouts** exactly when no Blackout cuts twice. -/
theorem openWindows_exact_iff (day : Int) (templates : List RoomSlotTemplate)
    (blackouts : List RoomBlackout) (tz : Zone) :
    WindowsExact day templates blackouts tz ↔ ¬ CutsTwice day templates blackouts tz := by
  constructor
  · intro hexact hcuts
    exact openWindows_not_apart hcuts hexact.apart
  · intro h
    refine ⟨fun u => covers_buildOpenWindows, openWindows_apart h, fun others hperm u => ?_⟩
    rw [covers_buildOpenWindows, covers_buildOpenWindows]
    simp only [hperm.mem_iff]

/-- The clocks go forward an hour at two in the morning of the first day. -/
def springForward : Zone :=
  .transition (10 * hourMicros) (-8 * hourMicros) (-7 * hourMicros) (by decide) (by decide)

/-- The room is open in the morning. -/
def morningTemplate : RoomSlotTemplate where
  id := 1
  facilityId := 1
  startTime := .midnight
  endTime := .noon
  slotDurationMinutes := 60
  daysOfWeekMask := 127

/-- A Blackout from half past two, which the clocks skip, to three. -/
def skippedBlackout : RoomBlackout where
  id := 1
  facilityId := some 1
  name := ""
  reason := ""
  kind := .oneOff
  blackoutDate := some 0
  startTime := .ofHms 2 30 0 (by decide)
  endTime := .ofHms 3 0 0 (by decide)
  isActive := true
  daysOfWeekMask := none
  effectiveFrom := none
  effectiveTo := none

/-- **The windows around it overlap.** -/
theorem skippedBlackout_not_exact :
    ¬ WindowsExact 0 [morningTemplate] [skippedBlackout] springForward := by
  intro hexact
  have hmult := apart_iff.mp hexact.apart (10 * hourMicros)
  exact absurd hmult (by decide +kernel)

end NewlifeCore
