import NewlifeCore.Calendar

/-!
# Tables of clock changes

What `ZoneInfo` reads a time zone from: the offset before any change, and the changes in order,
each an instant and the offset that holds from then on.  `toZone` is how it computes with them: an
instant takes the last change that is not after it; a wall clock under `fold=0` takes the last
change whose own wall clock, the later of the two that it lies between, is not after it.

A change moves the clock by a day at most, and each two are further apart than either moves it.
Then a clock never shows again what it showed before a change it has left behind, and `fold=0`
finds the first instant that shows a wall clock, where there is one.
-/

namespace NewlifeCore

/-- A change of the clocks: when, and the offset from then on. -/
structure ClockChange where
  instant : Int
  offset : Int
deriving DecidableEq

namespace ClockChange

variable {o t u v w w' : Int} {c d : ClockChange} {cs : List ClockChange}

/-! ## 1. Reading a table -/

/-- The offset at an instant. -/
def offsetFrom (o : Int) : List ClockChange → Int → Int
  | [], _ => o
  | c :: cs, u => if u < c.instant then o else offsetFrom c.offset cs u

/-- The offset that a wall clock is read with. -/
def wallOffsetFrom (o : Int) : List ClockChange → Int → Int
  | [], _ => o
  | c :: cs, w => if w < c.instant + max o c.offset then o else wallOffsetFrom c.offset cs w

/-- The clock shown at an instant. -/
def shows (o : Int) (cs : List ClockChange) (u : Int) : Int := u + offsetFrom o cs u

/-- The instant a wall clock is read as. -/
def reads (o : Int) (cs : List ClockChange) (w : Int) : Int := w - wallOffsetFrom o cs w

/-- **Each two changes are further apart than either moves the clock**, the first of them from the
offset `o`, and each moves it by a day at most. -/
def Spaced (o : Int) : List ClockChange → Prop
  | [] => True
  | [c] => |c.offset - o| ≤ dayMicros
  | c :: d :: cs => |c.offset - o| ≤ dayMicros ∧ c.instant + |c.offset - o| ≤ d.instant ∧
      c.instant + |d.offset - c.offset| ≤ d.instant ∧ Spaced c.offset (d :: cs)

instance decidableSpaced : ∀ (o : Int) (cs : List ClockChange), Decidable (Spaced o cs)
  | _, [] => isTrue trivial
  | o, [c] => inferInstanceAs (Decidable (|c.offset - o| ≤ dayMicros))
  | o, c :: d :: cs =>
    have := decidableSpaced c.offset (d :: cs)
    inferInstanceAs (Decidable (|c.offset - o| ≤ dayMicros ∧
      c.instant + |c.offset - o| ≤ d.instant ∧ c.instant + |d.offset - c.offset| ≤ d.instant ∧
      Spaced c.offset (d :: cs)))

theorem Spaced.tail (h : Spaced o (c :: cs)) : Spaced c.offset cs := by
  cases cs with
  | nil => trivial
  | cons d cs => exact h.2.2.2

theorem Spaced.moves (h : Spaced o (c :: cs)) : |c.offset - o| ≤ dayMicros := by
  cases cs with
  | nil => exact h
  | cons d cs => exact h.1

/-- The next change comes later, by the wall clock too. -/
theorem Spaced.next (h : Spaced o (c :: d :: cs)) :
    c.instant ≤ d.instant ∧ c.instant + c.offset ≤ d.instant + d.offset := by
  obtain ⟨-, -, hafter, -⟩ := h
  have hle := neg_abs_le (d.offset - c.offset)
  have hnonneg := abs_nonneg (d.offset - c.offset)
  omega

/-! ## 2. What the clock shows -/

theorem shows_before (h : u < c.instant) : shows o (c :: cs) u = u + o := by
  rw [shows, offsetFrom, if_pos h]

theorem shows_from (h : c.instant ≤ u) : shows o (c :: cs) u = shows c.offset cs u := by
  rw [shows, offsetFrom, if_neg (not_lt.mpr h), shows]

/-- **From a change on the clock never shows less than at the change.** -/
theorem le_shows_from : ∀ {cs : List ClockChange} {o : Int} {c : ClockChange},
    Spaced o (c :: cs) → c.instant ≤ u → c.instant + c.offset ≤ shows o (c :: cs) u
  | [], o, c, _, hu => by
    rw [shows_from hu, shows, offsetFrom]
    omega
  | d :: cs, o, c, h, hu => by
    rw [shows_from hu]
    by_cases hd : u < d.instant
    · rw [shows_before hd]
      omega
    · exact le_trans h.next.2 (le_shows_from h.tail (not_lt.mp hd))

/-- **The clock never falls back by more than a day.** -/
theorem shows_falls : ∀ {cs : List ClockChange} {o : Int}, Spaced o cs → u ≤ v →
    shows o cs u - dayMicros ≤ shows o cs v
  | [], o, _, huv => by
    have hday : (0 : Int) ≤ dayMicros := by decide
    simp only [shows, offsetFrom]
    omega
  | c :: cs, o, h, huv => by
    by_cases hv : v < c.instant
    · rw [shows_before (lt_of_le_of_lt huv hv), shows_before hv]
      have hday : (0 : Int) ≤ dayMicros := by decide
      omega
    · by_cases hu : u < c.instant
      · -- at the change itself it falls by a day at most, and does not fall below that
        have hmoves := neg_le_of_abs_le h.moves
        have hafter := le_shows_from h (not_lt.mp hv)
        rw [shows_before hu]
        omega
      · rw [shows_from (not_lt.mp hu), shows_from (not_lt.mp hv)]
        exact shows_falls h.tail huv

/-! ## 3. Reading a wall clock -/

theorem reads_before (h : w < c.instant + max o c.offset) : reads o (c :: cs) w = w - o := by
  rw [reads, wallOffsetFrom, if_pos h]

theorem reads_from (h : c.instant + max o c.offset ≤ w) :
    reads o (c :: cs) w = reads c.offset cs w := by
  rw [reads, wallOffsetFrom, if_neg (not_lt.mpr h), reads]

/-- A wall clock from a change on is read as an instant from the change on. -/
theorem le_reads : ∀ {cs : List ClockChange} {o : Int} {c : ClockChange}, Spaced o (c :: cs) →
    c.instant + c.offset ≤ w → c.instant ≤ reads c.offset cs w
  | [], o, c, _, hw => by
    rw [reads, wallOffsetFrom]
    omega
  | d :: cs, o, c, h, hw => by
    by_cases hd : w < d.instant + max c.offset d.offset
    · rw [reads_before hd]
      omega
    · have hd := not_lt.mp hd
      have hle := le_max_right c.offset d.offset
      rw [reads_from hd]
      exact le_trans h.next.1 (le_reads h.tail (by omega))

/-- A wall clock that is shown before a change is read as an instant before it. -/
theorem reads_lt (h : Spaced o (c :: cs)) (hw : w < c.instant + max o c.offset)
    (hshown : shows o (c :: cs) (w - o) = w) : w - o < c.instant := by
  by_contra hlate
  have hafter := le_shows_from h (not_lt.mp hlate)
  rw [hshown] at hafter
  omega

/-- **Wall clocks are read in order**, as long as the earlier is shown. -/
theorem reads_strictMono : ∀ {cs : List ClockChange} {o : Int}, Spaced o cs → w < w' →
    shows o cs (reads o cs w) = w → reads o cs w < reads o cs w'
  | [], o, _, hlt, _ => by
    simp only [reads, wallOffsetFrom]
    omega
  | c :: cs, o, h, hlt, hshown => by
    by_cases hw : w < c.instant + max o c.offset
    · rw [reads_before hw] at hshown ⊢
      have hbefore := reads_lt h hw hshown
      by_cases hw' : w' < c.instant + max o c.offset
      · rw [reads_before hw']
        omega
      · have hw' := not_lt.mp hw'
        have hle := le_max_right o c.offset
        rw [reads_from hw']
        exact lt_of_lt_of_le hbefore (le_reads h (by omega))
    · have hw := not_lt.mp hw
      have hle := le_max_right o c.offset
      have hfrom := le_reads (w := w) h (by omega)
      rw [reads_from hw] at hshown ⊢
      rw [reads_from (le_of_lt (lt_of_le_of_lt hw hlt))]
      rw [shows_from hfrom] at hshown
      exact reads_strictMono h.tail hlt hshown

/-- **A wall clock that is shown is read as the first instant that shows it.** -/
theorem shows_reads : ∀ {cs : List ClockChange} {o : Int}, Spaced o cs → shows o cs u = w →
    shows o cs (reads o cs w) = w ∧ reads o cs w ≤ u
  | [], o, _, hu => by
    simp only [shows, reads, offsetFrom, wallOffsetFrom] at hu ⊢
    omega
  | c :: cs, o, h, hu => by
    by_cases hw : w < c.instant + max o c.offset
    · rw [reads_before hw]
      by_cases hearly : u < c.instant
      · rw [shows_before hearly] at hu
        rw [shows_before (by omega)]
        omega
      · -- shown after a change forward would be too late, so the change is back
        have hlate := le_shows_from h (not_lt.mp hearly)
        rw [hu] at hlate
        rw [shows_before (by omega)]
        omega
    · have hw := not_lt.mp hw
      have hmax := le_max_left o c.offset
      have hmax' := le_max_right o c.offset
      have hlate : c.instant ≤ u := by
        by_contra hearly
        rw [shows_before (not_le.mp hearly)] at hu
        omega
      have hfrom := le_reads (w := w) h (by omega)
      rw [reads_from hw, shows_from hfrom]
      rw [shows_from hlate] at hu
      exact shows_reads h.tail hu

/-! ## 4. Stretches of the wall clock without a change -/

/-- **No change skips or repeats a wall clock of `[lo, hi)`**: each leaves the clock where it is, or
moves it from and to where it is not. -/
def QuietOn (lo hi : Int) : Int → List ClockChange → Prop
  | _, [] => True
  | o, c :: cs => (c.offset = o ∨ c.instant + max o c.offset ≤ lo ∨
      hi ≤ c.instant + min o c.offset) ∧ QuietOn lo hi c.offset cs

instance decidableQuietOn (lo hi : Int) : ∀ (o : Int) (cs : List ClockChange),
    Decidable (QuietOn lo hi o cs)
  | _, [] => isTrue trivial
  | o, c :: cs =>
    have := decidableQuietOn lo hi c.offset cs
    inferInstanceAs (Decidable ((c.offset = o ∨ c.instant + max o c.offset ≤ lo ∨
      hi ≤ c.instant + min o c.offset) ∧ QuietOn lo hi c.offset cs))

/-- One offset, for all that is read or shown in `[lo, hi)`. -/
structure Quiet (lo hi o : Int) (cs : List ClockChange) (offset : Int) : Prop where
  wall : ∀ w, lo ≤ w → w < hi → wallOffsetFrom o cs w = offset
  kept : ∀ u, lo ≤ u + offset → u + offset < hi → offsetFrom o cs u = offset
  shown : ∀ u, lo ≤ shows o cs u → shows o cs u < hi → lo ≤ u + offset ∧ u + offset < hi
  later : ∀ u, hi ≤ u + offset → hi ≤ shows o cs u

theorem offsetFrom_before (h : Spaced o (c :: cs)) (hu : u < c.instant) :
    offsetFrom c.offset cs u = c.offset := by
  cases cs with
  | nil => rfl
  | cons d cs => rw [offsetFrom, if_pos (lt_of_lt_of_le hu h.next.1)]

theorem wallOffsetFrom_before (h : Spaced o (c :: cs)) (hw : w < c.instant + c.offset) :
    wallOffsetFrom c.offset cs w = c.offset := by
  cases cs with
  | nil => rfl
  | cons d cs =>
    have hnext := h.next.1
    have hle := le_max_left c.offset d.offset
    rw [wallOffsetFrom, if_pos (by omega)]

theorem quiet_after {lo hi : Int} (h : Spaced o (c :: cs)) (hafter : hi ≤ c.instant + min o c.offset) :
    Quiet lo hi o (c :: cs) o := by
  have hmin := min_le_left o c.offset
  have hmin' := min_le_right o c.offset
  have hmax := le_max_left o c.offset
  refine ⟨fun w _ hw => ?_, fun u _ hu => ?_, fun u hlo hhi => ?_, fun u hu => ?_⟩
  · rw [wallOffsetFrom, if_pos (by omega)]
  · rw [offsetFrom, if_pos (by omega)]
  · have hearly : u < c.instant := by
      by_contra hlate
      have hfrom := le_shows_from h (not_lt.mp hlate)
      omega
    rw [shows_before hearly] at hlo hhi
    exact ⟨hlo, hhi⟩
  · by_cases hearly : u < c.instant
    · rw [shows_before hearly]
      exact hu
    · have hfrom := le_shows_from h (not_lt.mp hearly)
      omega

theorem quiet_before {lo hi offset : Int} (h : Spaced o (c :: cs))
    (hbefore : c.instant + max o c.offset ≤ lo) (hlt : lo < hi)
    (hq : Quiet lo hi c.offset cs offset) : Quiet lo hi o (c :: cs) offset := by
  have hmax := le_max_left o c.offset
  have hmax' := le_max_right o c.offset
  -- what is before the change is before the stretch, by the offset of the stretch too
  have hearly : ∀ u, u < c.instant → u + offset < lo := by
    intro u hu
    have hshown : shows c.offset cs u = u + c.offset := by rw [shows, offsetFrom_before h hu]
    by_contra hnot
    by_cases hin : u + offset < hi
    · have hoffset := hq.kept u (not_lt.mp hnot) hin
      rw [offsetFrom_before h hu] at hoffset
      omega
    · have hlater := hq.later u (not_lt.mp hin)
      omega
  have hlate : ∀ u, lo ≤ u + offset → c.instant ≤ u := by
    intro u hu
    by_contra hnot
    exact absurd (hearly u (not_le.mp hnot)) (not_lt.mpr hu)
  refine ⟨fun w hlo hhi => ?_, fun u hlo hhi => ?_, fun u hlo hhi => ?_, fun u hu => ?_⟩
  · rw [wallOffsetFrom, if_neg (by omega)]
    exact hq.wall w hlo hhi
  · rw [offsetFrom, if_neg (not_lt.mpr (hlate u hlo))]
    exact hq.kept u hlo hhi
  · have hfrom : c.instant ≤ u := by
      by_contra hnot
      rw [shows_before (not_le.mp hnot)] at hlo
      omega
    rw [shows_from hfrom] at hlo hhi
    exact hq.shown u hlo hhi
  · rw [shows_from (hlate u (by omega))]
    exact hq.later u hu

theorem quiet_same {lo hi offset : Int} (h : Spaced o (c :: cs)) (hsame : c.offset = o)
    (hq : Quiet lo hi c.offset cs offset) : Quiet lo hi o (c :: cs) offset := by
  have hoffset : ∀ u, offsetFrom o (c :: cs) u = offsetFrom c.offset cs u := by
    intro u
    rw [offsetFrom]
    split
    · rw [offsetFrom_before h ‹_›, hsame]
    · rfl
  have hwall : ∀ w, wallOffsetFrom o (c :: cs) w = wallOffsetFrom c.offset cs w := by
    intro w
    rw [wallOffsetFrom]
    split
    · rename_i hw
      rw [hsame, max_self] at hw
      rw [wallOffsetFrom_before h (by omega), hsame]
    · rfl
  refine ⟨fun w => ?_, fun u => ?_, fun u => ?_, fun u => ?_⟩
  · rw [hwall]
    exact hq.wall w
  · rw [hoffset]
    exact hq.kept u
  · rw [shows, hoffset]
    exact hq.shown u
  · rw [shows, hoffset]
    exact hq.later u

/-- **A quiet stretch of the wall clock has one offset.** -/
theorem exists_quiet {lo hi : Int} (hlt : lo < hi) : ∀ {cs : List ClockChange} {o : Int},
    Spaced o cs → QuietOn lo hi o cs → ∃ offset, Quiet lo hi o cs offset
  | [], o, _, _ => ⟨o, fun _ _ _ => rfl, fun _ _ _ => rfl, fun _ h₁ h₂ => ⟨h₁, h₂⟩, fun _ h => h⟩
  | c :: cs, o, h, ⟨hc, hquiet⟩ => by
    obtain ⟨offset, hq⟩ := exists_quiet hlt h.tail hquiet
    rcases hc with hsame | hbefore | hafter
    · exact ⟨offset, quiet_same h hsame hq⟩
    · exact ⟨offset, quiet_before h hbefore hlt hq⟩
    · exact ⟨o, quiet_after h hafter⟩

end ClockChange

/-! ## 5. Zones -/

/-- **A table of clock changes.** -/
structure ZoneTable where
  initial : Int
  changes : List ClockChange
  initial_lt : -dayMicros < initial ∧ initial < dayMicros
  offsets_lt : ∀ c ∈ changes, -dayMicros < c.offset ∧ c.offset < dayMicros
  spaced : ClockChange.Spaced initial changes

namespace ZoneTable

open ClockChange

theorem offsetFrom_mem (cs : List ClockChange) : ∀ (o u : Int),
    offsetFrom o cs u = o ∨ ∃ c ∈ cs, offsetFrom o cs u = c.offset := by
  induction cs with
  | nil => exact fun _ _ => .inl rfl
  | cons c cs ih =>
    intro o u
    unfold offsetFrom
    split
    · exact .inl rfl
    · rcases ih c.offset u with h | ⟨d, hd, h⟩
      · exact .inr ⟨c, .head _, h⟩
      · exact .inr ⟨d, .tail _ hd, h⟩

theorem wallOffsetFrom_mem (cs : List ClockChange) : ∀ (o w : Int),
    wallOffsetFrom o cs w = o ∨ ∃ c ∈ cs, wallOffsetFrom o cs w = c.offset := by
  induction cs with
  | nil => exact fun _ _ => .inl rfl
  | cons c cs ih =>
    intro o w
    unfold wallOffsetFrom
    split
    · exact .inl rfl
    · rcases ih c.offset w with h | ⟨d, hd, h⟩
      · exact .inr ⟨c, .head _, h⟩
      · exact .inr ⟨d, .tail _ hd, h⟩

/-- The zone that a table describes. -/
def toZone (T : ZoneTable) : Zone where
  offset := offsetFrom T.initial T.changes
  wallOffset := wallOffsetFrom T.initial T.changes
  offset_lt u := by
    rcases offsetFrom_mem T.changes T.initial u with h | ⟨c, hc, h⟩ <;> rw [h]
    · exact T.initial_lt
    · exact T.offsets_lt c hc
  wallOffset_lt w := by
    rcases wallOffsetFrom_mem T.changes T.initial w with h | ⟨c, hc, h⟩ <;> rw [h]
    · exact T.initial_lt
    · exact T.offsets_lt c hc

variable (T : ZoneTable) {u v w w' : Int}

/-- **Wall clocks are read in order**, as long as the earlier is shown. -/
theorem toUtc_lt (h : T.toZone.toLocal (T.toZone.toUtc w) = w) (hlt : w < w') :
    T.toZone.toUtc w < T.toZone.toUtc w' :=
  reads_strictMono T.spaced hlt h

/-- **A wall clock that is shown is read as an instant that shows it.** -/
theorem toLocal_toUtc_iff : T.toZone.toLocal (T.toZone.toUtc w) = w ↔ ∃ u, T.toZone.toLocal u = w :=
  ⟨fun h => ⟨_, h⟩, fun ⟨_, h⟩ => (shows_reads T.spaced h).1⟩

/-- **The clock never falls back by more than a day.** -/
theorem toLocal_falls (h : u ≤ v) : T.toZone.toLocal u - dayMicros ≤ T.toZone.toLocal v :=
  shows_falls T.spaced h

end ZoneTable

/-! ## 6. Days without a change -/

/-- **The clock keeps one offset through a local day**, for what is read and what is shown, and once
the day is over shows a later one. -/
structure Zone.NoChangeOn (tz : Zone) (day offset : Int) : Prop where
  wall : ∀ w, WallClock.date w = day → tz.wallOffset w = offset
  kept : ∀ u, WallClock.date (u + offset) = day → tz.offset u = offset
  shown : ∀ u, tz.localDate u = day → WallClock.date (u + offset) = day
  later : ∀ u, day < WallClock.date (u + offset) → day < tz.localDate u

theorem WallClock.date_eq_iff {w day : Int} :
    date w = day ↔ day * dayMicros ≤ w ∧ w < (day + 1) * dayMicros := by
  simp only [date, dayMicros]
  omega

theorem WallClock.date_combine (day : Int) (v : TimeOfDay) : date (combine day v) = day := by
  have hlo := v.nonneg
  have hhi := v.lt_day
  simp only [date_eq_iff, combine, dayMicros] at *
  omega

theorem WallClock.lt_date_iff {w day : Int} : day < date w ↔ (day + 1) * dayMicros ≤ w := by
  simp only [date, dayMicros]
  omega

/-- **A table has no change on a day** where none skips or repeats a wall clock of it. -/
theorem ZoneTable.noChangeOn (T : ZoneTable) (day : Int)
    (h : ClockChange.QuietOn (day * dayMicros) ((day + 1) * dayMicros) T.initial T.changes) :
    ∃ offset, T.toZone.NoChangeOn day offset := by
  have hlt : day * dayMicros < (day + 1) * dayMicros := by
    simp only [dayMicros]
    omega
  obtain ⟨offset, hq⟩ := ClockChange.exists_quiet hlt T.spaced h
  refine ⟨offset, fun w hw => ?_, fun u hu => ?_, fun u hu => ?_, fun u hu => ?_⟩
  · exact hq.wall w (WallClock.date_eq_iff.mp hw).1 (WallClock.date_eq_iff.mp hw).2
  · exact hq.kept u (WallClock.date_eq_iff.mp hu).1 (WallClock.date_eq_iff.mp hu).2
  · have hday := WallClock.date_eq_iff.mp hu
    exact WallClock.date_eq_iff.mpr (hq.shown u hday.1 hday.2)
  · exact WallClock.lt_date_iff.mpr (hq.later u (WallClock.lt_date_iff.mp hu))

end NewlifeCore
