import NewlifeCore.Facility.ExpiryJob
import NewlifeCore.Facility.Proposals
import NewlifeCore.Grouping

/-!
# The dates in the hold-expired mail

`_render_body` lists the rooms of the expired occurrences by date.  It takes the date of a start as
it is stored, in UTC; the priority override mail takes it in the facility's zone.  The two are the
same date unless the zone's offset carries the start past midnight.
-/

namespace NewlifeCore

open RecurringBookingService

/-! ## 1. The date lines -/

/-- A date with its rooms. -/
abbrev DateLine := Int × List UUID

/-- `dates_to_facilities`, sorted: the rooms of each date, each once. -/
def dateLines (rows : List (Int × UUID)) : List DateLine :=
  (Groups.collect Prod.fst (fun ids row => Groups.addNew ids row.2) rows []).insertionSort
    fun a b => a.1 ≤ b.1

namespace ExpiryMailService

/-- The turns of the loop over the occurrences and their rooms. -/
def datedRooms (occurrences : List OccurrenceResult) : List (Int × UUID) :=
  occurrences.flatMap fun item =>
    item.facilityIds.map fun facilityId => (WallClock.date item.startAt, facilityId)

/-- The lines of `_render_body`. -/
def occurrenceLines (occurrences : List OccurrenceResult) : List DateLine :=
  dateLines (datedRooms occurrences)

/-- `strftime("%B")`. -/
def monthNames : List String :=
  ["January", "February", "March", "April", "May", "June", "July", "August", "September",
    "October", "November", "December"]

def formatOverrideDateEn (value : Int) : String :=
  let month := monthNames.getD (Date.month value - 1).toNat ""
  s!"{month} {Date.day value}, {Date.year value}"

def formatOverrideDateZh (value : Int) : String :=
  s!"{Date.year value}年{Date.month value}月{Date.day value}日"

/-- A line as it is written, given the names of the rooms. -/
def lineText (format : Int → String) (roomName : UUID → String) (line : DateLine) : String :=
  let rooms := ", ".intercalate (line.2.map roomName)
  s!"{format line.1} — {rooms}"

example : formatOverrideDateEn (Date.ofCivil 2026 3 9) = "March 9, 2026" := by decide +kernel

end ExpiryMailService

section

variable {rows : List (Int × UUID)} {d : Int} {r : UUID}

theorem mem_dateLines {line : DateLine} : line ∈ dateLines rows ↔
    line ∈ Groups.collect Prod.fst (fun ids row => Groups.addNew ids row.2) rows [] :=
  List.mem_insertionSort _

theorem nodup_dates :
    (Groups.keys (Groups.collect Prod.fst (fun ids row => Groups.addNew ids row.2) rows [])).Nodup :=
  Groups.nodup_keys_collect List.nodup_nil

/-- The rooms under a date: each once, and those that were put there. -/
theorem dateLine_rooms {ids : List UUID} (h : (d, ids) ∈ dateLines rows) :
    ids.Nodup ∧ ∀ r, r ∈ ids ↔ (d, r) ∈ rows := by
  have hids := Groups.valuesAt_of_mem nodup_dates (mem_dateLines.mp h)
  rw [Groups.valuesAt_collect, Groups.valuesAt] at hids
  obtain ⟨hnodup, hmem⟩ := Groups.foldl_addNew Prod.snd
    (rows.filter fun row => row.1 = d) List.nodup_nil
  rw [hids] at hnodup hmem
  refine ⟨hnodup, fun r => (hmem r).trans ?_⟩
  simp only [List.not_mem_nil, false_or, List.mem_filter, decide_eq_true_eq]
  constructor
  · rintro ⟨row, ⟨hrow, rfl⟩, rfl⟩
    exact hrow
  · intro hrow
    exact ⟨(d, r), ⟨hrow, rfl⟩, rfl⟩

/-- **A room is listed under a date exactly if it was put there.** -/
theorem exists_dateLine_iff :
    (∃ ids, (d, ids) ∈ dateLines rows ∧ r ∈ ids) ↔ (d, r) ∈ rows := by
  constructor
  · rintro ⟨ids, hline, hr⟩
    exact ((dateLine_rooms hline).2 r).mp hr
  · intro hrow
    have hkey : d ∈ Groups.keys
        (Groups.collect Prod.fst (fun ids row => Groups.addNew ids row.2) rows []) :=
      Groups.mem_keys_collect.mpr (.inr ⟨(d, r), hrow, rfl⟩)
    have hline := mem_dateLines.mpr (Groups.mem_of_mem_keys hkey)
    exact ⟨_, hline, ((dateLine_rooms hline).2 r).mpr hrow⟩

/-- The lines are in the order of their dates, each date once. -/
theorem dateLines_ordered : (dateLines rows).Pairwise fun a b => a.1 < b.1 := by
  have hsorted : (dateLines rows).Pairwise fun a b => a.1 ≤ b.1 :=
    List.pairwise_insertionSort (fun a b : DateLine => a.1 ≤ b.1) _
  have hkeys : ((dateLines rows).map Prod.fst).Nodup :=
    ((List.perm_insertionSort (fun a b : DateLine => a.1 ≤ b.1) _).map Prod.fst).nodup_iff.mpr
      nodup_dates
  rw [List.Nodup, List.pairwise_map] at hkeys
  exact (hsorted.and hkeys).imp fun hab => lt_of_le_of_ne hab.1 hab.2

end

/-! ## 2. The dates of the zone -/

/-- **The lines of local dates**: they list the occurrences' rooms under the local date of each, the
one that a priority override of the occurrence is dated with; each once, in the order of dates. -/
structure DatedLocally (tz : Zone) (occurrences : List OccurrenceResult)
    (lines : List DateLine) : Prop where
  ordered : lines.Pairwise fun a b => a.1 < b.1
  once : ∀ line ∈ lines, line.2.Nodup
  rooms : ∀ d r, (∃ ids, (d, ids) ∈ lines ∧ r ∈ ids) ↔
    ∃ o ∈ occurrences, r ∈ o.facilityIds ∧ tz.localDate o.startAt = d
  overrides : ∀ o ∈ occurrences, ∀ db slot b released asked, b.id = o.id → b.startAt = o.startAt →
    (toSeriesTarget tz released (asked, toOccupying db slot b)).2.occurrenceDate =
      tz.localDate o.startAt

/-- The zone's offset leaves an instant on the day it has in UTC. -/
def KeepsDay (tz : Zone) (u : Int) : Prop :=
  0 ≤ (WallClock.time u).micros + tz.offset u ∧
    (WallClock.time u).micros + tz.offset u < dayMicros

section

variable {tz : Zone} {u v : Int}

theorem keepsDay_iff : KeepsDay tz u ↔ WallClock.date u = tz.localDate u := by
  have hsplit : WallClock.date u * dayMicros + (WallClock.time u).micros = u :=
    WallClock.combine_date_time u
  have hlocal : tz.localDate u = (u + tz.offset u) / dayMicros := rfl
  unfold KeepsDay
  generalize (WallClock.time u).micros = t at *
  generalize WallClock.date u = d at *
  rw [hlocal, eq_comm, Int.ediv_eq_iff_of_pos (by decide)]
  constructor <;> rintro ⟨hlo, hhi⟩ <;> constructor <;> linarith

/-- A local date is at most a day off. -/
theorem localDate_near (tz : Zone) (u : Int) : WallClock.date u - 1 ≤ tz.localDate u ∧
    tz.localDate u ≤ WallClock.date u + 1 := by
  have hoffset := tz.offset_lt u
  simp only [Zone.localDate, Zone.toLocal, WallClock.date, dayMicros] at hoffset ⊢
  omega

/-- Instants two days apart are on dates two apart. -/
theorem date_apart (h : u + 2 * dayMicros ≤ v) : WallClock.date u + 2 ≤ WallClock.date v := by
  simp only [WallClock.date, dayMicros] at h ⊢
  omega

/-- Wall times of dates a week apart are instants two days apart, and more. -/
theorem toUtc_apart {d e : Int} (t : TimeOfDay) (h : d + 7 ≤ e) :
    tz.toUtc (WallClock.combine d t) + 2 * dayMicros ≤ tz.toUtc (WallClock.combine e t) := by
  have hd := tz.wallOffset_lt (WallClock.combine d t)
  have he := tz.wallOffset_lt (WallClock.combine e t)
  simp only [Zone.toUtc, WallClock.combine, dayMicros] at hd he ⊢
  omega

/-- **The occurrences of a Series start two days apart**, and more. -/
theorem occurrences_apart {startTime endTime : TimeOfDay} {first last : Int}
    {prepared : List PreparedOccurrence}
    (h : prepareOccurrences startTime endTime tz (weeklyOccurrenceDates first last) =
      .ok prepared) :
    (prepared.map PreparedOccurrence.startAt).Pairwise fun u v => u + 2 * dayMicros ≤ v := by
  obtain ⟨hdates, hon⟩ := prepareOccurrences_ok h
  have hweeks := weeklyOccurrenceDates_pairwise first last
  rw [← hdates, List.pairwise_map] at hweeks
  refine List.pairwise_map.mpr (hweeks.imp_of_mem fun ho ho' hweek => ?_)
  rw [(localizeWallTime_some (hon _ ho).1).1, (localizeWallTime_some (hon _ ho').1).1]
  exact toUtc_apart startTime hweek

end

/-! ## 3. The two mails -/

section

variable {tz madeIn : Zone} {occurrences : List OccurrenceResult}

theorem mem_datedRooms {d : Int} {r : UUID} : (d, r) ∈ ExpiryMailService.datedRooms occurrences ↔
    ∃ o ∈ occurrences, r ∈ o.facilityIds ∧ WallClock.date o.startAt = d := by
  simp only [ExpiryMailService.datedRooms, List.mem_flatMap, List.mem_map, Prod.mk.injEq]
  constructor
  · rintro ⟨o, ho, r', hr, rfl, rfl⟩
    exact ⟨o, ho, hr, rfl⟩
  · rintro ⟨o, ho, hr, rfl⟩
    exact ⟨o, ho, r, hr, rfl, rfl⟩

/-- Two of the occurrences start at once or two days apart. -/
theorem starts_apart (h : (occurrences.map OccurrenceResult.startAt).Pairwise
      fun u v => u + 2 * dayMicros ≤ v) {o o' : OccurrenceResult} (ho : o ∈ occurrences)
    (ho' : o' ∈ occurrences) : o.startAt = o'.startAt ∨
      o.startAt + 2 * dayMicros ≤ o'.startAt ∨ o'.startAt + 2 * dayMicros ≤ o.startAt := by
  rw [List.pairwise_map] at h
  refine List.Pairwise.forall_of_forall_of_flip
    (R := fun a b : OccurrenceResult => a.startAt = b.startAt ∨
      a.startAt + 2 * dayMicros ≤ b.startAt ∨ b.startAt + 2 * dayMicros ≤ a.startAt)
    (fun _ _ => .inl rfl) (h.imp fun hab => .inr (.inl hab)) (h.imp fun hab => .inr (.inr hab))
    ho ho'

/-- **The hold-expired mail dates the occurrences as the override mail does** exactly when the
facility's zone leaves each start on the day it has in UTC. -/
theorem mailDates_local_iff {startTime endTime : TimeOfDay} {first last : Int}
    {prepared : List PreparedOccurrence}
    (hmade : prepareOccurrences startTime endTime madeIn (weeklyOccurrenceDates first last) =
      .ok prepared)
    (hlisted : (occurrences.map OccurrenceResult.startAt).Sublist
      (prepared.map PreparedOccurrence.startAt)) :
    DatedLocally tz occurrences (ExpiryMailService.occurrenceLines occurrences) ↔
      ∀ o ∈ occurrences, o.facilityIds ≠ [] → KeepsDay tz o.startAt := by
  have hapart := (occurrences_apart hmade).sublist hlisted
  constructor
  · intro hdated o ho hrooms
    obtain ⟨r, hr⟩ := List.exists_mem_of_ne_nil _ hrooms
    -- the line of the local date was filled by an occurrence of that date
    obtain ⟨o', ho', -, hdate⟩ := mem_datedRooms.mp
      (exists_dateLine_iff.mp ((hdated.rooms _ r).mpr ⟨o, ho, hr, rfl⟩))
    have hnear := localDate_near tz o.startAt
    rcases starts_apart hapart ho ho' with heq | hlater | hearlier
    · exact keepsDay_iff.mpr (by rw [← hdate, heq])
    · have := date_apart hlater
      omega
    · have := date_apart hearlier
      omega
  · intro hkeeps
    refine ⟨dateLines_ordered, fun line hline => (dateLine_rooms hline).1, fun d r => ?_, ?_⟩
    · rw [ExpiryMailService.occurrenceLines, exists_dateLine_iff, mem_datedRooms]
      refine exists_congr fun o => and_congr_right fun ho => and_congr_right fun hr => ?_
      rw [keepsDay_iff.mp (hkeeps o ho (List.ne_nil_of_mem hr))]
    · intro o _ db slot b released asked _ hstart
      exact congrArg tz.localDate hstart

end

/-! ### 3.1 An evening west of Greenwich -/

/-- Five hours behind UTC. -/
def Zone.eastern : Zone := Zone.fixed (-5 * hourMicros) (by decide)

/-- A weekly evening in that zone, from eight to nine. -/
def eveningWeeks : List PreparedOccurrence :=
  [4, 11].map fun day =>
    ⟨day, (day + 1) * dayMicros + hourMicros, (day + 1) * dayMicros + 2 * hourMicros⟩

/-- Its two occurrences, in room 3 and held for a payment that did not come. -/
def eveningOccurrences : List OccurrenceResult :=
  eveningWeeks.map fun o =>
    { id := o.occurrenceDate.toNat, title := ⟨"choir", by decide⟩, startAt := o.startAt
      endAt := o.endAt, status := .pendingPayment, quotedAmount := 40, currency := "CAD"
      facilityIds := [3], isFreeMinistry := false }

theorem eveningWeeks_made :
    prepareOccurrences (.ofHms 20 0 0 (by decide)) (.ofHms 21 0 0 (by decide)) Zone.eastern
      (weeklyOccurrenceDates 4 11) = .ok eveningWeeks := rfl

/-- To a facility that keeps UTC, the dates of the same weeks are its own. -/
theorem mailDates_local_iff_utc :
    DatedLocally Zone.utc eveningOccurrences
      (ExpiryMailService.occurrenceLines eveningOccurrences) ↔
      ∀ o ∈ eveningOccurrences, o.facilityIds ≠ [] → KeepsDay Zone.utc o.startAt :=
  mailDates_local_iff eveningWeeks_made (List.Sublist.refl _)

/-- **The mail dates an evening a day late**, where the override mail has its local date. -/
theorem mailDates_not_local :
    prepareOccurrences (.ofHms 20 0 0 (by decide)) (.ofHms 21 0 0 (by decide)) Zone.eastern
        (weeklyOccurrenceDates 4 11) = .ok eveningWeeks ∧
      (eveningOccurrences.map OccurrenceResult.startAt).Sublist
        (eveningWeeks.map PreparedOccurrence.startAt) ∧
      ¬DatedLocally Zone.eastern eveningOccurrences
        (ExpiryMailService.occurrenceLines eveningOccurrences) := by
  refine ⟨eveningWeeks_made, List.Sublist.refl _, fun h => ?_⟩
  have hline := (h.rooms 4 3).mpr (by decide)
  exact absurd (exists_dateLine_iff.mp hline) (by decide)

end NewlifeCore
