import NewlifeCore.Facility.SeriesReads
import NewlifeCore.Intervals
import NewlifeCore.Lists

/-!
# The weekly quota

`_weekly_quota_conflict_dates` compares weeks by local date, but asks for the booker's Bookings once,
between the local midnights at the ends of the weeks.  An hour that the clocks repeat over the
Sunday midnight after the last week is of that week by its local date and after that midnight.
-/

namespace NewlifeCore

open Txn Prog Intervals RecurringBookingService

/-! ## 1. What is to be found -/

/-- An occupying Rental of the booker starts in the week of an instant. -/
def rentalInWeek (db : Db) (t : Int) (bookerId : UUID) (tz : Zone) (u : Int) : Bool :=
  db.bookings.any fun b => b.userId = bookerId && b.ministryId.isNone && !b.isDeleted &&
    activeOccupancy db t b && weekOf tz b.startAt = weekOf tz u

/-- **The dates are those of the occurrences in whose week the booker has a Rental.** -/
def QuotaExact (bookerId : UUID) (occurrences : List PreparedOccurrence) (tz : Zone) (db : Db)
    (t : Int) : Prop :=
  (weeklyQuotaConflictDates bookerId occurrences tz).eval db t =
    .ok ((occurrences.filter fun o => rentalInWeek db t bookerId tz o.startAt).map
      PreparedOccurrence.occurrenceDate)

/-- The range that is asked for: from the Sunday midnight of the first week to that after the
last. -/
def quotaRange (tz : Zone) (occurrences : List PreparedOccurrence) : Int × Int :=
  match occurrences.map (startDate tz) with
  | [] => (0, 0)
  | d :: ds => (tz.startOfDay (sundayWeekStart (minOf d ds)),
      tz.startOfDay (sundayWeekStart (maxOf d ds) + 7))

/-- **No Rental is missed**: where one starts in the week of an occurrence, one of that week starts
within the range. -/
def NoneMissed (bookerId : UUID) (occurrences : List PreparedOccurrence) (tz : Zone) (db : Db)
    (t : Int) : Prop :=
  ∀ o ∈ occurrences, ∀ b, RentalOf db t bookerId b → weekOf tz b.startAt = weekOf tz o.startAt →
    ∃ b', RentalOf db t bookerId b' ∧ weekOf tz b'.startAt = weekOf tz o.startAt ∧
      Holds (quotaRange tz occurrences) b'.startAt

/-- **The weeks of the occurrences lie in the range**, by every instant that is shown in them. -/
def WeeksInRange (tz : Zone) (occurrences : List PreparedOccurrence) : Prop :=
  ∀ o ∈ occurrences, ∀ u, weekOf tz u = weekOf tz o.startAt → Holds (quotaRange tz occurrences) u

/-! ## 2. What is found -/

section

variable {db : Db} {t : Int} {bookerId : UUID} {tz : Zone} {occurrences : List PreparedOccurrence}

/-- An occupying Rental of the booker within the range starts in the week of an instant. -/
def rentalInRange (db : Db) (t : Int) (bookerId : UUID) (tz : Zone) (range : Int × Int) (u : Int) :
    Bool :=
  (((db.bookings.filter fun b => b.userId = bookerId && b.ministryId.isNone && !b.isDeleted &&
    activeOccupancy db t b && range.1 ≤ b.startAt && b.startAt < range.2).map
      Booking.startAt).map (weekOf tz)).contains (weekOf tz u)

theorem rentalInWeek_iff {u : Int} : rentalInWeek db t bookerId tz u = true ↔
    ∃ b, RentalOf db t bookerId b ∧ weekOf tz b.startAt = weekOf tz u := by
  simp only [rentalInWeek, RentalOf, List.any_eq_true, Bool.and_eq_true, decide_eq_true_eq,
    Option.isNone_iff_eq_none, Bool.not_eq_true', and_assoc]

theorem rentalInRange_iff {range : Int × Int} {u : Int} :
    rentalInRange db t bookerId tz range u = true ↔
      ∃ b, RentalOf db t bookerId b ∧ weekOf tz b.startAt = weekOf tz u ∧ Holds range b.startAt := by
  rw [rentalInRange, List.map_map, List.contains_iff_mem, List.mem_map]
  simp only [RentalOf, Holds, List.mem_filter, Bool.and_eq_true, decide_eq_true_eq,
    Option.isNone_iff_eq_none, Bool.not_eq_true', and_assoc, Function.comp_apply]
  constructor
  · rintro ⟨b, hb, huser, hministry, hdeleted, hactive, hlo, hhi, hweek⟩
    exact ⟨b, hb, huser, hministry, hdeleted, hactive, hweek, hlo, hhi⟩
  · rintro ⟨b, hb, huser, hministry, hdeleted, hactive, hweek, hlo, hhi⟩
    exact ⟨b, hb, huser, hministry, hdeleted, hactive, hlo, hhi, hweek⟩

/-- The call answers with the occurrences in whose week a Rental within the range starts. -/
theorem weeklyQuotaConflictDates_eval (h : occurrences ≠ []) :
    (weeklyQuotaConflictDates bookerId occurrences tz).eval db t =
      .ok ((occurrences.filter fun o =>
        rentalInRange db t bookerId tz (quotaRange tz occurrences) o.startAt).map
          PreparedOccurrence.occurrenceDate) := by
  cases occurrences with
  | nil => exact absurd rfl h
  | cons o os => exact (eval_bind_iff (ReadOnly.select _)).mpr ⟨_, rfl, rfl⟩

/-- **In one state the dates are exact** when no Rental is missed. -/
theorem quotaExact_iff : QuotaExact bookerId occurrences tz db t ↔
    occurrences ≠ [] ∧ NoneMissed bookerId occurrences tz db t := by
  by_cases hne : occurrences = []
  · subst hne
    exact iff_of_false (fun h => by cases h) fun h => h.1 rfl
  · rw [QuotaExact, weeklyQuotaConflictDates_eval hne, Except.ok.injEq,
      map_filter_eq_iff fun o ho => ?_]
    · simp only [rentalInWeek_iff, rentalInRange_iff, NoneMissed, forall_exists_index, and_imp, ne_eq,
        hne, not_false_eq_true, true_and]
    · obtain ⟨b, hb, hweek, -⟩ := rentalInRange_iff.mp ho
      exact rentalInWeek_iff.mpr ⟨b, hb, hweek⟩

/-- A Rental of the booker that starts at an instant. -/
def rentalAt (bookerId : UUID) (u : Int) : Booking where
  id := 1
  userId := bookerId
  facilityId := 3
  bookingType := .oneTime
  startAt := u
  endAt := u + hourMicros
  status := .confirmed
  title := ⟨"choir", choir_length⟩

theorem rentalOf_rentalAt {u : Int} {b : Booking} :
    RentalOf { bookings := [rentalAt bookerId u] } t bookerId b ↔ b = rentalAt bookerId u := by
  constructor
  · rintro ⟨hb, -⟩
    exact List.mem_singleton.mp hb
  · rintro rfl
    exact ⟨.head _, rfl, rfl, rfl, rfl⟩

/-- A Rental that starts outside the range, in the week of an occurrence, is missed. -/
theorem not_noneMissed {o : PreparedOccurrence} {u : Int} (ho : o ∈ occurrences)
    (hweek : weekOf tz u = weekOf tz o.startAt) (hout : ¬ Holds (quotaRange tz occurrences) u) :
    ¬ NoneMissed bookerId occurrences tz { bookings := [rentalAt bookerId u] } t := by
  intro h
  obtain ⟨b, hb, -, hin⟩ := h o ho _ (rentalOf_rentalAt.mpr rfl) hweek
  rw [rentalOf_rentalAt.mp hb] at hin
  exact hout hin

end

/-! ## 3. When it is exact -/

/-- **The quota is exact** in a state when no Rental of it is missed, and in every state when the
weeks of the occurrences lie in the range. -/
theorem weeklyQuota_exact_iff (tz : Zone) (occurrences : List PreparedOccurrence) :
    (∀ (db : Db) (t : Int) (bookerId : UUID), QuotaExact bookerId occurrences tz db t ↔
      occurrences ≠ [] ∧ NoneMissed bookerId occurrences tz db t) ∧
    ((∀ (db : Db) (t : Int) (bookerId : UUID), QuotaExact bookerId occurrences tz db t) ↔
      occurrences ≠ [] ∧ WeeksInRange tz occurrences) := by
  refine ⟨fun db t bookerId => quotaExact_iff, fun h => ⟨?_, fun o ho u hweek => ?_⟩, ?_⟩
  · exact (quotaExact_iff.mp (h {} 0 0)).1
  · by_contra hout
    exact not_noneMissed ho hweek hout (quotaExact_iff.mp (h { bookings := [rentalAt 0 u] } 0 0)).2
  · rintro ⟨hne, hweeks⟩ db t bookerId
    exact quotaExact_iff.mpr ⟨hne, fun o ho b hb hweek => ⟨b, hb, hweek, hweeks o ho _ hweek⟩⟩

/-- The clocks go back an hour at a minute past midnight of the first Sunday. -/
def backPastMidnight : Zone :=
  .transition (3 * dayMicros + minuteMicros) 0 (-hourMicros) Zone.zero_bounded (by decide)

/-- An occurrence at noon of the Thursday before. -/
def thursdayNoon : PreparedOccurrence where
  occurrenceDate := 0
  startAt := WallClock.combine 0 .noon
  endAt := WallClock.combine 0 .noon + hourMicros

/-- **A Rental in the hour that the clocks repeat** is of Saturday, and is missed. -/
theorem repeatedHour_not_exact : ¬ QuotaExact 7 [thursdayNoon] backPastMidnight
    { bookings := [rentalAt 7 (3 * dayMicros + 30 * minuteMicros)] } 0 := by
  intro h
  refine not_noneMissed (o := thursdayNoon) (.head _) (by decide) ?_ (quotaExact_iff.mp h).2
  rintro ⟨-, hend⟩
  exact absurd hend (by decide)

end NewlifeCore
