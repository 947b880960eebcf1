import NewlifeCore.Facility.OwnSlots
import NewlifeCore.Facility.PaymentHold
import NewlifeCore.Facility.Proposals
import NewlifeCore.Years

/-!
# The dates of a Series

What `_prepare_series` makes of a command that it accepts: an occurrence in each local week, at the
wall times of the command, and each of them passes the validation that only the first is put to.
The half of the year is compared and the year is not, so that a Series may run from one half of a
year into the same half of the next.
-/

namespace NewlifeCore

open Txn Prog RecurringBookingService

/-! ## 1. What is to be made -/

/-- **An occurrence a week**, at the wall times of the command, and valid. -/
structure Scheduled (command : CreateRecurringBookingSeriesCommand) (p : PreparedSeries) : Prop where
  dates : ∀ d, d ∈ p.occurrences.map PreparedOccurrence.occurrenceDate ↔
    ∃ k : Nat, d = command.firstOccurrenceDate + 7 * k ∧ d ≤ command.lastOccurrenceDate
  order : (p.occurrences.map PreparedOccurrence.occurrenceDate).Pairwise (· < ·)
  weeks : (p.occurrences.map fun o => weekOf p.localTz o.startAt).Pairwise (· < ·)
  each : ∀ e, command.firstOccurrenceDate ≤ e → e ≤ command.lastOccurrenceDate →
    ∃ o ∈ p.occurrences, weekOf p.localTz o.startAt = sundayWeekStart e
  readBack : ∀ o ∈ p.occurrences,
    p.localTz.toLocal o.startAt = WallClock.combine o.occurrenceDate command.localStartTime ∧
    p.localTz.toLocal o.endAt = WallClock.combine o.occurrenceDate command.localEndTime
  valid : ∀ o ∈ p.occurrences,
    validateBookingLines (occurrenceLines command.rooms o) p.localTz = .ok ()

/-- All of it within one half of one year. -/
structure Materialized (command : CreateRecurringBookingSeriesCommand) (p : PreparedSeries) : Prop
    extends Scheduled command p where
  period : ∃ half year, ∀ o ∈ p.occurrences,
    usePeriodForDate o.occurrenceDate = half ∧ Date.year o.occurrenceDate = year

/-! ## 2. The validation of an occurrence -/

section

variable {tz : Zone} {rooms : List BookingRoomLineCommand} {o o' : PreparedOccurrence}

/-- The occurrence ends after it starts, on the same local date. -/
def ProperFor (tz : Zone) (o : PreparedOccurrence) : Prop :=
  o.startAt < o.endAt ∧ tz.localDate o.startAt = tz.localDate o.endAt

/-- The key of a room's line at an occurrence. -/
def lineKey (o : PreparedOccurrence) (id : UUID) : UUID × Int × Int := (id, o.startAt, o.endAt)

theorem lineKey_injective : Function.Injective (lineKey o) := fun _ _ h => (Prod.ext_iff.mp h).1

theorem occurrenceLines_keys : (occurrenceLines rooms o).map ResolvedBookingLine.key =
    (rooms.map BookingRoomLineCommand.facilityId).map (lineKey o) := by
  rw [occurrenceLines, List.map_map, List.map_map]
  rfl

theorem eraseDups_replicate (n : Nat) (a : Int) : (List.replicate n a).eraseDups.length ≤ 1 := by
  cases n with
  | zero => exact Nat.zero_le 1
  | succ n =>
    have hnone : (List.replicate n a).filter (fun b => !b == a) = [] := by
      rw [List.filter_eq_nil_iff]
      intro b hb
      simp [List.eq_of_mem_replicate hb]
    rw [List.replicate_succ, List.eraseDups_cons, hnone]
    exact le_refl 1

/-- **The rooms of one occurrence are valid at another** with proper times. -/
theorem validateBookingLines_moved (hfirst : validateBookingLines (occurrenceLines rooms o) tz =
    .ok ()) (hproper : ProperFor tz o') :
    validateBookingLines (occurrenceLines rooms o') tz = .ok () := by
  have hrooms := validateBookingLines_nodup hfirst
  rw [occurrenceLines_keys, List.nodup_map_iff lineKey_injective] at hrooms
  have hlines : ∀ line ∈ occurrenceLines rooms o', line.startAt = o'.startAt ∧
      line.endAt = o'.endAt := by
    intro line hline
    obtain ⟨room, -, rfl⟩ := List.mem_map.mp hline
    exact ⟨rfl, rfl⟩
  have hok : validateLinesFrom tz [] [] (occurrenceLines rooms o') =
      .ok (((occurrenceLines rooms o').map fun line => tz.localDate line.startAt).reverse ++ []) := by
    refine validateLinesFrom_ok_iff.mpr ⟨fun line hline => ?_, ?_, fun _ _ => by simp, rfl⟩
    · obtain ⟨hstart, hend⟩ := hlines line hline
      rw [WithinLocalDay, hstart, hend]
      exact hproper
    · rw [occurrenceLines_keys, List.nodup_map_iff lineKey_injective]
      exact hrooms
  have hdays : ∀ day ∈ ((occurrenceLines rooms o').map fun line =>
      tz.localDate line.startAt).reverse ++ [], day = tz.localDate o'.startAt := by
    intro day hday
    rw [List.append_nil, List.mem_reverse] at hday
    obtain ⟨line, hline, rfl⟩ := List.mem_map.mp hday
    rw [(hlines line hline).1]
  rw [validateBookingLines, hok]
  dsimp only
  rw [List.eq_replicate_of_mem hdays]
  exact if_neg (not_lt.mpr (eraseDups_replicate _ _))

end

/-! ## 3. What an accepted command has passed -/

/-- What the checks of `_prepare_series` have established. -/
structure Accepted (app : App) (command : CreateRecurringBookingSeriesCommand)
    (p : PreparedSeries) : Prop where
  times : command.localStartTime < command.localEndTime
  weekday : Date.weekday command.firstOccurrenceDate = Date.weekday command.lastOccurrenceDate
  half : usePeriodForDate command.firstOccurrenceDate = usePeriodForDate command.lastOccurrenceDate
  order : command.firstOccurrenceDate ≤ command.lastOccurrenceDate
  zone : ∃ name, app.zoneInfo name = some p.localTz
  occurrences : prepareOccurrences command.localStartTime command.localEndTime p.localTz
    (weeklyOccurrenceDates command.firstOccurrenceDate command.lastOccurrenceDate) =
      .ok p.occurrences
  first : validateFirst command.rooms p.localTz p.occurrences = .ok ()

theorem checkSchedule_returns (command : CreateRecurringBookingSeriesCommand) :
    Returns (fun _ => command.firstOccurrenceDate ≤ command.lastOccurrenceDate ∧
      Date.weekday command.firstOccurrenceDate = Date.weekday command.lastOccurrenceDate ∧
      usePeriodForDate command.firstOccurrenceDate = usePeriodForDate command.lastOccurrenceDate)
      (checkSchedule command) := by
  refine Returns.bind (fun _ horder => Returns.bind (fun _ hweekday =>
    (Returns.raiseIf _ _).mono fun _ hhalf => ?_) (Returns.raiseIf _ _)) (Returns.raiseIf _ _)
  simp only [decide_eq_false_iff_not, not_lt, ne_eq, not_not] at horder hweekday hhalf
  exact ⟨horder, hweekday, hhalf⟩

theorem prepareSeries_returns (app : App) (r : Request)
    (command : CreateRecurringBookingSeriesCommand) :
    Returns (Accepted app command) (prepareSeries app r command) := by
  refine Returns.seq _ fun operatorId => Returns.seq _ fun _ => Returns.seq _ fun _ => ?_
  refine Returns.bind (fun _ htimes => ?_) (Returns.raiseIf _ _)
  refine Returns.seq _ fun _ => Returns.bind (fun _ hschedule => ?_) (checkSchedule_returns command)
  refine Returns.bind (fun tz hzone => ?_) (getFacilityTimezone_returns app)
  refine Returns.seq _ fun nowUtc => Returns.seq _ fun window => Returns.seq _ fun overrideOpen => ?_
  refine Returns.seq _ fun _ => Returns.seq _ fun minWeeks => Returns.seq _ fun _ => ?_
  refine Returns.bind (fun occurrences hoccurrences => ?_) (Returns.ofExcept _)
  refine Returns.bind (fun _ hfirst => Returns.seq _ fun isPriority => ?_) (Returns.ofExcept _)
  obtain ⟨horder, hweekday, hhalf⟩ := hschedule
  exact {
    times := Int.not_le.mp (of_decide_eq_false htimes)
    weekday := hweekday
    half := hhalf
    order := horder
    zone := hzone
    occurrences := hoccurrences
    first := hfirst }

/-! ## 4. The occurrences -/

section

variable {app : App} {command : CreateRecurringBookingSeriesCommand} {p : PreparedSeries}

theorem sundayWeekStart_lt {d e : Int} (h : d + 7 ≤ e) : sundayWeekStart d < sundayWeekStart e := by
  unfold sundayWeekStart Date.weekday
  omega

/-- The span has a date in the week of each of its days. -/
theorem exists_weeklyDate {first last e : Int} (hweekday : Date.weekday first = Date.weekday last)
    (hfirst : first ≤ e) (hlast : e ≤ last) :
    ∃ d ∈ weeklyOccurrenceDates first last, sundayWeekStart d = sundayWeekStart e := by
  have hd := sundayWeekStart_le first
  have he := sundayWeekStart_le e
  have hmono := sundayWeekStart_mono hfirst
  obtain ⟨k, hk⟩ : ∃ k : Nat, (k : Int) = (sundayWeekStart e - sundayWeekStart first) / 7 :=
    ⟨_, Int.toNat_of_nonneg (by omega)⟩
  refine ⟨first + 7 * k, mem_weeklyOccurrenceDates.mpr ⟨k, rfl, ?_⟩, ?_⟩
  · unfold sundayWeekStart Date.weekday at *
    omega
  · unfold sundayWeekStart Date.weekday at *
    omega

theorem Accepted.on (h : Accepted app command p) :
    p.occurrences.map PreparedOccurrence.occurrenceDate =
      weeklyOccurrenceDates command.firstOccurrenceDate command.lastOccurrenceDate ∧
    ∀ o ∈ p.occurrences, OccurrenceOn command.localStartTime command.localEndTime p.localTz o :=
  prepareOccurrences_ok h.occurrences

theorem Accepted.localDate (h : Accepted app command p) {o : PreparedOccurrence}
    (ho : o ∈ p.occurrences) : p.localTz.localDate o.startAt = o.occurrenceDate ∧
      p.localTz.localDate o.endAt = o.occurrenceDate := by
  obtain ⟨hstart, hend⟩ := h.on.2 o ho
  rw [Zone.localDate, Zone.localDate, (localizeWallTime_some hstart).2,
    (localizeWallTime_some hend).2, WallClock.date_combine, WallClock.date_combine]
  exact ⟨rfl, rfl⟩

/-- **Every occurrence ends after it starts, on its own date**: the clocks read a wall time that
they show before any later one. -/
theorem Accepted.proper (h : Accepted app command p) (htables : app.ReadsTables)
    {o : PreparedOccurrence} (ho : o ∈ p.occurrences) : ProperFor p.localTz o := by
  refine ⟨?_, (h.localDate ho).1.trans (h.localDate ho).2.symm⟩
  obtain ⟨hstart, hend⟩ := h.on.2 o ho
  obtain ⟨name, hname⟩ := h.zone
  obtain ⟨T, hT⟩ := htables name _ hname
  rw [hT] at hstart hend
  obtain ⟨hs, hshown⟩ := localizeWallTime_some hstart
  rw [hs] at hshown
  rw [hs, (localizeWallTime_some hend).1]
  refine T.toUtc_lt hshown ?_
  have htimes : command.localStartTime.micros < command.localEndTime.micros := h.times
  simp only [WallClock.combine]
  omega

theorem Accepted.weeks_eq (h : Accepted app command p) :
    p.occurrences.map (fun o => weekOf p.localTz o.startAt) =
      (weeklyOccurrenceDates command.firstOccurrenceDate command.lastOccurrenceDate).map
        sundayWeekStart := by
  rw [← h.on.1, List.map_map]
  refine List.map_congr_left fun o ho => ?_
  rw [weekOf, (h.localDate ho).1]
  rfl

/-- **What is accepted is scheduled.** -/
theorem Accepted.scheduled (h : Accepted app command p) (htables : app.ReadsTables) :
    Scheduled command p := by
  have hapart := weeklyOccurrenceDates_pairwise command.firstOccurrenceDate
    command.lastOccurrenceDate
  refine ⟨fun d => ?_, ?_, ?_, fun e hfirst hlast => ?_, fun o ho => ?_, fun o ho => ?_⟩
  · rw [h.on.1, mem_weeklyOccurrenceDates]
  · rw [h.on.1]
    exact hapart.imp fun {a b} hab => by omega
  · rw [h.weeks_eq]
    exact hapart.map _ fun a b hab => sundayWeekStart_lt hab
  · obtain ⟨d, hd, hweek⟩ := exists_weeklyDate h.weekday hfirst hlast
    have hmem : sundayWeekStart e ∈ p.occurrences.map fun o => weekOf p.localTz o.startAt := by
      rw [h.weeks_eq, ← hweek]
      exact List.mem_map_of_mem hd
    exact List.mem_map.mp hmem
  · obtain ⟨hstart, hend⟩ := h.on.2 o ho
    exact ⟨(localizeWallTime_some hstart).2, (localizeWallTime_some hend).2⟩
  · have hfirst := h.first
    cases hos : p.occurrences with
    | nil =>
      rw [hos] at ho
      exact absurd ho (by simp)
    | cons first rest =>
      rw [hos] at hfirst
      exact validateBookingLines_moved hfirst (h.proper htables ho)

/-- Both ends of the span are dates of the Series. -/
theorem Accepted.ends (h : Accepted app command p) :
    command.firstOccurrenceDate ∈ p.occurrences.map PreparedOccurrence.occurrenceDate ∧
    command.lastOccurrenceDate ∈ p.occurrences.map PreparedOccurrence.occurrenceDate := by
  have horder := h.order
  have hweekday := h.weekday
  rw [h.on.1, mem_weeklyOccurrenceDates, mem_weeklyOccurrenceDates]
  refine ⟨⟨0, by omega, horder⟩,
    ⟨((command.lastOccurrenceDate - command.firstOccurrenceDate) / 7).toNat, ?_, le_refl _⟩⟩
  unfold Date.weekday at hweekday
  omega

theorem Materialized.year_eq (hm : Materialized command p) (h : Accepted app command p) :
    Date.year command.lastOccurrenceDate = Date.year command.firstOccurrenceDate := by
  obtain ⟨half, year, hperiod⟩ := hm.period
  obtain ⟨hfirst, hlast⟩ := h.ends
  obtain ⟨o, ho, hfirst⟩ := List.mem_map.mp hfirst
  obtain ⟨o', ho', hlast⟩ := List.mem_map.mp hlast
  rw [← hfirst, ← hlast, (hperiod o ho).2, (hperiod o' ho').2]

theorem usePeriodForDate_eq {d e : Int} (hyear : Date.year d = Date.year e)
    (hjuly : d < Date.ofCivil (Date.year d) 7 1 ↔ e < Date.ofCivil (Date.year d) 7 1) :
    usePeriodForDate d = usePeriodForDate e := by
  have hmonth : Date.month d ≤ 6 ↔ Date.month e ≤ 6 := by
    rw [Date.month_le_six_iff, Date.month_le_six_iff, ← hyear, hjuly]
  simp only [usePeriodForDate, hmonth]

theorem usePeriodForDate_iff {d e : Int} (h : usePeriodForDate d = usePeriodForDate e) :
    Date.month d ≤ 6 ↔ Date.month e ≤ 6 := by
  unfold usePeriodForDate at h
  by_cases hd : Date.month d ≤ 6
  · by_cases he : Date.month e ≤ 6
    · exact iff_of_true hd he
    · rw [if_pos hd, if_neg he] at h
      cases h
  · by_cases he : Date.month e ≤ 6
    · rw [if_neg hd, if_pos he] at h
      cases h
    · exact iff_of_false hd he

/-- Between two dates of one half of one year all dates are of it. -/
theorem usePeriodForDate_between {first last d : Int} (hfirst : first ≤ d) (hlast : d ≤ last)
    (hyear : Date.year last = Date.year first)
    (hhalf : usePeriodForDate first = usePeriodForDate last) :
    usePeriodForDate d = usePeriodForDate first ∧ Date.year d = Date.year first := by
  have hd : Date.year d = Date.year first :=
    le_antisymm (hyear ▸ Date.year_mono hlast) (Date.year_mono hfirst)
  have hmonth := usePeriodForDate_iff hhalf
  rw [Date.month_le_six_iff, Date.month_le_six_iff, hyear] at hmonth
  refine ⟨usePeriodForDate_eq hd ?_, hd⟩
  rw [hd]
  omega

end

/-! ## 5. When the Series stays within one period -/

/-- **An accepted Series has its occurrences as they are to be, and they lie in one period exactly
when the first and the last are of one year.** -/
theorem series_materialized_iff (app : App) (htables : app.ReadsTables) (r : Request)
    (command : CreateRecurringBookingSeriesCommand) {db db' : Db} {t : Int} {p : PreparedSeries}
    (h : (prepareSeries app r command).exec db t = .ok (p, db')) :
    Scheduled command p ∧
    (Materialized command p ↔
      Date.year command.lastOccurrenceDate = Date.year command.firstOccurrenceDate) := by
  have haccepted := exec_returns (prepareSeries_returns app r command) h
  have hscheduled := haccepted.scheduled htables
  refine ⟨hscheduled, fun hm => ?_, fun hyear => ⟨hscheduled,
    usePeriodForDate command.firstOccurrenceDate, Date.year command.firstOccurrenceDate,
    fun o ho => ?_⟩⟩
  · exact hm.year_eq haccepted
  · obtain ⟨k, hk, hle⟩ := (hscheduled.dates _).mp (List.mem_map_of_mem ho)
    exact usePeriodForDate_between (by omega) hle hyear haccepted.half

theorem App.utc_readsTables : App.utc.ReadsTables := by
  intro name tz h
  cases h
  exact ⟨ZoneTable.utc, rfl⟩

/-- A look at the Series of a command, in a database with one room. -/
theorem exists_prepared (command : CreateRecurringBookingSeriesCommand) (t : Int)
    (h : ((prepareSeries App.utc (.numbered 7 100) command).exec Db.oneRoom t).isOk = true) :
    ∃ p db', (prepareSeries App.utc (.numbered 7 100) command).exec Db.oneRoom t = .ok (p, db') := by
  cases he : (prepareSeries App.utc (.numbered 7 100) command).exec Db.oneRoom t with
  | error e =>
    rw [he] at h
    cases h
  | ok out => exact ⟨out.1, out.2, rfl⟩

/-- A Series of March 2024. -/
theorem series_materialized_march : ∃ p,
    Materialized (bookWeekly (Date.ofCivil 2024 3 3) (Date.ofCivil 2024 3 31)) p := by
  obtain ⟨p, db', h⟩ := exists_prepared
    (bookWeekly (Date.ofCivil 2024 3 3) (Date.ofCivil 2024 3 31))
    (WallClock.combine (Date.ofCivil 2024 2 1) .noon) (by decide +kernel)
  exact ⟨p, (series_materialized_iff App.utc App.utc_readsTables _ _ h).2.mpr (by decide)⟩

/-- From the last Sunday of June 2024 to the first of January 2025. -/
def acrossTheYear : CreateRecurringBookingSeriesCommand :=
  bookWeekly (Date.ofCivil 2024 6 30) (Date.ofCivil 2025 1 5)

/-- **A Series across the second half of a year** is accepted, for both its ends are of a first
half. -/
theorem acrossTheYear_not_materialized : ∃ p db',
    (prepareSeries App.utc (.numbered 7 100) acrossTheYear).exec Db.oneRoom
      (WallClock.combine (Date.ofCivil 2024 2 1) .noon) = .ok (p, db') ∧
    ¬ Materialized acrossTheYear p := by
  obtain ⟨p, db', h⟩ := exists_prepared acrossTheYear
    (WallClock.combine (Date.ofCivil 2024 2 1) .noon) (by decide +kernel)
  refine ⟨p, db', h, fun hm => ?_⟩
  have hyear := hm.year_eq (exec_returns (prepareSeries_returns App.utc _ _) h)
  exact absurd hyear (by decide)

end NewlifeCore
