import NewlifeCore.Facility.Recurring
import NewlifeCore.Years

/-!
# The summary of the availability window

`is_any_recurring_period_open` asks the openings of four years, where the availability window of a
date is that of its own opening, and `next_recurring_opening_date` looks for the next one among
them.  Openings and the ends of their windows are in one order, so that the latest opening that has
passed answers for all before it.

Python's dates end with the year 9999, and arithmetic past them raises: none stands for that.
-/

namespace NewlifeCore

/-! ## 1. The functions -/

/-- A date of Python's calendar; none where computing it raises. -/
def inDates (d : Int) : Option Int :=
  if Date.ofCivil 1 1 1 ≤ d ∧ d ≤ Date.ofCivil 9999 12 31 then some d else none

namespace AvailabilityWindow

/-- `opening_date_for_period`. -/
def openingDate (period : RecurringUsePeriod) (periodYear : Int) : Option Int :=
  inDates (openingDateForPeriod period periodYear)

/-- `is_within_availability_window`. -/
def isWithin (nowLocal opening amount : Int) (unit : RecurringAvailabilityUnit) : Option Bool := do
  let windowEnd ← inDates (addAvailabilityDuration opening amount unit)
  pure (WallClock.combine opening .midnight ≤ nowLocal &&
    nowLocal < WallClock.combine windowEnd .midnight)

/-- `is_first_occurrence_in_availability_window`. -/
def isFirstOccurrenceIn (nowLocal firstOccurrenceDate amount : Int)
    (unit : RecurringAvailabilityUnit) : Option Bool := do
  let opening ← openingDate (usePeriodForDate firstOccurrenceDate) (Date.year firstOccurrenceDate)
  isWithin nowLocal opening amount unit

/-- The periods that are scanned, in order: those of the year before and of three from it on. -/
def scanned (nowLocal : Int) : List (Int × RecurringUsePeriod) :=
  [-1, 0, 1, 2].flatMap fun i => [.janJun, .julDec].map fun period =>
    (Date.year (WallClock.date nowLocal) + i, period)

/-- The loop of `is_any_recurring_period_open`. -/
def anyOpen (nowLocal amount : Int) (unit : RecurringAvailabilityUnit) :
    List (Int × RecurringUsePeriod) → Option Bool
  | [] => some false
  | (year, period) :: rest => do
    let opening ← openingDate period year
    if ← isWithin nowLocal opening amount unit then some true else anyOpen nowLocal amount unit rest

/-- `is_any_recurring_period_open`. -/
def isAnyRecurringPeriodOpen (nowLocal amount : Int) (unit : RecurringAvailabilityUnit) :
    Option Bool :=
  anyOpen nowLocal amount unit (scanned nowLocal)

/-- The loop of `next_recurring_opening_date`. -/
def candidates (nowLocal : Int) : List (Int × RecurringUsePeriod) → Option (List Int)
  | [] => some []
  | (year, period) :: rest => do
    let opening ← openingDate period year
    let others ← candidates nowLocal rest
    pure (if WallClock.combine opening .midnight > nowLocal then opening :: others else others)

/-- `next_recurring_opening_date`: the first opening in the scanned years that is still to come. -/
def nextRecurringOpeningDate (nowLocal : Int) : Option (Option Int) :=
  (candidates nowLocal (scanned nowLocal)).map List.min?

/-! ## 2. Openings by number -/

/-- The openings in order, two a year: June's is the even one. -/
def opening (h : Int) : Int := Date.firstOfMonth (6 * h + 5)

/-- The number of a period's opening. -/
def openingNumber (period : RecurringUsePeriod) (periodYear : Int) : Int :=
  match period with
  | .janJun => 2 * periodYear - 1
  | .julDec => 2 * periodYear

/-- Where the window of an opening ends. -/
def windowEnd (amount : Int) (unit : RecurringAvailabilityUnit) (h : Int) : Int :=
  match unit with
  | .days => opening h + amount
  | .weeks => opening h + 7 * amount
  | .months => Date.firstOfMonth (6 * h + 5 + amount)

section

variable {h h' amount y : Int} {unit : RecurringAvailabilityUnit} {period : RecurringUsePeriod}

theorem opening_lt (hlt : h < h') : opening h < opening h' := Date.firstOfMonth_lt (by omega)

theorem opening_lt_iff : opening h < opening h' ↔ h < h' := by
  refine ⟨fun hlt => ?_, opening_lt⟩
  by_contra hle
  rcases lt_or_eq_of_le (not_lt.mp hle) with hgt | rfl
  · exact absurd hlt (not_lt.mpr (le_of_lt (opening_lt hgt)))
  · exact lt_irrefl _ hlt

theorem opening_le (hle : h ≤ h') : opening h ≤ opening h' := Date.firstOfMonth_le (by omega)

theorem windowEnd_le (hle : h ≤ h') : windowEnd amount unit h ≤ windowEnd amount unit h' := by
  have hopening := opening_le hle
  cases unit with
  | days => exact Int.add_le_add_right hopening _
  | weeks => exact Int.add_le_add_right hopening _
  | months => exact Date.firstOfMonth_le (by omega)

theorem opening_le_windowEnd (hpos : 1 ≤ amount) : opening h ≤ windowEnd amount unit h := by
  cases unit with
  | days =>
    simp only [windowEnd]
    omega
  | weeks =>
    simp only [windowEnd]
    omega
  | months => exact Date.firstOfMonth_le (by omega)

theorem openingDateForPeriod_eq : openingDateForPeriod period y = opening (openingNumber period y) := by
  cases period with
  | janJun =>
    rw [openingDateForPeriod, ← Date.firstOfMonth_eq (by omega) (by omega), opening, openingNumber]
    congr 1
    omega
  | julDec =>
    rw [openingDateForPeriod, ← Date.firstOfMonth_eq (by omega) (by omega), opening, openingNumber]
    congr 1
    omega

/-- An opening is the first of June or of December. -/
theorem opening_civil (h : Int) : ∃ y m, (m = 6 ∨ m = 12) ∧ opening h = Date.ofCivil y m 1 ∧
    6 * h + 5 = 12 * y + m - 1 := by
  rcases Int.emod_two_eq_zero_or_one h with heven | hodd
  · refine ⟨h / 2, 6, .inl rfl, ?_, by omega⟩
    rw [← Date.firstOfMonth_eq (by omega) (by omega), opening]
    congr 1
    omega
  · refine ⟨h / 2, 12, .inr rfl, ?_, by omega⟩
    rw [← Date.firstOfMonth_eq (by omega) (by omega), opening]
    congr 1
    omega

/-- **Month arithmetic on an opening** gives the first of a month. -/
theorem addAvailabilityDuration_opening :
    addAvailabilityDuration (opening h) amount unit = windowEnd amount unit h := by
  cases unit with
  | days => rfl
  | weeks => rfl
  | months =>
    obtain ⟨y, m, hm, hopening, hnumber⟩ := opening_civil h
    have hcivil := Date.civil_firstOf (y := y) hm
    have hlength := Date.monthLength_pos (y := y + (m - 1 + amount) / 12)
      (m := (m - 1 + amount) % 12 + 1) (by omega) (by omega)
    rw [windowEnd, addAvailabilityDuration, hopening]
    simp only [Date.month, Date.year, Date.day, hcivil]
    rw [min_eq_left hlength, ← Date.firstOfMonth_eq (by omega) (by omega)]
    congr 1
    omega

end

/-! ## 3. What is scanned -/

section

variable {nowLocal amount y h : Int} {unit : RecurringAvailabilityUnit} {period : RecurringUsePeriod}

/-- The year of a local time. -/
def yearOf (nowLocal : Int) : Int := Date.year (WallClock.date nowLocal)

theorem mem_scanned : (y, period) ∈ scanned nowLocal ↔
    2 * yearOf nowLocal - 3 ≤ openingNumber period y ∧
      openingNumber period y ≤ 2 * yearOf nowLocal + 4 := by
  simp only [scanned, yearOf, List.mem_flatMap, List.mem_map, List.mem_cons, List.not_mem_nil, or_false,
    Prod.mk.injEq]
  constructor
  · rintro ⟨i, hi, p, hp, rfl, rfl⟩
    rcases hp with rfl | rfl
    · simp only [openingNumber]
      omega
    · simp only [openingNumber]
      omega
  · intro hrange
    refine ⟨y - Date.year (WallClock.date nowLocal), ?_, period, ?_, by omega, rfl⟩
    · cases period with
      | janJun =>
        simp only [openingNumber] at hrange
        omega
      | julDec =>
        simp only [openingNumber] at hrange
        omega
    · cases period with
      | janJun => exact .inl rfl
      | julDec => exact .inr rfl

theorem exists_scanned (nowLocal : Int) (h₁ : 2 * yearOf nowLocal - 3 ≤ h)
    (h₂ : h ≤ 2 * yearOf nowLocal + 4) :
    ∃ y period, (y, period) ∈ scanned nowLocal ∧ openingNumber period y = h := by
  rcases Int.emod_two_eq_zero_or_one h with heven | hodd
  · have hnumber : openingNumber .julDec (h / 2) = h := by
      simp only [openingNumber]
      omega
    exact ⟨h / 2, .julDec, mem_scanned.mpr (by omega), hnumber⟩
  · have hnumber : openingNumber .janJun (h / 2 + 1) = h := by
      simp only [openingNumber]
      omega
    exact ⟨h / 2 + 1, .janJun, mem_scanned.mpr (by omega), hnumber⟩

/-- **The latest opening that has passed**, and the next, are among those scanned. -/
theorem exists_latest (nowLocal : Int) : ∃ h, 2 * yearOf nowLocal - 1 ≤ h ∧
    h ≤ 2 * yearOf nowLocal + 1 ∧ opening h ≤ WallClock.date nowLocal ∧
    WallClock.date nowLocal < opening (h + 1) := by
  obtain ⟨hlo, hhi⟩ := Date.year_bounds (WallClock.date nowLocal)
  rw [← Date.firstOfMonth_eq (by omega) (by omega)] at hlo hhi
  have hfirst : opening (2 * yearOf nowLocal - 1) < _ :=
    lt_of_lt_of_le (Date.firstOfMonth_lt (by unfold yearOf; omega)) hlo
  have hlast : _ < opening (2 * yearOf nowLocal + 1 + 1) :=
    lt_of_lt_of_le hhi (Date.firstOfMonth_le (by unfold yearOf; omega))
  by_cases h₁ : WallClock.date nowLocal < opening (2 * yearOf nowLocal - 1 + 1)
  · exact ⟨2 * yearOf nowLocal - 1, by omega, by omega, le_of_lt hfirst, h₁⟩
  · by_cases h₂ : WallClock.date nowLocal < opening (2 * yearOf nowLocal + 1)
    · exact ⟨2 * yearOf nowLocal, by omega, by omega,
        le_trans (opening_le (by omega)) (not_lt.mp h₁), h₂⟩
    · exact ⟨2 * yearOf nowLocal + 1, by omega, by omega, not_lt.mp h₂, hlast⟩

theorem inDates_eq {d d' : Int} : inDates d = some d' ↔
    d' = d ∧ Date.ofCivil 1 1 1 ≤ d ∧ d ≤ Date.ofCivil 9999 12 31 := by
  unfold inDates
  split
  · rename_i hin
    rw [Option.some.injEq]
    exact ⟨fun heq => ⟨heq.symm, hin⟩, fun heq => heq.1.symm⟩
  · rename_i hout
    exact iff_of_false (by simp) fun heq => hout heq.2

/-- The openings of the years 1 to 9999 are dates. -/
theorem inDates_opening (h₁ : 2 ≤ h) (h₂ : h ≤ 19999) : inDates (opening h) = some (opening h) := by
  have hlo := Date.firstOfMonth_le (show 12 ≤ 6 * h + 5 by omega)
  have hhi := Date.firstOfMonth_le (show 6 * h + 5 ≤ 119999 by omega)
  have hfirst : Date.firstOfMonth 12 = Date.ofCivil 1 1 1 := by decide
  have hlast : Date.firstOfMonth 119999 ≤ Date.ofCivil 9999 12 31 := by decide
  exact inDates_eq.mpr ⟨rfl, hfirst ▸ hlo, le_trans hhi hlast⟩

theorem openingDate_eq (h₁ : 2 ≤ openingNumber period y) (h₂ : openingNumber period y ≤ 19999) :
    openingDate period y = some (opening (openingNumber period y)) := by
  rw [openingDate, openingDateForPeriod_eq, inDates_opening h₁ h₂]

/-! ## 4. Open windows -/

/-- The window of an opening holds the time. -/
def IsOpen (nowLocal amount : Int) (unit : RecurringAvailabilityUnit) (h : Int) : Prop :=
  opening h ≤ WallClock.date nowLocal ∧ WallClock.date nowLocal < windowEnd amount unit h

instance : Decidable (IsOpen nowLocal amount unit h) := inferInstanceAs (Decidable (_ ∧ _))

theorem isWithin_eq {b : Bool} : isWithin nowLocal (opening h) amount unit = some b ↔
    (inDates (windowEnd amount unit h)).isSome ∧ b = decide (IsOpen nowLocal amount unit h) := by
  have htest : ∀ d, (decide (WallClock.combine (opening h) .midnight ≤ nowLocal) &&
      decide (nowLocal < WallClock.combine d .midnight)) =
      decide (opening h ≤ WallClock.date nowLocal ∧ WallClock.date nowLocal < d) := by
    intro d
    rw [← Bool.decide_and]
    congr 1
    rw [WallClock.midnight_le_iff, ← not_le (a := WallClock.combine d .midnight),
      WallClock.midnight_le_iff, not_le]
  rw [isWithin, addAvailabilityDuration_opening]
  cases hend : inDates (windowEnd amount unit h) with
  | none => simp
  | some d =>
    obtain ⟨rfl, -⟩ := inDates_eq.mp hend
    simp only [Option.bind_eq_bind, Option.bind_some, Option.pure_def, htest, Option.some.injEq,
      Option.isSome_some, true_and, IsOpen]
    exact eq_comm

/-- What the window that opens for a scanned use period says of the time. -/
abbrev windowOf (nowLocal amount : Int) (unit : RecurringAvailabilityUnit)
    (q : Int × RecurringUsePeriod) : Option Bool :=
  (openingDate q.2 q.1).bind fun o => isWithin nowLocal o amount unit

theorem anyOpen_cons (q : Int × RecurringUsePeriod) (rest : List (Int × RecurringUsePeriod)) :
    anyOpen nowLocal amount unit (q :: rest) = (windowOf nowLocal amount unit q).bind fun b =>
      if b then some true else anyOpen nowLocal amount unit rest := by
  obtain ⟨year, period⟩ := q
  rw [windowOf, Option.bind_assoc]
  rfl

theorem anyOpen_true : ∀ {l : List (Int × RecurringUsePeriod)},
    anyOpen nowLocal amount unit l = some true →
      ∃ q ∈ l, windowOf nowLocal amount unit q = some true
  | [], hany => by cases hany
  | q :: rest, hany => by
    rw [anyOpen_cons] at hany
    obtain ⟨b, hb, hrest⟩ := Option.bind_eq_some_iff.mp hany
    cases b with
    | true => exact ⟨q, .head _, hb⟩
    | false =>
      obtain ⟨q', hq', hwithin⟩ := anyOpen_true (l := rest) hrest
      exact ⟨q', .tail _ hq', hwithin⟩

theorem anyOpen_false : ∀ {l : List (Int × RecurringUsePeriod)},
    anyOpen nowLocal amount unit l = some false →
      ∀ q ∈ l, windowOf nowLocal amount unit q = some false
  | [], _, q, hq => by cases hq
  | q₀ :: rest, hany, q, hq => by
    rw [anyOpen_cons] at hany
    obtain ⟨b, hb, hrest⟩ := Option.bind_eq_some_iff.mp hany
    cases b with
    | true => cases hrest
    | false =>
      rcases List.mem_cons.mp hq with rfl | hq
      · exact hb
      · exact anyOpen_false (l := rest) hrest q hq

theorem anyOpen_isSome : ∀ {l : List (Int × RecurringUsePeriod)},
    (∀ q ∈ l, (windowOf nowLocal amount unit q).isSome) → (anyOpen nowLocal amount unit l).isSome
  | [], _ => rfl
  | q :: rest, hall => by
    have hrest := anyOpen_isSome fun q' hq' => hall q' (.tail _ hq')
    obtain ⟨b, hb⟩ := Option.isSome_iff_exists.mp (hall q (.head _))
    rw [anyOpen_cons, hb]
    cases b with
    | true => rfl
    | false => exact hrest

end

/-! ## 5. The summary -/

section

variable {nowLocal amount : Int} {unit : RecurringAvailabilityUnit}

/-- Years far enough from both ends of the calendar for all openings that are scanned. -/
def WellWithin (nowLocal : Int) : Prop := 3 ≤ yearOf nowLocal ∧ yearOf nowLocal ≤ 9997

instance : Decidable (WellWithin nowLocal) := inferInstanceAs (Decidable (_ ∧ _))

theorem openingDate_scanned (hyear : WellWithin nowLocal) {q : Int × RecurringUsePeriod}
    (hq : q ∈ scanned nowLocal) :
    openingDate q.2 q.1 = some (opening (openingNumber q.2 q.1)) := by
  obtain ⟨h₁, h₂⟩ := mem_scanned.mp hq
  obtain ⟨hlo, hhi⟩ := hyear
  exact openingDate_eq (by omega) (by omega)

theorem windowOf_scanned (hyear : WellWithin nowLocal) {q : Int × RecurringUsePeriod}
    (hq : q ∈ scanned nowLocal) : windowOf nowLocal amount unit q =
      isWithin nowLocal (opening (openingNumber q.2 q.1)) amount unit := by
  rw [windowOf, openingDate_scanned hyear hq, Option.bind_some]

/-- The first day of a period is a date, of that period and year. -/
theorem exists_dateOf {y : Int} (h₁ : 1 ≤ y) (h₂ : y ≤ 9999) (period : RecurringUsePeriod) :
    ∃ d, (inDates d).isSome ∧ usePeriodForDate d = period ∧ Date.year d = y := by
  have hlo := Date.firstOfMonth_le (show 12 ≤ 12 * y + 1 - 1 by omega)
  have hhi := Date.firstOfMonth_le (show 12 * y + 7 - 1 ≤ 119999 by omega)
  have hfirst : Date.firstOfMonth 12 = Date.ofCivil 1 1 1 := by decide
  have hlast : Date.firstOfMonth 119999 ≤ Date.ofCivil 9999 12 31 := by decide
  rw [Date.firstOfMonth_eq (by omega) (by omega), hfirst] at hlo
  rw [Date.firstOfMonth_eq (by omega) (by omega)] at hhi
  obtain ⟨hmid, hend⟩ := Date.year_july y
  have hin : ∀ d, Date.ofCivil y 1 1 ≤ d → d ≤ Date.ofCivil y 7 1 → (inDates d).isSome := by
    intro d hlo' hhi'
    rw [inDates, if_pos ⟨le_trans hlo hlo', le_trans hhi' (le_trans hhi hlast)⟩]
    rfl
  cases period with
  | janJun =>
    have hyear : Date.year (Date.ofCivil y 1 1) = y := Date.year_eq_iff.mpr ⟨le_refl _, by omega⟩
    refine ⟨Date.ofCivil y 1 1, hin _ (le_refl _) (by omega), ?_, hyear⟩
    rw [usePeriodForDate, if_pos ((Date.month_le_six_iff _).mpr (by rw [hyear]; omega))]
  | julDec =>
    have hyear : Date.year (Date.ofCivil y 7 1) = y := Date.year_eq_iff.mpr ⟨by omega, by omega⟩
    refine ⟨Date.ofCivil y 7 1, hin _ (by omega) (le_refl _), ?_, hyear⟩
    rw [usePeriodForDate, if_neg (mt (Date.month_le_six_iff _).mp (by rw [hyear]; omega))]

/-- A date in its window has an open opening. -/
theorem isOpen_of_isFirstOccurrenceIn {d : Int}
    (h : isFirstOccurrenceIn nowLocal d amount unit = some true) :
    IsOpen nowLocal amount unit (openingNumber (usePeriodForDate d) (Date.year d)) := by
  unfold isFirstOccurrenceIn at h
  cases hopening : openingDate (usePeriodForDate d) (Date.year d) with
  | none =>
    rw [hopening] at h
    cases h
  | some o =>
    rw [hopening] at h
    obtain ⟨rfl, -⟩ := inDates_eq.mp hopening
    rw [openingDateForPeriod_eq] at h
    exact of_decide_eq_true (isWithin_eq.mp h).2.symm

/-- The latest opening that has passed is open where any is. -/
theorem IsOpen.latest {h h' : Int} (hopen : IsOpen nowLocal amount unit h)
    (hpassed : opening h' ≤ WallClock.date nowLocal)
    (hnext : WallClock.date nowLocal < opening (h' + 1)) : IsOpen nowLocal amount unit h' := by
  have hlt := opening_lt_iff.mp (lt_of_le_of_lt hopen.1 hnext)
  exact ⟨hpassed, lt_of_lt_of_le hopen.2 (windowEnd_le (by omega))⟩

/-- **The summary says whether some date is in its window**, where it returns. -/
theorem isAny_iff (hyear : WellWithin nowLocal) {b : Bool}
    (h : isAnyRecurringPeriodOpen nowLocal amount unit = some b) :
    b = true ↔ ∃ d, (inDates d).isSome ∧ isFirstOccurrenceIn nowLocal d amount unit = some true := by
  constructor
  · rintro rfl
    obtain ⟨⟨y, period⟩, hq, hwithin⟩ := anyOpen_true h
    obtain ⟨h₁, h₂⟩ := mem_scanned.mp hq
    have hyears : 1 ≤ y ∧ y ≤ 9999 := by
      obtain ⟨hlo, hhi⟩ := hyear
      cases period with
      | janJun =>
        simp only [openingNumber] at h₁ h₂
        omega
      | julDec =>
        simp only [openingNumber] at h₁ h₂
        omega
    obtain ⟨d, hd, hperiod, hyear'⟩ := exists_dateOf hyears.1 hyears.2 period
    exact ⟨d, hd, by rw [isFirstOccurrenceIn, hperiod, hyear']; exact hwithin⟩
  · rintro ⟨d, -, hd⟩
    cases b with
    | true => rfl
    | false =>
      obtain ⟨h', h₁, h₂, hpassed, hnext⟩ := exists_latest nowLocal
      obtain ⟨y, period, hq, rfl⟩ := exists_scanned nowLocal (h := h') (by omega)
        (by omega)
      have hclosed := anyOpen_false h _ hq
      rw [windowOf_scanned hyear hq] at hclosed
      have hlatest := (isOpen_of_isFirstOccurrenceIn hd).latest hpassed hnext
      exact absurd hlatest (of_decide_eq_false (isWithin_eq.mp hclosed).2.symm)

/-- **It returns** where the window of the last opening scanned ends within the calendar. -/
theorem isAny_isSome (hyear : WellWithin nowLocal) (hpos : 1 ≤ amount)
    (hend : (inDates (windowEnd amount unit (2 * yearOf nowLocal + 4))).isSome) :
    (isAnyRecurringPeriodOpen nowLocal amount unit).isSome := by
  refine anyOpen_isSome fun q hq => ?_
  obtain ⟨h₁, h₂⟩ := mem_scanned.mp hq
  have hyear' := hyear
  obtain ⟨hlo, hhi⟩ := hyear'
  obtain ⟨d, hd⟩ := Option.isSome_iff_exists.mp hend
  obtain ⟨-, -, hlast⟩ := inDates_eq.mp hd
  obtain ⟨-, hfirst, -⟩ := inDates_eq.mp (inDates_opening (h := openingNumber q.2 q.1)
    (by omega) (by omega))
  have hin : (inDates (windowEnd amount unit (openingNumber q.2 q.1))).isSome := by
    rw [inDates, if_pos ⟨le_trans hfirst (opening_le_windowEnd hpos),
      le_trans (windowEnd_le h₂) hlast⟩]
    rfl
  rw [windowOf_scanned hyear hq]
  exact Option.isSome_iff_exists.mpr ⟨_, isWithin_eq.mpr ⟨hin, rfl⟩⟩

/-! ## 6. The next opening -/

theorem candidates_eq (nowLocal : Int) : ∀ {l : List (Int × RecurringUsePeriod)},
    (∀ q ∈ l, openingDate q.2 q.1 = some (opening (openingNumber q.2 q.1))) →
    candidates nowLocal l = some ((l.map fun q => opening (openingNumber q.2 q.1)).filter
      fun o => WallClock.date nowLocal < o)
  | [], _ => rfl
  | (year, period) :: rest, hall => by
    have hlater : (WallClock.combine (opening (openingNumber period year)) .midnight > nowLocal) ↔
        WallClock.date nowLocal < opening (openingNumber period year) := by
      rw [gt_iff_lt, ← not_le, WallClock.midnight_le_iff, not_le]
    unfold candidates
    rw [hall _ (.head _), candidates_eq nowLocal fun q hq => hall q (.tail _ hq)]
    simp only [Option.bind_eq_bind, Option.bind_some, Option.pure_def, hlater, List.map_cons,
      List.filter_cons, decide_eq_true_eq]

/-- **The next opening** is the least of all years that lies after the date of now. -/
theorem nextRecurringOpeningDate_isLeast (hyear : WellWithin nowLocal) :
    ∃ o, nextRecurringOpeningDate nowLocal = some (some o) ∧
      IsLeast {d | ∃ period y, d = openingDateForPeriod period y ∧ WallClock.date nowLocal < d} o := by
  obtain ⟨h, h₁, h₂, hpassed, hnext⟩ := exists_latest nowLocal
  have hlist := candidates_eq nowLocal fun q hq => openingDate_scanned hyear hq
  have hmem : opening (h + 1) ∈ ((scanned nowLocal).map fun q =>
      opening (openingNumber q.2 q.1)).filter fun o => WallClock.date nowLocal < o := by
    obtain ⟨y, period, hq, hnumber⟩ := exists_scanned nowLocal (h := h + 1) (by omega)
      (by omega)
    refine List.mem_filter.mpr ⟨List.mem_map.mpr ⟨_, hq, by rw [hnumber]⟩, ?_⟩
    exact decide_eq_true hnext
  generalize hlater : ((scanned nowLocal).map fun q => opening (openingNumber q.2 q.1)).filter
    (fun o => WallClock.date nowLocal < o) = later at hlist hmem
  rw [nextRecurringOpeningDate, hlist, Option.map_some]
  cases hfound : later.min? with
  | none =>
    rw [List.min?_eq_none_iff.mp hfound] at hmem
    cases hmem
  | some o =>
    obtain ⟨hleast, hle⟩ := List.min?_eq_some_iff.mp hfound
    rw [← hlater] at hleast
    obtain ⟨hopening, hlater⟩ := List.mem_filter.mp hleast
    obtain ⟨q, -, rfl⟩ := List.mem_map.mp hopening
    refine ⟨_, rfl, ⟨q.2, q.1, openingDateForPeriod_eq.symm, of_decide_eq_true hlater⟩, ?_⟩
    rintro d ⟨period, y, rfl, hlater⟩
    rw [openingDateForPeriod_eq] at hlater ⊢
    -- an opening after now comes no sooner than the one after the latest
    have hnumber := opening_lt_iff.mp (lt_of_le_of_lt hpassed hlater)
    exact le_trans (hle _ hmem) (opening_le (by omega))

end

/-! ## 7. When the summary is exact -/

/-- The summary says whether some date of the calendar is in its window. -/
def SummaryExact (nowLocal amount : Int) (unit : RecurringAvailabilityUnit) : Prop :=
  isAnyRecurringPeriodOpen nowLocal amount unit = some true ↔
    ∃ d, (inDates d).isSome ∧ isFirstOccurrenceIn nowLocal d amount unit = some true

/-- **In the years 3 to 9997 the summary is exact wherever it returns**, which it does as long as
the window of the last opening scanned ends within the calendar; and the next opening is the least
of all years after the date of now. -/
theorem availabilitySummary_exact (nowLocal amount : Int) (unit : RecurringAvailabilityUnit)
    (hyear : WellWithin nowLocal) (hpos : 1 ≤ amount) :
    ((isAnyRecurringPeriodOpen nowLocal amount unit).isSome → SummaryExact nowLocal amount unit) ∧
    ((inDates (addAvailabilityDuration (openingDateForPeriod .julDec (yearOf nowLocal + 2)) amount
      unit)).isSome → (isAnyRecurringPeriodOpen nowLocal amount unit).isSome) ∧
    ∃ o, nextRecurringOpeningDate nowLocal = some (some o) ∧
      IsLeast {d | ∃ period y, d = openingDateForPeriod period y ∧ WallClock.date nowLocal < d} o := by
  refine ⟨fun hsome => ?_, fun hend => ?_, nextRecurringOpeningDate_isLeast hyear⟩
  · obtain ⟨b, hb⟩ := Option.isSome_iff_exists.mp hsome
    rw [SummaryExact, hb, Option.some.injEq]
    exact isAny_iff hyear hb
  · rw [openingDateForPeriod_eq, addAvailabilityDuration_opening] at hend
    refine isAny_isSome hyear hpos ?_
    rwa [show openingNumber .julDec (yearOf nowLocal + 2) = 2 * yearOf nowLocal + 4 by
      simp only [openingNumber]; omega] at hend

/-- Noon of the first of March 2026. -/
def marchNoon : Int := WallClock.combine (Date.ofCivil 2026 3 1) .noon

/-- Three months from each opening, in March. -/
theorem availabilitySummary_march : SummaryExact marchNoon 3 .months := by
  have h := availabilitySummary_exact marchNoon 3 .months (by decide) (by decide)
  exact h.1 (h.2.1 (by decide))

/-- **A window of 7976 years** holds the dates of the year 2000, and the summary raises. -/
theorem longWindow_not_exact : ¬ SummaryExact marchNoon 95712 .months := by
  intro hexact
  have hraises : isAnyRecurringPeriodOpen marchNoon 95712 .months = none := by decide
  have hopen := hexact.mpr ⟨Date.ofCivil 2000 1 1, by decide, by decide⟩
  rw [hraises] at hopen
  cases hopen

end AvailabilityWindow

end NewlifeCore
