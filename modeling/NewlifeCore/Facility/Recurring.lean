import NewlifeCore.Facility.Constants

/-!
# `domain/facility/recurring.py`

Recurring Booking periods, the availability window, weekly dates, the facility-local week, wall
times and payment holds.
-/

namespace NewlifeCore

/-! ## 1. Periods and the availability window -/

def usePeriodForDate (occurrenceDate : Int) : RecurringUsePeriod :=
  if Date.month occurrenceDate ≤ 6 then .janJun else .julDec

def openingDateForPeriod (period : RecurringUsePeriod) (periodYear : Int) : Int :=
  match period with
  | .janJun => Date.ofCivil (periodYear - 1) 12 1
  | .julDec => Date.ofCivil periodYear 6 1

def addAvailabilityDuration (start : Int) (amount : Int) (unit : RecurringAvailabilityUnit) : Int :=
  match unit with
  | .days => start + amount
  | .weeks => start + 7 * amount
  | .months =>
    let monthIndex := Date.month start - 1 + amount
    let year := Date.year start + monthIndex / 12
    let month := monthIndex % 12 + 1
    Date.ofCivil year month (min (Date.day start) (Date.monthLength year month))

/-- Datetimes of one zone compare as wall clocks. -/
def isWithinAvailabilityWindow (nowLocal : Int) (opening amount : Int)
    (unit : RecurringAvailabilityUnit) : Bool :=
  WallClock.combine opening .midnight ≤ nowLocal &&
    nowLocal < WallClock.combine (addAvailabilityDuration opening amount unit) .midnight

/-! ## 2. Weekly dates -/

/-- The dates from `current` in steps of a week, `fuel` of them at most. -/
def weeklyFrom (current last : Int) : Nat → List Int
  | 0 => []
  | fuel + 1 => if current ≤ last then current :: weeklyFrom (current + 7) last fuel else []

/-- `weekly_occurrence_dates`: the loop runs once a week of the span. -/
def weeklyOccurrenceDates (first last : Int) : List Int :=
  weeklyFrom first last (last - first + 1).toNat

theorem mem_weeklyFrom {d last : Int} : ∀ {fuel : Nat} {current : Int},
    d ∈ weeklyFrom current last fuel → ∃ k : Nat, d = current + 7 * k ∧ d ≤ last
  | 0, _, h => by simp [weeklyFrom] at h
  | fuel + 1, current, h => by
    unfold weeklyFrom at h
    split at h
    · rcases List.mem_cons.mp h with rfl | h
      · exact ⟨0, by omega, ‹_›⟩
      · obtain ⟨k, hk, hlast⟩ := mem_weeklyFrom h
        exact ⟨k + 1, by omega, hlast⟩
    · simp at h

/-- The loop's fuel covers the span: every week of it is generated. -/
theorem weeklyFrom_mem (last : Int) : ∀ (fuel : Nat) (current : Int) (k : Nat),
    current + 7 * k ≤ last → k < fuel → current + 7 * k ∈ weeklyFrom current last fuel
  | 0, _, _, _, hf => by omega
  | fuel + 1, current, k, hk, hf => by
    unfold weeklyFrom
    rw [if_pos (by omega)]
    cases k with
    | zero => simp
    | succ k =>
      refine List.mem_cons_of_mem _ ?_
      have := weeklyFrom_mem last fuel (current + 7) k (by omega) (by omega)
      rwa [show current + 7 * ((k + 1 : Nat) : Int) = current + 7 + 7 * k by omega]

theorem mem_weeklyOccurrenceDates {first last d : Int} :
    d ∈ weeklyOccurrenceDates first last ↔ ∃ k : Nat, d = first + 7 * k ∧ d ≤ last := by
  constructor
  · exact mem_weeklyFrom
  · rintro ⟨k, rfl, hk⟩
    exact weeklyFrom_mem last _ first k hk (by omega)

theorem weeklyFrom_pairwise (last : Int) : ∀ (fuel : Nat) (current : Int),
    (weeklyFrom current last fuel).Pairwise (fun a b => a + 7 ≤ b)
  | 0, _ => .nil
  | fuel + 1, current => by
    unfold weeklyFrom
    split
    · refine List.pairwise_cons.mpr ⟨fun b hb => ?_, weeklyFrom_pairwise last fuel _⟩
      obtain ⟨k, hk, -⟩ := mem_weeklyFrom hb
      omega
    · exact .nil

/-- Occurrences are at least a week apart, in order. -/
theorem weeklyOccurrenceDates_pairwise (first last : Int) :
    (weeklyOccurrenceDates first last).Pairwise (fun a b => a + 7 ≤ b) :=
  weeklyFrom_pairwise last _ first

/-- The Sunday that starts a date's quota week. -/
def sundayWeekStart (occurrenceDate : Int) : Int :=
  occurrenceDate - (Date.weekday occurrenceDate + 1) % 7

/-- A date lies in the week that starts with its Sunday. -/
theorem sundayWeekStart_le (d : Int) : sundayWeekStart d ≤ d ∧ d < sundayWeekStart d + 7 := by
  unfold sundayWeekStart Date.weekday; omega

theorem sundayWeekStart_mono {d e : Int} (h : d ≤ e) : sundayWeekStart d ≤ sundayWeekStart e := by
  unfold sundayWeekStart Date.weekday; omega

example : sundayWeekStart (Date.ofCivil 2024 3 13) = Date.ofCivil 2024 3 10 := by decide

/-! ## 3. Wall times -/

/-- `localize_wall_time`, in UTC; a wall time the zone skips has none. -/
def localizeWallTime (occurrenceDate : Int) (localTime : TimeOfDay) (tz : Zone) : Option Int :=
  let naive := WallClock.combine occurrenceDate localTime
  if tz.toLocal (tz.toUtc naive) = naive then some (tz.toUtc naive) else none

theorem localizeWallTime_some {d : Int} {w : TimeOfDay} {tz : Zone} {u : Int}
    (h : localizeWallTime d w tz = some u) :
    u = tz.toUtc (WallClock.combine d w) ∧ tz.toLocal u = WallClock.combine d w := by
  simp only [localizeWallTime] at h
  split at h
  · cases h
    exact ⟨rfl, ‹_›⟩
  · cases h

/-- Wall times a week apart are read as instants in order, whatever the zone does between. -/
theorem toUtc_week_apart (tz : Zone) {d e : Int} (v w : TimeOfDay) (h : d + 7 ≤ e) :
    tz.toUtc (WallClock.combine d v) ≤ tz.toUtc (WallClock.combine e w) := by
  have hv := v.lt_day
  have hw := w.nonneg
  have h₁ := tz.wallOffset_lt (WallClock.combine d v)
  have h₂ := tz.wallOffset_lt (WallClock.combine e w)
  have hday : d * dayMicros + 7 * dayMicros ≤ e * dayMicros := by
    have := Int.mul_le_mul_of_nonneg_right h (show (0 : Int) ≤ dayMicros by decide)
    linarith
  unfold Zone.toUtc
  simp only [WallClock.combine] at *
  omega

/-! ## 4. Bookers and holds -/

/-- `email.rsplit("@", 1)[-1]`, for an address with an `@`. -/
def emailDomain (email : String) : Option String :=
  if email.toList.contains '@' then
    some (String.ofList (email.toList.reverse.takeWhile (· ≠ '@')).reverse)
  else none

example : emailDomain "a@b@c" = some "c" := by decide

def isChurchEmail (email : Option String) (domain : String) : Bool :=
  email.any fun e => (emailDomain e).any fun d => d.toLower = domain.toLower

def isTestBookerAllowlisted (email : Option String) (emailAddresses emailSuffixes : List String) :
    Bool :=
  email.any fun e => e ≠ "" && (
    let candidate := (strip e).toLower
    emailAddresses.contains candidate || emailSuffixes.any fun s => candidate.endsWith s)

/-- `calendar_day_payment_hold_expires_at`: `OverflowError` where the arithmetic leaves Python's
calendar, `ValueError` where the zone skips the deadline's wall time. -/
def calendarDayPaymentHoldExpiresAt (now holdDays : Int) (tz : Zone) : Except ErrorKind Int :=
  let w := tz.toLocal now
  let targetDate := WallClock.date w + holdDays
  if WallClock.time w < .noon then deadline w targetDate .noon
  else deadline w (targetDate + 1) .midnight
where
  deadline (w day : Int) (localTime : TimeOfDay) : Except ErrorKind Int :=
    let naive := WallClock.combine day localTime
    if WallClock.InCalendar w ∧ WallClock.InCalendar naive ∧ WallClock.InCalendar (tz.toUtc naive) ∧
        WallClock.InCalendar (tz.toLocal (tz.toUtc naive)) then
      match localizeWallTime day localTime tz with
      | some expiresAt => .ok expiresAt
      | none => .error .valueError
    else .error .overflowError

def isPendingPaymentHoldActive (paymentHoldExpiresAt : Option Int) (now : Int) : Bool :=
  match paymentHoldExpiresAt with
  | none => true
  | some h => h > now

end NewlifeCore
