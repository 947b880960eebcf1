import NewlifeCore.Txn.Program
import Mathlib.Tactic.Linarith

/-!
# Dates, wall clocks and time zones

Python's `datetime` values as the service uses them.  An instant is a number of microseconds
since the epoch; a date is a day number of the proleptic Gregorian calendar; a time of day is a
number of microseconds since midnight; a naive local datetime is a wall clock, the microseconds
of its day and time together.

A `Zone` is what `ZoneInfo` gives: the offset shown at an instant, and the offset a wall clock is
read with under `fold=0`.
-/

namespace NewlifeCore

def dayMicros : Int := 86400000000

def hourMicros : Int := 3600000000

def minuteMicros : Int := 60000000

def secondMicros : Int := 1000000

/-! ## 1. Dates -/

namespace Date

/-- Monday is 0. -/
def weekday (d : Int) : Int := (d + 3) % 7

/-- `date(year, month, day)`. -/
def ofCivil (year month day : Int) : Int :=
  let y := if month ≤ 2 then year - 1 else year
  let era := y / 400
  let yoe := y - era * 400
  let doy := (153 * (if month > 2 then month - 3 else month + 9) + 2) / 5 + day - 1
  let doe := yoe * 365 + yoe / 4 - yoe / 100 + doy
  era * 146097 + doe - 719468

/-- The year, month and day of a date. -/
def civil (d : Int) : Int × Int × Int :=
  let z := d + 719468
  let era := z / 146097
  let doe := z - era * 146097
  let yoe := (doe - doe / 1460 + doe / 36524 - doe / 146096) / 365
  let doy := doe - (365 * yoe + yoe / 4 - yoe / 100)
  let mp := (5 * doy + 2) / 153
  let day := doy - (153 * mp + 2) / 5 + 1
  let month := if mp < 10 then mp + 3 else mp - 9
  let year := yoe + era * 400 + (if month ≤ 2 then 1 else 0)
  (year, month, day)

def year (d : Int) : Int := (civil d).1

def month (d : Int) : Int := (civil d).2.1

def day (d : Int) : Int := (civil d).2.2

section Civil

variable {doe c d e yoe : Int} (h₀ : 0 ≤ doe) (h₁ : doe < 146097)
include h₀ h₁

theorem yoe_range : 0 ≤ (doe - doe / 1460 + doe / 36524 - doe / 146096) / 365 ∧
    (doe - doe / 1460 + doe / 36524 - doe / 146096) / 365 < 400 := by omega

/-- The day of the year, counted from March, by centuries of the era. -/
theorem doy_range (hc : c = doe / 1460) (hd : d = doe / 36524) (he : e = doe / 146096)
    (hy : yoe = (doe - c + d - e) / 365) :
    0 ≤ doe - (365 * yoe + yoe / 4 - yoe / 100) ∧
      doe - (365 * yoe + yoe / 4 - yoe / 100) ≤ 365 := by
  have hcentury : d = 0 ∨ d = 1 ∨ d = 2 ∨ d = 3 ∨ d = 4 := by omega
  have hcd : 25 * d ≤ c := by omega
  have hyoe : yoe / 100 = d - e := by
    rcases hcentury with rfl | rfl | rfl | rfl | rfl <;> omega
  rw [hyoe]
  constructor
  · rcases hcentury with rfl | rfl | rfl | rfl | rfl <;> omega
  · rcases hcentury with rfl | rfl | rfl | rfl | rfl <;> omega

end Civil

/-- What `civil` computes, with the ranges of its parts. -/
theorem civil_spec (d : Int) : ∃ era yoe doy mp : Int,
    0 ≤ yoe ∧ yoe < 400 ∧ 0 ≤ doy ∧ doy ≤ 365 ∧ mp = (5 * doy + 2) / 153 ∧
    d = era * 146097 + (365 * yoe + yoe / 4 - yoe / 100 + doy) - 719468 ∧
    civil d = (yoe + era * 400 + (if mp < 10 then 0 else 1),
      (if mp < 10 then mp + 3 else mp - 9), doy - (153 * mp + 2) / 5 + 1) := by
  have h₀ : 0 ≤ d + 719468 - (d + 719468) / 146097 * 146097 := by omega
  have h₁ : d + 719468 - (d + 719468) / 146097 * 146097 < 146097 := by omega
  have hy := yoe_range h₀ h₁
  have hd := doy_range h₀ h₁ rfl rfl rfl rfl
  refine ⟨(d + 719468) / 146097, _, _, _, hy.1, hy.2, hd.1, hd.2, rfl, by omega, ?_⟩
  simp only [civil]
  split
  · rw [if_neg (by omega)]
  · rw [if_pos (by omega)]

theorem civil_month_range (d : Int) : 1 ≤ (civil d).2.1 ∧ (civil d).2.1 ≤ 12 := by
  obtain ⟨era, yoe, doy, mp, -, -, hd₀, hd₁, hmp, -, hc⟩ := civil_spec d
  rw [hc]
  dsimp only
  split <;> omega

theorem civil_day_range (d : Int) : 1 ≤ (civil d).2.2 ∧ (civil d).2.2 ≤ 31 := by
  obtain ⟨era, yoe, doy, mp, -, -, hd₀, hd₁, hmp, -, hc⟩ := civil_spec d
  rw [hc]
  dsimp only
  omega

/-- A date is the day its year, month and day name. -/
theorem ofCivil_civil (d : Int) : ofCivil (civil d).1 (civil d).2.1 (civil d).2.2 = d := by
  obtain ⟨era, yoe, doy, mp, hy₀, hy₁, hd₀, hd₁, hmp, hd, hc⟩ := civil_spec d
  have hera : (yoe + era * 400) / 400 = era := by omega
  have hyoe : yoe + era * 400 - era * 400 = yoe := by omega
  rw [hc]
  simp only [ofCivil]
  by_cases h : mp < 10
  · have hm : ¬ mp + 3 ≤ 2 := by omega
    have hm' : mp + 3 > 2 := by omega
    simp only [if_pos h, if_neg hm, if_pos hm', Int.add_zero, hera, hyoe]
    omega
  · have hm : mp - 9 ≤ 2 := by omega
    have hm' : ¬ mp - 9 > 2 := by omega
    simp only [if_neg h, if_pos hm, if_neg hm', Int.add_sub_cancel, hera, hyoe]
    omega

theorem civil_injective : Function.Injective civil := fun a b h => by
  rw [← ofCivil_civil a, h, ofCivil_civil b]

/-- `calendar.monthrange(year, month)[1]`. -/
def monthLength (year month : Int) : Int :=
  if month = 12 then ofCivil (year + 1) 1 1 - ofCivil year 12 1
  else ofCivil year (month + 1) 1 - ofCivil year month 1

/-- `date.isoformat()`, in the years that have four digits. -/
def isoformat (d : Int) : String :=
  let pad (n : Nat) (x : Int) : String := let s := toString x; "".pushn '0' (n - s.length) ++ s
  s!"{pad 4 (year d)}-{pad 2 (month d)}-{pad 2 (day d)}"

example : civil (ofCivil 2024 2 29) = (2024, 2, 29) := by decide

end Date

/-! ## 2. Wall clocks -/

/-- `datetime.time`: microseconds since midnight. -/
structure TimeOfDay where
  micros : Int
  nonneg : 0 ≤ micros
  lt_day : micros < dayMicros
deriving DecidableEq

namespace TimeOfDay

instance : LT TimeOfDay := ⟨fun a b => a.micros < b.micros⟩
instance : LE TimeOfDay := ⟨fun a b => a.micros ≤ b.micros⟩

instance (a b : TimeOfDay) : Decidable (a < b) := inferInstanceAs (Decidable (a.micros < b.micros))
instance (a b : TimeOfDay) : Decidable (a ≤ b) := inferInstanceAs (Decidable (a.micros ≤ b.micros))

/-- `time(hour, minute, second)`. -/
def ofHms (h m s : Int)
    (ok : 0 ≤ h * hourMicros + m * minuteMicros + s * 1000000 ∧
      h * hourMicros + m * minuteMicros + s * 1000000 < dayMicros) : TimeOfDay :=
  ⟨_, ok.1, ok.2⟩

def midnight : TimeOfDay := ofHms 0 0 0 (by decide)

def noon : TimeOfDay := ofHms 12 0 0 (by decide)

/-- The end of the day as the Blackout check writes it. -/
def endOfDay : TimeOfDay := ofHms 23 59 59 (by decide)

end TimeOfDay

namespace WallClock

def date (w : Int) : Int := w / dayMicros

def time (w : Int) : TimeOfDay :=
  ⟨w % dayMicros, Int.emod_nonneg w (by decide), Int.emod_lt_of_pos w (by decide)⟩

/-- `datetime.combine(d, t)`. -/
def combine (d : Int) (t : TimeOfDay) : Int := d * dayMicros + t.micros

theorem combine_date_time (w : Int) : combine (date w) (time w) = w := by
  have := Int.emod_add_mul_ediv w dayMicros
  show w / dayMicros * dayMicros + w % dayMicros = w
  linarith

theorem date_le_of_le {w w' : Int} (h : w ≤ w') : date w ≤ date w' :=
  Int.ediv_le_ediv (by decide) h

/-- A day starts at its midnight. -/
theorem midnight_le_iff (d : Int) (w : Int) : combine d .midnight ≤ w ↔ d ≤ date w := by
  have h0 : TimeOfDay.midnight.micros = 0 := rfl
  rw [combine, date, Int.le_ediv_iff_mul_le (by decide), h0, add_zero]

/-- `datetime.min` to `datetime.max`: the years 1 to 9999, which Python's arithmetic does not
leave. -/
def InCalendar (w : Int) : Prop :=
  combine (Date.ofCivil 1 1 1) .midnight ≤ w ∧ w < combine (Date.ofCivil 10000 1 1) .midnight

instance (w : Int) : Decidable (InCalendar w) := inferInstanceAs (Decidable (_ ∧ _))

end WallClock

/-! ## 3. Zones -/

/-- **A time zone**: the offset in force at each instant, and the offset each wall clock is read
with under `fold=0`.  Python rejects offsets of a day or more. -/
structure Zone where
  offset : Int → Int
  wallOffset : Int → Int
  offset_lt : ∀ u, -dayMicros < offset u ∧ offset u < dayMicros
  wallOffset_lt : ∀ w, -dayMicros < wallOffset w ∧ wallOffset w < dayMicros

namespace Zone

/-- `u.astimezone(tz)`, as a wall clock. -/
def toLocal (tz : Zone) (u : Int) : Int := u + tz.offset u

/-- `w.replace(tzinfo=tz).astimezone(timezone.utc)`. -/
def toUtc (tz : Zone) (w : Int) : Int := w - tz.wallOffset w

def localDate (tz : Zone) (u : Int) : Int := WallClock.date (tz.toLocal u)

/-- `datetime.combine(d, time.min, tzinfo=tz).astimezone(timezone.utc)`. -/
def startOfDay (tz : Zone) (d : Int) : Int := tz.toUtc (WallClock.combine d .midnight)

/-- The zone's local days follow one another: midnight of a day is not after an instant exactly
when the instant falls on that day or later. -/
def DaysInOrder (tz : Zone) : Prop := ∀ d u, tz.startOfDay d ≤ u ↔ d ≤ tz.localDate u

/-- A zone that never changes its offset. -/
def fixed (offset : Int) (h : -dayMicros < offset ∧ offset < dayMicros) : Zone :=
  ⟨fun _ => offset, fun _ => offset, fun _ => h, fun _ => h⟩

/-- A zone with one change of offset, at `change`. A wall clock shown twice is read before the
change, and so is one that is skipped. -/
def transition (change : Int) (before after : Int)
    (hb : -dayMicros < before ∧ before < dayMicros) (ha : -dayMicros < after ∧ after < dayMicros) :
    Zone where
  offset u := if u < change then before else after
  wallOffset w := if w < change + max before after then before else after
  offset_lt u := by split <;> assumption
  wallOffset_lt w := by split <;> assumption

end Zone

theorem Zone.zero_bounded : -dayMicros < (0 : Int) ∧ (0 : Int) < dayMicros := by decide

/-- `utc`: the zone of instants themselves. -/
def Zone.utc : Zone := Zone.fixed 0 Zone.zero_bounded

end NewlifeCore
