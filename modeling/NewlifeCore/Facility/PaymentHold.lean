import NewlifeCore.Facility.RecurringBookingService
import NewlifeCore.ZoneTable

/-!
# The deadline of a payment hold

`calendar_day_payment_hold_expires_at` names a local boundary, noon of a day or its midnight, and
reads it in the facility's zone.  A zone that skips the boundary has no such instant, and neither
has a day past the calendar; then the evaluation or creation of a paid Series fails.  Everywhere
else the deadline is that boundary, and lies in the future.
-/

namespace NewlifeCore

open Txn Prog

/-! ## 1. What the deadline is to be -/

/-- The intended boundary, by the local clock: noon of the last hold day for a Series made in the
morning, and the midnight after it for one made later. -/
def holdBoundary (now holdDays : Int) (tz : Zone) : Int :=
  let w := tz.toLocal now
  if WallClock.time w < .noon then WallClock.combine (WallClock.date w + holdDays) .noon
  else WallClock.combine (WallClock.date w + holdDays + 1) .midnight

/-- The instant is after now, and shows the intended boundary. -/
structure HoldsUntil (now holdDays : Int) (tz : Zone) (expiresAt : Int) : Prop where
  future : now < expiresAt
  boundary : tz.toLocal expiresAt = holdBoundary now holdDays tz

/-- **The boundary exists**: the zone shows it at some instant, and it lies in the calendar, by the
local clock and in UTC, as the local time of now does. -/
structure BoundaryExists (now holdDays : Int) (tz : Zone) : Prop where
  shown : ∃ u, tz.toLocal u = holdBoundary now holdDays tz
  made : WallClock.InCalendar (tz.toLocal now)
  local_ : WallClock.InCalendar (holdBoundary now holdDays tz)
  utc : WallClock.InCalendar (tz.toUtc (holdBoundary now holdDays tz))

/-- Zone data is a table of clock changes. -/
def App.ReadsTables (app : App) : Prop :=
  ∀ name tz, app.zoneInfo name = some tz → ∃ T : ZoneTable, tz = T.toZone

/-! ## 2. The deadline -/

section

variable {now holdDays u : Int} {tz : Zone}

/-- The deadline lies more than a day ahead by the local clock. -/
theorem day_lt_holdBoundary (hdays : 1 ≤ holdDays) :
    tz.toLocal now + dayMicros < holdBoundary now holdDays tz := by
  have hw := WallClock.combine_date_time (tz.toLocal now)
  have htime := (WallClock.time (tz.toLocal now)).lt_day
  have hmidnight : TimeOfDay.midnight.micros = 0 := rfl
  unfold holdBoundary
  dsimp only
  split
  · rename_i hmorning
    have hmorning : (WallClock.time (tz.toLocal now)).micros < TimeOfDay.noon.micros := hmorning
    simp only [WallClock.combine, dayMicros] at hw ⊢
    omega
  · simp only [WallClock.combine, dayMicros, hmidnight] at hw htime ⊢
    omega

/-- What the deadline's wall time comes to, whichever it is. -/
theorem deadline_ok_iff {w day : Int} {localTime : TimeOfDay} :
    calendarDayPaymentHoldExpiresAt.deadline tz w day localTime = .ok u ↔
      WallClock.InCalendar w ∧ WallClock.InCalendar (WallClock.combine day localTime) ∧
      WallClock.InCalendar (tz.toUtc (WallClock.combine day localTime)) ∧
      u = tz.toUtc (WallClock.combine day localTime) ∧
      tz.toLocal u = WallClock.combine day localTime := by
  unfold calendarDayPaymentHoldExpiresAt.deadline
  dsimp only
  constructor
  · intro h
    split at h
    · rename_i hcalendar
      split at h
      · rename_i expiresAt hsome
        cases h
        obtain ⟨rfl, hshown⟩ := localizeWallTime_some hsome
        exact ⟨hcalendar.1, hcalendar.2.1, hcalendar.2.2.1, rfl, hshown⟩
      · cases h
    · cases h
  · rintro ⟨hw, hlocal, hutc, rfl, hshown⟩
    rw [if_pos ⟨hw, hlocal, hutc, by rw [hshown]; exact hlocal⟩, localizeWallTime, if_pos hshown]

theorem calendarDayPaymentHoldExpiresAt_ok_iff :
    calendarDayPaymentHoldExpiresAt now holdDays tz = .ok u ↔
      WallClock.InCalendar (tz.toLocal now) ∧ WallClock.InCalendar (holdBoundary now holdDays tz) ∧
      WallClock.InCalendar (tz.toUtc (holdBoundary now holdDays tz)) ∧
      u = tz.toUtc (holdBoundary now holdDays tz) ∧
      tz.toLocal u = holdBoundary now holdDays tz := by
  unfold calendarDayPaymentHoldExpiresAt holdBoundary
  dsimp only
  split <;> exact deadline_ok_iff

/-- An instant that shows the boundary is in the future, for the clock never falls back by more
than a day. -/
theorem holdsUntil_of_shown (T : ZoneTable) (hdays : 1 ≤ holdDays)
    (hshown : T.toZone.toLocal u = holdBoundary now holdDays T.toZone) :
    HoldsUntil now holdDays T.toZone u := by
  refine ⟨?_, hshown⟩
  by_contra hpast
  have hfalls := T.toLocal_falls (not_lt.mp hpast)
  have hahead : _ < holdBoundary now holdDays T.toZone := day_lt_holdBoundary hdays
  rw [hshown] at hfalls
  omega

/-- **The deadline is defined** exactly when its boundary exists. -/
theorem expiresAt_iff (T : ZoneTable) (hdays : 1 ≤ holdDays) :
    (∃ u, calendarDayPaymentHoldExpiresAt now holdDays T.toZone = .ok u ∧
      HoldsUntil now holdDays T.toZone u) ↔ BoundaryExists now holdDays T.toZone := by
  constructor
  · rintro ⟨u, hok, -⟩
    obtain ⟨hnow, hlocal, hutc, -, hshown⟩ := calendarDayPaymentHoldExpiresAt_ok_iff.mp hok
    exact ⟨⟨u, hshown⟩, hnow, hlocal, hutc⟩
  · rintro ⟨hshown, hnow, hlocal, hutc⟩
    have hread := T.toLocal_toUtc_iff.mpr hshown
    exact ⟨_, calendarDayPaymentHoldExpiresAt_ok_iff.mpr ⟨hnow, hlocal, hutc, rfl, hread⟩,
      holdsUntil_of_shown T hdays hread⟩

end

/-! ## 3. The settings -/

section

variable {db : Db} {t holdDays : Int} {tz : Zone} {app : App}

theorem holdDaysFromLegacyHours_returns :
    Returns (fun n : Int => 1 ≤ n) SettingService.holdDaysFromLegacyHours := by
  refine Returns.seq _ fun value => Returns.bind (fun hours hhours => ?_) (Returns.ofExcept _)
  refine Returns.bind (fun _ hdivides => ?_) (Returns.raiseIf _ _)
  have hpos := SettingService.parsePositiveInt_pos hhours
  have hdivides : hours % 24 = 0 := by simpa using hdivides
  show 1 ≤ hours / 24
  omega

/-- The setting is of one day at least. -/
theorem getPendingPaymentHoldDays_pos
    (h : SettingService.getPendingPaymentHoldDays.eval db t = .ok holdDays) : 1 ≤ holdDays := by
  refine exec_returns (p := SettingService.getPendingPaymentHoldDays) (Ψ := fun n => 1 ≤ n) ?_
    (eval_ok SettingService.getPendingPaymentHoldDays_readOnly h)
  refine Returns.seq _ fun value => ?_
  cases value with
  | none => exact holdDaysFromLegacyHours_returns
  | some value => exact (Returns.ofExcept _).mono fun _ hok => SettingService.parsePositiveInt_pos hok

/-- The zone of the setting is one that the zone data has. -/
theorem getFacilityTimezone_returns (app : App) :
    Returns (fun tz => ∃ name, app.zoneInfo name = some tz)
      (SettingService.getFacilityTimezone app) := by
  refine Returns.seq _ fun value => (Returns.ofExcept _).mono fun tz hok => ?_
  unfold SettingService.parseTimezone at hok
  split at hok
  · rename_i name
    split at hok
    · cases hok
    · split at hok
      · cases hok
        exact ⟨name, ‹_›⟩
      · cases hok
  · cases hok

/-- What a Series' hold comes to, once its settings are read. -/
theorem pendingPaymentHold_ok_iff {now u : Int}
    (hdays : SettingService.getPendingPaymentHoldDays.eval db t = .ok holdDays)
    (hzone : (SettingService.getFacilityTimezone app).eval db t = .ok tz) :
    (RecurringBookingService.pendingPaymentHold app now).eval db t = .ok (holdDays, u) ↔
      calendarDayPaymentHoldExpiresAt now holdDays tz = .ok u := by
  rw [RecurringBookingService.pendingPaymentHold]
  constructor
  · intro h
    obtain ⟨days, hdays', h⟩ :=
      (eval_bind_iff SettingService.getPendingPaymentHoldDays_readOnly).mp h
    obtain ⟨zone, hzone', h⟩ :=
      (eval_bind_iff (SettingService.getFacilityTimezone_readOnly app)).mp h
    cases hdays.symm.trans hdays'
    cases hzone.symm.trans hzone'
    split at h
    · cases h
    · cases h
    · rename_i expiresAt hok
      cases h
      exact hok
  · intro hok
    refine (eval_bind_iff SettingService.getPendingPaymentHoldDays_readOnly).mpr ⟨_, hdays, ?_⟩
    refine (eval_bind_iff (SettingService.getFacilityTimezone_readOnly app)).mpr ⟨_, hzone, ?_⟩
    rw [hok]
    rfl

end

/-! ## 4. When it is defined -/

/-- **The deadline is the intended boundary, in the future, exactly when that boundary exists**: as
the function computes it, and as a paid Series reads it from the settings. -/
theorem paymentHold_defined_iff (T : ZoneTable) (now holdDays : Int) :
    (1 ≤ holdDays → ((∃ u, calendarDayPaymentHoldExpiresAt now holdDays T.toZone = .ok u ∧
      HoldsUntil now holdDays T.toZone u) ↔ BoundaryExists now holdDays T.toZone)) ∧
    ∀ (app : App) (db : Db) (t : Int),
      SettingService.getPendingPaymentHoldDays.eval db t = .ok holdDays →
      (SettingService.getFacilityTimezone app).eval db t = .ok T.toZone →
      ((∃ u, (RecurringBookingService.pendingPaymentHold app now).eval db t = .ok (holdDays, u) ∧
        HoldsUntil now holdDays T.toZone u) ↔ BoundaryExists now holdDays T.toZone) := by
  refine ⟨expiresAt_iff T, ?_⟩
  intro app db t hdays hzone
  simp only [pendingPaymentHold_ok_iff hdays hzone]
  exact expiresAt_iff T (getPendingPaymentHoldDays_pos hdays)

/-- No clock ever changes. -/
def ZoneTable.utc : ZoneTable := ⟨0, [], Zone.zero_bounded, by simp, trivial⟩

/-- A day's hold from the first midnight, in UTC. -/
theorem paymentHold_utc : ∃ u, calendarDayPaymentHoldExpiresAt 0 1 ZoneTable.utc.toZone = .ok u ∧
    HoldsUntil 0 1 ZoneTable.utc.toZone u := by
  refine ((paymentHold_defined_iff ZoneTable.utc 0 1).1 (by decide)).mpr
    ⟨⟨36 * hourMicros, ?_⟩, ?_, ?_, ?_⟩
  all_goals decide

/-- The clocks go forward an hour at the midnight two days on. -/
def skipsMidnight : ZoneTable :=
  ⟨0, [⟨2 * dayMicros, hourMicros⟩], Zone.zero_bounded, by decide, by decide⟩

/-- **A Series made at noon the day before has no deadline.** -/
theorem skippedMidnight_not_defined :
    ¬ ∃ u, calendarDayPaymentHoldExpiresAt (12 * hourMicros) 1 skipsMidnight.toZone = .ok u ∧
      HoldsUntil (12 * hourMicros) 1 skipsMidnight.toZone u := by
  rintro ⟨u, hok, -⟩
  have hraises : calendarDayPaymentHoldExpiresAt (12 * hourMicros) 1 skipsMidnight.toZone =
    .error .valueError := by decide
  rw [hraises] at hok
  cases hok

end NewlifeCore
