import NewlifeCore.Calendar

/-!
# Years and months of dates

Where a year and its halves begin, and what month arithmetic does to the first of a month.  Dates
are counted from March: `marchDays` is where a year's March begins.
-/

namespace NewlifeCore.Date

/-- The days before March of a year. -/
def marchDays (y : Int) : Int := 365 * y + y / 4 - y / 100 + y / 400

theorem marchDays_lt {y y' : Int} (h : y < y') : marchDays y + 365 ≤ marchDays y' := by
  unfold marchDays
  omega

/-- The year and the day of a date, counted from March. -/
theorem civil_march (d : Int) : ∃ y doy mp : Int, 0 ≤ doy ∧ doy ≤ 365 ∧ mp = (5 * doy + 2) / 153 ∧
    d = marchDays y + doy - 719468 ∧
    civil d = (y + (if mp < 10 then 0 else 1), (if mp < 10 then mp + 3 else mp - 9),
      doy - (153 * mp + 2) / 5 + 1) := by
  obtain ⟨era, yoe, doy, mp, h₀, h₁, h₂, h₃, hmp, hd, hc⟩ := civil_spec d
  refine ⟨yoe + era * 400, doy, mp, h₂, h₃, hmp, ?_, hc⟩
  unfold marchDays
  omega

theorem ofCivil_march {y m day : Int} (hm : 2 < m) :
    ofCivil y m day = marchDays y + (153 * (m - 3) + 2) / 5 + day - 1 - 719468 := by
  have hle : ¬ m ≤ 2 := by omega
  simp only [ofCivil, if_neg hle, if_pos hm, marchDays]
  omega

theorem ofCivil_winter {y m day : Int} (hm : m ≤ 2) :
    ofCivil y m day = marchDays (y - 1) + (153 * (m + 9) + 2) / 5 + day - 1 - 719468 := by
  have hgt : ¬ m > 2 := by omega
  simp only [ofCivil, if_pos hm, if_neg hgt, marchDays]
  omega

/-- Two readings of a date from March agree, where the second is of neither end of a year. -/
theorem march_unique {y y' doy doy' : Int} (h₀ : 0 ≤ doy) (h₁ : doy ≤ 365) (h₀' : 0 < doy')
    (h₁' : doy' < 365) (h : marchDays y + doy = marchDays y' + doy') : y = y' ∧ doy = doy' := by
  rcases lt_trichotomy y y' with hlt | heq | hgt
  · have hstep := marchDays_lt hlt
    omega
  · subst heq
    omega
  · have hstep := marchDays_lt hgt
    omega

/-! ## 1. Years -/

theorem newYear_lt {y y' : Int} (h : y < y') : ofCivil y 1 1 + 365 ≤ ofCivil y' 1 1 := by
  have hstep := marchDays_lt (show y - 1 < y' - 1 by omega)
  rw [ofCivil_winter (by omega), ofCivil_winter (by omega)]
  omega

/-- A date lies in its year. -/
theorem year_bounds (d : Int) : ofCivil (year d) 1 1 ≤ d ∧ d < ofCivil (year d + 1) 1 1 := by
  obtain ⟨y, doy, mp, h₀, h₁, hmp, hd, hc⟩ := civil_march d
  have hprev := marchDays_lt (show y - 1 < y by omega)
  have hnext := marchDays_lt (show y < y + 1 by omega)
  rw [ofCivil_winter (by omega), ofCivil_winter (by omega), year, hc]
  dsimp only
  split
  · simp only [Int.add_zero, Int.add_sub_cancel]
    omega
  · simp only [Int.add_sub_cancel]
    omega

/-- **The year of a date** is the one it lies in. -/
theorem year_eq_iff {d y : Int} : year d = y ↔ ofCivil y 1 1 ≤ d ∧ d < ofCivil (y + 1) 1 1 := by
  have hbounds := year_bounds d
  constructor
  · rintro rfl
    exact hbounds
  · rintro ⟨hlo, hhi⟩
    rcases lt_trichotomy (year d) y with hlt | heq | hgt
    · rcases lt_or_eq_of_le (show year d + 1 ≤ y by omega) with hlt | heq
      · have hstep := newYear_lt hlt
        omega
      · rw [heq] at hbounds
        omega
    · exact heq
    · rcases lt_or_eq_of_le (show y + 1 ≤ year d by omega) with hlt | heq
      · have hstep := newYear_lt hlt
        omega
      · rw [← heq] at hbounds
        omega

theorem year_mono {d e : Int} (h : d ≤ e) : year d ≤ year e := by
  by_contra hlt
  have hd := (year_bounds d).1
  have he := (year_bounds e).2
  rcases lt_or_eq_of_le (show year e + 1 ≤ year d by omega) with hlt | heq
  · have hstep := newYear_lt hlt
    omega
  · rw [← heq] at hd
    omega

/-! ## 2. Halves -/

/-- The first half of a year ends where its July begins. -/
theorem month_le_six_iff (d : Int) : month d ≤ 6 ↔ d < ofCivil (year d) 7 1 := by
  obtain ⟨y, doy, mp, h₀, h₁, hmp, hd, hc⟩ := civil_march d
  have hnext := marchDays_lt (show y < y + 1 by omega)
  rw [ofCivil_march (by omega), year, month, hc]
  dsimp only
  by_cases h : mp < 10
  · rw [if_pos h, if_pos h, Int.add_zero]
    omega
  · rw [if_neg h, if_neg h]
    omega

theorem year_july (y : Int) : ofCivil y 1 1 + 181 ≤ ofCivil y 7 1 ∧
    ofCivil y 7 1 + 184 = ofCivil (y + 1) 1 1 := by
  have hstep := marchDays_lt (show y - 1 < y by omega)
  rw [ofCivil_winter (by omega), ofCivil_march (by omega), ofCivil_winter (by omega),
    show y + 1 - 1 = y by omega]
  omega

/-! ## 3. The first of June and of December -/

theorem civil_firstOf {y m : Int} (hm : m = 6 ∨ m = 12) : civil (ofCivil y m 1) = (y, m, 1) := by
  obtain ⟨y', doy, mp, h₀, h₁, hmp, hd, hc⟩ := civil_march (ofCivil y m 1)
  rw [ofCivil_march (by omega)] at hd
  have hsame : marchDays y' + doy = marchDays y + (153 * (m - 3) + 2) / 5 := by omega
  obtain ⟨rfl, hdoy⟩ := march_unique h₀ h₁ (by omega) (by omega) hsame
  have hmp' : mp = m - 3 := by omega
  rw [hc, if_pos (by omega), if_pos (by omega), hdoy, hmp', Int.add_zero]
  refine Prod.ext rfl (Prod.ext ?_ ?_)
  · dsimp only
    omega
  · dsimp only
    omega

/-! ## 4. Months by number -/

/-- The first of the month that comes `n` months after January of the year 0. -/
def firstOfMonth (n : Int) : Int := ofCivil (n / 12) (n % 12 + 1) 1

theorem firstOfMonth_eq {y m : Int} (h₁ : 1 ≤ m) (h₂ : m ≤ 12) :
    firstOfMonth (12 * y + m - 1) = ofCivil y m 1 := by
  have hyear : (12 * y + m - 1) / 12 = y := by omega
  have hmonth : (12 * y + m - 1) % 12 + 1 = m := by omega
  rw [firstOfMonth, hyear, hmonth]

/-- The same month, counted from March. -/
theorem firstOfMonth_march (n : Int) :
    firstOfMonth n = marchDays ((n - 2) / 12) + (153 * ((n - 2) % 12) + 2) / 5 - 719468 := by
  unfold firstOfMonth
  by_cases h : n % 12 + 1 ≤ 2
  · have hyear : n / 12 - 1 = (n - 2) / 12 := by omega
    rw [ofCivil_winter h, hyear]
    omega
  · have hyear : n / 12 = (n - 2) / 12 := by omega
    rw [ofCivil_march (not_le.mp h), hyear]
    omega

theorem firstOfMonth_lt {n n' : Int} (h : n < n') : firstOfMonth n < firstOfMonth n' := by
  rw [firstOfMonth_march, firstOfMonth_march]
  rcases lt_or_eq_of_le (show (n - 2) / 12 ≤ (n' - 2) / 12 by omega) with hlt | heq
  · have hstep := marchDays_lt hlt
    omega
  · rw [heq]
    omega

theorem firstOfMonth_le {n n' : Int} (h : n ≤ n') : firstOfMonth n ≤ firstOfMonth n' := by
  rcases lt_or_eq_of_le h with hlt | rfl
  · exact le_of_lt (firstOfMonth_lt hlt)
  · exact le_refl _

/-- A month has a day. -/
theorem monthLength_pos {y m : Int} (h₁ : 1 ≤ m) (h₂ : m ≤ 12) : 1 ≤ monthLength y m := by
  have hnext := firstOfMonth_lt (show 12 * y + m - 1 < 12 * y + m by omega)
  rw [firstOfMonth_eq h₁ h₂] at hnext
  unfold monthLength
  split
  · rename_i hm
    subst hm
    have heq : firstOfMonth (12 * y + 12) = ofCivil (y + 1) 1 1 := by
      rw [← firstOfMonth_eq (y := y + 1) (m := 1) (by omega) (by omega)]
      congr 1
      omega
    omega
  · have heq : firstOfMonth (12 * y + m) = ofCivil y (m + 1) 1 := by
      rw [← firstOfMonth_eq (y := y) (m := m + 1) (by omega) (by omega)]
      congr 1
      omega
    omega

end NewlifeCore.Date
