import Mathlib.Algebra.Order.Round
import Mathlib.Algebra.BigOperators.Group.List.Basic
import Mathlib.Algebra.Order.BigOperators.Group.List
import Mathlib.Tactic.FieldSimp
import Mathlib.Tactic.Linarith
import Mathlib.Tactic.Ring

/-!
# Rounding to a step, halves away from zero

`halfUp step x` is the multiple of `step` nearest to `x`, and of two equally near ones the one
farther from zero.  Its error lies in an interval of one step's length that is closed at one end
only, and which end depends on the sign of `x`: `AbsorbsError step x e` says that a multiple which is
`e` away from `x` is the one `x` is rounded to.  When separately rounded amounts add up is then a
question about the sum of their errors.
-/

namespace NewlifeCore.Rounding

variable {K : Type} [Field K]

/-! ## 1. Multiples of the step -/

/-- An integer number of steps. -/
def IsMultiple (step m : K) : Prop := ∃ k : ℤ, m = k * step

variable {step x y m n : K}

theorem IsMultiple.zero : IsMultiple step 0 := ⟨0, by simp⟩

theorem IsMultiple.add (hm : IsMultiple step m) (hn : IsMultiple step n) :
    IsMultiple step (m + n) := by
  obtain ⟨k, rfl⟩ := hm
  obtain ⟨l, rfl⟩ := hn
  exact ⟨k + l, by push_cast; ring⟩

theorem IsMultiple.sub (hm : IsMultiple step m) (hn : IsMultiple step n) :
    IsMultiple step (m - n) := by
  obtain ⟨k, rfl⟩ := hm
  obtain ⟨l, rfl⟩ := hn
  exact ⟨k - l, by push_cast; ring⟩

theorem IsMultiple.sum {xs : List K} (h : ∀ x ∈ xs, IsMultiple step x) :
    IsMultiple step xs.sum := by
  induction xs with
  | nil => exact .zero
  | cons x xs ih =>
    rw [List.sum_cons]
    exact (h x List.mem_cons_self).add (ih fun y hy => h y (List.mem_cons_of_mem _ hy))

/-! ## 2. Rounding and its error -/

variable [LinearOrder K] [FloorRing K]

/-- **Round half away from zero** to a multiple of `step`. -/
def halfUp (step x : K) : K :=
  if x < 0 then -(round (-x / step) * step) else round (x / step) * step

/-- A multiple `e` away from `x` is what `x` is rounded to. -/
def AbsorbsError (step x e : K) : Prop :=
  if x < 0 then -(step / 2) ≤ e ∧ e < step / 2 else -(step / 2) < e ∧ e ≤ step / 2

/-- What rounding adds. -/
def error (step x : K) : K := halfUp step x - x

theorem halfUp_isMultiple : IsMultiple step (halfUp step x) := by
  unfold halfUp
  split
  · exact ⟨-round (-x / step), by push_cast; ring⟩
  · exact ⟨_, rfl⟩

theorem halfUp_eq_add (step x : K) : halfUp step x = x + error step x := by
  rw [error, add_sub_cancel]

/-- The sum of the errors. -/
def errors (step : K) (xs : List K) : K := (xs.map (error step)).sum

theorem sum_halfUp (step : K) (xs : List K) :
    (xs.map (halfUp step)).sum = xs.sum + errors step xs := by
  induction xs with
  | nil => simp [errors]
  | cons x xs ih =>
    simp only [errors, List.map_cons, List.sum_cons] at ih ⊢
    rw [ih, halfUp_eq_add step x]
    ring

/-- Rounded amounts add up to a multiple. -/
theorem sum_halfUp_isMultiple (xs : List K) : IsMultiple step (xs.map (halfUp step)).sum := by
  refine .sum fun m hm => ?_
  obtain ⟨x, -, rfl⟩ := List.mem_map.mp hm
  exact halfUp_isMultiple

/-! ## 3. The nearest multiple -/

variable [IsStrictOrderedRing K]

/-- Above zero there is nothing below one step. -/
theorem IsMultiple.step_le (hs : 0 < step) (hm : IsMultiple step m) (h : 0 < m) : step ≤ m := by
  obtain ⟨k, rfl⟩ := hm
  have hk : 0 < k := by
    have := (pos_iff_pos_of_mul_pos h).mpr hs
    exact_mod_cast this
  have : (1 : K) ≤ k := by exact_mod_cast hk
  nlinarith

/-- **What a value is rounded to**: the multiple whose distance it absorbs. -/
theorem halfUp_eq_iff (hs : 0 < step) (hm : IsMultiple step m) :
    halfUp step x = m ↔ AbsorbsError step x (m - x) := by
  obtain ⟨k, rfl⟩ := hm
  have hne : step ≠ 0 := ne_of_gt hs
  unfold halfUp AbsorbsError
  split
  · have hk : -(round (-x / step) * step) = k * step ↔ round (-x / step) = -k := by
      rw [← neg_mul, mul_left_inj' hne, neg_eq_iff_eq_neg]
      norm_cast
    rw [hk, round_eq_iff, Set.mem_Ico, le_div_iff₀ hs, div_lt_iff₀ hs]
    push_cast
    constructor <;> rintro ⟨h₁, h₂⟩ <;> constructor <;> linarith
  · have hk : round (x / step) * step = (k : K) * step ↔ round (x / step) = k := by
      rw [mul_left_inj' hne]
      norm_cast
    rw [hk, round_eq_iff, Set.mem_Ico, le_div_iff₀ hs, div_lt_iff₀ hs]
    constructor <;> rintro ⟨h₁, h₂⟩ <;> constructor <;> linarith

theorem absorbs_error (hs : 0 < step) (x : K) : AbsorbsError step x (error step x) :=
  (halfUp_eq_iff hs halfUp_isMultiple).mp rfl

theorem error_le (hs : 0 < step) (x : K) : error step x ≤ step / 2 := by
  have h := absorbs_error hs x
  unfold AbsorbsError at h
  split at h
  · exact h.2.le
  · exact h.2

/-- Rounding a value that is not negative takes less than half a step off. -/
theorem neg_half_lt_error (hs : 0 < step) (h : 0 ≤ x) : -(step / 2) < error step x := by
  have habs := absorbs_error hs x
  rw [AbsorbsError, if_neg (not_lt.mpr h)] at habs
  exact habs.1

/-- **Rounding is monotone.** -/
theorem halfUp_mono (hs : 0 < step) (h : x ≤ y) : halfUp step x ≤ halfUp step y := by
  unfold halfUp
  split
  · rename_i hx
    split
    · have hr : round (-y / step) ≤ round (-x / step) := by
        rw [round_eq, round_eq]
        exact Int.floor_mono (by gcongr)
      have : (round (-y / step) : K) ≤ round (-x / step) := by exact_mod_cast hr
      nlinarith
    · rename_i hy
      have h₁ : 0 ≤ round (-x / step) := by
        rw [round_eq]
        exact Int.floor_nonneg.mpr (by have := div_nonneg (by linarith : 0 ≤ -x) hs.le; linarith)
      have h₂ : 0 ≤ round (y / step) := by
        rw [round_eq]
        exact Int.floor_nonneg.mpr
          (by have := div_nonneg (not_lt.mp hy) hs.le; linarith)
      have h₁' : (0 : K) ≤ round (-x / step) := by exact_mod_cast h₁
      have h₂' : (0 : K) ≤ round (y / step) := by exact_mod_cast h₂
      nlinarith
  · rename_i hx
    rw [if_neg (not_lt.mpr ((not_lt.mp hx).trans h))]
    have hr : round (x / step) ≤ round (y / step) := by
      rw [round_eq, round_eq]
      exact Int.floor_mono (by gcongr)
    have : (round (x / step) : K) ≤ round (y / step) := by exact_mod_cast hr
    exact mul_le_mul_of_nonneg_right this hs.le

theorem halfUp_zero (hs : 0 < step) : halfUp step 0 = (0 : K) := by
  rw [halfUp_eq_iff hs .zero, AbsorbsError, if_neg (lt_irrefl _), sub_zero]
  constructor <;> linarith

theorem halfUp_nonneg (hs : 0 < step) (h : 0 ≤ x) : 0 ≤ halfUp step x := by
  have := halfUp_mono hs h
  rwa [halfUp_zero hs] at this

/-- What stays below zero is what is half a step below it. -/
theorem halfUp_neg_iff (hs : 0 < step) : halfUp step x < 0 ↔ x ≤ -(step / 2) := by
  constructor
  · intro h
    by_contra hx
    have hx := not_le.mp hx
    rcases lt_or_ge x 0 with hneg | hpos
    · have : halfUp step x = 0 := by
        rw [halfUp_eq_iff hs .zero, AbsorbsError, if_pos hneg]
        constructor <;> linarith
      linarith
    · exact absurd (halfUp_nonneg hs hpos) (not_le.mpr h)
  · intro h
    have hneg : x < 0 := by linarith
    have herr := absorbs_error hs x
    rw [AbsorbsError, if_pos hneg] at herr
    have := halfUp_eq_add step x
    linarith [herr.2]

/-- A value is rounded above a multiple, not below zero, once it is half a step above it. -/
theorem lt_halfUp_iff (hs : 0 < step) (hm : IsMultiple step m) (h0 : 0 ≤ m) :
    m < halfUp step x ↔ m + step / 2 ≤ x := by
  constructor
  · intro h
    have hx : 0 ≤ x := by
      by_contra hx
      have := halfUp_mono hs (not_le.mp hx).le
      rw [halfUp_zero hs] at this
      linarith
    have hstep : step ≤ halfUp step x - m :=
      (halfUp_isMultiple.sub hm).step_le hs (sub_pos.mpr h)
    have := error_le hs x
    have := halfUp_eq_add step x
    linarith
  · intro h
    have := neg_half_lt_error hs (by linarith : 0 ≤ x)
    have := halfUp_eq_add step x
    linarith

end NewlifeCore.Rounding
