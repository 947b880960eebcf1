import Mathlib.Algebra.Order.Round
import Mathlib.Data.Int.Log
import Mathlib.Tactic.FieldSimp
import Mathlib.Tactic.Linarith
import Mathlib.Tactic.NormNum
import Mathlib.Tactic.Ring

/-!
# Decimal arithmetic of a fixed precision

A decimal context keeps a number of significant digits: the exact result of an operation is rounded
to the nearest multiple of a power of ten, its `quantum`, which grows with the result's size and
never falls below the least power the context has.  `fit` is that rounding, ties to the even
multiple.

What a program that computes under such a context may rely on:

* `fit_nearest`: nothing the context represents is nearer to `x` than `fit x`;
* `fit_of_represents` and `represents_fit`: `fit` rests on exactly what is represented;
* `fit_mono`: rounding keeps the order, so a bound that is itself represented survives it;
* `Represents.sub`: a difference no larger than what it is taken from is exact.

The last three are all read off the first, and the first is where the work is.  A value of the
context that is finer than the quantum of `x` lies below the power of ten under `x`, and that power
is a multiple of the quantum: it stands between the two.
-/

namespace NewlifeCore

variable {K : Type} [Field K] [LinearOrder K] [IsStrictOrderedRing K] [FloorRing K]

/-! ## 1. The nearest integer -/

/-- The nearest integer, ties to the even one. -/
def roundHalfEven (q : K) : ℤ :=
  let f := ⌊q⌋
  if q - f < f + 1 - q then f
  else if f + 1 - q < q - f then f + 1
  else if f % 2 = 0 then f
  else f + 1

theorem abs_sub_roundHalfEven (q : K) : |q - roundHalfEven q| ≤ 1 / 2 := by
  have hle := Int.floor_le q
  have hlt := Int.lt_floor_add_one q
  simp only [roundHalfEven]
  rw [abs_le]
  split_ifs
  · constructor <;> linarith
  · push_cast
    constructor <;> linarith
  · constructor <;> linarith
  · push_cast
    constructor <;> linarith

/-- No integer is nearer. -/
theorem roundHalfEven_nearest (q : K) (k : ℤ) : |q - roundHalfEven q| ≤ |q - k| := by
  by_cases h : roundHalfEven q = k
  · rw [h]
  · have hhalf := abs_sub_roundHalfEven q
    have hone : (1 : K) ≤ |(roundHalfEven q : K) - k| := by
      have := Int.one_le_abs (sub_ne_zero.mpr h)
      exact_mod_cast this
    have htri := abs_sub_le (roundHalfEven q : K) q k
    rw [abs_sub_comm (roundHalfEven q : K) q] at htri
    linarith

/-! ## 2. Contexts -/

/-- A decimal context: its significant digits, and the least exponent of a last digit. -/
structure Precision where
  digits : ℕ
  etiny : ℤ
  digits_pos : 0 < digits

namespace Precision

variable (P : Precision) {x y b : K}

/-- The exponent of the last digit kept of `x`. -/
def lastExponent (x : K) : ℤ := max (Int.log 10 |x| + 1 - P.digits) P.etiny

/-- The distance between the neighbours of `x`. -/
def quantum (x : K) : K := 10 ^ P.lastExponent x

/-- **Rounded to the context**, ties to the even last digit. -/
def fit (x : K) : K := roundHalfEven (x / P.quantum x) * P.quantum x

/-- A coefficient of the context's digits, shifted by a power of ten it has. -/
def Represents (x : K) : Prop := ∃ k e : ℤ, x = k * 10 ^ e ∧ |k| ≤ 10 ^ P.digits ∧ P.etiny ≤ e

theorem ten_zpow_pos (e : ℤ) : (0 : K) < 10 ^ e := zpow_pos (by norm_num) e

theorem quantum_pos (x : K) : 0 < P.quantum x := ten_zpow_pos _

omit [IsStrictOrderedRing K] in
/-- A finer power of ten divides a coarser one. -/
theorem zpow_multiple {e f : ℤ} (h : e ≤ f) : ∃ k : ℤ, (10 : K) ^ f = k * 10 ^ e := by
  refine ⟨10 ^ (f - e).toNat, ?_⟩
  have hsplit : f = ((f - e).toNat : ℤ) + e := by omega
  nth_rewrite 1 [hsplit]
  rw [zpow_add₀ (by norm_num), zpow_natCast]
  push_cast
  rfl

theorem log_le_abs (h : x ≠ 0) : (10 : K) ^ Int.log 10 |x| ≤ |x| := by
  have := Int.zpow_log_le_self (b := 10) (by norm_num) (abs_pos.mpr h)
  exact_mod_cast this

theorem abs_lt_log (x : K) : |x| < 10 ^ (Int.log 10 |x| + 1) := by
  have := Int.lt_zpow_succ_log_self (b := 10) (by norm_num) |x|
  exact_mod_cast this

/-! ## 3. The nearest value -/

/-- No multiple of the quantum is nearer. -/
theorem fit_nearest_multiple (x : K) (k : ℤ) : |x - P.fit x| ≤ |x - k * P.quantum x| := by
  have hq := P.quantum_pos x
  have hscale : ∀ n : ℤ, |x - n * P.quantum x| = |x / P.quantum x - n| * P.quantum x := by
    intro n
    rw [← abs_of_pos hq, ← abs_mul, abs_of_pos hq, sub_mul, div_mul_cancel₀ _ hq.ne']
  rw [fit, hscale, hscale]
  exact mul_le_mul_of_nonneg_right (roundHalfEven_nearest _ k) hq.le

@[simp] theorem fit_zero : P.fit (0 : K) = 0 := by
  have := P.fit_nearest_multiple (0 : K) 0
  simpa using this

/-- What is rounded has at most the context's digits. -/
theorem represents_fit (x : K) : P.Represents (P.fit x) := by
  refine ⟨_, _, rfl, ?_, le_max_right _ _⟩
  have hq := P.quantum_pos x
  have hlt : |x / P.quantum x| < 10 ^ P.digits := by
    rw [abs_div, abs_of_pos hq, div_lt_iff₀ hq]
    refine (abs_lt_log x).trans_le ?_
    rw [quantum, ← zpow_natCast, ← zpow_add₀ (by norm_num)]
    refine zpow_le_zpow_right₀ (by norm_num) ?_
    have := le_max_left (Int.log 10 |x| + 1 - P.digits) P.etiny
    unfold lastExponent
    omega
  have hround : |(roundHalfEven (x / P.quantum x) : K)| ≤ |x / P.quantum x| + 1 / 2 := by
    have h₁ := abs_sub_roundHalfEven (x / P.quantum x)
    have h₂ := abs_sub_abs_le_abs_sub (roundHalfEven (x / P.quantum x) : K) (x / P.quantum x)
    rw [abs_sub_comm] at h₂
    linarith
  have hcast : ((|roundHalfEven (x / P.quantum x)| : ℤ) : K) < ((10 ^ P.digits + 1 : ℤ) : K) := by
    push_cast
    linarith
  exact Int.lt_add_one_iff.mp (by exact_mod_cast hcast)

/-- A represented value is a multiple of the quantum of `x`, or lies below the power of ten under
`x`. -/
theorem Represents.multiple_or_below (h : P.Represents b) (x : K) :
    (∃ k : ℤ, b = k * P.quantum x) ∨
      (|b| ≤ 10 ^ Int.log 10 |x| ∧ P.lastExponent x ≤ Int.log 10 |x|) := by
  obtain ⟨k, e, rfl, hk, he⟩ := h
  have hdigits := P.digits_pos
  rcases le_or_gt (P.lastExponent x) e with hle | hlt
  · obtain ⟨n, hn⟩ := zpow_multiple (K := K) hle
    exact Or.inl ⟨k * n, by rw [hn, quantum]; push_cast; ring⟩
  · -- the exponent is below the last one, which the context's least exponent then does not set
    have hlast : P.lastExponent x = Int.log 10 |x| + 1 - P.digits := by
      unfold lastExponent at hlt ⊢
      omega
    refine Or.inr ⟨?_, by omega⟩
    have hk' : |(k : K)| ≤ 10 ^ (P.digits : ℤ) := by
      rw [zpow_natCast]
      exact_mod_cast hk
    calc |(k : K) * 10 ^ e| = |(k : K)| * 10 ^ e := by
          rw [abs_mul, abs_of_pos (a := (10 : K) ^ e) (ten_zpow_pos e)]
      _ ≤ 10 ^ (P.digits : ℤ) * 10 ^ e := mul_le_mul_of_nonneg_right hk' (ten_zpow_pos e).le
      _ = 10 ^ ((P.digits : ℤ) + e) := (zpow_add₀ (by norm_num) _ _).symm
      _ ≤ 10 ^ Int.log 10 |x| := zpow_le_zpow_right₀ (by norm_num) (by omega)

/-- **Nothing represented is nearer.** -/
theorem fit_nearest (h : P.Represents b) (x : K) : |x - P.fit x| ≤ |x - b| := by
  by_cases hx : x = 0
  · subst hx
    simp
  rcases h.multiple_or_below P x with ⟨k, rfl⟩ | ⟨hb, hlast⟩
  · exact P.fit_nearest_multiple x k
  · -- the power of ten under `x`, with the sign of `x`, stands between `b` and `x`
    obtain ⟨n, hn⟩ := zpow_multiple (K := K) hlast
    have hlog := log_le_abs hx
    have hb' := abs_le.mp hb
    have hminus : ((-n : ℤ) : K) * P.quantum x = -10 ^ Int.log 10 |x| := by
      rw [hn, quantum]
      push_cast
      ring
    have hplus : (n : K) * P.quantum x = 10 ^ Int.log 10 |x| := by rw [hn, quantum]
    generalize (10 : K) ^ Int.log 10 |x| = p at *
    rcases lt_or_gt_of_ne hx with hneg | hpos
    · refine (P.fit_nearest_multiple x (-n)).trans ?_
      rw [abs_of_neg hneg] at hlog
      rw [hminus, abs_of_nonpos (by linarith), abs_of_nonpos (by linarith)]
      linarith
    · refine (P.fit_nearest_multiple x n).trans ?_
      rw [abs_of_pos hpos] at hlog
      rw [hplus, abs_of_nonneg (by linarith), abs_of_nonneg (by linarith)]
      linarith

theorem fit_of_represents (h : P.Represents x) : P.fit x = x := by
  have := P.fit_nearest h x
  rw [sub_self, abs_zero, abs_nonpos_iff, sub_eq_zero] at this
  exact this.symm

/-- **Rounding keeps the order.** -/
theorem fit_mono (h : x ≤ y) : P.fit x ≤ P.fit y := by
  by_contra hle
  have hlt := not_le.mp hle
  -- each of the two is nearer to its own value, so the values meet halfway between them
  have hx := P.fit_nearest (P.represents_fit y) x
  have hy := P.fit_nearest (P.represents_fit x) y
  have hmid : P.fit y + P.fit x ≤ 2 * x := by
    rcases abs_cases (x - P.fit x) with ⟨h₁, h₁'⟩ | ⟨h₁, h₁'⟩ <;>
      rcases abs_cases (x - P.fit y) with ⟨h₂, h₂'⟩ | ⟨h₂, h₂'⟩ <;> linarith
  have hmid' : 2 * y ≤ P.fit y + P.fit x := by
    rcases abs_cases (y - P.fit y) with ⟨h₁, h₁'⟩ | ⟨h₁, h₁'⟩ <;>
      rcases abs_cases (y - P.fit x) with ⟨h₂, h₂'⟩ | ⟨h₂, h₂'⟩ <;> linarith
  have heq : x = y := by linarith
  rw [heq] at hlt
  exact lt_irrefl _ hlt

theorem fit_le (h : P.Represents b) (hx : x ≤ b) : P.fit x ≤ b :=
  (P.fit_mono hx).trans_eq (P.fit_of_represents h)

theorem le_fit (h : P.Represents b) (hx : b ≤ x) : b ≤ P.fit x :=
  (P.fit_of_represents h).symm.trans_le (P.fit_mono hx)

theorem represents_zero : P.Represents (0 : K) := by
  have := P.represents_fit (0 : K)
  rwa [fit_zero] at this

theorem fit_nonneg (h : 0 ≤ x) : 0 ≤ P.fit x := by
  have := P.fit_mono h
  rwa [fit_zero] at this

/-! ## 4. Values that need no rounding -/

/-- A coefficient within the digits, at an exponent the context has. -/
theorem represents_of_multiple {e k : ℤ} (he : P.etiny ≤ e) (hx : x = k * 10 ^ e)
    (hle : |x| ≤ 10 ^ (P.digits + e : ℤ)) : P.Represents x := by
  refine ⟨k, e, hx, ?_, he⟩
  rw [hx, abs_mul, abs_of_pos (a := (10 : K) ^ e) (ten_zpow_pos e), zpow_add₀ (by norm_num)] at hle
  have hk := le_of_mul_le_mul_right hle (ten_zpow_pos e)
  rw [zpow_natCast] at hk
  exact_mod_cast hk

omit [IsStrictOrderedRing K] in
/-- A power of ten only moves the exponent. -/
theorem Represents.shift (h : P.Represents x) (n : ℕ) : P.Represents (x * 10 ^ n) := by
  obtain ⟨k, e, rfl, hk, he⟩ := h
  refine ⟨k, e + n, ?_, hk, by omega⟩
  rw [zpow_add₀ (by norm_num), zpow_natCast, mul_assoc]

/-- **A difference no larger than what it is taken from is exact**, when what is taken away is a
multiple of a power of ten the context has and the difference has not too many digits above it. -/
theorem Represents.sub {e k : ℤ} (h : P.Represents x) (he : P.etiny ≤ e) (hy : y = k * 10 ^ e)
    (hle : |x - y| ≤ |x|) (hdigits : |x - y| ≤ 10 ^ (P.digits + e : ℤ)) :
    P.Represents (x - y) := by
  obtain ⟨j, f, rfl, hj, hf⟩ := h
  rcases le_or_gt e f with hef | hfe
  · obtain ⟨n, hn⟩ := zpow_multiple (K := K) hef
    refine P.represents_of_multiple (k := j * n - k) he ?_ hdigits
    rw [hy, hn]
    push_cast
    ring
  · obtain ⟨n, hn⟩ := zpow_multiple (K := K) hfe.le
    refine P.represents_of_multiple (k := j - k * n) hf ?_ (hle.trans ?_)
    · rw [hy, hn]
      push_cast
      ring
    · rw [abs_mul, abs_of_pos (a := (10 : K) ^ f) (ten_zpow_pos f), zpow_add₀ (by norm_num), zpow_natCast]
      refine mul_le_mul_of_nonneg_right ?_ (ten_zpow_pos f).le
      exact_mod_cast hj

end Precision

end NewlifeCore
