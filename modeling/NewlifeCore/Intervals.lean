import Mathlib.Data.List.Pairwise
import Mathlib.Order.MinMax

/-!
# Lists of half-open intervals

What a list of intervals `[s, e)` covers, over any linear order: the union of a list, its
complement in another interval, and when a stretch that is covered throughout lies in one of them.
-/

namespace NewlifeCore.Intervals

variable {τ : Type} [LinearOrder τ]

/-- The interval holds the moment. -/
def Holds (i : τ × τ) (u : τ) : Prop := i.1 ≤ u ∧ u < i.2

/-- Some interval of the list holds the moment. -/
def Covers (is : List (τ × τ)) (u : τ) : Prop := ∃ i ∈ is, Holds i u

variable {i j : τ × τ} {is js : List (τ × τ)} {u s e : τ}

@[simp] theorem covers_nil : ¬ Covers ([] : List (τ × τ)) u := by simp [Covers]

@[simp] theorem covers_cons : Covers (i :: is) u ↔ Holds i u ∨ Covers is u := by simp [Covers]

@[simp] theorem covers_append : Covers (is ++ js) u ↔ Covers is u ∨ Covers js u := by
  simp [Covers, or_and_right, exists_or]

theorem covers_perm (h : is.Perm js) : Covers is u ↔ Covers js u := by
  simp only [Covers, h.mem_iff]

theorem covers_flatMap {α : Type} {f : α → List (τ × τ)} {l : List α} :
    Covers (l.flatMap f) u ↔ ∃ a ∈ l, Covers (f a) u := by
  simp only [Covers, List.mem_flatMap]
  constructor
  · rintro ⟨i, ⟨a, ha, hi⟩, hu⟩
    exact ⟨a, ha, i, hi, hu⟩
  · rintro ⟨a, ha, i, hi, hu⟩
    exact ⟨i, ⟨a, ha, hi⟩, hu⟩

/-- An interval that ends before it starts holds nothing, so dropping those loses nothing. -/
theorem covers_filter_lt : Covers (is.filter fun i => i.1 < i.2) u ↔ Covers is u := by
  simp only [Covers, List.mem_filter, decide_eq_true_eq]
  constructor
  · rintro ⟨i, ⟨hi, -⟩, hu⟩
    exact ⟨i, hi, hu⟩
  · rintro ⟨i, hi, hu⟩
    exact ⟨i, ⟨hi, lt_of_le_of_lt hu.1 hu.2⟩, hu⟩

/-! ## 1. Union -/

/-- The union of an interval with one that starts within it or where it ends. -/
theorem holds_join (h₁ : i.1 ≤ j.1) (h₂ : j.1 ≤ i.2) :
    Holds (i.1, max i.2 j.2) u ↔ Holds i u ∨ Holds j u := by
  simp only [Holds, lt_max_iff]
  constructor
  · rintro ⟨hs, he | he⟩
    · exact .inl ⟨hs, he⟩
    · by_cases hu : u < i.2
      · exact .inl ⟨hs, hu⟩
      · exact .inr ⟨le_trans h₂ (not_lt.mp hu), he⟩
  · rintro (⟨hs, he⟩ | ⟨hs, he⟩)
    · exact ⟨hs, .inl he⟩
    · exact ⟨le_trans h₁ hs, .inr he⟩

/-- The intervals are in order, with time between each two. -/
def Separated (is : List (τ × τ)) : Prop := is.Pairwise fun i j => i.2 < j.1

/-- **A stretch that separated intervals cover throughout lies in one of them.** -/
theorem Separated.within (h : Separated is) (hse : s < e)
    (hcovers : ∀ u, s ≤ u → u < e → Covers is u) : ∃ i ∈ is, i.1 ≤ s ∧ e ≤ i.2 := by
  obtain ⟨i, hi, his, hsi⟩ := hcovers s (le_refl s) hse
  refine ⟨i, hi, his, ?_⟩
  by_contra hend
  -- the end of that interval would lie in another one, with no time between them
  have hend := not_le.mp hend
  obtain ⟨j, hj, hij, hji⟩ := hcovers i.2 (le_of_lt hsi) hend
  have hne : i ≠ j := by
    rintro rfl
    exact lt_irrefl _ hji
  have happart : is.Pairwise fun i j => i.2 < j.1 ∨ j.2 < i.1 := List.Pairwise.imp Or.inl h
  have : Std.Symm fun i j : τ × τ => i.2 < j.1 ∨ j.2 < i.1 := ⟨fun _ _ => Or.symm⟩
  have hsep : i.2 < j.1 ∨ j.2 < i.1 := happart.forall hi hj hne
  rcases hsep with hlt | hlt
  · exact absurd hij (not_le.mpr hlt)
  · exact absurd (lt_trans hji hlt) (not_lt.mpr (le_trans his (le_of_lt hsi)))

/-! ## 2. Complement -/

/-- What is left of an interval when another is cut out of it. -/
theorem covers_cut (hcut : ¬ Holds j u) (hu : Holds i u) :
    Holds (i.1, min i.2 j.1) u ∨ Holds (max i.1 j.2, i.2) u := by
  simp only [Holds, lt_min_iff, max_le_iff, not_and, not_lt] at *
  by_cases h : u < j.1
  · exact .inl ⟨hu.1, hu.2, h⟩
  · exact .inr ⟨⟨hu.1, hcut (not_lt.mp h)⟩, hu.2⟩

/-! ## 3. How often a moment is covered -/

instance : Decidable (Holds i u) := inferInstanceAs (Decidable (_ ∧ _))

/-- How many intervals of the list hold the moment. -/
def multiplicity (is : List (τ × τ)) (u : τ) : Nat := is.countP fun i => decide (Holds i u)

/-- No two intervals of the list share a moment. -/
def Apart (is : List (τ × τ)) : Prop := is.Pairwise fun i j => ∀ u, ¬ (Holds i u ∧ Holds j u)

@[simp] theorem multiplicity_nil : multiplicity ([] : List (τ × τ)) u = 0 := rfl

theorem multiplicity_cons :
    multiplicity (i :: is) u = multiplicity is u + if Holds i u then 1 else 0 := by
  simp [multiplicity, List.countP_cons]

@[simp] theorem multiplicity_append :
    multiplicity (is ++ js) u = multiplicity is u + multiplicity js u := by
  simp [multiplicity]

theorem multiplicity_eq_zero : multiplicity is u = 0 ↔ ¬ Covers is u := by
  simp [multiplicity, Covers, List.countP_eq_zero]

theorem multiplicity_pos : 0 < multiplicity is u ↔ Covers is u := by
  rw [Nat.pos_iff_ne_zero, ne_eq, multiplicity_eq_zero, not_not]

/-- **Intervals are apart** when every moment is held at most once. -/
theorem apart_iff : Apart is ↔ ∀ u, multiplicity is u ≤ 1 := by
  induction is with
  | nil => simp [Apart]
  | cons i is ih =>
    unfold Apart at ih ⊢
    rw [List.pairwise_cons, ih]
    constructor
    · rintro ⟨hfirst, hrest⟩ u
      rw [multiplicity_cons]
      split
      · rename_i hi
        have hnone : ¬ Covers is u := fun ⟨j, hj, hu⟩ => hfirst j hj u ⟨hi, hu⟩
        rw [multiplicity_eq_zero.mpr hnone]
      · exact hrest u
    · intro h
      refine ⟨fun j hj u ⟨hi, hu⟩ => ?_, fun u => ?_⟩
      · have hmult := h u
        rw [multiplicity_cons, if_pos hi] at hmult
        have hpos := multiplicity_pos.mpr ⟨j, hj, hu⟩
        omega
      · have hmult := h u
        rw [multiplicity_cons] at hmult
        omega

/-- What replaces each interval by at most as much keeps at most as much. -/
theorem multiplicity_flatMap_le {f : τ × τ → List (τ × τ)}
    (h : ∀ i ∈ is, multiplicity (f i) u ≤ if Holds i u then 1 else 0) :
    multiplicity (is.flatMap f) u ≤ multiplicity is u := by
  induction is with
  | nil => simp
  | cons i is ih =>
    have hfirst := h i List.mem_cons_self
    have hrest := ih fun j hj => h j (List.mem_cons_of_mem _ hj)
    rw [List.flatMap_cons, multiplicity_append, multiplicity_cons]
    omega

theorem le_multiplicity_flatMap {f : τ × τ → List (τ × τ)}
    (h : ∀ i ∈ is, (if Holds i u then 1 else 0) ≤ multiplicity (f i) u) :
    multiplicity is u ≤ multiplicity (is.flatMap f) u := by
  induction is with
  | nil => simp
  | cons i is ih =>
    have hfirst := h i List.mem_cons_self
    have hrest := ih fun j hj => h j (List.mem_cons_of_mem _ hj)
    rw [List.flatMap_cons, multiplicity_append, multiplicity_cons]
    omega

/-- Intervals with time between each two are apart. -/
theorem Separated.apart (h : Separated is) : Apart is := by
  refine h.imp fun {i j} hij u hu => ?_
  exact lt_irrefl u (lt_of_lt_of_le (lt_trans hu.1.2 hij) hu.2.1)

end NewlifeCore.Intervals
