import Mathlib.Algebra.Ring.Int.Defs
import Mathlib.Data.List.Sort
import Mathlib.Data.List.Perm.Basic
import Mathlib.Data.String.Basic

/-!
# Text that can be read back

Numbers written in decimal, padded fields, and parts joined by a separator: what was written is
determined by the text, as long as no part contains the separator.
-/

namespace NewlifeCore.Text

/-! ## 1. Numbers -/

/-- A number, with zeros before it up to a width. -/
def padded (n : Nat) (x : Int) : String :=
  let s := toString x; "".pushn '0' (n - s.length) ++ s

theorem toList_pushn (s : String) (c : Char) (n : Nat) :
    (s.pushn c n).toList = s.toList ++ List.replicate n c := by
  rw [String.pushn_eq_repeat_push]
  induction n with
  | zero => simp [Nat.repeat]
  | succ n ih => rw [Nat.repeat, String.toList_push, ih, List.replicate_succ', List.append_assoc]

theorem toList_natToString (n : Nat) : (toString n).toList = Nat.toDigits 10 n := by
  rw [Nat.toString_eq_repr, Nat.toList_repr]

theorem toList_padded (n : Nat) (x : Int) : (padded n x).toList =
    List.replicate (n - (toString x).length) '0' ++ (toString x).toList := by
  simp [padded, toList_pushn]

theorem toString_ofNat (n : Nat) : toString (n : Int) = toString n := rfl

theorem toString_negSucc (n : Nat) : toString (Int.negSucc n) = "-" ++ toString (n + 1) := rfl

/-- Digits and the sign are all that a number is written with. -/
def NumberChar (c : Char) : Prop := c.isDigit = true ∨ c = '-'

theorem natToString_digits {n : Nat} {c : Char} (h : c ∈ (toString n).toList) :
    c.isDigit = true := by
  rw [toList_natToString] at h
  exact Nat.isDigit_of_mem_toDigits (by decide) (by decide) h

theorem intToString_chars {x : Int} {c : Char} (h : c ∈ (toString x).toList) : NumberChar c := by
  cases x with
  | ofNat n => exact .inl (natToString_digits h)
  | negSucc n =>
    rw [toString_negSucc, String.toList_append, List.mem_append] at h
    rcases h with h | h
    · exact .inr (by simpa using h)
    · exact .inl (natToString_digits h)

theorem padded_chars {n : Nat} {x : Int} {c : Char} (h : c ∈ (padded n x).toList) :
    NumberChar c := by
  rw [toList_padded, List.mem_append] at h
  rcases h with h | h
  · rw [List.eq_of_mem_replicate h]
    exact .inl (by decide)
  · exact intToString_chars h

theorem padded_digits {n : Nat} {x : Int} (hx : 0 ≤ x) {c : Char} (h : c ∈ (padded n x).toList) :
    c.isDigit = true := by
  obtain ⟨m, rfl⟩ := Int.eq_ofNat_of_zero_le hx
  rw [toList_padded, List.mem_append] at h
  rcases h with h | h
  · rw [List.eq_of_mem_replicate h]; decide
  · exact natToString_digits h

/-- A number that fits its field fills it. -/
theorem length_padded {n : Nat} {x : Int} (hn : 0 < n) (h₀ : 0 ≤ x) (h₁ : x < 10 ^ n) :
    (padded n x).toList.length = n := by
  obtain ⟨m, rfl⟩ := Int.eq_ofNat_of_zero_le h₀
  have hm : m < 10 ^ n := by exact_mod_cast h₁
  have hlen : (Nat.toDigits 10 m).length ≤ n := (Nat.length_toDigits_le_iff (by decide) hn).mpr hm
  rw [toList_padded, toString_ofNat, List.length_append, List.length_replicate,
    ← String.length_toList, toList_natToString]
  omega

/-- The number a text stands for. -/
def number (l : List Char) : Int :=
  if '-' ∈ l then -(Nat.ofDigitChars 10 ((l.dropWhile (· ≠ '-')).drop 1) 0 : Int)
  else Nat.ofDigitChars 10 l 0

theorem number_padded (n : Nat) (x : Int) : number (padded n x).toList = x := by
  cases x with
  | ofNat m =>
    have hno : '-' ∉ (padded n (Int.ofNat m)).toList := fun h => by
      have := padded_digits (Int.natCast_nonneg m) h
      revert this
      decide
    have hl : (padded n (Int.ofNat m)).toList =
        List.replicate (n - (toString (Int.ofNat m)).length) '0' ++ Nat.toDigits 10 m := by
      rw [toList_padded, ← toList_natToString]; rfl
    rw [number, if_neg hno, hl, Nat.ofDigitChars_append]
    simp
  | negSucc m =>
    have hl : (padded n (Int.negSucc m)).toList =
        List.replicate (n - (toString (Int.negSucc m)).length) '0' ++
          '-' :: Nat.toDigits 10 (m + 1) := by
      rw [toList_padded, toString_negSucc, String.toList_append, toList_natToString]; rfl
    have hzeros : ∀ c ∈ List.replicate (n - (toString (Int.negSucc m)).length) '0',
        decide (c ≠ '-') = true := fun c hc => by rw [List.eq_of_mem_replicate hc]; decide
    rw [number, hl, if_pos (List.mem_append_right _ List.mem_cons_self),
      List.dropWhile_append_of_pos hzeros, List.dropWhile_cons_of_neg (by decide)]
    simp only [List.drop_succ_cons, List.drop_zero, Nat.ofDigitChars_ten_toDigits]
    rfl

theorem padded_injective (n : Nat) : Function.Injective (padded n) := fun x y h => by
  rw [← number_padded n x, h, number_padded n y]

theorem natToString_injective : Function.Injective (toString : Nat → String) := fun m n h => by
  have := congrArg (fun s : String => Nat.ofDigitChars 10 s.toList 0) h
  simpa [toList_natToString] using this

theorem natToString_ne_empty (n : Nat) : toString n ≠ "" := fun h => by
  have := congrArg String.toList h
  rw [toList_natToString] at this
  exact Nat.toDigits_ne_nil this

/-! ## 2. Parts and a separator -/

/-- What stands before the first separator, and what stands after it. -/
theorem append_cons_inj {α : Type} {c : α} : ∀ {xs ys xs' ys' : List α}, c ∉ xs → c ∉ ys →
    xs ++ c :: xs' = ys ++ c :: ys' → xs = ys ∧ xs' = ys'
  | [], [], _, _, _, _, h => ⟨rfl, (List.cons.inj h).2⟩
  | [], y :: ys, _, _, _, hy, h => absurd (List.cons.inj h).1 fun he => hy (he ▸ List.mem_cons_self)
  | x :: xs, [], _, _, hx, _, h => absurd (List.cons.inj h).1 fun he => hx (he ▸ List.mem_cons_self)
  | x :: xs, y :: ys, _, _, hx, hy, h => by
    obtain ⟨rfl, htail⟩ := List.cons.inj h
    obtain ⟨rfl, hrest⟩ := append_cons_inj (fun hc => hx (List.mem_cons_of_mem _ hc))
      (fun hc => hy (List.mem_cons_of_mem _ hc)) htail
    exact ⟨rfl, hrest⟩

/-- **Parts joined by a character that none of them has are determined by the text.** -/
theorem intercalate_injective {sep : String} {c : Char} (hsep : sep.toList = [c])
    {xs ys : List String} (hx : ∀ s ∈ xs, c ∉ s.toList) (hy : ∀ s ∈ ys, c ∉ s.toList)
    (hxn : xs ≠ []) (hyn : ys ≠ []) (h : sep.intercalate xs = sep.intercalate ys) : xs = ys := by
  have hlists := congrArg String.toList h
  rw [String.toList_intercalate, String.toList_intercalate, hsep] at hlists
  have hsplit := congrArg (List.splitOn c) hlists
  have hplain : ∀ {zs : List String}, (∀ s ∈ zs, c ∉ s.toList) →
      ∀ l ∈ zs.map String.toList, c ∉ l := fun hz l hl => by
    obtain ⟨s, hs, rfl⟩ := List.mem_map.mp hl
    exact hz s hs
  rw [List.splitOn_intercalate c (hplain hx) (by simpa using hxn),
    List.splitOn_intercalate c (hplain hy) (by simpa using hyn)] at hsplit
  exact List.map_injective_iff.mpr (fun _ _ => String.toList_injective) hsplit

/-- No part of a split text has the separator. -/
theorem not_mem_of_mem_splitOn {α : Type} [DecidableEq α] {c : α} {l part : List α}
    (h : part ∈ l.splitOn c) : c ∉ part := by
  induction l generalizing part with
  | nil =>
    rw [List.mem_singleton.mp h]
    exact List.not_mem_nil
  | cons x l ih =>
    rw [List.splitOn_cons_eq_if_modifyHead] at h
    split at h
    · rcases List.mem_cons.mp h with rfl | h
      · exact List.not_mem_nil
      · exact ih h
    · rename_i hx
      cases hrest : l.splitOn c with
      | nil => exact absurd hrest (List.splitOn_ne_nil c l)
      | cons first rest =>
        rw [hrest] at h ih
        rcases List.mem_cons.mp h with rfl | h
        · rw [List.mem_cons, not_or]
          exact ⟨fun he => hx (by simp [he]), ih List.mem_cons_self⟩
        · exact ih (List.mem_cons_of_mem first h)

/-- What stands before the last separator, and what stands after it. -/
def splitLast {α : Type} [DecidableEq α] (c : α) : List α → Option (List α × List α)
  | [] => none
  | x :: l =>
    match splitLast c l with
    | some (a, b) => some (x :: a, b)
    | none => if x = c then some ([], l) else none

theorem splitLast_eq_none_iff {α : Type} [DecidableEq α] {c : α} {l : List α} :
    splitLast c l = none ↔ c ∉ l := by
  induction l with
  | nil => simp [splitLast]
  | cons x l ih =>
    unfold splitLast
    cases h : splitLast c l with
    | some p =>
      have hmem : c ∈ l := by
        by_contra hno
        rw [ih.mpr hno] at h
        cases h
      simp [hmem]
    | none =>
      rw [List.mem_cons, not_or, ← ih, h]
      by_cases hx : x = c
      · simp [hx]
      · simp [hx, Ne.symm hx]

theorem splitLast_append {α : Type} [DecidableEq α] {c : α} {b : List α} (h : c ∉ b) :
    ∀ a : List α, splitLast c (a ++ c :: b) = some (a, b)
  | [] => by
    rw [List.nil_append, splitLast, splitLast_eq_none_iff.mpr h]
    exact if_pos rfl
  | x :: a => by rw [List.cons_append, splitLast, splitLast_append h a]

/-- A split put back together; the second part has no separator. -/
theorem splitLast_eq_some {α : Type} [DecidableEq α] {c : α} :
    ∀ {l a b : List α}, splitLast c l = some (a, b) → l = a ++ c :: b ∧ c ∉ b
  | x :: l, a, b, h => by
    unfold splitLast at h
    cases hl : splitLast c l with
    | some p =>
      rw [hl] at h
      cases h
      obtain ⟨hp, hb⟩ := splitLast_eq_some hl
      exact ⟨by rw [List.cons_append, ← hp], hb⟩
    | none =>
      rw [hl] at h
      dsimp only at h
      split at h
      · rename_i hx
        cases h
        exact ⟨by rw [hx, List.nil_append], splitLast_eq_none_iff.mp hl⟩
      · cases h

/-- `text.rsplit(c, 1)`, none where there is nothing to split. -/
def rsplitOnce (c : Char) (text : String) : Option (String × String) :=
  (splitLast c text.toList).map fun p => (String.ofList p.1, String.ofList p.2)

theorem rsplitOnce_eq_none_iff {c : Char} {text : String} :
    rsplitOnce c text = none ↔ c ∉ text.toList := by
  rw [rsplitOnce, Option.map_eq_none_iff, splitLast_eq_none_iff]

theorem rsplitOnce_eq_some_iff {c : Char} {text a b : String} :
    rsplitOnce c text = some (a, b) ↔ text = a ++ c.toString ++ b ∧ c ∉ b.toList := by
  have hlist : ∀ x y : String, text = x ++ c.toString ++ y ↔
      text.toList = x.toList ++ c :: y.toList := fun x y => by
    rw [← String.toList_inj]
    simp
  rw [rsplitOnce, Option.map_eq_some_iff, hlist]
  constructor
  · rintro ⟨⟨x, y⟩, h, hp⟩
    obtain ⟨hx, hy⟩ := Prod.mk.inj hp
    rw [← hx, ← hy, String.toList_ofList, String.toList_ofList]
    exact splitLast_eq_some h
  · rintro ⟨h, hb⟩
    refine ⟨(a.toList, b.toList), ?_, by simp⟩
    rw [h, splitLast_append hb]

/-! ## 3. Sorted texts -/

/-- Two lists of texts sort to one list when they hold the same texts, each as often. -/
theorem insertionSort_eq_iff {xs ys : List String} :
    xs.insertionSort (· ≤ ·) = ys.insertionSort (· ≤ ·) ↔ xs.Perm ys := by
  constructor
  · intro h
    exact (List.perm_insertionSort (· ≤ ·) xs).symm.trans
      (h ▸ List.perm_insertionSort (· ≤ ·) ys)
  · intro h
    refine List.Perm.eq_of_pairwise' (List.pairwise_insertionSort (· ≤ ·) xs)
      (List.pairwise_insertionSort (· ≤ ·) ys) ?_
    exact ((List.perm_insertionSort (· ≤ ·) xs).trans h).trans
      (List.perm_insertionSort (· ≤ ·) ys).symm

end NewlifeCore.Text
