import Mathlib.Data.List.Sort
import Mathlib.Tactic.Common

/-!
# Pages of a sorted list

Rows are sorted by a list of keys, and rows that tie may come in any order, a different one each
time.  The pages still make up the rows as soon as one of the keys tells all rows apart.
-/

namespace NewlifeCore

/-- **A sort key**: any two rows compare. -/
structure SortKey (α : Type) where
  le : α → α → Prop
  total : ∀ a b, le a b ∨ le b a
  trans : ∀ {a b c}, le a b → le b c → le a c

namespace SortKey

variable {α : Type}

/-- The other way round. -/
def flip (k : SortKey α) : SortKey α where
  le a b := k.le b a
  total a b := k.total b a
  trans h h' := k.trans h' h

open Classical in
/-- Rows with no value first, in the order that the key has among them. -/
def nullsFirst (k : SortKey α) (isNull : α → Prop) : SortKey α where
  le a b := if isNull a then isNull b → k.le a b else ¬ isNull b ∧ k.le a b
  total a b := by
    have := k.total a b
    by_cases ha : isNull a <;> by_cases hb : isNull b <;> simp [ha, hb, this]
  trans {a b c} h h' := by
    have := k.trans (a := a) (b := b) (c := c)
    by_cases ha : isNull a <;> by_cases hb : isNull b <;> by_cases hc : isNull c <;>
      simp_all

/-- Sorted by the first key; rows that tie are sorted by the next. -/
def lexLe : List (SortKey α) → α → α → Prop
  | [], _, _ => True
  | k :: ks, a, b => k.le a b ∧ (k.le b a → lexLe ks a b)

theorem lexLe_total : ∀ (ks : List (SortKey α)) (a b : α), lexLe ks a b ∨ lexLe ks b a
  | [], _, _ => .inl trivial
  | k :: ks, a, b => by
    have ih := lexLe_total ks a b
    rcases k.total a b with h | h
    · by_cases h' : k.le b a
      · exact ih.imp (fun hrest => ⟨h, fun _ => hrest⟩) fun hrest => ⟨h', fun _ => hrest⟩
      · exact .inl ⟨h, fun hback => absurd hback h'⟩
    · by_cases h' : k.le a b
      · exact ih.imp (fun hrest => ⟨h', fun _ => hrest⟩) fun hrest => ⟨h, fun _ => hrest⟩
      · exact .inr ⟨h, fun hback => absurd hback h'⟩

theorem lexLe_trans : ∀ (ks : List (SortKey α)) {a b c : α}, lexLe ks a b → lexLe ks b c →
    lexLe ks a c
  | [], _, _, _, _, _ => trivial
  | k :: ks, _, _, _, ⟨hab, hrest⟩, ⟨hbc, hrest'⟩ =>
    ⟨k.trans hab hbc, fun hca =>
      lexLe_trans ks (hrest (k.trans hbc hca)) (hrest' (k.trans hca hab))⟩

/-- `ORDER BY` some keys. -/
def lex (ks : List (SortKey α)) : SortKey α := ⟨lexLe ks, lexLe_total ks, lexLe_trans ks⟩

/-- Rows that tie under all keys tie under each. -/
theorem lexLe_tie {k : SortKey α} {a b : α} : ∀ {ks : List (SortKey α)}, k ∈ ks →
    lexLe ks a b → lexLe ks b a → k.le a b ∧ k.le b a
  | j :: ks, hk, ⟨hab, hrest⟩, ⟨hba, hrest'⟩ => by
    rcases List.mem_cons.mp hk with rfl | hk
    · exact ⟨hab, hba⟩
    · exact lexLe_tie hk (hrest hba) (hrest' hab)

/-- A key tells the rows of a list apart. -/
def Separates (k : SortKey α) (rows : List α) : Prop :=
  ∀ a ∈ rows, ∀ b ∈ rows, k.le a b → k.le b a → a = b

theorem Separates.lex {k : SortKey α} {ks : List (SortKey α)} {rows : List α} (hk : k ∈ ks)
    (h : k.Separates rows) : (SortKey.lex ks).Separates rows := by
  intro a ha b hb hab hba
  obtain ⟨hab, hba⟩ := lexLe_tie hk hab hba
  exact h a ha b hb hab hba

/-- What `ORDER BY` the key `LIMIT limit OFFSET offset` may return. -/
def Slice (k : SortKey α) (rows : List α) (offset limit : Nat) (page : List α) : Prop :=
  ∃ l : List α, l.Perm rows ∧ l.Pairwise k.le ∧ page = (l.drop offset).take limit

variable {k : SortKey α} {rows : List α} {n : Nat} {pages : Nat → List α}

theorem exists_sorted (k : SortKey α) (rows : List α) :
    ∃ l : List α, l.Perm rows ∧ l.Pairwise k.le := by
  classical
  have : Std.Total k.le := ⟨k.total⟩
  have : IsTrans α k.le := ⟨fun _ _ _ => k.trans⟩
  exact ⟨rows.insertionSort k.le, rows.perm_insertionSort k.le, rows.pairwise_insertionSort k.le⟩

theorem exists_slice (k : SortKey α) (rows : List α) (offset limit : Nat) :
    ∃ page, k.Slice rows offset limit page := by
  obtain ⟨l, hperm, hsorted⟩ := k.exists_sorted rows
  exact ⟨_, l, hperm, hsorted, rfl⟩

/-- Rows that are told apart have one order. -/
theorem Slice.eq (hrows : k.Separates rows) {l : List α} (hl : l.Perm rows)
    (hsorted : l.Pairwise k.le) {offset limit : Nat} {page : List α}
    (h : k.Slice rows offset limit page) : page = (l.drop offset).take limit := by
  obtain ⟨l', hl', hsorted', rfl⟩ := h
  have hsame : l' = l := by
    refine List.Perm.eq_of_pairwise (fun a b ha hb hab hba => ?_) hsorted' hsorted
      (hl'.trans hl.symm)
    exact hrows a (hl'.subset ha) b (hl.subset hb) hab hba
  rw [hsame]

/-- The first pages are the first rows. -/
theorem flatMap_slices (hrows : k.Separates rows) {l : List α} (hl : l.Perm rows)
    (hsorted : l.Pairwise k.le) (h : ∀ i, k.Slice rows (i * n) n (pages i)) (m : Nat) :
    (List.range m).flatMap pages = l.take (m * n) := by
  induction m with
  | zero => simp
  | succ m ih =>
    rw [List.range_succ, List.flatMap_append, ih, List.flatMap_singleton,
      (h m).eq hrows hl hsorted, ← List.take_add, Nat.add_mul, Nat.one_mul]

/-- **Pages partition the rows** when some key tells them apart. -/
theorem pages_partition (hrows : k.Separates rows)
    (h : ∀ i, k.Slice rows (i * n) n (pages i)) {m : Nat} (hm : rows.length ≤ m * n) :
    ((List.range m).flatMap pages).Perm rows := by
  obtain ⟨l, hl, hsorted⟩ := k.exists_sorted rows
  rw [flatMap_slices hrows hl hsorted h, List.take_of_length_le (hl.length_eq.trans_le hm)]
  exact hl

end SortKey

end NewlifeCore
