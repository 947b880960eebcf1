import Mathlib.Data.List.Dedup
import Mathlib.Data.List.Forall2
import Mathlib.Data.List.Nodup
import Mathlib.Data.List.Sort

/-!
# Lists

Facts about lists that are filtered, flattened, sorted, rid of repetitions or related element by
element.
-/

namespace NewlifeCore

/-! ## 1. Filters -/

/-- What is in order already stays in its order. -/
theorem filter_insertionSort {α : Type} {le : α → α → Prop} [DecidableRel le] {p : α → Bool}
    {l : List α} (h : (l.filter p).Pairwise le) : (l.insertionSort le).filter p = l.filter p := by
  have hsub := (List.sublist_insertionSort h List.filter_sublist).filter p
  rw [List.filter_filter, List.filter_congr fun a _ => Bool.and_self (p a)] at hsub
  exact (hsub.eq_of_length ((List.perm_insertionSort le l).filter p).length_eq.symm).symm

/-- Rows with keys of their own: a filter that asks for a key returns one row at most. -/
theorem filter_key_eq_singleton {α κ : Type} {key : α → κ} {p : α → Bool} {id : κ}
    {l : List α} (hkeys : (l.map key).Nodup) (hp : ∀ x, p x = true → key x = id) {x : α}
    (hx : x ∈ l) (hpx : p x = true) : l.filter p = [x] := by
  obtain ⟨before, after, rfl⟩ := List.mem_iff_append.mp hx
  rw [List.map_append, List.map_cons, List.nodup_middle, ← List.map_append] at hkeys
  have hother : ∀ y ∈ before ++ after, ¬p y = true := by
    intro y hy hpy
    refine (List.nodup_cons.mp hkeys).1 ?_
    rw [hp x hpx, ← hp y hpy]
    exact List.mem_map_of_mem hy
  have hbefore := List.filter_eq_nil_iff.mpr fun y hy => hother y (List.mem_append_left after hy)
  have hafter := List.filter_eq_nil_iff.mpr fun y hy => hother y (List.mem_append_right before hy)
  rw [List.filter_append, List.filter_cons_of_pos hpx, hbefore, hafter]
  rfl

/-- Of two choices from a list, one within the other, the images agree only where the choices do. -/
theorem map_filter_eq_iff {α β : Type} {l : List α} {p q : α → Bool} {f : α → β}
    (hpq : ∀ a, p a = true → q a = true) :
    (l.filter p).map f = (l.filter q).map f ↔ ∀ a ∈ l, q a = true → p a = true := by
  constructor
  · intro h a ha hq
    have hlength := congrArg List.length h
    rw [List.length_map, List.length_map] at hlength
    have heq := (List.monotone_filter_right l hpq).eq_of_length hlength
    exact (List.mem_filter.mp (heq ▸ List.mem_filter.mpr ⟨ha, hq⟩)).2
  · intro h
    rw [List.filter_congr fun a ha => Bool.eq_iff_iff.mpr ⟨hpq a, h a ha⟩]

/-! ## 2. Flattened lists -/

theorem filter_flatMap {α β : Type} {f : α → List β} {p : α → Bool} {q : β → Bool}
    (h : ∀ a, ∀ b ∈ f a, q b = p a) (l : List α) :
    (l.flatMap f).filter q = (l.filter p).flatMap f := by
  induction l with
  | nil => rfl
  | cons a l ih =>
    rw [List.flatMap_cons, List.filter_append, ih, List.filter_cons]
    by_cases ha : p a = true
    · rw [if_pos ha, List.flatMap_cons, List.filter_eq_self.mpr fun b hb => (h a b hb).trans ha]
    · rw [if_neg ha, List.filter_eq_nil_iff.mpr fun b hb => by rwa [h a b hb], List.nil_append]

/-- What contributes nothing may be left out. -/
theorem flatMap_filter_of_nil {α β : Type} {f : α → List β} {p : α → Bool} {l : List α}
    (h : ∀ a ∈ l, f a ≠ [] → p a = true) : l.flatMap f = (l.filter p).flatMap f := by
  induction l with
  | nil => rfl
  | cons a l ih =>
    rw [List.flatMap_cons, ih fun b hb => h b (List.mem_cons_of_mem a hb), List.filter_cons]
    split
    · rw [List.flatMap_cons]
    · rename_i ha
      have hnil : f a = [] := by
        by_contra hne
        exact ha (h a List.mem_cons_self hne)
      rw [hnil, List.nil_append]

/-- Only one element contributes. -/
theorem flatMap_eq_of_mem {α β : Type} {f : α → List β} {xs : List α} {x : α} (hx : x ∈ xs)
    (hnodup : xs.Nodup) (hnil : ∀ y ∈ xs, y ≠ x → f y = []) : xs.flatMap f = f x := by
  classical
  have hone : xs.filter (fun y => decide (y = x)) = [x] :=
    filter_key_eq_singleton (hnodup.map fun _ _ h => h) (fun _ => of_decide_eq_true) hx
      (decide_eq_true rfl)
  rw [flatMap_filter_of_nil fun y hy hne => decide_eq_true (by_contra fun h => hne (hnil y hy h)),
    hone, List.flatMap_singleton]

/-- The only element that a search accepts is what it finds. -/
theorem find?_eq_of_unique {α : Type} {p : α → Bool} {l : List α} {x : α} (hx : x ∈ l)
    (hp : p x = true) (hunique : ∀ y ∈ l, p y = true → y = x) : l.find? p = some x := by
  cases h : l.find? p with
  | none => exact absurd hp (List.find?_eq_none.mp h x hx)
  | some y => rw [hunique y (List.mem_of_find?_eq_some h) (List.find?_some h)]

/-! ## 3. Lists without repetition -/

theorem nodup_snoc {α β : Type} {f : α → β} {l : List α} {x : α} (h : (l.map f).Nodup)
    (hx : ∀ y ∈ l, f y ≠ f x) : ((l ++ [x]).map f).Nodup := by
  rw [List.map_append, List.nodup_append]
  refine ⟨h, List.nodup_singleton _, fun a ha b hb => ?_⟩
  obtain ⟨y, hy, rfl⟩ := List.mem_map.mp ha
  rw [List.map_singleton, List.mem_singleton] at hb
  exact hb ▸ hx y hy

theorem eraseDups_nodup {α : Type} [BEq α] [LawfulBEq α] : ∀ l : List α, l.eraseDups.Nodup
  | [] => List.nodup_nil
  | x :: l => by
    rw [List.eraseDups_cons, List.nodup_cons]
    refine ⟨fun h => ?_, eraseDups_nodup _⟩
    have := (List.mem_filter.mp (List.mem_eraseDups.mp h)).2
    simp at this
termination_by l => l.length
decreasing_by exact Nat.lt_succ_of_le (List.length_filter_le _ _)

/-- Of a part of a list, counted without repetition, nothing is missing exactly if the numbers are
the same. -/
theorem length_dedup_eq_iff {α : Type} [DecidableEq α] {xs ys : List α} (hsub : xs ⊆ ys) :
    xs.dedup.length = ys.dedup.length ↔ ys ⊆ xs := by
  constructor
  · intro h y hy
    have hsub' : xs.dedup ⊆ ys.dedup := fun x hx =>
      List.mem_dedup.mpr (hsub (List.mem_dedup.mp hx))
    have hperm := (List.subperm_of_subset (List.nodup_dedup xs) hsub').perm_of_length_le h.ge
    exact List.mem_dedup.mp (hperm.mem_iff.mpr (List.mem_dedup.mpr hy))
  · intro h
    refine ((List.perm_ext_iff_of_nodup (List.nodup_dedup xs) (List.nodup_dedup ys)).mpr
      fun x => ?_).length_eq
    rw [List.mem_dedup, List.mem_dedup]
    exact ⟨fun hx => hsub hx, fun hx => h hx⟩

/-- The first element of each key, none of them `seen` before. -/
def keepFirst {α κ : Type} [DecidableEq κ] (key : α → κ) (seen : List κ) : List α → List α
  | [] => []
  | x :: xs =>
    if key x ∈ seen then keepFirst key seen xs else x :: keepFirst key (key x :: seen) xs

section KeepFirst

variable {α κ : Type} [DecidableEq κ] {key : α → κ}

theorem keepFirst_sublist (seen : List κ) : ∀ xs : List α, (keepFirst key seen xs).Sublist xs
  | [] => .slnil
  | x :: xs => by
    unfold keepFirst
    split
    · exact (keepFirst_sublist seen xs).cons x
    · exact (keepFirst_sublist _ xs).cons_cons x

theorem nodup_keepFirst : ∀ (seen : List κ) (xs : List α),
    ((keepFirst key seen xs).map key).Nodup ∧ ∀ x ∈ keepFirst key seen xs, key x ∉ seen
  | _, [] => ⟨List.nodup_nil, fun _ h => nomatch h⟩
  | seen, x :: xs => by
    unfold keepFirst
    split
    · exact nodup_keepFirst seen xs
    · rename_i hx
      obtain ⟨hnodup, hseen⟩ := nodup_keepFirst (key x :: seen) xs
      refine ⟨List.nodup_cons.mpr ⟨fun h => ?_, hnodup⟩, List.forall_mem_cons.mpr ⟨hx, fun y hy h =>
        hseen y hy (List.mem_cons_of_mem _ h)⟩⟩
      obtain ⟨y, hy, heq⟩ := List.mem_map.mp h
      exact hseen y hy (heq ▸ List.mem_cons_self)

/-- Each key is kept, unless it was seen. -/
theorem exists_keepFirst : ∀ {seen : List κ} {xs : List α} {x : α}, x ∈ xs → key x ∉ seen →
    ∃ y ∈ keepFirst key seen xs, key y = key x
  | seen, z :: xs, x, hx, hseen => by
    unfold keepFirst
    split
    · rename_i hz
      rcases List.mem_cons.mp hx with rfl | hx
      · exact absurd hz hseen
      · exact exists_keepFirst hx hseen
    · by_cases heq : key x = key z
      · exact ⟨z, List.mem_cons_self, heq.symm⟩
      · have hx : x ∈ xs := (List.mem_cons.mp hx).resolve_left fun h => heq (h ▸ rfl)
        have hz : key x ∉ key z :: seen := by simp [heq, hseen]
        obtain ⟨y, hy, hkey⟩ := exists_keepFirst hx hz
        exact ⟨y, List.mem_cons_of_mem z hy, hkey⟩

/-- What no earlier element shares its key with is kept. -/
theorem filter_keepFirst {p : α → Bool} : ∀ {seen : List κ} {xs : List α},
    (∀ x ∈ xs, p x = true → key x ∉ seen) →
      xs.Pairwise (fun x y => p y = true → key x ≠ key y) →
        (keepFirst key seen xs).filter p = xs.filter p
  | _, [], _, _ => rfl
  | seen, x :: xs, hseen, hpair => by
    obtain ⟨hx, hpair⟩ := List.pairwise_cons.mp hpair
    have hrest := fun y hy => hseen y (List.mem_cons_of_mem x hy)
    unfold keepFirst
    split
    · rename_i hin
      rw [List.filter_cons_of_neg fun hp => hseen x List.mem_cons_self hp hin]
      exact filter_keepFirst hrest hpair
    · have hrest' : ∀ y ∈ xs, p y = true → key y ∉ key x :: seen := fun y hy hp h =>
        (List.mem_cons.mp h).elim (fun h => hx y hy hp h.symm) (hrest y hy hp)
      rw [List.filter_cons, List.filter_cons, filter_keepFirst hrest' hpair]

end KeepFirst

/-- The elements up to the first with `p`, that one included. -/
def untilFirst {α : Type} (p : α → Bool) : List α → List α
  | [] => []
  | x :: xs => if p x then [x] else x :: untilFirst p xs

section UntilFirst

variable {α : Type} {p : α → Bool}

/-- Nothing is cut off exactly if no element but the last has `p`. -/
theorem untilFirst_eq_self_iff : ∀ {xs : List α},
    untilFirst p xs = xs ↔ ∀ x ∈ xs.dropLast, p x = false
  | [] => by simp [untilFirst]
  | [x] => by simp [untilFirst]
  | x :: y :: xs => by
    have ih : untilFirst p (y :: xs) = y :: xs ↔ ∀ z ∈ (y :: xs).dropLast, p z = false :=
      untilFirst_eq_self_iff
    rw [List.dropLast_cons_cons, List.forall_mem_cons, ← ih, untilFirst]
    cases p x <;> simp

theorem untilFirst_false : ∀ xs : List α, untilFirst (fun _ => false) xs = xs :=
  fun _ => untilFirst_eq_self_iff.mpr fun _ _ => rfl

end UntilFirst

/-! ## 4. Related lists -/

/-- Every element has its counterpart. -/
theorem exists_related_right {α β : Type} {R : α → β → Prop} {l : List α} {l' : List β}
    (h : List.Forall₂ R l l') {x : α} (hx : x ∈ l) : ∃ y ∈ l', R x y := by
  induction h with
  | nil => cases hx
  | @cons a b _ _ hab _ ih =>
    rcases List.mem_cons.mp hx with rfl | hx
    · exact ⟨b, List.mem_cons_self, hab⟩
    · obtain ⟨y, hy, hxy⟩ := ih hx
      exact ⟨y, List.mem_cons_of_mem b hy, hxy⟩

theorem exists_related_left {α β : Type} {R : α → β → Prop} {l : List α} {l' : List β}
    (h : List.Forall₂ R l l') {y : β} (hy : y ∈ l') : ∃ x ∈ l, R x y :=
  exists_related_right (List.Forall₂.flip h) hy

theorem map_eq_map_of_forall₂ {α β γ : Type} {R : α → γ → Prop} {g : γ → β} {h : α → β}
    {xs : List α} {ys : List γ} (hR : List.Forall₂ R xs ys) (hgh : ∀ x y, R x y → g y = h x) :
    ys.map g = xs.map h := by
  induction hR with
  | nil => rfl
  | cons hxy _ ih => rw [List.map_cons, List.map_cons, hgh _ _ hxy, ih]

theorem forall₂_trans {α β γ : Type} {R : α → β → Prop} {S : β → γ → Prop} {T : α → γ → Prop}
    (hT : ∀ x y z, R x y → S y z → T x z) : ∀ {xs : List α} {ys : List β} {zs : List γ},
      List.Forall₂ R xs ys → List.Forall₂ S ys zs → List.Forall₂ T xs zs
  | _, _, _, .nil, .nil => .nil
  | _, _, _, .cons h hs, .cons h' hs' => .cons (hT _ _ _ h h') (forall₂_trans hT hs hs')

theorem forall₂_imp_mem {α β : Type} {R S : α → β → Prop} {xs : List α} {ys : List β}
    (h : List.Forall₂ R xs ys) (hRS : ∀ x y, x ∈ xs → y ∈ ys → R x y → S x y) :
    List.Forall₂ S xs ys := by
  rw [List.forall₂_iff_zip] at h ⊢
  refine ⟨h.1, fun {x y} hxy => hRS x y ?_ ?_ (h.2 hxy)⟩
  · exact (List.of_mem_zip hxy).1
  · exact (List.of_mem_zip hxy).2

theorem exists_forall₂_iff {α β : Type} {R : α → β → Prop} {xs : List α} :
    (∃ ys, List.Forall₂ R xs ys) ↔ ∀ x ∈ xs, ∃ y, R x y := by
  induction xs with
  | nil => simp
  | cons x xs ih =>
    rw [List.forall_mem_cons, ← ih]
    constructor
    · rintro ⟨_, h⟩
      cases h with
      | cons hxy hrest => exact ⟨⟨_, hxy⟩, _, hrest⟩
    · rintro ⟨⟨y, hxy⟩, ys, hrest⟩
      exact ⟨y :: ys, .cons hxy hrest⟩

theorem forall₂_and {α β : Type} {R S : α → β → Prop} {xs : List α} {ys : List β}
    (hR : List.Forall₂ R xs ys) (hS : List.Forall₂ S xs ys) :
    List.Forall₂ (fun x y => R x y ∧ S x y) xs ys := by
  induction hR with
  | nil => exact .nil
  | cons hxy _ ih =>
    cases hS with
    | cons hxy' hrest => exact .cons ⟨hxy, hxy'⟩ (ih hrest)

/-- A loop that may raise, and did not: it has a result for every element. -/
theorem mapM_eq_ok_iff {α β ε : Type} {f : α → Except ε β} {xs : List α} {ys : List β} :
    xs.mapM f = .ok ys ↔ List.Forall₂ (fun x y => f x = .ok y) xs ys := by
  induction xs generalizing ys with
  | nil =>
    constructor
    · rintro ⟨⟩
      exact .nil
    · rintro ⟨⟩
      rfl
  | cons x xs ih =>
    rw [List.mapM_cons]
    constructor
    · intro h
      cases hx : f x with
      | error e =>
        rw [hx] at h
        cases h
      | ok y =>
        rw [hx] at h
        cases hrest : xs.mapM f with
        | error e =>
          rw [hrest] at h
          cases h
        | ok ys' =>
          rw [hrest] at h
          cases h
          exact .cons hx (ih.mp hrest)
    · rintro (_ | ⟨hx, hrest⟩)
      rw [hx, ih.mpr hrest]
      rfl

end NewlifeCore
