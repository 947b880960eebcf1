import Mathlib.Data.List.Dedup
import Mathlib.Data.List.Perm.Basic

/-!
# Dicts of lists

A dict whose values are lists, filled by a loop: each row is added to the list under its key, which
starts empty.  The dict keeps its keys in the order they were first met.  What the loop leaves under
a key is what adding the rows of that key alone leaves.
-/

namespace NewlifeCore

/-- A dict of lists, in insertion order. -/
abbrev Groups (κ ν : Type) := List (κ × List ν)

namespace Groups

variable {κ ν ρ : Type} [DecidableEq κ]

/-! ## 1. One key -/

/-- The list under a key is changed; a new key comes last, with an empty list. -/
def alter (k : κ) (f : List ν → List ν) : Groups κ ν → Groups κ ν
  | [] => [(k, f [])]
  | (k', vs) :: groups => if k' = k then (k, f vs) :: groups else (k', vs) :: alter k f groups

/-- The list under a key; none is an empty one. -/
def valuesAt (k : κ) : Groups κ ν → List ν
  | [] => []
  | (k', vs) :: groups => if k' = k then vs else valuesAt k groups

def keys (groups : Groups κ ν) : List κ := groups.map Prod.fst

variable {k k' : κ} {f : List ν → List ν} {vs : List ν} {groups : Groups κ ν}

theorem valuesAt_alter_self : valuesAt k (alter k f groups) = f (valuesAt k groups) := by
  induction groups with
  | nil => simp [alter, valuesAt]
  | cons g groups ih =>
    by_cases hk : g.1 = k
    · simp [alter, valuesAt, hk]
    · simp [alter, valuesAt, hk, ih]

theorem valuesAt_alter_ne (hne : k' ≠ k) :
    valuesAt k' (alter k f groups) = valuesAt k' groups := by
  induction groups with
  | nil => simp [alter, valuesAt, hne.symm]
  | cons g groups ih =>
    by_cases hk : g.1 = k
    · simp [alter, valuesAt, hk, hne.symm]
    · by_cases hk' : g.1 = k'
      · simp [alter, valuesAt, hk', hne]
      · simp [alter, valuesAt, hk, hk', ih]

omit [DecidableEq κ] in
theorem keys_cons (g : κ × List ν) : keys (g :: groups) = g.1 :: keys groups := rfl

theorem keys_alter : keys (alter k f groups) =
    if k ∈ keys groups then keys groups else keys groups ++ [k] := by
  induction groups with
  | nil => simp [alter, keys]
  | cons g groups ih =>
    by_cases hk : g.1 = k
    · simp [alter, keys_cons, hk]
    · rw [alter, if_neg hk, keys_cons, keys_cons, ih]
      by_cases hin : k ∈ keys groups
      · rw [if_pos hin, if_pos (List.mem_cons_of_mem _ hin)]
      · rw [if_neg hin, if_neg (List.not_mem_cons_of_ne_of_not_mem (Ne.symm hk) hin),
          List.cons_append]

theorem nodup_keys_alter (h : (keys groups).Nodup) : (keys (alter k f groups)).Nodup := by
  rw [keys_alter]
  split
  · exact h
  · exact List.nodup_append.mpr ⟨h, List.nodup_singleton k, by
      rintro a ha b hb rfl
      exact ‹k ∉ keys groups› (List.mem_singleton.mp hb ▸ ha)⟩

/-- A group is what is found under its key. -/
theorem valuesAt_of_mem (hkeys : (keys groups).Nodup) (h : (k, vs) ∈ groups) :
    valuesAt k groups = vs := by
  induction groups with
  | nil => cases h
  | cons g groups ih =>
    obtain ⟨hfresh, hkeys⟩ := List.nodup_cons.mp hkeys
    rcases List.mem_cons.mp h with rfl | h
    · simp [valuesAt]
    · have hne : g.1 ≠ k := fun he => hfresh (he ▸ List.mem_map_of_mem h)
      rw [valuesAt, if_neg hne]
      exact ih hkeys h

theorem mem_of_mem_keys (h : k ∈ keys groups) : (k, valuesAt k groups) ∈ groups := by
  induction groups with
  | nil => cases h
  | cons g groups ih =>
    by_cases hk : g.1 = k
    · rw [valuesAt, if_pos hk, ← hk]
      exact List.mem_cons_self
    · rw [valuesAt, if_neg hk]
      exact List.mem_cons_of_mem g (ih ((List.mem_cons.mp h).resolve_left (Ne.symm hk)))

/-- What has values is a group. -/
theorem mem_of_mem_valuesAt {v : ν} (h : v ∈ valuesAt k groups) : (k, valuesAt k groups) ∈ groups := by
  refine mem_of_mem_keys (by_contra fun hno => ?_)
  have hnil : valuesAt k groups = [] := by
    clear h
    induction groups with
    | nil => rfl
    | cons g groups ih =>
      rw [keys_cons, List.mem_cons, not_or] at hno
      rw [valuesAt, if_neg (Ne.symm hno.1), ih hno.2]
  rw [hnil] at h
  cases h

/-! ## 2. The loop -/

variable (key : ρ → κ) (add : List ν → ρ → List ν)

/-- **The loop**: each row is added under its key. -/
def collect (rows : List ρ) (groups : Groups κ ν) : Groups κ ν :=
  rows.foldl (fun groups row => alter (key row) (fun vs => add vs row) groups) groups

variable {key add} {rows : List ρ}

/-- **Under a key is what its own rows add.** -/
theorem valuesAt_collect (k : κ) : valuesAt k (collect key add rows groups) =
    (rows.filter fun row => key row = k).foldl add (valuesAt k groups) := by
  induction rows generalizing groups with
  | nil => rfl
  | cons row rows ih =>
    show valuesAt k (collect key add rows (alter (key row) (fun vs => add vs row) groups)) = _
    rw [ih]
    by_cases hk : key row = k
    · rw [List.filter_cons, if_pos (decide_eq_true hk), List.foldl_cons, ← hk, valuesAt_alter_self]
    · rw [List.filter_cons, if_neg (by simpa using hk), valuesAt_alter_ne (Ne.symm hk)]

theorem nodup_keys_collect (h : (keys groups).Nodup) :
    (keys (collect key add rows groups)).Nodup := by
  induction rows generalizing groups with
  | nil => exact h
  | cons row rows ih => exact ih (nodup_keys_alter h)

theorem mem_keys_collect : k ∈ keys (collect key add rows groups) ↔
    k ∈ keys groups ∨ ∃ row ∈ rows, key row = k := by
  induction rows generalizing groups with
  | nil => simp [collect]
  | cons row rows ih =>
    have hkeys : k ∈ keys (alter (key row) (fun vs => add vs row) groups) ↔
        k ∈ keys groups ∨ key row = k := by
      rw [keys_alter]
      split
      · refine ⟨Or.inl, fun h => h.elim id fun he => he ▸ ‹key row ∈ keys groups›⟩
      · rw [List.mem_append, List.mem_singleton, eq_comm (a := k)]
    show k ∈ keys (collect key add rows (alter (key row) (fun vs => add vs row) groups)) ↔ _
    rw [ih, hkeys, or_assoc]
    refine or_congr_right ⟨?_, ?_⟩
    · rintro (h | ⟨r, hr, h⟩)
      · exact ⟨row, List.mem_cons_self, h⟩
      · exact ⟨r, List.mem_cons_of_mem row hr, h⟩
    · rintro ⟨r, hr, h⟩
      rcases List.mem_cons.mp hr with rfl | hr
      · exact .inl h
      · exact .inr ⟨r, hr, h⟩

/-! ## 3. Rows as they are, and each value once -/

/-- `append`, unless it is there. -/
def addNew {ν : Type} [DecidableEq ν] (vs : List ν) (v : ν) : List ν :=
  if v ∈ vs then vs else vs ++ [v]

theorem foldl_addNew {ν : Type} [DecidableEq ν] (val : ρ → ν) (rows : List ρ) {vs : List ν}
    (h : vs.Nodup) :
    (rows.foldl (fun vs row => addNew vs (val row)) vs).Nodup ∧
      ∀ v, v ∈ rows.foldl (fun vs row => addNew vs (val row)) vs ↔
        v ∈ vs ∨ ∃ row ∈ rows, val row = v := by
  induction rows generalizing vs with
  | nil => simpa using h
  | cons row rows ih =>
    have hnew : (addNew vs (val row)).Nodup := by
      unfold addNew
      split
      · exact h
      · exact List.nodup_append.mpr ⟨h, List.nodup_singleton _, by
          rintro a ha b hb rfl
          exact ‹val row ∉ vs› (List.mem_singleton.mp hb ▸ ha)⟩
    have hmem : ∀ v, v ∈ addNew vs (val row) ↔ v ∈ vs ∨ val row = v := by
      intro v
      unfold addNew
      split
      · refine ⟨Or.inl, fun h => h.elim id fun he => he ▸ ‹val row ∈ vs›⟩
      · rw [List.mem_append, List.mem_singleton, eq_comm (a := v)]
    refine ⟨(ih hnew).1, fun v => ?_⟩
    rw [List.foldl_cons, (ih hnew).2 v, hmem v]
    simp only [List.mem_cons, exists_eq_or_imp, or_assoc]

theorem foldl_append_eq {val : ρ → ν} {vs : List ν} :
    rows.foldl (fun vs row => vs ++ [val row]) vs = vs ++ rows.map val := by
  induction rows generalizing vs with
  | nil => simp
  | cons row rows ih =>
    rw [List.foldl_cons, ih, List.append_assoc, List.singleton_append, List.map_cons]

/-- Under a key are the rows that have it, in their order. -/
theorem valuesAt_collect_append {val : ρ → ν} (k : κ) :
    valuesAt k (collect key (fun vs row => vs ++ [val row]) rows []) =
      (rows.filter fun row => key row = k).map val := by
  rw [valuesAt_collect, foldl_append_eq, valuesAt, List.nil_append]

theorem perm_flatMap_alter (groups : List (κ × List ν)) (k : κ) (v : ν) :
    ((alter k (fun vs => vs ++ [v]) groups).flatMap Prod.snd).Perm
      (groups.flatMap Prod.snd ++ [v]) := by
  induction groups with
  | nil => simp [alter]
  | cons g groups ih =>
    by_cases hk : g.1 = k
    · rw [alter, if_pos hk, List.flatMap_cons, List.flatMap_cons, List.append_assoc,
        List.append_assoc]
      exact List.perm_append_comm.append_left g.2
    · rw [alter, if_neg hk, List.flatMap_cons, List.flatMap_cons, List.append_assoc]
      exact ih.append_left g.2

/-- **No row is lost and none is put down twice.** -/
theorem perm_flatMap_collect {val : ρ → ν} :
    ((collect key (fun vs row => vs ++ [val row]) rows groups).flatMap Prod.snd).Perm
      (groups.flatMap Prod.snd ++ rows.map val) := by
  induction rows generalizing groups with
  | nil => simp [collect]
  | cons row rows ih =>
    have hstep := (perm_flatMap_alter groups (key row) (val row)).append_right (rows.map val)
    rw [List.append_assoc, List.singleton_append] at hstep
    exact ih.trans hstep

/-! ## 4. One list by classes -/

/-- The rows of each of some classes, one class after the other, are the rows that are in one. -/
theorem perm_flatMap_filter (key : ρ → κ) (rows : List ρ) {classes : List κ} (h : classes.Nodup) :
    (classes.flatMap fun c => rows.filter fun row => key row = c).Perm
      (rows.filter fun row => key row ∈ classes) := by
  induction classes with
  | nil => simp
  | cons c classes ih =>
    obtain ⟨hc, hclasses⟩ := List.nodup_cons.mp h
    have hhead : (rows.filter fun row => key row ∈ c :: classes).filter (fun row => key row = c) =
        rows.filter fun row => key row = c := by
      rw [List.filter_filter]
      exact List.filter_congr fun row _ => by simp +contextual
    have htail : (rows.filter fun row => key row ∈ c :: classes).filter
        (fun row => !decide (key row = c)) = rows.filter fun row => key row ∈ classes := by
      rw [List.filter_filter]
      refine List.filter_congr fun row _ => ?_
      by_cases hk : key row = c
      · simp [hk, hc]
      · simp [hk]
    rw [List.flatMap_cons]
    refine ((ih hclasses).append_left _).trans ?_
    rw [← hhead, ← htail]
    exact List.filter_append_perm _ _

end Groups

end NewlifeCore
