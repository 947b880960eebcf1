import Mathlib.Data.List.Nodup
import Mathlib.Data.List.Pairwise

/-!
# Rows that must not clash

A list of rows with distinct keys, some of them live, and a symmetric relation that no two live
rows may stand in.  What an insert, a rewrite of one row and a removal have to check for this to
last.
-/

namespace NewlifeCore.Exclusive

variable {α ι : Type} (key : α → ι) (live : α → Bool) (clash : α → α → Prop)

/-- **No two live rows clash**, and the keys are distinct. -/
structure Apart (rows : List α) : Prop where
  nodup : (rows.map key).Nodup
  apart : rows.Pairwise fun a b => live a = true → live b = true → ¬ clash a b

variable {key live clash} {rows : List α} {f : α → α} {a b : α}

theorem Apart.nil : Apart key live clash [] := ⟨List.nodup_nil, List.Pairwise.nil⟩

/-- Two live rows of different keys do not clash. -/
theorem Apart.not_clash (hsymm : ∀ {a b}, clash a b → clash b a) (h : Apart key live clash rows)
    (ha : a ∈ rows) (hb : b ∈ rows) (hne : key a ≠ key b) (hla : live a = true)
    (hlb : live b = true) : ¬ clash a b := by
  have hab : a ≠ b := fun h => hne (congrArg key h)
  have : Std.Symm fun a b : α => live a = true → live b = true → ¬ clash a b :=
    ⟨fun _ _ hr hlb hla hc => hr hla hlb (hsymm hc)⟩
  exact h.apart.forall ha hb hab hla hlb

/-- A new row is apart from the live ones. -/
theorem Apart.insert (h : Apart key live clash rows) (hkey : ∀ r ∈ rows, key r ≠ key a)
    (hfree : live a = true → ∀ r ∈ rows, live r = true → ¬ clash r a) :
    Apart key live clash (rows ++ [a]) := by
  constructor
  · rw [List.map_append, List.nodup_append]
    refine ⟨h.nodup, List.nodup_singleton _, fun x hx y hy hxy => ?_⟩
    obtain ⟨r, hr, rfl⟩ := List.mem_map.mp hx
    rw [List.map_singleton, List.mem_singleton] at hy
    exact hkey r hr (hxy.trans hy)
  · rw [List.pairwise_append]
    refine ⟨h.apart, List.pairwise_singleton _ _, fun r hr b hb hlr hlb => ?_⟩
    rw [List.mem_singleton.mp hb] at hlb ⊢
    exact hfree hlb r hr hlr

/-- **Rewriting rows without changing their keys** asks of each live result that it is apart from
the other live results. -/
theorem Apart.rewrite (h : Apart key live clash rows) (hkey : ∀ r, key (f r) = key r)
    (hfree : ∀ r ∈ rows, ∀ r' ∈ rows, key r' ≠ key r → live (f r) = true → live (f r') = true →
      ¬ clash (f r) (f r')) : Apart key live clash (rows.map f) := by
  constructor
  · rw [List.map_map]
    refine (List.map_congr_left fun r _ => ?_).symm ▸ h.nodup
    exact hkey r
  · rw [List.pairwise_map]
    have hkeys : rows.Pairwise fun a b => key a ≠ key b := List.pairwise_map.mp h.nodup
    exact hkeys.imp_of_mem fun ha hb hne hla hlb => hfree _ ha _ hb hne.symm hla hlb

/-- **Rewriting one row**: the new one is apart from the other live rows. -/
theorem Apart.rewriteOne [DecidableEq ι] (hsymm : ∀ {a b}, clash a b → clash b a)
    (h : Apart key live clash rows) {k : ι} {p : α → Bool} (hp : ∀ r, p r = true → key r = k)
    (hkey : ∀ r, key (f r) = key r)
    (hfree : ∀ r ∈ rows, p r = true → live (f r) = true →
      ∀ r' ∈ rows, key r' ≠ k → live r' = true → ¬ clash r' (f r)) :
    Apart key live clash (rows.map fun r => if p r then f r else r) := by
  refine h.rewrite (fun r => ?_) fun r hr r' hr' hne hl hl' => ?_
  · split
    · exact hkey r
    · rfl
  · by_cases hpr : p r = true
    · have hpr' : ¬ p r' = true := fun hpr' => hne ((hp r' hpr').trans (hp r hpr).symm)
      rw [if_pos hpr] at hl ⊢
      rw [if_neg hpr'] at hl' ⊢
      have hk : key r' ≠ k := fun hk => hne (hk.trans (hp r hpr).symm)
      exact fun hc => hfree r hr hpr hl r' hr' hk hl' (hsymm hc)
    · rw [if_neg hpr] at hl ⊢
      by_cases hpr' : p r' = true
      · rw [if_pos hpr'] at hl' ⊢
        have hk : key r ≠ k := fun hk => hne ((hp r' hpr').trans hk.symm)
        exact hfree r' hr' hpr' hl' r hr hk hl
      · rw [if_neg hpr'] at hl' ⊢
        exact h.not_clash hsymm hr hr' (Ne.symm hne) hl hl'

/-- Rewriting one row leaves the keys alone. -/
theorem Apart.nodup_rewrite (h : Apart key live clash rows) {p : α → Bool}
    (hkey : ∀ r, key (f r) = key r) :
    ((rows.map fun r => if p r then f r else r).map key).Nodup := by
  rw [List.map_map]
  refine (List.map_congr_left fun r _ => ?_).symm ▸ h.nodup
  simp only [Function.comp_apply]
  split
  · exact hkey r
  · rfl

/-- **The condition of `rewriteOne` is exact.** -/
theorem Apart.rewriteOne_iff [DecidableEq ι] (hsymm : ∀ {a b}, clash a b → clash b a)
    (h : Apart key live clash rows) {k : ι} {p : α → Bool} (hp : ∀ r, p r = true ↔ key r = k)
    (hkey : ∀ r, key (f r) = key r) :
    ((rows.map fun r => if p r then f r else r).Pairwise fun a b =>
        live a = true → live b = true → ¬ clash a b) ↔
      ∀ r ∈ rows, key r = k → live (f r) = true →
        ∀ r' ∈ rows, key r' ≠ k → live r' = true → ¬ clash r' (f r) := by
  constructor
  · intro hpair r hr hk hl r' hr' hk' hl'
    have hapart : Apart key live clash (rows.map fun r => if p r then f r else r) :=
      ⟨h.nodup_rewrite hkey, hpair⟩
    have hmem : f r ∈ rows.map fun r => if p r then f r else r :=
      List.mem_map.mpr ⟨r, hr, if_pos ((hp r).mpr hk)⟩
    have hmem' : r' ∈ rows.map fun r => if p r then f r else r :=
      List.mem_map.mpr ⟨r', hr', if_neg fun h => hk' ((hp r').mp h)⟩
    refine hapart.not_clash hsymm hmem' hmem (fun heq => hk' ?_) hl' hl
    rw [heq, hkey, hk]
  · intro hfree
    exact (h.rewriteOne hsymm (fun r hr => (hp r).mp hr) hkey
      fun r hr hpr => hfree r hr ((hp r).mp hpr)).apart

/-- Rewriting rows into ones that are not live. -/
theorem Apart.retire [DecidableEq ι] (hsymm : ∀ {a b}, clash a b → clash b a)
    (h : Apart key live clash rows) {k : ι} {p : α → Bool} (hp : ∀ r, p r = true → key r = k)
    (hkey : ∀ r, key (f r) = key r) (hdead : ∀ r, live (f r) = false) :
    Apart key live clash (rows.map fun r => if p r then f r else r) := by
  refine h.rewriteOne hsymm hp hkey fun r _ _ hl => ?_
  rw [hdead r] at hl
  cases hl

theorem Apart.filter (h : Apart key live clash rows) (p : α → Bool) :
    Apart key live clash (rows.filter p) :=
  ⟨h.nodup.sublist (List.filter_sublist.map key), h.apart.sublist List.filter_sublist⟩

end NewlifeCore.Exclusive
