import Mathlib.Data.List.Nodup
import Mathlib.Data.List.Perm.Basic
import Mathlib.Data.List.Perm.Subperm

/-!
# Forests stored as rows with parent keys

A list of rows with distinct keys, some of which name the key of another row as their parent.
Which rewrites keep every chain of parents ending at a root, what deleting a row takes with it,
and the trees grown from the roots: they show each row whose chain ends, once, under its parent.
-/

namespace NewlifeCore.Forest

variable {α ι : Type} (key : α → ι) (up : α → Option ι)

/-! ## 1. Chains -/

/-- **Following parents among the rows ends** at a row without one. -/
inductive Rooted (rows : List α) : α → Prop
  | root {r : α} : up r = none → Rooted rows r
  | step {r p : α} : up r = some (key p) → p ∈ rows → Rooted rows p → Rooted rows r

/-- Following parents from the row, itself included, meets the key. -/
inductive Below (rows : List α) (k : ι) : α → Prop
  | self {r : α} : key r = k → Below rows k r
  | step {r p : α} : up r = some (key p) → p ∈ rows → Below rows k p → Below rows k r

variable {key up} {rows rows' : List α} {k : ι} {f : α → α} {r : α}

theorem Rooted.mono (h : Rooted key up rows r) (hsub : rows ⊆ rows') : Rooted key up rows' r := by
  induction h with
  | root hr => exact .root hr
  | step hr hp _ ih => exact .step hr (hsub hp) ih

/-- A chain that stays away from the rewritten key is what it was. -/
theorem Rooted.away (hkey : ∀ r, key (f r) = key r) (hsame : ∀ r, key r ≠ k → up (f r) = up r)
    (h : Rooted key up rows r) (haway : ¬ Below key up rows k r) :
    Rooted key up (rows.map f) (f r) := by
  induction h with
  | root hr => exact .root ((hsame _ fun hk => haway (.self hk)).trans hr)
  | @step r p hr hp _ ih =>
    have hup : up (f r) = some (key (f p)) := by
      rw [hsame r fun hk => haway (.self hk), hr, hkey]
    exact .step hup (List.mem_map_of_mem hp) (ih fun hb => haway (.step hr hp hb))

/-- **Giving the row of a key another parent** keeps every chain ending, when that parent is not
below it. -/
theorem Rooted.reparent (hkey : ∀ r, key (f r) = key r)
    (hsame : ∀ r, key r ≠ k → up (f r) = up r) (h : ∀ r ∈ rows, Rooted key up rows r)
    (hup : ∀ r ∈ rows, key r = k → ∀ j, up (f r) = some j →
      ∃ p ∈ rows, key p = j ∧ ¬ Below key up rows k p) :
    ∀ r ∈ rows.map f, Rooted key up (rows.map f) r := by
  have hmoved : ∀ r ∈ rows, key r = k → Rooted key up (rows.map f) (f r) := by
    intro r hr hk
    cases hj : up (f r) with
    | none => exact .root hj
    | some j =>
      obtain ⟨p, hp, rfl, haway⟩ := hup r hr hk j hj
      exact .step (hj.trans (congrArg some (hkey p).symm)) (List.mem_map_of_mem hp)
        ((h p hp).away hkey hsame haway)
  have hall : ∀ r, Rooted key up rows r → r ∈ rows → Rooted key up (rows.map f) (f r) := by
    intro r hr
    induction hr with
    | @root r hnone =>
      intro hmem
      by_cases hk : key r = k
      · exact hmoved r hmem hk
      · exact .root ((hsame r hk).trans hnone)
    | @step r p hp hpmem _ ih =>
      intro hmem
      by_cases hk : key r = k
      · exact hmoved r hmem hk
      · exact .step ((hsame r hk).trans (hp.trans (congrArg some (hkey p).symm)))
          (List.mem_map_of_mem hpmem) (ih hpmem)
  intro r' hr'
  obtain ⟨r, hr, rfl⟩ := List.mem_map.mp hr'
  exact hall r (h r hr) hr

/-- A new row under one of the others, or under none. -/
theorem Rooted.insert (h : ∀ r ∈ rows, Rooted key up rows r)
    (hup : ∀ j, up r = some j → ∃ p ∈ rows, key p = j) :
    ∀ r' ∈ rows ++ [r], Rooted key up (rows ++ [r]) r' := by
  intro r' hr'
  rcases List.mem_append.mp hr' with hr' | hr'
  · exact (h r' hr').mono (List.subset_append_left _ _)
  · rw [List.mem_singleton.mp hr']
    cases hj : up r with
    | none => exact .root hj
    | some j =>
      obtain ⟨p, hp, rfl⟩ := hup j hj
      exact .step hj (List.mem_append_left _ hp) ((h p hp).mono (List.subset_append_left _ _))

/-! ## 2. Deletion -/

/-- Every parent is there. -/
def Closed (key : α → ι) (up : α → Option ι) (rows : List α) : Prop :=
  ∀ r ∈ rows, ∀ j, up r = some j → ∃ p ∈ rows, key p = j

/-- Rows that keep their parents keep their chains. -/
theorem Rooted.closed (hkeys : (rows.map key).Nodup) (hsub : rows' ⊆ rows)
    (hclosed : Closed key up rows') (h : Rooted key up rows r) :
    r ∈ rows' → Rooted key up rows' r := by
  induction h with
  | root hr => exact fun _ => .root hr
  | @step r p hr hp _ ih =>
    intro hmem
    obtain ⟨q, hq, hqp⟩ := hclosed r hmem _ hr
    obtain rfl : q = p := List.inj_on_of_nodup_map hkeys (hsub hq) hp hqp
    exact .step hr hq (ih hq)

variable [DecidableEq ι]

/-- The rows whose parent is there. -/
def kept (key : α → ι) (up : α → Option ι) (rows : List α) : List α :=
  rows.filter fun r => (up r).all fun j => rows.any fun p => key p = j

/-- `ON DELETE CASCADE`, so many rounds of it: a row whose parent is gone goes too. -/
def cascade (key : α → ι) (up : α → Option ι) : Nat → List α → List α
  | 0, rows => rows
  | n + 1, rows => cascade key up n (kept key up rows)

theorem mem_kept : r ∈ kept key up rows ↔
    r ∈ rows ∧ ∀ j, up r = some j → ∃ p ∈ rows, key p = j := by
  unfold kept
  rw [List.mem_filter]
  cases up r <;> simp

theorem cascade_sublist : ∀ (n : Nat) (rows : List α), (cascade key up n rows).Sublist rows
  | 0, _ => List.Sublist.refl _
  | n + 1, _ => (cascade_sublist n _).trans List.filter_sublist

/-- Nothing more goes from rows that keep their parents. -/
theorem cascade_of_closed (h : Closed key up rows) : ∀ n, cascade key up n rows = rows
  | 0 => rfl
  | n + 1 => by
    have hkept : kept key up rows = rows :=
      List.filter_eq_self.mpr fun r hr => (List.mem_filter.mp (mem_kept.mpr ⟨hr, h r hr⟩)).2
    unfold cascade
    rw [hkept, cascade_of_closed h n]

/-- **As many rounds as there are rows are enough.** -/
theorem cascade_closed : ∀ (n : Nat) (rows : List α), rows.length ≤ n →
    Closed key up (cascade key up n rows)
  | 0, rows, h => by
    intro r hr
    rw [cascade, List.eq_nil_of_length_eq_zero (Nat.le_zero.mp h)] at hr
    cases hr
  | n + 1, rows, h => by
    by_cases hclosed : Closed key up rows
    · rw [cascade_of_closed hclosed]
      exact hclosed
    · refine cascade_closed n _ (Nat.le_of_lt_succ (Nat.lt_of_lt_of_le ?_ h))
      refine Nat.lt_of_le_of_ne (List.length_filter_le _ _) fun heq => hclosed fun r hr => ?_
      have hall := List.length_filter_eq_length_iff.mp heq
      exact (mem_kept.mp (List.mem_filter.mpr ⟨hr, hall r hr⟩)).2

/-- The root of a chain that stays is a row that stays. -/
theorem Rooted.cascade (hkeys : (rows.map key).Nodup) (h : ∀ r ∈ rows, Rooted key up rows r)
    (hsub : rows'.Sublist rows) : ∀ r ∈ Forest.cascade key up rows'.length rows',
      Rooted key up (Forest.cascade key up rows'.length rows') r := by
  intro r hr
  have hsub' : (Forest.cascade key up rows'.length rows').Sublist rows :=
    (cascade_sublist _ _).trans hsub
  exact (h r (hsub'.subset hr)).closed hkeys hsub'.subset (cascade_closed _ _ (Nat.le_refl _)) hr

/-! ## 3. Trees -/

/-- Rows hanging under rows. -/
inductive Tree (α : Type)
  | node (a : α) (children : List (Tree α))

/-- The tree below a row, so many levels of it. -/
def grow (children : α → List α) : Nat → α → Tree α
  | 0, a => .node a []
  | n + 1, a => .node a ((children a).map (grow children n))

omit [DecidableEq ι] in
variable (key) in
mutual

/-- The rows of a tree, each with the key of the row it hangs under. -/
def Tree.entries (above : Option ι) : Tree α → List (Option ι × α)
  | .node a children => (above, a) :: entriesOf (some (key a)) children

/-- The rows of a list of trees hanging under one row. -/
def entriesOf (above : Option ι) : List (Tree α) → List (Option ι × α)
  | [] => []
  | t :: ts => t.entries above ++ entriesOf above ts

end

omit [DecidableEq ι]

theorem entriesOf_eq (above : Option ι) : ∀ ts : List (Tree α),
    entriesOf key above ts = ts.flatMap (Tree.entries key above)
  | [] => rfl
  | t :: ts => by rw [entriesOf, List.flatMap_cons, entriesOf_eq above ts]

/-- The rows at each of so many levels below some rows. -/
def layers (children : α → List α) : Nat → List α → List α
  | 0, rows => rows
  | n + 1, rows => rows ++ layers children n (rows.flatMap children)

/-- **Level by level, the trees hold the rows below their roots**, each under its parent. -/
theorem perm_entries_layers {children : α → List α}
    (hchildren : ∀ a, ∀ c ∈ children a, up c = some (key a)) : ∀ (n : Nat) (roots : List α),
    (roots.flatMap fun a => (grow children n a).entries key (up a)).Perm
      ((layers children n roots).map fun r => (up r, r))
  | 0, roots => by
    have hleaf : ∀ a, (grow children 0 a).entries key (up a) = [(up a, a)] := fun a => by
      simp [grow, Tree.entries, entriesOf]
    simp only [hleaf, layers]
    rw [← List.map_eq_flatMap]
  | n + 1, roots => by
    have hnode : ∀ a, (grow children (n + 1) a).entries key (up a) =
        (up a, a) :: (children a).flatMap fun c => (grow children n c).entries key (up c) := by
      intro a
      rw [grow, Tree.entries, entriesOf_eq, List.flatMap_map]
      exact congrArg _ (List.flatMap_congr fun c hc => by rw [hchildren a c hc])
    simp only [hnode]
    refine (List.map_append_flatMap_perm _ _ _).symm.trans ?_
    rw [layers, List.map_append, ← List.flatMap_assoc]
    exact (perm_entries_layers hchildren n _).append_left _

/-- So many steps below a root. -/
def AtDepth (key : α → ι) (up : α → Option ι) (rows : List α) : Nat → α → Prop
  | 0, r => up r = none
  | d + 1, r => ∃ p ∈ rows, up r = some (key p) ∧ AtDepth key up rows d p

theorem Rooted.atDepth (h : Rooted key up rows r) : ∃ d, AtDepth key up rows d r := by
  induction h with
  | root hr => exact ⟨0, hr⟩
  | step hr hp _ ih =>
    obtain ⟨d, hd⟩ := ih
    exact ⟨d + 1, _, hp, hr, hd⟩

/-- A row has one depth. -/
theorem AtDepth.unique (hkeys : (rows.map key).Nodup) : ∀ {d e : Nat} {r : α},
    AtDepth key up rows d r → AtDepth key up rows e r → d = e
  | 0, 0, _, _, _ => rfl
  | 0, e + 1, r, hd, ⟨p, _, hp, _⟩ => by
    rw [hd] at hp
    cases hp
  | d + 1, 0, r, ⟨p, _, hp, _⟩, he => by
    rw [he] at hp
    cases hp
  | d + 1, e + 1, r, ⟨p, hp, hup, hd⟩, ⟨q, hq, huq, he⟩ => by
    have hkey : key p = key q := Option.some.inj (hup.symm.trans huq)
    obtain rfl := List.inj_on_of_nodup_map hkeys hp hq hkey
    exact congrArg Nat.succ (hd.unique hkeys he)

/-- **A chain does not repeat a row**, so it is no longer than the list. -/
theorem AtDepth.lt_length (hkeys : (rows.map key).Nodup) {d : Nat} (hr : r ∈ rows)
    (h : AtDepth key up rows d r) : d < rows.length := by
  have hchain : ∀ d r, r ∈ rows → AtDepth key up rows d r →
      ∃ l : List α, l.Nodup ∧ l ⊆ rows ∧ l.length = d + 1 ∧
        ∀ x ∈ l, ∃ e ≤ d, AtDepth key up rows e x := by
    intro d
    induction d with
    | zero =>
      intro r hr hd
      refine ⟨[r], List.nodup_singleton r, by simpa using hr, rfl, fun x hx => ⟨0, Nat.le_refl 0, ?_⟩⟩
      exact (List.mem_singleton.mp hx) ▸ hd
    | succ d ih =>
      intro r hr hd
      obtain ⟨p, hp, hup, hpd⟩ := hd
      obtain ⟨l, hnodup, hsub, hlength, hdepth⟩ := ih p hp hpd
      refine ⟨r :: l, List.nodup_cons.mpr ⟨fun hmem => ?_, hnodup⟩,
        List.cons_subset.mpr ⟨hr, hsub⟩, by simp [hlength], fun x hx => ?_⟩
      · -- `r` is deeper than every row of its parent's chain
        obtain ⟨e, he, hre⟩ := hdepth r hmem
        have := hre.unique hkeys (show AtDepth key up rows (d + 1) r from ⟨p, hp, hup, hpd⟩)
        omega
      · rcases List.mem_cons.mp hx with rfl | hx
        · exact ⟨d + 1, Nat.le_refl _, p, hp, hup, hpd⟩
        · obtain ⟨e, he, hxe⟩ := hdepth x hx
          exact ⟨e, Nat.le_succ_of_le he, hxe⟩
  obtain ⟨l, hnodup, hsub, hlength, -⟩ := hchain d r hr h
  have := (List.subperm_of_subset hnodup hsub).length_le
  omega

/-- The layers below the rows of one depth are the rows of the depths from there on, once each. -/
theorem layers_spec {children : α → List α} (hkeys : (rows.map key).Nodup)
    (hchildren : ∀ a, (children a).Nodup ∧ ∀ c, c ∈ children a ↔ c ∈ rows ∧ up c = some (key a)) :
    ∀ (n d : Nat) (l : List α), l.Nodup →
      (∀ r, r ∈ l ↔ r ∈ rows ∧ AtDepth key up rows d r) →
      (layers children n l).Nodup ∧ ∀ r, r ∈ layers children n l ↔
        r ∈ rows ∧ ∃ e, d ≤ e ∧ e ≤ d + n ∧ AtDepth key up rows e r
  | 0, d, l, hnodup, hmem => by
    refine ⟨hnodup, fun r => (hmem r).trans (and_congr_right fun _ => ?_)⟩
    constructor
    · exact fun h => ⟨d, Nat.le_refl d, Nat.le_refl d, h⟩
    · rintro ⟨e, hle, hge, he⟩
      obtain rfl := Nat.le_antisymm hle hge
      exact he
  | n + 1, d, l, hnodup, hmem => by
    have hnext : (l.flatMap children).Nodup := by
      refine List.nodup_flatMap.mpr ⟨fun a _ => (hchildren a).1, ?_⟩
      refine hnodup.imp_of_mem fun {a b} ha hb hab c hca hcb => hab ?_
      have hkey := ((hchildren a).2 c).mp hca |>.2.symm.trans (((hchildren b).2 c).mp hcb).2
      exact List.inj_on_of_nodup_map hkeys ((hmem a).mp ha).1 ((hmem b).mp hb).1
        (Option.some.inj hkey)
    have hnextMem : ∀ r, r ∈ l.flatMap children ↔ r ∈ rows ∧ AtDepth key up rows (d + 1) r := by
      intro r
      rw [List.mem_flatMap]
      constructor
      · rintro ⟨a, ha, hra⟩
        obtain ⟨hr, hup⟩ := ((hchildren a).2 r).mp hra
        exact ⟨hr, a, ((hmem a).mp ha).1, hup, ((hmem a).mp ha).2⟩
      · rintro ⟨hr, p, hp, hup, hd⟩
        exact ⟨p, (hmem p).mpr ⟨hp, hd⟩, ((hchildren p).2 r).mpr ⟨hr, hup⟩⟩
    obtain ⟨hrest, hrestMem⟩ := layers_spec hkeys hchildren n (d + 1) _ hnext hnextMem
    refine ⟨List.nodup_append.mpr ⟨hnodup, hrest, ?_⟩, fun r => ?_⟩
    · rintro a ha b hb rfl
      obtain ⟨-, e, hle, -, he⟩ := (hrestMem a).mp hb
      have := ((hmem a).mp ha).2.unique hkeys he
      omega
    · rw [layers, List.mem_append, hmem, hrestMem, ← and_or_left]
      refine and_congr_right fun _ => ?_
      constructor
      · rintro (h | ⟨e, hle, hge, he⟩)
        · exact ⟨d, Nat.le_refl d, by omega, h⟩
        · exact ⟨e, by omega, by omega, he⟩
      · rintro ⟨e, hle, hge, he⟩
        by_cases hde : e = d
        · exact .inl (hde ▸ he)
        · exact .inr ⟨e, by omega, by omega, he⟩

/-- **Trees grown from the roots show every row once, under its parent**, when every chain ends. -/
theorem perm_entries {children : α → List α} {roots : List α} {n : Nat}
    (hkeys : (rows.map key).Nodup) (hall : ∀ r ∈ rows, Rooted key up rows r)
    (hchildren : ∀ a, (children a).Nodup ∧ ∀ c, c ∈ children a ↔ c ∈ rows ∧ up c = some (key a))
    (hroots : roots.Nodup ∧ ∀ r, r ∈ roots ↔ r ∈ rows ∧ up r = none)
    (hn : rows.length ≤ n + 1) :
    (roots.flatMap fun a => (grow children n a).entries key none).Perm
      (rows.map fun r => (up r, r)) := by
  have hup : (roots.flatMap fun a => (grow children n a).entries key none) =
      roots.flatMap fun a => (grow children n a).entries key (up a) :=
    List.flatMap_congr fun a ha => by rw [((hroots.2 a).mp ha).2]
  rw [hup]
  refine (perm_entries_layers (fun a c hc => (((hchildren a).2 c).mp hc).2) n roots).trans ?_
  obtain ⟨hnodup, hmem⟩ := layers_spec hkeys hchildren n 0 roots hroots.1 hroots.2
  refine List.Perm.map _ ((List.perm_ext_iff_of_nodup hnodup (List.Nodup.of_map key hkeys)).mpr
    fun r => (hmem r).trans ⟨And.left, fun hr => ⟨hr, ?_⟩⟩)
  obtain ⟨d, hd⟩ := (hall r hr).atDepth
  have := hd.lt_length hkeys hr
  exact ⟨d, Nat.zero_le d, by omega, hd⟩

/-! ## 4. What rows hang under -/

section Above

variable (key up)

/-- Following parents from the row's parent meets the key. -/
def Above (rows : List α) (k : ι) (r : α) : Prop :=
  ∃ p ∈ rows, up r = some (key p) ∧ Below key up rows k p

/-- Some rows with the rows right above them. -/
def OneUp (rows : List α) (G : α → Prop) (r : α) : Prop :=
  G r ∨ ∃ g ∈ rows, G g ∧ up g = some (key r)

/-- Some rows with all the rows above them. -/
def AllUp (rows : List α) (R : α → Prop) (r : α) : Prop :=
  ∃ s ∈ rows, R s ∧ Below key up rows (key r) s

variable {key up} {G R shown : α → Prop} {g a : α}

theorem Below.above (h : Below key up rows k r) : key r = k ∨ Above key up rows k r := by
  cases h with
  | self hk => exact .inl hk
  | step hr hp hb => exact .inr ⟨_, hp, hr, hb⟩

theorem Above.below (h : Above key up rows k r) : Below key up rows k r := by
  obtain ⟨p, hp, hr, hb⟩ := h
  exact .step hr hp hb

/-- Whatever is below a row is below the row's parent. -/
theorem Below.parent (hkeys : (rows.map key).Nodup) (hg : g ∈ rows) (ha : a ∈ rows)
    (hup : up g = some (key a)) (h : Below key up rows (key g) r) :
    r ∈ rows → Above key up rows (key a) r := by
  induction h with
  | @self r hk =>
    intro hr
    obtain rfl := List.inj_on_of_nodup_map hkeys hr hg hk
    exact ⟨a, ha, hup, .self rfl⟩
  | @step r p hr hp _ ih => exact fun _ => ⟨p, hp, hr, (ih hp).below⟩

/-- **Going up one level is going all the way up** exactly if nothing lies too high: for rows `R`
among the rows `G`, each row of `G` is to lie above one of `R`, and whatever lies above a row of `R`
is to be shown and, unless it is right above, to be in `G` or right above a row of it. -/
theorem oneUp_iff_allUp (hkeys : (rows.map key).Nodup) (hRG : ∀ r ∈ rows, R r → G r)
    (hshown : ∀ r ∈ rows, G r → shown r) :
    (∀ r ∈ rows, shown r ∧ OneUp key up rows G r ↔ AllUp key up rows R r) ↔
      (∀ g ∈ rows, G g → AllUp key up rows R g) ∧
      (∀ r ∈ rows, R r → ∀ a ∈ rows, Above key up rows (key a) r → shown a) ∧
      ∀ r ∈ rows, R r → ∀ a ∈ rows, Above key up rows (key a) r → up r ≠ some (key a) →
        OneUp key up rows G a := by
  constructor
  · intro h
    have habove : ∀ r ∈ rows, R r → ∀ a ∈ rows, Above key up rows (key a) r →
        shown a ∧ OneUp key up rows G a :=
      fun r hr hR a ha hab => (h a ha).mpr ⟨r, hr, hR, hab.below⟩
    exact ⟨fun g hg hG => (h g hg).mp ⟨hshown g hg hG, .inl hG⟩,
      fun r hr hR a ha hab => (habove r hr hR a ha hab).1,
      fun r hr hR a ha hab _ => (habove r hr hR a ha hab).2⟩
  · rintro ⟨hgranted, hvisible, hnear⟩ r hr
    constructor
    · rintro ⟨-, hG | ⟨g, hg, hG, hup⟩⟩
      · exact hgranted r hr hG
      · obtain ⟨s, hs, hR, hb⟩ := hgranted g hg hG
        exact ⟨s, hs, hR, (hb.parent hkeys hg hr hup hs).below⟩
    · rintro ⟨s, hs, hR, hb⟩
      rcases hb.above with hk | hab
      · obtain rfl := List.inj_on_of_nodup_map hkeys hs hr hk
        exact ⟨hshown s hs (hRG s hs hR), .inl (hRG s hs hR)⟩
      · refine ⟨hvisible s hs hR r hr hab, ?_⟩
        by_cases hup : up s = some (key r)
        · exact .inr ⟨s, hs, hRG s hs hR, hup⟩
        · exact hnear s hs hR r hr hab hup

end Above

end NewlifeCore.Forest
