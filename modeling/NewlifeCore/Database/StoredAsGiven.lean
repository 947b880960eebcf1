import NewlifeCore.Database.Statements
import NewlifeCore.Lists

/-!
# Whether a write stores what it was given

A statement for one row passes every value through `validate`, which exchanges an empty one for a
default.  A statement for a list of rows passes none through, since its parameters have other names;
what it leaves out it takes from the defaults for the first row only.

* §1, one value: when a statement for one row keeps it (`writes_eq_iff`), and when one for a list
  does (`store_eq_iff`).
* §2 and §3, the parameters.  `validate` finds a column by the name of the parameter, so that a
  parameter of a list goes through unchecked (`written_multi`); no two parameters of a list have one
  name (`nodup_rows`), so that each is bound to its own value.
* §4 has what the kinds of rows share: a `Writer` says what is done with a given value and with a
  default to be filled in, and `Writer.sound_iff` when a row of that kind keeps its values.
* §6 is a statement for one row, §7 the first row of a list and the later ones, which differ in
  their defaults (`first_ok_iff`, `later_ok_iff`).
* §8 adds up: `list_keeps_iff` over the rows, and `write_faithful_iff` over all writes.  §9 has a
  list of roles that is stored as given, and a profile that is refused.
-/

namespace NewlifeCore.Database

variable {py : Python} {ctx : Context} {t : Table} {isUpdate : Bool} {c : Column} {v : Value}

/-! ## 1. One value -/

/-- What a column holds after a statement for one row. -/
def Column.writes (py : Python) (ctx : Context) (isUpdate : Bool) (c : Column) (v : Value) :
    Option Stored :=
  match c.check py ctx isUpdate v with
  | some ([], u) => c.store py u
  | _ => none

/-- An empty value is exchanged for one that is stored as it is. -/
def Column.KeepsEmpty (py : Python) (ctx : Context) (isUpdate : Bool) (c : Column) (v : Value) :
    Prop :=
  c.cannotBeEmpty = false ∧
    bind py c.type (execDefault ctx (c.onWrite isUpdate)) = bind py c.type v.plain

/-- Only `None` is stored as `NULL`. -/
theorem eq_none_of_bind_null {type : ColumnType} (h : bind py type v = some .null) : v = .none := by
  unfold bind at h
  split at h
  · rfl
  all_goals simp [storeNumeric, Option.map_eq_some_iff] at h

theorem plain_eq_none (h : v.plain = .none) : v = .none := by
  cases v with
  | enum mixed m => cases m <;> cases h
  | _ => exact h

theorem store_eq_bind_iff (h : c.Admits py v) (u : Value) :
    c.store py u = bind py c.type v.plain ↔ bind py c.type u = bind py c.type v.plain := by
  obtain ⟨s, hs⟩ := Option.isSome_iff_exists.mp h.fits
  rw [hs]
  constructor
  · exact store_eq_some
  · intro hu
    unfold Column.store
    refine Option.filter_eq_some_iff.mpr ⟨hu, ?_⟩
    by_cases hnull : s = .null
    · have hv : v = .none := plain_eq_none (eq_none_of_bind_null (hnull ▸ hs))
      simp [h.nullable hv]
    · simp [hnull]

/-- **A statement for one row keeps a value** unless it is empty, and then if its default does. -/
theorem writes_eq_iff (h : c.Admits py v) : c.writes py ctx isUpdate v = bind py c.type v.plain ↔
    (v.isEmpty = true → c.KeepsEmpty py ctx isUpdate v) := by
  cases hv : v.isEmpty with
  | false =>
    obtain ⟨u, hu, hbind⟩ := check_of_admits ctx isUpdate h hv
    refine iff_of_true ?_ nofun
    simp only [Column.writes, hu]
    exact (store_eq_bind_iff h u).mpr hbind
  | true =>
    simp only [forall_const, Column.writes, Column.check, hv, if_true, Column.KeepsEmpty]
    cases hc : c.cannotBeEmpty with
    | false => simpa using store_eq_bind_iff h _
    | true =>
      have hne : none ≠ bind py c.type v.plain := fun e => by simpa [← e] using h.fits
      simpa using hne

theorem bind_plainMember {type : ColumnType} (m : Member) :
    bind py type (.enum false m) = none := by
  cases type <;> cases m <;> rfl

theorem bind_mixed {type : ColumnType} {m : Member} (h : type.takes (.enum true m) = true) :
    bind py type (.enum true m) = bind py type m.value := by
  cases type <;> cases m <;>
    first
      | rfl
      | cases h

/-- **A statement for a list keeps a value** unless it is a member that is no `str` or `int`. -/
theorem store_eq_iff (h : c.Admits py v) :
    c.store py v = bind py c.type v.plain ↔ v.isPlainMember = false := by
  rw [store_eq_bind_iff h]
  cases v with
  | enum mixed m =>
    cases mixed with
    | true => exact iff_of_true (bind_mixed (h.takes nofun)) rfl
    | false =>
      refine iff_of_false (fun e => ?_) nofun
      have hfits := h.fits
      rw [← e, bind_plainMember] at hfits
      cases hfits
  | _ => exact iff_of_true rfl rfl

/-! ## 2. The parameter of a column -/

theorem find?_name {columns : List Column} (hnodup : (columns.map (·.name)).Nodup)
    (hc : c ∈ columns) : column? columns c.name = some c := by
  induction columns with
  | nil => cases hc
  | cons d columns ih =>
    obtain ⟨hd, hnodup⟩ := List.nodup_cons.mp hnodup
    rcases List.mem_cons.mp hc with rfl | htail
    · simp [column?]
    · have hne : d.name ≠ c.name := fun e => hd (List.mem_map.mpr ⟨c, htail, e.symm⟩)
      rw [column?, List.find?_cons_of_neg (by simpa using hne)]
      exact ih hnodup htail

theorem Table.find?_multi (t : Table) (hc : c ∈ t.columns) (i : Nat) :
    column? t.columns (multiName c.name i) = none := by
  refine List.find?_eq_none.mpr fun d hd => ?_
  simpa using t.name_ne d hd c hc i

/-- A parameter with the name of its column goes through `validate`. -/
theorem written_own (hc : c ∈ t.columns) :
    Slot.written py ctx isUpdate t.columns ⟨c, c.name, v⟩ =
      (c.writes py ctx isUpdate v).map fun s => (c.name, s) := by
  simp only [Slot.written, Slot.bound?, checkParam, find?_name t.nodup hc, Column.writes]
  cases c.check py ctx isUpdate v with
  | none => rfl
  | some r =>
    obtain ⟨errors, u⟩ := r
    cases errors <;> rfl

/-- A parameter of a list is bound as it was given. -/
theorem written_multi (hc : c ∈ t.columns) (i : Nat) :
    Slot.written py ctx isUpdate t.columns ⟨c, multiName c.name i, v⟩ =
      (c.store py v).map fun s => (c.name, s) := by
  simp only [Slot.written, Slot.bound?, checkParam, t.find?_multi hc, Option.bind_some]

/-! ## 3. The names of the parameters -/

theorem multiName_inj {m n : String} {i j : Nat} (h : multiName m i = multiName n j) :
    m = n ∧ i = j := by
  have hrev := congrArg (fun s : String => s.toList.reverse) h
  have hm : ∀ k : Nat, 'm' ∉ (toString k).toList.reverse := fun k hk => by
    have := Text.natToString_digits (List.mem_reverse.mp hk)
    revert this
    decide
  have hparts : ∀ (a : String) (k : Nat), (multiName a k).toList.reverse =
      (toString k).toList.reverse ++ 'm' :: '_' :: a.toList.reverse := fun a k => by
    simp [multiName, String.toList_append]
  simp only [hparts] at hrev
  obtain ⟨hdigits, hnames⟩ := Text.append_cons_inj (hm i) (hm j) hrev
  constructor
  · exact String.toList_injective (List.reverse_injective (List.cons.inj hnames).2)
  · exact Text.natToString_injective (String.toList_injective (List.reverse_injective hdigits))

theorem nodup_params {columns : List Column} {f : Column → Option Slot}
    (hnodup : (columns.map (·.name)).Nodup)
    (h : ∀ c ∈ columns, ∀ d ∈ columns, ∀ s s', f c = some s → f d = some s' →
      s.param = s'.param → c.name = d.name) :
    ((columns.filterMap f).map (·.param)).Nodup := by
  induction columns with
  | nil => exact .nil
  | cons c columns ih =>
    obtain ⟨hc, hnodup⟩ := List.nodup_cons.mp hnodup
    have hrest := ih hnodup fun d hd e he => h d (.tail _ hd) e (.tail _ he)
    cases hf : f c with
    | none => rwa [List.filterMap_cons_none hf]
    | some s =>
      rw [List.filterMap_cons_some hf, List.map_cons, List.nodup_cons]
      refine ⟨fun hs => ?_, hrest⟩
      obtain ⟨s', hs', hparam⟩ := List.mem_map.mp hs
      obtain ⟨d, hd, hfd⟩ := List.mem_filterMap.mp hs'
      have hname := h c (.head _) d (.tail _ hd) s s' hf hfd hparam.symm
      exact hc (List.mem_map.mpr ⟨d, hd, hname.symm⟩)

theorem slot?_param {onWrite : Option Default} {given prefetched : String} {row : Row} {s : Slot}
    (h : c.slot? onWrite given prefetched row = some s) :
    s.param = given ∨ s.param = prefetched := by
  unfold Column.slot? at h
  split at h
  · cases h; exact .inl rfl
  · split at h
    · cases h; exact .inr rfl
    · cases h

theorem nodup_single (t : Table) (onWrite : Column → Option Default) (row : Row) :
    (([t.columns.filterMap fun c => c.slot? (onWrite c) c.name c.name row].flatten).map
      (·.param)).Nodup := by
  rw [List.flatten_singleton]
  refine nodup_params t.nodup fun c _ d _ s s' hs hs' hparam => ?_
  rw [← (slot?_param hs).elim id id, hparam, (slot?_param hs').elim id id]

theorem mem_params {columns : List Column} {onWrite : Column → Option Default}
    {given prefetched : Column → String} {row : Row} {x : String}
    (h : x ∈ (columns.filterMap fun c => c.slot? (onWrite c) (given c) (prefetched c) row).map
      (·.param)) : ∃ c ∈ columns, x = given c ∨ x = prefetched c := by
  obtain ⟨s, hs, rfl⟩ := List.mem_map.mp h
  obtain ⟨c, hc, hf⟩ := List.mem_filterMap.mp hs
  exact ⟨c, hc, slot?_param hf⟩

section

variable {columns : List Column}

/-- The parameters of the first row of a list. -/
abbrev firstParams (columns : List Column) (row : Row) : List String :=
  (columns.filterMap fun c => c.slot? c.default (multiName c.name 0) c.name row).map (·.param)

/-- Those of a later row. -/
abbrev laterParams (columns : List Column) (i : Nat) (row : Row) : List String :=
  (columns.filterMap fun c =>
    c.slot? c.default (multiName c.name (i + 1)) (multiName c.name (i + 1)) row).map (·.param)

/-- A parameter of a later row ends in the number of the row. -/
theorem mem_laterParams {i : Nat} {row : Row} {x : String} (hx : x ∈ laterParams columns i row) :
    ∃ c ∈ columns, x = multiName c.name (i + 1) := by
  obtain ⟨c, hc, hx⟩ := mem_params hx
  exact ⟨c, hc, hx.elim id id⟩

theorem nodup_firstParams (hcols : ∀ c ∈ columns, c ∈ t.columns)
    (hnodup : (columns.map (·.name)).Nodup) (row : Row) : (firstParams columns row).Nodup := by
  refine nodup_params hnodup fun c hc d hd s s' hs hs' hparam => ?_
  rcases slot?_param hs with hc' | hc' <;> rcases slot?_param hs' with hd' | hd' <;>
    rw [hc', hd'] at hparam
  · exact (multiName_inj hparam).1
  · exact absurd hparam.symm (t.name_ne d (hcols d hd) c (hcols c hc) 0)
  · exact absurd hparam (t.name_ne c (hcols c hc) d (hcols d hd) 0)
  · exact hparam

theorem nodup_laterParams (hnodup : (columns.map (·.name)).Nodup) (i : Nat) (row : Row) :
    (laterParams columns i row).Nodup := by
  refine nodup_params hnodup fun c _ d _ s s' hs hs' hparam => ?_
  rw [(slot?_param hs).elim id id, (slot?_param hs').elim id id] at hparam
  exact (multiName_inj hparam).1

theorem firstParams_disjoint (hcols : ∀ c ∈ columns, c ∈ t.columns) (i : Nat) (row row' : Row) :
    List.Disjoint (firstParams columns row) (laterParams columns i row') := by
  intro x hx hx'
  obtain ⟨d, hd, rfl⟩ := mem_laterParams hx'
  obtain ⟨c, hc, hparam | hparam⟩ := mem_params hx
  · exact absurd (multiName_inj hparam).2 (Nat.succ_ne_zero i)
  · exact t.name_ne c (hcols c hc) d (hcols d hd) (i + 1) hparam.symm

theorem laterParams_disjoint {i j : Nat} (hij : i ≠ j) (row row' : Row) :
    List.Disjoint (laterParams columns i row) (laterParams columns j row') := by
  intro x hx hx'
  obtain ⟨c, -, hxc⟩ := mem_laterParams hx
  obtain ⟨d, -, hxd⟩ := mem_laterParams hx'
  exact hij (Nat.succ_injective (multiName_inj (hxc.symm.trans hxd)).2)

end

/-- **No two parameters of a list have one name.** -/
theorem nodup_rows {first : Row} {rest : List Row} {slots : List (List Slot)}
    (h : t.compileRows first rest = some slots) : (slots.flatten.map (·.param)).Nodup := by
  simp only [Table.compileRows] at h
  split at h
  · cases h
    have hcols : ∀ c ∈ t.columnsOf first, c ∈ t.columns := fun c hc => (List.mem_filter.mp hc).1
    have hnodup : ((t.columnsOf first).map (·.name)).Nodup :=
      t.nodup.sublist (List.filter_sublist.map _)
    rw [List.map_flatten, List.nodup_flatten]
    constructor
    · simp only [List.map_cons, List.forall_mem_cons, List.mem_map, List.mem_mapIdx]
      refine ⟨nodup_firstParams hcols hnodup first, ?_⟩
      rintro - ⟨-, ⟨i, hi, rfl⟩, rfl⟩
      exact nodup_laterParams hnodup i _
    · rw [List.map_cons, List.pairwise_cons]
      constructor
      · simp only [List.mem_map, List.mem_mapIdx]
        rintro - ⟨-, ⟨i, hi, rfl⟩, rfl⟩
        exact firstParams_disjoint hcols i first _
      · rw [List.pairwise_map, List.pairwise_iff_getElem]
        intro i j hi hj hij
        rw [List.getElem_mapIdx, List.getElem_mapIdx]
        exact laterParams_disjoint (Nat.ne_of_lt hij) _ _
  · cases h

/-! ## 4. One row of a statement -/

/-- What a row's statement does with a given value and with a default to be filled in. -/
structure Writer where
  onWrite : Column → Option Default
  given : Column → Value → Option Stored
  filled : Column → Option Stored

namespace Writer

/-- A statement for one row. -/
def single (py : Python) (ctx : Context) (isUpdate : Bool) : Writer where
  onWrite c := c.onWrite isUpdate
  given c := c.writes py ctx isUpdate
  filled c := c.writes py ctx isUpdate .none

/-- The first row of a list. -/
def first (py : Python) (ctx : Context) : Writer where
  onWrite := (·.default)
  given c := c.store py
  filled c := c.writes py ctx false .none

/-- Another row of a list. -/
def later (py : Python) : Writer where
  onWrite := (·.default)
  given c := c.store py
  filled c := c.store py .none

variable (w : Writer) (row : Row)

/-- What the statement does with a column of the row, if it mentions it. -/
def cell (c : Column) : Option (Option (String × Stored)) :=
  match row c.name with
  | some v => some ((w.given c v).map fun s => (c.name, s))
  | none =>
      if (w.onWrite c).any Default.isParam then some ((w.filled c).map fun s => (c.name, s))
      else none

variable {w row}

theorem cell_given (h : row c.name = some v) :
    w.cell row c = some ((w.given c v).map fun s => (c.name, s)) := by
  simp only [cell, h]

theorem cell_filled (h : row c.name = none) (hp : (w.onWrite c).any Default.isParam = true) :
    w.cell row c = some ((w.filled c).map fun s => (c.name, s)) := by
  simp only [cell, h, hp, if_true]

theorem cell_absent (h : row c.name = none) (hp : ¬(w.onWrite c).any Default.isParam = true) :
    w.cell row c = none := by
  simp only [cell, h, hp, Bool.false_eq_true, if_false]

theorem name_of_cell {p : String × Stored} (h : w.cell row c = some (some p)) : p.1 = c.name := by
  unfold cell at h
  split at h
  · obtain ⟨s, -, rfl⟩ := Option.map_eq_some_iff.mp (Option.some.inj h)
    rfl
  · split at h
    · obtain ⟨s, -, rfl⟩ := Option.map_eq_some_iff.mp (Option.some.inj h)
      rfl
    · cases h

theorem map_written {columns : List Column} {given prefetched : Column → String}
    (hgiven : ∀ c ∈ columns, ∀ v, Slot.written py ctx isUpdate t.columns ⟨c, given c, v⟩ =
      (w.given c v).map fun s => (c.name, s))
    (hfilled : ∀ c ∈ columns, Slot.written py ctx isUpdate t.columns ⟨c, prefetched c, .none⟩ =
      (w.filled c).map fun s => (c.name, s)) :
    (columns.filterMap fun c => c.slot? (w.onWrite c) (given c) (prefetched c) row).map
      (Slot.written py ctx isUpdate t.columns) = columns.filterMap (w.cell row) := by
  rw [List.map_filterMap]
  refine List.filterMap_congr fun c hc => ?_
  cases hrow : row c.name with
  | some v =>
    rw [cell_given hrow, ← hgiven c hc v]
    simp only [Column.slot?, hrow, Option.map_some]
  | none =>
    by_cases hp : (w.onWrite c).any Default.isParam = true
    · rw [cell_filled hrow hp, ← hfilled c hc]
      simp only [Column.slot?, hrow, hp, if_true, Option.map_some]
    · rw [cell_absent hrow hp]
      simp only [Column.slot?, hrow, hp, Bool.false_eq_true, if_false, Option.map_none]

end Writer

/-- **The row holds the values that the caller gave.** -/
def Keeps (py : Python) (t : Table) (row : Row) (contents : Contents) : Prop :=
  ∀ c ∈ t.columns, ∀ v, row c.name = some v →
    ∃ s, bind py c.type v.plain = some s ∧ (c.name, s) ∈ contents

/-- The given values are kept, and the defaults fit. -/
structure Writer.Sound (w : Writer) (py : Python) (t : Table) (row : Row) : Prop where
  given : ∀ c ∈ t.columns, ∀ v, row c.name = some v → w.given c v = bind py c.type v.plain
  filled : ∀ c ∈ t.columns, row c.name = none → (w.onWrite c).any Default.isParam = true →
    (w.filled c).isSome = true

/-- The values of a row are among those of their columns. -/
def Row.Values (py : Python) (t : Table) (row : Row) : Prop :=
  ∀ c ∈ t.columns, ∀ v, row c.name = some v → c.Admits py v

theorem exists_eq_map_some {α : Type} {xs : List (Option α)} (h : ∀ x ∈ xs, ∃ a, x = some a) :
    ∃ ys : List α, xs = ys.map some := by
  induction xs with
  | nil => exact ⟨[], rfl⟩
  | cons x xs ih =>
    obtain ⟨a, rfl⟩ := h x (.head _)
    obtain ⟨ys, rfl⟩ := ih fun y hy => h y (.tail _ hy)
    exact ⟨a :: ys, rfl⟩

theorem eq_of_name_eq {columns : List Column} (hnodup : (columns.map (·.name)).Nodup) {d : Column}
    (hc : c ∈ columns) (hd : d ∈ columns) (h : c.name = d.name) : c = d :=
  Option.some.inj ((find?_name hnodup hc).symm.trans (h ▸ find?_name hnodup hd))

open Writer in
/-- **A row is written and keeps its values** exactly when each of its columns does. -/
theorem Writer.sound_iff {w : Writer} {row : Row} (hvalues : row.Values py t) :
    (∃ contents : Contents, t.columns.filterMap (w.cell row) = contents.map some ∧
      Keeps py t row contents) ↔ w.Sound py t row := by
  constructor
  · rintro ⟨contents, hcells, hkeeps⟩
    constructor
    · intro c hc v hv
      obtain ⟨s, hs, hmem⟩ := hkeeps c hc v hv
      -- the entry of the contents can only come from the column itself
      have hback : some (c.name, s) ∈ t.columns.filterMap (w.cell row) :=
        hcells ▸ List.mem_map_of_mem hmem
      obtain ⟨d, hd, hcell⟩ := List.mem_filterMap.mp hback
      obtain rfl := eq_of_name_eq t.nodup hc hd (name_of_cell hcell)
      obtain ⟨s', hgiven, heq⟩ := Option.map_eq_some_iff.mp
        (Option.some.inj ((cell_given hv).symm.trans hcell))
      rw [hgiven, hs, (Prod.mk.inj heq).2]
    · intro c hc hnone hparam
      have hmem : ((w.filled c).map fun s => (c.name, s)) ∈ contents.map some :=
        hcells ▸ List.mem_filterMap.mpr ⟨c, hc, cell_filled hnone hparam⟩
      obtain ⟨p, -, hp⟩ := List.mem_map.mp hmem
      obtain ⟨s, hs, -⟩ := Option.map_eq_some_iff.mp hp.symm
      exact Option.isSome_iff_exists.mpr ⟨s, hs⟩
  · intro h
    have hcells : ∀ x ∈ t.columns.filterMap (w.cell row), ∃ p, x = some p := fun x hx => by
      obtain ⟨c, hc, hx⟩ := List.mem_filterMap.mp hx
      cases hrow : row c.name with
      | some v =>
        obtain ⟨s, hs⟩ := Option.isSome_iff_exists.mp (hvalues c hc v hrow).fits
        rw [cell_given hrow, h.given c hc v hrow, hs] at hx
        exact ⟨_, (Option.some.inj hx).symm⟩
      | none =>
        by_cases hparam : (w.onWrite c).any Default.isParam = true
        · obtain ⟨s, hs⟩ := Option.isSome_iff_exists.mp (h.filled c hc hrow hparam)
          rw [cell_filled hrow hparam, hs] at hx
          exact ⟨_, (Option.some.inj hx).symm⟩
        · rw [cell_absent hrow hparam] at hx
          cases hx
    obtain ⟨contents, hcontents⟩ := exists_eq_map_some hcells
    refine ⟨contents, hcontents, fun c hc v hv => ?_⟩
    obtain ⟨s, hs⟩ := Option.isSome_iff_exists.mp (hvalues c hc v hv).fits
    have hmem : some (c.name, s) ∈ contents.map some := by
      rw [← hcontents]
      exact List.mem_filterMap.mpr ⟨c, hc, by rw [cell_given hv, h.given c hc v hv, hs]; rfl⟩
    obtain ⟨p, hp, he⟩ := List.mem_map.mp hmem
    exact ⟨s, hs, Option.some.inj he ▸ hp⟩

/-! ## 5. Writes -/

/-- A call of `values` on an insertion or an update; a list has at least one row. -/
inductive Write
  | insert (row : Row)
  | insertList (first : Row) (rest : List Row)
  | update (row : Row)

namespace Write

def updates : Write → Bool
  | .update _ => true
  | _ => false

def rows : Write → List Row
  | .insert row | .update row => [row]
  | .insertList first rest => first :: rest

def slots (t : Table) : Write → Option (List (List Slot))
  | .insert row => some [t.compileInsert row]
  | .insertList first rest => t.compileRows first rest
  | .update row => some [t.compileUpdate row]

/-- Inserting the rows of a list one by one stores the same contents. -/
def OneByOne (py : Python) (ctx : Context) (t : Table) : Write → List Contents → Prop
  | .insertList first rest, contents =>
      List.Forall₂ (fun row r => insertRow py ctx t row = .ok [r]) (first :: rest) contents
  | _, _ => True

/-- **The write stores what was given**: `validate` does not reject it, each placeholder is bound to
the value of its own column, every row holds the values that the caller gave, and a list of rows
stores what its rows store one by one. -/
def Faithful (py : Python) (ctx : Context) (t : Table) (w : Write) : Prop :=
  ∃ slots sql params contents, w.slots t = some slots ∧
    formatStatement py ctx w.updates t.columns slots = .ok (sql, params) ∧
    List.Forall₂ (List.Forall₂ (OwnPlaceholder py ctx w.updates t.columns params)) slots sql ∧
    execute py ctx w.updates t.columns slots = .ok contents ∧
    List.Forall₂ (Keeps py t) w.rows contents ∧ w.OneByOne py ctx t contents

end Write

/-- An insertion gives a value to every column that can be filled in no other way. -/
def Row.Complete (t : Table) (row : Row) : Prop :=
  ∀ c ∈ t.columns, row c.name = none →
    c.default.isSome = true ∨ c.serverDefault = true ∨ c.nullable = true

/-- **What may be written**: values that the columns admit, in rows that give the same columns. -/
structure Write.Admitted (py : Python) (t : Table) (w : Write) : Prop where
  values : ∀ row ∈ w.rows, row.Values py t
  complete : w.updates = false → ∀ row ∈ w.rows, row.Complete t
  alike : ∀ row ∈ w.rows, ∀ row' ∈ w.rows, ∀ c ∈ t.columns,
    (row c.name).isSome = (row' c.name).isSome

/-- **When a statement for one row keeps what it is given**: an empty value is one that the
column's default is stored as, and a default that is filled in fits its column. -/
structure Row.Kept (py : Python) (ctx : Context) (t : Table) (isUpdate : Bool) (row : Row) :
    Prop where
  empty : ∀ c ∈ t.columns, ∀ v, row c.name = some v → v.isEmpty = true →
    c.KeepsEmpty py ctx isUpdate v
  filled : ∀ c ∈ t.columns, row c.name = none → ∀ d, c.onWrite isUpdate = some d →
    d.isParam = true → (c.store py (execDefault ctx (some d))).isSome = true

/-- **When a statement for a list does so**: besides, no value is a member that is no `str` or
`int`, and with a second row there is no default to be filled in that is not `NULL`. -/
structure ListKept (py : Python) (ctx : Context) (t : Table) (first : Row) (rest : List Row) :
    Prop where
  rows : ∀ row ∈ first :: rest, row.Kept py ctx t false
  members : ∀ row ∈ first :: rest, ∀ c ∈ t.columns, ∀ v, row c.name = some v →
    v.isPlainMember = false
  defaults : rest ≠ [] → ∀ c ∈ t.columns, first c.name = none → ∀ d, c.default = some d →
    d.isParam = true → bind py c.type (execDefault ctx (some d)) = some .null

def Write.Kept (py : Python) (ctx : Context) (t : Table) : Write → Prop
  | .insert row => row.Kept py ctx t false
  | .insertList first rest => ListKept py ctx t first rest
  | .update row => row.Kept py ctx t true

section Single

variable {row : Row}

theorem writes_none {d : Default} (hc : c ∈ t.columns) (hd : c.onWrite isUpdate = some d) :
    c.writes py ctx isUpdate .none = c.store py (execDefault ctx (some d)) := by
  have hempty : c.cannotBeEmpty = false := by
    cases isUpdate with
    | true => exact t.onupdate_optional c hc (by simp [show c.onupdate = some d from hd])
    | false => simp [Column.cannotBeEmpty, show c.default = some d from hd]
  simp [Column.writes, Column.check, Value.isEmpty, hempty, hd]

theorem single_sound_iff (hvalues : row.Values py t) :
    (Writer.single py ctx isUpdate).Sound py t row ↔ row.Kept py ctx t isUpdate := by
  constructor
  · intro h
    constructor
    · intro c hc v hv
      exact (writes_eq_iff (hvalues c hc v hv)).mp (h.given c hc v hv)
    · intro c hc hnone d hd hparam
      have := h.filled c hc hnone (by simpa [Writer.single, hd] using hparam)
      exact writes_none hc hd ▸ this
  · intro h
    constructor
    · intro c hc v hv
      exact (writes_eq_iff (hvalues c hc v hv)).mpr (h.empty c hc v hv)
    · intro c hc hnone hparam
      obtain ⟨d, hd, hparam⟩ := (Option.any_eq_true _ _).mp hparam
      exact (congrArg Option.isSome (writes_none hc hd)).trans (h.filled c hc hnone d hd hparam)

theorem map_written_single : (t.columns.filterMap fun c =>
    c.slot? (c.onWrite isUpdate) c.name c.name row).map (Slot.written py ctx isUpdate t.columns) =
      t.columns.filterMap ((Writer.single py ctx isUpdate).cell row) :=
  Writer.map_written (w := Writer.single py ctx isUpdate) (fun _ hc _ => written_own hc)
    fun _ hc => written_own hc

theorem complete_of_keeps {contents : Contents} (hcomplete : row.Complete t)
    (hkeeps : Keeps py t row contents) : complete t.columns contents = true := by
  refine List.all_eq_true.mpr fun c hc => ?_
  cases hrow : row c.name with
  | some v =>
    obtain ⟨s, -, hs⟩ := hkeeps c hc v hrow
    have : contents.any (·.1 = c.name) = true := List.any_eq_true.mpr ⟨_, hs, by simp⟩
    simp [this]
  | none =>
    rcases hcomplete c hc hrow with h | h | h <;> simp [h]

end Single

/-! ## 6. A statement for one row -/

section

variable {row : Row} {slots : List Slot}

theorem execute_single_iff (hslots : slots =
    t.columns.filterMap fun c => c.slot? (c.onWrite isUpdate) c.name c.name row)
    {contents : List Contents} :
    execute py ctx isUpdate t.columns [slots] = .ok contents ↔
      ∃ r : Contents, contents = [r] ∧
        t.columns.filterMap ((Writer.single py ctx isUpdate).cell row) = r.map some ∧
        (isUpdate || complete t.columns r) = true := by
  subst hslots
  rw [execute_eq_ok_iff (nodup_single t _ row), List.map_singleton, map_written_single]
  constructor
  · rintro ⟨hw, hc⟩
    obtain ⟨r, rfl, hr⟩ := List.map_eq_singleton_iff.mp hw.symm
    exact ⟨r, rfl, hr.symm, by simpa using hc⟩
  · rintro ⟨r, rfl, hr, hc⟩
    exact ⟨by rw [hr]; rfl, by simpa using hc⟩

/-- **One row**: it is stored as given exactly when it is kept. -/
theorem single_keeps_iff (hslots : slots =
    t.columns.filterMap fun c => c.slot? (c.onWrite isUpdate) c.name c.name row)
    (hvalues : row.Values py t) (hcomplete : isUpdate = false → row.Complete t) :
    (∃ contents, execute py ctx isUpdate t.columns [slots] = .ok contents ∧
      List.Forall₂ (Keeps py t) [row] contents) ↔ row.Kept py ctx t isUpdate := by
  rw [← single_sound_iff hvalues, ← Writer.sound_iff hvalues]
  constructor
  · rintro ⟨contents, hexec, hkeeps⟩
    obtain ⟨r, rfl, hr, -⟩ := (execute_single_iff hslots).mp hexec
    exact ⟨r, hr, by simpa using hkeeps⟩
  · rintro ⟨r, hr, hkeeps⟩
    refine ⟨[r], (execute_single_iff hslots).mpr ⟨r, rfl, hr, ?_⟩, by simpa using hkeeps⟩
    cases hu : isUpdate with
    | true => rfl
    | false => exact complete_of_keeps (hcomplete hu) hkeeps

end

/-! ## 7. A statement for a list of rows -/

/-- Writers that agree on what they fill in, and keep what is given, write the same. -/
theorem Writer.filterMap_cell_congr {w w' : Writer} {row : Row} (hon : w.onWrite = w'.onWrite)
    (hw : w.Sound py t row) (hw' : w'.Sound py t row)
    (hfilled : ∀ c ∈ t.columns, row c.name = none → (w.onWrite c).any Default.isParam = true →
      w.filled c = w'.filled c) :
    t.columns.filterMap (w.cell row) = t.columns.filterMap (w'.cell row) := by
  refine List.filterMap_congr fun c hc => ?_
  cases hrow : row c.name with
  | some v =>
    rw [cell_given hrow, cell_given hrow, hw.given c hc v hrow, hw'.given c hc v hrow]
  | none =>
    by_cases hp : (w.onWrite c).any Default.isParam = true
    · rw [cell_filled hrow hp, cell_filled hrow (hon ▸ hp), hfilled c hc hrow hp]
    · rw [cell_absent hrow hp, cell_absent hrow (hon ▸ hp)]

theorem filterMap_inj {α β : Type} {f g : α → Option β} {xs : List α}
    (hfg : ∀ x ∈ xs, (f x).isSome = (g x).isSome) (h : xs.filterMap f = xs.filterMap g) :
    ∀ x ∈ xs, f x = g x := by
  induction xs with
  | nil => exact fun _ hx => absurd hx List.not_mem_nil
  | cons x xs ih =>
    obtain ⟨hx, hxs⟩ := List.forall_mem_cons.mp hfg
    cases hf : f x with
    | none =>
      have hg : g x = none := by simpa [hf] using hx.symm
      rw [List.filterMap_cons_none hf, List.filterMap_cons_none hg] at h
      exact List.forall_mem_cons.mpr ⟨hf.trans hg.symm, ih hxs h⟩
    | some y =>
      obtain ⟨z, hg⟩ := Option.isSome_iff_exists.mp (hx.symm.trans (by simp [hf]))
      rw [List.filterMap_cons_some hf, List.filterMap_cons_some hg] at h
      obtain ⟨rfl, htail⟩ := List.cons.inj h
      exact List.forall_mem_cons.mpr ⟨hf.trans hg.symm, ih hxs htail⟩

section Rows

variable {first : Row} {rest : List Row}

/-- The rows of a list with the way each is written. -/
def writers (py : Python) (ctx : Context) (first : Row) (rest : List Row) : List (Writer × Row) :=
  (Writer.first py ctx, first) :: rest.map fun row => (Writer.later py, row)

theorem filterMap_columnsOf {row : Row} {w : Writer} (hw : w.onWrite = (·.default))
    (halike : ∀ c ∈ t.columns, (row c.name).isSome = (first c.name).isSome) :
    (t.columnsOf first).filterMap (w.cell row) = t.columns.filterMap (w.cell row) := by
  rw [Table.columnsOf, List.filterMap_filter]
  refine List.filterMap_congr fun c hc => ?_
  split
  · rfl
  · rename_i hno
    obtain ⟨hfirst, hdefault⟩ : first c.name = none ∧ c.default = none := by simpa using hno
    have hnone : row c.name = none := by simpa [hfirst] using halike c hc
    exact (Writer.cell_absent hnone (by simp [hw, hdefault])).symm

/-- What a list of rows writes, row by row. -/
theorem map_written_rows {slots : List (List Slot)} (h : t.compileRows first rest = some slots)
    (halike : ∀ row ∈ rest, ∀ c ∈ t.columns, (row c.name).isSome = (first c.name).isSome) :
    slots.map (·.map (Slot.written py ctx false t.columns)) =
      (writers py ctx first rest).map fun p => t.columns.filterMap (p.1.cell p.2) := by
  simp only [Table.compileRows] at h
  split at h
  · cases h
    have hcols : ∀ c ∈ t.columnsOf first, c ∈ t.columns := fun c hc => (List.mem_filter.mp hc).1
    rw [List.map_cons, writers, List.map_cons, List.map_map]
    congr 1
    · rw [← filterMap_columnsOf rfl fun _ _ => rfl]
      exact Writer.map_written (w := Writer.first py ctx)
        (fun c hc _ => written_multi (hcols c hc) 0) fun c hc => written_own (hcols c hc)
    · refine List.ext_getElem (by simp) fun i hi hi' => ?_
      have hrow : i < rest.length := by simpa using hi
      rw [List.getElem_map, List.getElem_map, List.getElem_mapIdx, Function.comp_apply,
        ← filterMap_columnsOf rfl (halike _ (List.getElem_mem hrow))]
      exact Writer.map_written (w := Writer.later py)
        (fun c hc _ => written_multi (hcols c hc) (i + 1))
        fun c hc => written_multi (hcols c hc) (i + 1)
  · cases h

theorem compileRows_eq_some
    (halike : ∀ row ∈ rest, ∀ c ∈ t.columns, (row c.name).isSome = (first c.name).isSome) :
    ∃ slots, t.compileRows first rest = some slots := by
  simp only [Table.compileRows]
  rw [if_pos]
  · exact ⟨_, rfl⟩
  · refine List.all_eq_true.mpr fun row hrow => List.all_eq_true.mpr fun c hc => ?_
    obtain ⟨hc, hgiven⟩ := List.mem_filter.mp hc
    rwa [halike row hrow c hc]

end Rows

section Agree

variable {w : Writer} {row : Row}

/-- The row of a list is written, keeps its values, and is what it is by itself. -/
structure RowOk (py : Python) (ctx : Context) (t : Table) (p : Writer × Row) (r : Contents) :
    Prop where
  cells : t.columns.filterMap (p.1.cell p.2) = r.map some
  keeps : Keeps py t p.2 r
  alone : t.columns.filterMap ((Writer.single py ctx false).cell p.2) = r.map some

theorem isSome_cell (hon : w.onWrite = (·.default)) (c : Column) :
    (w.cell row c).isSome = ((Writer.single py ctx false).cell row c).isSome := by
  have hsingle : (Writer.single py ctx false).onWrite c = w.onWrite c := by rw [hon]; rfl
  cases hrow : row c.name with
  | some v => rw [Writer.cell_given hrow, Writer.cell_given hrow]; rfl
  | none =>
    by_cases hp : (w.onWrite c).any Default.isParam = true
    · rw [Writer.cell_filled hrow hp, Writer.cell_filled hrow (hsingle ▸ hp)]; rfl
    · rw [Writer.cell_absent hrow hp, Writer.cell_absent hrow (hsingle ▸ hp)]

theorem rowOk_iff (hon : w.onWrite = (·.default)) (hvalues : row.Values py t) :
    (∃ r, RowOk py ctx t (w, row) r) ↔ w.Sound py t row ∧ row.Kept py ctx t false ∧
      ∀ c ∈ t.columns, row c.name = none → c.default.any Default.isParam = true →
        w.filled c = c.writes py ctx false .none := by
  have hw : w.onWrite = (Writer.single py ctx false).onWrite := hon
  rw [← single_sound_iff hvalues]
  constructor
  · rintro ⟨r, hr⟩
    refine ⟨(Writer.sound_iff hvalues).mp ⟨r, hr.cells, hr.keeps⟩,
      (Writer.sound_iff hvalues).mp ⟨r, hr.alone, hr.keeps⟩, fun c hc hnone hp => ?_⟩
    have hcell := filterMap_inj (fun c _ => isSome_cell hon c) (hr.cells.trans hr.alone.symm) c hc
    rw [Writer.cell_filled hnone (by rwa [hon]), Writer.cell_filled hnone hp,
      Option.some.injEq] at hcell
    exact Option.map_injective (fun _ _ h => (Prod.mk.inj h).2) hcell
  · rintro ⟨hsound, hkept, hfilled⟩
    obtain ⟨r, hcells, hkeeps⟩ := (Writer.sound_iff hvalues).mpr hsound
    refine ⟨r, hcells, hkeeps, (Writer.filterMap_cell_congr hw hsound hkept ?_).symm.trans hcells⟩
    intro c hc hnone hp
    exact hfilled c hc hnone (by rwa [hon] at hp)

/-- What a list keeps of the given values. -/
theorem given_store_iff (hvalues : row.Values py t) :
    (∀ c ∈ t.columns, ∀ v, row c.name = some v → c.store py v = bind py c.type v.plain) ↔
      ∀ c ∈ t.columns, ∀ v, row c.name = some v → v.isPlainMember = false :=
  forall₂_congr fun c hc => forall₂_congr fun v hv => store_eq_iff (hvalues c hc v hv)

/-- **The first row of a list.** -/
theorem first_ok_iff (hvalues : row.Values py t) :
    (∃ r, RowOk py ctx t (Writer.first py ctx, row) r) ↔ row.Kept py ctx t false ∧
      ∀ c ∈ t.columns, ∀ v, row c.name = some v → v.isPlainMember = false := by
  rw [rowOk_iff rfl hvalues, ← given_store_iff hvalues]
  constructor
  · rintro ⟨hsound, hkept, -⟩
    exact ⟨hkept, hsound.given⟩
  · rintro ⟨hkept, hgiven⟩
    exact ⟨⟨hgiven, ((single_sound_iff hvalues).mpr hkept).filled⟩, hkept, fun _ _ _ _ => rfl⟩

theorem store_none_eq_iff (hs : (c.store py v).isSome = true) :
    c.store py .none = c.store py v ↔ bind py c.type v = some .null := by
  obtain ⟨s, hs⟩ := Option.isSome_iff_exists.mp hs
  have hbind := store_eq_some hs
  rw [hs, hbind, store_none, Option.some.injEq]
  constructor
  · intro h
    split at h
    · exact (Option.some.inj h).symm
    · cases h
  · rintro rfl
    have hnull : c.nullable = true := by
      simpa using (Option.filter_eq_some_iff.mp hs).2
    rw [if_pos hnull]

/-- **Another row of a list.** -/
theorem later_ok_iff (hvalues : row.Values py t) :
    (∃ r, RowOk py ctx t (Writer.later py, row) r) ↔ row.Kept py ctx t false ∧
      (∀ c ∈ t.columns, ∀ v, row c.name = some v → v.isPlainMember = false) ∧
      ∀ c ∈ t.columns, row c.name = none → ∀ d, c.default = some d → d.isParam = true →
        bind py c.type (execDefault ctx (some d)) = some .null := by
  rw [rowOk_iff rfl hvalues, ← given_store_iff hvalues]
  constructor
  · rintro ⟨hsound, hkept, hfilled⟩
    refine ⟨hkept, hsound.given, fun c hc hnone d hd hp => ?_⟩
    have hsame := hfilled c hc hnone (by simpa [hd] using hp)
    rw [writes_none hc (show c.onWrite false = some d from hd)] at hsame
    exact (store_none_eq_iff (hkept.filled c hc hnone d hd hp)).mp hsame
  · rintro ⟨hkept, hgiven, hnull⟩
    have hsame : ∀ c ∈ t.columns, row c.name = none → c.default.any Default.isParam = true →
        c.store py .none = c.writes py ctx false .none := fun c hc hnone hp => by
      obtain ⟨d, hd, hp⟩ := (Option.any_eq_true _ _).mp hp
      rw [writes_none hc (show c.onWrite false = some d from hd)]
      exact (store_none_eq_iff (hkept.filled c hc hnone d hd hp)).mpr (hnull c hc hnone d hd hp)
    refine ⟨⟨hgiven, fun c hc hnone hp => ?_⟩, hkept, hsame⟩
    exact (congrArg Option.isSome (hsame c hc hnone hp)).trans
      (((single_sound_iff hvalues).mpr hkept).filled c hc hnone hp)

end Agree

/-! ## 8. The exact condition -/

section

variable {first : Row} {rest : List Row}

/-- **A list of rows** is stored as given, and as its rows are one by one, exactly when it is
kept. -/
theorem list_keeps_iff (h : (Write.insertList first rest).Admitted py t) {slots : List (List Slot)}
    (hslots : t.compileRows first rest = some slots) :
    (∃ contents, execute py ctx false t.columns slots = .ok contents ∧
      List.Forall₂ (Keeps py t) (first :: rest) contents ∧
      List.Forall₂ (fun row r => insertRow py ctx t row = .ok [r]) (first :: rest) contents) ↔
        ListKept py ctx t first rest := by
  have halike : ∀ row ∈ rest, ∀ c ∈ t.columns, (row c.name).isSome = (first c.name).isSome :=
    fun row hrow => h.alike row (.tail _ hrow) first (.head _)
  have hnone : ∀ row ∈ rest, ∀ c ∈ t.columns, row c.name = none ↔ first c.name = none :=
    fun row hrow c hc => by
      rw [← Option.isNone_iff_eq_none, ← Option.isNone_iff_eq_none, ← Option.not_isSome,
        ← Option.not_isSome, halike row hrow c hc]
  have hrows : (∃ contents, List.Forall₂ (RowOk py ctx t) (writers py ctx first rest) contents) ↔
      ListKept py ctx t first rest := by
    rw [exists_forall₂_iff, writers, List.forall_mem_cons, List.forall_mem_map,
      first_ok_iff (h.values first (.head _))]
    constructor
    · rintro ⟨⟨hfirst, hmembers⟩, hrest⟩
      have hrest : ∀ row ∈ rest, _ := fun row hrow =>
        (later_ok_iff (h.values row (.tail _ hrow))).mp (hrest row hrow)
      refine ⟨List.forall_mem_cons.mpr ⟨hfirst, fun row hrow => (hrest row hrow).1⟩,
        List.forall_mem_cons.mpr ⟨hmembers, fun row hrow => (hrest row hrow).2.1⟩, ?_⟩
      intro hne c hc hc' d hd hp
      obtain ⟨row, hrow⟩ := List.exists_mem_of_ne_nil rest hne
      exact (hrest row hrow).2.2 c hc ((hnone row hrow c hc).mpr hc') d hd hp
    · intro hk
      refine ⟨⟨hk.rows first (.head _), hk.members first (.head _)⟩, fun row hrow => ?_⟩
      refine (later_ok_iff (h.values row (.tail _ hrow))).mpr ⟨hk.rows row (.tail _ hrow),
        hk.members row (.tail _ hrow), fun c hc hc' d hd hp => ?_⟩
      exact hk.defaults (List.ne_nil_of_mem hrow) c hc ((hnone row hrow c hc).mp hc') d hd hp
  have hsnd : first :: rest = (writers py ctx first rest).map (·.2) := by
    simp [writers, Function.comp_def]
  rw [← hrows]
  refine exists_congr fun contents => ?_
  rw [execute_eq_ok_iff (nodup_rows hslots), map_written_rows hslots halike,
    ← List.forall₂_eq_eq_eq, List.forall₂_map_left_iff, List.forall₂_map_right_iff, hsnd,
    List.forall₂_map_left_iff, List.forall₂_map_left_iff]
  constructor
  · rintro ⟨⟨hcells, -⟩, hkeeps, halone⟩
    refine (forall₂_and (forall₂_and hcells hkeeps) halone).imp fun p r hr => ?_
    obtain ⟨r', he, hsingle, -⟩ := (execute_single_iff rfl).mp hr.2
    obtain rfl := (List.cons.inj he).1
    exact ⟨hr.1.1, hr.1.2, hsingle⟩
  · intro hok
    have hcomplete : ∀ p ∈ writers py ctx first rest, p.2.Complete t := fun p hp =>
      h.complete rfl p.2 (show p.2 ∈ first :: rest from hsnd ▸ List.mem_map_of_mem hp)
    have hall := (List.forall₂_and_left _ _).mpr ⟨hcomplete, hok⟩
    refine ⟨⟨hok.imp fun p r hr => hr.cells, ?_⟩, hok.imp fun p r hr => hr.keeps,
      hall.imp fun p r hr => ?_⟩
    · refine List.all_eq_true.mpr fun r hr => ?_
      obtain ⟨p, -, hp, hpr⟩ := exists_related_left hall hr
      exact complete_of_keeps hp hpr.keeps
    · exact (execute_single_iff rfl).mpr
        ⟨r, rfl, hr.2.alone, complete_of_keeps hr.1 hr.2.keeps⟩

end

/-- A statement that is carried out was formatted, and its placeholders are bound to their own
values. -/
theorem formatted_of_execute {slots : List (List Slot)} {contents : List Contents}
    (hnodup : (slots.flatten.map (·.param)).Nodup)
    (h : execute py ctx isUpdate t.columns slots = .ok contents) :
    ∃ sql params, formatStatement py ctx isUpdate t.columns slots = .ok (sql, params) ∧
      List.Forall₂ (List.Forall₂ (OwnPlaceholder py ctx isUpdate t.columns params)) slots sql := by
  unfold execute at h
  split at h
  · cases h
  · rename_i sql params hf
    exact ⟨sql, params, hf, formatStatement_own hnodup hf⟩

/-- The two statements for one row. -/
theorem single_faithful_iff {w : Write} {row : Row} {slots : List Slot}
    (hw : w.slots t = some [slots]) (hrows : w.rows = [row])
    (hslots : slots = t.columns.filterMap fun c => c.slot? (c.onWrite w.updates) c.name c.name row)
    (hone : ∀ contents, w.OneByOne py ctx t contents) (h : w.Admitted py t) :
    w.Faithful py ctx t ↔ row.Kept py ctx t w.updates := by
  have hmem : row ∈ w.rows := by rw [hrows]; exact .head _
  rw [← single_keeps_iff hslots (h.values row hmem) fun hu => h.complete hu row hmem, ← hrows]
  constructor
  · rintro ⟨slots', sql, params, contents, hw', -, -, hexec, hkeeps, -⟩
    obtain rfl := Option.some.inj (hw.symm.trans hw')
    exact ⟨contents, hexec, hkeeps⟩
  · rintro ⟨contents, hexec, hkeeps⟩
    obtain ⟨sql, params, hf, hown⟩ :=
      formatted_of_execute (by rw [hslots]; exact nodup_single t _ row) hexec
    exact ⟨[slots], sql, params, contents, hw, hf, hown, hexec, hkeeps, hone contents⟩

/-- **Writing through the session stores what was given exactly when it is kept**: no statement for
one row is given an empty value that its column's default is not stored as, and a list has no plain
member in it and leaves no default to be filled in beyond its first row. -/
theorem write_faithful_iff (w : Write) (h : w.Admitted py t) :
    w.Faithful py ctx t ↔ w.Kept py ctx t := by
  cases w with
  | insert row => exact single_faithful_iff rfl rfl rfl (fun _ => trivial) h
  | update row => exact single_faithful_iff rfl rfl rfl (fun _ => trivial) h
  | insertList first rest =>
    obtain ⟨slots, hslots⟩ := compileRows_eq_some
      fun row hrow => h.alike row (.tail _ hrow) first (.head _)
    rw [Write.Kept, ← list_keeps_iff h hslots]
    constructor
    · rintro ⟨_, sql, params, contents, hslots', -, -, hexec, hkeeps, halone⟩
      obtain rfl := Option.some.inj (hslots.symm.trans hslots')
      exact ⟨contents, hexec, hkeeps, halone⟩
    · rintro ⟨contents, hexec, hkeeps, halone⟩
      obtain ⟨sql, params, hf, hown⟩ := formatted_of_execute (nodup_rows hslots) hexec
      exact ⟨slots, sql, params, contents, hslots, hf, hown, hexec, hkeeps, halone⟩

/-! ## 9. Roles and profiles -/

theorem ne_multiName {n : String} (h : n.toList.getLast?.all (fun c => !c.isDigit) = true)
    (d : String) (i : Nat) : n ≠ multiName d i := fun e => by
  have hne : (toString i).toList ≠ [] := by
    rw [Text.toList_natToString]
    exact Nat.toDigits_ne_nil
  have hlast : n.toList.getLast? = some ((toString i).toList.getLast hne) := by
    rw [e, multiName, String.toList_append, List.getLast?_append_of_ne_nil _ hne,
      List.getLast?_eq_some_getLast hne]
  have hdigit := Text.natToString_digits (List.getLast_mem hne)
  rw [hlast, Option.all_some, hdigit] at h
  cases h

/-- A dictionary of values. -/
def Row.ofList (given : List (String × Value)) : Row := fun name => given.lookup name

theorem Row.values_ofList {given : List (String × Value)}
    (h : ∀ p ∈ given, ∃ c ∈ t.columns, c.name = p.1 ∧ c.Admits py p.2) :
    (Row.ofList given).Values py t := fun c hc v hv => by
  obtain ⟨l₁, l₂, rfl, -⟩ := List.lookup_eq_some_iff.mp hv
  obtain ⟨d, hd, hname, hadmits⟩ := h (c.name, v) (by simp)
  obtain rfl := eq_of_name_eq t.nodup hc hd hname.symm
  exact hadmits

/-- `AuthUserRole`. -/
def authUserRole : Table where
  columns := [
    { name := "user_id", type := .uuid, nullable := false },
    { name := "role_id", type := .uuid, nullable := false }]
  nodup := by decide
  name_ne c hc d _ i := ne_multiName (by revert c; decide) d.name i
  onupdate_optional := by decide

/-- `AuthUserProfile`. -/
def authUserProfile : Table where
  columns := [
    { name := "id", type := .uuid, nullable := false, serverDefault := true },
    { name := "user_id", type := .uuid, nullable := false },
    { name := "first_name", type := .string (some 64), nullable := false },
    { name := "last_name", type := .string (some 64), nullable := false },
    { name := "title", type := .string (some 64) },
    { name := "gender", type := .integer 32, default := some (.scalar (.int 0)) },
    { name := "preferred_name", type := .string (some 64) },
    { name := "preferred_locale_id", type := .uuid },
    { name := "description", type := .string none },
    { name := "created_at", type := .datetime, nullable := false, serverDefault := true },
    { name := "created_by", type := .string (some 64), nullable := false,
      default := some (.callable getCurrentUsername) },
    { name := "created_by_id", type := .uuid, default := some (.callable getCurrentId) },
    { name := "updated_at", type := .datetime, nullable := false, serverDefault := true,
      onupdate := some .expression },
    { name := "updated_by", type := .string (some 64), nullable := false,
      default := some (.callable getCurrentUsername) },
    { name := "updated_by_id", type := .uuid, default := some (.callable getCurrentId),
      onupdate := some (.callable getCurrentId) }]
  nodup := by decide
  name_ne c hc d _ i := ne_multiName (by revert c; decide) d.name i
  onupdate_optional := by decide

/-- An interpreter whose floating-point numbers are exact. -/
def exactPython : Python where
  nearest := id
  str _ := ""
  readInt _ := none
  readNumber _ := none
  readDatetime _ := none
  readDate _ := none

/-- One of the rows of `bind_roles`. -/
def roleRow (role : Nat) : Row := .ofList [("user_id", .uuid 1), ("role_id", .uuid role)]

theorem uuid_admits (n : Nat) (hc : c.type = .uuid) : c.Admits py (.uuid n) where
  nullable := nofun
  takes _ := by rw [hc]; rfl
  fits := by rw [hc]; rfl
  exactly := by rw [hc]; trivial

theorem roleRow_values (role : Nat) : (roleRow role).Values py authUserRole :=
  Row.values_ofList fun p hp => by
    simp only [List.mem_cons, List.not_mem_nil, or_false] at hp
    rcases hp with rfl | rfl
    · exact ⟨_, .head _, rfl, uuid_admits 1 rfl⟩
    · exact ⟨_, .tail _ (.head _), rfl, uuid_admits role rfl⟩

theorem roleRow_given (role : Nat) (hc : c ∈ authUserRole.columns) :
    ∃ n, roleRow role c.name = some (.uuid n) := by
  simp only [authUserRole, List.mem_cons, List.not_mem_nil, or_false] at hc
  rcases hc with rfl | rfl
  · exact ⟨1, rfl⟩
  · exact ⟨role, rfl⟩

theorem roleRows_mem {row : Row} (h : row ∈ [roleRow 5, roleRow 6]) :
    ∃ role, row = roleRow role := by
  simp only [List.mem_cons, List.not_mem_nil, or_false] at h
  rcases h with rfl | rfl <;> exact ⟨_, rfl⟩

theorem roleRows_admitted :
    (Write.insertList (roleRow 5) [roleRow 6]).Admitted exactPython authUserRole where
  values row hrow := by
    obtain ⟨role, rfl⟩ := roleRows_mem hrow
    exact roleRow_values role
  complete _ row hrow c hc hnone := by
    obtain ⟨role, rfl⟩ := roleRows_mem hrow
    obtain ⟨n, hn⟩ := roleRow_given role hc
    cases hn.symm.trans hnone
  alike row hrow row' hrow' c hc := by
    obtain ⟨role, rfl⟩ := roleRows_mem hrow
    obtain ⟨role', rfl⟩ := roleRows_mem hrow'
    obtain ⟨n, hn⟩ := roleRow_given role hc
    obtain ⟨n', hn'⟩ := roleRow_given role' hc
    rw [hn, hn']; rfl

theorem roleRows_kept : (Write.insertList (roleRow 5) [roleRow 6]).Kept exactPython {} authUserRole
    where
  rows row hrow := by
    obtain ⟨role, rfl⟩ := roleRows_mem hrow
    constructor
    · intro c hc v hv hempty
      obtain ⟨n, hn⟩ := roleRow_given role hc
      obtain rfl := Option.some.inj (hn.symm.trans hv)
      cases hempty
    · intro c hc hnone
      obtain ⟨n, hn⟩ := roleRow_given role hc
      cases hn.symm.trans hnone
  members row hrow c hc v hv := by
    obtain ⟨role, rfl⟩ := roleRows_mem hrow
    obtain ⟨n, hn⟩ := roleRow_given role hc
    obtain rfl := Option.some.inj (hn.symm.trans hv)
    rfl
  defaults _ c hc hnone := by
    obtain ⟨n, hn⟩ := roleRow_given 5 hc
    cases hn.symm.trans hnone

theorem write_faithful_roles :
    (Write.insertList (roleRow 5) [roleRow 6]).Faithful exactPython {} authUserRole :=
  (write_faithful_iff _ roleRows_admitted).mpr roleRows_kept

/-- The profile that `create_user` inserts for a user whose gender is not known. -/
def createdProfile : Row := .ofList [
  ("user_id", .uuid 1), ("first_name", .str "Anna"), ("last_name", .str ""),
  ("preferred_name", .str "Anna"), ("gender", .none)]

theorem text_admits {s : String} {n : Nat} (hc : c.type = .string (some n)) (hs : s.length ≤ n) :
    c.Admits py (.str s) where
  nullable := nofun
  takes _ := by rw [hc]; rfl
  fits := by simp [hc, Value.plain, bind, fitsLength, hs]
  exactly := by rw [hc]; trivial

theorem createdProfile_values : createdProfile.Values py authUserProfile :=
  Row.values_ofList fun p hp => by
    simp only [List.mem_cons, List.not_mem_nil, or_false] at hp
    rcases hp with rfl | rfl | rfl | rfl | rfl
    · exact ⟨_, .tail _ (.head _), rfl, uuid_admits 1 rfl⟩
    · exact ⟨_, .tail _ (.tail _ (.head _)), rfl, text_admits rfl (by decide)⟩
    · exact ⟨_, .tail _ (.tail _ (.tail _ (.head _))), rfl, text_admits rfl (by decide)⟩
    · exact ⟨_, .tail _ (.tail _ (.tail _ (.tail _ (.tail _ (.tail _ (.head _)))))), rfl,
        text_admits rfl (by decide)⟩
    · exact ⟨_, .tail _ (.tail _ (.tail _ (.tail _ (.tail _ (.head _))))), rfl,
        fun _ => rfl, fun h => absurd rfl h, rfl, trivial⟩

/-- **A new user's empty last name** is refused, though the column admits it. -/
theorem createdProfile_not_faithful :
    (Write.insert createdProfile).Admitted exactPython authUserProfile ∧
      insertRow exactPython {} authUserProfile createdProfile =
        .error (.typeError ["Field 'last_name' the format is invalid and cannot be empty"]) ∧
      ¬(Write.insert createdProfile).Faithful exactPython {} authUserProfile := by
  have hrow : insertRow exactPython {} authUserProfile createdProfile =
      .error (.typeError ["Field 'last_name' the format is invalid and cannot be empty"]) := by
    rfl
  refine ⟨⟨fun row hrow => ?_, fun _ row hrow => ?_, fun row hrow row' hrow' _ _ => ?_⟩, hrow, ?_⟩
  · obtain rfl := List.mem_singleton.mp hrow
    exact createdProfile_values
  · obtain rfl := List.mem_singleton.mp hrow
    unfold Row.Complete
    decide
  · rw [List.mem_singleton.mp hrow, List.mem_singleton.mp hrow']
  · rintro ⟨_, sql, params, contents, ⟨⟩, -, -, hexec, -⟩
    cases hrow.symm.trans hexec

end NewlifeCore.Database
