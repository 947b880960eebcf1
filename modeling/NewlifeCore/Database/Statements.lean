import NewlifeCore.Database.Validation
import NewlifeCore.Text
import NewlifeCore.Lists
import Mathlib.Data.List.Forall2

/-!
# Writing statements

`Session.insert(T).values(…)` and `Session.update(T).values(…)`: the compiled statement with a named
parameter for each value, `_format_statement`, which exchanges the names for positions, and what the
table is given when the statement is executed.  The text between the placeholders and the conditions
of an update are left out.
-/

namespace NewlifeCore.Database

/-! ## 1. Tables -/

/-- The parameter of a column in one row of a list. -/
def multiName (name : String) (i : Nat) : String := name ++ "_m" ++ toString i

/-- An SQL expression is no parameter. -/
def Default.isParam : Default → Bool
  | .expression => false
  | _ => true

/-- **A model table.**  No column is called as a parameter of a list, and what an update fills in
may be left out of an insertion. -/
structure Table where
  columns : List Column
  nodup : (columns.map (·.name)).Nodup
  name_ne : ∀ c ∈ columns, ∀ d ∈ columns, ∀ i, c.name ≠ multiName d.name i
  onupdate_optional : ∀ c ∈ columns, c.onupdate.isSome = true → c.cannotBeEmpty = false

/-- What the caller gives: the value for a column, if there is one. -/
abbrev Row := String → Option Value

/-! ## 2. Compiled statements -/

/-- A column of a compiled statement with its parameter. -/
structure Slot where
  column : Column
  param : String
  value : Value

/-- The parameter of a column: the given value, or `None` where a default is to be filled in. -/
def Column.slot? (onWrite : Option Default) (given prefetched : String) (row : Row) (c : Column) :
    Option Slot :=
  match row c.name with
  | some v => some ⟨c, given, v⟩
  | none => if onWrite.any Default.isParam then some ⟨c, prefetched, .none⟩ else none

namespace Table

variable (t : Table)

def compileInsert (row : Row) : List Slot :=
  t.columns.filterMap fun c => c.slot? c.default c.name c.name row

def compileUpdate (row : Row) : List Slot :=
  t.columns.filterMap fun c => c.slot? c.onupdate c.name c.name row

/-- The columns of a list of rows are those of the first one. -/
def columnsOf (first : Row) : List Column :=
  t.columns.filter fun c => (first c.name).isSome || c.default.isSome

/-- **A list of rows.**  A default is filled in under the column's own name for the first row, and
under the name that the row's value would have had for the others.  `none`: a row has no value for a
column of the statement. -/
def compileRows (first : Row) (rest : List Row) : Option (List (List Slot)) :=
  let columns := t.columnsOf first
  if rest.all fun row => columns.all fun c => (row c.name).isSome || c.default.isSome then
    some (columns.filterMap (fun c => c.slot? c.default (multiName c.name 0) c.name first) ::
      rest.mapIdx fun i row => columns.filterMap fun c =>
        c.slot? c.default (multiName c.name (i + 1)) (multiName c.name (i + 1)) row)
  else none

end Table

/-! ## 3. From names to positions -/

/-- `%(name)s`, or `$index`. -/
inductive Placeholder
  | named (name : String)
  | numbered (index : Nat)
deriving DecidableEq

def Placeholder.replace (name : String) (index : Nat) : Placeholder → Placeholder
  | .named n => if n = name then .numbered index else .named n
  | p => p

/-- The rows of a statement: a placeholder for each column. -/
abbrev Sql := List (List (Column × Placeholder))

/-- The loop of `_format_statement`. -/
def bindParams : List (String × Value) → Nat → Sql → List Value → Sql × List Value
  | [], _, sql, params => (sql, params)
  | (name, v) :: data, index, sql, params =>
      bindParams data (index + 1) (sql.map (·.map (Prod.map id (Placeholder.replace name index))))
        (params ++ [v])

section

variable (py : Python) (ctx : Context) (isUpdate : Bool) (columns : List Column)

/-- `_format_statement`. -/
def formatStatement (slots : List (List Slot)) : Except Rejection (Sql × List Value) :=
  (validate py ctx isUpdate columns (slots.flatten.map fun s => (s.param, s.value))).map fun data =>
    bindParams data 1 (slots.map (·.map fun s => (s.column, .named s.param))) []

/-! ## 4. Execution -/

/-- What a row holds in the columns that were written. -/
abbrev Contents := List (String × Stored)

def storeCell (params : List Value) : Column × Placeholder → Option (String × Stored)
  | (c, .numbered i) => (params[i - 1]?).bind fun v => (c.store py v).map fun s => (c.name, s)
  | (_, .named _) => none

/-- The database fills in the columns that are left out. -/
def complete (contents : Contents) : Bool :=
  columns.all fun c =>
    contents.any (·.1 = c.name) || c.nullable || c.serverDefault || c.default.isSome

/-- **What a statement writes**, row by row. -/
def execute (slots : List (List Slot)) : Except Rejection (List Contents) :=
  match formatStatement py ctx isUpdate columns slots with
  | .error e => .error e
  | .ok (sql, params) =>
      match sql.mapM (·.mapM (storeCell py params)) with
      | none => .error .statement
      | some rows =>
          if isUpdate || rows.all (complete columns) then .ok rows else .error .statement

end

section

variable (py : Python) (ctx : Context) (t : Table)

/-- `insert(T).values(row)`. -/
def insertRow (row : Row) : Except Rejection (List Contents) :=
  execute py ctx false t.columns [t.compileInsert row]

/-- `insert(T).values([first, …])`. -/
def insertRows (first : Row) (rest : List Row) : Except Rejection (List Contents) :=
  match t.compileRows first rest with
  | none => .error .statement
  | some slots => execute py ctx false t.columns slots

/-- `update(T).values(row)`. -/
def updateRow (row : Row) : Except Rejection (List Contents) :=
  execute py ctx true t.columns [t.compileUpdate row]

end

/-! ## 5. Every placeholder has its own parameter -/

section Lists

variable {α β : Type} {f : α → Option β}

theorem mapM_eq_some_iff {xs : List α} {ys : List β} :
    xs.mapM f = some ys ↔ xs.map f = ys.map some := by
  induction xs generalizing ys with
  | nil => cases ys <;> simp
  | cons x xs ih =>
    cases ys with
    | nil => cases hx : f x <;> cases hr : xs.mapM f <;> simp [List.mapM_cons, hx, hr]
    | cons y ys =>
      cases hx : f x with
      | none => simp [List.mapM_cons, hx]
      | some z =>
        cases hr : xs.mapM f with
        | none =>
          have : xs.map f ≠ ys.map some := fun e => by simp [ih.mpr e] at hr
          simp [List.mapM_cons, hx, hr, this]
        | some zs =>
          have : xs.map f = ys.map some ↔ zs = ys := by rw [← ih, hr, Option.some.injEq]
          simp [List.mapM_cons, hx, hr, this]

theorem mapM_mapM_eq_some_iff {xs : List (List α)} {ys : List (List β)} :
    xs.mapM (·.mapM f) = some ys ↔ xs.map (·.map f) = ys.map (·.map some) := by
  rw [mapM_eq_some_iff]
  induction xs generalizing ys with
  | nil => cases ys <;> simp
  | cons x xs ih => cases ys <;> simp [mapM_eq_some_iff, ih]

end Lists

section Placeholders

variable {data : List (String × Value)} {index : Nat}

/-- What the loop makes of one placeholder. -/
def replaceAll : List (String × Value) → Nat → Placeholder → Placeholder
  | [], _, p => p
  | (name, _) :: data, index, p => replaceAll data (index + 1) (p.replace name index)

theorem bindParams_eq (sql : Sql) (params : List Value) :
    bindParams data index sql params =
      (sql.map (·.map (Prod.map id (replaceAll data index))), params ++ data.map (·.2)) := by
  induction data generalizing index sql params with
  | nil =>
    have hid : replaceAll [] index = id := funext fun _ => rfl
    simp [bindParams, hid]
  | cons p data ih =>
    simp only [bindParams, ih, List.map_map, List.append_assoc, List.map_cons, List.cons_append,
      List.nil_append]
    congr 2
    funext row
    simp only [Function.comp_apply, List.map_map]
    rfl

theorem bindParams_slots (slots : List (List Slot)) :
    bindParams data 1 (slots.map (·.map fun s => (s.column, .named s.param))) [] =
      (slots.map (·.map fun s => (s.column, replaceAll data 1 (.named s.param))),
        data.map (·.2)) := by
  rw [bindParams_eq, List.map_map, List.nil_append]
  congr 2
  funext row
  exact List.map_map

@[simp] theorem replaceAll_numbered (i : Nat) :
    replaceAll data index (.numbered i) = .numbered i := by
  induction data generalizing index with
  | nil => rfl
  | cons p data ih => exact ih

/-- **A name that no other parameter has** becomes the position of its value. -/
theorem replaceAll_named (index : Nat) {name : String} {v : Value}
    (hnodup : (data.map (·.1)).Nodup) (hmem : (name, v) ∈ data) :
    ∃ j, replaceAll data index (.named name) = .numbered (index + j) ∧
      (data.map (·.2))[j]? = some v := by
  induction data generalizing index with
  | nil => cases hmem
  | cons p data ih =>
    obtain ⟨m, w⟩ := p
    obtain ⟨hm, hnodup⟩ := List.nodup_cons.mp hnodup
    rcases List.mem_cons.mp hmem with heq | htail
    · obtain ⟨rfl, rfl⟩ := Prod.mk.inj heq
      exact ⟨0, by simp [replaceAll, Placeholder.replace], rfl⟩
    · have hne : name ≠ m := fun e => hm (List.mem_map.mpr ⟨_, htail, e⟩)
      obtain ⟨j, hpos, hval⟩ := ih (index + 1) hnodup htail
      refine ⟨j + 1, ?_, hval⟩
      rw [replaceAll, Placeholder.replace, if_neg hne, hpos, Nat.add_right_comm, Nat.add_assoc]

end Placeholders

/-! ## 6. What one parameter writes -/

section Written

variable (py : Python) (ctx : Context) (isUpdate : Bool) (columns : List Column)

/-- The parameter of a slot after `validate`, if it has nothing against it. -/
def Slot.bound? (s : Slot) : Option Value :=
  match checkParam py ctx isUpdate columns (s.param, s.value) with
  | some ([], _, u) => some u
  | _ => none

/-- What the column of a slot holds afterwards. -/
def Slot.written (s : Slot) : Option (String × Stored) :=
  (s.bound? py ctx isUpdate columns).bind fun u =>
    (s.column.store py u).map fun x => (s.column.name, x)

/-- **A placeholder of its own**: it stands for the column of the slot, and its position is that of
what `validate` made of the slot's value. -/
def OwnPlaceholder (params : List Value) (s : Slot) (cell : Column × Placeholder) : Prop :=
  cell.1 = s.column ∧ ∃ i u, cell.2 = .numbered i ∧ params[i - 1]? = some u ∧
    s.bound? py ctx isUpdate columns = some u

variable {py ctx isUpdate columns}

theorem checkParam_name {p : String × Value} {r : List String × (String × Value)}
    (h : checkParam py ctx isUpdate columns p = some r) : r.2.1 = p.1 := by
  obtain ⟨name, v⟩ := p
  simp only [checkParam] at h
  split at h
  · cases h; rfl
  · obtain ⟨q, -, rfl⟩ := Option.map_eq_some_iff.mp h
    rfl

theorem bound?_eq_some_iff {s : Slot} {u : Value} : s.bound? py ctx isUpdate columns = some u ↔
    checkParam py ctx isUpdate columns (s.param, s.value) = some ([], s.param, u) := by
  unfold Slot.bound?
  split
  · rename_i name w h
    have hname : name = s.param := checkParam_name h
    simp [h, hname]
  · rename_i h
    exact iff_of_false nofun fun e => h _ _ e

theorem validate_eq_ok_iff {data d : List (String × Value)} :
    validate py ctx isUpdate columns data = .ok d ↔
      data.map (checkParam py ctx isUpdate columns) = d.map fun p => some ([], p) := by
  constructor
  · intro h
    unfold validate at h
    split at h
    · cases h
    · rename_i results hm
      split at h
      · rename_i hnil
        cases h
        rw [mapM_eq_some_iff.mp hm, List.map_map]
        refine List.map_congr_left fun r hr => ?_
        exact congrArg some (Prod.ext (List.flatMap_eq_nil_iff.mp hnil r hr) rfl)
      · cases h
  · intro h
    have hm : data.mapM (checkParam py ctx isUpdate columns) = some (d.map fun p => ([], p)) :=
      mapM_eq_some_iff.mpr (h.trans (List.map_map).symm)
    have hnil : (d.map fun p => (([] : List String), p)).flatMap (·.1) = [] :=
      List.flatMap_eq_nil_iff.mpr fun r hr => by
        obtain ⟨p, -, rfl⟩ := List.mem_map.mp hr
        rfl
    simp only [validate, hm, hnil, List.map_map]
    congr 1
    exact List.map_id _

/-- What is bound when `validate` has nothing against any parameter. -/
def boundParams (py : Python) (ctx : Context) (isUpdate : Bool) (columns : List Column)
    (slots : List Slot) : List (String × Value) :=
  slots.map fun s => (s.param, (s.bound? py ctx isUpdate columns).getD .none)

theorem validate_slots_iff {slots : List Slot} {d : List (String × Value)} :
    validate py ctx isUpdate columns (slots.map fun s => (s.param, s.value)) = .ok d ↔
      (∀ s ∈ slots, (s.bound? py ctx isUpdate columns).isSome = true) ∧
        d = boundParams py ctx isUpdate columns slots := by
  rw [validate_eq_ok_iff, List.map_map, boundParams]
  induction slots generalizing d with
  | nil => cases d <;> simp
  | cons s slots ih =>
    cases d with
    | nil => simp
    | cons p d =>
      simp only [List.map_cons, List.cons.injEq, Function.comp_apply, ih, List.forall_mem_cons]
      constructor
      · rintro ⟨hs, hslots, rfl⟩
        have hp : p.1 = s.param := checkParam_name hs
        have hb : s.bound? py ctx isUpdate columns = some p.2 := by
          rw [bound?_eq_some_iff, hs, ← hp]
        exact ⟨⟨by simp [hb], hslots⟩, by simp [hb, ← hp], rfl⟩
      · rintro ⟨⟨hs, hslots⟩, rfl, rfl⟩
        obtain ⟨u, hu⟩ := Option.isSome_iff_exists.mp hs
        exact ⟨by rw [bound?_eq_some_iff.mp hu, hu]; rfl, hslots, rfl⟩

/-- The position of a slot's parameter, when no two slots have one name. -/
theorem boundParams_position {slots : List Slot} (hnodup : (slots.map (·.param)).Nodup) {s : Slot}
    (hs : s ∈ slots) {u : Value} (hu : s.bound? py ctx isUpdate columns = some u) :
    ∃ j, replaceAll (boundParams py ctx isUpdate columns slots) 1 (.named s.param) =
        .numbered (1 + j) ∧
      ((boundParams py ctx isUpdate columns slots).map (·.2))[j]? = some u := by
  refine replaceAll_named 1 ?_ (List.mem_map.mpr ⟨s, hs, by rw [hu]; rfl⟩)
  rwa [boundParams, List.map_map]

theorem formatStatement_eq_ok_iff {slots : List (List Slot)} {r : Sql × List Value} :
    formatStatement py ctx isUpdate columns slots = .ok r ↔
      (∀ s ∈ slots.flatten, (s.bound? py ctx isUpdate columns).isSome = true) ∧
        r = (slots.map (·.map fun s => (s.column,
              replaceAll (boundParams py ctx isUpdate columns slots.flatten) 1 (.named s.param))),
            (boundParams py ctx isUpdate columns slots.flatten).map (·.2)) := by
  unfold formatStatement
  constructor
  · intro h
    cases hv : validate py ctx isUpdate columns
        (slots.flatten.map fun s => (s.param, s.value)) with
    | error e => rw [hv] at h; cases h
    | ok d =>
      obtain ⟨hall, rfl⟩ := validate_slots_iff.mp hv
      rw [hv] at h
      cases h
      exact ⟨hall, bindParams_slots slots⟩
  · rintro ⟨hall, rfl⟩
    rw [validate_slots_iff.mpr ⟨hall, rfl⟩]
    exact congrArg Except.ok (bindParams_slots slots)

/-- **Each placeholder is bound to the value of its own column.** -/
theorem formatStatement_own {slots : List (List Slot)} {sql : Sql} {params : List Value}
    (hnodup : (slots.flatten.map (·.param)).Nodup)
    (h : formatStatement py ctx isUpdate columns slots = .ok (sql, params)) :
    List.Forall₂ (List.Forall₂ (OwnPlaceholder py ctx isUpdate columns params)) slots sql := by
  obtain ⟨hall, he⟩ := formatStatement_eq_ok_iff.mp h
  obtain ⟨rfl, rfl⟩ := Prod.mk.inj he
  rw [List.forall₂_map_right_iff, List.forall₂_same]
  intro row hrow
  rw [List.forall₂_map_right_iff, List.forall₂_same]
  intro s hs
  have hmem : s ∈ slots.flatten := List.mem_flatten.mpr ⟨row, hrow, hs⟩
  obtain ⟨u, hu⟩ := Option.isSome_iff_exists.mp (hall s hmem)
  obtain ⟨j, hpos, hval⟩ := boundParams_position hnodup hmem hu
  exact ⟨rfl, 1 + j, u, hpos, by rwa [Nat.add_sub_cancel_left], hu⟩

/-- What is stored in the column of a placeholder of its own. -/
theorem storeCell_own {params : List Value} {s : Slot} {cell : Column × Placeholder}
    (h : OwnPlaceholder py ctx isUpdate columns params s cell) :
    storeCell py params cell = s.written py ctx isUpdate columns := by
  obtain ⟨c, p⟩ := cell
  obtain ⟨rfl, i, u, rfl, hval, hu⟩ := h
  simp only [storeCell, hval, Slot.written, hu, Option.bind_some]

/-- **A statement is carried out exactly when every parameter can be written by itself**, and then
it writes these values. -/
theorem execute_eq_ok_iff {slots : List (List Slot)} {rows : List Contents}
    (hnodup : (slots.flatten.map (·.param)).Nodup) :
    execute py ctx isUpdate columns slots = .ok rows ↔
      slots.map (·.map (Slot.written py ctx isUpdate columns)) = rows.map (·.map some) ∧
        (isUpdate || rows.all (complete columns)) = true := by
  -- what the placeholders store is what the slots write
  have hcells : ∀ {sql params}, formatStatement py ctx isUpdate columns slots = .ok (sql, params) →
      sql.map (·.map (storeCell py params)) =
        slots.map (·.map (Slot.written py ctx isUpdate columns)) := fun {sql params} hf => by
    have hrow : ∀ row cells,
        List.Forall₂ (OwnPlaceholder py ctx isUpdate columns params) row cells →
          cells.map (storeCell py params) = row.map (Slot.written py ctx isUpdate columns) :=
      fun row cells h => map_eq_map_of_forall₂ h fun _ _ => storeCell_own
    exact map_eq_map_of_forall₂ (formatStatement_own hnodup hf) hrow
  constructor
  · intro h
    unfold execute at h
    split at h
    · cases h
    · rename_i sql params hf
      split at h
      · cases h
      · rename_i written hm
        split at h
        · rename_i hc
          cases h
          exact ⟨(hcells hf).symm.trans (mapM_mapM_eq_some_iff.mp hm), hc⟩
        · cases h
  · rintro ⟨hw, hc⟩
    have hall : ∀ s ∈ slots.flatten, (s.bound? py ctx isUpdate columns).isSome = true := by
      intro s hs
      obtain ⟨row, hrow, hs⟩ := List.mem_flatten.mp hs
      have hmem := hw ▸ List.mem_map_of_mem hrow
      obtain ⟨r, -, hr⟩ := List.mem_map.mp hmem
      have hmem := hr ▸ List.mem_map_of_mem hs
      obtain ⟨x, -, hx⟩ := List.mem_map.mp hmem
      obtain ⟨u, hu, -⟩ := Option.bind_eq_some_iff.mp hx.symm
      exact Option.isSome_iff_exists.mpr ⟨u, hu⟩
    have hf := formatStatement_eq_ok_iff.mpr ⟨hall, rfl⟩
    have hm := mapM_mapM_eq_some_iff.mpr ((hcells hf).trans hw)
    simp only [execute, hf, hm, hc, if_true]

end Written

end NewlifeCore.Database
