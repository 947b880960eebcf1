import NewlifeCore.Paging

/-!
# List pages

`order_by_with`, `limit`, `offset` and `fetchpages` of a query.  The name to sort by is looked up
among the attributes of the mapped classes, columns or not, and the id of the first class settles
ties; so the pages of a list partition it whenever the name can be sorted by at all.
-/

namespace NewlifeCore.Database.Orm

/-! ## 1. `_get_order_by` -/

/-- A column of the rows `ρ` of a query: how it sorts them, nulls last. -/
structure Column (ρ : Type) where
  key : SortKey ρ
  isNull : ρ → Prop

/-- What `getattr` finds in a mapped class: a column, a string, `None`, or anything else. -/
inductive Attribute (ρ : Type)
  | column (c : Column ρ)
  | text (s : String)
  | nothing
  | object

/-- A mapped class; an attribute that it lacks is none. -/
structure MappedClass (ρ : Type) where
  getattr : String → Option (Attribute ρ)

/-- An entry of `map_columns`: a column, or a column with an action. -/
inductive MapColumn (ρ : Type)
  | column (c : Column ρ)
  | withAction (c : Column ρ) (action : String)

/-- What `order_by` is called with. -/
inductive OrderItem (ρ : Type)
  | column (key : SortKey ρ)
  | text (s : String)
  | object

inductive OrmError
  | valueError (detail : String)
  | indexError
  | attributeError (name : String)
  | notOrdered
  | compileError (label : String)

variable {ρ : Type}

/-- `getattr` of the first class that has the name. -/
def attributeOf (tables : List (MappedClass ρ)) (name : String) : Option (Attribute ρ) :=
  tables.findSome? fun table => table.getattr name

/-- The attribute that a name stands for, or the items that it is replaced by. -/
def chosen (tables : List (MappedClass ρ)) (orderBy : Option String) (descending : Bool)
    (mapColumns : List (String × MapColumn ρ)) : Attribute ρ × List (OrderItem ρ) :=
  match orderBy.filter fun name => name ≠ "" with
  | none => (.nothing, [])
  | some name =>
    match mapColumns.lookup name with
    | some (.column c) => (.column c, [])
    | some (.withAction c action) =>
      if action = "nulls" then
        let key := c.key.nullsFirst c.isNull
        (.nothing, [.column (if descending then key.flip else key)])
      else (.nothing, [])
    | none => ((attributeOf tables name).getD .nothing, [])

/-- The attribute that a list is sorted by for want of another. -/
def defaultAttribute (tables : List (MappedClass ρ)) : Except OrmError (Attribute ρ) :=
  match tables.head? with
  | none => .error .indexError
  | some table =>
    match table.getattr "sequence" with
    | some a => .ok a
    | none =>
      match table.getattr "created_at" with
      | some a => .ok a
      | none => .error (.attributeError "created_at")

/-- What an attribute is sorted by.  What is neither a column nor a string has no order: it lacks
`desc`, and `order_by` refuses it. -/
def orderItems (descending : Bool) : Attribute ρ → Except OrmError (List (OrderItem ρ))
  | .column c => .ok [.column (if descending then c.key.flip else c.key)]
  | .text s => .ok [.text (if descending then s ++ " desc" else s)]
  | .nothing => .ok []
  | .object => if descending then .error .notOrdered else .ok [.object]

def hasIdItem (items : List (OrderItem ρ)) : Bool :=
  items.any fun item => match item with
    | .text s => s = "id"
    | _ => false

/-- The items with the id of the first table, which settles ties. -/
def withId (tables : List (MappedClass ρ)) (items : List (OrderItem ρ)) :
    Except OrmError (List (OrderItem ρ)) :=
  if hasIdItem items then .ok items
  else match tables.head? with
  | none => .error .indexError
  | some table =>
    match table.getattr "id" with
    | some (.column c) => .ok (items ++ [.column c.key])
    | some (.text s) => .ok (items ++ [.text s])
    | some .object => .ok (items ++ [.object])
    | some .nothing | none => .ok items

def isNothing : Attribute ρ → Bool
  | .nothing => true
  | _ => false

def getOrderBy (tables : List (MappedClass ρ)) (orderBy : Option String) (descending : Bool)
    (mapColumns : List (String × MapColumn ρ)) : Except OrmError (List (OrderItem ρ)) :=
  let found := chosen tables orderBy descending mapColumns
  if tables.isEmpty && mapColumns.isEmpty then
    .error (.valueError "Table and map_columns cannot be empty at the same time")
  else if isNothing found.1 && found.2.isEmpty then do
    let col ← defaultAttribute tables
    let items ← orderItems true col
    withId tables items
  else do
    let items ← orderItems descending found.1
    withId tables (found.2 ++ items)

/-! ## 2. Queries -/

/-- The key of an item; a string is the label of something selected. -/
def compileItem (labels : String → Option (SortKey ρ)) : OrderItem ρ → Except OrmError (SortKey ρ)
  | .column key => .ok key
  | .text s =>
    match labels s with
    | some key => .ok key
    | none => .error (.compileError s)
  | .object => .error .notOrdered

def compileOrderBy (labels : String → Option (SortKey ρ)) (items : List (OrderItem ρ)) :
    Except OrmError (List (SortKey ρ)) := items.mapM (compileItem labels)

/-- **A listing**: a query with the classes it may sort by.  The first has a column to sort by when
no other is named, and an id that the rows do not share. -/
structure Listing (ρ : Type) where
  tables : List (MappedClass ρ)
  mapColumns : List (String × MapColumn ρ) := []
  labels : String → Option (SortKey ρ)
  rows : List ρ
  first : MappedClass ρ
  idColumn : Column ρ
  defaultColumn : Column ρ
  tables_first : tables.head? = some first
  id_first : first.getattr "id" = some (.column idColumn)
  default_first : first.getattr "sequence" = some (.column defaultColumn) ∨
    first.getattr "sequence" = none ∧ first.getattr "created_at" = some (.column defaultColumn)
  separates : idColumn.key.Separates rows
  label_id : ∀ key, labels "id" = some key → key.Separates rows

namespace Listing

variable (L : Listing ρ)

/-- `order_by_with`, up to the text of the statement. -/
def orderByWith (orderBy : Option String) (descending : Bool) :
    Except OrmError (List (SortKey ρ)) := do
  let items ← getOrderBy L.tables orderBy descending L.mapColumns
  compileOrderBy L.labels items

/-- `fetchpages`: the count is of the rows without `LIMIT` and `OFFSET`. -/
def FetchPages (keys : List (SortKey ρ)) (limit offset : Nat) (result : List ρ × Nat) : Prop :=
  (SortKey.lex keys).Slice L.rows offset limit result.1 ∧ result.2 = L.rows.length

/-- **The pages of a list are total and partition it**: the `ORDER BY` can be built, each page can
be fetched, and whatever is fetched for the pages 0, 1, 2, … has every row once and their number. -/
def PagesPartition (orderBy : Option String) (descending : Bool) (pageSize : Nat) : Prop :=
  ∃ keys, L.orderByWith orderBy descending = .ok keys ∧
    (∀ page, ∃ result, L.FetchPages keys pageSize (page * pageSize) result) ∧
    ∀ results : Nat → List ρ × Nat,
      (∀ page, L.FetchPages keys pageSize (page * pageSize) (results page)) →
        (∀ page, (results page).2 = L.rows.length) ∧
          ∀ m, L.rows.length ≤ m * pageSize →
            ((List.range m).flatMap fun page => (results page).1).Perm L.rows

/-- An attribute can be sorted by: it is a column, `None` or the label of something selected. -/
def Sortable (descending : Bool) : Attribute ρ → Prop
  | .text s => (L.labels (if descending then s ++ " desc" else s)).isSome = true
  | .object => False
  | .column _ | .nothing => True

/-- **A name can be sorted by**: it is empty or mapped, no class has an attribute of the name, or
what the first class has under it can be sorted by. -/
def SortsBy (orderBy : Option String) (descending : Bool) : Prop :=
  ∀ name a, orderBy = some name → name ≠ "" → L.mapColumns.lookup name = none →
    attributeOf L.tables name = some a → L.Sortable descending a

variable {L} {orderBy : Option String} {descending : Bool}

/-! ## 3. What can be sorted by -/

theorem sortable_chosen_iff :
    L.Sortable descending (chosen L.tables orderBy descending L.mapColumns).1 ↔
      L.SortsBy orderBy descending := by
  unfold chosen SortsBy
  cases hname : orderBy.filter fun name => name ≠ "" with
  | none =>
    refine ⟨fun _ name a horder hne => ?_, fun _ => trivial⟩
    rw [horder] at hname
    simp [Option.filter, hne] at hname
  | some name =>
    obtain ⟨rfl, hne⟩ : orderBy = some name ∧ name ≠ "" := by
      obtain ⟨horder, hne⟩ := Option.filter_eq_some_iff.mp hname
      exact ⟨horder, of_decide_eq_true hne⟩
    cases hmap : L.mapColumns.lookup name with
    | some mapped =>
      constructor
      · rintro - _ a ⟨⟩ - hnone
        rw [hmap] at hnone
        cases hnone
      · intro _
        simp only [hmap]
        cases mapped with
        | column c => trivial
        | withAction c action =>
          dsimp only
          split <;> trivial
    | none =>
      simp only [hmap]
      cases ha : attributeOf L.tables name with
      | none =>
        refine ⟨?_, fun _ => trivial⟩
        rintro - _ a ⟨⟩ - - hfound
        rw [ha] at hfound
        cases hfound
      | some a =>
        constructor
        · rintro h _ a' ⟨⟩ - - hfound
          rw [ha] at hfound
          cases hfound
          exact h
        · intro h
          exact h name a rfl hne hmap ha

theorem withId_first (items : List (OrderItem ρ)) : withId L.tables items =
    .ok (if hasIdItem items then items else items ++ [.column L.idColumn.key]) := by
  unfold withId
  rw [L.tables_first]
  dsimp only
  rw [L.id_first]
  split <;> rfl

theorem defaultAttribute_first : defaultAttribute L.tables = .ok (.column L.defaultColumn) := by
  unfold defaultAttribute
  rw [L.tables_first]
  dsimp only
  rcases L.default_first with h | ⟨hnone, h⟩
  · rw [h]
  · rw [hnone, h]

theorem tables_nonempty : L.tables.isEmpty = false := by
  cases htables : L.tables with
  | nil =>
    have hfirst := L.tables_first
    rw [htables] at hfirst
    cases hfirst
  | cons _ _ => rfl

/-- Where nothing is found, a list is sorted by its default. -/
theorem orderByWith_default
    (hnone : isNothing (chosen L.tables orderBy descending L.mapColumns).1 = true)
    (hitems : (chosen L.tables orderBy descending L.mapColumns).2 = []) :
    L.orderByWith orderBy descending = .ok [L.defaultColumn.key.flip, L.idColumn.key] := by
  unfold orderByWith getOrderBy
  simp only [tables_nonempty, Bool.false_and, Bool.false_eq_true, if_false, hnone, hitems,
    List.isEmpty_nil, Bool.and_self, if_true]
  rw [defaultAttribute_first]
  simp only [orderItems, bind, Except.bind]
  rw [withId_first]
  rfl

/-- Otherwise by the items found, and the id. -/
theorem orderByWith_items (items : List (OrderItem ρ))
    (hitems : orderItems descending (chosen L.tables orderBy descending L.mapColumns).1 = .ok items)
    (hfound : (isNothing (chosen L.tables orderBy descending L.mapColumns).1 &&
      (chosen L.tables orderBy descending L.mapColumns).2.isEmpty) = false) :
    L.orderByWith orderBy descending =
      let items := (chosen L.tables orderBy descending L.mapColumns).2 ++ items
      compileOrderBy L.labels
        (if hasIdItem items then items else items ++ [.column L.idColumn.key]) := by
  unfold orderByWith getOrderBy
  simp only [tables_nonempty, Bool.false_and, Bool.false_eq_true, if_false, hfound, hitems]
  simp only [bind, Except.bind]
  rw [withId_first]

/-- What is found comes with items only if it is nothing, and then with one. -/
theorem chosen_items (L : Listing ρ) (orderBy : Option String) (descending : Bool) :
    (chosen L.tables orderBy descending L.mapColumns).2 = [] ∨
      (chosen L.tables orderBy descending L.mapColumns).1 = .nothing ∧
        ∃ key, (chosen L.tables orderBy descending L.mapColumns).2 = [.column key] := by
  unfold chosen
  cases orderBy.filter fun name => name ≠ "" with
  | none => exact .inl rfl
  | some name =>
    dsimp only
    cases L.mapColumns.lookup name with
    | none => exact .inl rfl
    | some mapped =>
      cases mapped with
      | column c => exact .inl rfl
      | withAction c action =>
        dsimp only
        split
        · exact .inr ⟨rfl, _, rfl⟩
        · exact .inl rfl

/-- What can be sorted by gives keys, one of which tells the rows apart. -/
theorem orderByWith_sortable
    (h : L.Sortable descending (chosen L.tables orderBy descending L.mapColumns).1) :
    ∃ keys, L.orderByWith orderBy descending = .ok keys ∧ ∃ key ∈ keys, key.Separates L.rows := by
  have hid := L.separates
  rcases chosen_items L orderBy descending with hnone | ⟨hnothing, key, hone⟩
  · cases hfound : (chosen L.tables orderBy descending L.mapColumns).1 with
    | column c =>
      rw [orderByWith_items [.column (if descending then c.key.flip else c.key)]
        (by rw [hfound]; rfl) (by rw [hfound]; rfl), hnone]
      exact ⟨_, rfl, L.idColumn.key, by simp, hid⟩
    | nothing =>
      rw [orderByWith_default (by rw [hfound]; rfl) hnone]
      exact ⟨_, rfl, L.idColumn.key, by simp, hid⟩
    | object =>
      rw [hfound] at h
      exact h.elim
    | text s =>
      rw [hfound] at h
      obtain ⟨key, hkey⟩ := Option.isSome_iff_exists.mp h
      rw [orderByWith_items [.text (if descending then s ++ " desc" else s)]
        (by rw [hfound]; rfl) (by rw [hfound]; rfl), hnone]
      generalize (if descending then s ++ " desc" else s) = label at hkey ⊢
      by_cases hlabel : label = "id"
      · -- A string `id` keeps the id itself away.
        subst hlabel
        refine ⟨[key], ?_, key, List.mem_singleton_self key, L.label_id key hkey⟩
        simp [compileOrderBy, compileItem, hasIdItem, hkey, bind, Except.bind, pure, Except.pure]
      · refine ⟨[key, L.idColumn.key], ?_, L.idColumn.key, by simp, hid⟩
        simp [compileOrderBy, compileItem, hasIdItem, hlabel, hkey, bind, Except.bind, pure,
          Except.pure]
  · rw [orderByWith_items [] (by rw [hnothing]; rfl) (by rw [hnothing, hone]; rfl), hone]
    exact ⟨_, rfl, L.idColumn.key, by simp, hid⟩

/-- What gives keys can be sorted by. -/
theorem sortable_of_ok {keys : List (SortKey ρ)}
    (h : L.orderByWith orderBy descending = .ok keys) :
    L.Sortable descending (chosen L.tables orderBy descending L.mapColumns).1 := by
  have hitems := chosen_items L orderBy descending
  cases hfound : (chosen L.tables orderBy descending L.mapColumns).1 with
  | column c => trivial
  | nothing => trivial
  | text s =>
    have hnone := hitems.resolve_right fun ⟨hnothing, _⟩ => by
      rw [hfound] at hnothing
      cases hnothing
    rw [orderByWith_items [.text (if descending then s ++ " desc" else s)]
      (by rw [hfound]; rfl) (by rw [hfound]; rfl), hnone] at h
    show (L.labels _).isSome = true
    generalize (if descending then s ++ " desc" else s) = label at h ⊢
    cases hkey : L.labels label with
    | some key => rfl
    | none =>
      by_cases hlabel : label = "id" <;>
        simp [compileOrderBy, compileItem, hasIdItem, hlabel, hkey, bind, Except.bind] at h
      subst hlabel
      rw [hkey] at h
      cases h
  | object =>
    have hnone := hitems.resolve_right fun ⟨hnothing, _⟩ => by
      rw [hfound] at hnothing
      cases hnothing
    cases descending with
    | true =>
      unfold orderByWith getOrderBy at h
      simp [tables_nonempty, hfound, isNothing, orderItems, bind, Except.bind] at h
    | false =>
      rw [orderByWith_items [.object] (by rw [hfound]; rfl) (by rw [hfound]; rfl),
        hnone] at h
      simp [compileOrderBy, compileItem, hasIdItem, bind, Except.bind] at h

/-- The pages are right whenever they can be had. -/
theorem pagesPartition_iff_sortable {pageSize : Nat} :
    L.PagesPartition orderBy descending pageSize ↔
      L.Sortable descending (chosen L.tables orderBy descending L.mapColumns).1 := by
  constructor
  · rintro ⟨keys, hkeys, -⟩
    exact sortable_of_ok hkeys
  · intro h
    obtain ⟨keys, hkeys, key, hkey, hseparates⟩ := orderByWith_sortable h
    refine ⟨keys, hkeys, fun page => ?_, fun results hresults => ⟨fun page => (hresults page).2, ?_⟩⟩
    · obtain ⟨rows, hrows⟩ :=
        (SortKey.lex keys).exists_slice L.rows (page * pageSize) pageSize
      exact ⟨(rows, L.rows.length), hrows, rfl⟩
    · intro m hm
      exact SortKey.pages_partition (hseparates.lex hkey) (fun page => (hresults page).1) hm

end Listing

end NewlifeCore.Database.Orm
