import NewlifeCore.Txn.Program

/-!
# Tables of a database state

A `Table` is one list of named rows inside a database state.  INSERT, UPDATE and DELETE are the
three changes a table allows; each computes the rows it matches from the view it is issued in,
locks exactly those, and touches no other row of any table.

An UPDATE or DELETE tests its WHERE clause again on the row version it finds when it is applied,
as PostgreSQL does for a row it had to wait for.
-/

namespace NewlifeCore.Txn

/-- **A table**: its rows inside the state and their names, with the promise that a row of the
state depends on the table only through the rows of that name. -/
structure Table (σ ρ α : Type) [RowStore σ ρ] [DecidableEq ρ] where
  get : σ → List α
  set : σ → List α → σ
  name : α → ρ
  frame : ∀ db l x,
    l.filter (fun r => name r = x) = (get db).filter (fun r => name r = x) →
      RowStore.row (set db l) x = RowStore.row db x

namespace Table

variable {σ ρ α : Type} [RowStore σ ρ] [DecidableEq ρ] (T : Table σ ρ α)

/-! ## 1. The three changes -/

/-- The names of the rows a WHERE clause matches. -/
def matching (p : α → Bool) (view : σ) : List ρ := ((T.get view).filter p).map T.name

/-- `INSERT INTO T VALUES new`. -/
def insert (new : List α) : Change σ ρ where
  rows := new.map T.name
  apply db := T.set db (T.get db ++ new)
  frame db x hx := by
    refine T.frame db _ x ?_
    have : new.filter (fun r => T.name r = x) = [] := by
      rw [List.filter_eq_nil_iff]
      intro r hr h
      exact hx (List.mem_map.mpr ⟨r, hr, of_decide_eq_true h⟩)
    rw [List.filter_append, this, List.append_nil]

/-- Rewriting some rows of a list without renaming them leaves the other names alone. -/
theorem filter_name_map {f : α → α} (hf : ∀ r, T.name (f r) = T.name r) (x : ρ) :
    ∀ l : List α, (∀ r ∈ l, T.name r = x → f r = r) →
      (l.map f).filter (fun r => T.name r = x) = l.filter (fun r => T.name r = x)
  | [], _ => rfl
  | r :: l, h => by
    have ih := filter_name_map hf x l fun r hr => h r (List.mem_cons_of_mem _ hr)
    by_cases hr : T.name r = x
    · simp only [List.map_cons, h r (by simp) hr, List.filter_cons, hr, ih]
    · simp [hf r, hr, ih]

/-- `UPDATE T SET f WHERE p`, issued in `view`. -/
def update (p : α → Bool) (f : α → α) (hf : ∀ r, T.name (f r) = T.name r) (view : σ) :
    Change σ ρ where
  rows := T.matching p view
  apply db := T.set db ((T.get db).map fun r =>
    if p r && (T.matching p view).contains (T.name r) then f r else r)
  frame db x hx := by
    refine T.frame db _ x (T.filter_name_map (fun r => ?_) x _ fun r _ hr => ?_)
    · split
      · exact hf r
      · rfl
    · rw [if_neg]
      intro h
      rw [Bool.and_eq_true] at h
      exact hx (by simpa [hr] using h.2)

/-- `DELETE FROM T WHERE p`, issued in `view`. -/
def delete (p : α → Bool) (view : σ) : Change σ ρ where
  rows := T.matching p view
  apply db := T.set db ((T.get db).filter fun r =>
    !(p r && (T.matching p view).contains (T.name r)))
  frame db x hx := by
    refine T.frame db _ x ?_
    rw [List.filter_filter]
    refine List.filter_congr fun r _ => ?_
    by_cases hr : T.name r = x
    · have : T.name r ∉ T.matching p view := hr ▸ hx
      simp [this]
    · simp [hr]

/-- `INSERT INTO T VALUES new ON CONFLICT (name) DO UPDATE SET f`. -/
def upsert (new : α) (f : α → α) (hf : ∀ r, T.name (f r) = T.name r) : Change σ ρ where
  rows := [T.name new]
  apply db := T.set db (if (T.get db).any fun r => T.name r = T.name new then
    (T.get db).map fun r => if T.name r = T.name new then f r else r else T.get db ++ [new])
  frame db x hx := by
    have hne : T.name new ≠ x := fun h => hx (by rw [h]; exact List.mem_singleton_self x)
    refine T.frame db _ x ?_
    split
    · refine T.filter_name_map (fun r => ?_) x _ fun r _ hr => ?_
      · split
        · exact hf r
        · rfl
      · rw [if_neg]
        intro h
        exact hne (h.symm.trans hr)
    · rw [List.filter_append]
      simp [hne]

/-! ## 2. Changes applied where they were issued -/

theorem mem_matching {p : α → Bool} {view : σ} {r : α} (hr : r ∈ T.get view) (hp : p r = true) :
    T.name r ∈ T.matching p view :=
  List.mem_map.mpr ⟨r, List.mem_filter.mpr ⟨hr, hp⟩, rfl⟩

/-- Issued and applied in one state, an UPDATE rewrites the rows its clause matches. -/
theorem update_self {p : α → Bool} {f : α → α} {hf : ∀ r, T.name (f r) = T.name r} {db : σ} :
    (T.update p f hf db).apply db = T.set db ((T.get db).map fun r => if p r then f r else r) := by
  refine congrArg (T.set db) (List.map_congr_left fun r hr => ?_)
  cases hp : p r with
  | false => simp
  | true => simp [T.mem_matching hr hp]

/-- Issued and applied in one state, a DELETE keeps the rows its clause does not match. -/
theorem delete_self {p : α → Bool} {db : σ} :
    (T.delete p db).apply db = T.set db ((T.get db).filter fun r => !p r) := by
  refine congrArg (T.set db) (List.filter_congr fun r hr => ?_)
  cases hp : p r with
  | false => simp
  | true => simp [T.mem_matching hr hp]

/-- An upsert that finds its row. -/
theorem upsert_found (new : α) (f : α → α) {hf : ∀ r, T.name (f r) = T.name r} {db : σ}
    (h : ((T.get db).any fun r => T.name r = T.name new) = true) :
    (T.upsert new f hf).apply db =
      T.set db ((T.get db).map fun r => if T.name r = T.name new then f r else r) :=
  congrArg (T.set db) (if_pos h)

/-- An upsert that does not. -/
theorem upsert_new (new : α) (f : α → α) {hf : ∀ r, T.name (f r) = T.name r} {db : σ}
    (h : ¬ ((T.get db).any fun r => T.name r = T.name new) = true) :
    (T.upsert new f hf).apply db = T.set db (T.get db ++ [new]) :=
  congrArg (T.set db) (if_neg h)

section Upserted

variable {new : α} {f : α → α} {l : List α}

/-- The rows that an upsert leaves. -/
def upserted (new : α) (f : α → α) (l : List α) : List α :=
  if l.any fun r => T.name r = T.name new then
    l.map fun r => if T.name r = T.name new then f r else r
  else l ++ [new]

theorem upsert_apply (new : α) (f : α → α) {hf : ∀ r, T.name (f r) = T.name r} (db : σ) :
    (T.upsert new f hf).apply db = T.set db (T.upserted new f (T.get db)) := rfl

theorem exists_upserted (new : α) (f : α → α) (hf : ∀ r, T.name (f r) = T.name r) (l : List α) :
    ∃ r ∈ T.upserted new f l, T.name r = T.name new := by
  unfold upserted
  split
  · rename_i hany
    obtain ⟨r, hr, hname⟩ := List.any_eq_true.mp hany
    have hname := of_decide_eq_true hname
    exact ⟨f r, List.mem_map.mpr ⟨r, hr, if_pos hname⟩, (hf r).trans hname⟩
  · exact ⟨new, by simp, rfl⟩

/-- An upsert brings no row of another name. -/
theorem name_upserted (hf : ∀ r, T.name (f r) = T.name r) {r : α} (hr : r ∈ T.upserted new f l) :
    (∃ r₀ ∈ l, T.name r₀ = T.name r) ∨ T.name r = T.name new := by
  unfold upserted at hr
  split at hr
  · obtain ⟨r₀, hr₀, rfl⟩ := List.mem_map.mp hr
    refine .inl ⟨r₀, hr₀, ?_⟩
    split
    · exact (hf r₀).symm
    · rfl
  · rcases List.mem_append.mp hr with hr | hr
    · exact .inl ⟨r, hr, rfl⟩
    · exact .inr (congrArg T.name (List.mem_singleton.mp hr))

/-- An upsert leaves alone what is not about its row. -/
theorem filter_upserted {p : α → Bool} (hp : ∀ r, T.name r = T.name new → p r = false)
    (hf : ∀ r, T.name (f r) = T.name r) : (T.upserted new f l).filter p = l.filter p := by
  unfold upserted
  split
  · clear * - hp hf
    induction l with
    | nil => rfl
    | cons r l ih =>
      rw [List.map_cons, List.filter_cons, List.filter_cons, ih]
      split
      · rename_i hname
        rw [hp r hname, hp (f r) ((hf r).trans hname), if_neg nofun, if_neg nofun]
      · rfl
  · rw [List.filter_append, List.filter_singleton, hp new rfl]
    simp

end Upserted

end Table

end NewlifeCore.Txn
