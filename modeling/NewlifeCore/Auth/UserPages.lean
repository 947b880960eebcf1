import NewlifeCore.Database.ListPages
import NewlifeCore.Database.Values

/-!
# User pages

`UserRepository.get_user_pages` as a listing: accounts with their profiles, filtered, and sorted by
whatever name the caller sends.  What a database decides for itself (how it orders values and
matches patterns, which column a label means) is `Engine`.
-/

namespace NewlifeCore.Auth

open Database Database.Orm

/-! ## 1. Rows -/

/-- A row of a table, by column. -/
abbrev Record := String → Value

/-- A row of `auth.user` joined with its row of `auth.user_profile`. -/
structure UserPage where
  user : Record
  profile : Record

/-- The two tables; the keys are unique. -/
structure UserTables where
  users : List Record
  profiles : List Record
  users_uuid : ∀ u ∈ users, ∃ n, u "id" = .uuid n
  profiles_uuid : ∀ p ∈ profiles, ∃ n, p "id" = .uuid n
  users_nodup : (users.map (· "id")).Nodup
  profiles_nodup : (profiles.map (· "id")).Nodup
  owners_nodup : (profiles.map (· "user_id")).Nodup

/-- `select(AuthUser, AuthUserProfile).join(AuthUserProfile, AuthUser.id ==
AuthUserProfile.user_id)`. -/
def UserTables.joined (T : UserTables) : List UserPage :=
  T.users.flatMap fun u => (T.profiles.filter fun p => p "user_id" = u "id").map (⟨u, ·⟩)

/-- **What the database and the libraries decide.**  UUIDs are told apart, a label `id` is the id of
one of the two tables, and the classes have no `sequence` from elsewhere. -/
structure Engine where
  order : SortKey Value
  ilike : String → String → Bool
  labels : String → Option (UserPage → Value)
  inherited : String → Option (Attribute UserPage)
  uuid_apart : ∀ m n, order.le (.uuid m) (.uuid n) → order.le (.uuid n) (.uuid m) → m = n
  label_id : ∀ column, labels "id" = some column →
    column = (fun row => row.user "id") ∨ column = fun row => row.profile "id"
  inherited_sequence : inherited "sequence" = none

namespace Engine

variable (E : Engine)

/-- The rows by the value of a column. -/
def sorted (column : UserPage → Value) : SortKey UserPage where
  le a b := E.order.le (column a) (column b)
  total _ _ := E.order.total _ _
  trans h h' := E.order.trans h h'

def column (column : UserPage → Value) : Column UserPage :=
  ⟨E.sorted column, fun row => column row = .none⟩

end Engine

/-! ## 2. Classes -/

/-- The columns that every class has, with those of `AuditMixin`. -/
def auditColumns : List String :=
  ["id", "created_at", "created_by", "created_by_id", "updated_at", "updated_by", "updated_by_id"]

def userColumns : List String :=
  auditColumns ++ ["email", "phone_number", "password_hash", "salt", "verified", "is_active",
    "is_superuser", "is_admin", "person_id", "account_kind", "password_changed_at",
    "password_expires_at", "last_login_at", "remark", "delete_reason", "is_deleted"]

def profileColumns : List String :=
  auditColumns ++ ["user_id", "first_name", "last_name", "title", "gender", "preferred_name",
    "preferred_locale_id", "description"]

/-- What is not a column of `AuthUser`: `roles` is a relationship, and the class has the attributes
of `Base` and of any class. -/
def AuthUser.mapped (E : Engine) : MappedClass UserPage where
  getattr name :=
    if name ∈ userColumns then some (.column (E.column fun row => row.user name))
    else match name with
    | "roles" | "metadata" | "__table_args__" => some .object
    | "__tablename__" => some (.text "user")
    | _ => E.inherited name

def AuthUserProfile.mapped (E : Engine) : MappedClass UserPage where
  getattr name :=
    if name ∈ profileColumns then some (.column (E.column fun row => row.profile name))
    else match name with
    | "metadata" | "__table_args__" => some .object
    | "__tablename__" => some (.text "user_profile")
    | _ => E.inherited name

/-! ## 3. `get_user_pages` -/

inductive Gender
  | unknown
  | male
  | female

def Gender.value : Gender → Int
  | .unknown => 0
  | .male => 1
  | .female => 2

/-- `AdminUserPagesQueryCommand`. -/
structure AdminUserPagesQueryCommand where
  page : Nat := 0
  pageSize : Nat := 10
  orderBy : Option String := none
  descending : Bool := false
  deleted : Bool := false
  keyword : Option String := none
  verified : Option Bool := none
  isActive : Option Bool := none
  isSuperuser : Option Bool := none
  isAdmin : Option Bool := none
  gender : Option Gender := none

/-- `column.ilike(f"%{keyword}%")`, which is not true of a null. -/
def Engine.contains (E : Engine) (keyword : String) : Value → Bool
  | .str s => E.ilike s ("%" ++ keyword ++ "%")
  | _ => false

/-- A column equals a value, if one is given. -/
def isGiven {α : Type} (given : Option α) (value : α → Value) (stored : Value) : Bool :=
  given.all fun a => stored = value a

/-- The `WHERE` of `get_user_pages`. -/
def AdminUserPagesQueryCommand.selects (model : AdminUserPagesQueryCommand) (E : Engine)
    (row : UserPage) : Bool :=
  row.user "is_deleted" = .bool model.deleted &&
    ((model.keyword.filter fun keyword => keyword ≠ "").all fun keyword =>
      E.contains keyword (row.user "phone_number") || E.contains keyword (row.user "email") ||
        E.contains keyword (row.profile "first_name") ||
        E.contains keyword (row.profile "last_name") ||
        E.contains keyword (row.profile "preferred_name")) &&
    isGiven model.verified .bool (row.user "verified") &&
    isGiven model.isActive .bool (row.user "is_active") &&
    isGiven model.isAdmin .bool (row.user "is_admin") &&
    isGiven model.isSuperuser .bool (row.user "is_superuser") &&
    isGiven model.gender (fun gender => .int gender.value) (row.profile "gender")

variable {E : Engine} {T : UserTables}

/-- Rows of the join with one account are one. -/
theorem UserTables.joined_user {a b : UserPage} (ha : a ∈ T.joined) (hb : b ∈ T.joined)
    (h : a.user "id" = b.user "id") : a = b := by
  obtain ⟨u, hu, ha⟩ := List.mem_flatMap.mp ha
  obtain ⟨v, hv, hb⟩ := List.mem_flatMap.mp hb
  obtain ⟨p, hp, rfl⟩ := List.mem_map.mp ha
  obtain ⟨q, hq, rfl⟩ := List.mem_map.mp hb
  obtain rfl : u = v := List.inj_on_of_nodup_map T.users_nodup hu hv h
  have hpu : p "user_id" = u "id" := of_decide_eq_true (List.mem_filter.mp hp).2
  have hqu : q "user_id" = u "id" := of_decide_eq_true (List.mem_filter.mp hq).2
  obtain rfl : p = q :=
    List.inj_on_of_nodup_map T.owners_nodup (List.mem_filter.mp hp).1 (List.mem_filter.mp hq).1
      (hpu.trans hqu.symm)
  rfl

/-- Rows of the join with one profile are one. -/
theorem UserTables.joined_profile {a b : UserPage} (ha : a ∈ T.joined) (hb : b ∈ T.joined)
    (h : a.profile "id" = b.profile "id") : a = b := by
  refine T.joined_user ha hb ?_
  obtain ⟨u, -, ha⟩ := List.mem_flatMap.mp ha
  obtain ⟨v, -, hb⟩ := List.mem_flatMap.mp hb
  obtain ⟨p, hp, rfl⟩ := List.mem_map.mp ha
  obtain ⟨q, hq, rfl⟩ := List.mem_map.mp hb
  obtain ⟨hp, hpu⟩ := List.mem_filter.mp hp
  obtain ⟨hq, hqv⟩ := List.mem_filter.mp hq
  obtain rfl : p = q := List.inj_on_of_nodup_map T.profiles_nodup hp hq h
  exact (of_decide_eq_true hpu).symm.trans (of_decide_eq_true hqv)

/-- A column that holds a UUID in every row, another in each, tells the rows apart. -/
theorem Engine.separates {column : UserPage → Value} {rows : List UserPage}
    (huuid : ∀ a ∈ rows, ∃ n, column a = .uuid n)
    (hone : ∀ a ∈ rows, ∀ b ∈ rows, column a = column b → a = b) :
    (E.sorted column).Separates rows := by
  intro a ha b hb hab hba
  obtain ⟨m, hm⟩ := huuid a ha
  obtain ⟨n, hn⟩ := huuid b hb
  simp only [Engine.sorted, hm, hn] at hab hba
  refine hone a ha b hb ?_
  rw [hm, hn, E.uuid_apart m n hab hba]

theorem UserTables.sorted_user_separates (T : UserTables) (model : AdminUserPagesQueryCommand) :
    (E.sorted fun row => row.user "id").Separates (T.joined.filter (model.selects E)) := by
  refine Engine.separates (fun a ha => ?_) fun a ha b hb =>
    T.joined_user (List.mem_filter.mp ha).1 (List.mem_filter.mp hb).1
  obtain ⟨u, hu, ha⟩ := List.mem_flatMap.mp (List.mem_filter.mp ha).1
  obtain ⟨p, -, rfl⟩ := List.mem_map.mp ha
  exact T.users_uuid u hu

theorem UserTables.sorted_profile_separates (T : UserTables)
    (model : AdminUserPagesQueryCommand) :
    (E.sorted fun row => row.profile "id").Separates (T.joined.filter (model.selects E)) := by
  refine Engine.separates (fun a ha => ?_) fun a ha b hb =>
    T.joined_profile (List.mem_filter.mp ha).1 (List.mem_filter.mp hb).1
  obtain ⟨u, -, ha⟩ := List.mem_flatMap.mp (List.mem_filter.mp ha).1
  obtain ⟨p, hp, rfl⟩ := List.mem_map.mp ha
  exact T.profiles_uuid p (List.mem_filter.mp hp).1

/-- **`get_user_pages`**, up to `order_by_with`, `limit`, `offset` and `fetchpages`. -/
def UserRepository.getUserPages (E : Engine) (T : UserTables)
    (model : AdminUserPagesQueryCommand) : Listing UserPage where
  tables := [AuthUser.mapped E, AuthUserProfile.mapped E]
  labels name := (E.labels name).map E.sorted
  rows := T.joined.filter (model.selects E)
  first := AuthUser.mapped E
  idColumn := E.column fun row => row.user "id"
  defaultColumn := E.column fun row => row.user "created_at"
  tables_first := rfl
  id_first := rfl
  default_first := .inr ⟨E.inherited_sequence, rfl⟩
  separates := T.sorted_user_separates model
  label_id key hkey := by
    obtain ⟨column, hcolumn, rfl⟩ := Option.map_eq_some_iff.mp hkey
    rcases E.label_id column hcolumn with rfl | rfl
    · exact T.sorted_user_separates model
    · exact T.sorted_profile_separates model

namespace UserRepository

variable {model : AdminUserPagesQueryCommand}

/-- The columns of an account sort the list, and so does no name. -/
theorem getUserPages_partition
    (h : ∀ name, model.orderBy = some name → name ≠ "" → name ∈ userColumns) :
    (getUserPages E T model).PagesPartition model.orderBy model.descending model.pageSize := by
  rw [Listing.pagesPartition_iff_sortable, Listing.sortable_chosen_iff]
  intro name a horder hne _ ha
  have hcolumn : attributeOf (getUserPages E T model).tables name =
      some (.column (E.column fun row => row.user name)) := by
    simp [attributeOf, getUserPages, AuthUser.mapped, h name horder hne]
  rw [hcolumn] at ha
  cases ha
  trivial

/-- The relationship and the objects of `Base` do not. -/
theorem getUserPages_fails {name : String} (h : name ∈ ["roles", "metadata", "__table_args__"])
    (horder : model.orderBy = some name) :
    ¬ (getUserPages E T model).PagesPartition model.orderBy model.descending model.pageSize := by
  rw [Listing.pagesPartition_iff_sortable, Listing.sortable_chosen_iff]
  intro hsorts
  refine hsorts name .object horder ?_ rfl ?_
  · rintro rfl
    exact absurd h (by decide)
  · simp only [List.mem_cons, List.not_mem_nil, or_false] at h
    rcases h with rfl | rfl | rfl <;> rfl

end UserRepository

/-! ## 4. A list that cannot be had -/

/-- A database that orders UUIDs by their number and has no patterns. -/
def plainEngine : Engine where
  order :=
    let rank : Value → Nat
      | .uuid n => n
      | _ => 0
    { le := fun a b => rank a ≤ rank b
      total := fun _ _ => Nat.le_total _ _
      trans := Nat.le_trans }
  ilike _ _ := false
  labels _ := none
  inherited _ := none
  uuid_apart _ _ := Nat.le_antisymm
  label_id _ h := nomatch h
  inherited_sequence := rfl

/-- One account, with its profile. -/
def oneAccount : UserTables where
  users := [fun name => if name = "id" then .uuid 1 else if name = "is_deleted" then .bool false
    else .none]
  profiles := [fun name => if name = "id" then .uuid 2 else if name = "user_id" then .uuid 1
    else .none]
  users_uuid := by simp
  profiles_uuid := by simp
  users_nodup := by simp
  profiles_nodup := by simp
  owners_nodup := by simp

end NewlifeCore.Auth
