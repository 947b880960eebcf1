import NewlifeCore.Grouping

/-!
# A store of sets and hashes that expire

The commands of a key-value store on sets and hashes, at a time.  An entry that reached its expiry
is not there.  `HSET` lays new fields over those it finds, so a hash is replaced only where every
field found is written again.
-/

namespace NewlifeCore

variable {κ : Type} [DecidableEq κ]

/-! ## 1. Commands -/

/-- What a field of a hash has. -/
abbrev Fields := String → Option String

/-- The fields written, and those found that are not written. -/
def Fields.over (new old : Fields) : Fields := fun field => (new field).or (old field)

inductive StoreValue
  | set (members : List String)
  | hash (fields : Fields)

structure StoreEntry where
  value : StoreValue
  expireAt : Option Int := none

/-- What is stored under each key. -/
def HashStore (κ : Type) := κ → Option StoreEntry

namespace HashStore

def empty : HashStore κ := fun _ => none

variable (s : HashStore κ) (t : Int)

omit [DecidableEq κ] in
/-- The entry under a key, unless it has expired. -/
def entry (key : κ) : Option StoreEntry := (s key).filter fun e => e.expireAt.all fun x => t < x

def put (key : κ) (e : Option StoreEntry) : HashStore κ := fun k => if k = key then e else s k

omit [DecidableEq κ] in
def smembers (key : κ) : List String :=
  match s.entry t key with
  | some ⟨.set members, _⟩ => members
  | _ => []

omit [DecidableEq κ] in
/-- The fields of a hash; none when there is none. -/
def hgetall (key : κ) : Option Fields :=
  match s.entry t key with
  | some ⟨.hash fields, _⟩ => some fields
  | _ => none

def sadd (key : κ) (members : List String) : HashStore κ :=
  s.put key (some ⟨.set (members.foldl Groups.addNew (s.smembers t key)),
    (s.entry t key).bind StoreEntry.expireAt⟩)

def hset (key : κ) (fields : Fields) : HashStore κ :=
  s.put key (some ⟨.hash (((s.hgetall t key).map fields.over).getD fields),
    (s.entry t key).bind StoreEntry.expireAt⟩)

/-- The entry lasts for some more time. -/
def expire (key : κ) (lasts : Int) : HashStore κ :=
  s.put key ((s.entry t key).map fun e => { e with expireAt := some (t + lasts) })

def delete (keys : List κ) : HashStore κ := fun k => if k ∈ keys then none else s k

/-! ## 2. What is found afterwards -/

variable {s t} {key key' : κ} {fields new : Fields}

@[simp] theorem put_self (e : Option StoreEntry) : s.put key e key = e := if_pos rfl

theorem put_other (e : Option StoreEntry) (h : key' ≠ key) : s.put key e key' = s key' := if_neg h

omit [DecidableEq κ] in
theorem hgetall_some (h : s.hgetall t key = some fields) :
    ∃ expireAt, s.entry t key = some ⟨.hash fields, expireAt⟩ := by
  unfold hgetall at h
  split at h
  · obtain rfl := Option.some.inj h
    exact ⟨_, ‹_›⟩
  · cases h

omit [DecidableEq κ] in
theorem hgetall_of_entry (expireAt : Option Int)
    (h : s.entry t key = some ⟨.hash fields, expireAt⟩) : s.hgetall t key = some fields := by
  unfold hgetall
  rw [h]

omit [DecidableEq κ] in
/-- Two stores that have the same under a key are read alike. -/
theorem hgetall_congr {s' : HashStore κ} (h : s' key = s key) :
    s'.hgetall t key = s.hgetall t key := by
  unfold hgetall entry
  rw [h]

/-- A hash found where an entry was put is that entry's. -/
theorem hgetall_put_self {e : Option StoreEntry} (h : (s.put key e).hgetall t key = some fields) :
    ∃ expireAt, e = some ⟨.hash fields, expireAt⟩ := by
  obtain ⟨expireAt, he⟩ := hgetall_some h
  exact ⟨expireAt, (put_self e).symm.trans (Option.filter_eq_some_iff.mp he).1⟩

theorem hgetall_put_other (e : Option StoreEntry) (h : key' ≠ key) :
    (s.put key e).hgetall t key' = s.hgetall t key' := hgetall_congr (put_other e h)

omit [DecidableEq κ] in
/-- **What is found later is found now.** -/
theorem hgetall_later {t' : Int} (ht : t ≤ t') (h : s.hgetall t' key = some fields) :
    s.hgetall t key = some fields := by
  obtain ⟨expireAt, he⟩ := hgetall_some h
  obtain ⟨hkey, halive⟩ := Option.filter_eq_some_iff.mp he
  refine hgetall_of_entry expireAt (Option.filter_eq_some_iff.mpr ⟨hkey, ?_⟩)
  cases expireAt with
  | none => rfl
  | some x => exact decide_eq_true (Int.lt_of_le_of_lt ht (of_decide_eq_true halive))

/-- **What is found after an `HSET`** lies over what was found before. -/
theorem hgetall_hset_self : (s.hset t key new).hgetall t key =
    some (((s.hgetall t key).map new.over).getD new) := by
  refine hgetall_of_entry ((s.entry t key).bind StoreEntry.expireAt) ?_
  unfold hset
  rw [entry, put_self]
  refine Option.filter_eq_some_iff.mpr ⟨rfl, ?_⟩
  cases he : s.entry t key with
  | none => rfl
  | some e => exact (Option.filter_eq_some_iff.mp he).2

theorem hgetall_hset_other (h : key' ≠ key) :
    (s.hset t key new).hgetall t key' = s.hgetall t key' := hgetall_put_other _ h

/-! ## 3. Commands that bring no hash -/

/-- A command after which no hash is found that was not found before. -/
def Quiet (c : HashStore κ → Int → HashStore κ) : Prop :=
  ∀ s t key fields, (c s t).hgetall t key = some fields → s.hgetall t key = some fields

omit [DecidableEq κ] in
theorem Quiet.read : Quiet fun (s : HashStore κ) _ => s := fun _ _ _ _ h => h

theorem Quiet.sadd (key : κ) (members : List String) :
    Quiet fun s t => s.sadd t key members := by
  intro s t k fields h
  by_cases hk : k = key
  · subst hk
    obtain ⟨expireAt, he⟩ := hgetall_put_self h
    cases he
  · exact (hgetall_put_other _ hk).symm.trans h

theorem Quiet.expire (key : κ) (lasts : Int) : Quiet fun s t => s.expire t key lasts := by
  intro s t k fields h
  by_cases hk : k = key
  · subst hk
    obtain ⟨expireAt, he⟩ := hgetall_put_self h
    obtain ⟨⟨value, expires⟩, hentry, heq⟩ := Option.map_eq_some_iff.mp he
    obtain ⟨rfl, -⟩ := StoreEntry.mk.inj heq
    exact hgetall_of_entry expires hentry
  · exact (hgetall_put_other _ hk).symm.trans h

theorem Quiet.delete (keys : List κ) : Quiet fun s _ => s.delete keys := by
  intro s t k fields h
  by_cases hk : k ∈ keys
  · obtain ⟨expireAt, he⟩ := hgetall_some h
    have hgone : s.delete keys k = none := if_pos hk
    cases hgone.symm.trans (Option.filter_eq_some_iff.mp he).1
  · have hsame : s.delete keys k = s k := if_neg hk
    exact (hgetall_congr hsame).symm.trans h

end HashStore

end NewlifeCore
