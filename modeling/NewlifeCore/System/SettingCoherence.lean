import NewlifeCore.Facility.Calls
import NewlifeCore.System.Settings

/-!
# The setting cache beside a writer

One request updates, deletes or restores a setting while any number of readers ask for it.  The
writer invalidates the cache before its commit, so a reader may fill it again with the row the
commit is about to replace; what goes wrong is exactly such a fill.

* §1 and §2: a writer only deletes from the cache (`Deletes`), so that what it writes does not
  depend on what others put there; and when it returns, either the key has been deleted from the
  cache or the setting's row is what it was (`Settles`, method by method up to
  `SettingCall.body_settles`).
* §3 is the invariant of the runs, `SettingInv`.  Of each reader it keeps where it is and what it
  last read (`ReaderAt`); of the writer, that its rest *run alone from here* leaves a coherent cache
  (`WriterOk`).  The others' steps do not disturb that (`WriterOk.others`), unless one puts an entry
  into the cache after the writer's last deletion of it; then the entry has to be of the row that
  the writer leaves, which is `FillsFresh`.  `SettingInv.step` is one step of anyone.
* §3.3: from the writer's end on the cache is coherent with the table.  A reader that begins then
  holds, or returns, what is stored (`LateAt`), whatever readers of before still put there, for
  these are under the condition too.
-/

namespace NewlifeCore.System

open Txn

variable {env : Env} {key : FacilitySettingKey}

/-! ## 1. Requests that only delete from the cache -/

/-- A request whose statements do not ask for the time, and whose commands are deletions. -/
def Deletes {α : Type} : SettingScript α → Prop
  | .ret _ => True
  | .raise _ => True
  | .read q k => (∀ db t t', q db t = q db t') ∧ ∀ b, Deletes (k b)
  | .clock _ => False
  | .write _ k => ∀ n, Deletes (k n)
  | .command c k => (∃ key, ∀ store t, (c store t).1 = store.delete key) ∧
      (∀ store t store' t', (c store t).2 = (c store' t').2) ∧ ∀ b, Deletes (k b)
  | .commit _ => False

namespace Deletes

variable {α β : Type}

theorem ret (a : α) : Deletes (.ret a) := trivial

theorem bind {f : α → SettingScript β} (hf : ∀ a, Deletes (f a)) :
    ∀ {p : SettingScript α}, Deletes p → Deletes (p.bind f)
  | .ret a, _ => hf a
  | .raise _, _ => trivial
  | .read _ _, hp => ⟨hp.1, fun b => bind hf (hp.2 b)⟩
  | .write _ _, hp => fun n => bind hf (hp n)
  | .command _ _, hp => ⟨hp.1, hp.2.1, fun b => bind hf (hp.2.2 b)⟩

theorem select (q : Db → β) : Deletes (Script.query (Prog.select fun db _ => q db)) :=
  ⟨fun _ _ _ => rfl, fun _ => trivial⟩

theorem executeCount (stmt : Db → Except SystemError (Change Db RowName)) :
    Deletes (Script.query (Prog.executeCount stmt)) := fun _ => trivial

theorem invalidate (ns settingKey : String) : Deletes (SettingCache.invalidate ns settingKey) :=
  ⟨⟨_, fun _ _ => rfl⟩, fun _ _ _ _ => rfl, fun _ => trivial⟩

theorem raiseIf (c : Bool) (e : SystemError) : Deletes (Script.raiseIf c e : SettingScript Unit) := by
  cases c <;> trivial

theorem ofExcept : ∀ x : Except SystemError α, Deletes (SettingService.ofExcept x)
  | .ok _ => trivial
  | .error _ => trivial

theorem require (row : Option SystemSetting) : Deletes (SettingService.require row) := by
  cases row <;> trivial

theorem each {f : α → SettingScript Unit} (hf : ∀ a, Deletes (f a)) :
    ∀ xs, Deletes (Script.each xs f)
  | [] => trivial
  | x :: xs => bind (fun _ => each hf xs) (hf x)

/-- **Its result, and what it writes, do not depend on the cache**; and a key is either deleted,
whatever is stored under it, or left as it is. -/
theorem exec (k : String) : ∀ {p : SettingScript α}, Deletes p → ∀ work db : Db,
    ∃ r work', (∀ store t, (p.exec ⟨work, db, store⟩ t).1 = r ∧
        (p.exec ⟨work, db, store⟩ t).2.work = work' ∧ (p.exec ⟨work, db, store⟩ t).2.db = db) ∧
      ((∀ store t, (p.exec ⟨work, db, store⟩ t).2.store k = none) ∨
        ∀ store t, (p.exec ⟨work, db, store⟩ t).2.store k = store k)
  | .ret a, _, work, db => ⟨.ok a, work, fun _ _ => ⟨rfl, rfl, rfl⟩, .inr fun _ _ => rfl⟩
  | .raise e, _, work, db => ⟨.error e, work, fun _ _ => ⟨rfl, rfl, rfl⟩, .inr fun _ _ => rfl⟩
  | .read q f, hp, work, db => by
    obtain ⟨r, work', hrun, hkey⟩ := exec k (hp.2 (q work 0)) work db
    have hq : ∀ t, q work t = q work 0 := fun t => hp.1 work t 0
    refine ⟨r, work', fun store t => ?_, hkey.imp (fun h store t => ?_) fun h store t => ?_⟩
    all_goals simp only [Script.exec, hq t]
    · exact hrun store t
    · exact h store t
    · exact h store t
  | .write stmt f, hp, work, db => by
    cases hs : stmt work with
    | error e =>
      refine ⟨.error e, work, fun store t => ?_, .inr fun store t => ?_⟩
      all_goals simp only [Script.exec, hs, and_self]
    | ok c =>
      obtain ⟨r, work', hrun, hkey⟩ := exec k (hp c.rows.length) (c.apply work) db
      refine ⟨r, work', fun store t => ?_, hkey.imp (fun h store t => ?_) fun h store t => ?_⟩
      all_goals simp only [Script.exec, hs]
      · exact hrun store t
      · exact h store t
      · exact h store t
  | .command c f, hp, work, db => by
    obtain ⟨⟨deleted, hdel⟩, hsame, hrest⟩ := hp
    have hc : ∀ store t, (c store t).2 = (c (fun _ => none) 0).2 := fun store t => hsame _ _ _ _
    obtain ⟨r, work', hrun, hkey⟩ := exec k (hrest (c (fun _ => none) 0).2) work db
    refine ⟨r, work', fun store t => ?_, ?_⟩
    · simp only [Script.exec, hc store t, hdel store t]
      exact hrun _ t
    · by_cases hk : deleted = k
      · -- the key is gone here, and the rest cannot bring it back
        refine .inl fun store t => ?_
        simp only [Script.exec, hc store t, hdel store t]
        rcases hkey with h | h
        · exact h _ t
        · rw [h, ← hk]
          exact CacheStore.put_self _ _
      · refine hkey.imp (fun h store t => ?_) fun h store t => ?_
        all_goals simp only [Script.exec, hc store t, hdel store t]
        · exact h _ t
        · rw [h]
          exact CacheStore.put_other _ _ (Ne.symm hk)

end Deletes

/-! ## 2. What a writer leaves -/

/-- The undeleted row of a facility setting. -/
def settingRow (db : Db) (key : FacilitySettingKey) : Option SystemSetting :=
  SettingRepository.findByNamespaceKey db "facility" key.name

/-- Where its value is cached. -/
def FacilitySettingKey.cached (key : FacilitySettingKey) : String := cacheKey "facility" key.name

/-- Every stored value passed the checks that `create_setting` and `update_setting` make. -/
def ValuesChecked (env : Env) (db : Db) : Prop :=
  ∀ r ∈ db.settings, SettingService.validateRowValue env r r.value = .ok ()

/-- The primary key of the table. -/
def Db.Keyed (db : Db) : Prop := (db.settings.map SystemSetting.id).Nodup

theorem find?_map_same {α : Type} {p : α → Bool} {f : α → α} :
    ∀ {l : List α}, (∀ r ∈ l, p (f r) = p r ∧ (p r = true → f r = r)) →
      (l.map f).find? p = l.find? p
  | [], _ => rfl
  | r :: l, h => by
    obtain ⟨hp, hf⟩ := h r List.mem_cons_self
    rw [List.map_cons, List.find?_cons, List.find?_cons, hp]
    cases hr : p r with
    | true => exact congrArg some (hf hr)
    | false => exact find?_map_same fun r' hr' => h r' (List.mem_cons_of_mem _ hr')

theorem find?_filter_same {α : Type} {p q : α → Bool} :
    ∀ {l : List α}, (∀ r ∈ l, p r = true → q r = true) → (l.filter q).find? p = l.find? p
  | [], _ => rfl
  | r :: l, h => by
    have ih := find?_filter_same (q := q) fun r' hr' => h r' (List.mem_cons_of_mem r hr')
    rw [List.filter_cons, List.find?_cons]
    cases hr : p r with
    | true =>
      rw [if_pos (h r List.mem_cons_self hr), List.find?_cons, hr]
    | false =>
      split
      · rw [List.find?_cons, hr, ih]
      · exact ih

/-- A row of a facility setting. -/
def IsRowOf (key : FacilitySettingKey) (r : SystemSetting) : Prop :=
  r.namespace = "facility" ∧ r.settingKey = key.name

theorem IsRowOf.cached {r : SystemSetting} (h : IsRowOf key r) :
    cacheKey r.namespace r.settingKey = key.cached := by
  rw [h.1, h.2, FacilitySettingKey.cached]

/-- Rows rewritten of other settings leave this one. -/
theorem settingRow_map {db : Db} {f : SystemSetting → SystemSetting}
    (hns : ∀ r, (f r).namespace = r.namespace) (hkey : ∀ r, (f r).settingKey = r.settingKey)
    (hf : ∀ r ∈ db.settings, IsRowOf key r → f r = r) :
    settingRow ⟨db.settings.map f⟩ key = settingRow db key := by
  refine find?_map_same fun r hr => ?_
  by_cases hof : IsRowOf key r
  · rw [hf r hr hof]
    exact ⟨rfl, fun _ => rfl⟩
  · have hno : (decide (r.namespace = "facility") && decide (r.settingKey = key.name)) = false := by
      rw [Bool.and_eq_false_iff, decide_eq_false_iff_not, decide_eq_false_iff_not]
      exact not_and_or.mp hof
    rw [hns, hkey, hno]
    exact ⟨rfl, fun h => nomatch h⟩

/-- What is promised of a writer that returned: the key is deleted from the cache, or the setting's
row is as it was. -/
def Settles (env : Env) (key : FacilitySettingKey) (db : Db) (s : Midway Db CacheStore) : Prop :=
  ValuesChecked env s.work ∧ (s.store key.cached = none ∨ settingRow s.work key = settingRow db key)

theorem findById_spec {db : Db} {settingId : UUID} {includeDeleted : Bool} {row : SystemSetting}
    (h : SettingRepository.findById db settingId includeDeleted = some row) :
    row ∈ db.settings ∧ row.id = settingId ∧ (includeDeleted = false → row.isDeleted = false) := by
  have hrow := List.find?_some h
  simp only [Bool.and_eq_true, decide_eq_true_eq, Bool.or_eq_true, Bool.not_eq_true'] at hrow
  exact ⟨List.mem_of_find?_eq_some h, hrow.1, fun hi => hrow.2.resolve_left (by simp [hi])⟩

theorem Db.Keyed.row_eq {db : Db} (hdb : db.Keyed) {a b : SystemSetting} (ha : a ∈ db.settings)
    (hb : b ∈ db.settings) (hid : a.id = b.id) : a = b := List.inj_on_of_nodup_map hdb ha hb hid

section Rules

variable {α β : Type} {t : Int} {P : Midway Db CacheStore → Prop}
  {Q : α → Midway Db CacheStore → Prop} {R : β → Midway Db CacheStore → Prop}

/-- What is required of a request that returns; one that raises leaves no trace in the table. -/
abbrev Returns (t : Int) (P : Midway Db CacheStore → Prop) (p : SettingScript α)
    (Q : α → Midway Db CacheStore → Prop) : Prop := Script.Keeps t P p Q fun _ => True

theorem returns_select {q : Db → β} (h : ∀ s, P s → R (q s.work) s) :
    Returns t P (Script.query (Prog.select fun db _ => q db)) R :=
  Script.Keeps.query (fun s _ _ hs hx => by cases hx; exact h s hs) fun _ _ _ _ => trivial

theorem returns_ofExcept {x : Except SystemError α} (h : ∀ s a, P s → x = .ok a → Q a s) :
    Returns t P (SettingService.ofExcept x) Q := by
  cases x with
  | ok a => exact Script.Keeps.ret fun s hs => h s a hs rfl
  | error e => exact Script.Keeps.raise fun _ _ => trivial

theorem returns_require {row : Option SystemSetting} {R : SystemSetting → Midway Db CacheStore → Prop}
    (h : ∀ s r, P s → row = some r → R r s) : Returns t P (SettingService.require row) R := by
  cases row with
  | some r => exact Script.Keeps.ret fun s hs => h s r hs rfl
  | none => exact Script.Keeps.raise fun _ _ => trivial

theorem returns_raiseIf {c : Bool} {e : SystemError} {R : Unit → Midway Db CacheStore → Prop}
    (h : ∀ s, P s → R () s) : Returns t P (Script.raiseIf c e) R :=
  Script.Keeps.raiseIf (fun _ _ _ => trivial) fun s hs _ => h s hs

theorem returns_update {p : SystemSetting → Bool} {f : SystemSetting → SystemSetting}
    {hf : ∀ r, settingTable.name (f r) = settingTable.name r}
    {R : Nat → Midway Db CacheStore → Prop}
    (h : ∀ s n, P s → R n { s with work := ⟨s.work.settings.map fun r => if p r then f r else r⟩ }) :
    Returns t P (Script.query (Prog.executeCount fun db => .ok (settingTable.update p f hf db))) R := by
  refine Script.Keeps.query (fun s n d hs hx => ?_) fun _ _ _ _ => trivial
  cases hx
  rw [show (settingTable.update p f hf s.work).apply s.work = _ from settingTable.update_self]
  exact h s _ hs

theorem returns_delete {p : SystemSetting → Bool} {R : Nat → Midway Db CacheStore → Prop}
    (h : ∀ s n, P s → R n { s with work := ⟨s.work.settings.filter fun r => !p r⟩ }) :
    Returns t P (Script.query (Prog.executeCount fun db => .ok (settingTable.delete p db))) R := by
  refine Script.Keeps.query (fun s n d hs hx => ?_) fun _ _ _ _ => trivial
  cases hx
  rw [show (settingTable.delete p s.work).apply s.work = _ from settingTable.delete_self]
  exact h s _ hs

theorem returns_invalidate {ns settingKey : String} {R : Unit → Midway Db CacheStore → Prop}
    (h : ∀ s, P s → R () { s with store := s.store.delete (cacheKey ns settingKey) }) :
    Returns t P (SettingCache.invalidate ns settingKey) R := Script.Keeps.tell h

end Rules

/-- Only rows of one row's id were changed, and still have checked values. -/
structure RowWritten (env : Env) (db : Db) (row : SystemSetting) (work : Db) : Prop where
  mem : row ∈ db.settings
  others : ∀ key, ¬ IsRowOf key row → settingRow work key = settingRow db key
  checked : ValuesChecked env work

theorem RowWritten.map {db : Db} (hdb : db.Keyed) {row : SystemSetting} (hrow : row ∈ db.settings)
    {f : SystemSetting → SystemSetting} (hns : ∀ r, (f r).namespace = r.namespace)
    (hkey : ∀ r, (f r).settingKey = r.settingKey) (hf : ∀ r, r.id ≠ row.id → f r = r)
    (hchecked : ValuesChecked env ⟨db.settings.map f⟩) :
    RowWritten env db row ⟨db.settings.map f⟩ := by
  refine ⟨hrow, fun key hof => settingRow_map hns hkey fun r hr hr' => hf r fun hid => hof ?_,
    hchecked⟩
  rwa [← hdb.row_eq hr hrow hid]

/-- The row's key is deleted from the cache. -/
theorem RowWritten.settles {db : Db} {row : SystemSetting} {s : Midway Db CacheStore}
    (h : RowWritten env db row s.work) :
    Settles env key db { s with store := s.store.delete (cacheKey row.namespace row.settingKey) } := by
  refine ⟨h.checked, ?_⟩
  by_cases hof : IsRowOf key row
  · rw [hof.cached]
    exact .inl (CacheStore.put_self _ _)
  · exact .inr (h.others key hof)

theorem updateSetting_settles (settingId : UUID) (command : UpdateSettingCommand) {db : Db}
    (hdb : db.Keyed) (hchecked : ValuesChecked env db) (t : Int) :
    Returns t (fun s => s.work = db) (SettingService.updateSetting env settingId command)
      fun _ s => Settles env key db s := by
  refine .bind (returns_select (R := fun row s => s.work = db ∧
    row = SettingRepository.findById db settingId false) fun s hs => ⟨hs, by rw [hs]⟩) fun found => ?_
  refine .bind (returns_require (R := fun row s => s.work = db ∧ row ∈ db.settings ∧
    row.id = settingId) fun s row hs hrow => ?_) fun row => ?_
  · obtain ⟨hmem, hid, -⟩ := findById_spec (hs.2.symm.trans hrow)
    exact ⟨hs.1, hmem, hid⟩
  refine .bind (returns_ofExcept (Q := fun _ s => (s.work = db ∧ row ∈ db.settings ∧
    row.id = settingId) ∧ SettingService.validateRowValue env row command.value = .ok ())
    fun s _ hs hx => ⟨hs, hx⟩) fun _ => ?_
  refine .bind (returns_update (R := fun _ s => RowWritten env db row s.work) fun s n hs => ?_)
    fun n => ?_
  · obtain ⟨⟨hwork, hmem, hid⟩, hvalid⟩ := hs
    rw [hwork]
    refine .map hdb hmem (fun r => ?_) (fun r => ?_) (fun r hr => ?_) fun r hr => ?_
    · split <;> rfl
    · split <;> rfl
    · rw [if_neg]
      simp [← hid, hr]
    · obtain ⟨r₀, hr₀, rfl⟩ := List.mem_map.mp hr
      split
      · rename_i hc
        simp only [Bool.and_eq_true, decide_eq_true_eq] at hc
        rw [hdb.row_eq hr₀ hmem (hc.1.trans hid.symm)]
        exact hvalid
      · exact hchecked r₀ hr₀
  refine .bind (returns_raiseIf (R := fun _ s => RowWritten env db row s.work) fun s hs => hs)
    fun _ => ?_
  refine .bind (returns_invalidate (R := fun _ s => Settles env key db s) fun s hs => hs.settles)
    fun _ => ?_
  refine .bind (returns_select (R := fun _ s => Settles env key db s) fun s hs => hs) fun found => ?_
  exact returns_require fun s r hs _ => hs

theorem deleteSetting_settles (settingId : UUID) (command : DeleteCommand) {db : Db}
    (hdb : db.Keyed) (hchecked : ValuesChecked env db) (t : Int) :
    Returns t (fun s => s.work = db) (SettingService.deleteSetting settingId command)
      fun _ s => Settles env key db s := by
  refine .bind (returns_select (R := fun row s => s.work = db ∧ row =
    SettingRepository.findById db settingId command.permanent) fun s hs => ⟨hs, by rw [hs]⟩)
    fun found => ?_
  refine .bind (returns_require (R := fun row s => s.work = db ∧ row ∈ db.settings ∧
    row.id = settingId) fun s row hs hrow => ?_) fun row => ?_
  · obtain ⟨hmem, hid, -⟩ := findById_spec (hs.2.symm.trans hrow)
    exact ⟨hs.1, hmem, hid⟩
  refine .bind (returns_raiseIf (R := fun _ s => s.work = db ∧ row ∈ db.settings ∧
    row.id = settingId) fun s hs => hs) fun _ => ?_
  have hdelete : Returns t (fun s => s.work = db ∧ row ∈ db.settings ∧ row.id = settingId)
      (SettingService.deleteRow settingId row command) fun _ s => RowWritten env db row s.work := by
    unfold SettingService.deleteRow
    split
    · refine returns_delete fun s n hs => ?_
      obtain ⟨hwork, hmem, hid⟩ := hs
      rw [hwork]
      refine ⟨hmem, fun key hof => find?_filter_same fun r hr hp => ?_, fun r hr => ?_⟩
      · -- the row found for another setting is not the one deleted
        rw [Bool.not_eq_true', decide_eq_false_iff_not]
        intro hrid
        rw [hdb.row_eq hr hmem (hrid.trans hid.symm)] at hp
        simp only [Bool.and_eq_true, decide_eq_true_eq] at hp
        exact hof hp.1
      · exact hchecked r (List.mem_of_mem_filter hr)
    · split
      · exact .raise fun _ _ => trivial
      · refine returns_update fun s n hs => ?_
        obtain ⟨hwork, hmem, hid⟩ := hs
        rw [hwork]
        refine .map hdb hmem (fun r => ?_) (fun r => ?_) (fun r hr => ?_) fun r hr => ?_
        · split <;> rfl
        · split <;> rfl
        · rw [if_neg]
          simp [← hid, hr]
        · obtain ⟨r₀, hr₀, rfl⟩ := List.mem_map.mp hr
          split <;> exact hchecked r₀ hr₀
  refine .bind hdelete fun n => ?_
  refine .bind (returns_raiseIf (R := fun _ s => RowWritten env db row s.work) fun s hs => hs)
    fun _ => ?_
  exact returns_invalidate fun s hs => hs.settles

/-- The deleted rows of some ids. -/
def deletedOf (db : Db) (ids : List UUID) : List SystemSetting :=
  ids.flatMap fun settingId =>
    ((SettingRepository.findById db settingId true).filter SystemSetting.isDeleted).toList

theorem deletedRows_returns (db : Db) (t : Int) : ∀ ids : List UUID,
    Returns t (fun s => s.work = db) (SettingService.deletedRows ids)
      fun rows s => s.work = db ∧ rows = deletedOf db ids
  | [] => .ret fun _ hs => ⟨hs, rfl⟩
  | settingId :: ids => by
    refine .bind (returns_select (R := fun row s => s.work = db ∧
      row = SettingRepository.findById db settingId true) fun s hs => ⟨hs, by rw [hs]⟩) fun row => ?_
    refine .assume fun hrow => ?_
    refine .bind (deletedRows_returns db t ids) fun rows => .ret fun s hs => ⟨hs.1, ?_⟩
    rw [hs.2, hrow, deletedOf, deletedOf, List.flatMap_cons]

/-- A row to be restored is among them. -/
theorem mem_deletedOf {db : Db} (hdb : db.Keyed) {ids : List UUID} {r : SystemSetting}
    (hr : r ∈ db.settings) (hid : r.id ∈ ids) (hdel : r.isDeleted = true) : r ∈ deletedOf db ids := by
  refine List.mem_flatMap.mpr ⟨r.id, hid, ?_⟩
  have hsome : (SettingRepository.findById db r.id true).isSome = true :=
    List.find?_isSome.mpr ⟨r, hr, by simp⟩
  obtain ⟨r', hr'⟩ := Option.isSome_iff_exists.mp hsome
  obtain ⟨hmem, heq, -⟩ := findById_spec hr'
  rw [hr', hdb.row_eq hmem hr heq]
  simp [Option.filter, hdel]

theorem invalidateEach_returns (work : Db) (t : Int) : ∀ (rows : List SystemSetting)
    (done : List String), Returns t (fun s => s.work = work ∧ ∀ k ∈ done, s.store k = none)
      (Script.each rows fun row => SettingCache.invalidate row.namespace row.settingKey)
      fun _ s => s.work = work ∧
        ∀ k ∈ done ++ rows.map (fun row => cacheKey row.namespace row.settingKey), s.store k = none
  | [], done => .ret fun s hs => by simpa using hs
  | row :: rows, done => by
    refine .bind (returns_invalidate (R := fun _ s => s.work = work ∧
      ∀ k ∈ done ++ [cacheKey row.namespace row.settingKey], s.store k = none) fun s hs => ?_)
      fun _ => ?_
    · refine ⟨hs.1, fun k hk => ?_⟩
      show (if _ then _ else _) = _
      split
      · rfl
      · rename_i hne
        exact hs.2 k ((List.mem_append.mp hk).resolve_right fun h => hne (List.mem_singleton.mp h))
    · refine (invalidateEach_returns work t rows _).conseq (fun _ h => h) (fun _ s hs => ?_)
        fun _ h => h
      rw [List.append_assoc, List.singleton_append] at hs
      exact hs

theorem restoreSettings_settles (ids : List UUID) {db : Db} (hdb : db.Keyed)
    (hchecked : ValuesChecked env db) (t : Int) :
    Returns t (fun s => s.work = db) (SettingService.restoreSettings ids)
      fun _ s => Settles env key db s := by
  unfold SettingService.restoreSettings
  split
  · exact .ret fun s hs => ⟨by rwa [hs], .inr (by rw [hs])⟩
  · rename_i hne
    refine .bind (deletedRows_returns db t ids) fun rows => .assume fun hrows => ?_
    let f : SystemSetting → SystemSetting := fun r => if r.id ∈ ids && r.isDeleted then
      { r with isDeleted := false, deleteReason := none } else r
    have hrestore : Returns t (fun s => s.work = db) (Script.query (SettingRepository.restore ids))
        fun _ s => s.work = ⟨db.settings.map f⟩ := by
      unfold SettingRepository.restore
      rw [if_neg hne]
      exact returns_update fun s n hs => by rw [hs]
    refine .bind hrestore fun n => ?_
    refine .bind (returns_raiseIf (R := fun _ s => s.work = ⟨db.settings.map f⟩) fun s hs => hs)
      fun _ => ?_
    refine (invalidateEach_returns _ t rows []).conseq (fun s hs => ⟨hs, by simp⟩)
      (fun _ s hs => ?_) fun _ h => h
    obtain ⟨hwork, hkeys⟩ := hs
    refine ⟨?_, ?_⟩
    · rw [hwork]
      intro r hr
      obtain ⟨r₀, hr₀, rfl⟩ := List.mem_map.mp hr
      by_cases hc : (decide (r₀.id ∈ ids) && r₀.isDeleted) = true
      · rw [show f r₀ = { r₀ with isDeleted := false, deleteReason := none } from if_pos hc]
        exact hchecked r₀ hr₀
      · rw [show f r₀ = r₀ from if_neg hc]
        exact hchecked r₀ hr₀
    · by_cases hof : ∃ r ∈ db.settings, IsRowOf key r ∧ r.id ∈ ids ∧ r.isDeleted = true
      · obtain ⟨r, hr, hof, hid, hdel⟩ := hof
        refine .inl (hof.cached ▸ hkeys _ ?_)
        rw [List.nil_append, hrows]
        exact List.mem_map_of_mem (mem_deletedOf hdb hr hid hdel)
      · refine .inr ?_
        rw [hwork]
        refine settingRow_map (fun r => ?_) (fun r => ?_) fun r hr hr' => ?_
        · show (if _ then _ else _ : SystemSetting).namespace = _
          split <;> rfl
        · show (if _ then _ else _ : SystemSetting).settingKey = _
          split <;> rfl
        · refine if_neg fun hc => hof ⟨r, hr, hr', ?_⟩
          simpa using hc

/-! ### 2.1 Any writer -/

/-- An update, a deletion or a restoration. -/
def SettingCall.Writes : SettingCall → Prop
  | .read _ => False
  | _ => True

theorem SettingCall.body_deletes {call : SettingCall} (hc : call.Writes) :
    Deletes (call.body env) := by
  cases call with
  | read key => exact hc.elim
  | update settingId command =>
    refine .bind (fun _ => .ret _) (.bind (fun row => ?_) (.select _))
    refine .bind (fun row => ?_) (.require _)
    refine .bind (fun _ => ?_) (.ofExcept _)
    refine .bind (fun n => ?_) (.executeCount _)
    refine .bind (fun _ => ?_) (.raiseIf _ _)
    refine .bind (fun _ => ?_) (.invalidate _ _)
    exact .bind (fun row => .require row) (.select _)
  | delete settingId command =>
    refine .bind (fun _ => .ret _) (.bind (fun row => ?_) (.select _))
    refine .bind (fun row => ?_) (.require _)
    refine .bind (fun _ => ?_) (.raiseIf _ _)
    have hdelete : Deletes (SettingService.deleteRow settingId row command) := by
      unfold SettingService.deleteRow
      split
      · exact .executeCount _
      · split
        · trivial
        · exact .executeCount _
    refine .bind (fun n => ?_) hdelete
    exact .bind (fun _ => .invalidate _ _) (.raiseIf _ _)
  | restore ids =>
    refine .bind (fun _ => .ret _) ?_
    have hrows : ∀ ids, Deletes (SettingService.deletedRows ids) := by
      intro ids
      induction ids with
      | nil => trivial
      | cons settingId ids ih => exact .bind (fun row => .bind (fun _ => .ret _) ih) (.select _)
    have hrestore : Deletes (Script.query (SettingRepository.restore ids) : SettingScript Nat) := by
      unfold SettingRepository.restore
      split
      · trivial
      · exact .executeCount _
    unfold SettingService.restoreSettings
    split
    · trivial
    · refine .bind (fun rows => ?_) (hrows ids)
      refine .bind (fun n => ?_) hrestore
      exact .bind (fun _ => .each (fun row => .invalidate _ _) rows) (.raiseIf _ _)

theorem SettingCall.body_settles {call : SettingCall} (hc : call.Writes) {db : Db}
    (hdb : db.Keyed) (hchecked : ValuesChecked env db) (t : Int) :
    Returns t (fun s => s.work = db) (call.body env) fun _ s => Settles env key db s := by
  cases call with
  | read key => exact hc.elim
  | update settingId command =>
    exact .bind (updateSetting_settles settingId command hdb hchecked t) fun _ => .ret fun _ hs => hs
  | delete settingId command =>
    exact .bind (deleteSetting_settles settingId command hdb hchecked t) fun _ => .ret fun _ hs => hs
  | restore ids =>
    exact .bind (restoreSettings_settles ids hdb hchecked t) fun _ => .ret fun _ hs => hs

/-! ## 3. The runs -/

/-- The names of time zones are no JSON texts. -/
def Env.Plain (env : Env) : Prop := ∀ name tz, env.app.zoneInfo name = some tz → env.loads name = none

/-- What the cache has for the setting is what the table has. -/
def Coherent (env : Env) (key : FacilitySettingKey) (db : Db) (clock : Int) (store : CacheStore) :
    Prop :=
  ∀ t, clock ≤ t → ∀ value, store.get t key.cached = some value →
    key.stored env (settingRow db key) = .ok (some (SettingService.coerceJsonbValue env value))

theorem Coherent.of_none {db : Db} {clock : Int} {store : CacheStore}
    (h : store key.cached = none) : Coherent env key db clock store := by
  intro t _ value hget
  rw [CacheStore.get, h] at hget
  cases hget

theorem CacheStore.get_congr {store store' : CacheStore} {k : String} (h : store' k = store k)
    (t : Int) : store'.get t k = store.get t k := by
  rw [CacheStore.get, CacheStore.get, h]

theorem Coherent.congr {db db' : Db} {clock clock' : Int} {store store' : CacheStore}
    (h : Coherent env key db clock store) (hclock : clock ≤ clock')
    (hrow : settingRow db' key = settingRow db key)
    (hstore : store' key.cached = store key.cached) : Coherent env key db' clock' store' := by
  intro t ht value hget
  rw [CacheStore.get_congr hstore] at hget
  rw [hrow]
  exact h t (hclock.trans ht) value hget

/-- A checked value of the expected type is not decoded a second time. -/
theorem coerce_checked (henv : env.Plain) {r : SystemSetting} (hof : IsRowOf key r)
    (htype : r.valueType = key.valueType)
    (hchecked : SettingService.validateRowValue env r r.value = .ok ()) :
    SettingService.coerceJsonbValue env r.value = r.value := by
  cases hv : r.value with
  | str name =>
    rw [hv, SettingService.validateRowValue, htype, if_pos hof.1, hof.2] at hchecked
    cases key with
    | timezone =>
      -- a name that the zone database knows
      have hzone : SettingService.validateFacilitySettingValue env "timezone" (.str name) = .ok () :=
        hchecked
      unfold SettingService.validateFacilitySettingValue at hzone
      rw [if_pos rfl] at hzone
      have hloads : env.loads name = none := by
        unfold NewlifeCore.SettingService.parseTimezone at hzone
        dsimp only at hzone
        split at hzone
        · cases hzone
        · split at hzone
          · exact henv name _ ‹_›
          · cases hzone
      rw [SettingService.coerceJsonbValue, hloads]
      rfl
    | _ => cases hchecked
  | _ => rfl

/-- The row behind a value that a getter makes of the table. -/
theorem stored_row {row : Option SystemSetting} {value : JsonValue}
    (h : key.stored env row = .ok (some value)) :
    ∃ r, row = some r ∧ r.valueType = key.valueType ∧
      value = SettingService.coerceJsonbValue env r.value := by
  have hstrict : ∀ k type, SettingService.storedValue env k type row = .ok (some value) →
      ∃ r, row = some r ∧ r.valueType = type ∧
        value = SettingService.coerceJsonbValue env r.value := by
    intro k type h
    unfold SettingService.storedValue at h
    split at h
    · cases h
    · rename_i r hr
      split at h
      · cases h
      · cases h
        exact ⟨r, (Option.filter_eq_some_iff.mp hr).1, not_not.mp ‹_›, rfl⟩
  have hlenient : ∀ type, SettingService.storedValueLenient env type row = .ok (some value) →
      ∃ r, row = some r ∧ r.valueType = type ∧
        value = SettingService.coerceJsonbValue env r.value := by
    intro type h
    obtain ⟨r, hr, hval⟩ := Option.map_eq_some_iff.mp (Except.ok.inj h)
    obtain ⟨hr, htype⟩ := Option.filter_eq_some_iff.mp hr
    exact ⟨r, (Option.filter_eq_some_iff.mp hr).1, of_decide_eq_true htype, hval.symm⟩
  cases key with
  | recurringBookingTestWindowOverride => exact hlenient _ h
  | recurringBookingTestBookerAllowlist => exact hlenient _ h
  | _ => exact hstrict _ _ h

/-- What a getter makes of the table is read back from the cache as it is. -/
theorem stored_coerced (henv : env.Plain) {db : Db} (hchecked : ValuesChecked env db)
    {value : JsonValue} (h : key.stored env (settingRow db key) = .ok (some value)) :
    SettingService.coerceJsonbValue env value = value := by
  obtain ⟨r, hr, htype, rfl⟩ := stored_row h
  have hfound := List.find?_some hr
  simp only [Bool.and_eq_true, decide_eq_true_eq] at hfound
  have hof : IsRowOf key r := hfound.1
  have hcoerce := coerce_checked henv hof htype
    (hchecked r (List.mem_of_find?_eq_some hr))
  rw [hcoerce, hcoerce]

/-! ### 3.1 Readers -/

/-- Where a reader of the setting can be. -/
inductive ReaderAt (env : Env) (key : FacilitySettingKey) (saw : Option Db) :
    SettingScript (Option JsonValue) → Prop
  | start : ReaderAt env key saw (key.read env)
  | missed : ReaderAt env key saw (SettingService.readTable key.name (key.stored env))
  | filling {db : Db} {value : JsonValue} (hsaw : saw = some db)
      (hvalue : key.stored env (settingRow db key) = .ok (some value)) :
      ReaderAt env key saw (SettingService.fill key.name value)
  | ended {p : SettingScript (Option JsonValue)} (h : p.result.isSome) : ReaderAt env key saw p

/-- What a getter still does once the cache has answered. -/
def FacilitySettingKey.afterCache (env : Env) (key : FacilitySettingKey) :
    Option JsonValue → SettingScript (Option JsonValue)
  | some cached => .ret (some (SettingService.coerceJsonbValue env cached))
  | none => SettingService.readTable key.name (key.stored env)

/-- What it still does once it has made something of the stored row. -/
def FacilitySettingKey.afterRow (key : FacilitySettingKey) :
    Except SystemError (Option JsonValue) → SettingScript (Option JsonValue)
  | .error e => .raise e
  | .ok none => .ret none
  | .ok (some value) => SettingService.fill key.name value

abbrev SettingVisit := Visit Db RowName CacheStore SystemError (Option JsonValue) SettingCall

/-- A reader has written nothing, and last read a table of checked values. -/
structure ReaderOk (env : Env) (key : FacilitySettingKey) (v : SettingVisit) : Prop where
  own : v.own = id
  saw : ∀ db, v.saw = some db → ValuesChecked env db
  script : ReaderAt env key v.saw v.script

/-- What a reader's next command leaves of the cache: the entry it fills in, if any. -/
inductive ReaderActs (env : Env) (key : FacilitySettingKey) (s : SettingDesk) (n : Nat)
    (v : SettingVisit) (s' : SettingDesk) : Prop
  | quiet (v' : SettingVisit) (hv' : ReaderOk env key v') (hs' : s' = s.put n (some v'))
  | fill (v' : SettingVisit) (hv' : ReaderOk env key v') (db : Db) (value : JsonValue)
      (hsaw : v.saw = some db)
      (hvalue : key.stored env (settingRow db key) = .ok (some value))
      (hs' : s' = { s.put n (some v') with
        store := s.store.setex s.clock key.cached cacheExpiryDay value })

theorem ReaderOk.acts {s s' : SettingDesk} {n : Nat} {v : SettingVisit} (hv : ReaderOk env key v)
    (hdb : ValuesChecked env s.db) (h : s.act n v = some s') : ReaderActs env key s n v s' := by
  obtain ⟨label, script, own, rows, saw⟩ := v
  obtain ⟨hown, hsaw, hscript⟩ := hv
  dsimp only at hown hsaw hscript
  subst hown
  cases hscript with
  | start =>
    rw [FacilitySettingKey.read_eq] at h
    cases h
    refine .quiet _ ⟨rfl, hsaw, ?_⟩ rfl
    show ReaderAt env key saw (key.afterCache env (s.store.get s.clock key.cached))
    cases s.store.get s.clock key.cached with
    | none => exact .missed
    | some cached => exact .ended rfl
  | missed =>
    cases h
    refine .quiet _ ⟨rfl, fun db hdb' => by cases hdb'; exact hdb, ?_⟩ rfl
    show ReaderAt env key (some s.db) (key.afterRow (key.stored env (settingRow s.db key)))
    cases hstored : key.stored env (settingRow s.db key) with
    | error e => exact .ended rfl
    | ok found =>
      cases found with
      | none => exact .ended rfl
      | some value => exact .filling rfl hstored
  | @filling db value hseen hvalue =>
    cases h
    exact .fill _ ⟨rfl, hsaw, .ended rfl⟩ db value hseen hvalue rfl
  | ended hended =>
    cases script with
    | ret _ => cases h
    | raise _ => cases h
    | _ => cases hended

/-! ### 3.2 The writer among them -/

/-- What the end of a request publishes. -/
def published (r : Except SystemError (Option JsonValue)) (work db : Db) : Db :=
  match r with
  | .ok _ => work
  | .error _ => db

/-- **What the writer leaves in the table**: what its end will publish, or has published. -/
def leaves (s : SettingDesk) : Db :=
  match s.visits 0 with
  | none => s.db
  | some w => published (w.script.exec (s.midway w) s.clock).1
      (w.script.exec (s.midway w) s.clock).2.work s.db

/-- The writer has still to invalidate the key: its rest deletes whatever entry is there. -/
def StillInvalidates (key : FacilitySettingKey) (s : SettingDesk) : Prop :=
  ∃ w, s.visits 0 = some w ∧ ∀ e, (w.script.exec
    ⟨w.own s.db, s.db, s.store.put key.cached (some e)⟩ s.clock).2.store key.cached = none

/-- Only readers of the setting begin. -/
def OnlyReads (key : FacilitySettingKey) (a : Turn SettingCall) : Prop :=
  ∀ call, a = .begin call → call = .read key

/-- **An entry is put into the cache only while the writer has still to invalidate it, or of the
row that the writer leaves.** -/
def FillsFresh (key : FacilitySettingKey) (s : SettingDesk) (a : Turn SettingCall) : Prop :=
  ∀ n v s', a = .act n → s.visits n = some v → s.act n v = some s' →
    s'.store key.cached ≠ none → s'.store key.cached ≠ s.store key.cached →
      StillInvalidates key s ∨
        ∃ db, v.saw = some db ∧ settingRow db key = settingRow (leaves s) key

/-- The writer's rest, run alone from here, leaves a coherent cache. -/
structure WriterOk (env : Env) (key : FacilitySettingKey) (s : SettingDesk) (w : SettingVisit) :
    Prop where
  deletes : Deletes w.script
  checked : ValuesChecked env (leaves s)
  coherent : Coherent env key (leaves s) s.clock (w.script.exec (s.midway w) s.clock).2.store

/-- **The invariant of the runs.** -/
structure SettingInv (env : Env) (key : FacilitySettingKey) (s : SettingDesk) : Prop where
  next : 0 < s.next
  checked : ValuesChecked env s.db
  readers : ∀ n v, n ≠ 0 → s.visits n = some v → ReaderOk env key v
  writer : ∀ w, s.visits 0 = some w → WriterOk env key s w
  after : s.visits 0 = none → Coherent env key s.db s.clock s.store

theorem leaves_none {s : SettingDesk} (h : s.visits 0 = none) : leaves s = s.db := by
  rw [leaves, h]

theorem leaves_some {s : SettingDesk} {w : SettingVisit} (h : s.visits 0 = some w) :
    leaves s = published (w.script.exec (s.midway w) s.clock).1
      (w.script.exec (s.midway w) s.clock).2.work s.db := by
  rw [leaves, h]

/-- **The writer does not mind the others**: with another clock and another cache, and no one else
writing, its rest comes to the same, but for what it leaves of the key. -/
theorem WriterOk.others {s s' : SettingDesk} {w : SettingVisit} (h : WriterOk env key s w)
    (hw : s.visits 0 = some w) (hw' : s'.visits 0 = some w) (hdb : s'.db = s.db)
    (hclock : s.clock ≤ s'.clock)
    (hstore : s'.store key.cached ≠ none → s'.store key.cached ≠ s.store key.cached →
      StillInvalidates key s ∨ Coherent env key (leaves s) s'.clock s'.store) :
    WriterOk env key s' w := by
  obtain ⟨r, work', hrun, hkey⟩ := h.deletes.exec key.cached (w.own s.db) s.db
  have hmid : s'.midway w = ⟨w.own s.db, s.db, s'.store⟩ := by rw [Desk.midway, hdb]
  have hleaves : leaves s' = leaves s := by
    obtain ⟨hr, hwork, -⟩ := hrun s.store s.clock
    obtain ⟨hr', hwork', -⟩ := hrun s'.store s'.clock
    rw [leaves_some hw, leaves_some hw', hmid, hr', hwork', hdb, Desk.midway, hr, hwork]
  refine ⟨h.deletes, hleaves ▸ h.checked, ?_⟩
  rw [hleaves, hmid]
  rcases hkey with hgone | hkept
  · exact .of_none (hgone _ _)
  · -- the rest leaves the key alone
    have hold : Coherent env key (leaves s) s.clock s.store :=
      h.coherent.congr le_rfl rfl (hkept s.store s.clock).symm
    have hnew : Coherent env key (leaves s) s'.clock s'.store := by
      by_cases hsame : s'.store key.cached = s.store key.cached
      · exact hold.congr hclock rfl hsame
      by_cases hnone : s'.store key.cached = none
      · exact .of_none hnone
      rcases hstore hnone hsame with ⟨w', hw'', hdel⟩ | hcoherent
      · obtain rfl : w = w' := Option.some.inj (hw.symm.trans hw'')
        have := hdel ⟨.null, 0⟩
        rw [hkept] at this
        rw [CacheStore.put_self] at this
        cases this
      · exact hcoherent
    exact hnew.congr le_rfl rfl (hkept _ _)

/-- A filled entry is coherent with a table that has the row it was read from. -/
theorem Coherent.fill (henv : env.Plain) {s : SettingDesk} {db work : Db} {value : JsonValue}
    (hchecked : ValuesChecked env db) (hvalue : key.stored env (settingRow db key) = .ok (some value))
    (hrow : settingRow db key = settingRow work key) (clock : Int) :
    Coherent env key work clock (s.store.setex s.clock key.cached cacheExpiryDay value) := by
  intro t _ value' hget
  have hval : value' = value := by
    rw [CacheStore.get, CacheStore.setex, CacheStore.put_self] at hget
    obtain ⟨e, he, hmatch⟩ := Option.bind_eq_some_iff.mp hget
    cases (Option.filter_eq_some_iff.mp he).1
    dsimp only at hmatch
    split at hmatch
    · cases hmatch
    · exact (Option.some.inj hmatch).symm
  rw [hval, stored_coerced henv hchecked hvalue, ← hrow]
  exact hvalue

theorem Deletes.act {s s' : SettingDesk} {n : Nat} {w : SettingVisit} (hw : Deletes w.script)
    (h : s.act n w = some s') :
    s'.db = s.db ∧ ∀ w', s'.visits n = some w' → Deletes w'.script := by
  obtain ⟨label, script, own, rows, saw⟩ := w
  have hput : ∀ (w' : SettingVisit), Deletes w'.script →
      ∀ w'', (if n = n then some w' else s.visits n) = some w'' → Deletes w''.script := by
    rintro w' hdel w'' heq
    rw [if_pos rfl] at heq
    exact Option.some.inj heq ▸ hdel
  cases script with
  | ret _ => cases h
  | raise _ => cases h
  | read q k =>
    cases h
    exact ⟨rfl, hput _ (hw.2 _)⟩
  | clock k => exact hw.elim
  | write stmt k =>
    simp only [Desk.act] at h
    split at h
    · cases h
      exact ⟨rfl, hput _ trivial⟩
    · split at h
      · cases h
        exact ⟨rfl, hput _ (hw _)⟩
      · cases h
  | command c k =>
    cases h
    exact ⟨rfl, hput _ (hw.2.2 _)⟩
  | commit k => exact hw.elim

/-- The writer's own steps. -/
theorem WriterOk.act {s s' : SettingDesk} {w : SettingVisit} (h : WriterOk env key s w)
    (hw : s.visits 0 = some w) (hact : s.act 0 w = some s') :
    s'.db = s.db ∧ s'.next = s.next ∧ (∀ n, n ≠ 0 → s'.visits n = s.visits n) ∧
      ∃ w', s'.visits 0 = some w' ∧ WriterOk env key s' w' := by
  obtain ⟨w', hvisits, hclock, hnext, -, hexec⟩ := Desk.act_exec hact
  obtain ⟨hdb, hdel⟩ := h.deletes.act hact
  have hw' : s'.visits 0 = some w' := by rw [hvisits]; rfl
  have hleaves : leaves s' = leaves s := by
    rw [leaves_some hw', leaves_some hw, hclock, hexec, hdb]
  refine ⟨hdb, hnext, fun n hn => ?_, w', hw', hdel w' hw', hleaves ▸ h.checked, ?_⟩
  · rw [hvisits]
    exact if_neg hn
  · rw [hleaves, hclock, hexec]
    exact h.coherent

/-- What the others do keeps the invariant, when they put nothing stale into the cache. -/
theorem SettingInv.others {s s' : SettingDesk} (h : SettingInv env key s) (hnext : s.next ≤ s'.next)
    (hdb : s'.db = s.db) (hwriter : s'.visits 0 = s.visits 0)
    (hreaders : ∀ n v, n ≠ 0 → s'.visits n = some v → ReaderOk env key v)
    (hclock : s.clock ≤ s'.clock)
    (hstore : s'.store key.cached ≠ none → s'.store key.cached ≠ s.store key.cached →
      StillInvalidates key s ∨ Coherent env key (leaves s) s'.clock s'.store) :
    SettingInv env key s' := by
  refine ⟨h.next.trans_le hnext, hdb ▸ h.checked, hreaders, fun w hw' => ?_, fun hnone' => ?_⟩
  · have hw := hwriter ▸ hw'
    exact (h.writer w hw).others hw hw' hdb hclock hstore
  · have hnone := hwriter ▸ hnone'
    rw [hdb]
    by_cases hsame : s'.store key.cached = s.store key.cached
    · exact (h.after hnone).congr hclock rfl hsame
    by_cases hgone : s'.store key.cached = none
    · exact .of_none hgone
    rcases hstore hgone hsame with ⟨w, hw, -⟩ | hcoherent
    · rw [hnone] at hw
      cases hw
    · rwa [leaves_none hnone] at hcoherent

/-- The visits other than `n` are as they were. -/
theorem readers_put {s : SettingDesk} (h : SettingInv env key s) {n : Nat}
    {x : Option SettingVisit} (hx : ∀ v, x = some v → ReaderOk env key v) :
    ∀ m v, m ≠ 0 → (s.put n x).visits m = some v → ReaderOk env key v := by
  intro m v hm hv
  rw [Desk.put_visits] at hv
  split at hv
  · exact hx v hv
  · exact h.readers m v hm hv

/-- **Every step keeps the invariant.** -/
theorem SettingInv.step (henv : env.Plain) {s s' : SettingDesk} {a : Turn SettingCall}
    (h : SettingInv env key s) (honly : OnlyReads key a) (hfresh : FillsFresh key s a)
    (hstep : s.step (SettingCall.body env) a = some s') : SettingInv env key s' := by
  rcases Desk.step_cases hstep with ⟨t, rfl, ht, rfl⟩ | ⟨call, rfl, rfl⟩ | ⟨n, v, rfl, hv, hact⟩ |
    ⟨n, v, rfl, hv, hend⟩
  · exact h.others le_rfl rfl rfl h.readers ht fun _ hne => absurd rfl hne
  · obtain rfl := honly call rfl
    refine h.others (Nat.le_succ _) rfl (if_neg (Nat.ne_of_lt h.next)) ?_ le_rfl
      fun _ hne => absurd rfl hne
    exact readers_put h fun v hv => Option.some.inj hv ▸ ⟨rfl, nofun, .start⟩
  · by_cases hn : n = 0
    · -- the writer
      subst hn
      obtain ⟨hdb, hnext, hothers, w', hw', hok⟩ := (h.writer v hv).act hv hact
      refine ⟨hnext ▸ h.next, hdb ▸ h.checked, fun m u hm hu => ?_, fun w hw => ?_, fun hnone => ?_⟩
      · exact h.readers m u hm (hothers m hm ▸ hu)
      · exact Option.some.inj (hw'.symm.trans hw) ▸ hok
      · rw [hw'] at hnone
        cases hnone
    · have hzero : ∀ x, (s.put n x).visits 0 = s.visits 0 := fun x => if_neg (Ne.symm hn)
      cases (h.readers n v hn hv).acts h.checked hact with
      | quiet v' hv' hs' =>
        subst hs'
        exact h.others le_rfl rfl (hzero _) (readers_put h fun u hu => Option.some.inj hu ▸ hv')
          le_rfl fun _ hne => absurd rfl hne
      | fill v' hv' db value hsaw hvalue hs' =>
        subst hs'
        refine h.others le_rfl rfl (hzero _) (readers_put h fun u hu => Option.some.inj hu ▸ hv')
          le_rfl fun hsome hne => ?_
        refine (hfresh n v _ rfl hv hact hsome hne).imp_right ?_
        rintro ⟨db', hsaw', hrow⟩
        obtain rfl : db = db' := Option.some.inj (hsaw.symm.trans hsaw')
        exact Coherent.fill henv ((h.readers n v hn hv).saw db hsaw) hvalue hrow _
  · by_cases hn : n = 0
    · -- the writer's end publishes what it leaves
      subst hn
      have hw := h.writer v hv
      have hvisits : ∀ m u, m ≠ 0 → (s.put 0 none).visits m = some u → ReaderOk env key u :=
        readers_put h fun u hu => nomatch hu
      have hnone : ∀ w, (s.put 0 none).visits 0 ≠ some w := nofun
      rcases Desk.finish_cases hend with ⟨a, ha, rfl⟩ | ⟨e, he, rfl⟩
      · have hleaves : leaves s = v.own s.db := by rw [leaves_some hv, ha]; rfl
        have hcoherent := hw.coherent
        rw [hleaves, ha] at hcoherent
        exact ⟨h.next, hleaves ▸ hw.checked, hvisits, fun w hw' => absurd hw' (hnone w),
          fun _ => hcoherent⟩
      · have hleaves : leaves s = s.db := by rw [leaves_some hv, he]; rfl
        have hcoherent := hw.coherent
        rw [hleaves, he] at hcoherent
        exact ⟨h.next, h.checked, hvisits, fun w hw' => absurd hw' (hnone w),
          fun _ => hcoherent⟩
    · have hdb : v.own s.db = s.db := by rw [(h.readers n v hn hv).own]; rfl
      have hzero : (s.put n none).visits 0 = s.visits 0 := if_neg (Ne.symm hn)
      have hvisits := readers_put h (n := n) (x := none) fun u hu => nomatch hu
      rcases Desk.finish_cases hend with ⟨a, -, rfl⟩ | ⟨e, -, rfl⟩
      · exact h.others le_rfl hdb hzero hvisits le_rfl fun _ hne => absurd rfl hne
      · exact h.others le_rfl rfl hzero hvisits le_rfl fun _ hne => absurd rfl hne

/-! ### 3.3 Reads after the commit -/

/-- The writer is being served and has done nothing yet. -/
def opened (env : Env) (call : SettingCall) (db : Db) (store : CacheStore) (clock : Int) :
    SettingDesk where
  db
  store
  clock
  visits n := if n = 0 then some { label := call, script := call.body env } else none
  next := 1

/-- A writer run alone leaves checked values and a coherent cache. -/
theorem body_leaves {call : SettingCall} (hc : call.Writes) {db : Db} {store : CacheStore}
    {clock : Int} (hdb : db.Keyed) (hchecked : ValuesChecked env db)
    (hcoherent : Coherent env key db clock store) {r : Except SystemError (Option JsonValue)}
    {m : Midway Db CacheStore} (hx : (call.body env).exec ⟨db, db, store⟩ clock = (r, m)) :
    ValuesChecked env (published r m.work db) ∧
      Coherent env key (published r m.work db) clock m.store := by
  have hbody : Deletes (call.body env) := SettingCall.body_deletes hc
  obtain ⟨r', work', hrun, hkey⟩ := hbody.exec key.cached db db
  have hkey' := hkey.imp (fun h => h store clock) fun h => h store clock
  have hsettles : Returns clock (fun s => s.work = db) (call.body env)
      fun _ s => Settles env key db s :=
    SettingCall.body_settles hc hdb hchecked clock
  have hkeeps := hsettles ⟨db, db, store⟩ rfl
  rw [hx] at hkey' hkeeps
  cases r with
  | error e =>
    refine ⟨hchecked, ?_⟩
    rcases hkey' with hgone | hkept
    · exact .of_none hgone
    · exact hcoherent.congr le_rfl rfl hkept
  | ok a =>
    refine ⟨hkeeps.1, ?_⟩
    rcases hkey' with hgone | hkept
    · exact .of_none hgone
    · rcases hkeeps.2 with hgone | hrow
      · exact .of_none hgone
      · exact hcoherent.congr le_rfl hrow hkept

theorem opened_inv {call : SettingCall} (hc : call.Writes) {db : Db} {store : CacheStore}
    {clock : Int} (hdb : db.Keyed) (hchecked : ValuesChecked env db)
    (hcoherent : Coherent env key db clock store) :
    SettingInv env key (opened env call db store clock) := by
  refine ⟨Nat.one_pos, hchecked, fun n v hn hv => ?_, fun w hw => ?_, nofun⟩
  · dsimp only [opened] at hv
    rw [if_neg hn] at hv
    cases hv
  · obtain ⟨hleft, hcache⟩ := body_leaves hc hdb hchecked hcoherent
      (Prod.mk.eta (p := (call.body env).exec ⟨db, db, store⟩ clock)).symm
    obtain rfl : _ = w := Option.some.inj hw
    exact ⟨SettingCall.body_deletes hc, hleft, hcache⟩

/-- Where a reader that began after the commit can be: what it holds, or returns, is stored. -/
inductive LateAt (env : Env) (key : FacilitySettingKey) (db : Db) :
    SettingScript (Option JsonValue) → Prop
  | start : LateAt env key db (key.read env)
  | missed : LateAt env key db (SettingService.readTable key.name (key.stored env))
  | filling {value : JsonValue}
      (hvalue : key.stored env (settingRow db key) = .ok (some value)) :
      LateAt env key db (SettingService.fill key.name value)
  | ended {p : SettingScript (Option JsonValue)}
      (h : p.result = some (key.stored env (settingRow db key))) : LateAt env key db p

theorem LateAt.result {db : Db} {p : SettingScript (Option JsonValue)} (h : LateAt env key db p)
    {r : Except SystemError (Option JsonValue)} (hr : p.result = some r) :
    r = key.stored env (settingRow db key) := by
  cases h with
  | start =>
    rw [FacilitySettingKey.read_eq] at hr
    cases hr
  | missed => cases hr
  | filling hvalue => cases hr
  | ended h => exact Option.some.inj (hr.symm.trans h)

/-- A late reader's step, in a coherent state. -/
theorem LateAt.act {s s' : SettingDesk} {n : Nat} {v : SettingVisit} (hown : v.own = id)
    (hv : LateAt env key s.db v.script) (hcoherent : Coherent env key s.db s.clock s.store)
    (h : s.act n v = some s') : ∃ v', s'.visits n = some v' ∧ LateAt env key s.db v'.script := by
  obtain ⟨label, script, own, rows, saw⟩ := v
  dsimp only at hown hv
  subst hown
  have hput : ∀ (v' : SettingVisit), (s.put n (some v')).visits n = some v' := fun v' => if_pos rfl
  cases hv with
  | start =>
    rw [FacilitySettingKey.read_eq] at h
    cases h
    refine ⟨_, hput _, ?_⟩
    show LateAt env key s.db (key.afterCache env (s.store.get s.clock key.cached))
    cases hget : s.store.get s.clock key.cached with
    | none => exact .missed
    | some cached => exact .ended (congrArg some (hcoherent s.clock le_rfl cached hget).symm)
  | missed =>
    cases h
    refine ⟨_, hput _, ?_⟩
    show LateAt env key s.db (key.afterRow (key.stored env (settingRow s.db key)))
    cases hstored : key.stored env (settingRow s.db key) with
    | error e => exact .ended (congrArg some hstored.symm)
    | ok found =>
      cases found with
      | none => exact .ended (congrArg some hstored.symm)
      | some value => exact .filling hstored
  | @filling value hvalue =>
    cases h
    exact ⟨_, hput _, .ended (congrArg some hvalue.symm)⟩
  | ended hended =>
    cases script with
    | ret _ => cases h
    | raise _ => cases h
    | _ => cases hended

/-- Once the writer is over, and request `n` began after it. -/
structure LateInv (env : Env) (key : FacilitySettingKey) (n : Nat) (s : SettingDesk) : Prop
    extends SettingInv env key s where
  done : s.visits 0 = none
  began : n < s.next
  late : ∀ v, s.visits n = some v → LateAt env key s.db v.script

/-- A reader's step or end, once the writer is over: nothing is written, and no writer comes back. -/
theorem reader_frame {s s' : SettingDesk} {a : Turn SettingCall} (h : SettingInv env key s)
    (hdone : s.visits 0 = none) (hstep : s.step (SettingCall.body env) a = some s') :
    s'.db = s.db ∧ s'.visits 0 = none ∧ s.next ≤ s'.next ∧
      ∀ n, n < s.next → a ≠ .act n → s'.visits n = s.visits n ∨ s'.visits n = none := by
  have hpos : ∀ m v, s.visits m = some v → m ≠ 0 := by
    rintro m v hv rfl
    rw [hdone] at hv
    cases hv
  rcases Desk.step_cases hstep with ⟨t, rfl, ht, rfl⟩ | ⟨call, rfl, rfl⟩ | ⟨m, v, rfl, hv, hact⟩ |
    ⟨m, v, rfl, hv, hend⟩
  · exact ⟨rfl, hdone, le_rfl, fun n _ _ => .inl rfl⟩
  · refine ⟨rfl, (if_neg (Nat.ne_of_lt h.next)).trans hdone, Nat.le_succ _, fun n hn _ => .inl ?_⟩
    exact if_neg (Nat.ne_of_lt hn)
  · have hm := hpos m v hv
    have hput : ∀ x, (s.put m x).visits 0 = none := fun x => (if_neg (Ne.symm hm)).trans hdone
    have hothers : ∀ x n, Turn.act m ≠ (.act n : Turn SettingCall) →
        (s.put m x).visits n = s.visits n :=
      fun x n hne => if_neg fun (heq : n = m) => hne (by rw [heq])
    cases (h.readers m v hm hv).acts h.checked hact with
    | quiet v' hv' hs' =>
      subst hs'
      exact ⟨rfl, hput _, le_rfl, fun n _ hne => .inl (hothers _ n hne)⟩
    | fill v' hv' db value hsaw hvalue hs' =>
      subst hs'
      exact ⟨rfl, hput _, le_rfl, fun n _ hne => .inl (hothers _ n hne)⟩
  · have hm := hpos m v hv
    have hown : v.own s.db = s.db := by rw [(h.readers m v hm hv).own]; rfl
    have hput : (s.put m none).visits 0 = none := (if_neg (Ne.symm hm)).trans hdone
    have hothers : ∀ n, (s.put m none).visits n = s.visits n ∨ (s.put m none).visits n = none := by
      intro n
      by_cases hnm : n = m
      · exact .inr (if_pos hnm)
      · exact .inl (if_neg hnm)
    rcases Desk.finish_cases hend with ⟨a, -, rfl⟩ | ⟨e, -, rfl⟩
    · exact ⟨hown, hput, le_rfl, fun n _ _ => hothers n⟩
    · exact ⟨rfl, hput, le_rfl, fun n _ _ => hothers n⟩

theorem LateInv.step (henv : env.Plain) {n : Nat} {s s' : SettingDesk} {a : Turn SettingCall}
    (h : LateInv env key n s) (honly : OnlyReads key a) (hfresh : FillsFresh key s a)
    (hstep : s.step (SettingCall.body env) a = some s') : LateInv env key n s' := by
  obtain ⟨hdb, hdone, hnext, hothers⟩ := reader_frame h.toSettingInv h.done hstep
  refine ⟨h.toSettingInv.step henv honly hfresh hstep, hdone, h.began.trans_le hnext, fun v hv => ?_⟩
  rw [hdb]
  by_cases ha : a = .act n
  · subst ha
    obtain ⟨v₀, hv₀, hact⟩ := Option.bind_eq_some_iff.mp hstep
    have hn : n ≠ 0 := by
      rintro rfl
      rw [h.done] at hv₀
      cases hv₀
    obtain ⟨v', hv', hlate⟩ := (h.late v₀ hv₀).act (h.readers n v₀ hn hv₀).own (h.after h.done) hact
    exact Option.some.inj (hv'.symm.trans hv) ▸ hlate
  · rcases hothers n h.began ha with hsame | hgone
    · exact h.late v (hsame ▸ hv)
    · rw [hgone] at hv
      cases hv

/-- **Cache coherence**: in the runs whose steps meet `ok`, every read that begins after the writer's
end returns what is then stored. -/
def LaterReadsCurrent (env : Env) (key : FacilitySettingKey)
    (ok : SettingDesk → Turn SettingCall → Prop) (s₀ : SettingDesk) : Prop :=
  ∀ s₁ s₂ s₃ v r, Desk.Run (SettingCall.body env) ok s₀ s₁ → s₁.visits 0 = none →
    s₁.step (SettingCall.body env) (.begin (.read key)) = some s₂ →
    Desk.Run (SettingCall.body env) ok s₂ s₃ → s₃.visits s₁.next = some v →
    v.script.result = some r → r = key.stored env (settingRow s₃.db key)

/-- **The setting cache is coherent beside a writer as long as no reader fills it, after the
writer's invalidation, with a row that the writer's commit replaces.** -/
theorem settingCache_coherent (henv : env.Plain) {call : SettingCall} (hc : call.Writes) {db : Db}
    {store : CacheStore} {clock : Int} (hdb : db.Keyed) (hchecked : ValuesChecked env db)
    (hcoherent : Coherent env key db clock store) :
    LaterReadsCurrent env key (fun s a => OnlyReads key a ∧ FillsFresh key s a)
      (opened env call db store clock) := by
  intro s₁ s₂ s₃ v r hrun hdone hbegin hrun' hv hr
  have hinv : SettingInv env key s₁ := hrun.invariant (opened_inv hc hdb hchecked hcoherent)
    fun s a s' h hok hstep => h.step henv hok.1 hok.2 hstep
  have hstart : LateInv env key s₁.next s₂ := by
    have hinv' := hinv.step henv (fun call h => (Turn.begin.inj h).symm) (fun n v s' h => nomatch h)
      hbegin
    cases hbegin
    refine ⟨hinv', (if_neg (Nat.ne_of_lt hinv.next)).trans hdone, Nat.lt_succ_self _, fun v hv => ?_⟩
    obtain rfl : _ = v := Option.some.inj ((if_pos rfl).symm.trans hv)
    exact .start
  have hlate : LateInv env key s₁.next s₃ := hrun'.invariant hstart
    fun s a s' h hok hstep => h.step henv hok.1 hok.2 hstep
  exact (hlate.late v hv).result hr

/-! ### 3.4 A limit raised from three lines to five -/

def Env.utc : Env where
  app := .utc
  loads _ := none

/-- A table in which a booking may have three lines. -/
def threeLines : Db where
  settings := [{ id := 1, settingKey := "max_booking_lines", valueType := "number", value := .int 3 }]

def raiseToFive : SettingCall := .update 1 { value := .int 5 }

def beforeFive : SettingDesk := opened .utc raiseToFive threeLines (fun _ => none) 0

theorem threeLines_checked : ValuesChecked .utc threeLines := by
  intro r hr
  obtain rfl := List.mem_singleton.mp hr
  decide

theorem raiseToFive_writes : raiseToFive.Writes := trivial

theorem settingCache_coherent_raised :
    threeLines.Keyed ∧ ValuesChecked .utc threeLines ∧
      LaterReadsCurrent .utc .maxBookingLines
        (fun s a => OnlyReads .maxBookingLines a ∧ FillsFresh .maxBookingLines s a) beforeFive :=
  have hkeyed : threeLines.Keyed := List.nodup_singleton _
  ⟨hkeyed, threeLines_checked, settingCache_coherent (fun _ _ _ => rfl) raiseToFive_writes hkeyed
    threeLines_checked (.of_none rfl)⟩

/-- The writer updates and invalidates; a reader misses, selects and fills; the writer commits. -/
def filledBetween : List (Turn SettingCall) :=
  [.act 0, .act 0, .act 0, .begin (.read .maxBookingLines), .act 1, .act 1, .act 1, .act 0, .finish 0]

/-- A later reader. -/
def readLater : List (Turn SettingCall) := [.begin (.read .maxBookingLines), .act 2]

theorem filled_and_read (n : Nat) (a : Turn SettingCall)
    (ha : a ∈ [.act 0, .begin (.read .maxBookingLines), .act n, .finish 0]) :
    OnlyReads .maxBookingLines a := by
  rintro call rfl
  simpa using ha

/-- The number of a JSON value. -/
def linesOf : Except SystemError (Option JsonValue) → Option Int
  | .ok (some (.int i)) => some i
  | _ => none

/-- What request 2 returns, and what is stored. -/
def readAndStored (s : SettingDesk) : Option (Option Int × Option Int) :=
  (s.visits 2).bind fun v => v.script.result.map fun r => (linesOf r,
    linesOf (FacilitySettingKey.stored .utc .maxBookingLines (settingRow s.db .maxBookingLines)))

/-- **A reader between the invalidation and the commit fills the old row in**: later reads return
three while five is stored. -/
theorem settingCache_not_coherent : ¬ LaterReadsCurrent .utc .maxBookingLines
    (fun _ a => OnlyReads .maxBookingLines a) beforeFive := by
  intro hcoherent
  have heval : ((beforeFive.replay (SettingCall.body .utc) filledBetween).bind fun s =>
      (s.replay (SettingCall.body .utc) readLater).map fun s' =>
        (s.next, (s.visits 0).isNone, readAndStored s')) = some (2, true, some (some 3, some 5)) := by
    decide +kernel
  obtain ⟨s₁, h₁, hlater⟩ := Option.bind_eq_some_iff.mp heval
  obtain ⟨s₃, h₃, hfacts⟩ := Option.map_eq_some_iff.mp hlater
  simp only [Prod.mk.injEq, Option.isNone_iff_eq_none] at hfacts
  obtain ⟨hnext, hdone, hread⟩ := hfacts
  obtain ⟨s₂, h₂, h₃⟩ := Option.bind_eq_some_iff.mp h₃
  obtain ⟨v, hv, hread⟩ := Option.bind_eq_some_iff.mp hread
  obtain ⟨r, hr, hread⟩ := Option.map_eq_some_iff.mp hread
  have hrun : Desk.Run (SettingCall.body .utc) (fun _ a => OnlyReads .maxBookingLines a) beforeFive
      s₁ := by
    refine .of_replay (fun a ha _ => filled_and_read 1 a ?_) .refl h₁
    simp only [filledBetween, List.mem_cons] at ha ⊢
    tauto
  have hrun' : Desk.Run (SettingCall.body .utc) (fun _ a => OnlyReads .maxBookingLines a) s₂ s₃ := by
    refine .of_replay (fun a ha _ => filled_and_read 2 a ?_) .refl h₃
    simp only [List.mem_cons] at ha ⊢
    tauto
  have hcurrent : r = _ := hcoherent s₁ s₂ s₃ v r hrun hdone h₂ hrun' (hnext ▸ hv) hr
  rw [hcurrent] at hread
  obtain ⟨hthree, hfive⟩ := Prod.mk.inj hread
  rw [hthree] at hfive
  cases hfive

end NewlifeCore.System
