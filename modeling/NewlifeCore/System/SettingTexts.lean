import NewlifeCore.Facility.Calls
import NewlifeCore.Lists
import NewlifeCore.System.Settings

/-!
# Settings as texts

`SettingService` with the texts that it stores: a JSONB column is bound and returned as JSON text,
and the cache holds JSON text of its own.  `System.Settings` keeps the values themselves, which is
enough for which write a reader sees; here the question is what a value looks like after the
decodings on its way back.

There are three of them.  The entity `Setting` decodes the column text in its validator, the cache
decodes its own text, and the reader passes what either of them gave through
`_coerce_jsonb_value`, which decodes a string once more.  So on both ways a value is decoded once
too often: the number `4` is not a string any more after the first decoding and stays as it is,
and the string of its digit comes back as the number, from the first read on.

Section 4 says what an accepted write leaves in the table, section 5 what one read makes of it
(`read_miss`, `read_hit`) and from it what every sequence of reads returns (`reads_agree`).  The
result is `readsAgree_iff`: the reads agree with what was written just when the value is not a
string that is itself JSON text.
-/

namespace NewlifeCore.System.Texts

open Txn
open System.SettingService (validateValueType validateFacilitySettingValue validateRowValue
  coerceJsonbValue storedValue storedValueLenient)

/-! ## 1. The stores -/

/-- The service with `json.dumps`, and the text that the database returns for a bound one. -/
structure TextEnv extends Env where
  dumps : JsonValue → String
  column : String → String

/-- What a SELECT returns of a value that was written. -/
def TextEnv.written (env : TextEnv) (value : JsonValue) : JsonValue :=
  .str (env.column (env.dumps value))

structure TextEntry where
  text : String
  expireAt : Int

/-- The texts in the cache; an entry that reached its expiry is not there. -/
def TextStore := String → Option TextEntry

namespace TextStore

def get (store : TextStore) (t : Int) (key : String) : Option String :=
  ((store key).filter fun e => t < e.expireAt).map TextEntry.text

def put (store : TextStore) (key : String) (e : Option TextEntry) : TextStore :=
  fun k => if k = key then e else store k

@[simp] theorem put_self (store : TextStore) (key : String) (e : Option TextEntry) :
    store.put key e key = e := if_pos rfl

end TextStore

abbrev TextScript (α : Type) := Script Db RowName TextStore SystemError α

variable (env : TextEnv)

namespace SettingCache

/-- `json.loads` of what is there; a cached `null` reads as nothing. -/
def decoded (raw : Option String) : TextScript (Option JsonValue) :=
  match raw with
  | none => .ret none
  | some raw =>
    match env.loads raw with
    | none => .raise ⟨.valueError, "Expecting value", none⟩
    | some .null => .ret none
    | some value => .ret (some value)

def getValue (ns settingKey : String) : TextScript (Option JsonValue) := do
  let raw ← Script.ask fun store t => store.get t (cacheKey ns settingKey)
  decoded env raw

def setValue (ns settingKey : String) (value : JsonValue) : TextScript Unit :=
  Script.tell fun store t => store.put (cacheKey ns settingKey)
    (some ⟨env.dumps value, t + cacheExpiryDay * 1000000⟩)

def invalidate (ns settingKey : String) : TextScript Unit :=
  Script.tell fun store _ => store.put (cacheKey ns settingKey) none

end SettingCache

/-- `Setting.parse_jsonb_value`: the text of a column that is JSON is decoded. -/
def parseJsonbValue (value : JsonValue) : JsonValue :=
  match value with
  | .str s => (env.loads s).getD (.str s)
  | value => value

namespace SettingRepository

/-- `fetchrow(as_model=Setting)`: the validator of the entity runs on the row. -/
def asSetting (row : Option SystemSetting) : Option SystemSetting :=
  row.map fun r => { r with value := parseJsonbValue env r.value }

def getById (settingId : UUID) : SettingQuery (Option SystemSetting) :=
  Prog.select fun db _ => asSetting env (System.SettingRepository.findById db settingId false)

def getByNamespaceKey (ns settingKey : String) : SettingQuery (Option SystemSetting) :=
  Prog.select fun db _ =>
    asSetting env (System.SettingRepository.findByNamespaceKey db ns settingKey)

/-- The row of a key, a deleted one too. -/
def getWithDeleted (ns settingKey : String) : SettingQuery (Option SystemSetting) :=
  Prog.select fun db _ => asSetting env
    (db.settings.find? fun r => r.namespace = ns && r.settingKey = settingKey)

def insert (row : SystemSetting) : SettingQuery Unit :=
  Prog.execute fun db =>
    if db.settings.any fun r =>
        r.id = row.id || r.namespace = row.namespace && r.settingKey = row.settingKey then
      .error ⟨.integrity, "duplicate key value violates unique constraint", none⟩
    else .ok (settingTable.insert [row])

end SettingRepository

/-! ## 2. `SettingService` -/

structure CreateSettingCommand where
  «namespace» : String
  settingKey : String
  valueType : String
  value : JsonValue
  remark : Option String := none
  isActive : Bool := true

namespace SettingService

/-- A check of the service, in a request. -/
def check {α : Type} : Except SystemError α → TextScript α
  | .ok a => .ret a
  | .error e => .raise e

def assertValueTypeEnum (valueType : String) : Except SystemError Unit :=
  if valueType ∈ ["string", "number", "boolean", "object", "array"] then .ok ()
  else .error (badRequest ("Unsupported value_type: " ++ valueType))

/-- What refuses a key that is there. -/
def refuseExisting : Option SystemSetting → Except SystemError Unit
  | none => .ok ()
  | some row =>
    if row.isDeleted then
      .error ⟨.conflict, "Setting key exists in recycle bin; restore it instead",
        some .settingInRecycleBin⟩
    else .error ⟨.conflict, "Setting namespace and key already exist", some .settingKeyExists⟩

/-- The row of a creation, with the value as it is returned later. -/
def newRow (settingId : UUID) (command : CreateSettingCommand) : SystemSetting where
  id := settingId
  «namespace» := strip command.namespace
  settingKey := strip command.settingKey
  valueType := command.valueType
  value := env.written command.value
  isActive := command.isActive
  remark := command.remark

/-- `settingId` is what `uuid4()` draws. -/
def createSetting (settingId : UUID) (command : CreateSettingCommand) : TextScript Unit := do
  let row := newRow env settingId command
  Script.raiseIf (row.namespace = "" || row.settingKey = "")
    (badRequest "namespace and setting_key are required")
  check (assertValueTypeEnum command.valueType)
  check (validateRowValue env.toEnv row command.value)
  let existing ← Script.query (SettingRepository.getWithDeleted env row.namespace row.settingKey)
  check (refuseExisting existing)
  Script.query (SettingRepository.insert row)

/-- `if not row: raise NotFoundException(...)`. -/
def require (row : Option SystemSetting) : Except SystemError SystemSetting :=
  match row with
  | some row => .ok row
  | none => .error settingNotFound

def updateSetting (settingId : UUID) (command : UpdateSettingCommand) :
    TextScript SettingResult := do
  let row ← Script.query (SettingRepository.getById env settingId)
  let row ← check (require row)
  check (validateRowValue env.toEnv row command.value)
  let updated ← Script.query
    (System.SettingRepository.updateValue settingId (env.written command.value) command.remark)
  Script.raiseIf (updated < 1) settingNotFound
  SettingCache.invalidate row.namespace row.settingKey
  let refreshed ← Script.query (SettingRepository.getById env settingId)
  check (require refreshed)

/-- The table is asked, and its answer cached. -/
def readTable (settingKey : String)
    (stored : Option SystemSetting → Except SystemError (Option JsonValue)) :
    TextScript (Option JsonValue) := do
  let row ← Script.query (SettingRepository.getByNamespaceKey env "facility" settingKey)
  match ← check (stored row) with
  | none => pure none
  | some value =>
    SettingCache.setValue env "facility" settingKey value
    pure (some value)

/-- The cache is asked before the table. -/
def cacheThenTable (settingKey : String)
    (stored : Option SystemSetting → Except SystemError (Option JsonValue)) :
    TextScript (Option JsonValue) := do
  match ← SettingCache.getValue env "facility" settingKey with
  | some cached => pure (some (coerceJsonbValue env.toEnv cached))
  | none => readTable env settingKey stored

def readFacilitySetting (settingKey expectedType : String) : TextScript (Option JsonValue) :=
  cacheThenTable env settingKey (storedValue env.toEnv settingKey expectedType)

def readFacilitySettingLenient (settingKey expectedType : String) :
    TextScript (Option JsonValue) :=
  cacheThenTable env settingKey (storedValueLenient env.toEnv expectedType)

end SettingService

/-! ## 3. Writes and reads -/

/-- A request that writes a value. -/
inductive SettingWrite
  | create (settingId : UUID) (command : CreateSettingCommand)
  | update (settingId : UUID) (command : UpdateSettingCommand)

/-- A row with the value and the remark of an update. -/
def rewritten (command : UpdateSettingCommand) (r : SystemSetting) : SystemSetting :=
  { r with value := env.written command.value, remark := command.remark.orElse fun _ => r.remark }

namespace SettingWrite

def run : SettingWrite → TextScript Unit
  | create settingId command => SettingService.createSetting env settingId command
  | update settingId command =>
    (SettingService.updateSetting env settingId command).bind fun _ => .ret ()

def value : SettingWrite → JsonValue
  | create _ command => command.value
  | update _ command => command.value

/-- The row that it is to leave. -/
def row (db : Db) : SettingWrite → Option SystemSetting
  | create settingId command => some (SettingService.newRow env settingId command)
  | update settingId command =>
    (System.SettingRepository.findById db settingId false).map (rewritten env command)

end SettingWrite

/-- A read of a setting; the lenient one is for the test controls. -/
def read (lenient : Bool) (settingKey expectedType : String) : TextScript (Option JsonValue) :=
  if lenient then SettingService.readFacilitySettingLenient env settingKey expectedType
  else SettingService.readFacilitySetting env settingKey expectedType

/-- What the reads of a setting return one after the other, each at its time. -/
def results (settingKey expectedType : String) :
    List (Int × Bool) → World Db TextStore → List (Except SystemError (Option JsonValue))
  | [], _ => []
  | (t, lenient) :: reads, w =>
    let served := (read env lenient settingKey expectedType).serve w t
    served.1 :: results settingKey expectedType reads served.2

/-- **Reads agree with what was written**: the first and all the later ones return `value`. -/
def ReadsAgree (row : SystemSetting) (value : JsonValue) (w : World Db TextStore) : Prop :=
  ∀ reads, ∀ result ∈ results env row.settingKey row.valueType reads w, result = .ok (some value)

/-- `UniqueConstraint("namespace", "setting_key")`. -/
def Keyed (db : Db) : Prop := (db.settings.map fun r => (r.namespace, r.settingKey)).Nodup

/-! ## 4. What an accepted write leaves -/

variable {env} {t : Int} {w w' : World Db TextStore}

theorem exec_check_ok {α : Type} {x : Except SystemError α} {s s' : Midway Db TextStore} {a : α}
    (h : (SettingService.check x : TextScript α).exec s t = (.ok a, s')) : x = .ok a ∧ s' = s := by
  cases x with
  | error e => cases h
  | ok b =>
    cases h
    exact ⟨rfl, rfl⟩

theorem exec_select_ok {α : Type} {q : Db → Int → α} {s s' : Midway Db TextStore} {a : α}
    (h : (Script.query (Prog.select q) : TextScript α).exec s t = (.ok a, s')) :
    a = q s.work t ∧ s' = s := by
  cases h
  exact ⟨rfl, rfl⟩

theorem settings_update {p : SystemSetting → Bool} {f : SystemSetting → SystemSetting}
    (hf : ∀ r, settingTable.name (f r) = settingTable.name r) {db : Db} :
    ((settingTable.update p f hf db).apply db).settings =
      db.settings.map fun r => if p r then f r else r := congrArg Db.settings settingTable.update_self

/-- What is required of a SELECT is the stored row, with its text decoded. -/
theorem SettingService.require_ok {stored : Option SystemSetting} {row : SystemSetting}
    (h : SettingService.require (SettingRepository.asSetting env stored) = .ok row) :
    ∃ r, stored = some r ∧ { r with value := parseJsonbValue env r.value } = row := by
  cases stored with
  | none => cases h
  | some r => exact ⟨r, rfl, Except.ok.inj h⟩

/-- A creation that returned has added its row under a key of its own. -/
theorem createSetting_ok {settingId : UUID} {command : CreateSettingCommand}
    {s s' : Midway Db TextStore}
    (h : (SettingService.createSetting env settingId command).exec s t = (.ok (), s')) :
    validateRowValue env.toEnv (SettingService.newRow env settingId command) command.value = .ok () ∧
      s'.work.settings = s.work.settings ++ [SettingService.newRow env settingId command] ∧
        ∀ r ∈ s.work.settings, ¬ (r.namespace = strip command.namespace ∧
          r.settingKey = strip command.settingKey) := by
  obtain ⟨⟨⟩, s₁, hguard, h₁⟩ := Script.exec_bind_ok h
  obtain ⟨-, rfl⟩ := Script.exec_raiseIf_ok hguard
  obtain ⟨⟨⟩, s₂, henum, h₂⟩ := Script.exec_bind_ok h₁
  obtain ⟨-, rfl⟩ := exec_check_ok henum
  obtain ⟨⟨⟩, s₃, hcheck, h₃⟩ := Script.exec_bind_ok h₂
  obtain ⟨hvalue, rfl⟩ := exec_check_ok hcheck
  obtain ⟨existing, s₄, hexisting, h₄⟩ := Script.exec_bind_ok h₃
  obtain ⟨rfl, rfl⟩ := exec_select_ok hexisting
  obtain ⟨⟨⟩, s₅, hkey, h₅⟩ := Script.exec_bind_ok h₄
  obtain ⟨hrefuse, rfl⟩ := exec_check_ok hkey
  obtain ⟨db', hinsert, rfl⟩ := Script.exec_query_ok h₅
  obtain ⟨c, hc, rfl⟩ := Prog.exec_executed hinsert
  split at hc
  · cases hc
  · cases hc
    refine ⟨hvalue, rfl, fun r hr hkey => ?_⟩
    unfold SettingService.refuseExisting at hrefuse
    split at hrefuse
    · rename_i hnone
      have := List.find?_eq_none.mp (Option.map_eq_none_iff.mp hnone) r hr
      simp [SettingService.newRow, hkey.1, hkey.2] at this
    · split at hrefuse <;> cases hrefuse

/-- An update that returned has rewritten its row and nothing else of the table. -/
theorem updateSetting_ok {settingId : UUID} {command : UpdateSettingCommand}
    {s s' : Midway Db TextStore} {result : SettingResult}
    (h : (SettingService.updateSetting env settingId command).exec s t = (.ok result, s')) :
    ∃ row, System.SettingRepository.findById s.work settingId false = some row ∧
      validateRowValue env.toEnv row command.value = .ok () ∧
      s'.work.settings = s.work.settings.map (fun r =>
        if r.id = settingId && !r.isDeleted then rewritten env command r else r) ∧
      s'.store (cacheKey row.namespace row.settingKey) = none := by
  obtain ⟨found, s₁, hfound, h₁⟩ := Script.exec_bind_ok h
  obtain ⟨rfl, rfl⟩ := exec_select_ok hfound
  obtain ⟨row, s₂, hrequire, h₂⟩ := Script.exec_bind_ok h₁
  obtain ⟨hrow, rfl⟩ := exec_check_ok hrequire
  obtain ⟨⟨⟩, s₃, hcheck, h₃⟩ := Script.exec_bind_ok h₂
  obtain ⟨hvalue, rfl⟩ := exec_check_ok hcheck
  obtain ⟨n, s₄, hstatement, h₄⟩ := Script.exec_bind_ok h₃
  obtain ⟨db', hupdate, rfl⟩ := Script.exec_query_ok hstatement
  obtain ⟨c, hc, -, rfl⟩ := Prog.exec_executeCount_iff.mp hupdate
  cases hc
  obtain ⟨⟨⟩, s₅, hraise, h₅⟩ := Script.exec_bind_ok h₄
  obtain ⟨-, rfl⟩ := Script.exec_raiseIf_ok hraise
  obtain ⟨⟨⟩, s₆, hdelete, h₆⟩ := Script.exec_bind_ok h₅
  cases hdelete
  obtain ⟨again, s₇, hagain, h₇⟩ := Script.exec_bind_ok h₆
  obtain ⟨rfl, rfl⟩ := exec_select_ok hagain
  obtain ⟨-, rfl⟩ := exec_check_ok h₇
  obtain ⟨stored, hstored, rfl⟩ := SettingService.require_ok hrow
  refine ⟨stored, hstored, hvalue, ?_, TextStore.put_self _ _ _⟩
  exact settings_update (f := rewritten env command) fun _ => rfl

theorem serve_ok {α : Type} {p : TextScript α} {a : α} (h : p.serve w t = (.ok a, w')) :
    ∃ s', p.exec ⟨w.db, w.db, w.store⟩ t = (.ok a, s') ∧ w' = ⟨s'.work, s'.store⟩ := by
  unfold Script.serve at h
  split at h
  · rename_i s' hexec
    cases h
    exact ⟨s', hexec, rfl⟩
  · cases h

theorem validateValueType_of_row {row : SystemSetting} {value : JsonValue}
    (h : validateRowValue env.toEnv row value = .ok ()) :
    validateValueType row.valueType value = .ok () := by
  unfold validateRowValue at h
  split at h
  · cases h
  · assumption

/-- **An accepted write leaves its row, and no other under its key.** -/
theorem SettingWrite.run_ok {write : SettingWrite} (hkeyed : Keyed w.db)
    (h : (write.run env).serve w t = (.ok (), w')) :
    ∃ row, write.row env w.db = some row ∧
      System.SettingRepository.findByNamespaceKey w'.db row.namespace row.settingKey = some row ∧
        validateValueType row.valueType write.value = .ok () := by
  obtain ⟨s', hexec, rfl⟩ := serve_ok h
  cases write with
  | create settingId command =>
    obtain ⟨hvalue, hrows, hnew⟩ := createSetting_ok hexec
    refine ⟨_, rfl, find?_eq_of_unique ?_ ?_ fun r hr hkey => ?_, validateValueType_of_row hvalue⟩
    · rw [hrows]
      exact List.mem_append_right _ (List.mem_singleton_self _)
    · simp [SettingService.newRow]
    · rw [hrows] at hr
      simp only [Bool.and_eq_true, decide_eq_true_eq] at hkey
      rcases List.mem_append.mp hr with hr | hr
      · exact absurd hkey.1 (hnew r hr)
      · exact List.mem_singleton.mp hr
  | update settingId command =>
    obtain ⟨result, s₁, h₁, hret⟩ := Script.exec_bind_ok hexec
    cases hret
    obtain ⟨row, hrow, hvalue, hrows, -⟩ := updateSetting_ok h₁
    have hfound := List.mem_of_find?_eq_some hrow
    have hp := List.find?_some hrow
    simp only [Bool.or_eq_true, Bool.and_eq_true, decide_eq_true_eq, Bool.not_eq_true',
      Bool.false_eq_true, false_or] at hp
    refine ⟨_, congrArg (Option.map (rewritten env command)) hrow,
      find?_eq_of_unique ?_ ?_ fun r hr hkey => ?_, validateValueType_of_row hvalue⟩
    · rw [hrows]
      exact List.mem_map.mpr ⟨row, hfound, if_pos (by simp [hp])⟩
    · simp [rewritten, hp.2]
    · rw [hrows] at hr
      obtain ⟨x, hx, rfl⟩ := List.mem_map.mp hr
      have hsame : x = row := by
        refine List.inj_on_of_nodup_map hkeyed hx hfound ?_
        simp only [Bool.and_eq_true, decide_eq_true_eq] at hkey
        split at hkey <;> exact Prod.ext hkey.1.1 hkey.1.2
      rw [hsame, if_pos (by simp [hp])]

/-! ## 5. What a read returns -/

section Reads

variable {row : SystemSetting} {value : JsonValue} {lenient : Bool}

/-- The table has a readable row of a facility setting, written with `value`. -/
structure Configured (env : TextEnv) (row : SystemSetting) (value : JsonValue) (db : Db) : Prop where
  found : System.SettingRepository.findByNamespaceKey db "facility" row.settingKey = some row
  active : row.isActive = true
  written : row.value = env.written value
  column : env.loads (env.column (env.dumps value)) = some value

/-- **Out of the table a value is decoded twice**, by the entity and by the reader. -/
theorem Configured.stored (h : Configured env row value w.db) :
    storedValue env.toEnv row.settingKey row.valueType
        (SettingRepository.asSetting env (some row)) =
          .ok (some (coerceJsonbValue env.toEnv value)) ∧
      storedValueLenient env.toEnv row.valueType (SettingRepository.asSetting env (some row)) =
        .ok (some (coerceJsonbValue env.toEnv value)) := by
  have hparsed : parseJsonbValue env row.value = value := by
    rw [h.written]
    exact congrArg (fun x => Option.getD x _) h.column
  unfold storedValue storedValueLenient SettingRepository.asSetting
  rw [Option.map_some, hparsed, Option.filter_some, if_pos h.active]
  dsimp only
  rw [if_neg (not_not.mpr rfl)]
  refine ⟨rfl, ?_⟩
  rw [Option.filter_some, if_pos (decide_eq_true rfl), Option.map_some]

theorem read_eq : read env lenient row.settingKey row.valueType =
    SettingService.cacheThenTable env row.settingKey (if lenient then
      storedValueLenient env.toEnv row.valueType
    else storedValue env.toEnv row.settingKey row.valueType) := by
  cases lenient <;> rfl

/-- A read that finds nothing in the cache returns what the reader makes of the value, and caches
the text of that. -/
theorem read_miss (h : Configured env row value w.db)
    (hmiss : w.store.get t (cacheKey "facility" row.settingKey) = none) :
    (read env lenient row.settingKey row.valueType).serve w t =
      (.ok (some (coerceJsonbValue env.toEnv value)), ⟨w.db,
        w.store.put (cacheKey "facility" row.settingKey)
          (some ⟨env.dumps (coerceJsonbValue env.toEnv value), t + cacheExpiryDay * 1000000⟩)⟩) := by
  have hstored : (if lenient then storedValueLenient env.toEnv row.valueType
      else storedValue env.toEnv row.settingKey row.valueType)
        (SettingRepository.asSetting env (some row)) =
          .ok (some (coerceJsonbValue env.toEnv value)) := by
    cases lenient
    · exact h.stored.1
    · exact h.stored.2
  rw [read_eq]
  generalize (if lenient then _ else _ : Option SystemSetting → _) = stored at hstored ⊢
  unfold Script.serve SettingService.cacheThenTable SettingCache.getValue
  simp only [Script.bind_eq, Script.exec_bind, Script.ask, Script.exec, hmiss,
    SettingCache.decoded, SettingService.readTable, SettingRepository.getByNamespaceKey,
    Prog.select, Script.query, h.found, hstored, SettingService.check, SettingCache.setValue,
    Script.tell, Script.pure_eq]

/-- **Out of the cache too**: by the cache, and by the reader. -/
theorem read_hit {text : String} (hnull : value ≠ .null)
    (hhit : w.store.get t (cacheKey "facility" row.settingKey) = some text)
    (htext : env.loads text = some value) :
    (read env lenient row.settingKey row.valueType).serve w t =
      (.ok (some (coerceJsonbValue env.toEnv value)), w) := by
  have hdecoded : SettingCache.decoded env (some text) = .ret (some value) := by
    unfold SettingCache.decoded
    dsimp only
    rw [htext]
    cases value <;> first | rfl | exact absurd rfl hnull
  rw [read_eq]
  unfold Script.serve SettingService.cacheThenTable SettingCache.getValue
  simp only [Script.bind_eq, Script.exec_bind, Script.ask, Script.exec, hhit, hdecoded,
    Script.pure_eq]

/-- Under the key there is nothing, or a text of the value. -/
def CacheOf (env : TextEnv) (settingKey : String) (value : JsonValue) (store : TextStore) : Prop :=
  ∀ e ∈ store (cacheKey "facility" settingKey), env.loads e.text = some value

/-- **A value that is not decoded further is returned by every read.** -/
theorem reads_agree (hnull : value ≠ .null) (hplain : coerceJsonbValue env.toEnv value = value)
    (hdumps : env.loads (env.dumps value) = some value) :
    ∀ (reads : List (Int × Bool)) {w : World Db TextStore}, Configured env row value w.db →
      CacheOf env row.settingKey value w.store →
        ∀ result ∈ results env row.settingKey row.valueType reads w, result = .ok (some value)
  | [], _, _, _, _, h => nomatch h
  | (t, lenient) :: reads, w, hconf, hcache, result, h => by
    unfold results at h
    cases hget : w.store.get t (cacheKey "facility" row.settingKey) with
    | none =>
      obtain ⟨w₁, hw₁⟩ : ∃ w₁ : World Db TextStore, w₁ = ⟨w.db, w.store.put
          (cacheKey "facility" row.settingKey)
            (some ⟨env.dumps value, t + cacheExpiryDay * 1000000⟩)⟩ := ⟨_, rfl⟩
      rw [read_miss hconf hget, hplain, ← hw₁] at h
      rcases List.mem_cons.mp h with rfl | h
      · rfl
      · have hconf₁ : Configured env row value w₁.db := by rwa [hw₁]
        have hentry : w₁.store (cacheKey "facility" row.settingKey) =
            some ⟨env.dumps value, t + cacheExpiryDay * 1000000⟩ := by
          rw [hw₁]
          exact TextStore.put_self _ _ _
        have hcache₁ : CacheOf env row.settingKey value w₁.store := fun e he => by
          cases Option.some.inj (hentry.symm.trans he)
          exact hdumps
        exact reads_agree hnull hplain hdumps reads hconf₁ hcache₁ result h
    | some text =>
      obtain ⟨e, he, rfl⟩ := Option.map_eq_some_iff.mp hget
      have htext := hcache e (Option.mem_filter_iff.mp he).1
      rw [read_hit hnull hget htext, hplain] at h
      rcases List.mem_cons.mp h with rfl | h
      · rfl
      · exact reads_agree hnull hplain hdumps reads hconf hcache result h

end Reads

/-- A string that is not itself the JSON text of another value, or no string at all. -/
def NotJsonText (env : TextEnv) (value : JsonValue) : Prop :=
  ∀ s, value = .str s → ∀ other, env.loads s = some other → other = .str s

theorem coerce_eq_self_iff {value : JsonValue} :
    coerceJsonbValue env.toEnv value = value ↔ NotJsonText env value := by
  unfold NotJsonText
  cases value with
  | str s =>
    cases hloads : env.loads s with
    | none => simp [coerceJsonbValue, hloads]
    | some other => simp [coerceJsonbValue, hloads]
  | _ => simp [coerceJsonbValue]

/-- **Cached and uncached reads agree with what was written just when** it is not a string that is
itself JSON text.  Such a string has lost its quotes when the entity or the cache gives it to the
reader, and the reader decodes it once more; any other value it leaves as it is, and then the text
that it caches is one of the value again, so that the argument goes on to the later reads. -/
theorem readsAgree_iff {write : SettingWrite} {row : SystemSetting} (hkeyed : Keyed w.db)
    (hwrite : (write.run env).serve w t = (.ok (), w')) (hrow : write.row env w.db = some row)
    (hfacility : row.namespace = "facility") (hactive : row.isActive = true)
    (hmiss : w'.store (cacheKey "facility" row.settingKey) = none)
    (hdumps : env.loads (env.dumps write.value) = some write.value)
    (hcolumn : env.loads (env.column (env.dumps write.value)) = some write.value) :
    ReadsAgree env row write.value w' ↔ NotJsonText env write.value := by
  obtain ⟨row', hrow', hfound, hvalue⟩ := SettingWrite.run_ok hkeyed hwrite
  obtain rfl := Option.some.inj (hrow.symm.trans hrow')
  have hwritten : row.value = env.written write.value := by
    cases write with
    | create => exact (Option.some.inj hrow) ▸ rfl
    | update =>
      obtain ⟨_, -, rfl⟩ := Option.map_eq_some_iff.mp hrow
      rfl
  have hconf : Configured env row write.value w'.db :=
    ⟨hfacility ▸ hfound, hactive, hwritten, hcolumn⟩
  have hnull : write.value ≠ .null := by
    rintro hnull
    rw [hnull] at hvalue
    unfold validateValueType at hvalue
    split at hvalue <;> simp_all
  have hget : ∀ t, w'.store.get t (cacheKey "facility" row.settingKey) = none := fun t => by
    unfold TextStore.get
    rw [hmiss]
    rfl
  rw [← coerce_eq_self_iff]
  constructor
  · intro hagree
    -- The first read decides it already.
    have hfirst := hagree [(0, false)] (.ok (some (coerceJsonbValue env.toEnv write.value)))
    unfold results at hfirst
    rw [read_miss hconf (hget 0)] at hfirst
    exact Option.some.inj (Except.ok.inj (hfirst (by simp)))
  · intro hplain reads
    exact reads_agree hnull hplain hdumps reads hconf fun e he => by
      rw [hmiss] at he
      cases he

/-! ### 5.1 The number four, and the string of its digit -/

/-- The texts of small numbers and of their digits in quotes. -/
def TextEnv.digits : TextEnv where
  app := .utc
  loads s := if s = "4" then some (.int 4) else if s = "\"4\"" then some (.str "4") else none
  dumps
    | .int 4 => "4"
    | .str "4" => "\"4\""
    | _ => ""
  column s := s

/-- A facility setting under a key that is not checked further. -/
def notice (valueType : String) (value : JsonValue) : CreateSettingCommand :=
  { «namespace» := "facility", settingKey := "notice", valueType, value }

def emptyWorld : World Db TextStore := ⟨{}, fun _ => none⟩

/-- What a creation leaves of an empty world. -/
def afterNotice (command : CreateSettingCommand) : World Db TextStore :=
  (((SettingWrite.create 1 command).run .digits).serve emptyWorld 0).2

def noticeRow (command : CreateSettingCommand) : SystemSetting :=
  SettingService.newRow .digits 1 command

theorem readsAgree_four : ReadsAgree .digits (noticeRow (notice "number" (.int 4))) (.int 4)
    (afterNotice (notice "number" (.int 4))) :=
  (readsAgree_iff (w := emptyWorld) (t := 0) List.nodup_nil (rfl :
    ((SettingWrite.create 1 (notice "number" (.int 4))).run .digits).serve emptyWorld 0 =
      (.ok (), afterNotice (notice "number" (.int 4)))) rfl rfl rfl rfl rfl rfl).mpr
        fun _ h => nomatch h

/-- Whether a read returned the number four. -/
def isFour : Except SystemError (Option JsonValue) → Bool
  | .ok (some (.int 4)) => true
  | _ => false

/-- The string `"4"` is accepted, and every read of it returns the number. -/
theorem not_readsAgree_digit :
    ((SettingWrite.create 1 (notice "string" (.str "4"))).run .digits).serve emptyWorld 0 =
      (.ok (), afterNotice (notice "string" (.str "4"))) ∧
    ¬ ReadsAgree .digits (noticeRow (notice "string" (.str "4"))) (.str "4")
      (afterNotice (notice "string" (.str "4"))) := by
  refine ⟨rfl, fun h => ?_⟩
  have hfirst : true ∈ (results .digits (noticeRow (notice "string" (.str "4"))).settingKey
      "string" [(0, false)] (afterNotice (notice "string" (.str "4")))).map isFour := by
    decide +kernel
  obtain ⟨result, hresult, hfour⟩ := List.mem_map.mp hfirst
  rw [h _ result hresult] at hfour
  cases hfour

end NewlifeCore.System.Texts
