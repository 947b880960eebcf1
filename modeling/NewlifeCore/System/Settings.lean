import NewlifeCore.Facility.Settings
import NewlifeCore.Txn.Desk

/-!
# `SettingService` and its cache

The settings table with the writers of `setting_service.py`, and the readers that ask the cache
before the table.  The cache is a second store: its commands take effect at once, while a write
waits for the commit that `CoreRequestMiddleware.dispatch` makes at the end of the request.
-/

namespace NewlifeCore.System

open Txn

/-! ## 1. The table -/

/-- `system.setting`. -/
structure SystemSetting where
  id : UUID
  «namespace» : String := "facility"
  settingKey : String
  valueType : String
  value : JsonValue
  isBuiltIn : Bool := false
  isActive : Bool := true
  isDeleted : Bool := false
  deleteReason : Option String := none
  remark : Option String := none

structure Db where
  settings : List SystemSetting := []

inductive RowName
  | setting (id : UUID)
deriving DecidableEq

instance : RowStore Db RowName where
  Row := List SystemSetting
  row db x := db.settings.filter fun r => RowName.setting r.id = x

def settingTable : Table Db RowName SystemSetting where
  get := Db.settings
  set _ l := { settings := l }
  name r := .setting r.id
  frame _ _ _ h := h

/-- `SystemErrorCode`. -/
inductive SystemErrorCode
  | settingNotFound
  | settingKeyExists
  | settingInRecycleBin
  | settingBuiltinDeleteForbidden
deriving DecidableEq, Repr

/-- What the service raises. -/
structure SystemError where
  kind : ErrorKind
  detail : String
  errorCode : Option SystemErrorCode := none
deriving DecidableEq, Repr

def settingNotFound : SystemError := ⟨.notFound, "Setting not found", some .settingNotFound⟩

def badRequest (detail : String) : SystemError := ⟨.badRequest, detail, none⟩

/-- A check of the facility values, raised by this service. -/
def ofApi {α : Type} : Except ApiError α → Except SystemError α
  | .ok a => .ok a
  | .error e => .error ⟨e.kind, e.detail, none⟩

/-! ## 2. The cache -/

structure CacheEntry where
  value : JsonValue
  expireAt : Int

/-- What is stored under each key; an entry that reached its expiry is not there. -/
def CacheStore := String → Option CacheEntry

/-- `CacheKeys(resource="setting")`, without the name of the application. -/
def cacheKey (ns settingKey : String) : String :=
  "setting:" ++ ns ++ ":" ++ settingKey

/-- `CacheExpiry.DAY`. -/
def cacheExpiryDay : Int := 86400

namespace CacheStore

variable (store : CacheStore) (t : Int) {key key' : String}

/-- The value under a key; a cached `null` reads as nothing. -/
def get (key : String) : Option JsonValue :=
  ((store key).filter fun e => t < e.expireAt).bind fun e => match e.value with
    | .null => none
    | value => some value

def put (key : String) (e : Option CacheEntry) : CacheStore := fun k => if k = key then e else store k

def setex (key : String) (seconds : Int) (value : JsonValue) : CacheStore :=
  store.put key (some ⟨value, t + seconds * 1000000⟩)

def delete (key : String) : CacheStore := store.put key none

@[simp] theorem put_self (e : Option CacheEntry) : store.put key e key = e := if_pos rfl

theorem put_other (e : Option CacheEntry) (h : key' ≠ key) : store.put key e key' = store key' :=
  if_neg h

end CacheStore

abbrev SettingQuery (α : Type) := Prog Db RowName Empty SystemError α

abbrev SettingScript (α : Type) := Script Db RowName CacheStore SystemError α

namespace SettingCache

def getValue (ns settingKey : String) : SettingScript (Option JsonValue) :=
  Script.ask fun store t => store.get t (cacheKey ns settingKey)

def setValue (ns settingKey : String) (value : JsonValue) : SettingScript Unit :=
  Script.tell fun store t => store.setex t (cacheKey ns settingKey) cacheExpiryDay value

def invalidate (ns settingKey : String) : SettingScript Unit :=
  Script.tell fun store _ => store.delete (cacheKey ns settingKey)

end SettingCache

/-! ## 3. `SettingRepository` -/

namespace SettingRepository

/-- The row of an id. -/
def findById (db : Db) (settingId : UUID) (includeDeleted : Bool) : Option SystemSetting :=
  db.settings.find? fun r => r.id = settingId && (includeDeleted || !r.isDeleted)

def getById (settingId : UUID) (includeDeleted : Bool := false) :
    SettingQuery (Option SystemSetting) :=
  Prog.select fun db _ => findById db settingId includeDeleted

/-- The undeleted row of a key. -/
def findByNamespaceKey (db : Db) (ns settingKey : String) : Option SystemSetting :=
  db.settings.find? fun r => r.namespace = ns && r.settingKey = settingKey && !r.isDeleted

def getByNamespaceKey (ns settingKey : String) : SettingQuery (Option SystemSetting) :=
  Prog.select fun db _ => findByNamespaceKey db ns settingKey

def updateValue (settingId : UUID) (value : JsonValue) (remark : Option String) :
    SettingQuery Nat :=
  Prog.executeCount fun db => .ok (settingTable.update
    (fun r => r.id = settingId && !r.isDeleted)
    (fun r => { r with value, remark := remark.orElse fun _ => r.remark }) (fun _ => rfl) db)

def deleteSoft (settingId : UUID) (reason : Option String) : SettingQuery Nat :=
  Prog.executeCount fun db => .ok (settingTable.update
    (fun r => r.id = settingId && !r.isDeleted)
    (fun r => { r with isDeleted := true, deleteReason := reason }) (fun _ => rfl) db)

def deleteHard (settingId : UUID) : SettingQuery Nat :=
  Prog.executeCount fun db => .ok (settingTable.delete (fun r => r.id = settingId) db)

def restore (settingIds : List UUID) : SettingQuery Nat :=
  if settingIds.isEmpty then pure 0
  else Prog.executeCount fun db => .ok (settingTable.update
    (fun r => r.id ∈ settingIds && r.isDeleted)
    (fun r => { r with isDeleted := false, deleteReason := none }) (fun _ => rfl) db)

end SettingRepository

/-! ## 4. `SettingService` -/

/-- What the service is built with: the time zones it knows and the JSON decoder. -/
structure Env where
  app : App
  /-- `ujson.loads`; none where it raises. -/
  loads : String → Option JsonValue

/-- `SettingResult`, the columns of the row. -/
abbrev SettingResult := SystemSetting

structure UpdateSettingCommand where
  value : JsonValue
  remark : Option String := none

structure DeleteCommand where
  reason : Option String := none
  permanent : Bool := false

namespace SettingService

/-- `_validate_value_type`. -/
def validateValueType (valueType : String) (value : JsonValue) : Except SystemError Unit :=
  match valueType, value with
  | "string", .str _ => .ok ()
  | "string", _ => .error (badRequest "value must be a JSON string")
  | "number", .int _ => .ok ()
  | "number", .float _ => .ok ()
  | "number", _ => .error (badRequest "value must be a JSON number")
  | "boolean", .bool _ => .ok ()
  | "boolean", _ => .error (badRequest "value must be a JSON boolean")
  | "object", .obj _ => .ok ()
  | "object", _ => .error (badRequest "value must be a JSON object")
  | "array", .arr _ => .ok ()
  | "array", _ => .error (badRequest "value must be a JSON array")
  | _, _ => .error (badRequest ("Unsupported value_type: " ++ valueType))

/-- The value was checked, and what the check made of it is dropped. -/
def checked {α : Type} (x : Except ApiError α) : Except SystemError Unit :=
  ofApi (x.map fun _ => ())

variable (env : Env)

/-- `_validate_facility_setting_value`. -/
def validateFacilitySettingValue (settingKey : String) (value : JsonValue) :
    Except SystemError Unit :=
  if settingKey = "timezone" then
    checked (NewlifeCore.SettingService.parseTimezone env.app value)
  else if settingKey = "recurring_booking_availability_window" then
    checked (NewlifeCore.SettingService.parseAvailabilityWindow value)
  else if settingKey ∈ ["min_recurring_booking_weeks", "pending_payment_hold_hours",
      "pending_payment_hold_days"] then
    checked (NewlifeCore.SettingService.parsePositiveInt value settingKey)
  else if settingKey = "recurring_booking_test_window_override" then
    match value with
    | .bool _ => .ok ()
    | _ => .error (badRequest (settingKey ++ " must be a boolean"))
  else if settingKey = "recurring_booking_test_booker_allowlist" then
    checked (NewlifeCore.SettingService.parseTestBookerAllowlist value)
  else .ok ()

/-- The checks `update_setting` makes of a new value for a row. -/
def validateRowValue (row : SystemSetting) (value : JsonValue) : Except SystemError Unit :=
  match validateValueType row.valueType value with
  | .error e => .error e
  | .ok () =>
    if row.namespace = "facility" then validateFacilitySettingValue env row.settingKey value
    else .ok ()

def ofExcept {α : Type} : Except SystemError α → SettingScript α
  | .ok a => .ret a
  | .error e => .raise e

/-- `if not row: raise NotFoundException(...)`. -/
def require (row : Option SystemSetting) : SettingScript SystemSetting :=
  match row with
  | some row => .ret row
  | none => .raise settingNotFound

def updateSetting (settingId : UUID) (command : UpdateSettingCommand) :
    SettingScript SettingResult := do
  let row ← Script.query (SettingRepository.getById settingId)
  let row ← require row
  ofExcept (validateRowValue env row command.value)
  let updated ← Script.query
    (SettingRepository.updateValue settingId command.value command.remark)
  Script.raiseIf (updated < 1) settingNotFound
  SettingCache.invalidate row.namespace row.settingKey
  let refreshed ← Script.query (SettingRepository.getById settingId)
  require refreshed

/-- The soft delete raises again for a row that is deleted already. -/
def deleteRow (settingId : UUID) (row : SystemSetting) (command : DeleteCommand) :
    SettingScript Nat :=
  if command.permanent then Script.query (SettingRepository.deleteHard settingId)
  else if row.isDeleted then .raise settingNotFound
  else Script.query (SettingRepository.deleteSoft settingId command.reason)

def deleteSetting (settingId : UUID) (command : DeleteCommand) : SettingScript Unit := do
  let row ← Script.query (SettingRepository.getById settingId command.permanent)
  let row ← require row
  Script.raiseIf row.isBuiltIn ⟨.badRequest, "Built-in settings cannot be deleted",
    some .settingBuiltinDeleteForbidden⟩
  let affected ← deleteRow settingId row command
  Script.raiseIf (affected < 1) settingNotFound
  SettingCache.invalidate row.namespace row.settingKey

/-- The deleted rows of some ids. -/
def deletedRows : List UUID → SettingScript (List SystemSetting)
  | [] => .ret []
  | settingId :: ids => do
    let row ← Script.query (SettingRepository.getById settingId true)
    let rows ← deletedRows ids
    pure ((row.filter SystemSetting.isDeleted).toList ++ rows)

def restoreSettings (ids : List UUID) : SettingScript Unit :=
  if ids.isEmpty then .ret ()
  else do
    let rows ← deletedRows ids
    let affected ← Script.query (SettingRepository.restore ids)
    Script.raiseIf (affected < 1) ⟨.notFound, "No deleted settings found to restore", none⟩
    Script.each rows fun row => SettingCache.invalidate row.namespace row.settingKey

/-! ### 4.1 The readers -/

/-- `_coerce_jsonb_value`: a text that is JSON is decoded once more. -/
def coerceJsonbValue (value : JsonValue) : JsonValue :=
  match value with
  | .str s => (env.loads s).getD (.str s)
  | value => value

/-- What `_read_facility_setting` makes of the stored row. -/
def storedValue (settingKey expectedType : String) (row : Option SystemSetting) :
    Except SystemError (Option JsonValue) :=
  match row.filter SystemSetting.isActive with
  | none => .error ⟨.notFound, "facility." ++ settingKey ++ " setting is not configured", none⟩
  | some row =>
    if row.valueType ≠ expectedType then
      .error (badRequest ("facility." ++ settingKey ++ " must have value_type " ++ expectedType))
    else .ok (some (coerceJsonbValue env row.value))

/-- What `_read_facility_setting_lenient` makes of it. -/
def storedValueLenient (expectedType : String) (row : Option SystemSetting) :
    Except SystemError (Option JsonValue) :=
  .ok (((row.filter SystemSetting.isActive).filter fun row => row.valueType = expectedType).map
    fun row => coerceJsonbValue env row.value)

/-- A value just read is cached. -/
def fill (settingKey : String) (value : JsonValue) : SettingScript (Option JsonValue) := do
  SettingCache.setValue "facility" settingKey value
  pure (some value)

/-- The table is asked, and its answer cached. -/
def readTable (settingKey : String)
    (stored : Option SystemSetting → Except SystemError (Option JsonValue)) :
    SettingScript (Option JsonValue) := do
  let row ← Script.query (SettingRepository.getByNamespaceKey "facility" settingKey)
  match stored row with
  | .error e => .raise e
  | .ok none => .ret none
  | .ok (some value) => fill settingKey value

/-- The cache is asked before the table. -/
def cacheThenTable (settingKey : String)
    (stored : Option SystemSetting → Except SystemError (Option JsonValue)) :
    SettingScript (Option JsonValue) := do
  match ← SettingCache.getValue "facility" settingKey with
  | some cached => pure (some (coerceJsonbValue env cached))
  | none => readTable settingKey stored

def readFacilitySetting (settingKey expectedType : String) : SettingScript (Option JsonValue) :=
  cacheThenTable env settingKey (storedValue env settingKey expectedType)

def readFacilitySettingLenient (settingKey expectedType : String) :
    SettingScript (Option JsonValue) :=
  cacheThenTable env settingKey (storedValueLenient env expectedType)

end SettingService

/-! ## 5. The requests -/

/-- `FacilitySettingKey`. -/
inductive FacilitySettingKey
  | timezone
  | maxBookingLines
  | recurringBookingAvailabilityWindow
  | minRecurringBookingWeeks
  | pendingPaymentHoldHours
  | pendingPaymentHoldDays
  | recurringBookingTestWindowOverride
  | recurringBookingTestBookerAllowlist
deriving DecidableEq

namespace FacilitySettingKey

def name : FacilitySettingKey → String
  | timezone => "timezone"
  | maxBookingLines => "max_booking_lines"
  | recurringBookingAvailabilityWindow => "recurring_booking_availability_window"
  | minRecurringBookingWeeks => "min_recurring_booking_weeks"
  | pendingPaymentHoldHours => "pending_payment_hold_hours"
  | pendingPaymentHoldDays => "pending_payment_hold_days"
  | recurringBookingTestWindowOverride => "recurring_booking_test_window_override"
  | recurringBookingTestBookerAllowlist => "recurring_booking_test_booker_allowlist"

/-- The type its getter expects. -/
def valueType : FacilitySettingKey → String
  | timezone => "string"
  | recurringBookingAvailabilityWindow => "object"
  | recurringBookingTestWindowOverride => "boolean"
  | recurringBookingTestBookerAllowlist => "object"
  | _ => "number"

/-- What its getter makes of the stored row. -/
def stored (env : Env) (key : FacilitySettingKey) (row : Option SystemSetting) :
    Except SystemError (Option JsonValue) :=
  match key with
  | recurringBookingTestWindowOverride | recurringBookingTestBookerAllowlist =>
    SettingService.storedValueLenient env key.valueType row
  | _ => SettingService.storedValue env key.name key.valueType row

/-- The read of its getter. -/
def read (env : Env) (key : FacilitySettingKey) : SettingScript (Option JsonValue) :=
  match key with
  | recurringBookingTestWindowOverride | recurringBookingTestBookerAllowlist =>
    SettingService.readFacilitySettingLenient env key.name key.valueType
  | _ => SettingService.readFacilitySetting env key.name key.valueType

theorem read_eq (env : Env) (key : FacilitySettingKey) :
    key.read env = SettingService.cacheThenTable env key.name (key.stored env) := by
  cases key <;> rfl

end FacilitySettingKey

/-- A request about the settings. -/
inductive SettingCall
  | read (key : FacilitySettingKey)
  | update (settingId : UUID) (command : UpdateSettingCommand)
  | delete (settingId : UUID) (command : DeleteCommand)
  | restore (ids : List UUID)

/-- What it runs; only a read returns a value. -/
def SettingCall.body (env : Env) : SettingCall → SettingScript (Option JsonValue)
  | read key => key.read env
  | update settingId command =>
    (SettingService.updateSetting env settingId command).bind fun _ => .ret none
  | delete settingId command =>
    (SettingService.deleteSetting settingId command).bind fun _ => .ret none
  | restore ids => (SettingService.restoreSettings ids).bind fun _ => .ret none

/-- The requests being served, over the table and the cache. -/
abbrev SettingDesk := Desk Db RowName CacheStore SystemError (Option JsonValue) SettingCall

end NewlifeCore.System
