import NewlifeCore.Facility.Repositories
import NewlifeCore.Facility.Recurring

/-!
# `SettingService`: the facility settings

Each getter reads one row of the `facility` namespace and parses its value.  The setting cache is
transparent here: a getter reads the stored row.
-/

namespace NewlifeCore

open Txn Prog

/-- The signed part of an override review token: the format version, the digest of what was
reviewed and the fingerprint of each displaced Booking.  `t` is a dict; its last pair with a key
counts. -/
structure ReviewPayload where
  v : Int
  c : String
  t : List (String × String)

/-- `dict.get`. -/
def dictGet (t : List (String × String)) (key : String) : Option String :=
  (t.reverse.find? fun p => p.1 = key).map Prod.snd

/-- The primitives of review tokens: SHA-256 in hex, the keyed signature of a token body, and the
encoding of a payload as base64 JSON. -/
structure ReviewCrypto where
  digest : String → String
  sign : String → String
  encode : ReviewPayload → String
  decode : String → Option ReviewPayload

/-- What base64, JSON and HMAC promise about them: a payload is read back with the same dict. -/
structure ReviewCrypto.Lawful (crypto : ReviewCrypto) : Prop where
  decode_encode : ∀ p, ∃ q, crypto.decode (crypto.encode p) = some q ∧ q.v = p.v ∧ q.c = p.c ∧
    ∀ key, dictGet q.t key = dictGet p.t key
  encode_plain : ∀ p, '.' ∉ (crypto.encode p).toList
  encode_ne : ∀ p, crypto.encode p ≠ ""
  sign_ne : ∀ body, crypto.sign body ≠ ""

/-- What the process is configured with: the time zone database, the environment and the review
token primitives under its secret. -/
structure App where
  zoneInfo : String → Option Zone
  isProd : Bool
  review : ReviewCrypto

namespace SettingService

/-- The active row under a key. -/
def activeRow (db : Db) (settingKey : String) : Option Setting :=
  (db.settings.find? fun s => s.settingKey = settingKey && !s.isDeleted).filter Setting.isActive

def readFacilitySetting (settingKey expectedType : String) : Portal JsonValue := do
  match ← select (fun db _ => activeRow db settingKey) with
  | none => raise (notFound s!"facility.{settingKey} setting is not configured")
  | some row =>
    raiseIf (row.valueType ≠ expectedType)
      (badRequest s!"facility.{settingKey} must have value_type {expectedType}")
    pure row.value

/-- Missing, inactive and wrongly typed rows read as none. -/
def readFacilitySettingLenient (settingKey expectedType : String) : Portal (Option JsonValue) :=
  select fun db _ =>
    ((activeRow db settingKey).filter fun s => s.valueType = expectedType).map Setting.value

/-! ## 1. Parsing -/

def parsePositiveInt (value : JsonValue) (fieldName : String) : Except ApiError Int :=
  match value with
  | .int n => if n < 1 then .error (badRequest s!"{fieldName} must be a positive integer") else .ok n
  | _ => .error (badRequest s!"{fieldName} must be a positive integer")

theorem parsePositiveInt_pos {value : JsonValue} {fieldName : String} {n : Int}
    (h : parsePositiveInt value fieldName = .ok n) : 1 ≤ n := by
  unfold parsePositiveInt at h
  split at h
  · split at h
    · cases h
    · cases h
      omega
  · cases h

/-- Python's `int(value)`. -/
def pythonInt : JsonValue → Except ApiError Int
  | .int n => .ok n
  | .bool b => .ok (if b then 1 else 0)
  | .float q => .ok (if q < 0 then -(-q).floor else q.floor)
  | .str s =>
    match (strip s).toInt? with
    | some n => .ok n
    | none => .error ⟨.valueError, "invalid literal for int()", none, []⟩
  | _ => .error ⟨.typeError, "int() argument must be a string or a real number", none, []⟩

/-- `dict.get` on a decoded object. -/
def fieldOf (fields : List (String × JsonValue)) (key : String) : Option JsonValue :=
  (fields.find? fun f => f.1 = key).map Prod.snd

structure AvailabilityWindow where
  amount : Int
  unit : RecurringAvailabilityUnit

def parseAvailabilityWindow (value : JsonValue) : Except ApiError AvailabilityWindow :=
  match value with
  | .obj fields =>
    match parsePositiveInt ((fieldOf fields "amount").getD .null) "amount" with
    | .error e => .error e
    | .ok amount =>
      match fieldOf fields "unit" with
      | some (.str "days") => .ok ⟨amount, .days⟩
      | some (.str "weeks") => .ok ⟨amount, .weeks⟩
      | some (.str "months") => .ok ⟨amount, .months⟩
      | _ => .error (badRequest "unit must be days, weeks, or months")
  | _ => .error (badRequest "facility.recurring_booking_availability_window must be an object")

structure TestBookerAllowlist where
  emailAddresses : List String := []
  emailSuffixes : List String := []

/-- An array of strings, trimmed and lowercased; a missing one is empty. -/
def parseStrings (value : Option JsonValue) : Option (List String) :=
  match value with
  | none => some []
  | some (.arr items) => items.mapM fun
    | .str s => some (strip s).toLower
    | _ => none
  | some _ => none

def parseTestBookerAllowlist (value : JsonValue) : Except ApiError TestBookerAllowlist :=
  match value with
  | .obj fields =>
    match parseStrings (fieldOf fields "emailAddresses") with
    | none => .error (badRequest "emailAddresses must be an array of strings")
    | some addresses =>
      match parseStrings (fieldOf fields "emailSuffixes") with
      | none => .error (badRequest "emailSuffixes must be an array of strings")
      | some suffixes =>
        if suffixes.any fun s => !s.startsWith "@" || s.length < 2 then
          .error (badRequest
            "emailSuffixes entries must begin with '@' and name a complete domain")
        else .ok ⟨addresses, suffixes⟩
  | _ => .error (badRequest "facility.recurring_booking_test_booker_allowlist must be an object")

/-! ## 2. Getters -/

/-- `_validate_iana_timezone`, and the zone it lets through. -/
def parseTimezone (app : App) (value : JsonValue) : Except ApiError Zone :=
  match value with
  | .str name =>
    if strip name = "" then
      .error (badRequest "timezone value must be a non-empty IANA string")
    else
      match app.zoneInfo name with
      | some tz => .ok tz
      | none => .error (badRequest s!"Invalid IANA timezone: {name}")
  | _ => .error (badRequest "timezone value must be a non-empty IANA string")

def getFacilityTimezone (app : App) : Portal Zone := do
  let value ← readFacilitySetting "timezone" "string"
  ofExcept (parseTimezone app value)

def getMaxBookingLines : Portal Int := do
  let value ← readFacilitySetting "max_booking_lines" "number"
  ofExcept (pythonInt value)

def getRecurringBookingAvailabilityWindow : Portal AvailabilityWindow := do
  let value ← readFacilitySetting "recurring_booking_availability_window" "object"
  ofExcept (parseAvailabilityWindow value)

def getMinRecurringBookingWeeks : Portal Int := do
  let value ← readFacilitySetting "min_recurring_booking_weeks" "number"
  ofExcept (parsePositiveInt value "min_recurring_booking_weeks")

def getRecurringBookingTestWindowOverride : Portal Bool := do
  match ← readFacilitySettingLenient "recurring_booking_test_window_override" "boolean" with
  | some (.bool true) => pure true
  | _ => pure false

def getRecurringBookingTestBookerAllowlist : Portal TestBookerAllowlist := do
  match ← readFacilitySettingLenient "recurring_booking_test_booker_allowlist" "object" with
  | none => pure {}
  | some value =>
    match parseTestBookerAllowlist value with
    | .ok allowlist => pure allowlist
    | .error _ => pure {}

def holdDaysFromLegacyHours : Portal Int := do
  let value ← tryCatch (readFacilitySetting "pending_payment_hold_hours" "number") fun e =>
    if e.kind = .notFound then
      raise (notFound "facility.pending_payment_hold_days setting is not configured")
    else raise e
  let hours ← ofExcept (parsePositiveInt value "pending_payment_hold_hours")
  raiseIf (hours % 24 ≠ 0) (badRequest
    "facility.pending_payment_hold_days must be set explicitly because pending_payment_hold_hours is not a multiple of 24")
  pure (hours / 24)

def getPendingPaymentHoldDays : Portal Int := do
  -- only a missing row falls back to the legacy hours
  let value ← tryCatch (do
      let value ← readFacilitySetting "pending_payment_hold_days" "number"
      pure (some value)) fun e =>
    if e.kind = .notFound then pure none else raise e
  match value with
  | none => holdDaysFromLegacyHours
  | some value => ofExcept (parsePositiveInt value "pending_payment_hold_days")

/-! ## 3. Getters only read -/

section ReadOnly

variable (app : App)

@[simp] theorem readFacilitySetting_readOnly (key type : String) :
    ReadOnly (readFacilitySetting key type) := by
  refine ReadOnly.bind (fun row => ?_) (ReadOnly.select _)
  cases row with
  | none => trivial
  | some row => exact ReadOnly.bind (fun _ => ReadOnly.ret _) (ReadOnly.raiseIf _ _)

@[simp] theorem getFacilityTimezone_readOnly : ReadOnly (getFacilityTimezone app) :=
  ReadOnly.bind (fun _ => ReadOnly.ofExcept _) (readFacilitySetting_readOnly _ _)

@[simp] theorem getMaxBookingLines_readOnly : ReadOnly getMaxBookingLines :=
  ReadOnly.bind (fun _ => ReadOnly.ofExcept _) (readFacilitySetting_readOnly _ _)

@[simp] theorem getRecurringBookingAvailabilityWindow_readOnly :
    ReadOnly getRecurringBookingAvailabilityWindow :=
  ReadOnly.bind (fun _ => ReadOnly.ofExcept _) (readFacilitySetting_readOnly _ _)

@[simp] theorem getMinRecurringBookingWeeks_readOnly : ReadOnly getMinRecurringBookingWeeks :=
  ReadOnly.bind (fun _ => ReadOnly.ofExcept _) (readFacilitySetting_readOnly _ _)

@[simp] theorem getRecurringBookingTestWindowOverride_readOnly :
    ReadOnly getRecurringBookingTestWindowOverride := by
  refine ReadOnly.bind (fun value => ?_) (ReadOnly.select _)
  split <;> trivial

@[simp] theorem getRecurringBookingTestBookerAllowlist_readOnly :
    ReadOnly getRecurringBookingTestBookerAllowlist := by
  refine ReadOnly.bind (fun value => ?_) (ReadOnly.select _)
  cases value with
  | none => trivial
  | some value => dsimp only; split <;> trivial

@[simp] theorem holdDaysFromLegacyHours_readOnly : ReadOnly holdDaysFromLegacyHours := by
  refine ReadOnly.bind (fun value => ?_) (ReadOnly.tryCatch (fun e => ?_)
    (readFacilitySetting_readOnly _ _))
  · exact ReadOnly.bind (fun _ => ReadOnly.bind (fun _ => ReadOnly.ret _) (ReadOnly.raiseIf _ _))
      (ReadOnly.ofExcept _)
  · split <;> trivial

@[simp] theorem getPendingPaymentHoldDays_readOnly : ReadOnly getPendingPaymentHoldDays := by
  refine ReadOnly.bind (fun value => ?_) (ReadOnly.tryCatch (fun e => ?_)
    (ReadOnly.bind (fun _ => ReadOnly.ret _) (readFacilitySetting_readOnly _ _)))
  · cases value with
    | none => exact holdDaysFromLegacyHours_readOnly
    | some value => exact ReadOnly.ofExcept _
  · split <;> trivial

end ReadOnly

end SettingService

end NewlifeCore
