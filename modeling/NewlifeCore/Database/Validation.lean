import NewlifeCore.Database.Values

/-!
# What `validate` makes of a parameter

`validator.py`, `converter.py`, and `exec_default` and `validate` of `aio_orm.py`.  `validate` looks
a parameter up among the columns by its name, checks it for the type of the column it finds, and
writes the converted value back.
-/

namespace NewlifeCore.Database

/-! ## 1. Checks and conversions -/

namespace Validator

variable (py : Python)

def isInt : Value → Bool
  | .int _ | .bool _ => true
  | .str s => (py.readInt s).isSome
  | _ => false

def isNumber : Value → Bool
  | .float _ | .int _ | .bool _ | .decimal _ => true
  | .str s => (py.readNumber s).isSome
  | _ => false

def isBool : Value → Bool
  | .bool _ => true
  | .str s => s.toLower ∈ ["true", "false"]
  | _ => false

def isDatetime : Value → Bool
  | .datetime _ => true
  | .str s => (py.readDatetime s).isSome
  | _ => false

def isDate : Value → Bool
  | .date _ | .datetime _ => true
  | .str s => (py.readDate s).isSome
  | _ => false

/-- `RE_UUID`; its `$` also matches before a line break at the end. -/
def matchesUuid (cs : List Char) : Bool :=
  let cs := if cs.getLast? = some '\n' then cs.dropLast else cs
  cs.length = 32 && cs.all fun c => (hexDigit c).isSome

def isUuid : Value → Bool
  | .uuid _ => true
  | .str s => matchesUuid (withoutDashes s)
  | _ => false

end Validator

namespace Converter

variable (py : Python)

def toInt : Value → Value
  | .str s => ((py.readInt s).map .int).getD (.str s)
  | v => v

def toFloat : Value → Value
  | .decimal q => .float (py.nearest q)
  | .int n => .float (py.nearest n)
  | .bool b => .float (if b then 1 else 0)
  | .str s => ((py.readNumber s).map .float).getD (.str s)
  | v => v

def toBool : Value → Value
  | .bool b => .bool b
  | .str s => .bool (s.toLower == "true")
  | _ => .bool false

/-- `none`: `strptime` raises. -/
def toDatetime : Value → Option Value
  | .str s => ((py.readDatetime s).getD none).map .datetime
  | v => some v

def toDate : Value → Option Value
  | .str s => ((py.readDate s).getD none).map .date
  | v => some v

end Converter

/-! ## 2. One parameter -/

/-- `exec_default`. -/
def execDefault (ctx : Context) : Option Default → Value
  | none => .none
  | some (.scalar arg) => arg
  | some (.callable arg) => arg ctx
  | some .expression => .expression

namespace Column

variable (py : Python) (ctx : Context) (isUpdate : Bool) (c : Column)

/-- The default that an empty value is exchanged for. -/
def onWrite : Option Default := if isUpdate then c.onupdate else c.default

/-- `not column.default and not column.server_default and not column.nullable`. -/
def cannotBeEmpty : Bool := c.default.isNone && !c.serverDefault && !c.nullable

def emptyError : String := "Field '" ++ c.name ++ "' the format is invalid and cannot be empty"

/-- `str(value)`. -/
def shown : Value → String
  | .str s => s
  | v => py.str v

def formatError (value : Value) (requirement : String) : String :=
  "The format of the field '" ++ c.name ++ "' is invalid, the value '" ++ shown py value ++
    "' must be " ++ requirement

def lengthError (value : Value) : List String :=
  match c.type with
  | .string (some n) =>
      if n ≠ 0 ∧ n < (shown py value).length then
        [c.formatError py value ("less than or equal to " ++ toString n ++ " characters")]
      else []
  | _ => []

/-- A value that passed its check is converted, another one is left as it was. -/
def checked (v : Value) (passes : Bool) (converted : Option Value) (requirement : String) :
    Option (List String × Value) :=
  if passes then converted.map fun u => ([], u)
  else some ([c.formatError py v.plain requirement], v)

/-- **What `validate` does with a value of this column**: its errors, and what it writes back.
`none`: a text has the pattern of a time and is none. -/
def check (v : Value) : Option (List String × Value) :=
  if v.isEmpty then
    some (if c.cannotBeEmpty then [c.emptyError] else [], execDefault ctx (c.onWrite isUpdate))
  else
    let value := v.plain
    match c.type with
    | .integer _ =>
        c.checked py v (Validator.isInt py value) (some (Converter.toInt py value)) "an integer"
    | .numeric _ _ | .float =>
        c.checked py v (Validator.isNumber py value) (some (Converter.toFloat py value)) "a number"
    | .boolean =>
        c.checked py v (Validator.isBool value) (some (Converter.toBool value)) "a boolean"
    | .datetime =>
        c.checked py v (Validator.isDatetime py value) (Converter.toDatetime py value)
          "a date format yyyy-MM-dd HH:mm:ss"
    | .date =>
        c.checked py v (Validator.isDate py value) (Converter.toDate py value)
          "in the date format yyyy-MM-dd"
    | .uuid => c.checked py v (Validator.isUuid value) (some v) "a UUID"
    | .string _ => some (c.lengthError py value, .str (shown py value))
    | .time | .json | .texts | .dates => some ([], v)

end Column

/-! ## 3. All parameters -/

/-- Why a statement is not carried out: `TypeError(errors)` of `validate`, a text that `strptime`
raises on, or an error of the driver or the server. -/
inductive Rejection
  | typeError (errors : List String)
  | valueError
  | statement
deriving DecidableEq

def column? (columns : List Column) (name : String) : Option Column :=
  columns.find? (·.name = name)

/-- A parameter is left alone when no column has its name. -/
def checkParam (py : Python) (ctx : Context) (isUpdate : Bool) (columns : List Column) :
    String × Value → Option (List String × (String × Value))
  | (name, v) =>
      match column? columns name with
      | none => some ([], name, v)
      | some c => (c.check py ctx isUpdate v).map fun (errors, u) => (errors, name, u)

/-- `validate`. -/
def validate (py : Python) (ctx : Context) (isUpdate : Bool) (columns : List Column)
    (data : List (String × Value)) : Except Rejection (List (String × Value)) :=
  match data.mapM (checkParam py ctx isUpdate columns) with
  | none => .error .valueError
  | some results =>
      match results.flatMap (·.1) with
      | [] => .ok (results.map (·.2))
      | errors => .error (.typeError errors)

/-! ## 4. Values that a column admits -/

section Admitted

variable {py : Python} {c : Column} {v : Value}

theorem storeNumeric_congr {p s : Nat} {q r : ℚ}
    (h : Rounding.halfUp (1 / 10 ^ s : ℚ) q = Rounding.halfUp (1 / 10 ^ s) r) :
    storeNumeric p s q = storeNumeric p s r := by
  simp only [storeNumeric, h]

theorem foldlM_hexDigit_isSome {cs : List Char} {n : Nat}
    (h : (cs.foldlM (fun n c => (hexDigit c).map (16 * n + ·)) n).isSome = true) :
    ∀ c ∈ cs, (hexDigit c).isSome = true := by
  induction cs generalizing n with
  | nil => simp
  | cons d cs ih =>
    rw [List.foldlM_cons] at h
    cases hd : hexDigit d with
    | none => simp [hd] at h
    | some m =>
      simp only [hd, Option.map_some, Option.bind_eq_bind, Option.bind_some] at h
      intro c hc
      rcases List.mem_cons.mp hc with rfl | hc
      · simp [hd]
      · exact ih h c hc

/-- What the driver reads as an id passes the check. -/
theorem isUuid_of_readUuid {s : String} (h : (readUuid s).isSome = true) :
    Validator.isUuid (.str s) = true := by
  simp only [readUuid] at h
  split at h
  · rename_i hlen
    have hall := foldlM_hexDigit_isSome h
    have hlast : (withoutDashes s).getLast? ≠ some '\n' := fun hl => by
      have := hall _ (List.mem_of_getLast? hl)
      revert this
      decide
    simp only [Validator.isUuid, Validator.matchesUuid, if_neg hlast, hlen.2, decide_true,
      Bool.true_and, List.all_eq_true]
    exact hall
  · cases h

theorem fitsLength_lengthError {length : Option Nat} {s : String} (ht : c.type = .string length)
    (h : fitsLength length s = true) : c.lengthError py (.str s) = [] := by
  unfold Column.lengthError
  rw [ht]
  cases length with
  | none => rfl
  | some n =>
    have : ¬(n ≠ 0 ∧ n < s.length) := by
      simp only [fitsLength, Bool.or_eq_true, beq_iff_eq, decide_eq_true_eq] at h
      omega
    exact if_neg this

/-- **A value that the column admits, and that is not empty**, passes, and what it is converted to
is stored as the value itself is. -/
theorem check_of_admits (ctx : Context) (isUpdate : Bool) (h : c.Admits py v)
    (hv : v.isEmpty = false) :
    ∃ u, c.check py ctx isUpdate v = some ([], u) ∧ bind py c.type u = bind py c.type v.plain := by
  have htakes := h.takes fun hn => by simp [hn, Value.isEmpty] at hv
  have hfits := h.fits
  have hexact := h.exactly
  simp only [Column.check, hv, Bool.false_eq_true, if_false]
  -- one case for each type, and in it one for each Python type that the column takes
  cases ht : c.type with
  | integer bits =>
    rw [ht] at htakes
    cases v with
    | int n => exact ⟨.int n, rfl, rfl⟩
    | enum mixed m =>
      cases m with
      | number n => exact ⟨.int n, rfl, rfl⟩
      | text s => cases htakes
    | _ => cases htakes
  | numeric p s =>
    rw [ht] at htakes hexact
    cases v with
    | decimal q => exact ⟨.float (py.nearest q), rfl, storeNumeric_congr hexact⟩
    | int n => exact ⟨.float (py.nearest n), rfl, storeNumeric_congr hexact⟩
    | float q => exact ⟨.float q, rfl, rfl⟩
    | _ => cases htakes
  | float =>
    rw [ht] at htakes
    cases v with
    | decimal q => exact ⟨.float (py.nearest q), rfl, rfl⟩
    | int n => exact ⟨.float (py.nearest n), rfl, rfl⟩
    | float q => exact ⟨.float q, rfl, rfl⟩
    | _ => cases htakes
  | uuid =>
    rw [ht] at htakes hfits
    cases v with
    | uuid n => exact ⟨.uuid n, rfl, rfl⟩
    | str s =>
      have hread : (readUuid s).isSome = true := by simpa [bind, Value.plain] using hfits
      have hpass : Validator.isUuid (Value.str s).plain = true := isUuid_of_readUuid hread
      exact ⟨.str s, by simp only [Column.checked, hpass, if_true, Option.map_some], rfl⟩
    | _ => cases htakes
  | string length =>
    rw [ht] at htakes hfits
    have hroom : ∀ s, (bind py (.string length) (.str s)).isSome = true →
        some (c.lengthError py (.str s), Value.str s) = some ([], .str s) := fun s hs => by
      rw [fitsLength_lengthError ht (by
        by_contra hno
        simp [bind, hno] at hs)]
    cases v with
    | str s => exact ⟨.str s, hroom s hfits, rfl⟩
    | enum mixed m =>
      cases m with
      | text s => exact ⟨.str s, hroom s hfits, rfl⟩
      | number n => cases htakes
    | _ => cases htakes
  | boolean | datetime | date | time | json | texts | dates =>
    rw [ht] at htakes
    cases v with
    | bool b | datetime x | date x | time x | str x | texts x | dates x =>
      first
        | exact ⟨_, rfl, rfl⟩
        | cases htakes
    | _ => cases htakes

end Admitted

end NewlifeCore.Database
