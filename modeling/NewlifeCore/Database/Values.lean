import NewlifeCore.Rounding
import Mathlib.Algebra.Order.Floor.Ring
import Mathlib.Data.Rat.Floor

/-!
# Values and columns

What Python code gives to a column, and what the column holds afterwards.  `bind` is the way
between them that leads past the application: the driver encodes a parameter for the type of its
column, and the server stores it.
-/

namespace NewlifeCore.Database

/-! ## 1. Python values -/

/-- The value of an `Enum` member. -/
inductive Member
  | text (s : String)
  | number (n : Int)
deriving DecidableEq

/-- A value that a statement is given.  A member of an `Enum` is `mixed` when its class is also a
`str` or an `int`, so that it is one of these as well. -/
inductive Value
  | none
  | str (s : String)
  | int (n : Int)
  | bool (b : Bool)
  | decimal (q : ℚ)
  | float (q : ℚ)
  | datetime (t : Int)
  | date (d : Int)
  | time (t : Int)
  | uuid (n : Nat)
  | texts (xs : List String)
  | dates (ds : List Int)
  | enum (mixed : Bool) (value : Member)
  | expression
deriving DecidableEq

def Member.value : Member → Value
  | .text s => .str s
  | .number n => .int n

namespace Value

/-- `isinstance(value, Enum)` unwraps a member. -/
def plain : Value → Value
  | .enum _ m => m.value
  | v => v

/-- `value is None or value == ""`: a member equals a text only when it is one. -/
def isEmpty : Value → Bool
  | .none => true
  | .str s => s == ""
  | .enum true (.text s) => s == ""
  | _ => false

/-- A member that is not a `str` or an `int` as well. -/
def isPlainMember : Value → Bool
  | .enum false _ => true
  | _ => false

@[simp] theorem plain_value (m : Member) : m.value.plain = m.value := by cases m <;> rfl

end Value

/-- What the model leaves to the interpreter: the binary number nearest to a rational, `str` of
what is not a text, and the texts that are read as numbers and times.  `none` is a text that the
pattern of `validator.py` does not match, and `some none` one that `strptime` then raises on. -/
structure Python where
  nearest : ℚ → ℚ
  str : Value → String
  readInt : String → Option Int
  readNumber : String → Option ℚ
  readDatetime : String → Option (Option Int)
  readDate : String → Option (Option Int)

/-! ## 2. Columns -/

/-- The type of a column; an integer has its width in bits. -/
inductive ColumnType
  | integer (bits : Nat)
  | numeric (precision scale : Nat)
  | float
  | boolean
  | datetime
  | date
  | time
  | uuid
  | string (length : Option Nat)
  | json
  | texts
  | dates
deriving DecidableEq

/-- Who is signed in: `get_user_context`. -/
structure Context where
  userId : Option Nat := none
  username : Option String := none
deriving DecidableEq

/-- `Column(default=…)` or `Column(onupdate=…)`: a value, a function, or an SQL expression, which
the statement spells out and gives no parameter to. -/
inductive Default
  | scalar (arg : Value)
  | callable (arg : Context → Value)
  | expression

structure Column where
  name : String
  type : ColumnType
  nullable : Bool := true
  default : Option Default := none
  onupdate : Option Default := none
  serverDefault : Bool := false

/-- `get_current_username`. -/
def getCurrentUsername (ctx : Context) : Value :=
  match ctx.username with
  | some name => if name = "" then .str "system" else .str name
  | none => .str "system"

/-- `get_current_id`; the `SYSTEM_USER_ID` is zero. -/
def getCurrentId (ctx : Context) : Value :=
  match ctx.userId with
  | some id => .uuid id
  | none => .uuid 0

/-! ## 3. What a column holds -/

inductive Stored
  | null
  | int (n : Int)
  | numeric (q : ℚ)
  | float (q : ℚ)
  | bool (b : Bool)
  | datetime (t : Int)
  | date (d : Int)
  | time (t : Int)
  | uuid (n : Nat)
  | text (s : String)
  | json (s : String)
  | texts (xs : List String)
  | dates (ds : List Int)
deriving DecidableEq

def hexDigit (c : Char) : Option Nat :=
  if c.isDigit then some (c.toNat - '0'.toNat)
  else if 'a' ≤ c ∧ c ≤ 'f' then some (c.toNat - 'a'.toNat + 10)
  else if 'A' ≤ c ∧ c ≤ 'F' then some (c.toNat - 'A'.toNat + 10)
  else none

/-- The text without its dashes: `value.replace('-', '')`. -/
def withoutDashes (s : String) : List Char := s.toList.filter (· ≠ '-')

/-- The driver reads 32 hexadecimal digits, with a few dashes among them. -/
def readUuid (s : String) : Option Nat :=
  let digits := withoutDashes s
  if s.length ≤ 36 ∧ digits.length = 32 then
    digits.foldlM (fun n c => (hexDigit c).map (16 * n + ·)) 0
  else none

/-- A number at the scale of its column, unless it has too many digits before the point. -/
def storeNumeric (precision scale : Nat) (q : ℚ) : Option Stored :=
  let r := Rounding.halfUp (1 / 10 ^ scale) q
  if |r| < 10 ^ (precision - scale) then some (.numeric r) else none

def fitsLength (length : Option Nat) (s : String) : Bool :=
  match length with
  | none => true
  | some n => n == 0 || s.length ≤ n

/-- **What the driver and the server make of a parameter**; `none` is an error of theirs. -/
def bind (py : Python) : ColumnType → Value → Option Stored
  | _, .none => some .null
  | .integer bits, .int n | .integer bits, .enum true (.number n) =>
      if -2 ^ (bits - 1) ≤ n ∧ n < 2 ^ (bits - 1) then some (.int n) else none
  | .numeric p s, .decimal q | .numeric p s, .float q => storeNumeric p s q
  | .numeric p s, .int n => storeNumeric p s n
  | .float, .float q => some (.float q)
  | .float, .decimal q => some (.float (py.nearest q))
  | .float, .int n => some (.float (py.nearest n))
  | .boolean, .bool b => some (.bool b)
  | .datetime, .datetime t => some (.datetime t)
  | .date, .date d => some (.date d)
  | .time, .time t => some (.time t)
  | .uuid, .uuid n => some (.uuid n)
  | .uuid, .str s => (readUuid s).map .uuid
  | .string length, .str s | .string length, .enum true (.text s) =>
      if fitsLength length s then some (.text s) else none
  | .json, .str s => some (.json s)
  | .texts, .texts xs => some (.texts xs)
  | .dates, .dates ds => some (.dates ds)
  | _, _ => none

/-- **A statement's parameter in its column**, with the check for `NULL`. -/
def Column.store (py : Python) (c : Column) (v : Value) : Option Stored :=
  (bind py c.type v).filter fun s => s ≠ .null || c.nullable

/-! ## 4. Values that a column admits -/

/-- The Python types of a column's values. -/
def ColumnType.takes : ColumnType → Value → Bool
  | .integer _, .int _ | .integer _, .enum _ (.number _) => true
  | .numeric _ _, .decimal _ | .numeric _ _, .float _ | .numeric _ _, .int _ => true
  | .float, .float _ | .float, .decimal _ | .float, .int _ => true
  | .boolean, .bool _ => true
  | .datetime, .datetime _ => true
  | .date, .date _ => true
  | .time, .time _ => true
  | .uuid, .uuid _ | .uuid, .str _ => true
  | .string _, .str _ | .string _, .enum _ (.text _) => true
  | .json, .str _ => true
  | .texts, .texts _ => true
  | .dates, .dates _ => true
  | _, _ => false

/-- The conversion of a number to a `float` and back at the column's scale is exact. -/
def ColumnType.Exact (py : Python) : ColumnType → Value → Prop
  | .numeric _ s, .decimal q =>
      Rounding.halfUp (1 / 10 ^ s : ℚ) (py.nearest q) = Rounding.halfUp (1 / 10 ^ s) q
  | .numeric _ s, .int n =>
      Rounding.halfUp (1 / 10 ^ s : ℚ) (py.nearest n) = Rounding.halfUp (1 / 10 ^ s) (n : ℚ)
  | _, _ => True

/-- **The values of a column**: `None` where it may be empty, and what its type takes and has room
for. -/
structure Column.Admits (py : Python) (c : Column) (v : Value) : Prop where
  nullable : v = .none → c.nullable = true
  takes : v ≠ .none → c.type.takes v = true
  fits : (bind py c.type v.plain).isSome = true
  exactly : c.type.Exact py v

section Lemmas

variable {py : Python} {c : Column} {t : ColumnType} {v : Value} {s : Stored}

@[simp] theorem bind_none (py : Python) (t : ColumnType) : bind py t .none = some .null := by
  cases t <;> rfl

theorem store_none : c.store py .none = if c.nullable then some .null else none := by
  cases h : c.nullable <;> simp [Column.store, h]

theorem store_eq_some (h : c.store py v = some s) : bind py c.type v = some s := by
  unfold Column.store at h
  exact (Option.filter_eq_some_iff.mp h).1

end Lemmas

end NewlifeCore.Database
