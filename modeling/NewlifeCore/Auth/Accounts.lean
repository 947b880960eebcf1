import Mathlib.Data.List.DropRight
import NewlifeCore.Auth.Resources
import NewlifeCore.Auth.Sessions
import NewlifeCore.Txn.Faults

/-!
# Accounts

The writers of `auth.user`, its profiles and its third-party links: `AdminUserService`, the
directory sync and the sign-in with a Microsoft identity.  The case maps, `str.lower()` of the
application and `lower()` of the database, are parameters, and so is the verification of an ID
token.

Every INSERT and UPDATE of one row passes `Session.validate` before it is sent.  An empty text is
stored as NULL where the column is nullable, and refused where it is not: so `update_user` without
a display name raises, since `first_name` would be empty, and `create_user` always does, since it
gives an account the empty `last_name`.  What is left to make accounts is the directory sync.

Section 1 has the addresses and the other texts that the writers look at, section 2 the statements
of `UserRepository` with what refuses them, and section 3 the service that administrators call.
-/

namespace NewlifeCore.Auth

open Txn Prog

/-! ## 1. Addresses -/

/-- **Case maps**: `str.lower()` and SQL `lower()`.  Both leave a lower-case string alone, and
lowering brings no spaces to the ends. -/
structure CaseMaps where
  lower : String → String
  sqlLower : String → String
  lower_lower : ∀ s, lower (lower s) = lower s
  sqlLower_lower : ∀ s, sqlLower (lower s) = lower s
  strip_lower : ∀ s, strip (lower (strip s)) = lower (strip s)

/-- `email.strip().lower()`. -/
def CaseMaps.normalize (maps : CaseMaps) (email : String) : String := maps.lower (strip email)

@[simp] theorem CaseMaps.normalize_normalize (maps : CaseMaps) (s : String) :
    maps.normalize (maps.normalize s) = maps.normalize s := by
  unfold normalize
  rw [maps.strip_lower, maps.lower_lower]

@[simp] theorem CaseMaps.sqlLower_normalize (maps : CaseMaps) (s : String) :
    maps.sqlLower (maps.normalize s) = maps.normalize s := maps.sqlLower_lower _

/-! ### 1.1 The case map of ASCII -/

theorem toLower_toLower (c : Char) : c.toLower.toLower = c.toLower := by
  unfold Char.toLower
  grind

theorem isSpace_letter {c : Char} (h : 65 ≤ c.toNat) (h' : c.toNat ≤ 122) : isSpace c = false := by
  unfold isSpace
  simp only [Bool.or_eq_false_iff, Bool.and_eq_false_iff, decide_eq_false_iff_not]
  omega

theorem isSpace_toLower (c : Char) : isSpace c.toLower = isSpace c := by
  unfold Char.toLower
  split
  · rename_i h
    have hlo : 65 ≤ c.toNat := h.1
    have hhi : c.toNat ≤ 90 := h.2
    have hadd : (c.val + ('a'.val - 'A'.val)).toNat = c.toNat + 32 := by
      have hdiff : 'a'.val - 'A'.val = 32 := rfl
      have hc : c.val.toNat = c.toNat := rfl
      rw [hdiff, UInt32.toNat_add, hc]
      simp
      omega
    rw [isSpace_letter hlo (by omega)]
    refine isSpace_letter ?_ ?_
    · show 65 ≤ (c.val + ('a'.val - 'A'.val)).toNat
      omega
    · show (c.val + ('a'.val - 'A'.val)).toNat ≤ 122
      omega
  · rfl

theorem toList_strip (s : String) :
    (strip s).toList = (s.toList.dropWhile isSpace).rdropWhile isSpace := by
  simp [strip, stripWhere, List.rdropWhile]

/-- What is left after trimming the end still does not begin with what was dropped there. -/
theorem dropWhile_rdropWhile {α : Type} (p : α → Bool) (l : List α) :
    ((l.dropWhile p).rdropWhile p).dropWhile p = (l.dropWhile p).rdropWhile p := by
  rw [List.dropWhile_eq_self_iff]
  intro hl
  have hpre := List.rdropWhile_prefix p (l := l.dropWhile p)
  have hne : l.dropWhile p ≠ [] := fun h => by simp [h] at hl
  have := List.dropWhile_get_zero_not p l (List.length_pos_iff.mpr hne)
  simpa [hpre.getElem] using this

theorem strip_strip (s : String) : strip (strip s) = strip s := by
  apply String.toList_inj.mp
  rw [toList_strip, toList_strip, dropWhile_rdropWhile, List.rdropWhile_idempotent]

def asciiLower (s : String) : String := String.ofList (s.toList.map Char.toLower)

theorem strip_asciiLower (s : String) : strip (asciiLower s) = asciiLower (strip s) := by
  apply String.toList_inj.mp
  have hp : isSpace ∘ Char.toLower = isSpace := funext isSpace_toLower
  rw [toList_strip]
  simp only [asciiLower, String.toList_ofList, List.dropWhile_map, List.rdropWhile,
    ← List.map_reverse, hp, toList_strip]

theorem asciiLower_asciiLower (s : String) : asciiLower (asciiLower s) = asciiLower s := by
  apply String.toList_inj.mp
  simp only [asciiLower, String.toList_ofList, List.map_map]
  exact List.map_congr_left fun c _ => toLower_toLower c

/-- The case maps on ASCII text. -/
def CaseMaps.ascii : CaseMaps where
  lower := asciiLower
  sqlLower := asciiLower
  lower_lower := asciiLower_asciiLower
  sqlLower_lower := asciiLower_asciiLower
  strip_lower s := by rw [strip_asciiLower, strip_strip]

/-! ### 1.2 Other texts -/

/-- `text.replace(pattern, "")`; `skip` characters of an occurrence are still to be left out. -/
def without (pattern : List Char) (skip : Nat) : List Char → List Char
  | [] => []
  | c :: l =>
    match skip with
    | k + 1 => without pattern k l
    | 0 =>
      if pattern.isPrefixOf (c :: l) then without pattern (pattern.length - 1) l
      else c :: without pattern 0 l

def hexDigit (c : Char) : Option Nat :=
  if c.isDigit then some (c.toNat - '0'.toNat)
  else if 'a' ≤ c.toLower && c.toLower ≤ 'f' then some (c.toLower.toNat - 'a'.toNat + 10)
  else none

/-- `uuid.UUID(text)`: 32 hexadecimal digits, with a URN prefix, braces and hyphens left out. -/
def uuidOfText (text : String) : Option UUID :=
  let bare := without "uuid:".toList 0 (without "urn:".toList 0 text.toList)
  let unbraced := stripWhere (fun c => c = '{' || c = '}') (String.ofList bare)
  let hex := without "-".toList 0 unbraced.toList
  if hex.length = 32 then
    (hex.mapM hexDigit).map fun digits => digits.foldl (fun n d => 16 * n + d) 0
  else none

example : uuidOfText "urn:uuid:\x7b00000000-0000-0000-0000-0000000000ff\x7d" = some 255 := by
  decide +kernel

/-- `text[:64]`. -/
def first64 (text : String) : String := String.ofList (text.toList.take 64)

/-! ## 2. `UserRepository` -/

/-- `UpdateAdminUserCommand`. -/
structure UpdateAdminUserCommand where
  phoneNumber : Option String := none
  email : String
  verified : Bool := false
  isActive : Bool := true
  isSuperuser : Bool := false
  isAdmin : Bool := false
  displayName : Option String := none

structure CreateAdminUserCommand extends UpdateAdminUserCommand where
  password : String
  passwordConfirm : String

namespace UserRepository

def uniqueViolation : AuthError := .integrity "duplicate key value violates unique constraint"

def foreignKeyViolation : AuthError :=
  .integrity "insert or update on table violates foreign key constraint"

def valueTooLong : AuthError := .internal "value too long for type character varying"

/-- `validate` refuses an empty value of a column that is not nullable. -/
def emptyValue (field : String) : AuthError :=
  .internal ("Field '" ++ field ++ "' the format is invalid and cannot be empty")

/-- `validate` makes NULL of an empty value of a nullable column. -/
def emptyAsNull (value : Option String) : Option String := value.filter fun s => s ≠ ""

theorem mem_emptyAsNull {value : Option String} {s : String} :
    s ∈ emptyAsNull value ↔ s ∈ value ∧ s ≠ "" := by
  simp [emptyAsNull]

theorem emptyAsNull_some {s : String} (h : s ≠ "") : emptyAsNull (some s) = some s :=
  mem_emptyAsNull.mpr ⟨rfl, h⟩

/-- A `varchar(n)` column takes the value. -/
def fits (n : Nat) (value : Option String) : Bool := value.all fun s => s.length ≤ n

section
variable (maps : CaseMaps)

/-- `lower(email) == normalized`, of an account that is not deleted. -/
def emailMatches (email : String) (u : AuthUser) : Bool :=
  !u.isDeleted && u.email.any fun e => maps.sqlLower e = maps.normalize email

/-- The first row that the query returns. -/
def sensitiveByEmail (db : Db) (email : String) : Option AuthUser :=
  if email = "" then none
  else db.users.find? fun u =>
    emailMatches maps email u && db.userProfiles.any fun p => p.userId = u.id

def getSensitiveByEmail (email : String) : AuthProg (Option AuthUser) :=
  select fun db _ => sensitiveByEmail maps db email

def sensitiveByEmailWithoutProfile (db : Db) (email : String) : Option AuthUser :=
  if email = "" then none else db.users.find? (emailMatches maps email)

def getSensitiveByEmailWithoutProfile (email : String) : AuthProg (Option AuthUser) :=
  select fun db _ => sensitiveByEmailWithoutProfile maps db email

end

def userProfileExists (userId : UUID) : AuthProg Bool :=
  select fun db _ => db.userProfiles.any fun p => p.userId = userId

/-- The links of an identity that are not deleted. -/
def linksOf (db : Db) (provider : ThirdPartyProvider) (providerUid : String) :
    List AuthUserThirdParty :=
  db.userThirdParties.filter fun l =>
    l.provider = provider && l.providerUid = providerUid && !l.isDeleted

def getUserIdByThirdParty (provider : ThirdPartyProvider) (providerUid : String) :
    AuthProg (Option UUID) :=
  select fun db _ => (linksOf db provider providerUid).head?.map AuthUserThirdParty.userId

/-- Two accounts share a value of a unique column; nulls are distinct. -/
def sameKey (a b : AuthUser) : Bool :=
  (a.email.isSome && a.email = b.email) || (a.phoneNumber.isSome && a.phoneNumber = b.phoneNumber)

def columnsFit (u : AuthUser) : Bool := fits 255 u.email && fits 16 u.phoneNumber

def insertUser (user : AuthUser) : AuthProg Unit :=
  execute fun db =>
    if !columnsFit user then .error valueTooLong
    else if db.users.any fun r => r.id = user.id || sameKey r user then .error uniqueViolation
    else .ok (userTable.insert [user])

def insertUserProfile (profile : AuthUserProfile) : AuthProg Unit :=
  execute fun db =>
    if profile.firstName = "" then .error (emptyValue "first_name")
    else if profile.lastName = "" then .error (emptyValue "last_name")
    else if !(fits 64 (some profile.firstName) && fits 64 (some profile.lastName) &&
        fits 64 profile.preferredName) then .error valueTooLong
    else if !db.users.any fun r => r.id = profile.userId then .error foreignKeyViolation
    else if db.userProfiles.any fun p => p.userId = profile.userId then .error uniqueViolation
    else .ok (userProfileTable.insert [profile])

def createDirectoryUser (maps : CaseMaps) (userId : UUID) (email : String)
    (verified isActive isAdmin : Bool) (firstName lastName : String)
    (preferredName : Option String) : AuthProg Unit := do
  insertUser { id := userId, email := emptyAsNull (some (maps.normalize email)), verified, isActive
               isAdmin, isSuperuser := false }
  insertUserProfile ⟨userId, first64 firstName, first64 lastName, preferredName.map first64⟩

def updateDirectoryUserProfile (userId : UUID) (firstName lastName : String)
    (preferredName : Option String) : AuthProg Unit :=
  execute fun db =>
    if firstName = "" then .error (emptyValue "first_name")
    else if lastName = "" then .error (emptyValue "last_name")
    else .ok (userProfileTable.update (fun p => p.userId = userId)
      (fun p => { p with firstName := first64 firstName, lastName := first64 lastName
                         preferredName := preferredName.map first64 }) (fun _ => rfl) db)

def updateUserActiveFlag (userId : UUID) (isActive : Bool) : AuthProg Unit :=
  execute fun db => .ok (userTable.update (fun u => u.id = userId)
    (fun u => { u with isActive }) (fun _ => rfl) db)

def createUserProfile (userId : UUID) (firstName lastName : String)
    (preferredName : Option String) : AuthProg Unit :=
  insertUserProfile { userId, firstName, lastName, preferredName }

/-- `UniqueViolationError` becomes a conflict. -/
def userExists (e : AuthError) : AuthError :=
  if e = uniqueViolation then .conflict "User already exists" else e

def createUser (userId : UUID) (model : CreateAdminUserCommand) : AuthProg UUID :=
  (do insertUser { id := userId, phoneNumber := emptyAsNull model.phoneNumber
                   email := emptyAsNull (some model.email)
                   verified := model.verified, isActive := model.isActive
                   isSuperuser := model.isSuperuser, isAdmin := model.isAdmin }
      insertUserProfile { userId, firstName := model.displayName.getD "", lastName := ""
                          preferredName := emptyAsNull model.displayName }
      pure userId : AuthProg UUID).mapError userExists

/-- The columns an update sets. -/
def updatedUser (model : UpdateAdminUserCommand) (u : AuthUser) : AuthUser :=
  { u with phoneNumber := emptyAsNull model.phoneNumber, email := emptyAsNull (some model.email)
           verified := model.verified, isActive := model.isActive
           isSuperuser := model.isSuperuser, isAdmin := model.isAdmin }

/-- An account that is not there is not updated. -/
def updateUserRow (userId : UUID) (model : UpdateAdminUserCommand) : AuthProg Unit :=
  execute fun db =>
    let new := updatedUser model { id := userId }
    if !columnsFit new then .error valueTooLong
    else if (db.users.any fun u => u.id = userId) &&
        db.users.any fun u => u.id ≠ userId && sameKey u new then .error uniqueViolation
    else .ok (userTable.update (fun u => u.id = userId) (updatedUser model) (fun _ => rfl) db)

def updateUserProfile (userId : UUID) (model : UpdateAdminUserCommand) : AuthProg Unit :=
  execute fun db =>
    if model.displayName.getD "" = "" then .error (emptyValue "first_name")
    else if !fits 64 model.displayName then .error valueTooLong
    else .ok (userProfileTable.update (fun p => p.userId = userId)
      (fun p => { p with preferredName := model.displayName
                         firstName := model.displayName.getD "" }) (fun _ => rfl) db)

def updateUser (userId : UUID) (model : UpdateAdminUserCommand) : AuthProg Unit :=
  (do updateUserRow userId model
      updateUserProfile userId model : AuthProg Unit).mapError userExists

def deleteUser (userId : UUID) (model : DeleteCommand) : AuthProg Unit :=
  execute fun db => .ok (userTable.update (fun u => u.id = userId)
    (fun u => { u with isDeleted := true, deleteReason := model.reason }) (fun _ => rfl) db)

def restoreUsers (userIds : List UUID) : AuthProg Unit :=
  execute fun db => .ok (userTable.update (fun u => u.id ∈ userIds)
    (fun u => { u with isDeleted := false, deleteReason := none }) (fun _ => rfl) db)

/-- Inserted, or on a conflict of user, provider and identity, updated and not deleted any more. -/
def upsertAuthUserThirdParty (rowId userId : UUID) (provider : ThirdPartyProvider)
    (providerUid : String) (providerTenantId : UUID) : AuthProg Unit :=
  execute fun db =>
    if providerUid = "" then .error (emptyValue "provider_uid")
    else if !fits 255 (some providerUid) then .error valueTooLong
    else if !db.users.any fun u => u.id = userId then .error foreignKeyViolation
    else .ok (userThirdPartyTable.upsert { id := rowId, userId, provider, providerUid, providerTenantId }
      (fun l => { l with providerTenantId, isDeleted := false }) fun _ => rfl)

end UserRepository

/-! ## 3. `AdminUserService` -/

/-- The zeros of the decimal digits of Unicode; the other nine follow each. -/
def decimalZeros : List Nat :=
  [0x30, 0x660, 0x6f0, 0x7c0, 0x966, 0x9e6, 0xa66, 0xae6, 0xb66, 0xbe6, 0xc66, 0xce6, 0xd66, 0xde6,
    0xe50, 0xed0, 0xf20, 0x1040, 0x1090, 0x17e0, 0x1810, 0x1946, 0x19d0, 0x1a80, 0x1a90, 0x1b50,
    0x1bb0, 0x1c40, 0x1c50, 0xa620, 0xa8d0, 0xa900, 0xa9d0, 0xa9f0, 0xaa50, 0xabf0, 0xff10, 0x104a0,
    0x10d30, 0x11066, 0x110f0, 0x11136, 0x111d0, 0x112f0, 0x11450, 0x114d0, 0x11650, 0x116c0,
    0x11730, 0x118e0, 0x11950, 0x11c50, 0x11d50, 0x11da0, 0x11f50, 0x16a60, 0x16ac0, 0x16b50,
    0x1d7ce, 0x1d7d8, 0x1d7e2, 0x1d7ec, 0x1d7f6, 0x1e140, 0x1e2f0, 0x1e4f0, 0x1e950, 0x1fbf0]

/-- `\d`. -/
def isDecimal (c : Char) : Bool := decimalZeros.any fun z => z ≤ c.toNat && c.toNat ≤ z + 9

def PasswordProvider.validatePassword (password : String) : Bool :=
  8 ≤ password.length && password.toList.any Char.isLower && password.toList.any Char.isUpper &&
    password.toList.any isDecimal &&
    password.toList.any fun c => "!@#$%^&*(),.?\":\x7b\x7d|<>_-\\[]/~`+=".toList.contains c

namespace AdminUserService

def createUser (userId : UUID) (command : CreateAdminUserCommand) : AuthProg UUID := do
  raiseIf (command.password ≠ command.passwordConfirm) (.badRequest "Passwords do not match")
  raiseIf (!PasswordProvider.validatePassword command.password)
    (.badRequest "Password is not valid")
  UserRepository.createUser userId command

def updateUser (userId : UUID) (command : UpdateAdminUserCommand) : AuthProg Unit :=
  UserRepository.updateUser userId command

def deleteUser (userId : UUID) (command : DeleteCommand) : AuthProg Unit :=
  UserRepository.deleteUser userId command

def restoreUser (ids : List UUID) : AuthProg Unit := do
  raiseIf ids.isEmpty (.badRequest "No user ids provided")
  UserRepository.restoreUsers ids

end AdminUserService

end NewlifeCore.Auth
