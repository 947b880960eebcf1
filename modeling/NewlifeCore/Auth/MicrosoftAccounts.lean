import Mathlib.Data.List.Infix
import NewlifeCore.Auth.Accounts

/-!
# Microsoft identities

`MicrosoftUserSyncService`, which creates and links the accounts of a directory, and
`MicrosoftAuthService`, which signs an account in and links it.  Both catch exceptions of the
database, so they are requests whose steps may fail.
-/

namespace NewlifeCore.Auth

open Txn Attempt

abbrev AuthAttempt (α : Type) := Attempt Db Redis AuthError α

/-! ## 1. Profile fields -/

/-- The names a token or a directory record carries. -/
structure ProfileClaims where
  givenName : Option String := none
  familyName : Option String := none
  name : Option String := none
  preferredUsername : Option String := none
  email : Option String := none
  upn : Option String := none

/-- `text.split(None, 1)` of a text that is not blank, with an empty rest for none. -/
def firstWord (text : String) : String × String :=
  (String.ofList (text.toList.takeWhile fun c => !isSpace c),
    String.ofList ((text.toList.dropWhile fun c => !isSpace c).dropWhile isSpace))

/-- `text.split("@", 1)[0]`. -/
def localPart (text : String) : String := String.ofList (text.toList.takeWhile fun c => c ≠ '@')

def stripped (text : Option String) : String := strip (text.getD "")

/-- First name, last name and preferred name. -/
def profileFieldsFromMicrosoftClaims (claims : ProfileClaims) : String × String × Option String :=
  let displayName := stripped claims.name
  let parts := firstWord displayName
  let split := stripped claims.givenName = "" && displayName ≠ ""
  let givenName := if split then parts.1 else stripped claims.givenName
  let familyName :=
    if split && stripped claims.familyName = "" && parts.2 ≠ "" then parts.2
    else stripped claims.familyName
  let fallback := if displayName ≠ "" then displayName
    else stripped (pyOr claims.preferredUsername (pyOr claims.email claims.upn))
  let fallbackName := if localPart fallback = "" then "User" else localPart fallback
  (if givenName = "" then fallbackName else givenName, familyName,
    if displayName = "" then none else some displayName)

example : profileFieldsFromMicrosoftClaims { name := some " Ann  Lee Wu" } =
    ("Ann", "Lee Wu", some "Ann  Lee Wu") := by decide

/-! ## 2. The directory sync -/

/-- `GraphUserRecord`. -/
structure GraphUserRecord where
  objectId : String
  email : Option String := none
  givenName : Option String := none
  surname : Option String := none
  displayName : Option String := none
  accountEnabled : Bool := true
  userPrincipalName : Option String := none

@[irreducible]
def profileFieldsFromGraphUser (record : GraphUserRecord) : String × String × Option String :=
  profileFieldsFromMicrosoftClaims {
    givenName := record.givenName, familyName := record.surname, name := record.displayName
    email := record.email, upn := record.userPrincipalName }

def blockedSurnameTokens : List String :=
  ["nl", "efcnl", "efc nl", "it", "creative team", "youth group", "school", "new life", "newlife",
    "efc new life", "efc newlife", "efcnewlife"]

def blockedEmailLocalExact : List String :=
  ["worship", "finance.nl", "office_newlife", "betternewlife", "church", "tonychurch", "sermon",
    "elder", "bak1", "education", "newlife", "efcnl", "salt", "guanghua", "anniversary", "dev", "it",
    "caring"]

def blockedEmailLocalPrefixes : List String :=
  ["uploader", "pictures", "video", "efcnl_", "office_", "website.", "chinese.", "english.",
    "signage."]

/-- `^(uploader\d|pictures\d|video\d|bak\d)`. -/
def blockedEmailLocalPattern (text : String) : Bool :=
  ["uploader", "pictures", "video", "bak"].any fun word =>
    word.toList.isPrefixOf text.toList && ((text.toList.drop word.length).head?.any isDecimal)

def blockedDisplayKeywords : List String :=
  ["service account", "test account", "church secretary", "yearbook"]

inductive SyncOutcome
  | skippedNoEmail
  | skippedDomainMismatch
  | skippedNotRealPerson
  | skippedServiceAccount
  | created
  | updated
  | linked
deriving DecidableEq

/-- Counters of a run; a record that failed, with its exception. -/
structure MicrosoftUserSyncStats where
  created : Nat := 0
  updated : Nat := 0
  linked : Nat := 0
  skippedNoEmail : Nat := 0
  skippedDomainMismatch : Nat := 0
  skippedNotRealPerson : Nat := 0
  skippedServiceAccount : Nat := 0
  totalFetched : Nat := 0
  errors : List (String × AuthError) := []

namespace MicrosoftUserSyncStats

def count (stats : MicrosoftUserSyncStats) : SyncOutcome → MicrosoftUserSyncStats
  | .created => { stats with created := stats.created + 1 }
  | .updated => { stats with updated := stats.updated + 1 }
  | .linked => { stats with linked := stats.linked + 1 }
  | .skippedNoEmail => { stats with skippedNoEmail := stats.skippedNoEmail + 1 }
  | .skippedDomainMismatch => { stats with skippedDomainMismatch := stats.skippedDomainMismatch + 1 }
  | .skippedNotRealPerson => { stats with skippedNotRealPerson := stats.skippedNotRealPerson + 1 }
  | .skippedServiceAccount => { stats with skippedServiceAccount := stats.skippedServiceAccount + 1 }

end MicrosoftUserSyncStats

/-- What the sync of one record draws at random. -/
structure SyncDraw where
  newUserId : UUID
  linkId : UUID

/-- What the Graph API lists, and how the listing breaks off. -/
structure DirectoryListing where
  records : List (GraphUserRecord × SyncDraw)
  failure : Option AuthError := none

/-- The settings of the sync. -/
structure SyncSettings where
  graphConfigured : Bool := true
  azureTenantId : Option String

namespace MicrosoftUserSyncService

variable (maps : CaseMaps)

def resolveSyncEmail (record : GraphUserRecord) : Option String :=
  let raw := maps.normalize ((pyOr record.email record.userPrincipalName).getD "")
  if raw = "" then none else some raw

def isSyncEmailDomain (email : String) : Bool :=
  "@efcnewlife.org".toList.isSuffixOf (maps.normalize email).toList

def isRealPerson (record : GraphUserRecord) : Bool :=
  stripped record.givenName ≠ "" && stripped record.surname ≠ ""

/-- Why a record looks like a shared mailbox. -/
def classifyServiceAccount (record : GraphUserRecord) (email : String) : Option String :=
  let part := localPart (maps.normalize email)
  let surname := maps.lower (stripped record.surname)
  let displayName := maps.lower (stripped record.displayName)
  if blockedEmailLocalExact.contains part then some ("blocked_email_local:" ++ part)
  else match blockedEmailLocalPrefixes.find? fun p => p.toList.isPrefixOf part.toList with
  | some p => some ("blocked_email_prefix:" ++ p)
  | none =>
    if blockedEmailLocalPattern part then some ("blocked_email_pattern:" ++ part)
    else if blockedSurnameTokens.contains surname then some ("blocked_surname:" ++ surname)
    else (blockedDisplayKeywords.find? fun k => decide (k.toList <:+: displayName.toList)).map
      fun k => "blocked_display_name:" ++ k

def skipReason (record : GraphUserRecord) (email : String) : Option SyncOutcome :=
  if !isRealPerson record then some .skippedNotRealPerson
  else (classifyServiceAccount maps record email).map fun _ => .skippedServiceAccount

variable (tenantId : UUID) (record : GraphUserRecord) (draw : SyncDraw)

/-- The link of the record's identity to a user. -/
def link (userId : UUID) : AuthAttempt Unit :=
  method (UserRepository.upsertAuthUserThirdParty draw.linkId userId .microsoft record.objectId
    tenantId)

def updateProfile (userId : UUID) : AuthAttempt Unit :=
  let names := profileFieldsFromGraphUser record
  method (UserRepository.updateDirectoryUserProfile userId names.1 names.2.1 names.2.2)

def updateUser (userId : UUID) : AuthAttempt Unit := do
  updateProfile record userId
  method (UserRepository.updateUserActiveFlag userId record.accountEnabled)
  link tenantId record draw userId

/-- The profile is updated, or created where there is none. -/
def saveProfile (userId : UUID) : AuthAttempt Unit := do
  if ← method (UserRepository.userProfileExists userId) then updateProfile record userId
  else
    let names := profileFieldsFromGraphUser record
    method (UserRepository.createUserProfile userId names.1 names.2.1 names.2.2)

def linkUser (userId : UUID) : AuthAttempt Unit := do
  saveProfile record userId
  method (UserRepository.updateUserActiveFlag userId record.accountEnabled)
  link tenantId record draw userId

def createUser (email : String) : AuthAttempt Unit := do
  let names := profileFieldsFromGraphUser record
  method (UserRepository.createDirectoryUser maps draw.newUserId email true record.accountEnabled
    false names.1 names.2.1 names.2.2)
  link tenantId record draw draw.newUserId

/-- A record that is not skipped: by its identity, else by its address, else new. -/
def syncPerson (dryRun : Bool) (email : String) : AuthAttempt SyncOutcome := do
  match ← method (UserRepository.getUserIdByThirdParty .microsoft record.objectId) with
  | some userId =>
    if dryRun then pure .updated
    else do
      updateUser tenantId record draw userId
      pure .updated
  | none =>
    match ← method (UserRepository.getSensitiveByEmailWithoutProfile maps email) with
    | some existing =>
      if dryRun then pure .linked
      else do
        linkUser tenantId record draw existing.id
        pure .linked
    | none =>
      if dryRun then pure .created
      else do
        createUser maps tenantId record draw email
        pure .created

def syncOne (dryRun : Bool) : AuthAttempt SyncOutcome :=
  match resolveSyncEmail maps record with
  | none => pure .skippedNoEmail
  | some email =>
    if !isSyncEmailDomain maps email then pure .skippedDomainMismatch
    else match skipReason maps record email with
    | some skipped => pure skipped
    | none => syncPerson maps tenantId record draw dryRun email

/-- One turn of the loop: a failure is counted. -/
def syncRecord (dryRun : Bool) (stats : MicrosoftUserSyncStats)
    (item : GraphUserRecord × SyncDraw) : AuthAttempt MicrosoftUserSyncStats :=
  let stats := { stats with totalFetched := stats.totalFetched + 1 }
  (do let outcome ← syncOne maps tenantId item.1 item.2 dryRun
      pure (stats.count outcome) : AuthAttempt MicrosoftUserSyncStats).tryCatch fun e =>
    ret { stats with errors := stats.errors ++ [(item.1.objectId, e)] }

def tenantOf (settings : SyncSettings) : AuthAttempt UUID :=
  if !settings.graphConfigured then raise (.internal ("Microsoft Graph is not configured. " ++
    "Set AZURE_TENANT_ID, AZURE_APP_CLIENT_ID, and AZURE_APP_CLIENT_SECRET."))
  else match settings.azureTenantId with
  | none => raise (.internal "AZURE_TENANT_ID is required for directory sync")
  | some text =>
    if text = "" then raise (.internal "AZURE_TENANT_ID is required for directory sync")
    else match uuidOfText (strip text) with
    | none => raise (.internal "badly formed hexadecimal UUID string")
    | some tenantId => pure tenantId

def finish (dryRun : Bool) : AuthAttempt Unit := if dryRun then rollback else commit

def run (settings : SyncSettings) (dryRun : Bool) (listing : DirectoryListing) :
    AuthAttempt MicrosoftUserSyncStats := do
  let tenantId ← tenantOf settings
  let stats ← foldEach listing.records {} (syncRecord maps tenantId dryRun)
  match listing.failure with
  | some e => raise e
  | none => do
    finish dryRun
    pure stats

end MicrosoftUserSyncService

/-! ## 3. Signing in -/

/-- The claims of an ID token that are read. -/
structure MicrosoftClaims extends ProfileClaims where
  oid : Option String := none
  sub : Option String := none
  tid : Option String := none

/-- The verification of ID tokens. -/
structure MicrosoftOidcProvider where
  isConfigured : Bool := true
  verifyIdToken : String → Option MicrosoftClaims

/-- A string that is there and not empty. -/
def truthy (text : Option String) : Option String := text.filter fun s => s ≠ ""

/-- The identity and the tenant that a sign-in records. -/
def MicrosoftClaims.identity (claims : MicrosoftClaims) : Option (String × UUID) :=
  match truthy (pyOr claims.oid claims.sub), truthy claims.tid with
  | some oid, some tid =>
    if strip oid = "" then none else (uuidOfText (strip tid)).map fun tenantId => (strip oid, tenantId)
  | _, _ => none

namespace MicrosoftAuthService

variable (maps : CaseMaps) (oidc : MicrosoftOidcProvider)

def recordMicrosoftThirdPartyLogin (linkId userId : UUID) (claims : MicrosoftClaims) :
    AuthAttempt Unit :=
  match claims.identity with
  | none => pure ()
  | some (providerUid, tenantId) =>
    (method (UserRepository.upsertAuthUserThirdParty linkId userId .microsoft providerUid
      tenantId)).tryCatch fun _ => ret ()

def ensureUserProfile (userId : UUID) (claims : MicrosoftClaims) : AuthAttempt Unit := do
  if ← method (UserRepository.userProfileExists userId) then pure ()
  else
    let names := profileFieldsFromMicrosoftClaims claims.toProfileClaims
    method (UserRepository.createUserProfile userId names.1 names.2.1 names.2.2)

/-- The account of an address, its profile being created where it has none. -/
def userOfEmail (email : String) (claims : MicrosoftClaims) : AuthAttempt AuthUser := do
  match ← method (UserRepository.getSensitiveByEmail maps email) with
  | some user => pure user
  | none =>
    match ← method (UserRepository.getSensitiveByEmailWithoutProfile maps email) with
    | none => raise (.unauthorized "User not found")
    | some user =>
      ensureUserProfile user.id claims
      match ← method (UserRepository.getSensitiveByEmail maps email) with
      | none => raise (.unauthorized "User not found")
      | some user => pure user

def verifiedClaims (idToken : String) : AuthAttempt MicrosoftClaims :=
  if !oidc.isConfigured then raise (.serviceUnavailable "Microsoft OIDC is not configured")
  else match oidc.verifyIdToken idToken with
  | none => raise (.unauthorized "Invalid Microsoft token")
  | some claims => pure claims

def emailOfClaims (claims : MicrosoftClaims) : AuthAttempt String :=
  match truthy claims.upn with
  | none => raise (.unauthorized "Invalid Microsoft token: missing upn claim")
  | some upn => pure (maps.normalize upn)

def resolveMicrosoftUser (linkId : UUID) (idToken : String) : AuthAttempt AuthUser := do
  let claims ← verifiedClaims oidc idToken
  let email ← emailOfClaims maps claims
  let user ← userOfEmail maps email claims
  recordMicrosoftThirdPartyLogin linkId user.id claims
  pure user

variable (settings : AuthSettings) (ctx : RequestContext) (draw : LoginDraw) (linkId : UUID)
  (idToken : String)

def microsoftLogin : AuthAttempt (LoginResult settings) := do
  let user ← resolveMicrosoftUser maps oidc linkId idToken
  if !user.isAdmin || !user.verified || !user.isActive then
    raise (.unauthorized "User is not allowed to access the admin portal")
  else script (LoginService.completeAdminLogin settings ctx draw user)

/-- `registered` says whether there is a registry of web apps. -/
def microsoftMemberLogin (registered : Bool) : AuthAttempt (LoginResult settings) := do
  if !registered then raise (.serviceUnavailable "Member web app registry is not configured")
  else
    let appCode ← script (RefreshTokenService.resolveRequestAppCode ctx)
    let user ← resolveMicrosoftUser maps oidc linkId idToken
    if !user.verified || !user.isActive then
      raise (.unauthorized "User is not allowed to access the app")
    else script (LoginService.completeMemberLogin settings ctx draw user appCode)

end MicrosoftAuthService

end NewlifeCore.Auth
