import NewlifeCore.Auth.Schema

/-!
# `RefreshTokenProvider`

Opaque refresh tokens with rotation and reuse detection.  A token is stored by its hash, which is
a parameter; the random tokens and row identifiers a call draws are given to it.

`revoke_family` commits.  It is the last statement of every path that calls it, so here the path
ends there: what it raises after the commit is its result.
-/

namespace NewlifeCore.Auth

open Txn Prog

/-- What the provider was built with: the salted hash and the lifetime of a family. -/
structure TokenSettings where
  hashToken : String → String
  ttl : Int

/-- The caller's address and agent, and the web app that its Origin or Referer is registered
for. -/
structure RequestContext where
  ip : Option String := none
  userAgent : Option String := none
  appCode : Option String := none

/-- What a call draws at random. -/
structure TokenDraw where
  id : UUID
  token : String

/-- `rotate` returned a successor, or found a replaced token and revoked its family. -/
inductive RotateResult
  | rotated (token : String) (data : AuthRefreshToken)
  | reused
deriving Inhabited

namespace RefreshTokenProvider

variable (settings : TokenSettings) (ctx : RequestContext)

def selectByHash (tokenHash : String) : AuthProg (Option AuthRefreshToken) :=
  select fun db _ => db.refreshTokens.find? fun r => r.tokenHash = tokenHash

/-- The primary key and the unique hash are checked. -/
def insertRefreshToken (row : AuthRefreshToken) : AuthProg Unit :=
  execute fun db =>
    if db.refreshTokens.any fun r => r.id = row.id || r.tokenHash = row.tokenHash then
      .error (.integrity "duplicate key value violates unique constraint")
    else .ok (refreshTokenTable.insert [row])

/-! ## 1. `issue` -/

/-- The device is inserted, or seen again. -/
def upsertDevice (deviceId userId : UUID) (now : Int) : AuthProg Unit :=
  execute fun _ => .ok (deviceTable.upsert
    { id := deviceId, userId, lastSeenAt := now, lastIp := ctx.ip, lastUserAgent := ctx.userAgent }
    (fun d => { d with lastSeenAt := now, lastIp := ctx.ip, lastUserAgent := ctx.userAgent })
    fun _ => rfl)

def issue (draw : TokenDraw) (userId deviceId familyId : UUID) : AuthProg String := do
  let now ← now
  upsertDevice ctx deviceId userId now
  insertRefreshToken {
    id := draw.id, userId, deviceId, familyId, tokenHash := settings.hashToken draw.token
    expiresAt := now + settings.ttl, lastUsedAt := now, ip := ctx.ip, userAgent := ctx.userAgent }
  pure draw.token

/-! ## 2. Revocation -/

def revokeRow (now : Int) (reason : String) (r : AuthRefreshToken) : AuthRefreshToken :=
  { r with revokedAt := some now, revokedReason := some reason }

def revokeFamily (familyId : UUID) (reason : String) : AuthProg Unit := do
  let now ← now
  execute fun db => .ok (refreshTokenTable.update (fun r => r.familyId = familyId)
    (revokeRow now reason) (fun _ => rfl) db)

def revokeById (id : UUID) : AuthProg Unit := do
  let now ← now
  execute fun db => .ok (refreshTokenTable.update (fun r => r.id = id) (revokeRow now "Logout")
    (fun _ => rfl) db)

/-- The family of the token, or the token alone. -/
def revokeByToken (token : String) (family : Bool) : AuthProg Bool := do
  match ← selectByHash (settings.hashToken token) with
  | none => pure false
  | some rt => do
    if family then revokeFamily rt.familyId "Logout" else revokeById rt.id
    pure true

/-! ## 3. `rotate` -/

def touchDevice (deviceId : UUID) (now : Int) : AuthProg Unit :=
  execute fun db => .ok (deviceTable.update (fun d => d.id = deviceId)
    (fun d => { d with lastSeenAt := now, lastIp := ctx.ip, lastUserAgent := ctx.userAgent })
    (fun _ => rfl) db)

def replaceRow (newId : UUID) (now : Int) (r : AuthRefreshToken) : AuthRefreshToken :=
  { r with replacedById := some newId, lastUsedAt := now }

def markReplaced (id newId : UUID) (now : Int) : AuthProg Unit :=
  execute fun db => .ok (refreshTokenTable.update (fun r => r.id = id) (replaceRow newId now)
    (fun _ => rfl) db)

/-- The successor that `rotate` inserts. -/
def successor (draw : TokenDraw) (rt : AuthRefreshToken) (now : Int) : AuthRefreshToken where
  id := draw.id
  userId := rt.userId
  deviceId := rt.deviceId
  familyId := rt.familyId
  parentId := some rt.id
  tokenHash := settings.hashToken draw.token
  expiresAt := rt.expiresAt
  lastUsedAt := now
  ip := ctx.ip
  userAgent := ctx.userAgent

/-- A token that is neither revoked nor expired: replaced already, or replaced now. -/
def rotateRow (draw : TokenDraw) (rt : AuthRefreshToken) (now : Int) : AuthProg RotateResult :=
  if rt.replacedById.isSome then do
    revokeFamily rt.familyId "Refresh token reused"
    pure .reused
  else do
    touchDevice ctx rt.deviceId now
    insertRefreshToken (successor settings ctx draw rt now)
    markReplaced rt.id draw.id now
    pure (.rotated draw.token (successor settings ctx draw rt now))

def invalid : AuthError := .refreshTokenInvalid "Refresh token invalid"

def rotate (draw : TokenDraw) (refreshToken : String) : AuthProg RotateResult := do
  let now ← now
  match ← selectByHash (settings.hashToken refreshToken) with
  | none => raise invalid
  | some rt =>
    if rt.revokedAt.isSome || now > rt.expiresAt then raise invalid
    else rotateRow settings ctx draw rt now

end RefreshTokenProvider

end NewlifeCore.Auth
