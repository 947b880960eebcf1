import NewlifeCore.Auth.Schema
import NewlifeCore.Txn.Script

/-!
# Redis

The keys the auth services use, and the commands of their providers and caches.  A key is the name
`CacheKeys` builds it from; an entry that reached its expiry is not there.  No entry is evicted
before.
-/

namespace NewlifeCore.Auth

open Txn

/-! ## 1. Keys, entries and commands -/

/-- `CacheKeys(...)`. -/
inductive RedisKey
  | memberRefreshApp (familyId : UUID)
  | tokenBlacklist (tokenHash : String)
  | role (userId : UUID)
  | permission (userId : UUID)
  | permissionList (localeId : UUID)
deriving DecidableEq

/-- A permission as the joins return it. -/
structure PermissionRecord where
  code : String
  action : Option String
  resourceCode : Option String
deriving DecidableEq

inductive RedisValue
  | string (s : String)
  | set (members : List String)
  | hash (fields : List (String × PermissionRecord))
deriving DecidableEq

structure RedisEntry where
  value : RedisValue
  expireAt : Option Int := none
deriving DecidableEq

/-- What is stored under each key. -/
def Redis := RedisKey → Option RedisEntry

namespace Redis

def empty : Redis := fun _ => none

variable (r : Redis) (t : Int)

/-- The entry under a key, unless it has expired. -/
def entry (key : RedisKey) : Option RedisEntry :=
  (r key).filter fun e => e.expireAt.all fun x => t < x

def put (key : RedisKey) (e : Option RedisEntry) : Redis := fun k => if k = key then e else r k

def get (key : RedisKey) : Option String :=
  (r.entry t key).bind fun e => match e.value with
    | .string s => some s
    | _ => none

def setex (key : RedisKey) (seconds : Int) (s : String) : Redis :=
  r.put key (some ⟨.string s, some (t + seconds * secondMicros)⟩)

def delete (key : RedisKey) : Redis := r.put key none

def isThere (key : RedisKey) : Bool := (r.entry t key).isSome

/-- The fields of a hash; none when there is none. -/
def fields (key : RedisKey) : List (String × PermissionRecord) :=
  match r.entry t key with
  | some ⟨.hash l, _⟩ => l
  | _ => []

def hset (key : RedisKey) (field : String) (value : PermissionRecord) : Redis :=
  r.put key (some ⟨.hash ((field, value) :: (r.fields t key).filter fun x => x.1 ≠ field),
    (r.entry t key).bind RedisEntry.expireAt⟩)

def hexists (key : RedisKey) (field : String) : Bool := (r.fields t key).any fun x => x.1 = field

def sadd (key : RedisKey) (members : List String) : Redis :=
  r.put key (some ⟨.set (members ++ match r.entry t key with
    | some ⟨.set l, _⟩ => l.filter fun m => m ∉ members
    | _ => []), (r.entry t key).bind RedisEntry.expireAt⟩)

def expire (key : RedisKey) (seconds : Int) : Redis :=
  r.put key ((r.entry t key).map fun e => { e with expireAt := some (t + seconds * secondMicros) })

variable {r t} {key key' : RedisKey}

@[simp] theorem put_self (e : Option RedisEntry) : r.put key e key = e := if_pos rfl

theorem put_other (e : Option RedisEntry) (h : key' ≠ key) : r.put key e key' = r key' := if_neg h

end Redis

/-- A request of the auth services. -/
abbrev AuthScript (α : Type) := Script Db RowName Redis AuthError α

open Script

/-! ## 2. Caches -/

namespace PermissionCache

def clearUserPermissionsCache (userId : UUID) : AuthScript Unit :=
  tell fun r _ => r.delete (.permission userId)

/-- The hash is deleted, filled field by field and given its expiry. -/
def initUserPermissionsCache (userId : UUID) (permissions : List PermissionRecord) (seconds : Int) :
    AuthScript (List String) := do
  clearUserPermissionsCache userId
  if permissions.isEmpty then pure []
  else do
    each permissions fun permission =>
      tell fun r t => r.hset t (.permission userId) permission.code permission
    tell fun r t => r.expire t (.permission userId) seconds
    pure (permissions.map PermissionRecord.code)

end PermissionCache

namespace RoleCache

def clearUserRolesCache (userId : UUID) : AuthScript Unit :=
  tell fun r _ => r.delete (.role userId)

def initUserRolesCache (userId : UUID) (roleCodes : List String) (seconds : Int) :
    AuthScript (List String) := do
  clearUserRolesCache userId
  if roleCodes.isEmpty then pure []
  else do
    tell fun r t => r.sadd t (.role userId) roleCodes
    tell fun r t => r.expire t (.role userId) seconds
    pure roleCodes

end RoleCache

/-! ## 3. Providers -/

namespace MemberRefreshAppBindingProvider

def bind (ttlSeconds : Int) (familyId : UUID) (appCode : String) : AuthScript Unit :=
  tell fun r t => r.setex t (.memberRefreshApp familyId) ttlSeconds appCode

def getAppCode (familyId : UUID) : AuthScript (Option String) :=
  ask fun r t => r.get t (.memberRefreshApp familyId)

def clear (familyId : UUID) : AuthScript Unit :=
  tell fun r _ => r.delete (.memberRefreshApp familyId)

end MemberRefreshAppBindingProvider

namespace TokenBlacklistProvider

/-- Nothing is kept of a token that has expired. -/
def addToBlacklist (tokenHash : String) (expiresAt : Int) : AuthScript Bool := do
  let now ← now
  let ttl := (expiresAt - now).tdiv secondMicros
  if 0 < ttl then do
    tell fun r t => r.setex t (.tokenBlacklist tokenHash) ttl "1"
    pure true
  else pure false

def isBlacklisted (tokenHash : String) : AuthScript Bool :=
  ask fun r t => r.isThere t (.tokenBlacklist tokenHash)

end TokenBlacklistProvider

end NewlifeCore.Auth
