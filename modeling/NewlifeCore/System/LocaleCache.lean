import NewlifeCore.HashStore
import NewlifeCore.System.LocaleNegotiation
import NewlifeCore.Txn.Desk

/-!
# `LocaleService` and `LocaleCache`

The snapshot of the locales lies in Redis as a set and three hashes.  A read is four commands, and
comes to a snapshot when the hashes are all there; a fill is a DELETE and then, key by key, a write
and an expiry.  No command knows which fill another key was written by.
-/

namespace NewlifeCore

open Txn

/-! ## 1. The table -/

/-- `system.locale`. -/
structure SystemLocale extends LocaleColumns where
  isDeleted : Bool := false
  sequence : Option Rat := none

structure LocaleDb where
  locales : List SystemLocale := []

/-- To the requests that change it the table is one row. -/
instance : RowStore LocaleDb Unit where
  Row := List SystemLocale
  row db _ := db.locales

/-- The order of `ORDER BY sequence`, in which NULL is last. -/
def SystemLocale.before (a b : SystemLocale) : Bool :=
  match a.sequence, b.sequence with
  | _, none => true
  | none, some _ => false
  | some x, some y => x ≤ y

/-- `LocaleRepository.list_all`; rows of one sequence come in the order of the table. -/
def LocaleDb.listAll (db : LocaleDb) : List LocaleColumns :=
  ((db.locales.filter fun r => !r.isDeleted).insertionSort fun a b => a.before b).map
    SystemLocale.toLocaleColumns

/-! ## 2. The snapshot in Redis -/

/-- The keys of `LocaleCache`; the set of language keys may name others. -/
inductive LocaleKey
  | active
  | metadata
  | norm
  | normId
  | langKeys
  | other (name : String)
deriving DecidableEq

/-- The hashes of a snapshot. -/
inductive SnapshotHash
  | metadata
  | norm
  | normId
deriving DecidableEq

def SnapshotHash.key : SnapshotHash → LocaleKey
  | .metadata => .metadata
  | .norm => .norm
  | .normId => .normId

/-- What there is of the hashes. -/
abbrev Hashes := SnapshotHash → Option Fields

/-- What three `HGETALL`s have found. -/
def replies (metaRaw normRaw normIdRaw : Option Fields) : Hashes
  | .metadata => metaRaw
  | .norm => normRaw
  | .normId => normIdRaw

/-- `json.dumps` and `json.loads` of the two texts in the metadata; a text that is not JSON loads as
nothing. -/
structure SnapshotCodec where
  dumpLocales : List String → String
  loadLocales : String → Option (List String)
  dumpBuckets : Groups String String → String
  loadBuckets : String → Option (Groups String String)
  load_dumpLocales : ∀ l, loadLocales (dumpLocales l) = some l
  load_dumpBuckets : ∀ b, loadBuckets (dumpBuckets b) = some b
  dumpLocales_ne : ∀ l, dumpLocales l ≠ ""
  dumpBuckets_ne : ∀ b, dumpBuckets b ≠ ""

/-- `LocaleSnapshotResult`, a map of texts as what it has under a key. -/
structure LocaleSnapshotResult where
  activeLocales : List String
  defaultLocale : Option String
  normalizedMap : Fields
  normalizedIdMap : Fields
  languageBuckets : Groups String String

def LocaleSnapshot.result (S : LocaleSnapshot) : LocaleSnapshotResult where
  activeLocales := S.activeLocales
  defaultLocale := S.defaultLocale
  normalizedMap := lastOf S.normalizedMap
  normalizedIdMap key := (lastOf S.normalizedIdMap key).map uuidText
  languageBuckets := S.languageBuckets

/-- `CacheExpiry.WEEK`, in microseconds. -/
def week : Int := 604800 * 1000000

/-- A request of the locale service; Redis does not fail. -/
abbrev LocaleScript (α : Type) := Script LocaleDb Unit (HashStore LocaleKey) Empty α

namespace LocaleCache

variable (codec : SnapshotCodec)

/-- What a fill writes of each hash; an empty map is not written. -/
def written (S : LocaleSnapshot) : Hashes
  | .metadata => some (lastOf [("default_locale", S.defaultLocale.getD ""), ("version", "2"),
      ("active_locales_json", codec.dumpLocales S.activeLocales),
      ("language_buckets_json", codec.dumpBuckets S.languageBuckets)])
  | .norm => if S.normalizedMap.isEmpty then none else some S.result.normalizedMap
  | .normId => if S.normalizedIdMap.isEmpty then none else some S.result.normalizedIdMap

/-- `meta.get(name)`, unless it is empty. -/
def metaField (found : Hashes) (name : String) : Option String :=
  truthy ((found .metadata).bind fun fields => fields name)

def readActiveLocales (activeRaw : List String) (found : Hashes) : List String :=
  match metaField found "active_locales_json" with
  | some text => (codec.loadLocales text).getD (activeRaw.insertionSort (· ≤ ·))
  | none => activeRaw.insertionSort (· ≤ ·)

def readLanguageBuckets (found : Hashes) : Groups String String :=
  match metaField found "language_buckets_json" with
  | some text => (codec.loadBuckets text).getD []
  | none => []

/-- What `get_snapshot` makes of the four replies. -/
def assemble (activeRaw : List String) (found : Hashes) : Option LocaleSnapshotResult :=
  match metaField found "default_locale", found .norm, found .normId with
  | some defaultLocale, some normalizedMap, some normalizedIdMap =>
    if (readActiveLocales codec activeRaw found).isEmpty then none
    else some ⟨readActiveLocales codec activeRaw found, some defaultLocale, normalizedMap,
      normalizedIdMap, readLanguageBuckets codec found⟩
  | _, _, _ => none

def getSnapshot : LocaleScript (Option LocaleSnapshotResult) := do
  let activeRaw ← Script.ask fun s t => s.smembers t .active
  let metaRaw ← Script.ask fun s t => s.hgetall t .metadata
  let normRaw ← Script.ask fun s t => s.hgetall t .norm
  let normIdRaw ← Script.ask fun s t => s.hgetall t .normId
  pure (assemble codec activeRaw (replies metaRaw normRaw normIdRaw))

def clear : LocaleScript Unit := do
  let languageKeys ← Script.ask fun s t => s.smembers t .langKeys
  Script.tell fun s _ => s.delete ([.active, .metadata, .norm, .normId, .langKeys] ++
    languageKeys.map .other)

/-- `hset` and `expire` of one hash. -/
def writeHash (S : LocaleSnapshot) (h : SnapshotHash) : LocaleScript Unit :=
  match written codec S h with
  | none => pure ()
  | some fields => do
    Script.tell fun s t => s.hset t h.key fields
    Script.tell fun s t => s.expire t h.key week

def writeActive (S : LocaleSnapshot) : LocaleScript Unit :=
  if S.activeLocales.isEmpty then pure ()
  else do
    Script.tell fun s t => s.sadd t .active S.activeLocales
    Script.tell fun s t => s.expire t .active week

def populate (S : LocaleSnapshot) : LocaleScript Unit := do
  clear
  writeActive S
  writeHash codec S .metadata
  writeHash codec S .norm
  writeHash codec S .normId

end LocaleCache

/-! ## 3. The service -/

namespace LocaleService

variable (py : PyText) (codec : SnapshotCodec)

/-- The snapshot of the table as it is. -/
def snapshotOf (db : LocaleDb) : LocaleSnapshot := buildSnapshot py db.listAll

def getLocaleSnapshot : LocaleScript LocaleSnapshotResult := do
  let cached ← LocaleCache.getSnapshot codec
  match cached with
  | some r => pure r
  | none => do
    let locales ← Script.query (.read (fun db _ => db.listAll) .ret)
    let S := buildSnapshot py locales
    LocaleCache.populate codec S
    pure S.result

def clearLocaleCache : LocaleScript Unit := LocaleCache.clear

end LocaleService

/-- A call of the service, or a request that changes the table. -/
inductive LocaleCall
  | getLocaleSnapshot
  | clearLocaleCache
  | edit (change : List SystemLocale → List SystemLocale)

inductive LocaleAnswer
  | done
  | snapshot (r : LocaleSnapshotResult)

/-- What a request does to the table. -/
def tableChange (change : List SystemLocale → List SystemLocale) : Change LocaleDb Unit where
  rows := [()]
  apply db := { locales := change db.locales }
  frame _ _ h := absurd (List.mem_singleton_self _) h

/-- What runs a call. -/
def LocaleCall.body (py : PyText) (codec : SnapshotCodec) : LocaleCall → LocaleScript LocaleAnswer
  | .getLocaleSnapshot =>
    (LocaleService.getLocaleSnapshot py codec).bind fun r => pure (.snapshot r)
  | .clearLocaleCache => LocaleService.clearLocaleCache.bind fun _ => pure .done
  | .edit change => .write (fun _ => .ok (tableChange change)) fun _ => pure .done

abbrev LocaleVisit :=
  Visit LocaleDb Unit (HashStore LocaleKey) Empty LocaleAnswer LocaleCall

abbrev LocaleDesk :=
  Desk LocaleDb Unit (HashStore LocaleKey) Empty LocaleAnswer LocaleCall

end NewlifeCore
