import NewlifeCore.Content.Files
import NewlifeCore.Txn.Desk

/-!
# `FileService`: signed URLs and deletions

`get_signed_url` and `delete_files` of `file_service.py`, with the methods of `FileRepository`,
`FileCache` and `AzureBlobStorage` that they call.  A URL is signed for some seconds from the moment
of signing, and kept in Redis for as many from the moment it is stored, under the id of its file.
-/

namespace NewlifeCore.Content

open Txn

/-! ## 1. Tables, cache and storage -/

/-- `content.file_association`. -/
structure ContentFileAssociation where
  id : UUID
  fileId : UUID
  resourceId : UUID
  resourceName : String

/-- The files with what they are linked to. -/
structure FileTables where
  files : List ContentFile := []
  associations : List ContentFileAssociation := []

inductive FileRowName
  | file (id : UUID)
  | association (id : UUID)
deriving DecidableEq

inductive FileRowContent
  | files (rows : List ContentFile)
  | associations (rows : List ContentFileAssociation)

instance : RowStore FileTables FileRowName where
  Row := FileRowContent
  row db
    | .file x => .files (db.files.filter fun r => FileRowName.file r.id = .file x)
    | .association x => .associations (db.associations.filter fun r =>
        FileRowName.association r.id = .association x)

def linkedFileTable : Table FileTables FileRowName ContentFile where
  get := FileTables.files
  set db l := { db with files := l }
  name r := .file r.id
  frame db l x h := by cases x <;> first | rfl | exact congrArg FileRowContent.files h

def associationTable : Table FileTables FileRowName ContentFileAssociation where
  get := FileTables.associations
  set db l := { db with associations := l }
  name r := .association r.id
  frame db l x h := by cases x <;> first | rfl | exact congrArg FileRowContent.associations h

def secondMicros : Int := 1000000

/-- What the text of a signed URL names: the blob, and what `generate_blob_sas` was given. -/
structure SignedUrl where
  container : String
  key : String
  signedAt : Int
  expirySeconds : Int
deriving DecidableEq

/-- When a URL expires. -/
def SignedUrl.expiresAt (u : SignedUrl) : Int := u.signedAt + u.expirySeconds * secondMicros

/-- The keys of `FileCache`. -/
inductive FileCacheKey
  | signedUrl (fileId : UUID)
  | resourceAssociation (resourceId : UUID)
deriving DecidableEq

/-- What `SET ... EX` leaves under a key.  When the SET was is not in Redis; it is kept here to say
how long after its signing a URL was stored. -/
structure FileCacheEntry where
  url : SignedUrl
  storedAt : Int
  expireAt : Int

namespace FileCacheEntry

variable (e : FileCacheEntry)

/-- The time that passed between the signing and the SET. -/
def lag : Int := e.storedAt - e.url.signedAt

/-- `PTTL`: how long the entry is still there. -/
def ttl (t : Int) : Int := e.expireAt - t

end FileCacheEntry

def FileCacheStore := FileCacheKey → Option FileCacheEntry

namespace FileCacheStore

variable (store : FileCacheStore)

/-- The entry under a key, unless it has expired. -/
def entry (t : Int) (key : FileCacheKey) : Option FileCacheEntry :=
  (store key).filter fun e => 0 < e.ttl t

def get (t : Int) (key : FileCacheKey) : Option SignedUrl :=
  (store.entry t key).map FileCacheEntry.url

def put (key : FileCacheKey) (e : Option FileCacheEntry) : FileCacheStore :=
  fun k => if k = key then e else store k

def setex (t : Int) (key : FileCacheKey) (seconds : Int) (url : SignedUrl) : FileCacheStore :=
  store.put key (some ⟨url, t, t + seconds * secondMicros⟩)

end FileCacheStore

/-- Redis and the container of the blobs. -/
structure FileStore where
  cache : FileCacheStore
  blobs : BlobStore

/-- The settings of `AzureBlobStorage`, and how long a URL is good for unless asked otherwise. -/
structure StorageSettings where
  container : String
  configured : Bool
  /-- The names of the account and its key are known. -/
  canSign : Bool
  /-- `SIGNED_URL_EXPIRY_SECONDS` -/
  signedUrlExpirySeconds : Int

inductive FileError
  | azure (text : String)
  | redis (text : String)
  | api (e : ApiException)
deriving DecidableEq

abbrev FileProg (α : Type) := Prog FileTables FileRowName Empty FileError α

abbrev FileScript (α : Type) := Script FileTables FileRowName FileStore FileError α

/-! ## 2. Repository, cache and storage methods -/

/-- `FileBaseResult`; the further columns of `FileDetailResult` are not used here. -/
structure FileBaseResult where
  id : UUID
  originalName : String
  key : String
  storage : String
  bucket : String
  region : String
  contentType : Option String
  extension : Option String
  sizeBytes : Option Nat
deriving DecidableEq

def ContentFile.base (r : ContentFile) : FileBaseResult where
  id := r.id
  originalName := r.originalName
  key := r.key
  storage := r.storage
  bucket := r.bucket
  region := r.region
  contentType := r.contentType
  extension := r.extension
  sizeBytes := r.sizeBytes

namespace FileRepository

def getById (fileId : UUID) : FileProg (Option FileBaseResult) :=
  Prog.select fun db _ => (db.files.find? fun r => r.id = fileId && r.status ≠ .deleted).map
    ContentFile.base

def listByIds (fileIds : List UUID) : FileProg (List FileBaseResult) :=
  if fileIds.isEmpty then pure []
  else Prog.select fun db _ => (db.files.filter fun r => r.id ∈ fileIds).map ContentFile.base

def markDeletedByKeys (keys : List String) : FileProg Nat :=
  if keys.isEmpty then pure 0
  else Prog.executeCount fun db => .ok (linkedFileTable.update (fun r => r.key ∈ keys)
    (fun r => r.setStatus .deleted) (fun _ => rfl) db)

def deleteAssociationsByFileIds (fileIds : List UUID) : FileProg (List UUID) :=
  if fileIds.isEmpty then pure []
  else do
    let resourceIds ← Prog.select fun db _ =>
      (db.associations.filter fun a => a.fileId ∈ fileIds).map ContentFileAssociation.resourceId
    Prog.execute fun db => .ok (associationTable.delete (fun a => a.fileId ∈ fileIds) db)
    pure resourceIds

end FileRepository

namespace FileCache

def getSignedUrl (fileId : UUID) : FileScript (Option SignedUrl) :=
  Script.ask fun s t => s.cache.get t (.signedUrl fileId)

/-- `SET ... EX`, which Redis refuses for no time at all. -/
def setSignedUrl (fileId : UUID) (url : SignedUrl) (expirySeconds : Int) : FileScript Unit :=
  if expirySeconds ≤ 0 then Script.raise (.redis "invalid expire time in 'set' command")
  else Script.tell fun s t =>
    { s with cache := s.cache.setex t (.signedUrl fileId) expirySeconds url }

def delete (key : FileCacheKey) : FileScript Unit :=
  Script.tell fun s _ => { s with cache := s.cache.put key none }

def invalidateSignedUrl (fileId : UUID) : FileScript Unit := delete (.signedUrl fileId)

def invalidateResourceAssociation (resourceId : UUID) : FileScript Unit :=
  delete (.resourceAssociation resourceId)

end FileCache

namespace AzureBlobStorage

variable (env : StorageSettings)

def notConfigured : FileError :=
  .azure "Azure Blob Storage is not configured (missing connection string)"

/-- `bucket or self._container_name`. -/
def containerOf (bucket : String) : String := if bucket = "" then env.container else bucket

def generateSignedReadUrl (key bucket : String) (expirySeconds : Int) : FileScript SignedUrl :=
  if !env.configured then Script.raise notConfigured
  else if !env.canSign then
    Script.raise (.azure "Cannot generate SAS URL without account name and key")
  else do
    let now ← Script.now
    pure ⟨containerOf env bucket, key, now, expirySeconds⟩

/-- The deletion of one blob, which the service refuses or does not find. -/
def deleteBlob (refused : String → Bool) (key : String) : FileScript Bool :=
  Script.command (fun s _ =>
    if refused key || (s.blobs key).isNone then (s, false)
    else ({ s with blobs := fun k => if k = key then none else s.blobs k }, true)) Script.ret

/-- The keys whose blobs were deleted. -/
def deleteEach (refused : String → Bool) : List String → FileScript (List String)
  | [] => pure []
  | key :: keys => do
    let deleted ← deleteBlob refused key
    let rest ← deleteEach refused keys
    pure (if deleted then key :: rest else rest)

def deleteObjects (refused : String → Bool) (keys : List String) : FileScript (List String) :=
  if keys.isEmpty then pure []
  else if !env.configured then Script.raise notConfigured
  else deleteEach refused keys

end AzureBlobStorage

/-! ## 3. `FileService` -/

structure BulkDeleteFilesResult where
  successCount : Nat
  failedItems : Option (List FileBaseResult) := none

namespace FileService

variable (env : StorageSettings)

/-- A new URL, signed and stored. -/
def signUrl (file : FileBaseResult) (expiry : Int) : FileScript (Option SignedUrl) := do
  let url ← AzureBlobStorage.generateSignedReadUrl env file.key file.bucket expiry
  FileCache.setSignedUrl file.id url expiry
  pure (some url)

/-- The URL of a file, from the cache or else new.  No URL is an empty text. -/
def urlOf (file : FileBaseResult) (expiry : Int) : FileScript (Option SignedUrl) := do
  match ← FileCache.getSignedUrl file.id with
  | some cached => pure (some cached)
  | none => signUrl env file expiry

/-- The expiration asked for, or that of the settings. -/
def expiryOf (expiration : Option Int) : Int := expiration.getD env.signedUrlExpirySeconds

def getSignedUrl (fileId : Option UUID) (file : Option FileBaseResult) (expiration : Option Int) :
    FileScript (Option SignedUrl) :=
  match file, fileId with
  | some file, _ => urlOf env file (expiryOf env expiration)
  | none, none => pure none
  | none, some fileId => do
    match ← Script.query (FileRepository.getById fileId) with
    | none => pure none
    | some file => urlOf env file (expiryOf env expiration)

/-- `file_key_mapping`: a later file takes the place of an earlier one with its key. -/
def fileOfKey (files : List FileBaseResult) (key : String) : Option FileBaseResult :=
  files.reverse.find? fun file => file.key = key

/-- What is left to do when some blobs are gone.  The log is left out. -/
def afterDeletion (files : List FileBaseResult) (successKeys : List String) : FileScript Unit := do
  let successFiles := successKeys.filterMap (fileOfKey files)
  let _ ← Script.query (FileRepository.markDeletedByKeys successKeys)
  let resourceIds ← Script.query
    (FileRepository.deleteAssociationsByFileIds (successFiles.map FileBaseResult.id))
  Script.each resourceIds.dedup FileCache.invalidateResourceAssociation
  Script.each successFiles fun file => FileCache.invalidateSignedUrl file.id

/-- `refused` says which blobs the storage does not delete. -/
def deleteFiles (refused : String → Bool) (ids : List UUID) : FileScript BulkDeleteFilesResult := do
  let files ← Script.query (FileRepository.listByIds ids)
  if files.isEmpty then Script.raise (.api ⟨400, "No files to delete", none⟩)
  else do
    let keys := files.map FileBaseResult.key
    let successKeys ← (AzureBlobStorage.deleteObjects env refused keys).tryCatch fun
      | .azure text => Script.raise (.api ⟨503, "Azure Blob Storage service unavailable", some text⟩)
      | e => Script.raise e
    let failedItems := (keys.filter fun key => key ∉ successKeys).filterMap (fileOfKey files)
    if successKeys.isEmpty then pure ()
    else afterDeletion files successKeys
    pure ⟨successKeys.length, if failedItems.isEmpty then none else some failedItems⟩

end FileService

/-! ## 4. Calls -/

inductive FileCall
  | getSignedUrl (fileId : Option UUID) (file : Option FileBaseResult) (expiration : Option Int)
  | deleteFiles (refused : String → Bool) (ids : List UUID)

inductive FileAnswer
  | url (u : Option SignedUrl)
  | deleted (result : BulkDeleteFilesResult)

def FileCall.body (env : StorageSettings) : FileCall → FileScript FileAnswer
  | .getSignedUrl fileId file expiration =>
    (FileService.getSignedUrl env fileId file expiration).bind fun u => pure (.url u)
  | .deleteFiles refused ids =>
    (FileService.deleteFiles env refused ids).bind fun result => pure (.deleted result)

abbrev FileDesk := Desk FileTables FileRowName FileStore FileError FileAnswer FileCall

abbrev FileVisit := Visit FileTables FileRowName FileStore FileError FileAnswer FileCall

end NewlifeCore.Content
