import NewlifeCore.Facility.Constants
import NewlifeCore.Txn.Faults
import NewlifeCore.Txn.Table

/-!
# `FileService`: uploads

`upload_file` and `upload_multiple_files` of `file_service.py`, over the file table and the blob
storage.  Each file of a batch has its own `try`, but all of them share the session of the
request, which a failing statement rolls back.  Which steps fail is given file by file.
-/

namespace NewlifeCore.Content

open Txn

/-! ## 1. The table and the storage -/

inductive FileStatus
  | uploading
  | uploaded
  | processing
  | processed
  | failed
  | deleted
deriving DecidableEq, Repr

inductive FileUploadSource
  | admin
  | app
deriving DecidableEq, Repr

/-- `content.file`. -/
structure ContentFile where
  id : UUID
  originalName : String
  key : String
  storage : String
  bucket : String
  region : String
  contentType : Option String
  extension : Option String
  sizeBytes : Option Nat
  checksumMd5 : Option String
  checksumSha256 : Option String
  width : Option Nat := none
  height : Option Nat := none
  status : FileStatus := .uploading
  isPublic : Bool := false
  source : Option FileUploadSource := none

def ContentFile.setStatus (r : ContentFile) (status : FileStatus) : ContentFile := { r with status }

structure Db where
  files : List ContentFile := []

inductive RowName
  | file (id : UUID)
deriving DecidableEq

instance : RowStore Db RowName where
  Row := List ContentFile
  row db x := db.files.filter fun r => RowName.file r.id = x

def fileTable : Table Db RowName ContentFile where
  get := Db.files
  set _ l := { files := l }
  name r := .file r.id
  frame _ _ _ h := h

abbrev Bytes := List UInt8

/-- The blobs of the container, by key. -/
def BlobStore := String → Option Bytes

def BlobStore.put (store : BlobStore) (key : String) (body : Bytes) : BlobStore :=
  fun k => if k = key then some body else store k

/-! ## 2. What a request raises -/

/-- `ApiBaseException`. -/
structure ApiException where
  statusCode : Nat
  detail : String
  debugDetail : Option String := none
deriving DecidableEq, Repr

inductive UploadError
  /-- `AzureError` -/
  | azure (text : String)
  /-- `asyncpg.UniqueViolationError` -/
  | uniqueViolation (text : String)
  | api (e : ApiException)
  | other (text : String)
deriving DecidableEq, Repr

/-- `str(exc)`. -/
def UploadError.str : UploadError → String
  | azure text => text
  | uniqueViolation text => text
  | api e => e.detail
  | other text => text

abbrev ContentProg (α : Type) := Prog Db RowName Empty UploadError α

abbrev ContentAttempt (α : Type) := Attempt Db BlobStore UploadError α

/-! ## 3. `FileRepository` -/

namespace FileRepository

/-- The rows a `checksum_sha256` may be answered with. -/
def hasSha256 (checksum : String) (r : ContentFile) : Bool :=
  r.checksumSha256 = some checksum && r.status ≠ .deleted

def getBySha256 (db : Db) (checksum : String) : Option ContentFile :=
  db.files.find? (hasSha256 checksum)

def hasMd5SizeContentType (checksum : String) (sizeBytes : Nat) (contentType : String)
    (r : ContentFile) : Bool :=
  r.checksumMd5 = some checksum && r.sizeBytes = some sizeBytes &&
    r.contentType = some contentType && r.status ≠ .deleted

def getByMd5SizeContentType (db : Db) (checksum : String) (sizeBytes : Nat) (contentType : String) :
    Option ContentFile :=
  db.files.find? (hasMd5SizeContentType checksum sizeBytes contentType)

/-- `INSERT ... ON CONFLICT (bucket, key) DO NOTHING`. -/
def insertFile (payload : ContentFile) : ContentProg Unit :=
  Prog.execute fun db =>
    if db.files.any fun r => r.bucket = payload.bucket && r.key = payload.key then
      .ok (fileTable.insert [])
    else if db.files.any fun r => r.id = payload.id then
      .error (.uniqueViolation "duplicate key value violates unique constraint")
    else .ok (fileTable.insert [payload])

def updateStatus (fileId : UUID) (status : FileStatus) : ContentProg Nat :=
  Prog.executeCount fun db => .ok (fileTable.update (fun r => r.id = fileId)
    (fun r => r.setStatus status) (fun _ => rfl) db)

end FileRepository

/-! ## 4. `FileService` -/

structure UploadFileCommand where
  filename : String
  content : Bytes
  contentType : Option String := none
  uploadSource : FileUploadSource := .admin
  isPublic : Bool := false
  checkDuplicates : Bool := true

structure UploadFileResult where
  id : UUID
  duplicate : Option Bool := none

structure FailedUploadFileResult where
  filename : String
  error : String
deriving DecidableEq, Repr

structure BatchUploadFilesResult where
  uploadedFiles : List UUID := []
  failedFiles : List FailedUploadFileResult := []
deriving DecidableEq, Repr

/-- What the service is built with: its settings, the names of its storage, and the libraries. -/
structure Env where
  maxUploadSize : Nat
  blobPrefix : String
  storageName : String
  bucket : String
  region : String
  /-- `mimetypes.guess_type` -/
  guessType : String → Option String
  /-- The size of an image; none where it cannot be opened. -/
  imageSize : Bytes → Option (Nat × Nat)
  md5 : Bytes → String
  sha256 : Bytes → String
  /-- `str.lower` -/
  lower : String → String

/-- `Path(name).suffix`: the last dot of the last component and what follows it, unless only dots
come before. -/
def pathSuffix (name : String) : String :=
  let components := (name.toList.splitOn '/').filter fun part => part ≠ [] && part ≠ ['.']
  let (letters, rest) := (components.getLastD []).reverse.span (· ≠ '.')
  match rest with
  | [] => ""
  | _ :: stem => if stem.any (· ≠ '.') then String.ofList ('.' :: letters.reverse) else ""

example : pathSuffix "in/report.tar.GZ" = ".GZ" ∧ pathSuffix ".bashrc" = "" := by decide +kernel

/-- `os.path.join` with a relative name. -/
def joinPath (directory name : String) : String :=
  if directory = "" || directory.endsWith "/" then directory ++ name else directory ++ "/" ++ name

namespace FileService

variable (env : Env) (fileId : UUID) (command : UploadFileCommand)

/-- `command.filename or "unknown_file"`. -/
def originalFilename : String :=
  if command.filename = "" then "unknown_file" else command.filename

def contentType : String :=
  ((command.contentType.filter (· ≠ "")).orElse fun _ =>
    (env.guessType (originalFilename command)).filter (· ≠ "")).getD "application/octet-stream"

def dimensions : Option (Nat × Nat) :=
  if (contentType env command).startsWith "image/" then env.imageSize command.content else none

def fileExtension : String := env.lower (pathSuffix (originalFilename command))

def blobKey : String :=
  joinPath env.blobPrefix (toString fileId ++ fileExtension env command)

/-- The row a new file begins with. -/
def fileData : ContentFile where
  id := fileId
  originalName := originalFilename command
  key := blobKey env fileId command
  storage := env.storageName
  bucket := env.bucket
  region := env.region
  contentType := some (contentType env command)
  extension := some (String.ofList ((fileExtension env command).toList.dropWhile (· = '.')))
  sizeBytes := some command.content.length
  checksumMd5 := some (env.md5 command.content)
  checksumSha256 := some (env.sha256 command.content)
  width := (dimensions env command).map Prod.fst
  height := (dimensions env command).map Prod.snd
  status := .uploading
  isPublic := command.isPublic
  source := some command.uploadSource

/-- `_check_duplicate`. -/
def checkDuplicate : ContentAttempt (Option ContentFile) := do
  let existing ← Attempt.method (Prog.select fun db _ =>
    FileRepository.getBySha256 db (env.sha256 command.content))
  match existing with
  | some existing => Attempt.ret (some existing)
  | none => Attempt.method (Prog.select fun db _ => FileRepository.getByMd5SizeContentType db
      (env.md5 command.content) command.content.length (contentType env command))

def existingFile : ContentAttempt (Option ContentFile) :=
  if command.checkDuplicates then checkDuplicate env command else Attempt.ret none

def putObject (key : String) (body : Bytes) : ContentAttempt Unit :=
  Attempt.outside fun store _ => .ok ((), store.put key body)

/-- The row, the blob and the final status of a new file. -/
def storeFile : ContentAttempt UploadFileResult := do
  Attempt.method (FileRepository.insertFile (fileData env fileId command))
  putObject (blobKey env fileId command) command.content
  let _ ← Attempt.method (FileRepository.updateStatus fileId .uploaded)
  pure { id := fileId }

/-- The body of the `try` of `upload_file`. -/
def tryUpload : ContentAttempt UploadFileResult :=
  if env.maxUploadSize < command.content.length then
    Attempt.raise (.api ⟨400, "File exceeds maximum upload size", none⟩)
  else do
    match ← existingFile env command with
    | some existing => pure { id := existing.id, duplicate := some true }
    | none => storeFile env fileId command

/-- What the `except` clauses of `upload_file` raise. -/
def uploadFailure : UploadError → UploadError
  | .azure text => .api ⟨503, "Azure Blob Storage service unavailable", some text⟩
  | .uniqueViolation text => .api ⟨409, "File already exists", some text⟩
  | .api e => .api e
  | .other text => .api ⟨500, "File upload failed", some text⟩

def uploadFile : ContentAttempt UploadFileResult :=
  (tryUpload env fileId command).tryCatch fun e => Attempt.raise (uploadFailure e)

end FileService

/-- A file of a batch, with the `uuid4()` it draws and the steps of it that fail. -/
structure Upload where
  command : UploadFileCommand
  fileId : UUID
  faults : Faults UploadError := fun _ => none

def Upload.attempt (env : Env) (x : Upload) : ContentAttempt UploadFileResult :=
  .under x.faults (FileService.uploadFile env x.fileId x.command)

namespace FileService

variable (env : Env)

/-- One turn of the loop of `upload_multiple_files`. -/
def uploadOne (result : BatchUploadFilesResult) (x : Upload) : ContentAttempt BatchUploadFilesResult :=
  ((x.attempt env).bind fun uploaded => Attempt.ret
      { result with uploadedFiles := result.uploadedFiles ++ [uploaded.id] }).tryCatch
    fun e => Attempt.ret { result with
      failedFiles := result.failedFiles ++ [⟨originalFilename x.command, e.str⟩] }

def uploadMultipleFiles (uploads : List Upload) : ContentAttempt BatchUploadFilesResult :=
  .foldEach uploads {} (uploadOne env)

end FileService

end NewlifeCore.Content
