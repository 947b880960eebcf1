import NewlifeCore.Content.Files

/-!
# Uploads and deletions side by side

Any number of `upload_file` and `delete_files` requests over one file table and one container, round
trip by round trip.  Each request has its own session, which shows it what is committed and what it
has written itself, and whose writes its commit publishes at once; a call of the container takes
effect at once.  Every round trip may fail.
-/

namespace NewlifeCore.Content

/-! ## 1. Requests -/

/-- How a round trip ends: as it should, with an error of the server it calls, or with another
exception.  A call of the container that fails may have taken effect. -/
inductive Ending
  | succeeds
  | fails (takesEffect : Bool)
  | raises (takesEffect : Bool)
deriving DecidableEq

def Ending.takesEffect : Ending → Bool
  | succeeds => true
  | fails takesEffect => takesEffect
  | raises takesEffect => takesEffect

/-- A write of the session of a request. -/
inductive FileWrite
  | insert (row : ContentFile)
  | updateStatus (fileId : UUID) (status : FileStatus)
  | markDeletedByKeys (keys : List String)

def FileWrite.apply (rows : List ContentFile) : FileWrite → List ContentFile
  | insert row => rows ++ [row]
  | updateStatus fileId status =>
    rows.map fun r => if r.id = fileId then r.setStatus status else r
  | markDeletedByKeys keys => rows.map fun r => if r.key ∈ keys then r.setStatus .deleted else r

/-- The round trip of `upload_file` that comes next, the duplicate that it is about to return, or
how it has ended. -/
inductive UploadPhase
  | getBySha256
  | getByMd5SizeContentType
  | duplicate (existing : ContentFile)
  | insertFile
  | putObject
  | updateStatus
  | commit
  | ended

structure UploadRequest where
  command : UploadFileCommand
  fileId : UUID
  phase : UploadPhase
  pending : List FileWrite := []

/-- The round trip of `delete_files` that comes next, with the keys that `delete_objects` has still
to go through, or how it has ended. -/
inductive DeletePhase
  | listByIds
  | deleteObjects (keys : List String)
  | markDeletedByKeys
  | deleteAssociationsByFileIds
  | invalidateCaches
  | commit
  | committed
  | failed
deriving DecidableEq

/-- `deletedBlobs` are the keys whose blobs it has deleted, whatever the container said. -/
structure DeleteRequest where
  ids : List UUID
  phase : DeletePhase := .listByIds
  successKeys : List String := []
  pending : List FileWrite := []
  deletedBlobs : List String := []

inductive FileRequest
  | idle
  | upload (u : UploadRequest)
  | delete (d : DeleteRequest)

/-- The committed rows, the container, the requests by number, and the identifiers and keys that
`uuid4()` has drawn. -/
structure FileWorld where
  rows : List ContentFile := []
  store : BlobStore := fun _ => none
  requests : Nat → FileRequest := fun _ => .idle
  drawn : List (UUID × String) := []

/-- A request begins, or goes on with its next round trip. -/
inductive FileTurn
  | upload (n : Nat) (command : UploadFileCommand) (fileId : UUID)
  | delete (n : Nat) (ids : List UUID)
  | go (n : Nat) (ending : Ending)

/-! ## 2. Steps -/

def BlobStore.delete (store : BlobStore) (key : String) : BlobStore :=
  fun k => if k = key then none else store k

def commitWrites (pending : List FileWrite) (rows : List ContentFile) : List ContentFile :=
  pending.foldl FileWrite.apply rows

namespace FileWorld

def setRequest (w : FileWorld) (n : Nat) (r : FileRequest) : FileWorld :=
  { w with requests := fun m => if m = n then r else w.requests m }

/-- `uuid4()` draws no identifier twice, so that no key comes twice either. -/
def Fresh (w : FileWorld) (fileId : UUID) (key : String) : Prop :=
  ∀ p ∈ w.drawn, p.1 ≠ fileId ∧ p.2 ≠ key

instance (w : FileWorld) (fileId : UUID) (key : String) : Decidable (w.Fresh fileId key) :=
  List.decidableBAll _ _

end FileWorld

variable (env : Env)

def UploadRequest.key (u : UploadRequest) : String := FileService.blobKey env u.fileId u.command

/-- `upload_file`, before its first round trip. -/
def UploadRequest.start (command : UploadFileCommand) (fileId : UUID) : UploadRequest where
  command
  fileId
  phase :=
    if env.maxUploadSize < command.content.length then .ended
    else if command.checkDuplicates then .getBySha256
    else .insertFile

/-- The next round trip of an upload that succeeds. -/
def UploadRequest.next (u : UploadRequest) (w : FileWorld) : UploadRequest × FileWorld :=
  match u.phase with
  | .getBySha256 =>
    match FileRepository.getBySha256 ⟨w.rows⟩ (env.sha256 u.command.content) with
    | some r => ({ u with phase := .duplicate r }, w)
    | none => ({ u with phase := .getByMd5SizeContentType }, w)
  | .getByMd5SizeContentType =>
    match FileRepository.getByMd5SizeContentType ⟨w.rows⟩ (env.md5 u.command.content)
        u.command.content.length (FileService.contentType env u.command) with
    | some r => ({ u with phase := .duplicate r }, w)
    | none => ({ u with phase := .insertFile }, w)
  | .duplicate _ => ({ u with phase := .ended }, w)
  | .insertFile =>
    if w.rows.any fun r => r.bucket = env.bucket && r.key = u.key env then
      -- ON CONFLICT (bucket, key) DO NOTHING
      ({ u with phase := .putObject }, w)
    else if w.rows.any fun r => r.id = u.fileId then ({ u with phase := .ended }, w)
    else
      ({ u with
          phase := .putObject
          pending := [.insert (FileService.fileData env u.fileId u.command)] }, w)
  | .putObject =>
    ({ u with phase := .updateStatus }, { w with store := w.store.put (u.key env) u.command.content })
  | .updateStatus =>
    ({ u with phase := .commit, pending := u.pending ++ [.updateStatus u.fileId .uploaded] }, w)
  | .commit => ({ u with phase := .ended }, { w with rows := commitWrites u.pending w.rows })
  | .ended => (u, w)

/-- The next round trip of an upload that fails; the request is rolled back. -/
def UploadRequest.fail (u : UploadRequest) (takesEffect : Bool) (w : FileWorld) :
    UploadRequest × FileWorld :=
  match u.phase with
  | .putObject =>
    ({ u with phase := .ended },
      if takesEffect then { w with store := w.store.put (u.key env) u.command.content } else w)
  | _ => ({ u with phase := .ended }, w)

/-- After the last key of `delete_objects`. -/
def DeletePhase.afterObjects (keys successKeys : List String) : DeletePhase :=
  if keys.isEmpty then if successKeys.isEmpty then .commit else .markDeletedByKeys
  else .deleteObjects keys

/-- `delete_blob`, of a blob that is there: whether the caller is told that it is deleted. -/
def DeleteRequest.deleteBlob (d : DeleteRequest) (key : String) (keys : List String)
    (ending : Ending) (w : FileWorld) : DeleteRequest × FileWorld :=
  let successKeys := if ending = .succeeds then d.successKeys ++ [key] else d.successKeys
  let deletedBlobs := if ending.takesEffect then d.deletedBlobs ++ [key] else d.deletedBlobs
  let phase :=
    match ending with
    | .raises _ => .failed
    | _ => DeletePhase.afterObjects keys successKeys
  ({ d with phase, successKeys, deletedBlobs },
    if ending.takesEffect then { w with store := w.store.delete key } else w)

/-- The next round trip of a deletion. -/
def DeleteRequest.go (d : DeleteRequest) (ending : Ending) (w : FileWorld) :
    DeleteRequest × FileWorld :=
  match d.phase, ending with
  | .listByIds, .succeeds =>
    let keys := (w.rows.filter fun r => r.id ∈ d.ids).map ContentFile.key
    if keys.isEmpty then ({ d with phase := .failed }, w)
    else ({ d with phase := .deleteObjects keys }, w)
  | .deleteObjects [], _ => (d, w)
  | .deleteObjects (key :: keys), ending =>
    match w.store key, ending with
    | some _, ending => d.deleteBlob key keys ending w
    -- ResourceNotFoundError is an AzureError
    | none, .raises _ => ({ d with phase := .failed }, w)
    | none, _ => ({ d with phase := DeletePhase.afterObjects keys d.successKeys }, w)
  | .markDeletedByKeys, .succeeds =>
    ({ d with
        phase := .deleteAssociationsByFileIds
        pending := [.markDeletedByKeys d.successKeys] }, w)
  | .deleteAssociationsByFileIds, .succeeds => ({ d with phase := .invalidateCaches }, w)
  | .invalidateCaches, .succeeds => ({ d with phase := .commit }, w)
  | .commit, .succeeds =>
    ({ d with phase := .committed }, { w with rows := commitWrites d.pending w.rows })
  | .committed, _ => (d, w)
  | _, _ => ({ d with phase := .failed }, w)

/-- One turn; one that is not on changes nothing. -/
def FileWorld.step (w : FileWorld) : FileTurn → FileWorld
  | .upload n command fileId =>
    match w.requests n with
    | .idle =>
      let u := UploadRequest.start env command fileId
      if w.Fresh fileId (u.key env) then
        { w.setRequest n (.upload u) with drawn := (fileId, u.key env) :: w.drawn }
      else w
    | _ => w
  | .delete n ids =>
    match w.requests n with
    | .idle => w.setRequest n (.delete { ids })
    | _ => w
  | .go n ending =>
    match w.requests n with
    | .idle => w
    | .upload u =>
      let (u, w) := if ending = .succeeds then u.next env w else u.fail env ending.takesEffect w
      w.setRequest n (.upload u)
    | .delete d =>
      let (d, w) := d.go ending w
      w.setRequest n (.delete d)

/-- **A run**: any turns of any requests, from an empty table and an empty container. -/
def FileWorld.run (w : FileWorld) (turns : List FileTurn) : FileWorld :=
  turns.foldl (FileWorld.step env) w

/-! ## 3. What should hold -/

/-- The blob of a row, with the content that its checksum is of. -/
def FileWorld.Stored (w : FileWorld) (r : ContentFile) : Prop :=
  ∃ body, w.store r.key = some body ∧ r.checksumSha256 = some (env.sha256 body)

/-- **Every row committed as UPLOADED has its blob.** -/
def FileWorld.BlobsStored (w : FileWorld) : Prop :=
  ∀ r ∈ w.rows, r.status = .uploaded → w.Stored env r

/-- **An upload answered with `fileId`** is answered with an UPLOADED row and its very bytes. -/
def FileWorld.Answered (w : FileWorld) (fileId : UUID) (content : Bytes) : Prop :=
  ∃ r ∈ w.rows, r.id = fileId ∧ r.status = .uploaded ∧ w.store r.key = some content

/-- `delete_files` once more, as request `n`, with every round trip succeeding. -/
def FileWorld.retry (w : FileWorld) (n : Nat) (ids : List UUID) : FileWorld :=
  w.run env (.delete n ids :: List.replicate (w.rows.length + 6) (.go n .succeeds))

/-- **Every requested row is DELETED.** -/
def FileWorld.Deleted (w : FileWorld) (ids : List UUID) : Prop :=
  ∀ r ∈ w.rows, r.id ∈ ids → r.status = .deleted

end NewlifeCore.Content
