import NewlifeCore.Content.Files

/-!
# What a batch of uploads reports

After the request committed, the report is compared with the table and the storage.  `course` is
what becomes of one file, from the rows its session sees and the steps of it that fail; a batch is
read off the courses of its files.

* §1: a file takes its course (`attempt_course`): what it reports, and what it leaves of the session
  and the storage.  The courses are few, and a failing statement takes along what the session had
  written for the files before.
* §2: the loop reports every file and goes on (`uploadMultipleFiles_run`), so that a batch is the
  courses of its files, each from where the one before has left the session (`serve_batch`).
* §2.1: `uuid4()` draws apart, so that a session only ever holds the committed rows and new ones of
  the batch's own (`Session.step`), and storage changes under their keys at most.
* §3 says what is to be reported, and `Sound` when it is.  A sound batch only adds good rows and
  what fails leaves the session as it was (`Sound.run`, `Sound.failed`), hence `Sound.truthful`.
  For the converse, a truthful batch keeps the new rows of its files to the end
  (`Truthful.persists`), which a failing statement after an insertion would not, and
  `Truthful.sound` collects the conditions.
-/

namespace NewlifeCore.Content

open Txn

variable (env : Env)

/-! ## 1. One file -/

/-- What becomes of a file. -/
inductive Course
  /-- It is too large. -/
  | refused (e : UploadError)
  | duplicate (r : ContentFile)
  /-- A statement before the upload of its blob fails. -/
  | statementFails (e : UploadError)
  | putFails (e : UploadError)
  /-- The update of its status fails. -/
  | updateFails (e : UploadError)
  | stored

/-- The course of a file that is no duplicate; its INSERT is step `n`. -/
def storing (faults : Faults UploadError) (n : Nat) : Course :=
  match faults n with
  | some e => .statementFails e
  | none =>
    match faults (n + 1) with
    | some e => .putFails e
    | none =>
      match faults (n + 2) with
      | some e => .updateFails e
      | none => .stored

/-- The course of a file that looks for duplicates among `files`. -/
def searching (files : List ContentFile) (x : Upload) : Course :=
  match x.faults 0 with
  | some e => .statementFails e
  | none =>
    match FileRepository.getBySha256 ⟨files⟩ (env.sha256 x.command.content) with
    | some r => .duplicate r
    | none =>
      match x.faults 1 with
      | some e => .statementFails e
      | none =>
        match FileRepository.getByMd5SizeContentType ⟨files⟩ (env.md5 x.command.content)
            x.command.content.length (FileService.contentType env x.command) with
        | some r => .duplicate r
        | none => storing x.faults 2

/-- **The course of a file** whose session sees `files`. -/
def course (files : List ContentFile) (x : Upload) : Course :=
  if env.maxUploadSize < x.command.content.length then
    .refused (.api ⟨400, "File exceeds maximum upload size", none⟩)
  else if x.command.checkDuplicates then searching env files x
  else storing x.faults 0

def Upload.key (x : Upload) : String := FileService.blobKey env x.fileId x.command

def Upload.row (x : Upload) : ContentFile := FileService.fileData env x.fileId x.command

namespace Course

variable {env} (x : Upload)

/-- What its `try` comes to. -/
def result : Course → Except UploadError UploadFileResult
  | refused e => .error e
  | duplicate r => .ok { id := r.id, duplicate := some true }
  | statementFails e => .error e
  | putFails e => .error e
  | updateFails e => .error e
  | stored => .ok { id := x.fileId }

/-- What the file reports. -/
def outcome (c : Course) : Except UploadError UploadFileResult :=
  (c.result x).mapError FileService.uploadFailure

variable (env)

/-- What its session sees then; `committed` before the request, `files` before the file. -/
def files (committed files : List ContentFile) : Course → List ContentFile
  | refused _ => files
  | duplicate _ => files
  | statementFails _ => committed
  | putFails _ => files ++ [x.row env]
  | updateFails _ => committed
  | stored => files ++ [(x.row env).setStatus .uploaded]

def blobs (store : BlobStore) : Course → BlobStore
  | updateFails _ => store.put (x.key env) x.command.content
  | stored => store.put (x.key env) x.command.content
  | _ => store

end Course

/-- Neither the identifier nor the key of the file is in use. -/
structure Fresh (files : List ContentFile) (x : Upload) : Prop where
  id : ∀ r ∈ files, r.id ≠ x.fileId
  key : ∀ r ∈ files, r.key ≠ x.key env

variable {env} {x : Upload} {t : Int} {F : Faults UploadError}

theorem Fresh.insert {db : Db} (h : Fresh env db.files x) :
    (FileRepository.insertFile (x.row env)).exec db t =
      .ok ((), ⟨db.files ++ [x.row env]⟩) := by
  have hkey : (db.files.any fun r => r.bucket = (x.row env).bucket && r.key = (x.row env).key) =
      false := by
    rw [List.any_eq_false]
    intro r hr hsame
    rw [Bool.and_eq_true, decide_eq_true_eq, decide_eq_true_eq] at hsame
    exact h.key r hr hsame.2
  have hid : (db.files.any fun r => r.id = (x.row env).id) = false := by
    rw [List.any_eq_false]
    intro r hr hsame
    exact h.id r hr (of_decide_eq_true hsame)
  refine Prog.exec_execute (c := fileTable.insert [x.row env]) ?_
  rw [hkey, hid]
  rfl

theorem Fresh.update {db : Db} (h : Fresh env db.files x) :
    (FileRepository.updateStatus x.fileId .uploaded).exec ⟨db.files ++ [x.row env]⟩ t =
      .ok (1, ⟨db.files ++ [(x.row env).setStatus .uploaded]⟩) := by
  have hothers : ∀ r ∈ db.files, decide (r.id = x.fileId) = false := fun r hr =>
    decide_eq_false (h.id r hr)
  have hself : decide ((x.row env).id = x.fileId) = true := decide_eq_true rfl
  have hmatching : fileTable.matching (fun r => r.id = x.fileId) ⟨db.files ++ [x.row env]⟩ =
      [.file x.fileId] := by
    have hnone : db.files.filter (fun r => r.id = x.fileId) = [] :=
      List.filter_eq_nil_iff.mpr fun r hr => by rw [hothers r hr]; exact Bool.false_ne_true
    show ((db.files ++ [x.row env]).filter fun r => r.id = x.fileId).map _ = _
    rw [List.filter_append, hnone, List.filter_singleton, hself]
    rfl
  have hkept : db.files.map (fun r => if decide (r.id = x.fileId) then
      r.setStatus .uploaded else r) = db.files := by
    refine (List.map_congr_left fun r hr => ?_).trans (List.map_id db.files)
    rw [hothers r hr]
    rfl
  have hrows : (db.files ++ [x.row env]).map (fun r => if decide (r.id = x.fileId) then
      r.setStatus .uploaded else r) = db.files ++ [(x.row env).setStatus .uploaded] := by
    rw [List.map_append, hkept, List.map_singleton, hself]
    rfl
  refine congrArg Except.ok (Prod.ext (congrArg List.length hmatching) ?_)
  refine Eq.trans ?_ (congrArg Db.mk hrows)
  exact @Table.update_self _ _ _ _ _ fileTable _ (fun r => r.setStatus .uploaded) (fun _ => rfl) _

theorem putObject_ok (env : Env) (x : Upload) {s : Moment Db BlobStore} (h : F s.steps = none) :
    FileService.putObject (x.key env) x.command.content F t s =
      (.ok (), s.next s.work (s.store.put (x.key env) x.command.content)) :=
  Attempt.outside_ok h rfl

/-- What a course leaves of the session and the storage. -/
def Course.Leaves (env : Env) (x : Upload) (c : Course) (s s' : Moment Db BlobStore) : Prop :=
  s'.work = ⟨c.files env x s.db.files s.work.files⟩ ∧ s'.db = s.db ∧
    s'.store = c.blobs env x s.store

theorem storeFile_course {s s₀ : Moment Db BlobStore} {G : Faults UploadError} {n : Nat}
    (hG : ∀ k, G (s.steps + k) = x.faults (n + k)) (h : Fresh env s.work.files x)
    (hwork : s.work = s₀.work) (hdb : s.db = s₀.db) (hstore : s.store = s₀.store) :
    ∃ s', FileService.storeFile env x.fileId x.command G t s =
        ((storing x.faults n).result x, s') ∧ (storing x.faults n).Leaves env x s₀ s' := by
  have h₀ : G s.steps = x.faults n := hG 0
  have h₂ : G (s.steps + 1 + 1) = x.faults (n + 2) := hG 2
  unfold FileService.storeFile storing
  cases hf₀ : x.faults n with
  | some e =>
    exact ⟨_, Attempt.bind_error (Attempt.method_fails (h₀.trans hf₀)), hdb, hdb, hstore⟩
  | none =>
    have hinsert := Attempt.method_ok (h₀.trans hf₀) (h.insert (t := t))
    have h₁ : G (s.next ⟨s.work.files ++ [x.row env]⟩ s.store).steps = x.faults (n + 1) := hG 1
    cases hf₁ : x.faults (n + 1) with
    | some e =>
      refine ⟨_, (Attempt.bind_ok hinsert).trans
        (Attempt.bind_error (Attempt.outside_fails (h₁.trans hf₁))), ?_, hdb, hstore⟩
      exact congrArg (fun d : Db => Db.mk (d.files ++ [x.row env])) hwork
    | none =>
      have hput := putObject_ok (t := t) env x (h₁.trans hf₁)
      cases hf₂ : x.faults (n + 2) with
      | some e =>
        refine ⟨_, (Attempt.bind_ok hinsert).trans ((Attempt.bind_ok hput).trans
          (Attempt.bind_error (Attempt.method_fails (h₂.trans hf₂)))), hdb, hdb, ?_⟩
        exact congrArg (fun r : BlobStore => r.put (x.key env) x.command.content) hstore
      | none =>
        refine ⟨_, (Attempt.bind_ok hinsert).trans ((Attempt.bind_ok hput).trans
          (Attempt.bind_ok (Attempt.method_ok (h₂.trans hf₂) h.update))), ?_, hdb, ?_⟩
        · exact congrArg (fun d : Db => Db.mk (d.files ++ [_])) hwork
        · exact congrArg (fun r : BlobStore => r.put (x.key env) x.command.content) hstore

theorem select_ok {α : Type} (q : Db → α) {s : Moment Db BlobStore} (h : F s.steps = none) :
    (Attempt.method (Prog.select fun db _ => q db) : ContentAttempt α) F t s =
      (.ok (q s.work), s.next s.work s.store) :=
  Attempt.method_ok h rfl

/-- What looking for a duplicate comes to. -/
theorem searching_course {s : Moment Db BlobStore} {G : Faults UploadError}
    (hG : ∀ k, G (s.steps + k) = x.faults k) (h : Fresh env s.work.files x) :
    ∃ s', ((FileService.checkDuplicate env x.command).bind fun found => match found with
        | some existing => .ret { id := existing.id, duplicate := some true }
        | none => FileService.storeFile env x.fileId x.command) G t s =
        ((searching env s.work.files x).result x, s') ∧
      (searching env s.work.files x).Leaves env x s s' := by
  have h₀ : G s.steps = x.faults 0 := hG 0
  unfold searching
  cases hf₀ : x.faults 0 with
  | some e =>
    refine ⟨_, Attempt.bind_error (Attempt.bind_error (Attempt.method_fails (h₀.trans hf₀))), ?_⟩
    exact ⟨rfl, rfl, rfl⟩
  | none =>
    have hsha := select_ok (t := t) (fun db => FileRepository.getBySha256 db
      (env.sha256 x.command.content)) (h₀.trans hf₀)
    cases hfound : FileRepository.getBySha256 s.work (env.sha256 x.command.content) with
    | some r =>
      rw [hfound] at hsha
      have hcheck : FileService.checkDuplicate env x.command G t s = (.ok (some r), _) :=
        Attempt.bind_ok hsha
      exact ⟨_, Attempt.bind_ok hcheck, rfl, rfl, rfl⟩
    | none =>
      rw [hfound] at hsha
      have h₁ : G (s.next s.work s.store).steps = x.faults 1 := hG 1
      cases hf₁ : x.faults 1 with
      | some e =>
        have hcheck : FileService.checkDuplicate env x.command G t s = (.error e, _) :=
          (Attempt.bind_ok hsha).trans (Attempt.method_fails (h₁.trans hf₁))
        exact ⟨_, Attempt.bind_error hcheck, rfl, rfl, rfl⟩
      | none =>
        have hmd5 := select_ok (t := t) (fun db => FileRepository.getByMd5SizeContentType db
          (env.md5 x.command.content) x.command.content.length
          (FileService.contentType env x.command)) (h₁.trans hf₁)
        have hcheck : FileService.checkDuplicate env x.command G t s = (.ok _, _) :=
          (Attempt.bind_ok hsha).trans hmd5
        rw [Attempt.bind_ok hcheck]
        cases hfound' : FileRepository.getByMd5SizeContentType s.work (env.md5 x.command.content)
            x.command.content.length (FileService.contentType env x.command) with
        | some r =>
          simp only [Moment.next_work, hfound']
          exact ⟨_, rfl, rfl, rfl, rfl⟩
        | none =>
          simp only [Moment.next_work, hfound']
          exact storeFile_course (fun k => (congrArg G (by simp; omega)).trans (hG (2 + k))) h rfl
            rfl rfl

theorem tryUpload_course {s : Moment Db BlobStore} {G : Faults UploadError}
    (hG : ∀ k, G (s.steps + k) = x.faults k) (h : Fresh env s.work.files x) :
    ∃ s', FileService.tryUpload env x.fileId x.command G t s =
        ((course env s.work.files x).result x, s') ∧
      (course env s.work.files x).Leaves env x s s' := by
  unfold FileService.tryUpload course
  by_cases hsize : env.maxUploadSize < x.command.content.length
  · rw [if_pos hsize, if_pos hsize]
    exact ⟨_, rfl, rfl, rfl, rfl⟩
  · rw [if_neg hsize, if_neg hsize]
    unfold FileService.existingFile
    cases x.command.checkDuplicates with
    | true => exact searching_course hG h
    | false =>
      refine storeFile_course (n := 0) (fun k => ?_) h rfl rfl rfl
      rw [Nat.zero_add]
      exact hG k

/-- **A file takes its course**: what it reports, and what it leaves of the session and the
storage. -/
theorem attempt_course {s : Moment Db BlobStore} (h : Fresh env s.work.files x) :
    ∃ s', x.attempt env F t s = ((course env s.work.files x).outcome x, s') ∧
      (course env s.work.files x).Leaves env x s s' := by
  obtain ⟨s', hrun, hleaves⟩ := tryUpload_course (G := fun n => x.faults (n - s.steps)) (t := t)
    (fun k => by rw [Nat.add_sub_cancel_left]) h
  exact ⟨s', Attempt.tryCatch_raise hrun, hleaves⟩

/-! ## 2. A batch -/

section Batch

variable (env) (t)

/-- No further step fails. -/
def noFaults : Faults UploadError := fun _ => none

/-- What a file reports from `s`. -/
def Upload.reports (x : Upload) (s : Moment Db BlobStore) : Except UploadError UploadFileResult :=
  (x.attempt env noFaults t s).1

/-- Where a file leaves the request. -/
def Upload.leaves (x : Upload) (s : Moment Db BlobStore) : Moment Db BlobStore :=
  (x.attempt env noFaults t s).2

/-- Where a list of files leaves the request. -/
def afterAll : List Upload → Moment Db BlobStore → Moment Db BlobStore
  | [], s => s
  | x :: xs, s => afterAll xs (x.leaves env t s)

/-- What each of them reports. -/
def outcomes : List Upload → Moment Db BlobStore → List (Except UploadError UploadFileResult)
  | [], _ => []
  | x :: xs, s => x.reports env t s :: outcomes xs (x.leaves env t s)

end Batch

theorem afterAll_append (ys : List Upload) : ∀ (xs : List Upload) (s : Moment Db BlobStore),
    afterAll env t (xs ++ ys) s = afterAll env t ys (afterAll env t xs s)
  | [], _ => rfl
  | x :: xs, s => afterAll_append ys xs (x.leaves env t s)

theorem outcomes_append (ys : List Upload) : ∀ (xs : List Upload) (s : Moment Db BlobStore),
    outcomes env t (xs ++ ys) s = outcomes env t xs s ++ outcomes env t ys (afterAll env t xs s)
  | [], _ => rfl
  | x :: xs, s => congrArg (x.reports env t s :: ·) (outcomes_append ys xs (x.leaves env t s))

theorem outcomes_length : ∀ (xs : List Upload) (s : Moment Db BlobStore),
    (outcomes env t xs s).length = xs.length
  | [], _ => rfl
  | x :: xs, s => congrArg (· + 1) (outcomes_length xs (x.leaves env t s))

/-- A result with one more file in it. -/
def BatchUploadFilesResult.add (result : BatchUploadFilesResult) (x : Upload) :
    Except UploadError UploadFileResult → BatchUploadFilesResult
  | .ok uploaded => { result with uploadedFiles := result.uploadedFiles ++ [uploaded.id] }
  | .error e => { result with failedFiles :=
      result.failedFiles ++ [⟨FileService.originalFilename x.command, e.str⟩] }

/-- **The loop never raises**: it reports every file and goes on. -/
theorem uploadMultipleFiles_run : ∀ (xs : List Upload) (result : BatchUploadFilesResult)
    (s : Moment Db BlobStore),
    Attempt.foldEach xs result (FileService.uploadOne env) F t s =
      (.ok ((xs.zip (outcomes env t xs s)).foldl (fun acc p => acc.add p.1 p.2) result),
        afterAll env t xs s)
  | [], _, _ => rfl
  | x :: xs, result, s => by
    have hone : FileService.uploadOne env result x F t s =
        (.ok (result.add x (x.reports env t s)), x.leaves env t s) := by
      have hrun : x.attempt env F t s = (x.reports env t s, x.leaves env t s) := rfl
      unfold FileService.uploadOne Attempt.tryCatch Attempt.bind
      rw [hrun]
      cases x.reports env t s <;> rfl
    exact (Attempt.bind_ok hone).trans (uploadMultipleFiles_run xs _ _)

/-- The identifiers reported as uploaded. -/
def uploadedIds (os : List (Except UploadError UploadFileResult)) : List UUID :=
  os.filterMap fun o => o.toOption.map UploadFileResult.id

theorem foldl_uploadedFiles : ∀ (xs : List Upload) (os : List (Except UploadError UploadFileResult))
    (result : BatchUploadFilesResult), os.length = xs.length →
    ((xs.zip os).foldl (fun acc p => acc.add p.1 p.2) result).uploadedFiles =
      result.uploadedFiles ++ uploadedIds os
  | [], [], result, _ => (List.append_nil _).symm
  | x :: xs, o :: os, result, h => by
    rw [List.zip_cons_cons, List.foldl_cons, foldl_uploadedFiles xs os _ (Nat.succ.inj h)]
    cases o with
    | error e => rfl
    | ok uploaded => exact List.append_assoc _ _ _

/-- **A batch that committed** reports the outcomes of its files and leaves what they left. -/
theorem serve_batch {uploads : List Upload} {w w' : World Db BlobStore}
    {result : BatchUploadFilesResult}
    (h : (FileService.uploadMultipleFiles env uploads).serve F w t = (.ok result, w')) :
    result.uploadedFiles = uploadedIds (outcomes env t uploads (.start w)) ∧
      w'.db = (afterAll env t uploads (.start w)).work ∧
      w'.store = (afterAll env t uploads (.start w)).store := by
  have hrun : FileService.uploadMultipleFiles env uploads F t (.start w) =
      (.ok _, afterAll env t uploads (.start w)) := uploadMultipleFiles_run uploads {} (.start w)
  rw [Attempt.serve, Attempt.bind_ok hrun] at h
  cases hcommit : F (afterAll env t uploads (.start w)).steps with
  | some e =>
    rw [Attempt.bind_error (e := e) (by rw [Attempt.commit, hcommit])] at h
    cases h
  | none =>
    rw [Attempt.bind_ok (a := ()) (by rw [Attempt.commit, hcommit])] at h
    cases h
    refine ⟨?_, rfl, rfl⟩
    exact (foldl_uploadedFiles _ _ _ (outcomes_length uploads _)).trans (List.nil_append _)

/-! ### 2.1 The session -/

/-- What `uuid4()` gives a request: no identifier, and no key made of one, is in use or drawn
twice. -/
structure Drawn (env : Env) (files : List ContentFile) (uploads : List Upload) : Prop where
  ids : (uploads.map Upload.fileId).Nodup
  keys : (uploads.map (Upload.key env)).Nodup
  fresh : ∀ x ∈ uploads, Fresh env files x

/-- The primary key of the table. -/
def Db.Keyed (db : Db) : Prop := (db.files.map ContentFile.id).Nodup

/-- **The session after the files of `done`**: it sees the committed rows and new ones of theirs,
and the storage changed under their keys at most. -/
structure Session (env : Env) (w : World Db BlobStore) (done : List Upload)
    (new : List ContentFile) (s : Moment Db BlobStore) : Prop where
  db : s.db = w.db
  work : s.work.files = w.db.files ++ new
  rows : ∀ r ∈ new, ∃ x ∈ done, r.id = x.fileId ∧ r.key = x.key env
  ids : (new.map ContentFile.id).Nodup
  store : ∀ key, (∀ x ∈ done, key ≠ x.key env) → s.store key = w.store key

theorem Session.start (w : World Db BlobStore) : Session env w [] [] (.start w) :=
  ⟨rfl, (List.append_nil _).symm, fun _ h => absurd h List.not_mem_nil, List.nodup_nil,
    fun _ _ => rfl⟩

theorem Drawn.apart {files : List ContentFile} {done xs : List Upload}
    (h : Drawn env files (done ++ x :: xs)) {y : Upload} (hy : y ∈ done) :
    y.fileId ≠ x.fileId ∧ y.key env ≠ x.key env := by
  have hids := h.ids
  have hkeys := h.keys
  rw [List.map_append, List.nodup_append] at hids hkeys
  refine ⟨hids.2.2 _ (List.mem_map_of_mem hy) _ ?_, hkeys.2.2 _ (List.mem_map_of_mem hy) _ ?_⟩
  · exact List.mem_map_of_mem List.mem_cons_self
  · exact List.mem_map_of_mem List.mem_cons_self

theorem Session.fresh {w : World Db BlobStore} {done xs : List Upload} {new : List ContentFile}
    {s : Moment Db BlobStore} (h : Session env w done new s)
    (hdrawn : Drawn env w.db.files (done ++ x :: xs)) : Fresh env s.work.files x := by
  have hx := hdrawn.fresh x (List.mem_append_right done List.mem_cons_self)
  rw [h.work]
  constructor
  · intro r hr
    rcases List.mem_append.mp hr with hr | hr
    · exact hx.id r hr
    · obtain ⟨y, hy, hid, -⟩ := h.rows r hr
      exact hid ▸ (hdrawn.apart hy).1
  · intro r hr
    rcases List.mem_append.mp hr with hr | hr
    · exact hx.key r hr
    · obtain ⟨y, hy, -, hkey⟩ := h.rows r hr
      exact hkey ▸ (hdrawn.apart hy).2

/-- The new rows after a file. -/
def Course.news (env : Env) (x : Upload) (new : List ContentFile) : Course → List ContentFile
  | refused _ => new
  | duplicate _ => new
  | statementFails _ => []
  | putFails _ => new ++ [x.row env]
  | updateFails _ => []
  | stored => new ++ [(x.row env).setStatus .uploaded]

theorem Course.files_news {w : World Db BlobStore} {new : List ContentFile} (c : Course) :
    c.files env x w.db.files (w.db.files ++ new) = w.db.files ++ c.news env x new := by
  cases c <;> simp [Course.files, Course.news]

theorem Course.news_mem {new : List ContentFile} {r : ContentFile} {c : Course}
    (h : r ∈ c.news env x new) : r ∈ new ∨ (r.id = x.fileId ∧ r.key = x.key env) := by
  cases c with
  | refused e => exact .inl h
  | duplicate r' => exact .inl h
  | statementFails e => cases h
  | updateFails e => cases h
  | putFails e =>
    rcases List.mem_append.mp h with h | h
    · exact .inl h
    · obtain rfl := List.mem_singleton.mp h
      exact .inr ⟨rfl, rfl⟩
  | stored =>
    rcases List.mem_append.mp h with h | h
    · exact .inl h
    · obtain rfl := List.mem_singleton.mp h
      exact .inr ⟨rfl, rfl⟩

theorem Course.news_ids {new : List ContentFile} (c : Course) (hnew : ∀ r ∈ new, r.id ≠ x.fileId)
    (hids : (new.map ContentFile.id).Nodup) : ((c.news env x new).map ContentFile.id).Nodup := by
  have hadded : ∀ r : ContentFile, r.id = x.fileId → ((new ++ [r]).map ContentFile.id).Nodup := by
    intro r hr
    rw [List.map_append, List.nodup_append]
    refine ⟨hids, by simp, fun a ha b hb => ?_⟩
    obtain ⟨r', hr', rfl⟩ := List.mem_map.mp ha
    obtain rfl := List.mem_singleton.mp hb
    exact hr ▸ hnew r' hr'
  cases c with
  | refused e => exact hids
  | duplicate r => exact hids
  | statementFails e => exact List.nodup_nil
  | updateFails e => exact List.nodup_nil
  | putFails e => exact hadded _ rfl
  | stored => exact hadded _ rfl

theorem Course.blobs_other {store : BlobStore} {key : String} (c : Course) (h : key ≠ x.key env) :
    c.blobs env x store key = store key := by
  cases c with
  | updateFails e => exact if_neg h
  | stored => exact if_neg h
  | _ => rfl

/-- **What one file does to the session.** -/
theorem Session.step {w : World Db BlobStore} {done xs : List Upload} {new : List ContentFile}
    {s : Moment Db BlobStore} (h : Session env w done new s)
    (hdrawn : Drawn env w.db.files (done ++ x :: xs)) :
    x.reports env t s = (course env (w.db.files ++ new) x).outcome x ∧
      Session env w (done ++ [x]) ((course env (w.db.files ++ new) x).news env x new)
        (x.leaves env t s) ∧
      (x.leaves env t s).store = (course env (w.db.files ++ new) x).blobs env x s.store := by
  obtain ⟨s', hrun, hwork, hdb, hstore⟩ := attempt_course (F := noFaults) (t := t) (h.fresh hdrawn)
  rw [h.work, h.db, Course.files_news] at hwork
  rw [h.work] at hrun hstore
  have hreports : x.reports env t s = _ := congrArg Prod.fst hrun
  have hleaves : x.leaves env t s = s' := congrArg Prod.snd hrun
  have hnew : ∀ r ∈ new, r.id ≠ x.fileId := fun r hr =>
    (h.fresh hdrawn).id r (h.work ▸ List.mem_append_right _ hr)
  rw [hleaves]
  refine ⟨hreports, ⟨hdb.trans h.db, congrArg Db.files hwork, fun r hr => ?_,
    Course.news_ids _ hnew h.ids, fun key hkey => ?_⟩, hstore⟩
  · rcases Course.news_mem hr with hr | hr
    · obtain ⟨y, hy, hsame⟩ := h.rows r hr
      exact ⟨y, List.mem_append_left _ hy, hsame⟩
    · exact ⟨x, List.mem_append_right _ List.mem_cons_self, hr⟩
  · rw [hstore, Course.blobs_other _ (hkey x (List.mem_append_right _ List.mem_cons_self))]
    exact h.store key fun y hy => hkey y (List.mem_append_left _ hy)

/-- After any of its files, a batch is in such a session. -/
theorem Session.run {w : World Db BlobStore} : ∀ {xs done rest : List Upload}
    {new : List ContentFile} {s : Moment Db BlobStore}, Session env w done new s →
    Drawn env w.db.files (done ++ (xs ++ rest)) →
    ∃ new', Session env w (done ++ xs) new' (afterAll env t xs s)
  | [], done, _, new, _, h, _ => ⟨new, (List.append_nil done).symm ▸ h⟩
  | x :: xs, done, rest, new, s, h, hdrawn => by
    obtain ⟨-, hnext, -⟩ := h.step (t := t) hdrawn
    have hdrawn' : Drawn env w.db.files ((done ++ [x]) ++ (xs ++ rest)) := by simpa using hdrawn
    simpa [afterAll] using hnext.run hdrawn'

theorem Session.all {w : World Db BlobStore} {uploads : List Upload}
    (hdrawn : Drawn env w.db.files uploads) :
    ∃ new, Session env w uploads new (afterAll env t uploads (.start w)) := by
  have hdrawn' : Drawn env w.db.files ([] ++ (uploads ++ [])) := by simpa using hdrawn
  exact (Session.start w).run hdrawn'

/-! ## 3. What is to be reported -/

/-- The blob of a row is stored. -/
def BlobStored (env : Env) (store : BlobStore) (r : ContentFile) : Prop :=
  ∃ body, store r.key = some body ∧ r.checksumSha256 = some (env.sha256 body)

/-- A row in status UPLOADED with its blob. -/
def Good (env : Env) (store : BlobStore) (r : ContentFile) : Prop :=
  r.status = .uploaded ∧ BlobStored env store r

/-- A later upload of the same content may be answered with the row. -/
def Answers (env : Env) (command : UploadFileCommand) (r : ContentFile) : Prop :=
  FileRepository.hasSha256 (env.sha256 command.content) r = true ∨
    FileRepository.hasMd5SizeContentType (env.md5 command.content) command.content.length
      (FileService.contentType env command) r = true

/-- The rows of an identifier. -/
def rowsOf (id : UUID) (files : List ContentFile) : List ContentFile := files.filter fun r => r.id = id

/-- **The batch reports the truth**, where `before` is the request before a file that failed. -/
structure Truthful (env : Env) (t : Int) (uploads : List Upload) (w w' : World Db BlobStore)
    (result : BatchUploadFilesResult) : Prop where
  /-- A file reported as uploaded has exactly one row, in status UPLOADED, and its blob is there. -/
  uploaded : ∀ id ∈ result.uploadedFiles, ∃ r, rowsOf id w'.db.files = [r] ∧ Good env w'.store r
  /-- A file that failed leaves no row that a later upload of its content is answered with. -/
  failed : ∀ pre x post e, uploads = pre ++ x :: post →
    x.reports env t (afterAll env t pre (.start w)) = .error e →
      ∀ r ∈ w'.db.files, r.id = x.fileId → ¬ Answers env x.command r
  /-- Its failure leaves the rows of every other file alone. -/
  apart : ∀ pre x post e, uploads = pre ++ x :: post →
    x.reports env t (afterAll env t pre (.start w)) = .error e → ∀ id, id ≠ x.fileId →
      rowsOf id (x.leaves env t (afterAll env t pre (.start w))).work.files =
        rowsOf id (afterAll env t pre (.start w)).work.files
  /-- Without it, the others report the same and leave the same rows. -/
  leftOut : ∀ pre x post e, uploads = pre ++ x :: post →
    x.reports env t (afterAll env t pre (.start w)) = .error e →
      outcomes env t (pre ++ post) (.start w) =
        (outcomes env t uploads (.start w)).eraseIdx pre.length ∧
      (afterAll env t (pre ++ post) (.start w)).work = w'.db

/-- **When it does**: no blob fails to be stored, no statement fails once a file of the batch has
been inserted, and the committed rows that files are found to duplicate are UPLOADED with their
blobs.  `new` are the rows inserted so far. -/
def Sound (env : Env) (w : World Db BlobStore) : List ContentFile → List Upload → Prop
  | _, [] => True
  | new, x :: xs =>
    match course env (w.db.files ++ new) x with
    | .refused _ => Sound env w new xs
    | .duplicate r => (r ∈ w.db.files → Good env w.store r) ∧ Sound env w new xs
    | .statementFails _ => new = [] ∧ Sound env w new xs
    | .putFails _ => False
    | .updateFails _ => new = [] ∧ Sound env w new xs
    | .stored => Sound env w (new ++ [(x.row env).setStatus .uploaded]) xs

/-! ### 3.1 Rows by their identifiers -/

theorem mem_rowsOf {id : UUID} {files : List ContentFile} {r : ContentFile} :
    r ∈ rowsOf id files ↔ r ∈ files ∧ r.id = id := by
  rw [rowsOf, List.mem_filter, decide_eq_true_eq]

theorem rowsOf_unique {files : List ContentFile} {r : ContentFile}
    (hids : (files.map ContentFile.id).Nodup) (hr : r ∈ files) : rowsOf r.id files = [r] := by
  induction files with
  | nil => cases hr
  | cons f files ih =>
    obtain ⟨hf, hids⟩ := List.nodup_cons.mp hids
    rw [rowsOf, List.filter_cons]
    rcases List.mem_cons.mp hr with rfl | hr
    · have hnone : files.filter (fun r' => r'.id = r.id) = [] :=
        List.filter_eq_nil_iff.mpr fun r' hr' hsame =>
          hf (List.mem_map.mpr ⟨r', hr', of_decide_eq_true hsame⟩)
      rw [if_pos (decide_eq_true rfl), hnone]
    · have hne : f.id ≠ r.id := fun hsame => hf (List.mem_map.mpr ⟨r, hr, hsame.symm⟩)
      rw [if_neg (by simpa using hne)]
      exact ih hids hr

section Sessions

variable {w : World Db BlobStore} {done xs : List Upload} {new : List ContentFile}
  {s : Moment Db BlobStore} {r : ContentFile}

/-- A new row has neither the identifier nor the key of a committed one. -/
theorem Session.new_apart (h : Session env w done new s) (hdrawn : Drawn env w.db.files (done ++ xs))
    (hr : r ∈ new) : r ∉ w.db.files ∧ ∀ r' ∈ w.db.files, r'.id ≠ r.id := by
  obtain ⟨y, hy, hid, -⟩ := h.rows r hr
  have hfresh := (hdrawn.fresh y (List.mem_append_left _ hy)).id
  exact ⟨fun hold => hfresh r hold hid, fun r' hr' => hid ▸ hfresh r' hr'⟩

theorem Session.nodup (h : Session env w done new s) (hdrawn : Drawn env w.db.files (done ++ xs))
    (hkeyed : w.db.Keyed) : (s.work.files.map ContentFile.id).Nodup := by
  rw [h.work, List.map_append, List.nodup_append]
  refine ⟨hkeyed, h.ids, fun a ha b hb => ?_⟩
  obtain ⟨r', hr', rfl⟩ := List.mem_map.mp ha
  obtain ⟨r, hr, rfl⟩ := List.mem_map.mp hb
  exact (h.new_apart hdrawn hr).2 r' hr'

/-- The blobs of committed rows are as they were. -/
theorem Session.old_blob (h : Session env w done new s) (hdrawn : Drawn env w.db.files (done ++ xs))
    (hr : r ∈ w.db.files) : s.store r.key = w.store r.key :=
  h.store r.key fun x hx => (hdrawn.fresh x (List.mem_append_left _ hx)).key r hr

theorem Good.congr {store store' : BlobStore} (h : Good env store r)
    (hstore : store' r.key = store r.key) : Good env store' r := by
  obtain ⟨hstatus, body, hbody, hsum⟩ := h
  exact ⟨hstatus, body, hstore.trans hbody, hsum⟩

end Sessions

theorem storing_cases (faults : Faults UploadError) (n : Nat) (r : ContentFile) :
    storing faults n ≠ .duplicate r := by
  unfold storing
  split <;> [nofun; split <;> [nofun; split <;> nofun]]

/-- A duplicate is among the rows the session sees. -/
theorem course_duplicate {files : List ContentFile} {r : ContentFile}
    (h : course env files x = .duplicate r) : r ∈ files := by
  unfold course at h
  split at h
  · cases h
  · split at h
    · unfold searching at h
      split at h
      · cases h
      · split at h
        · cases h
          exact List.mem_of_find?_eq_some ‹_›
        · split at h
          · cases h
          · split at h
            · cases h
              exact List.mem_of_find?_eq_some ‹_›
            · exact absurd h (storing_cases _ _ _)
    · exact absurd h (storing_cases _ _ _)

/-! ### 3.2 A sound batch -/

section Soundness

variable {w : World Db BlobStore} {done xs rest : List Upload} {new : List ContentFile}
  {s : Moment Db BlobStore}

/-- What a reported file has: a good row of before, or a new one. -/
def Held (env : Env) (w : World Db BlobStore) (new : List ContentFile) (id : UUID) : Prop :=
  (∃ r ∈ w.db.files, r.id = id ∧ Good env w.store r) ∨ ∃ r ∈ new, r.id = id

theorem Held.mono {more : List ContentFile} {id : UUID} (h : Held env w new id) :
    Held env w (new ++ more) id :=
  h.imp_right fun ⟨r, hr, hid⟩ => ⟨r, List.mem_append_left _ hr, hid⟩

/-- One file of a sound batch: a new row when it is stored, and none when it fails. -/
theorem Sound.step (h : Sound env w new (x :: xs)) :
    ∃ more, (course env (w.db.files ++ new) x).news env x new = new ++ more ∧
      Sound env w (new ++ more) xs ∧
      (∀ r ∈ more, r.id = x.fileId ∧ ∀ store,
        Good env ((course env (w.db.files ++ new) x).blobs env x store) r) ∧
      match (course env (w.db.files ++ new) x).outcome x with
      | .ok uploaded => Held env w (new ++ more) uploaded.id
      | .error _ => more = [] := by
  have hnone : ∀ P : ContentFile → Prop, ∀ r ∈ ([] : List ContentFile), P r :=
    fun _ _ hr => absurd hr List.not_mem_nil
  unfold Sound at h
  cases hc : course env (w.db.files ++ new) x with
  | refused e =>
    rw [hc] at h
    exact ⟨[], (List.append_nil _).symm, (List.append_nil new).symm ▸ h, hnone _, rfl⟩
  | duplicate r =>
    rw [hc] at h
    refine ⟨[], (List.append_nil _).symm, (List.append_nil new).symm ▸ h.2, hnone _, ?_⟩
    rcases List.mem_append.mp (course_duplicate hc) with hr | hr
    · exact .inl ⟨r, hr, rfl, h.1 hr⟩
    · exact .inr ⟨r, List.mem_append_left _ hr, rfl⟩
  | statementFails e =>
    rw [hc] at h
    obtain ⟨rfl, h⟩ := h
    exact ⟨[], rfl, h, hnone _, rfl⟩
  | putFails e =>
    rw [hc] at h
    exact h.elim
  | updateFails e =>
    rw [hc] at h
    obtain ⟨rfl, h⟩ := h
    exact ⟨[], rfl, h, hnone _, rfl⟩
  | stored =>
    rw [hc] at h
    refine ⟨_, rfl, h, fun r hr => ?_, .inr ⟨_, List.mem_append_right _ List.mem_cons_self, rfl⟩⟩
    obtain rfl := List.mem_singleton.mp hr
    exact ⟨rfl, fun store => ⟨rfl, _, if_pos rfl, rfl⟩⟩

/-- **A sound batch only adds good rows, and every file it reports as uploaded has one.** -/
theorem Sound.run (hsession : Session env w done new s) (hgood : ∀ r ∈ new, Good env s.store r)
    (hdrawn : Drawn env w.db.files (done ++ (xs ++ rest))) (h : Sound env w new (xs ++ rest)) :
    ∃ more, Session env w (done ++ xs) (new ++ more) (afterAll env t xs s) ∧
      (∀ r ∈ new ++ more, Good env (afterAll env t xs s).store r) ∧
      (∀ r ∈ more, ∃ y ∈ xs, r.id = y.fileId) ∧ Sound env w (new ++ more) rest ∧
      ∀ id ∈ uploadedIds (outcomes env t xs s), Held env w (new ++ more) id := by
  induction xs generalizing done new s with
  | nil =>
    refine ⟨[], ?_, ?_, fun r hr => absurd hr List.not_mem_nil, ?_, fun id hid => ?_⟩
    · simpa [afterAll] using hsession
    · simpa [afterAll] using hgood
    · simpa using h
    · exact absurd hid List.not_mem_nil
  | cons x xs ih =>
    obtain ⟨hreports, hnext, hstore⟩ := hsession.step (t := t) hdrawn
    obtain ⟨added, hnews, hsound, hadded, houtcome⟩ := h.step
    rw [hnews] at hnext
    have hkept : ∀ r ∈ new ++ added, Good env (x.leaves env t s).store r := by
      intro r hr
      rw [hstore]
      rcases List.mem_append.mp hr with hr | hr
      · refine (hgood r hr).congr (Course.blobs_other _ ?_)
        exact (hsession.fresh hdrawn).key r (hsession.work ▸ List.mem_append_right _ hr)
      · exact (hadded r hr).2 _
    obtain ⟨more, hlast, hall, hrows, hrest, hids⟩ := ih hnext hkept (by simpa using hdrawn) hsound
    refine ⟨added ++ more, ?_, ?_, fun r hr => ?_, ?_, fun id hid => ?_⟩
    · simpa [afterAll] using hlast
    · simpa [afterAll] using hall
    · rcases List.mem_append.mp hr with hr | hr
      · exact ⟨x, List.mem_cons_self, (hadded r hr).1⟩
      · obtain ⟨y, hy, hsame⟩ := hrows r hr
        exact ⟨y, List.mem_cons_of_mem _ hy, hsame⟩
    · simpa using hrest
    · rw [← List.append_assoc]
      have hsplit : id ∈ uploadedIds [x.reports env t s] ∨
          id ∈ uploadedIds (outcomes env t xs (x.leaves env t s)) := by
        rw [← List.mem_append, uploadedIds, uploadedIds, ← List.filterMap_append]
        exact hid
      rcases hsplit with hid | hid
      · rw [hreports] at hid
        cases ho : (course env (w.db.files ++ new) x).outcome x with
        | error e =>
          rw [ho] at hid
          cases hid
        | ok uploaded =>
          rw [ho] at hid houtcome
          obtain rfl := List.mem_singleton.mp hid
          exact houtcome.mono
      · exact hids id hid

/-- What a file of a sound batch that failed leaves: the session as it was. -/
theorem Sound.failed {e : UploadError} (hsession : Session env w done new s)
    (hgood : ∀ r ∈ new, Good env s.store r) (hdrawn : Drawn env w.db.files (done ++ x :: xs))
    (h : Sound env w new (x :: xs)) (hfailed : x.reports env t s = .error e) :
    Session env w (done ++ [x]) new (x.leaves env t s) ∧
      (∀ r ∈ new, Good env (x.leaves env t s).store r) ∧ Sound env w new xs := by
  obtain ⟨hreports, hnext, hstore⟩ := hsession.step (t := t) hdrawn
  obtain ⟨added, hnews, hsound, -, houtcome⟩ := h.step
  rw [← hreports, hfailed] at houtcome
  obtain rfl : added = [] := houtcome
  rw [List.append_nil] at hnews hsound
  refine ⟨hnews ▸ hnext, fun r hr => ?_, hsound⟩
  rw [hstore]
  refine (hgood r hr).congr (Course.blobs_other _ ?_)
  exact (hsession.fresh hdrawn).key r (hsession.work ▸ List.mem_append_right _ hr)

/-- The session decides what the files report and leave of it, whatever is stored. -/
theorem outcomes_congr {s' : Moment Db BlobStore} (hsession : Session env w done new s)
    (hdrawn : Drawn env w.db.files (done ++ xs)) (hwork : s'.work = s.work) (hdb : s'.db = s.db) :
    outcomes env t xs s' = outcomes env t xs s ∧
      (afterAll env t xs s').work = (afterAll env t xs s).work := by
  induction xs generalizing done new s s' with
  | nil => exact ⟨rfl, hwork⟩
  | cons x xs ih =>
    have hfresh := hsession.fresh hdrawn
    obtain ⟨-, hnext, -⟩ := hsession.step (t := t) hdrawn
    obtain ⟨u, hrun, huwork, hudb, -⟩ := attempt_course (F := noFaults) (t := t) hfresh
    obtain ⟨u', hrun', huwork', hudb', -⟩ :=
      attempt_course (F := noFaults) (t := t) (s := s') (hwork ▸ hfresh)
    rw [hwork] at hrun'
    rw [hwork, hdb] at huwork'
    have hu : x.leaves env t s = u := congrArg Prod.snd hrun
    have hu' : x.leaves env t s' = u' := congrArg Prod.snd hrun'
    have hsame : x.reports env t s' = x.reports env t s :=
      (congrArg Prod.fst hrun').trans (congrArg Prod.fst hrun).symm
    have hwork' : (x.leaves env t s').work = (x.leaves env t s).work := by
      rw [hu, hu', huwork', huwork]
    have hdb' : (x.leaves env t s').db = (x.leaves env t s).db := by rw [hu, hu', hudb', hudb, hdb]
    obtain ⟨hos, hw⟩ := ih hnext (by simpa using hdrawn) hwork' hdb'
    exact ⟨by rw [outcomes, outcomes, hsame, hos], hw⟩

theorem Drawn.leaveOut {files : List ContentFile} (h : Drawn env files (done ++ x :: xs)) :
    Drawn env files (done ++ xs) := by
  have hsub : (done ++ xs).Sublist (done ++ x :: xs) := (List.sublist_cons_self x xs).append_left done
  exact ⟨h.ids.sublist (hsub.map _), h.keys.sublist (hsub.map _), fun y hy => h.fresh y (hsub.subset hy)⟩

theorem Drawn.later {files : List ContentFile} (h : Drawn env files (done ++ x :: xs)) {y : Upload}
    (hy : y ∈ xs) : y.fileId ≠ x.fileId := by
  have hids := h.ids
  rw [List.map_append, List.map_cons, List.nodup_append] at hids
  intro hsame
  exact (List.nodup_cons.mp hids.2.1).1 (hsame ▸ List.mem_map_of_mem hy)

/-- **A sound batch is truthful.** -/
theorem Sound.truthful {uploads : List Upload} {w' : World Db BlobStore}
    {result : BatchUploadFilesResult} (hkeyed : w.db.Keyed) (hdrawn : Drawn env w.db.files uploads)
    (hrun : (FileService.uploadMultipleFiles env uploads).serve F w t = (.ok result, w'))
    (h : Sound env w [] uploads) : Truthful env t uploads w w' result := by
  obtain ⟨hresult, hdb', hstore'⟩ := serve_batch hrun
  have hstart : Session env w [] [] (.start w) := .start w
  have hnone : ∀ r ∈ ([] : List ContentFile), Good env w.store r :=
    fun r hr => absurd hr List.not_mem_nil
  -- before a file that failed, and after it
  have hsplit : ∀ pre x post e, uploads = pre ++ x :: post →
      x.reports env t (afterAll env t pre (.start w)) = .error e →
      ∃ new, Session env w pre new (afterAll env t pre (.start w)) ∧
        Session env w (pre ++ [x]) new (x.leaves env t (afterAll env t pre (.start w))) ∧
        (∀ r ∈ new, Good env (x.leaves env t (afterAll env t pre (.start w))).store r) ∧
        Sound env w new post := by
    rintro pre x post e rfl hfailed
    obtain ⟨new, hsession, hgood, -, hsound, -⟩ := h.run (t := t) hstart hnone hdrawn
    obtain ⟨hnext, hgood', hpost⟩ := hsound.failed hsession hgood hdrawn hfailed
    exact ⟨new, hsession, hnext, hgood', hpost⟩
  refine ⟨?_, ?_, ?_, ?_⟩
  · intro id hid
    have hdrawn' : Drawn env w.db.files ([] ++ (uploads ++ [])) := by simpa using hdrawn
    have hsound : Sound env w [] (uploads ++ []) := by simpa using h
    obtain ⟨new, hlast, hgood, -, -, hheld⟩ := hsound.run (t := t) hstart hnone hdrawn'
    rw [List.nil_append, List.nil_append] at hlast
    rw [hdb', hstore']
    have hdrawn : Drawn env w.db.files (uploads ++ []) := by simpa using hdrawn
    have hids := hlast.nodup hdrawn hkeyed
    rcases hheld id (hresult ▸ hid) with ⟨r, hr, rfl, hgood'⟩ | ⟨r, hr, rfl⟩
    · refine ⟨r, rowsOf_unique hids ?_, hgood'.congr (hlast.old_blob hdrawn hr)⟩
      exact hlast.work ▸ List.mem_append_left _ hr
    · refine ⟨r, rowsOf_unique hids ?_, hgood r hr⟩
      exact hlast.work ▸ List.mem_append_right _ hr
  · rintro pre x post e rfl hfailed r hr hid -
    obtain ⟨new, hsession, hnext, hgood, hpost⟩ := hsplit pre x post e rfl hfailed
    have hdrawn' : Drawn env w.db.files ((pre ++ [x]) ++ (post ++ [])) := by simpa using hdrawn
    have hsound : Sound env w new (post ++ []) := by simpa using hpost
    obtain ⟨more, hlast, -, hmore, -⟩ := hsound.run (t := t) hnext hgood hdrawn'
    rw [hdb', afterAll_append] at hr
    have hr : r ∈ w.db.files ++ (new ++ more) := hlast.work ▸ hr
    rcases List.mem_append.mp hr with hr | hr
    · exact (hdrawn.fresh x (List.mem_append_right _ List.mem_cons_self)).id r hr hid
    rcases List.mem_append.mp hr with hr | hr
    · obtain ⟨y, hy, hsame, -⟩ := hsession.rows r hr
      exact (hdrawn.apart hy).1 (hsame.symm.trans hid)
    · obtain ⟨y, hy, hsame⟩ := hmore r hr
      exact hdrawn.later hy (hsame.symm.trans hid)
  · rintro pre x post e rfl hfailed id -
    obtain ⟨new, hsession, hnext, -⟩ := hsplit pre x post e rfl hfailed
    rw [hnext.work, hsession.work]
  · rintro pre x post e rfl hfailed
    obtain ⟨new, hsession, hnext, -⟩ := hsplit pre x post e rfl hfailed
    have hwork : (x.leaves env t (afterAll env t pre (.start w))).work =
        (afterAll env t pre (.start w)).work := congrArg Db.mk (hnext.work.trans hsession.work.symm)
    obtain ⟨hos, hafter⟩ := outcomes_congr (t := t) hsession hdrawn.leaveOut hwork
      (hnext.db.trans hsession.db.symm)
    refine ⟨?_, ?_⟩
    · rw [outcomes_append, outcomes_append, outcomes, hos,
        List.eraseIdx_append_of_length_le (outcomes_length pre _).le, outcomes_length, Nat.sub_self,
        List.eraseIdx_cons_zero]
    · rw [afterAll_append, hdb', afterAll_append]
      exact hafter.symm

end Soundness

/-! ### 3.3 A truthful batch -/

section Truth

variable {w w' : World Db BlobStore} {uploads pre xs : List Upload} {new : List ContentFile}
  {s : Moment Db BlobStore} {result : BatchUploadFilesResult}

/-- A failing file keeps the new rows of the others. -/
theorem Truthful.kept {e : UploadError} {r : ContentFile}
    (h : Truthful env t uploads w w' result) (hdrawn : Drawn env w.db.files uploads)
    (hsplit : uploads = pre ++ x :: xs)
    (hsession : Session env w pre new (afterAll env t pre (.start w)))
    (hfailed : (course env (w.db.files ++ new) x).outcome x = .error e) (hr : r ∈ new) :
    r ∈ (course env (w.db.files ++ new) x).news env x new := by
  subst hsplit
  obtain ⟨hreports, hnext, -⟩ := hsession.step (t := t) hdrawn
  have hmem : r ∈ (afterAll env t pre (.start w)).work.files :=
    hsession.work ▸ List.mem_append_right _ hr
  have hkept : r ∈ rowsOf r.id (x.leaves env t (afterAll env t pre (.start w))).work.files := by
    rw [h.apart pre x xs e rfl (hreports.trans hfailed) r.id ((hsession.fresh hdrawn).id r hmem)]
    exact mem_rowsOf.mpr ⟨hmem, rfl⟩
  have hafter := (mem_rowsOf.mp hkept).1
  rw [hnext.work] at hafter
  exact (List.mem_append.mp hafter).resolve_left (hsession.new_apart hdrawn hr).1

/-- In a truthful batch new rows stay. -/
theorem Truthful.persists {r : ContentFile} (h : Truthful env t uploads w w' result)
    (hdrawn : Drawn env w.db.files uploads) (hsplit : uploads = pre ++ xs)
    (hsession : Session env w pre new (afterAll env t pre (.start w))) (hr : r ∈ new) :
    r ∈ (afterAll env t uploads (.start w)).work.files := by
  induction xs generalizing pre new with
  | nil =>
    rw [hsplit, List.append_nil, hsession.work]
    exact List.mem_append_right _ hr
  | cons x xs ih =>
    obtain ⟨-, hnext, -⟩ := hsession.step (t := t) (hsplit ▸ hdrawn)
    have hafter : x.leaves env t (afterAll env t pre (.start w)) =
        afterAll env t (pre ++ [x]) (.start w) := (afterAll_append [x] pre _).symm
    rw [hafter] at hnext
    refine ih (by simpa using hsplit) hnext ?_
    cases ho : (course env (w.db.files ++ new) x).outcome x with
    | error e => exact h.kept hdrawn hsplit hsession ho hr
    | ok uploaded =>
      cases hc : course env (w.db.files ++ new) x with
      | duplicate r' => exact hr
      | stored => exact List.mem_append_left _ hr
      | _ =>
        rw [hc] at ho
        cases ho

/-- **A truthful batch is sound.** -/
theorem Truthful.sound (h : Truthful env t uploads w w' result)
    (hdrawn : Drawn env w.db.files uploads)
    (hrun : (FileService.uploadMultipleFiles env uploads).serve F w t = (.ok result, w'))
    (hsplit : uploads = pre ++ xs)
    (hsession : Session env w pre new (afterAll env t pre (.start w))) : Sound env w new xs := by
  obtain ⟨hresult, hdb', hstore'⟩ := serve_batch hrun
  induction xs generalizing pre new with
  | nil => trivial
  | cons x xs ih =>
    obtain ⟨hreports, hnext, -⟩ := hsession.step (t := t) (hsplit ▸ hdrawn)
    have hafter : x.leaves env t (afterAll env t pre (.start w)) =
        afterAll env t (pre ++ [x]) (.start w) := (afterAll_append [x] pre _).symm
    rw [hafter] at hnext
    have hsplit' : uploads = (pre ++ [x]) ++ xs := by simpa using hsplit
    have hrest := ih hsplit' hnext
    -- a statement that fails takes the new rows with it
    have hclean : ∀ e, (course env (w.db.files ++ new) x).outcome x = .error e →
        (course env (w.db.files ++ new) x).news env x new = [] → new = [] := by
      intro e ho hnews
      refine List.eq_nil_iff_forall_not_mem.mpr fun r hr => ?_
      exact absurd (hnews ▸ h.kept hdrawn hsplit hsession ho hr) List.not_mem_nil
    unfold Sound
    cases hc : course env (w.db.files ++ new) x with
    | refused e =>
      rw [hc] at hrest
      exact hrest
    | duplicate r =>
      rw [hc] at hrest hreports
      refine ⟨fun hr => ?_, hrest⟩
      have hid : r.id ∈ result.uploadedFiles := by
        rw [hresult, hsplit, outcomes_append, outcomes, hreports]
        exact List.mem_filterMap.mpr ⟨_, List.mem_append_right _ List.mem_cons_self, rfl⟩
      obtain ⟨r', hrows, hgood⟩ := h.uploaded _ hid
      obtain ⟨last, hlast⟩ := Session.all (t := t) hdrawn
      have hmem : r ∈ w'.db.files := by
        rw [hdb', hlast.work]
        exact List.mem_append_left _ hr
      have hsame : r ∈ [r'] := hrows ▸ mem_rowsOf.mpr ⟨hmem, rfl⟩
      obtain rfl := List.mem_singleton.mp hsame
      refine hgood.congr ?_
      rw [hstore']
      exact (hlast.old_blob (List.append_nil uploads ▸ hdrawn) hr).symm
    | statementFails e =>
      rw [hc] at hrest hclean
      obtain rfl := hclean _ rfl rfl
      exact ⟨rfl, hrest⟩
    | putFails e =>
      rw [hc] at hnext hreports
      have hrow : x.row env ∈ w'.db.files := by
        rw [hdb']
        exact h.persists hdrawn hsplit' hnext (List.mem_append_right _ List.mem_cons_self)
      refine h.failed pre x xs _ hsplit hreports _ hrow rfl (.inl ?_)
      rw [FileRepository.hasSha256, Bool.and_eq_true, decide_eq_true_eq]
      exact ⟨rfl, rfl⟩
    | updateFails e =>
      rw [hc] at hrest hclean
      obtain rfl := hclean _ rfl rfl
      exact ⟨rfl, hrest⟩
    | stored =>
      rw [hc] at hrest
      exact hrest

end Truth

/-! ## 4. The batch -/

/-- **A batch that committed reports the truth exactly when it is sound.** -/
theorem uploadMultipleFiles_truthful_iff (env : Env) (F : Faults UploadError) (t : Int)
    {uploads : List Upload} {w w' : World Db BlobStore} {result : BatchUploadFilesResult}
    (hkeyed : w.db.Keyed) (hdrawn : Drawn env w.db.files uploads)
    (hrun : (FileService.uploadMultipleFiles env uploads).serve F w t = (.ok result, w')) :
    Truthful env t uploads w w' result ↔ Sound env w [] uploads :=
  ⟨fun h => h.sound hdrawn hrun rfl (.start w), fun h => h.truthful hkeyed hdrawn hrun⟩

def Env.plain : Env where
  maxUploadSize := 10
  blobPrefix := "files"
  storageName := "azure_blob"
  bucket := "portal"
  region := "eastasia"
  guessType _ := none
  imageSize _ := none
  md5 content := toString content
  sha256 content := toString content
  lower s := s

/-- A file of one byte. -/
def oneByte (byte : UInt8) (fileId : UUID) (faults : Faults UploadError := fun _ => none) : Upload where
  command := { filename := "notes", content := [byte], contentType := some "text/plain" }
  fileId
  faults

def noFiles : World Db BlobStore := ⟨{}, fun _ => none⟩

theorem noFiles_keyed : noFiles.db.Keyed := List.nodup_nil

/-- Four files: no statement of the first gets through, and the third is too large. -/
def fourFiles : List Upload :=
  [oneByte 6 1 fun _ => some (.other "connection lost"), oneByte 7 2,
    { command := { filename := "scan", content := List.replicate 11 0 }, fileId := 3 },
    oneByte 8 4]

/-- The report on them: two are uploaded. -/
def fourFiles.reported : BatchUploadFilesResult :=
  ⟨[2, 4], [⟨"notes", "File upload failed"⟩, ⟨"scan", "File exceeds maximum upload size"⟩]⟩

/-- Two files fail before anything is written, and the report is the truth. -/
theorem uploadMultipleFiles_truthful_iff_four : ∃ w',
    (FileService.uploadMultipleFiles .plain fourFiles).serve (fun _ => none) noFiles 0 =
      (.ok fourFiles.reported, w') ∧
        Truthful .plain 0 fourFiles noFiles w' fourFiles.reported := by
  have hdrawn : Drawn .plain noFiles.db.files fourFiles :=
    ⟨by decide, by decide +kernel, fun x _ => ⟨fun r hr => absurd hr List.not_mem_nil,
      fun r hr => absurd hr List.not_mem_nil⟩⟩
  have hreport : ((FileService.uploadMultipleFiles .plain fourFiles).serve (fun _ => none) noFiles
      0).1.toOption = some fourFiles.reported := by decide +kernel
  cases hrun : (FileService.uploadMultipleFiles .plain fourFiles).serve (fun _ => none) noFiles 0 with
  | mk answer w' =>
    rw [hrun] at hreport
    cases answer with
    | error e => cases hreport
    | ok result =>
      obtain rfl : result = fourFiles.reported := Option.some.inj hreport
      refine ⟨w', rfl, (uploadMultipleFiles_truthful_iff .plain (fun _ => none) 0 noFiles_keyed
        hdrawn hrun).mpr ?_⟩
      exact ⟨rfl, trivial⟩

/-- Two files; the INSERT of the second, its third step, fails. -/
def secondFails : List Upload :=
  [oneByte 7 1, oneByte 8 2 fun n => if n = 2 then some (.other "connection lost") else none]

/-- **The first of two files is reported as uploaded and is gone**: the second takes its row along. -/
theorem uploadMultipleFiles_not_truthful : ∃ result w',
    (FileService.uploadMultipleFiles .plain secondFails).serve (fun _ => none) noFiles 0 =
      (.ok result, w') ∧ ¬ Truthful .plain 0 secondFails noFiles w' result := by
  refine ⟨⟨[1], [⟨"notes", "File upload failed"⟩]⟩, _, rfl, fun h => ?_⟩
  obtain ⟨r, hr, -⟩ := h.uploaded 1 List.mem_cons_self
  cases hr

end NewlifeCore.Content
