import NewlifeCore.Content.FileRequests

/-!
# When rows, blobs and answers agree

An upload writes its blob under a key of its own before its row is committed; a deletion deletes the
blobs before its rows are.  The invariant of a run follows each blob from the one to the other: what
becomes of a row is settled by whether a deletion has deleted its blob, and by whether that deletion
has been told so and has committed.

* §1 and §2 are the invariant, `FileWorld.Sound`.  Beside rows and blobs it has what each request
  under way is to find: an upload that its key is still unborn and its writes are pending, a
  deletion that the keys it goes through are keys of rows, and that what it has been told is true.
* §3: the round trips of others leave that to a request, since keys are drawn apart
  (`FileWorld.Sound.key_ne`) and no deletion comes to the key of an upload that is still going on.
* §4 to §6 go through the round trips, those that write first: `putObject`, `commitUpload`,
  `deleteBlob`, `commitDelete`.  The others are quiet.  `FileWorld.Sound.run` is the induction.
* §8 reads the first two parts off a sound state: all blobs are stored exactly if every deletion is
  through with its keys (`blobsStored_iff`), and an answer is right exactly if its row's blob is
  there with the bytes of the upload (`answered_iff`).
* §9 runs a deletion by itself: repeated, it marks the rows whose blobs are still there, and no
  other (`retry_rows`), so that what a failed one has left stays (`retry_iff`).
-/

namespace NewlifeCore.Content

variable (env : Env)

/-! ## 1. What holds of a request -/

namespace FileRequest

/-- The blobs it has deleted. -/
def deletedBlobs : FileRequest → List String
  | delete d => d.deletedBlobs
  | _ => []

/-- The rows it has committed as DELETED, by key. -/
def marked : FileRequest → List String
  | delete d => if d.phase = .committed then d.successKeys else []
  | _ => []

/-- What it has drawn. -/
def drawn : FileRequest → Option (UUID × String)
  | upload u => some (u.fileId, u.key env)
  | _ => none

end FileRequest

namespace UploadPhase

/-- Its row is still to be committed. -/
def Active : UploadPhase → Prop
  | duplicate _ => False
  | ended => False
  | _ => True

/-- Its blob is stored. -/
def Stores : UploadPhase → Prop
  | updateStatus => True
  | commit => True
  | _ => False

end UploadPhase

def UploadRequest.row (u : UploadRequest) : ContentFile :=
  FileService.fileData env u.fileId u.command

/-- What its session has written before a round trip. -/
def UploadRequest.writes (u : UploadRequest) : UploadPhase → List FileWrite
  | .putObject => [.insert (u.row env)]
  | .updateStatus => [.insert (u.row env)]
  | .commit => [.insert (u.row env), .updateStatus u.fileId .uploaded]
  | _ => []

/-- A row of the table, whatever its status. -/
def Known (rows : List ContentFile) (r : ContentFile) : Prop :=
  ∃ r' ∈ rows, r'.id = r.id ∧ r'.key = r.key ∧ r'.checksumSha256 = r.checksumSha256

structure UploadRequest.Ok (rows : List ContentFile) (store : BlobStore)
    (drawn : List (UUID × String)) (u : UploadRequest) : Prop where
  drawn : (u.fileId, u.key env) ∈ drawn
  unborn : u.phase.Active → ∀ r ∈ rows, r.key ≠ u.key env
  pending : u.phase.Active → u.pending = u.writes env u.phase
  stored : u.phase.Stores → store (u.key env) = some u.command.content
  existing : ∀ r, u.phase = .duplicate r → Known rows r

structure DeleteRequest.Ok (rows : List ContentFile) (d : DeleteRequest) : Prop where
  told : ∀ k ∈ d.successKeys, k ∈ d.deletedBlobs
  objects : ∀ keys, d.phase = .deleteObjects keys →
    d.pending = [] ∧ ∀ k ∈ keys, ∃ r ∈ rows, r.key = k
  listing : d.phase = .listByIds → d.pending = [] ∧ d.successKeys = []
  pending : d.phase = .deleteAssociationsByFileIds ∨ d.phase = .invalidateCaches ∨
    d.phase = .commit → d.pending = [.markDeletedByKeys d.successKeys] ∨
      d.pending = [] ∧ d.successKeys = []

def FileRequest.Ok (rows : List ContentFile) (store : BlobStore) (drawn : List (UUID × String)) :
    FileRequest → Prop
  | idle => True
  | upload u => u.Ok env rows store drawn
  | delete d => d.Ok rows

/-! ## 2. The invariant -/

/-- **What holds of every state of a run.** -/
structure FileWorld.Sound (w : FileWorld) : Prop where
  rowsDrawn : ∀ r ∈ w.rows, (r.id, r.key) ∈ w.drawn
  drawnOnce : ∀ p ∈ w.drawn, ∀ q ∈ w.drawn, p.1 = q.1 ∨ p.2 = q.2 → p = q
  oneRow : ∀ r ∈ w.rows, ∀ r' ∈ w.rows, r.key = r'.key → r = r'
  status : ∀ r ∈ w.rows, r.status = .uploaded ∨ r.status = .deleted
  present : ∀ r ∈ w.rows, (∀ n, r.key ∉ (w.requests n).deletedBlobs) → w.Stored env r
  absent : ∀ n, ∀ k ∈ (w.requests n).deletedBlobs, w.store k = none ∧ ∃ r ∈ w.rows, r.key = k
  once : ∀ n m k, k ∈ (w.requests n).deletedBlobs → k ∈ (w.requests m).deletedBlobs → n = m
  marked : ∀ r ∈ w.rows, r.status = .deleted ↔ ∃ n, r.key ∈ (w.requests n).marked
  apart : ∀ n m p, (w.requests n).drawn env = some p → (w.requests m).drawn env = some p → n = m
  requests : ∀ n, (w.requests n).Ok env w.rows w.store w.drawn

variable {env} {w : FileWorld} {n : Nat} {x : FileRequest} {u : UploadRequest}
  {d : DeleteRequest}

@[simp] theorem FileWorld.setRequest_self : (w.setRequest n x).requests n = x := by
  simp [FileWorld.setRequest]

theorem FileWorld.setRequest_of_ne {m : Nat} (h : m ≠ n) :
    (w.setRequest n x).requests m = w.requests m := by
  simp [FileWorld.setRequest, h]

/-- What holds of the new request and of the others holds of all. -/
theorem FileWorld.forall_setRequest {P : Nat → FileRequest → Prop} (hself : P n x)
    (hothers : ∀ m, m ≠ n → P m (w.requests m)) (m : Nat) :
    P m ((w.setRequest n x).requests m) := by
  by_cases h : m = n
  · subst h
    rw [FileWorld.setRequest_self]
    exact hself
  · rw [FileWorld.setRequest_of_ne h]
    exact hothers m h

theorem FileWorld.Sound.start : ({} : FileWorld).Sound env where
  rowsDrawn _ h := absurd h List.not_mem_nil
  drawnOnce _ h := absurd h List.not_mem_nil
  oneRow _ h := absurd h List.not_mem_nil
  status _ h := absurd h List.not_mem_nil
  present _ h := absurd h List.not_mem_nil
  absent _ _ h := absurd h List.not_mem_nil
  once _ _ _ h := absurd h List.not_mem_nil
  marked _ h := absurd h List.not_mem_nil
  apart _ _ _ h := nomatch h
  requests _ := trivial

/-- The same function of every request, where the new one agrees with the old. -/
theorem FileWorld.requests_congr {α : Type} {f : FileRequest → α} (h : f x = f (w.requests n))
    (m : Nat) : f ((w.setRequest n x).requests m) = f (w.requests m) :=
  FileWorld.forall_setRequest (P := fun m r => f r = f (w.requests m)) h (fun _ _ => rfl) m

theorem FileWorld.Sound.once_set (hw : w.Sound env)
    (h : x.deletedBlobs = (w.requests n).deletedBlobs) (m m' : Nat) (k : String)
    (hk : k ∈ ((w.setRequest n x).requests m).deletedBlobs)
    (hk' : k ∈ ((w.setRequest n x).requests m').deletedBlobs) : m = m' := by
  rw [FileWorld.requests_congr h] at hk hk'
  exact hw.once m m' k hk hk'

theorem FileWorld.Sound.marked_set (hw : w.Sound env) (h : x.marked = (w.requests n).marked)
    {r : ContentFile} (hr : r ∈ w.rows) :
    r.status = .deleted ↔ ∃ m, r.key ∈ ((w.setRequest n x).requests m).marked := by
  simp only [FileWorld.requests_congr h]
  exact hw.marked r hr

theorem FileWorld.Sound.apart_set (hw : w.Sound env)
    (h : x.drawn env = (w.requests n).drawn env) (m m' : Nat) (p : UUID × String)
    (hp : ((w.setRequest n x).requests m).drawn env = some p)
    (hp' : ((w.setRequest n x).requests m').drawn env = some p) : m = m' := by
  rw [FileWorld.requests_congr (f := FileRequest.drawn env) h] at hp hp'
  exact hw.apart m m' p hp hp'

/-- **A round trip that touches neither the table nor the container.** -/
theorem FileWorld.Sound.quiet (hw : w.Sound env)
    (hblobs : x.deletedBlobs = (w.requests n).deletedBlobs)
    (hmarked : x.marked = (w.requests n).marked)
    (hdrawn : x.drawn env = (w.requests n).drawn env)
    (hreq : x.Ok env w.rows w.store w.drawn) : (w.setRequest n x).Sound env := by
  have hsame := FileWorld.requests_congr (w := w) hblobs
  refine ⟨hw.rowsDrawn, hw.drawnOnce, hw.oneRow, hw.status, fun r hr h => ?_, fun m => ?_,
    hw.once_set hblobs, fun r hr => hw.marked_set hmarked hr, hw.apart_set hdrawn, ?_⟩
  · exact hw.present r hr fun m => hsame m ▸ h m
  · rw [hsame]
    exact hw.absent m
  · exact FileWorld.forall_setRequest hreq fun m _ => hw.requests m

/-! ## 3. What others' round trips leave to a request -/

theorem Known.mono {rows rows' : List ContentFile} {r : ContentFile} (h : Known rows r)
    (hrows : ∀ r ∈ rows, Known rows' r) : Known rows' r := by
  obtain ⟨x, hx, hid, hkey, hsha⟩ := h
  obtain ⟨y, hy, hid', hkey', hsha'⟩ := hrows x hx
  exact ⟨y, hy, hid'.trans hid, hkey'.trans hkey, hsha'.trans hsha⟩

theorem UploadRequest.Ok.mono {rows rows' : List ContentFile} {store store' : BlobStore}
    {drawn drawn' : List (UUID × String)} (h : u.Ok env rows store drawn)
    (hdrawn : ∀ p ∈ drawn, p ∈ drawn')
    (hrows : u.phase.Active → ∀ r ∈ rows', r.key ≠ u.key env)
    (hstore : u.phase.Stores → store' (u.key env) = store (u.key env))
    (hknown : ∀ r ∈ rows, Known rows' r) : u.Ok env rows' store' drawn' where
  drawn := hdrawn _ h.drawn
  unborn := hrows
  pending := h.pending
  stored hphase := (hstore hphase).trans (h.stored hphase)
  existing r hphase := (h.existing r hphase).mono hknown

theorem DeleteRequest.Ok.mono {rows rows' : List ContentFile} (h : d.Ok rows)
    (hknown : ∀ r ∈ rows, Known rows' r) : d.Ok rows' where
  told := h.told
  objects keys hphase := by
    obtain ⟨hpending, hkeys⟩ := h.objects keys hphase
    refine ⟨hpending, fun k hk => ?_⟩
    obtain ⟨r, hr, hkey⟩ := hkeys k hk
    obtain ⟨r', hr', -, hkey', -⟩ := hknown r hr
    exact ⟨r', hr', hkey'.trans hkey⟩
  listing := h.listing
  pending := h.pending

theorem Known.self {rows : List ContentFile} {r : ContentFile} (h : r ∈ rows) : Known rows r :=
  ⟨r, h, rfl, rfl, rfl⟩

/-- A row that is committed as DELETED has lost its blob. -/
theorem FileRequest.Ok.marked_sub {rows : List ContentFile} {store : BlobStore}
    {drawn : List (UUID × String)} (h : x.Ok env rows store drawn) {k : String}
    (hk : k ∈ x.marked) : k ∈ x.deletedBlobs := by
  cases x with
  | delete d =>
    unfold FileRequest.marked at hk
    simp only at hk
    split at hk
    · exact h.told k hk
    · exact absurd hk List.not_mem_nil
  | idle => exact absurd hk List.not_mem_nil
  | upload u => exact absurd hk List.not_mem_nil

/-- Uploads have keys of their own. -/
theorem FileWorld.Sound.key_ne (hw : w.Sound env) {m : Nat} {u' : UploadRequest}
    (hn : w.requests n = .upload u) (hm : w.requests m = .upload u') (hne : m ≠ n) :
    u'.key env ≠ u.key env := by
  intro hkey
  have hu := hw.requests n
  have hu' := hw.requests m
  rw [hn] at hu
  rw [hm] at hu'
  have hsame := hw.drawnOnce _ hu'.drawn _ hu.drawn (.inr hkey)
  refine hne (hw.apart m n (u.fileId, u.key env) ?_ ?_)
  · rw [hm]
    exact congrArg some hsame
  · rw [hn]
    rfl

/-- No deletion has come to the key of an upload that is still going on. -/
theorem FileWorld.Sound.not_deletedBlobs (hw : w.Sound env) (hn : w.requests n = .upload u)
    (hactive : u.phase.Active) (m : Nat) : u.key env ∉ (w.requests m).deletedBlobs := by
  intro hk
  have hu := hw.requests n
  rw [hn] at hu
  obtain ⟨-, r, hr, hkey⟩ := hw.absent m _ hk
  exact hu.unborn hactive r hr hkey

/-! ## 4. The round trips of an upload -/

theorem UploadRequest.start_ok {rows : List ContentFile} {store : BlobStore}
    {drawn : List (UUID × String)} {command : UploadFileCommand} {fileId : UUID}
    (hdrawn : (fileId, (UploadRequest.start env command fileId).key env) ∈ drawn)
    (hrows : ∀ r ∈ rows, r.key ≠ (UploadRequest.start env command fileId).key env) :
    (UploadRequest.start env command fileId).Ok env rows store drawn := by
  refine ⟨hdrawn, fun _ => hrows, fun _ => ?_, fun h => ?_, fun r h => ?_⟩ <;>
    unfold UploadRequest.start at *
  · split
    · rfl
    · split <;> rfl
  · simp only at h
    split at h
    · exact h.elim
    · split at h <;> exact h.elim
  · simp only at h
    split at h
    · cases h
    · split at h <;> cases h

theorem FileWorld.Sound.beginUpload (hw : w.Sound env) (hn : w.requests n = .idle)
    (command : UploadFileCommand) (fileId : UUID)
    (hfresh : w.Fresh fileId ((UploadRequest.start env command fileId).key env)) :
    FileWorld.Sound env
      { w.setRequest n (.upload (.start env command fileId)) with
        drawn := (fileId, (UploadRequest.start env command fileId).key env) :: w.drawn } := by
  have hquiet : (FileRequest.upload (.start env command fileId)).deletedBlobs =
      (w.requests n).deletedBlobs := by rw [hn]; rfl
  have hblobs := FileWorld.requests_congr (w := w) hquiet
  have hnew : ∀ r ∈ w.rows, r.key ≠ (UploadRequest.start env command fileId).key env :=
    fun r hr => (hfresh _ (hw.rowsDrawn r hr)).2
  have hother : ∀ m p, (w.requests m).drawn env = some p → p ∈ w.drawn := by
    intro m p hp
    have hm := hw.requests m
    cases hreq : w.requests m with
    | upload u =>
      rw [hreq] at hp hm
      cases hp
      exact hm.drawn
    | idle =>
      rw [hreq] at hp
      cases hp
    | delete d =>
      rw [hreq] at hp
      cases hp
  refine ⟨fun r hr => List.mem_cons_of_mem _ (hw.rowsDrawn r hr), ?_, hw.oneRow, hw.status,
    fun r hr h => ?_, fun m => ?_, hw.once_set hquiet,
    fun r hr => hw.marked_set (by rw [hn]; rfl) hr, ?_, ?_⟩
  · intro p hp q hq hsame
    rcases List.mem_cons.mp hp with rfl | hp <;> rcases List.mem_cons.mp hq with rfl | hq
    · rfl
    · exact absurd hsame (not_or.mpr ⟨Ne.symm (hfresh q hq).1, Ne.symm (hfresh q hq).2⟩)
    · exact absurd hsame (not_or.mpr ⟨(hfresh p hp).1, (hfresh p hp).2⟩)
    · exact hw.drawnOnce p hp q hq hsame
  · exact hw.present r hr fun m => hblobs m ▸ h m
  · change ∀ k ∈ ((w.setRequest n _).requests m).deletedBlobs, _
    rw [hblobs]
    exact hw.absent m
  · intro m m' p hm hm'
    change ((w.setRequest n _).requests m).drawn env = _ at hm
    change ((w.setRequest n _).requests m').drawn env = _ at hm'
    by_cases h : m = n <;> by_cases h' : m' = n
    · rw [h, h']
    · rw [h, FileWorld.setRequest_self] at hm
      rw [FileWorld.setRequest_of_ne h'] at hm'
      cases hm
      exact absurd rfl (hfresh _ (hother m' _ hm')).1
    · rw [h', FileWorld.setRequest_self] at hm'
      rw [FileWorld.setRequest_of_ne h] at hm
      cases hm'
      exact absurd rfl (hfresh _ (hother m _ hm)).1
    · rw [FileWorld.setRequest_of_ne h] at hm
      rw [FileWorld.setRequest_of_ne h'] at hm'
      exact hw.apart m m' p hm hm'
  · refine FileWorld.forall_setRequest (P := fun _ x => x.Ok env w.rows w.store _) ?_ fun m _ => ?_
    · exact UploadRequest.start_ok (List.mem_cons_self) hnew
    · have hm := hw.requests m
      cases hreq : w.requests m with
      | idle => trivial
      | upload u =>
        rw [hreq] at hm
        exact hm.mono (fun p hp => List.mem_cons_of_mem _ hp) hm.unborn (fun _ => rfl)
          fun r hr => .self hr
      | delete d =>
        rw [hreq] at hm
        exact hm

/-- **The blob of an upload is stored**, whether or not its caller is told so. -/
theorem FileWorld.Sound.putObject (hw : w.Sound env) (hn : w.requests n = .upload u)
    (hactive : u.phase.Active) {u' : UploadRequest} (hid : u'.fileId = u.fileId)
    (hcommand : u'.command = u.command)
    (hok : u'.Ok env w.rows (w.store.put (u.key env) u.command.content) w.drawn) :
    FileWorld.Sound env
      ({ w with store := w.store.put (u.key env) u.command.content }.setRequest n (.upload u')) := by
  have hkey : u'.key env = u.key env := by
    unfold UploadRequest.key
    rw [hid, hcommand]
  have hu := hw.requests n
  rw [hn] at hu
  have hquiet : (FileRequest.upload u').deletedBlobs = (w.requests n).deletedBlobs := by
    rw [hn]
    rfl
  have hblobs := FileWorld.requests_congr (w := w) hquiet
  have hdrawn : (FileRequest.upload u').drawn env = (w.requests n).drawn env := by
    rw [hn]
    simp only [FileRequest.drawn, hid, hkey]
  have hput : ∀ k, k ≠ u.key env → w.store.put (u.key env) u.command.content k = w.store k :=
    fun k hk => if_neg hk
  refine ⟨hw.rowsDrawn, hw.drawnOnce, hw.oneRow, hw.status, fun r hr h => ?_, fun m k hk => ?_,
    hw.once_set hquiet, fun r hr => hw.marked_set (by rw [hn]; rfl) hr, hw.apart_set hdrawn, ?_⟩
  · obtain ⟨body, hbody, hsha⟩ := hw.present r hr fun m => hblobs m ▸ h m
    exact ⟨body, (hput _ (hu.unborn hactive r hr)).trans hbody, hsha⟩
  · obtain ⟨hnone, r, hr, rfl⟩ := hw.absent m k (hblobs m ▸ hk)
    exact ⟨(hput _ (hu.unborn hactive r hr)).trans hnone, r, hr, rfl⟩
  · refine FileWorld.forall_setRequest (w := w) (P := fun _ x => x.Ok env w.rows _ w.drawn) hok
      fun m hm => ?_
    have hother := hw.requests m
    cases hreq : w.requests m with
    | idle => trivial
    | upload v =>
      rw [hreq] at hother
      exact hother.mono (fun _ hp => hp) hother.unborn
        (fun _ => hput _ (hw.key_ne hn hreq hm)) fun r hr => .self hr
    | delete d =>
      rw [hreq] at hother
      exact hother

/-- What the commit of an upload publishes. -/
theorem FileWorld.Sound.commitWrites_upload (hw : w.Sound env) (hn : w.requests n = .upload u)
    (hphase : u.phase = .commit) :
    commitWrites u.pending w.rows = w.rows ++ [(u.row env).setStatus .uploaded] := by
  have hu := hw.requests n
  rw [hn] at hu
  have hactive : u.phase.Active := by
    rw [hphase]
    trivial
  have hothers : w.rows.map (fun r => if r.id = u.fileId then r.setStatus .uploaded else r) =
      w.rows := by
    refine (List.map_congr_left fun r hr => if_neg fun he => ?_).trans (List.map_id w.rows)
    have hsame := hw.drawnOnce _ (hw.rowsDrawn r hr) _ hu.drawn (.inl he)
    exact hu.unborn hactive r hr (congrArg Prod.snd hsame)
  rw [hu.pending hactive, hphase]
  simp only [UploadRequest.writes, commitWrites, List.foldl_cons, List.foldl_nil, FileWrite.apply,
    List.map_append, hothers]
  exact congrArg (w.rows ++ ·) (congrArg (fun r => [r]) (if_pos rfl))

/-- **The row of an upload is committed**, and its blob is there. -/
theorem FileWorld.Sound.commitUpload (hw : w.Sound env) (hn : w.requests n = .upload u)
    (hphase : u.phase = .commit) {u' : UploadRequest} (hid : u'.fileId = u.fileId)
    (hcommand : u'.command = u.command) (hended : u'.phase = .ended) :
    FileWorld.Sound env
      ({ w with rows := commitWrites u.pending w.rows }.setRequest n (.upload u')) := by
  rw [hw.commitWrites_upload hn hphase]
  have hkey : u'.key env = u.key env := by
    unfold UploadRequest.key
    rw [hid, hcommand]
  have hactive : u.phase.Active := by
    rw [hphase]
    trivial
  have hstores : u.phase.Stores := by
    rw [hphase]
    trivial
  have hu := hw.requests n
  rw [hn] at hu
  have hquiet : (FileRequest.upload u').deletedBlobs = (w.requests n).deletedBlobs := by
    rw [hn]
    rfl
  have hblobs := FileWorld.requests_congr (w := w) hquiet
  have hdrawn : (FileRequest.upload u').drawn env = (w.requests n).drawn env := by
    rw [hn]
    simp only [FileRequest.drawn, hid, hkey]
  have hmem : ∀ r ∈ w.rows ++ [(u.row env).setStatus .uploaded],
      r ∈ w.rows ∨ r = (u.row env).setStatus .uploaded := fun r hr =>
    (List.mem_append.mp hr).imp_right List.mem_singleton.mp
  refine ⟨fun r hr => ?_, hw.drawnOnce, fun r hr r' hr' h => ?_, fun r hr => ?_,
    fun r hr h => ?_, fun m k hk => ?_, hw.once_set hquiet, fun r hr => ?_, hw.apart_set hdrawn, ?_⟩
  · rcases hmem r hr with hr | rfl
    · exact hw.rowsDrawn r hr
    · exact hu.drawn
  · rcases hmem r hr with hr | rfl <;> rcases hmem r' hr' with hr' | rfl
    · exact hw.oneRow r hr r' hr' h
    · exact absurd h (hu.unborn hactive r hr)
    · exact absurd h.symm (hu.unborn hactive r' hr')
    · rfl
  · rcases hmem r hr with hr | rfl
    · exact hw.status r hr
    · exact .inl rfl
  · rcases hmem r hr with hr | rfl
    · exact hw.present r hr fun m => hblobs m ▸ h m
    · exact ⟨u.command.content, hu.stored hstores, rfl⟩
  · obtain ⟨hnone, r, hr, hrk⟩ := hw.absent m k (hblobs m ▸ hk)
    exact ⟨hnone, r, List.mem_append_left _ hr, hrk⟩
  · have hmarked : (FileRequest.upload u').marked = (w.requests n).marked := by
      rw [hn]
      rfl
    rcases hmem r hr with hr | rfl
    · exact hw.marked_set hmarked hr
    · refine iff_of_false (fun h => by cases h) ?_
      rintro ⟨m, hm⟩
      exact hw.not_deletedBlobs hn hactive m ((hw.requests m).marked_sub
        (FileWorld.requests_congr (w := w) hmarked m ▸ hm))
  · have hknown : ∀ r ∈ w.rows, Known (w.rows ++ [(u.row env).setStatus .uploaded]) r :=
      fun r hr => .self (List.mem_append_left _ hr)
    refine FileWorld.forall_setRequest (w := w) (P := fun _ x => x.Ok env _ w.store w.drawn) ?_
      fun m hm => ?_
    · refine ⟨?_, fun h => ?_, fun h => ?_, fun h => ?_, fun r h => ?_⟩
      · rw [hid, hkey]
        exact hu.drawn
      · exact absurd h (by rw [hended]; exact id)
      · exact absurd h (by rw [hended]; exact id)
      · exact absurd h (by rw [hended]; exact id)
      · rw [hended] at h
        cases h
    · have hother := hw.requests m
      cases hreq : w.requests m with
      | idle => trivial
      | upload v =>
        rw [hreq] at hother
        refine hother.mono (fun _ hp => hp) (fun hv r hr => ?_) (fun _ => rfl) hknown
        rcases hmem r hr with hr | rfl
        · exact hother.unborn hv r hr
        · exact (hw.key_ne hn hreq hm).symm
      | delete d =>
        rw [hreq] at hother
        exact hother.mono hknown

/-! ## 5. The round trips of a deletion -/

/-- **The blob of a row is deleted**, whether or not its caller is told so. -/
theorem FileWorld.Sound.deleteBlob (hw : w.Sound env) (hn : w.requests n = .delete d)
    {key : String} (hrow : ∃ r ∈ w.rows, r.key = key) (hstored : w.store key ≠ none)
    (hphase : d.phase ≠ .committed) {d' : DeleteRequest} (hphase' : d'.phase ≠ .committed)
    (hblobs' : d'.deletedBlobs = d.deletedBlobs ++ [key]) (hok : d'.Ok w.rows) :
    FileWorld.Sound env
      ({ w with store := w.store.delete key }.setRequest n (.delete d')) := by
  have hmarked : (FileRequest.delete d').marked = (w.requests n).marked := by
    rw [hn]
    simp only [FileRequest.marked, if_neg hphase, if_neg hphase']
  have hdelete : ∀ k, k ≠ key → w.store.delete key k = w.store k := fun k hk => if_neg hk
  have hblobs : ∀ m k, k ∈ ((w.setRequest n (.delete d')).requests m).deletedBlobs ↔
      k ∈ (w.requests m).deletedBlobs ∨ m = n ∧ k = key := by
    intro m k
    by_cases h : m = n
    · subst h
      rw [FileWorld.setRequest_self, hn]
      simp only [FileRequest.deletedBlobs, hblobs', List.mem_append, List.mem_singleton, true_and]
    · rw [FileWorld.setRequest_of_ne h]
      exact (or_iff_left fun h' => h h'.1).symm
  have hnew : ∀ m, key ∉ (w.requests m).deletedBlobs := fun m hm =>
    hstored (hw.absent m key hm).1
  refine ⟨hw.rowsDrawn, hw.drawnOnce, hw.oneRow, hw.status, fun r hr h => ?_, fun m k hk => ?_,
    fun m m' k hk hk' => ?_, fun r hr => hw.marked_set hmarked hr,
    hw.apart_set (by rw [hn]; rfl), ?_⟩
  · have hne : r.key ≠ key := fun he => h n ((hblobs n _).mpr (.inr ⟨rfl, he⟩))
    obtain ⟨body, hbody, hsha⟩ := hw.present r hr fun m hm => h m ((hblobs m _).mpr (.inl hm))
    exact ⟨body, (hdelete _ hne).trans hbody, hsha⟩
  · rcases (hblobs m k).mp hk with hk | ⟨-, rfl⟩
    · obtain ⟨hnone, hr⟩ := hw.absent m k hk
      refine ⟨?_, hr⟩
      by_cases he : k = key
      · exact if_pos he
      · exact (hdelete k he).trans hnone
    · exact ⟨if_pos rfl, hrow⟩
  · rcases (hblobs m k).mp hk with hk | ⟨hm, rfl⟩ <;>
      rcases (hblobs m' _).mp hk' with hk' | ⟨hm', he⟩
    · exact hw.once m m' k hk hk'
    · exact absurd (he ▸ hk) (hnew m)
    · exact absurd hk' (hnew m')
    · rw [hm, hm']
  · refine FileWorld.forall_setRequest (w := w) (P := fun _ x => x.Ok env w.rows _ w.drawn) hok
      fun m hm => ?_
    have hother := hw.requests m
    cases hreq : w.requests m with
    | idle => trivial
    | upload v =>
      rw [hreq] at hother
      refine hother.mono (fun _ hp => hp) hother.unborn (fun hv => hdelete _ fun he => ?_)
        fun r hr => .self hr
      have hactive : v.phase.Active := by
        cases hv' : v.phase <;> rw [hv'] at hv <;> first | exact hv.elim | trivial
      obtain ⟨r, hr, hrk⟩ := hrow
      exact hother.unborn hactive r hr (hrk.trans he.symm)
    | delete d =>
      rw [hreq] at hother
      exact hother

/-- A row after the commit of a deletion. -/
def ContentFile.markDeleted (keys : List String) (r : ContentFile) : ContentFile :=
  if r.key ∈ keys then r.setStatus .deleted else r

section MarkDeleted

variable (keys : List String) (r : ContentFile)

@[simp] theorem ContentFile.markDeleted_id : (r.markDeleted keys).id = r.id := by
  unfold ContentFile.markDeleted
  split <;> rfl

@[simp] theorem ContentFile.markDeleted_key : (r.markDeleted keys).key = r.key := by
  unfold ContentFile.markDeleted
  split <;> rfl

@[simp] theorem ContentFile.markDeleted_checksumSha256 :
    (r.markDeleted keys).checksumSha256 = r.checksumSha256 := by
  unfold ContentFile.markDeleted
  split <;> rfl

theorem ContentFile.markDeleted_status :
    (r.markDeleted keys).status = .deleted ↔ r.key ∈ keys ∨ r.status = .deleted := by
  unfold ContentFile.markDeleted
  split
  · rename_i h
    exact iff_of_true rfl (.inl h)
  · rename_i h
    exact (or_iff_right h).symm

end MarkDeleted

/-- What the commit of a deletion publishes. -/
theorem DeleteRequest.Ok.commitWrites {rows : List ContentFile} (h : d.Ok rows)
    (hphase : d.phase = .commit) :
    commitWrites d.pending rows = rows.map (ContentFile.markDeleted d.successKeys) := by
  rcases h.pending (.inr (.inr hphase)) with hp | ⟨hp, hnone⟩
  · rw [hp]
    rfl
  · rw [hp, hnone]
    refine ((List.map_congr_left fun r _ => ?_).trans (List.map_id rows)).symm
    exact if_neg List.not_mem_nil

/-- **The rows of a deletion are committed as DELETED.** -/
theorem FileWorld.Sound.commitDelete (hw : w.Sound env) (hn : w.requests n = .delete d)
    (hphase : d.phase = .commit) :
    FileWorld.Sound env
      ({ w with rows := commitWrites d.pending w.rows }.setRequest n
        (.delete { d with phase := .committed })) := by
  have hd := hw.requests n
  rw [hn] at hd
  rw [hd.commitWrites hphase]
  have hblobs := FileWorld.requests_congr (w := w) (f := FileRequest.deletedBlobs)
    (x := .delete { d with phase := .committed }) (n := n) (by rw [hn]; rfl)
  have hdrawn := FileWorld.requests_congr (w := w) (f := FileRequest.drawn env)
    (x := .delete { d with phase := .committed }) (n := n) (by rw [hn]; rfl)
  have hold : (w.requests n).marked = [] := by
    rw [hn]
    exact if_neg (by rw [hphase]; nofun)
  have hmarked : ∀ k, (∃ m, k ∈ ((w.setRequest n
      (.delete { d with phase := .committed })).requests m).marked) ↔
        k ∈ d.successKeys ∨ ∃ m, k ∈ (w.requests m).marked := by
    intro k
    constructor
    · rintro ⟨m, hm⟩
      by_cases h : m = n
      · rw [h, FileWorld.setRequest_self] at hm
        exact .inl hm
      · rw [FileWorld.setRequest_of_ne h] at hm
        exact .inr ⟨m, hm⟩
    · rintro (hk | ⟨m, hm⟩)
      · refine ⟨n, ?_⟩
        rw [FileWorld.setRequest_self]
        exact hk
      · refine ⟨m, ?_⟩
        have h : m ≠ n := fun h => absurd hm (by rw [h, hold]; exact List.not_mem_nil)
        rw [FileWorld.setRequest_of_ne h]
        exact hm
  have hknown : ∀ r ∈ w.rows, Known (w.rows.map (ContentFile.markDeleted d.successKeys)) r :=
    fun r hr => ⟨_, List.mem_map_of_mem hr, by simp, by simp, by simp⟩
  refine ⟨fun r hr => ?_, hw.drawnOnce, fun r hr r' hr' h => ?_, fun r hr => ?_,
    fun r hr h => ?_, fun m k hk => ?_, fun m m' k => ?_, fun r hr => ?_, fun m m' p => ?_, ?_⟩
  · obtain ⟨x, hx, rfl⟩ := List.mem_map.mp hr
    rw [ContentFile.markDeleted_id, ContentFile.markDeleted_key]
    exact hw.rowsDrawn x hx
  · obtain ⟨x, hx, rfl⟩ := List.mem_map.mp hr
    obtain ⟨y, hy, rfl⟩ := List.mem_map.mp hr'
    rw [ContentFile.markDeleted_key, ContentFile.markDeleted_key] at h
    rw [hw.oneRow x hx y hy h]
  · obtain ⟨x, hx, rfl⟩ := List.mem_map.mp hr
    unfold ContentFile.markDeleted
    split
    · exact .inr rfl
    · exact hw.status x hx
  · obtain ⟨x, hx, rfl⟩ := List.mem_map.mp hr
    rw [ContentFile.markDeleted_key] at h
    obtain ⟨body, hbody, hsha⟩ := hw.present x hx fun m => hblobs m ▸ h m
    refine ⟨body, ?_, ?_⟩
    · rw [ContentFile.markDeleted_key]
      exact hbody
    · rw [ContentFile.markDeleted_checksumSha256]
      exact hsha
  · obtain ⟨hnone, r, hr, hrk⟩ := hw.absent m k (hblobs m ▸ hk)
    exact ⟨hnone, _, List.mem_map_of_mem hr, (r.markDeleted_key _).trans hrk⟩
  · change k ∈ ((w.setRequest n _).requests m).deletedBlobs →
      k ∈ ((w.setRequest n _).requests m').deletedBlobs → _
    rw [hblobs, hblobs]
    exact hw.once m m' k
  · obtain ⟨x, hx, rfl⟩ := List.mem_map.mp hr
    refine Iff.trans ?_ (hmarked _).symm
    rw [ContentFile.markDeleted_key, ContentFile.markDeleted_status]
    exact or_congr_right (hw.marked x hx)
  · change ((w.setRequest n _).requests m).drawn env = _ →
      ((w.setRequest n _).requests m').drawn env = _ → _
    rw [hdrawn, hdrawn]
    exact hw.apart m m' p
  · refine FileWorld.forall_setRequest (w := w) (P := fun _ x => x.Ok env _ w.store w.drawn) ?_
      fun m _ => ?_
    · refine ⟨hd.told, nofun, nofun, ?_⟩
      rintro (h | h | h) <;> cases h
    · have hother := hw.requests m
      cases hreq : w.requests m with
      | idle => trivial
      | upload v =>
        rw [hreq] at hother
        refine hother.mono (fun _ hp => hp) (fun hv r hr => ?_) (fun _ => rfl) hknown
        obtain ⟨x, hx, rfl⟩ := List.mem_map.mp hr
        rw [ContentFile.markDeleted_key]
        exact hother.unborn hv x hx
      | delete v =>
        rw [hreq] at hother
        exact hother.mono hknown

/-! ## 6. Round trips

One lemma for each: what an upload does when its round trip succeeds and when it fails, and what a
deletion does with the rows it lists, with a key, and after the last of them. -/

/-- An upload goes on without touching the table or the container. -/
theorem FileWorld.Sound.quietUpload (hw : w.Sound env) (hn : w.requests n = .upload u)
    (phase : UploadPhase) (pending : List FileWrite)
    (hactive : phase.Active → u.phase.Active)
    (hpending : phase.Active → pending = u.writes env phase)
    (hstored : phase.Stores → w.store (u.key env) = some u.command.content)
    (hexisting : ∀ r, phase = .duplicate r → Known w.rows r) :
    (w.setRequest n (.upload { u with phase, pending })).Sound env := by
  have hu := hw.requests n
  rw [hn] at hu
  refine hw.quiet (by rw [hn]; rfl) (by rw [hn]; rfl) (by rw [hn]; rfl) ?_
  exact ⟨hu.drawn, fun h => hu.unborn (hactive h), hpending, hstored, hexisting⟩

/-- An upload whose row is still to be committed comes to its next round trip. -/
theorem FileWorld.Sound.goesUpload (hw : w.Sound env) (hn : w.requests n = .upload u)
    (hactive : u.phase.Active) (phase : UploadPhase) (hphase : phase.Active)
    (pending : List FileWrite) (hpending : pending = u.writes env phase)
    (hstored : phase.Stores → w.store (u.key env) = some u.command.content) :
    (w.setRequest n (.upload { u with phase, pending })).Sound env := by
  refine hw.quietUpload hn phase pending (fun _ => hactive) (fun _ => hpending) hstored
    fun r h => ?_
  rw [h] at hphase
  exact hphase.elim

/-- A lookup has found a row: the answer stands, whatever becomes of the row. -/
theorem FileWorld.Sound.duplicateUpload (hw : w.Sound env) (hn : w.requests n = .upload u)
    {r : ContentFile} (hr : r ∈ w.rows) :
    (w.setRequest n (.upload { u with phase := .duplicate r })).Sound env := by
  refine hw.quietUpload hn (.duplicate r) u.pending False.elim False.elim False.elim fun r' h => ?_
  cases h
  exact .self hr

/-- An upload ends: what its session has pending is rolled back. -/
theorem FileWorld.Sound.endUpload (hw : w.Sound env) (hn : w.requests n = .upload u) :
    (w.setRequest n (.upload { u with phase := .ended })).Sound env :=
  hw.quietUpload hn .ended u.pending False.elim False.elim False.elim fun r h => by cases h

/-- `INSERT ... ON CONFLICT DO NOTHING`: the key is its own, so that there is no conflict. -/
theorem FileWorld.Sound.free (hw : w.Sound env) (hn : w.requests n = .upload u)
    (hactive : u.phase.Active) :
    (w.rows.any fun r => r.bucket = env.bucket && r.key = u.key env) = false := by
  have hu := hw.requests n
  rw [hn] at hu
  rw [List.any_eq_false]
  intro r hr h
  rw [Bool.and_eq_true, decide_eq_true_eq, decide_eq_true_eq] at h
  exact hu.unborn hactive r hr h.2

/-- The blob is stored, and the upload goes on or is told that it has failed. -/
theorem FileWorld.Sound.storeUpload (hw : w.Sound env) (hn : w.requests n = .upload u)
    (hphase : u.phase = .putObject) (phase : UploadPhase)
    (hnext : phase = .updateStatus ∨ phase = .ended) :
    FileWorld.Sound env
      ({ w with store := w.store.put (u.key env) u.command.content }.setRequest n
        (.upload { u with phase })) := by
  have hu := hw.requests n
  rw [hn] at hu
  have hactive : u.phase.Active := by
    rw [hphase]
    trivial
  refine hw.putObject hn hactive rfl rfl ?_
  rcases hnext with rfl | rfl
  · refine ⟨hu.drawn, fun _ => hu.unborn hactive, fun _ => ?_, fun _ => if_pos rfl,
      fun r h => by cases h⟩
    exact (hu.pending hactive).trans (by rw [hphase]; rfl)
  · exact ⟨hu.drawn, False.elim, False.elim, False.elim, fun r h => by cases h⟩

/-- **A round trip of an upload that succeeds.** -/
theorem FileWorld.Sound.nextUpload (hw : w.Sound env) (hn : w.requests n = .upload u) :
    FileWorld.Sound env
      ((u.next env w).2.setRequest n (.upload (u.next env w).1)) := by
  have hu := hw.requests n
  rw [hn] at hu
  unfold UploadRequest.next
  cases hphase : u.phase with
  | getBySha256 =>
    have hactive : u.phase.Active := by
      rw [hphase]
      trivial
    have hpending : u.pending = [] := (hu.pending hactive).trans (by rw [hphase]; rfl)
    simp only
    cases hfound : FileRepository.getBySha256 ⟨w.rows⟩ (env.sha256 u.command.content) with
    | some r => exact hw.duplicateUpload hn (List.mem_of_find?_eq_some hfound)
    | none => exact hw.goesUpload hn hactive .getByMd5SizeContentType trivial _ hpending False.elim
  | getByMd5SizeContentType =>
    have hactive : u.phase.Active := by
      rw [hphase]
      trivial
    have hpending : u.pending = [] := (hu.pending hactive).trans (by rw [hphase]; rfl)
    simp only
    cases hfound : FileRepository.getByMd5SizeContentType ⟨w.rows⟩ (env.md5 u.command.content)
        u.command.content.length (FileService.contentType env u.command) with
    | some r => exact hw.duplicateUpload hn (List.mem_of_find?_eq_some hfound)
    | none => exact hw.goesUpload hn hactive .insertFile trivial _ hpending False.elim
  | duplicate r => exact hw.endUpload hn
  | insertFile =>
    have hactive : u.phase.Active := by
      rw [hphase]
      trivial
    simp only [hw.free hn hactive, Bool.false_eq_true, if_false]
    split
    · exact hw.endUpload hn
    · exact hw.goesUpload hn hactive .putObject trivial _ rfl False.elim
  | putObject => exact hw.storeUpload hn hphase .updateStatus (.inl rfl)
  | updateStatus =>
    have hactive : u.phase.Active := by
      rw [hphase]
      trivial
    have hpending : u.pending = [.insert (u.row env)] :=
      (hu.pending hactive).trans (by rw [hphase]; rfl)
    refine hw.goesUpload hn hactive .commit trivial _ ?_ fun _ => hu.stored ?_
    · rw [hpending]
      rfl
    · rw [hphase]
      trivial
  | commit => exact hw.commitUpload hn hphase rfl rfl rfl
  | ended =>
    have hsame : u = { u with phase := .ended } := by rw [← hphase]
    rw [hsame]
    exact hw.endUpload hn

/-- **A round trip of an upload that fails**: the blob may be stored all the same. -/
theorem FileWorld.Sound.failUpload (hw : w.Sound env) (hn : w.requests n = .upload u)
    (takesEffect : Bool) :
    FileWorld.Sound env
      ((u.fail env takesEffect w).2.setRequest n (.upload (u.fail env takesEffect w).1)) := by
  unfold UploadRequest.fail
  cases hphase : u.phase with
  | putObject =>
    simp only
    split
    · exact hw.storeUpload hn hphase .ended (.inr rfl)
    · exact hw.endUpload hn
  | _ => exact hw.endUpload hn

/-- A round trip of an upload keeps the invariant. -/
theorem FileWorld.Sound.goUpload (hw : w.Sound env) (hn : w.requests n = .upload u)
    (ending : Ending) : (w.step env (.go n ending)).Sound env := by
  simp only [FileWorld.step, hn]
  split
  · exact hw.nextUpload hn
  · exact hw.failUpload hn ending.takesEffect

/-- Where only what it has been told counts. -/
theorem DeleteRequest.Ok.of_told {rows : List ContentFile}
    (htold : ∀ k ∈ d.successKeys, k ∈ d.deletedBlobs)
    (hphase : d.phase = .failed ∨ d.phase = .markDeletedByKeys ∨ d.phase = .committed) :
    d.Ok rows := by
  refine ⟨htold, fun keys h => ?_, fun h => ?_, fun h => ?_⟩ <;>
    rcases hphase with hphase | hphase | hphase <;>
    simp [hphase] at h

/-- What holds of a deletion after the last key it goes through, or before the next. -/
theorem DeleteRequest.Ok.afterObjects {rows : List ContentFile} (hpending : d.pending = [])
    (htold : ∀ k ∈ d.successKeys, k ∈ d.deletedBlobs) (keys : List String)
    (hkeys : ∀ k ∈ keys, ∃ r ∈ rows, r.key = k)
    (hphase : d.phase = .failed ∨ d.phase = DeletePhase.afterObjects keys d.successKeys) :
    d.Ok rows ∧ d.phase ≠ .committed := by
  rcases hphase with hphase | hphase
  · exact ⟨.of_told htold (.inl hphase), by simp [hphase]⟩
  · unfold DeletePhase.afterObjects at hphase
    split at hphase
    · split at hphase
      · rename_i hnone
        refine ⟨⟨htold, fun keys' h => ?_, fun h => ?_,
          fun _ => .inr ⟨hpending, List.isEmpty_iff.mp hnone⟩⟩, by simp [hphase]⟩ <;>
          simp [hphase] at h
      · exact ⟨.of_told htold (.inr (.inl hphase)), by simp [hphase]⟩
    · refine ⟨⟨htold, fun keys' h => ?_, fun h => ?_, fun h => ?_⟩, by simp [hphase]⟩
      · rw [hphase] at h
        cases h
        exact ⟨hpending, hkeys⟩
      · simp [hphase] at h
      · simp [hphase] at h

theorem DeleteRequest.deleteBlob_ok {rows : List ContentFile} (hpending : d.pending = [])
    (htold : ∀ k ∈ d.successKeys, k ∈ d.deletedBlobs) (key : String) {keys : List String}
    (hkeys : ∀ k ∈ keys, ∃ r ∈ rows, r.key = k) (ending : Ending) (w : FileWorld) :
    (d.deleteBlob key keys ending w).1.Ok rows ∧
      (d.deleteBlob key keys ending w).1.phase ≠ .committed := by
  refine DeleteRequest.Ok.afterObjects hpending ?_ keys hkeys ?_
  · intro k hk
    simp only [DeleteRequest.deleteBlob] at hk ⊢
    cases ending with
    | succeeds =>
      simp only [if_true, List.mem_append, Ending.takesEffect] at hk ⊢
      exact hk.imp_left (htold k)
    | _ =>
      simp only [reduceCtorEq, if_false] at hk
      split
      · exact List.mem_append_left _ (htold k hk)
      · exact htold k hk
  · cases ending with
    | raises _ => exact .inl rfl
    | _ => exact .inr rfl

/-- A deletion goes on without touching the table or the container. -/
theorem FileWorld.Sound.quietDelete (hw : w.Sound env) (hn : w.requests n = .delete d)
    (hopen : d.phase ≠ .committed) {d' : DeleteRequest} (hopen' : d'.phase ≠ .committed)
    (hblobs : d'.deletedBlobs = d.deletedBlobs) (hok : d'.Ok w.rows) :
    (w.setRequest n (.delete d')).Sound env := by
  refine hw.quiet ?_ ?_ (by rw [hn]; rfl) hok
  · rw [hn]
    exact hblobs
  · rw [hn]
    simp only [FileRequest.marked, if_neg hopen, if_neg hopen']

/-- A deletion that has nothing left to do stays as it is. -/
theorem FileWorld.Sound.sameDelete (hw : w.Sound env) (hn : w.requests n = .delete d) :
    (w.setRequest n (.delete d)).Sound env := by
  have hd := hw.requests n
  rw [hn] at hd
  exact hw.quiet (by rw [hn]) (by rw [hn]) (by rw [hn]) hd

/-- A deletion fails: its rows stay as they are, also where their blobs are gone. -/
theorem FileWorld.Sound.failDelete (hw : w.Sound env) (hn : w.requests n = .delete d)
    (hopen : d.phase ≠ .committed) :
    (w.setRequest n (.delete { d with phase := .failed })).Sound env := by
  have hd := hw.requests n
  rw [hn] at hd
  exact hw.quietDelete hn hopen (by simp) rfl (.of_told hd.told (.inl rfl))

/-- A deletion whose rows are marked, or that has none to mark, comes to its next round trip. -/
theorem FileWorld.Sound.goesDelete (hw : w.Sound env) (hn : w.requests n = .delete d)
    (hopen : d.phase ≠ .committed) (phase : DeletePhase)
    (hphase : phase = .invalidateCaches ∨ phase = .commit)
    (hpending : d.pending = [.markDeletedByKeys d.successKeys] ∨
      d.pending = [] ∧ d.successKeys = []) :
    (w.setRequest n (.delete { d with phase })).Sound env := by
  have hd := hw.requests n
  rw [hn] at hd
  refine hw.quietDelete hn hopen ?_ rfl ⟨hd.told, fun keys h => ?_, fun h => ?_, fun _ => hpending⟩
  · rcases hphase with rfl | rfl <;> simp
  · rcases hphase with rfl | rfl <;> simp at h
  · rcases hphase with rfl | rfl <;> simp at h

/-- The rows asked for are read: the keys to go through are keys of the table. -/
theorem FileWorld.Sound.listByIds (hw : w.Sound env) (hn : w.requests n = .delete d)
    (hphase : d.phase = .listByIds) :
    (w.setRequest n (.delete { d with
      phase := .deleteObjects
        ((w.rows.filter fun r => r.id ∈ d.ids).map ContentFile.key) })).Sound env := by
  have hd := hw.requests n
  rw [hn] at hd
  refine hw.quietDelete hn (by simp [hphase]) (by simp) rfl
    ⟨hd.told, fun keys h => ?_, fun h => ?_, fun h => ?_⟩
  · cases h
    refine ⟨(hd.listing hphase).1, fun k hk => ?_⟩
    obtain ⟨r, hr, rfl⟩ := List.mem_map.mp hk
    exact ⟨r, (List.mem_filter.mp hr).1, rfl⟩
  · cases h
  · rcases h with h | h | h <;> cases h

/-- The container has no blob of the next key, and the deletion goes on to the one after it. -/
theorem FileWorld.Sound.skipObject (hw : w.Sound env) (hn : w.requests n = .delete d)
    {key : String} {keys : List String} (hphase : d.phase = .deleteObjects (key :: keys)) :
    (w.setRequest n (.delete { d with
      phase := DeletePhase.afterObjects keys d.successKeys })).Sound env := by
  have hd := hw.requests n
  rw [hn] at hd
  obtain ⟨hpending, hkeys⟩ := hd.objects _ hphase
  obtain ⟨hok, hopen'⟩ := DeleteRequest.Ok.afterObjects
    (d := { d with phase := DeletePhase.afterObjects keys d.successKeys }) hpending hd.told keys
    (fun k hk => hkeys k (List.mem_cons_of_mem _ hk)) (.inr rfl)
  exact hw.quietDelete hn (by simp [hphase]) hopen' rfl hok

/-- The container has one: it is deleted unless the call fails before that, and the deletion is
told so unless it fails at all. -/
theorem FileWorld.Sound.takeObject (hw : w.Sound env) (hn : w.requests n = .delete d)
    {key : String} {keys : List String} (hphase : d.phase = .deleteObjects (key :: keys))
    (hstored : w.store key ≠ none) (ending : Ending) :
    FileWorld.Sound env
      ((d.deleteBlob key keys ending w).2.setRequest n
        (.delete (d.deleteBlob key keys ending w).1)) := by
  have hd := hw.requests n
  rw [hn] at hd
  have hopen : d.phase ≠ .committed := by simp [hphase]
  obtain ⟨hpending, hkeys⟩ := hd.objects _ hphase
  obtain ⟨hok, hopen'⟩ := DeleteRequest.deleteBlob_ok hpending hd.told key
    (fun k hk => hkeys k (List.mem_cons_of_mem _ hk)) ending w
  simp only [DeleteRequest.deleteBlob] at hok hopen' ⊢
  cases heffect : ending.takesEffect with
  | true =>
    rw [heffect] at hok
    exact hw.deleteBlob hn (hkeys key List.mem_cons_self) hstored hopen hopen' rfl hok
  | false =>
    rw [heffect] at hok
    exact hw.quietDelete hn hopen hopen' rfl hok

/-- A round trip of a deletion keeps the invariant. -/
theorem FileWorld.Sound.goDelete (hw : w.Sound env) (hn : w.requests n = .delete d)
    (ending : Ending) : (w.step env (.go n ending)).Sound env := by
  have hd := hw.requests n
  rw [hn] at hd
  simp only [FileWorld.step, hn]
  unfold DeleteRequest.go
  cases hphase : d.phase with
  | listByIds =>
    have hopen : d.phase ≠ .committed := by simp [hphase]
    cases ending with
    | succeeds =>
      simp only
      split
      · exact hw.failDelete hn hopen
      · exact hw.listByIds hn hphase
    | _ => exact hw.failDelete hn hopen
  | deleteObjects keys =>
    cases keys with
    | nil => exact hw.sameDelete hn
    | cons key keys =>
      simp only
      cases hstored : w.store key with
      | none =>
        cases ending with
        | raises _ => exact hw.failDelete hn (by simp [hphase])
        | _ => exact hw.skipObject hn hphase
      | some body => exact hw.takeObject hn hphase (by simp [hstored]) ending
  | markDeletedByKeys =>
    have hopen : d.phase ≠ .committed := by simp [hphase]
    cases ending with
    | succeeds =>
      refine hw.quietDelete hn hopen (by simp) rfl
        ⟨hd.told, fun keys h => ?_, fun h => ?_, fun _ => .inl rfl⟩ <;> cases h
    | _ => exact hw.failDelete hn hopen
  | deleteAssociationsByFileIds =>
    have hopen : d.phase ≠ .committed := by simp [hphase]
    cases ending with
    | succeeds => exact hw.goesDelete hn hopen _ (.inl rfl) (hd.pending (.inl hphase))
    | _ => exact hw.failDelete hn hopen
  | invalidateCaches =>
    have hopen : d.phase ≠ .committed := by simp [hphase]
    cases ending with
    | succeeds => exact hw.goesDelete hn hopen _ (.inr rfl) (hd.pending (.inr (.inl hphase)))
    | _ => exact hw.failDelete hn hopen
  | commit =>
    cases ending with
    | succeeds => exact hw.commitDelete hn hphase
    | _ => exact hw.failDelete hn (by simp [hphase])
  | committed => exact hw.sameDelete hn
  | failed => exact hw.failDelete hn (by simp [hphase])

/-! ## 7. Runs -/

theorem FileWorld.Sound.step (hw : w.Sound env) (turn : FileTurn) :
    (w.step env turn).Sound env := by
  cases turn with
  | upload n command fileId =>
    cases hn : w.requests n with
    | idle =>
      simp only [FileWorld.step, hn]
      split
      · rename_i hfresh
        exact hw.beginUpload hn command fileId hfresh
      · exact hw
    | _ =>
      simp only [FileWorld.step, hn]
      exact hw
  | delete n ids =>
    cases hn : w.requests n with
    | idle =>
      simp only [FileWorld.step, hn]
      refine hw.quiet (by rw [hn]; rfl) (by rw [hn]; rfl) (by rw [hn]; rfl) ?_
      refine ⟨fun _ h => absurd h List.not_mem_nil, nofun, fun _ => ⟨rfl, rfl⟩, ?_⟩
      rintro (h | h | h) <;> cases h
    | _ =>
      simp only [FileWorld.step, hn]
      exact hw
  | go n ending =>
    cases hn : w.requests n with
    | idle =>
      simp only [FileWorld.step, hn]
      exact hw
    | upload u => exact hw.goUpload hn ending
    | delete d => exact hw.goDelete hn ending

/-- **Every state of a run is sound.** -/
theorem FileWorld.Sound.run (hw : w.Sound env) (turns : List FileTurn) :
    (w.run env turns).Sound env := by
  induction turns generalizing w with
  | nil => exact hw
  | cons turn turns ih => exact ih (hw.step turn)

/-! ## 8. Rows and answers -/

/-- **A deletion is through with a key**: if it has deleted the blob, it has been told so and has
committed. -/
def FileRequest.Through (x : FileRequest) (key : String) : Prop :=
  key ∈ x.deletedBlobs → key ∈ x.marked

/-- A row that is committed as DELETED, and no other, has lost its blob to a deletion that is
through. -/
theorem FileWorld.Sound.deleted_of_through (hw : w.Sound env) {r : ContentFile} (hr : r ∈ w.rows)
    (hk : r.key ∈ (w.requests n).deletedBlobs) :
    (w.requests n).Through r.key ↔ r.status = .deleted := by
  refine ⟨fun h => (hw.marked r hr).mpr ⟨n, h hk⟩, fun h _ => ?_⟩
  obtain ⟨m, hm⟩ := (hw.marked r hr).mp h
  rw [hw.once n m r.key hk ((hw.requests m).marked_sub hm)]
  exact hm

/-- A row whose blob no deletion has deleted is UPLOADED. -/
theorem FileWorld.Sound.uploaded (hw : w.Sound env) {r : ContentFile} (hr : r ∈ w.rows)
    (h : ∀ m, r.key ∉ (w.requests m).deletedBlobs) : r.status = .uploaded := by
  refine (hw.status r hr).resolve_right fun hdeleted => ?_
  obtain ⟨m, hm⟩ := (hw.marked r hr).mp hdeleted
  exact h m ((hw.requests m).marked_sub hm)

theorem FileWorld.Sound.blobsStored_iff (hw : w.Sound env) :
    w.BlobsStored env ↔ ∀ n k, (w.requests n).Through k := by
  refine ⟨fun h n k hk => ?_, fun h r hr huploaded => ?_⟩
  · obtain ⟨hnone, r, hr, rfl⟩ := hw.absent n k hk
    refine (hw.deleted_of_through hr hk).mpr ?_ hk
    refine (hw.status r hr).resolve_left fun huploaded => ?_
    obtain ⟨body, hbody, -⟩ := h r hr huploaded
    rw [hnone] at hbody
    cases hbody
  · refine hw.present r hr fun n hn => ?_
    have hdeleted := (hw.deleted_of_through hr hn).mp (h n r.key)
    rw [huploaded] at hdeleted
    cases hdeleted

theorem FileWorld.Sound.answered_iff (hw : w.Sound env) (hsha : Function.Injective env.sha256)
    (hn : w.requests n = .upload u) {r : ContentFile} (hphase : u.phase = .duplicate r) :
    w.Answered r.id u.command.content ↔
      (∀ m, r.key ∉ (w.requests m).deletedBlobs) ∧
        r.checksumSha256 = some (env.sha256 u.command.content) := by
  have hu := hw.requests n
  rw [hn] at hu
  obtain ⟨x, hx, hid, hkey, hsum⟩ := hu.existing r hphase
  constructor
  · rintro ⟨y, hy, hyid, -, hbody⟩
    have hsame := hw.drawnOnce _ (hw.rowsDrawn y hy) _ (hw.rowsDrawn x hx)
      (.inl (hyid.trans hid.symm))
    have hxy : y = x := hw.oneRow y hy x hx (congrArg Prod.snd hsame)
    subst hxy
    have hkept : ∀ m, y.key ∉ (w.requests m).deletedBlobs := by
      intro m hm
      rw [(hw.absent m _ hm).1] at hbody
      cases hbody
    refine ⟨hkey ▸ hkept, ?_⟩
    obtain ⟨body, hbody', hsum'⟩ := hw.present y hy hkept
    rw [hbody] at hbody'
    cases hbody'
    exact hsum.symm.trans hsum'
  · rintro ⟨hkept, hsum'⟩
    rw [← hkey] at hkept
    obtain ⟨body, hbody, hbodysum⟩ := hw.present x hx hkept
    have hcontent : body = u.command.content :=
      hsha (Option.some.inj (hbodysum.symm.trans (hsum.trans hsum')))
    exact ⟨x, hx, hid, hw.uploaded hx hkept, hcontent ▸ hbody⟩

/-! ## 9. A deletion by itself -/

/-- `k` round trips of request `n`, all of which succeed. -/
def FileWorld.goes (env : Env) (w : FileWorld) (n k : Nat) : FileWorld :=
  w.run env (List.replicate k (.go n .succeeds))

theorem FileWorld.goes_succ (k : Nat) :
    w.goes env n (k + 1) = (w.step env (.go n .succeeds)).goes env n k := rfl

theorem FileWorld.goes_add (j k : Nat) : w.goes env n (j + k) = (w.goes env n j).goes env n k := by
  unfold FileWorld.goes FileWorld.run
  rw [List.replicate_add, List.foldl_append]

theorem FileWorld.step_delete (hn : w.requests n = .delete d) :
    w.step env (.go n .succeeds) =
      (d.go .succeeds w).2.setRequest n (.delete (d.go .succeeds w).1) := by
  simp only [FileWorld.step, hn]

/-- A deletion that is over does nothing more. -/
theorem FileWorld.goes_over (hn : w.requests n = .delete d)
    (hphase : d.phase = .committed ∨ d.phase = .failed) (k : Nat) :
    (w.goes env n k).rows = w.rows := by
  induction k generalizing w d with
  | zero => rfl
  | succ k ih =>
    rw [FileWorld.goes_succ, FileWorld.step_delete hn]
    rcases hphase with hphase | hphase <;>
      · simp only [DeleteRequest.go, hphase]
        refine (ih FileWorld.setRequest_self ?_).trans rfl
        simp [hphase]

variable (env) in
/-- The deletion of the blobs, one by one. -/
theorem FileWorld.goes_objects (keys : List String) (hn : w.requests n = .delete d)
    (hpending : d.pending = []) (hphase : d.phase = DeletePhase.afterObjects keys d.successKeys) :
    ∃ d' : DeleteRequest, (w.goes env n keys.length).requests n = .delete d' ∧
      d'.pending = [] ∧ d'.phase = DeletePhase.afterObjects [] d'.successKeys ∧
      (w.goes env n keys.length).rows = w.rows ∧
      ∀ k, k ∈ d'.successKeys ↔ k ∈ d.successKeys ∨ k ∈ keys ∧ w.store k ≠ none := by
  induction keys generalizing w d with
  | nil =>
    refine ⟨d, hn, hpending, hphase, rfl, fun k => ?_⟩
    exact (or_iff_left fun h => absurd h.1 List.not_mem_nil).symm
  | cons key keys ih =>
    have hphase : d.phase = .deleteObjects (key :: keys) := hphase
    rw [List.length_cons, FileWorld.goes_succ, FileWorld.step_delete hn]
    simp only [DeleteRequest.go, hphase]
    cases hstored : w.store key with
    | none =>
      obtain ⟨d', hn', hpending', hphase', hrows, hkeys⟩ := ih
        (w := w.setRequest n (.delete { d with phase := DeletePhase.afterObjects keys d.successKeys }))
        FileWorld.setRequest_self hpending rfl
      refine ⟨d', hn', hpending', hphase', hrows, fun k => (hkeys k).trans (or_congr_right ?_)⟩
      refine and_congr_left fun hk => (or_iff_right ?_).symm.trans List.mem_cons.symm
      rintro rfl
      exact hk hstored
    | some body =>
      obtain ⟨d', hn', hpending', hphase', hrows, hkeys⟩ := ih
        (w := (d.deleteBlob key keys .succeeds w).2.setRequest n
          (.delete (d.deleteBlob key keys .succeeds w).1))
        FileWorld.setRequest_self hpending rfl
      refine ⟨d', hn', hpending', hphase', hrows, fun k => (hkeys k).trans ?_⟩
      have hnone : (w.store.delete key) k ≠ none ↔ k ≠ key ∧ w.store k ≠ none := by
        unfold BlobStore.delete
        by_cases hk : k = key <;> simp [hk]
      change k ∈ d.successKeys ++ [key] ∨ k ∈ keys ∧ (w.store.delete key) k ≠ none ↔ _
      rw [hnone, List.mem_append, List.mem_singleton, List.mem_cons]
      by_cases hk : k = key
      · subst hk
        simp [hstored]
      · simp [hk]

/-- The rest of a deletion. -/
theorem FileWorld.goes_rest (hn : w.requests n = .delete d) (hpending : d.pending = [])
    (hphase : d.phase = DeletePhase.afterObjects [] d.successKeys) (k : Nat) :
    (w.goes env n (k + 4)).rows = w.rows.map (ContentFile.markDeleted d.successKeys) := by
  by_cases hnone : d.successKeys = []
  · have hphase : d.phase = .commit := by
      rw [hphase, hnone]
      rfl
    rw [FileWorld.goes_succ, FileWorld.step_delete hn]
    simp only [DeleteRequest.go, hphase]
    rw [FileWorld.goes_over FileWorld.setRequest_self (.inl rfl), hpending, hnone]
    refine ((List.map_congr_left fun r _ => ?_).trans (List.map_id w.rows)).symm
    exact if_neg List.not_mem_nil
  · have hphase : d.phase = .markDeletedByKeys := by
      rw [hphase]
      simp [DeletePhase.afterObjects, hnone]
    rw [FileWorld.goes_succ, FileWorld.step_delete hn]
    simp only [DeleteRequest.go, hphase]
    rw [FileWorld.goes_succ, FileWorld.step_delete FileWorld.setRequest_self]
    simp only [DeleteRequest.go]
    rw [FileWorld.goes_succ, FileWorld.step_delete FileWorld.setRequest_self]
    simp only [DeleteRequest.go]
    rw [FileWorld.goes_succ, FileWorld.step_delete FileWorld.setRequest_self]
    simp only [DeleteRequest.go]
    rw [FileWorld.goes_over FileWorld.setRequest_self (.inl rfl)]
    rfl

/-- The keys of the rows that are asked for. -/
def FileWorld.requestedKeys (w : FileWorld) (ids : List UUID) : List String :=
  (w.rows.filter fun r => r.id ∈ ids).map ContentFile.key

theorem FileWorld.mem_requestedKeys {ids : List UUID} {k : String} :
    k ∈ w.requestedKeys ids ↔ ∃ r ∈ w.rows, r.id ∈ ids ∧ r.key = k := by
  simp only [FileWorld.requestedKeys, List.mem_map, List.mem_filter, decide_eq_true_eq, and_assoc]

theorem FileWorld.requestedKeys_length (ids : List UUID) :
    (w.requestedKeys ids).length ≤ w.rows.length := by
  rw [FileWorld.requestedKeys, List.length_map]
  exact List.length_filter_le _ _

theorem DeleteRequest.go_listByIds (hphase : d.phase = .listByIds) :
    d.go .succeeds w =
      ({ d with
          phase :=
            if (w.requestedKeys d.ids).isEmpty then .failed
            else .deleteObjects (w.requestedKeys d.ids) }, w) := by
  simp only [DeleteRequest.go, hphase]
  unfold FileWorld.requestedKeys
  split <;> rfl

/-- The first round trip of a deletion. -/
theorem FileWorld.retry_listed (hn : w.requests n = .idle) (ids : List UUID) :
    w.retry env n ids =
      ((w.setRequest n (.delete { ids })).setRequest n (.delete
        { ids
          phase :=
            if (w.requestedKeys ids).isEmpty then .failed
            else .deleteObjects (w.requestedKeys ids) })).goes env n (w.rows.length + 5) := by
  have hbegin : w.retry env n ids =
      (w.setRequest n (.delete { ids })).goes env n (w.rows.length + 6) := by
    unfold FileWorld.retry FileWorld.run FileWorld.goes FileWorld.run
    simp only [List.foldl_cons, FileWorld.step, hn]
  rw [hbegin, FileWorld.goes_succ, FileWorld.step_delete FileWorld.setRequest_self,
    DeleteRequest.go_listByIds rfl]
  rfl

variable (env) in
/-- **What `delete_files` comes to by itself**: of the requested rows it marks those whose blobs are
still there. -/
theorem FileWorld.retry_rows (hn : w.requests n = .idle) (ids : List UUID) :
    ∃ successKeys : List String,
      (w.retry env n ids).rows = w.rows.map (ContentFile.markDeleted successKeys) ∧
      ∀ k, k ∈ successKeys ↔ (∃ r ∈ w.rows, r.id ∈ ids ∧ r.key = k) ∧ w.store k ≠ none := by
  rw [FileWorld.retry_listed hn]
  split
  · rename_i hempty
    refine ⟨[], ?_, fun k => ?_⟩
    · rw [FileWorld.goes_over FileWorld.setRequest_self (.inr rfl)]
      refine ((List.map_congr_left fun r _ => ?_).trans (List.map_id w.rows)).symm
      exact if_neg List.not_mem_nil
    · rw [← FileWorld.mem_requestedKeys, List.isEmpty_iff.mp hempty]
      exact iff_of_false List.not_mem_nil fun h => List.not_mem_nil h.1
  · rename_i hkeys
    obtain ⟨j, hj⟩ := Nat.exists_eq_add_of_le (w.requestedKeys_length ids)
    obtain ⟨d', hn', hpending', hphase', hrows, hsuccess⟩ := FileWorld.goes_objects env
      (w := (w.setRequest n (.delete { ids })).setRequest n (.delete
        { ids, phase := .deleteObjects (w.requestedKeys ids) }))
      (w.requestedKeys ids) FileWorld.setRequest_self rfl (if_neg hkeys).symm
    refine ⟨d'.successKeys, ?_, fun k => ?_⟩
    · rw [show w.rows.length + 5 = (w.requestedKeys ids).length + (j + 1 + 4) by omega,
        FileWorld.goes_add, FileWorld.goes_rest hn' hpending' hphase', hrows]
      rfl
    · rw [hsuccess, ← FileWorld.mem_requestedKeys]
      exact or_iff_right List.not_mem_nil

/-- **What repeating a deletion comes to.** -/
theorem FileWorld.Sound.retry_iff (hw : w.Sound env) (hn : w.requests n = .idle)
    (ids : List UUID) :
    (w.retry env n ids).Deleted ids ↔
      ∀ r ∈ w.rows, r.id ∈ ids → ∀ m, (w.requests m).Through r.key := by
  obtain ⟨successKeys, hrows, hsuccess⟩ := FileWorld.retry_rows env hn ids
  have hall : (w.retry env n ids).Deleted ids ↔
      ∀ r ∈ w.rows, r.id ∈ ids → r.key ∈ successKeys ∨ r.status = .deleted := by
    unfold FileWorld.Deleted
    rw [hrows]
    simp only [List.forall_mem_map, ContentFile.markDeleted_id, ContentFile.markDeleted_status]
  rw [hall]
  refine forall₃_congr fun r hr hid => ⟨fun h m hm => ?_, fun h => ?_⟩
  · refine (hw.deleted_of_through hr hm).mpr (h.resolve_left fun hk => ?_) hm
    exact ((hsuccess _).mp hk).2 (hw.absent m _ hm).1
  · by_cases hkept : ∀ m, r.key ∉ (w.requests m).deletedBlobs
    · obtain ⟨body, hbody, -⟩ := hw.present r hr hkept
      refine .inl ((hsuccess _).mpr ⟨⟨r, hr, hid, rfl⟩, ?_⟩)
      rw [hbody]
      nofun
    · obtain ⟨m, hm⟩ := not_forall.mp hkept
      have hm := not_not.mp hm
      exact .inr ((hw.deleted_of_through hr hm).mp (h m))

/-! ## 10. When they agree -/

/-- **When rows, blobs and answers agree**: the rows, exactly if every deletion that has deleted a
blob is through with it; an answer, exactly if no deletion has deleted the blob of the row and the
row has the checksum of the bytes; a repeated deletion, exactly if the earlier ones are through. -/
structure FileWorld.Agreement (env : Env) (w : FileWorld) : Prop where
  rows : w.BlobsStored env ↔ ∀ n k, (w.requests n).Through k
  answers : ∀ n u r, w.requests n = .upload u → u.phase = .duplicate r →
    (w.Answered r.id u.command.content ↔
      (∀ m, r.key ∉ (w.requests m).deletedBlobs) ∧
        r.checksumSha256 = some (env.sha256 u.command.content))
  retries : ∀ n ids, w.requests n = .idle →
    ((w.retry env n ids).Deleted ids ↔
      ∀ r ∈ w.rows, r.id ∈ ids → ∀ m, (w.requests m).Through r.key)

theorem files_agreement (hsha : Function.Injective env.sha256) (turns : List FileTurn) :
    (({} : FileWorld).run env turns).Agreement env :=
  have hw := FileWorld.Sound.start.run turns
  ⟨hw.blobsStored_iff, fun _ _ _ hn hphase => hw.answered_iff hsha hn hphase,
    fun _ ids hn => hw.retry_iff hn ids⟩

/-- An environment whose SHA-256 is injective and whose MD5 is not. -/
def sampleEnv : Env where
  maxUploadSize := 1024
  blobPrefix := ""
  storageName := "azure_blob"
  bucket := "files"
  region := "eastasia"
  guessType _ := none
  imageSize _ := none
  md5 body := toString body.length
  sha256 body := String.ofList (body.map Char.ofUInt8)
  lower := id

theorem sampleEnv_sha256 : Function.Injective sampleEnv.sha256 := by
  intro a b h
  have hchar : Function.Injective Char.ofUInt8 := fun x y hxy =>
    UInt8.toUInt32_inj.mp (congrArg Char.val hxy)
  exact hchar.list_map (String.ofList_injective h)

/-- The duplicate that an upload is about to return. -/
def FileWorld.answer (w : FileWorld) (n : Nat) : Option UUID :=
  match w.requests n with
  | .upload u =>
    match u.phase with
    | .duplicate r => some r.id
    | _ => none
  | _ => none

/-- A file is uploaded; its deletion fails once its blob is deleted; the file is uploaded again. -/
def lostBlob : List FileTurn :=
  .upload 0 { filename := "a", content := [1] } 1 :: List.replicate 6 (.go 0 .succeeds) ++
    [.delete 1 [1], .go 1 .succeeds, .go 1 .succeeds, .go 1 (.fails false),
      .upload 2 { filename := "a", content := [1] } 2, .go 2 .succeeds]

/-- A file is uploaded, then another with the same MD5. -/
def md5Collision : List FileTurn :=
  .upload 0 { filename := "a", content := [1] } 1 :: List.replicate 6 (.go 0 .succeeds) ++
    [.upload 1 { filename := "b", content := [2] } 2, .go 1 .succeeds, .go 1 .succeeds]

/-- **After a failed deletion** a row is UPLOADED without its blob, an upload is answered with it,
and repeating the deletion does not delete it; and an upload is answered with another's bytes. -/
theorem lostBlob_disagrees :
    ¬(({} : FileWorld).run sampleEnv lostBlob).BlobsStored sampleEnv ∧
    (({} : FileWorld).run sampleEnv lostBlob).answer 2 = some 1 ∧
    ¬(({} : FileWorld).run sampleEnv lostBlob).Answered 1 [1] ∧
    ¬((({} : FileWorld).run sampleEnv lostBlob).retry sampleEnv 3 [1]).Deleted [1] ∧
    (({} : FileWorld).run sampleEnv md5Collision).answer 1 = some 1 ∧
    ¬(({} : FileWorld).run sampleEnv md5Collision).Answered 1 [2] := by
  refine ⟨fun h => ?_, by decide +kernel, ?_, ?_, by decide +kernel, ?_⟩
  · have hlost : ∃ r ∈ (({} : FileWorld).run sampleEnv lostBlob).rows, r.status = .uploaded ∧
        (({} : FileWorld).run sampleEnv lostBlob).store r.key = none := by decide +kernel
    obtain ⟨r, hr, huploaded, hnone⟩ := hlost
    obtain ⟨body, hbody, -⟩ := h r hr huploaded
    rw [hnone] at hbody
    cases hbody
  · unfold FileWorld.Answered
    decide +kernel
  · unfold FileWorld.Deleted
    decide +kernel
  · unfold FileWorld.Answered
    decide +kernel

/-- The agreement after the failed deletion, in the sample environment. -/
theorem files_agreement_lostBlob : (({} : FileWorld).run sampleEnv lostBlob).Agreement sampleEnv :=
  files_agreement sampleEnv_sha256 lostBlob

end NewlifeCore.Content
