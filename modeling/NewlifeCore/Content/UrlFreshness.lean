import Mathlib.Data.List.Nodup
import NewlifeCore.Content.SignedUrls

/-!
# How fresh a signed URL is

Any number of `get_signed_url` and `delete_files` requests side by side.  A URL is always one of the
file asked for, and none is given for a file whose deletion was committed before.  How long it lasts
is another matter: a call takes what the cache has, whatever expiration that was signed with, and
what the cache has lives from its SET, while the URL lives from its signing before it.

The condition (`Timely`) speaks of what Redis has and of the time that passes, not of URLs: the
entry that a lookup finds has more time to live than passed between its signing and its SET, but
not more than that and the time asked for together; and a call that has signed gets to its SET
before as much time has passed as it asked for.  That this makes URLs fresh rests on the lifetime
that the SET gives an entry, which is the one the URL was signed with (`Lasting`).

Section 1 says what a deletion can do to the files and to the cache, section 2 where a call for a
URL can be (`SignAt`).  Section 3 has the invariant of a run (`FileInv`): one lemma for the next
step of each kind of request, and the run lemma from them.  Section 4 reads the freshness of a
returned URL off the step that returns it, by the entry found or by the time since its signing.
-/

namespace NewlifeCore.Content

open Txn

/-! ## 1. What deletions do -/

/-- The files as they are listed, which no request here changes. -/
def FileTables.bases (db : FileTables) : List FileBaseResult := db.files.map ContentFile.base

/-- The file is marked as deleted. -/
def FileTables.Deleted (db : FileTables) (fileId : UUID) : Prop :=
  ∀ r ∈ db.files, r.id = fileId → r.status = .deleted

/-- A change of the tables that leaves the files but for their status, and the deleted ones. -/
structure Calm (f : FileTables → FileTables) : Prop where
  bases : ∀ db, (f db).bases = db.bases
  deleted : ∀ db fileId, db.Deleted fileId → (f db).Deleted fileId

theorem Calm.id : Calm id := ⟨fun _ => rfl, fun _ _ h => h⟩

theorem Calm.comp {f g : FileTables → FileTables} (hf : Calm f) (hg : Calm g) : Calm (f ∘ g) :=
  ⟨fun db => (hf.bases (g db)).trans (hg.bases db), fun db fileId h =>
    hf.deleted (g db) fileId (hg.deleted db fileId h)⟩

theorem Calm.markDeleted (keys : List String) (view : FileTables) :
    Calm (linkedFileTable.update (fun r => r.key ∈ keys) (fun r => r.setStatus .deleted)
      (fun _ => rfl) view).apply := by
  constructor
  · intro db
    show List.map ContentFile.base (List.map _ db.files) = List.map ContentFile.base db.files
    rw [List.map_map]
    refine List.map_congr_left fun r _ => ?_
    show ContentFile.base (if _ then _ else _) = _
    split <;> rfl
  · intro db fileId h r hr hid
    obtain ⟨r₀, hr₀, rfl⟩ := List.mem_map.mp hr
    by_cases hmark : (decide (r₀.key ∈ keys) && (linkedFileTable.matching (fun r => r.key ∈ keys)
        view).contains (linkedFileTable.name r₀)) = true
    · rw [if_pos hmark]
      rfl
    · rw [if_neg hmark] at hid ⊢
      exact h r₀ hr₀ hid

theorem Calm.deleteAssociations (p : ContentFileAssociation → Bool) (view : FileTables) :
    Calm (associationTable.delete p view).apply := ⟨fun _ => rfl, fun _ _ h => h⟩

/-- A request that writes calmly and puts nothing into the cache. -/
def Tame {α : Type} : FileScript α → Prop
  | .ret _ => True
  | .raise _ => True
  | .read _ k => ∀ b, Tame (k b)
  | .clock k => ∀ t, Tame (k t)
  | .write stmt k => (∀ db c, stmt db = .ok c → Calm c.apply) ∧ ∀ n, Tame (k n)
  | .command c k => (∀ s t key, (c s t).1.cache key = s.cache key ∨ (c s t).1.cache key = none) ∧
      ∀ b, Tame (k b)
  | .commit _ => False

namespace Tame

variable {α β : Type}

theorem ret (a : α) : Tame (.ret a) := trivial

theorem bind {f : α → FileScript β} (hf : ∀ a, Tame (f a)) :
    ∀ {p : FileScript α}, Tame p → Tame (p.bind f)
  | .ret a, _ => hf a
  | .raise _, _ => trivial
  | .read _ _, hp => fun b => bind hf (hp b)
  | .clock _, hp => fun t => bind hf (hp t)
  | .write _ _, hp => ⟨hp.1, fun n => bind hf (hp.2 n)⟩
  | .command _ _, hp => ⟨hp.1, fun b => bind hf (hp.2 b)⟩

theorem tryCatch {h : FileError → FileScript α} (hh : ∀ e, Tame (h e)) :
    ∀ {p : FileScript α}, Tame p → Tame (p.tryCatch h)
  | .ret _, _ => trivial
  | .raise e, _ => hh e
  | .read _ _, hp => fun b => tryCatch hh (hp b)
  | .clock _, hp => fun t => tryCatch hh (hp t)
  | .write _ _, hp => ⟨hp.1, fun n => tryCatch hh (hp.2 n)⟩
  | .command _ _, hp => ⟨hp.1, fun b => tryCatch hh (hp.2 b)⟩

theorem each {f : α → FileScript Unit} (hf : ∀ a, Tame (f a)) : ∀ xs, Tame (Script.each xs f)
  | [] => trivial
  | x :: xs => bind (fun _ => each hf xs) (hf x)

theorem delete (key : FileCacheKey) : Tame (FileCache.delete key) := by
  refine ⟨fun s t k => ?_, fun _ => trivial⟩
  by_cases hk : k = key
  · exact .inr (if_pos hk)
  · exact .inl (if_neg hk)

theorem deleteEach (refused : String → Bool) :
    ∀ keys, Tame (AzureBlobStorage.deleteEach refused keys)
  | [] => trivial
  | key :: keys => by
    refine bind (fun deleted => bind (fun _ => ret _) (deleteEach refused keys)) ?_
    refine ⟨fun s t k => .inl ?_, fun _ => trivial⟩
    dsimp only
    split <;> rfl

theorem listByIds (ids : List UUID) : Tame (Script.query (FileRepository.listByIds ids)) := by
  unfold FileRepository.listByIds
  split
  · trivial
  · exact fun _ => trivial

theorem afterDeletion (files : List FileBaseResult) (keys : List String) :
    Tame (FileService.afterDeletion files keys) := by
  refine bind (fun _ => bind (fun resourceIds => ?_) ?_) ?_
  · exact bind (fun _ => each (fun file => delete _) _) (each (fun id => delete _) _)
  · unfold FileRepository.deleteAssociationsByFileIds
    split
    · trivial
    · refine fun resourceIds => ⟨fun db c h => ?_, fun _ => trivial⟩
      cases h
      exact .deleteAssociations _ _
  · unfold FileRepository.markDeletedByKeys
    split
    · trivial
    · refine ⟨fun db c h => ?_, fun _ => trivial⟩
      cases h
      exact .markDeleted _ _

theorem deleteFiles (env : StorageSettings) (refused : String → Bool) (ids : List UUID) :
    Tame (FileService.deleteFiles env refused ids) := by
  refine bind (fun files => ?_) (listByIds ids)
  split
  · trivial
  · refine bind (fun keys => ?_) (tryCatch (fun e => ?_) ?_)
    · dsimp only
      split
      · trivial
      · exact bind (fun _ => ret _) (afterDeletion files keys)
    · cases e <;> trivial
    · unfold AzureBlobStorage.deleteObjects
      split
      · trivial
      · split
        · trivial
        · exact deleteEach refused _

end Tame

/-! ## 2. A call of `get_signed_url` -/

variable (env : StorageSettings) (files : List FileBaseResult)

/-- The URL is one of the file: it names its key, in its bucket. -/
def ForFile (f : FileBaseResult) (u : SignedUrl) : Prop :=
  u.key = f.key ∧ u.container = AzureBlobStorage.containerOf env f.bucket

/-- The file a call is for, among those there are: the one it brings along, or the one it names. -/
def Requested (fileId : Option UUID) (file : Option FileBaseResult) (f : FileBaseResult) : Prop :=
  f ∈ files ∧ (file = some f ∨ file = none ∧ fileId = some f.id)

/-- The call is about to look its file up in the cache. -/
def lookingUp (f : FileBaseResult) (seconds : Int) : FileScript FileAnswer :=
  (FileService.urlOf env f seconds).bind fun u => pure (.url u)

/-- The call is about to sign. -/
def signingUrl (f : FileBaseResult) (seconds : Int) : FileScript FileAnswer :=
  (FileService.signUrl env f seconds).bind fun u => pure (.url u)

/-- The call has signed and is about to store. -/
def storingUrl (f : FileBaseResult) (u : SignedUrl) (seconds : Int) : FileScript FileAnswer :=
  (FileCache.setSignedUrl f.id u seconds).bind fun _ => pure (.url (some u))

/-- What the row of a file leads to. -/
def located (seconds : Int) : Option FileBaseResult → FileScript FileAnswer
  | some f => lookingUp env f seconds
  | none => .ret (.url none)

/-- What the cache leads to. -/
def looked (f : FileBaseResult) (seconds : Int) : Option SignedUrl → FileScript FileAnswer
  | some u => .ret (.url (some u))
  | none => signingUrl env f seconds

theorem begun_eq (fileId : UUID) (expiration : Option Int) :
    FileCall.body env (.getSignedUrl (some fileId) none expiration) =
      .read (fun db _ => (db.files.find? fun r => r.id = fileId && r.status ≠ .deleted).map
        ContentFile.base) (located env (FileService.expiryOf env expiration)) := by
  refine congrArg (Script.read _) (funext fun row => ?_)
  cases row <;> rfl

theorem lookingUp_eq (f : FileBaseResult) (seconds : Int) : lookingUp env f seconds =
    .command (fun s t => (s, s.cache.get t (.signedUrl f.id))) (looked env f seconds) := by
  refine congrArg (Script.command _) (funext fun cached => ?_)
  cases cached <;> rfl

theorem signingUrl_cases (f : FileBaseResult) (seconds : Int) :
    (∃ e, signingUrl env f seconds = .raise e) ∨ signingUrl env f seconds = .clock fun now =>
      storingUrl f ⟨AzureBlobStorage.containerOf env f.bucket, f.key, now, seconds⟩ seconds := by
  unfold signingUrl FileService.signUrl AzureBlobStorage.generateSignedReadUrl
  split
  · exact .inl ⟨_, rfl⟩
  · split
    · exact .inl ⟨_, rfl⟩
    · refine .inr (congrArg Script.clock (funext fun now => ?_))
      exact Script.bind_bind _ _ (FileCache.setSignedUrl f.id _ seconds)

theorem storingUrl_cases (f : FileBaseResult) (u : SignedUrl) (seconds : Int) :
    (∃ e, storingUrl f u seconds = .raise e) ∨ 0 < seconds ∧ storingUrl f u seconds =
      .command (fun s t => ({ s with cache := s.cache.setex t (.signedUrl f.id) seconds u }, ()))
        fun _ => .ret (.url (some u)) := by
  unfold storingUrl FileCache.setSignedUrl
  split
  · exact .inl ⟨_, rfl⟩
  · exact .inr ⟨Int.not_le.mp ‹_›, rfl⟩

theorem lookingUp_ne_ret {f : FileBaseResult} {seconds : Int} {answer : FileAnswer} :
    lookingUp env f seconds ≠ .ret answer := by
  rw [lookingUp_eq]
  exact nofun

theorem signingUrl_ne_ret {f : FileBaseResult} {seconds : Int} {answer : FileAnswer} :
    signingUrl env f seconds ≠ .ret answer := by
  rcases signingUrl_cases env f seconds with ⟨e, he⟩ | hclock
  · rw [he]
    exact nofun
  · rw [hclock]
    exact nofun

theorem storingUrl_ne_ret {f : FileBaseResult} {u : SignedUrl} {seconds : Int}
    {answer : FileAnswer} :
    storingUrl f u seconds ≠ .ret answer := by
  rcases storingUrl_cases f u seconds with ⟨e, he⟩ | ⟨-, hset⟩
  · rw [he]
    exact nofun
  · rw [hset]
    exact nofun

/-- Where a call can be at a time. -/
inductive SignAt (now : Int) (fileId : Option UUID) (file : Option FileBaseResult)
    (expiration : Option Int) : FileScript FileAnswer → Prop
  | begun (h : file = none) :
      SignAt now fileId file expiration (FileCall.body env (.getSignedUrl fileId none expiration))
  | looking {f : FileBaseResult} (hf : Requested files fileId file f) :
      SignAt now fileId file expiration (lookingUp env f (FileService.expiryOf env expiration))
  | signing {f : FileBaseResult} (hf : Requested files fileId file f) :
      SignAt now fileId file expiration (signingUrl env f (FileService.expiryOf env expiration))
  | storing {f : FileBaseResult} {u : SignedUrl} (hf : Requested files fileId file f)
      (hu : ForFile env f u) (hsigned : u.signedAt ≤ now)
      (hseconds : u.expirySeconds = FileService.expiryOf env expiration)
      (hprompt : 0 < u.expirySeconds → now < u.expiresAt) :
      SignAt now fileId file expiration (storingUrl f u (FileService.expiryOf env expiration))
  | absent : SignAt now fileId file expiration (.ret (.url none))
  | returned {f : FileBaseResult} {u : SignedUrl} (hf : Requested files fileId file f)
      (hu : ForFile env f u) : SignAt now fileId file expiration (.ret (.url (some u)))
  | raised (e : FileError) : SignAt now fileId file expiration (.raise e)

/-- **Time does not run out between signing and SET**: it goes on to `now'` no further than a call
that has signed a URL asked for. -/
def InTime (now' : Int) (expiration : Option Int) (p : FileScript FileAnswer) : Prop :=
  ∀ f u, p = storingUrl f u (FileService.expiryOf env expiration) →
    0 < FileService.expiryOf env expiration →
      now' - u.signedAt < FileService.expiryOf env expiration * secondMicros

variable {env files}

theorem SignAt.later {now now' : Int} {fileId : Option UUID} {file : Option FileBaseResult}
    {expiration : Option Int} {p : FileScript FileAnswer} (hle : now ≤ now')
    (htime : InTime env now' expiration p) (h : SignAt env files now fileId file expiration p) :
    SignAt env files now' fileId file expiration p := by
  cases h with
  | begun h => exact .begun h
  | looking hf => exact .looking hf
  | signing hf => exact .signing hf
  | @storing f u hf hu hsigned hseconds hprompt =>
    refine .storing hf hu (hsigned.trans hle) hseconds fun hpositive => ?_
    have := htime f u rfl (hseconds ▸ hpositive)
    unfold SignedUrl.expiresAt
    rw [hseconds]
    omega
  | absent => exact .absent
  | returned hf hu => exact .returned hf hu
  | raised e => exact .raised e

/-- A row of the listing is found by its id. -/
theorem getById_mem {db : FileTables} {fileId : UUID} {f : FileBaseResult}
    (h : (db.files.find? fun r => r.id = fileId && r.status ≠ .deleted).map ContentFile.base =
      some f) : f ∈ db.bases ∧ f.id = fileId ∧ ¬ db.Deleted fileId := by
  obtain ⟨r, hr, rfl⟩ := Option.map_eq_some_iff.mp h
  have hfound := List.find?_some hr
  simp only [Bool.and_eq_true, decide_eq_true_eq] at hfound
  exact ⟨List.mem_map_of_mem (List.mem_of_find?_eq_some hr), hfound.1,
    fun hdeleted => hfound.2 (hdeleted r (List.mem_of_find?_eq_some hr) hfound.1)⟩

/-! ## 3. Requests side by side -/

/-- An entry lasts from its SET for as long as its URL does from its signing. -/
def Lasting (e : FileCacheEntry) : Prop :=
  e.expireAt = e.storedAt + e.url.expirySeconds * secondMicros

/-- **An entry whose URL is fresh**, by what Redis has: it is there for longer than the SET came
after the signing, and for no longer than that and the time asked for. -/
theorem Lasting.fresh_iff {e : FileCacheEntry} (h : Lasting e) (now seconds : Int) :
    (now < e.url.expiresAt ∧ e.url.expiresAt ≤ now + seconds * secondMicros) ↔
      e.lag < e.ttl now ∧ e.ttl now ≤ seconds * secondMicros + e.lag := by
  unfold Lasting at h
  unfold SignedUrl.expiresAt FileCacheEntry.lag FileCacheEntry.ttl
  rw [h]
  constructor
  · rintro ⟨hnow, hlong⟩
    exact ⟨by omega, by omega⟩
  · rintro ⟨hnow, hlong⟩
    exact ⟨by omega, by omega⟩

/-- Every stored URL is one of the file under whose id it is stored, and lasts as it should. -/
def CacheOf (env : StorageSettings) (files : List FileBaseResult) (store : FileStore) : Prop :=
  ∀ fileId entry, store.cache (.signedUrl fileId) = some entry →
    (∃ f ∈ files, f.id = fileId ∧ ForFile env f entry.url) ∧ Lasting entry

/-- What holds of a request: a call for a URL has written nothing, a deletion is calm and tame. -/
def VisitOf (env : StorageSettings) (files : List FileBaseResult) (now : Int) (v : FileVisit) :
    Prop :=
  match v.label with
  | .getSignedUrl fileId file expiration =>
    v.own = id ∧ SignAt env files now fileId file expiration v.script
  | .deleteFiles _ _ => Calm v.own ∧ Tame v.script

/-- **What holds whatever has happened.** -/
structure FileInv (env : StorageSettings) (files : List FileBaseResult) (s : FileDesk) : Prop where
  bases : s.db.bases = files
  visits : ∀ n v, s.visits n = some v → VisitOf env files s.clock v
  cache : CacheOf env files s.store

theorem CacheOf.entry {store : FileStore} {t : Int} {f : FileBaseResult} {e : FileCacheEntry}
    (h : CacheOf env files store) (hids : (files.map FileBaseResult.id).Nodup) (hf : f ∈ files)
    (hentry : store.cache.entry t (.signedUrl f.id) = some e) :
    ForFile env f e.url ∧ Lasting e := by
  obtain ⟨⟨g, hg, hid, hu⟩, hlasting⟩ := h f.id e (Option.filter_eq_some_iff.mp hentry).1
  obtain rfl : g = f := List.inj_on_of_nodup_map hids hg hf hid
  exact ⟨hu, hlasting⟩

theorem CacheOf.setex {store : FileStore} {t seconds : Int} {f : FileBaseResult} {u : SignedUrl}
    (h : CacheOf env files store) (hf : f ∈ files) (hu : ForFile env f u)
    (hseconds : u.expirySeconds = seconds) :
    CacheOf env files { store with
      cache := store.cache.setex t (.signedUrl f.id) seconds u } := by
  intro fileId entry hentry
  by_cases hkey : FileCacheKey.signedUrl fileId = .signedUrl f.id
  · obtain rfl := Option.some.inj ((if_pos hkey).symm.trans hentry)
    exact ⟨⟨f, hf, (FileCacheKey.signedUrl.inj hkey).symm, hu⟩, by rw [Lasting, hseconds]⟩
  · exact h fileId entry ((if_neg hkey).symm.trans hentry)

theorem CacheOf.removed {store store' : FileStore} (h : CacheOf env files store)
    (hremoved : ∀ key, store'.cache key = store.cache key ∨ store'.cache key = none) :
    CacheOf env files store' := by
  intro fileId entry hentry
  rcases hremoved (.signedUrl fileId) with heq | hnone
  · exact h fileId entry (heq ▸ hentry)
  · cases hnone.symm.trans hentry

theorem VisitOf.later {now now' : Int} (hle : now ≤ now') {v : FileVisit}
    (htime : ∀ fileId file expiration, v.label = .getSignedUrl fileId file expiration →
      InTime env now' expiration v.script)
    (h : VisitOf env files now v) : VisitOf env files now' v := by
  unfold VisitOf at h ⊢
  split at h
  · rename_i fileId file expiration hlabel
    exact ⟨h.1, h.2.later hle (htime fileId file expiration hlabel)⟩
  · exact h

theorem VisitOf.calm {now : Int} {v : FileVisit} (h : VisitOf env files now v) : Calm v.own := by
  unfold VisitOf at h
  split at h
  · exact h.1 ▸ .id
  · exact h.1

section Steps

variable {s s' : FileDesk} {n : Nat} {v : FileVisit}

/-- **A deletion's next step** writes calmly, or removes from the cache. -/
theorem Tame.act (hcalm : Calm v.own) (htame : Tame v.script) (h : s.act n v = some s') :
    ∃ v' store, s' = { s.put n (some v') with store := store } ∧ v'.label = v.label ∧
      Calm v'.own ∧ Tame v'.script ∧
      ∀ key, store.cache key = s.store.cache key ∨ store.cache key = none := by
  obtain ⟨label, script, own, rows, saw⟩ := v
  cases script with
  | ret _ => cases h
  | raise _ => cases h
  | read q k =>
    cases h
    exact ⟨_, _, rfl, rfl, hcalm, htame _, fun _ => .inl rfl⟩
  | clock k =>
    cases h
    exact ⟨_, _, rfl, rfl, hcalm, htame _, fun _ => .inl rfl⟩
  | write stmt k =>
    simp only [Desk.act] at h
    split at h
    · cases h
      exact ⟨_, _, rfl, rfl, hcalm, trivial, fun _ => .inl rfl⟩
    · rename_i c hstmt
      split at h
      · cases h
        exact ⟨_, _, rfl, rfl, (htame.1 _ c hstmt).comp hcalm, htame.2 _, fun _ => .inl rfl⟩
      · cases h
  | command c k =>
    cases h
    exact ⟨_, _, rfl, rfl, hcalm, htame.2 _, htame.1 _ _⟩
  | commit _ => exact htame.elim

/-- How a call comes by the URL that it returns: it finds it, or it has signed it. -/
inductive Obtained (env : StorageSettings) (files : List FileBaseResult) (s : FileDesk)
    (v : FileVisit) (fileId : Option UUID) (file : Option FileBaseResult) (seconds : Int)
    (u : SignedUrl) : Prop
  | found {f : FileBaseResult} {e : FileCacheEntry} (hf : Requested files fileId file f)
      (hu : ForFile env f u) (hscript : v.script = lookingUp env f seconds)
      (hentry : s.store.cache.entry s.clock (.signedUrl f.id) = some e) (heq : e.url = u)
      (hlasting : Lasting e)
  | signed {f : FileBaseResult} (hf : Requested files fileId file f) (hu : ForFile env f u)
      (hsigned : u.signedAt ≤ s.clock) (hseconds : u.expirySeconds = seconds)
      (hprompt : s.clock < u.expiresAt)

/-- **The next step of a call for a URL.** -/
theorem SignAt.act {fileId : Option UUID} {file : Option FileBaseResult} {expiration : Option Int}
    (hids : (files.map FileBaseResult.id).Nodup) (hbases : s.db.bases = files)
    (hcache : CacheOf env files s.store) (hown : v.own = id)
    (hat : SignAt env files s.clock fileId file expiration v.script) (h : s.act n v = some s') :
    ∃ v' store, s' = { s.put n (some v') with store := store } ∧ v'.label = v.label ∧ v'.own = id ∧
      SignAt env files s.clock fileId file expiration v'.script ∧ CacheOf env files store ∧
      ∀ u, v'.script = .ret (.url (some u)) →
        Obtained env files s v fileId file (FileService.expiryOf env expiration) u := by
  obtain ⟨label, script, own, rows, saw⟩ := v
  dsimp only at hown hat
  subst hown
  cases hat with
  | begun hfile =>
    subst hfile
    cases fileId with
    | none => cases h
    | some fileId =>
      simp only [begun_eq, Desk.act] at h
      cases h
      dsimp only [id]
      generalize hrow : (s.db.files.find? fun r => r.id = fileId && r.status ≠ .deleted).map
        ContentFile.base = row
      cases row with
      | none => exact ⟨_, _, rfl, rfl, rfl, .absent, hcache, nofun⟩
      | some f =>
        obtain ⟨hf, rfl, -⟩ := getById_mem hrow
        exact ⟨_, _, rfl, rfl, rfl, .looking ⟨hbases ▸ hf, .inr ⟨rfl, rfl⟩⟩, hcache,
          fun u hret => absurd hret (lookingUp_ne_ret env)⟩
  | @looking f hf =>
    simp only [lookingUp_eq, Desk.act] at h
    cases h
    unfold FileCacheStore.get
    generalize hentry : s.store.cache.entry s.clock (.signedUrl f.id) = cached
    cases cached with
    | none =>
      exact ⟨_, _, rfl, rfl, rfl, .signing hf, hcache,
        fun u hret => absurd hret (signingUrl_ne_ret env)⟩
    | some e =>
      obtain ⟨hu, hlasting⟩ := hcache.entry hids hf.1 hentry
      refine ⟨_, _, rfl, rfl, rfl, .returned hf hu, hcache, fun u' hret => ?_⟩
      cases hret
      exact .found hf hu rfl hentry rfl hlasting
  | @signing f hf =>
    rcases signingUrl_cases env f (FileService.expiryOf env expiration) with ⟨e, he⟩ | hclock
    · simp only [he, Desk.act] at h
      cases h
    · simp only [hclock, Desk.act] at h
      cases h
      refine ⟨_, _, rfl, rfl, rfl, .storing hf ⟨rfl, rfl⟩ (le_refl _) rfl fun hpositive => ?_,
        hcache, fun u hret => absurd hret storingUrl_ne_ret⟩
      unfold SignedUrl.expiresAt secondMicros
      dsimp only at hpositive ⊢
      omega
  | @storing f u hf hu hsigned hseconds hprompt =>
    rcases storingUrl_cases f u (FileService.expiryOf env expiration) with ⟨e, he⟩ | ⟨hpos, hset⟩
    · simp only [he, Desk.act] at h
      cases h
    · simp only [hset, Desk.act] at h
      cases h
      refine ⟨_, _, rfl, rfl, rfl, .returned hf hu, hcache.setex hf.1 hu hseconds,
        fun u' hret => ?_⟩
      cases hret
      exact .signed hf hu hsigned hseconds (hprompt (hseconds ▸ hpos))
  | absent => cases h
  | returned _ _ => cases h
  | raised _ => cases h

theorem VisitOf.act (hids : (files.map FileBaseResult.id).Nodup) (h : FileInv env files s)
    (hv : s.visits n = some v) (hact : s.act n v = some s') :
    ∃ v' store, s' = { s.put n (some v') with store := store } ∧ v'.label = v.label ∧
      VisitOf env files s.clock v' ∧ CacheOf env files store := by
  have hof := h.visits n v hv
  unfold VisitOf at hof ⊢
  split at hof
  · rename_i fileId file expiration hlabel
    obtain ⟨v', store, hs', hlabel', hown, hat, hcache, -⟩ :=
      hof.2.act hids h.bases h.cache hof.1 hact
    refine ⟨v', store, hs', hlabel', ?_, hcache⟩
    rw [hlabel', hlabel]
    exact ⟨hown, hat⟩
  · rename_i refused ids hlabel
    obtain ⟨v', store, hs', hlabel', hcalm, htame, hremoved⟩ := Tame.act hof.1 hof.2 hact
    refine ⟨v', store, hs', hlabel', ?_, h.cache.removed hremoved⟩
    rw [hlabel', hlabel]
    exact ⟨hcalm, htame⟩

/-- **A URL that a step returns was obtained in that step.** -/
theorem FileInv.obtained (hids : (files.map FileBaseResult.id).Nodup) (h : FileInv env files s)
    (hv : s.visits n = some v) (hact : s.act n v = some s') {v' : FileVisit}
    (hv' : s'.visits n = some v') {fileId : Option UUID} {file : Option FileBaseResult}
    {expiration : Option Int} (hlabel : v'.label = .getSignedUrl fileId file expiration)
    {u : SignedUrl} (hret : v'.script = .ret (.url (some u))) :
    s'.db = s.db ∧ s'.clock = s.clock ∧ v.label = .getSignedUrl fileId file expiration ∧
      Obtained env files s v fileId file (FileService.expiryOf env expiration) u := by
  obtain ⟨w, store, hs', hlabelled, -⟩ := VisitOf.act hids h hv hact
  have hw : s'.visits n = some w := by
    rw [hs']
    exact if_pos rfl
  obtain rfl := Option.some.inj (hw.symm.trans hv')
  have hvlabel : v.label = .getSignedUrl fileId file expiration := hlabelled.symm.trans hlabel
  have hof := h.visits n v hv
  simp only [VisitOf, hvlabel] at hof
  obtain ⟨w', store', hs'', -, -, -, -, hobtained⟩ := hof.2.act hids h.bases h.cache hof.1 hact
  have hw' : s'.visits n = some w' := by
    rw [hs'']
    exact if_pos rfl
  obtain rfl := Option.some.inj (hw'.symm.trans hw)
  exact ⟨hs' ▸ rfl, hs' ▸ rfl, hvlabel, hobtained u hret⟩

/-- **The callers promise**: a file that is brought along is one that there is. -/
def FromTable (s : FileDesk) (a : Turn FileCall) : Prop :=
  ∀ fileId f expiration, a = .begin (.getSignedUrl fileId (some f) expiration) → f ∈ s.db.bases

/-- **Redis has what the lookups need, in time.**  An entry that a call finds has more time to live
than passed between its signing and its SET, and no more than that and the time asked for; and no
call that has signed is kept from its SET for the time it asked for. -/
structure Timely (env : StorageSettings) (s : FileDesk) (a : Turn FileCall) : Prop where
  lookup : ∀ n v fileId file expiration f e, a = .act n → s.visits n = some v →
    v.label = .getSignedUrl fileId file expiration →
    v.script = lookingUp env f (FileService.expiryOf env expiration) →
    s.store.cache.entry s.clock (.signedUrl f.id) = some e →
      e.lag < e.ttl s.clock ∧
        e.ttl s.clock ≤ FileService.expiryOf env expiration * secondMicros + e.lag
  tick : ∀ t n v fileId file expiration, a = .tick t → s.visits n = some v →
    v.label = .getSignedUrl fileId file expiration → InTime env t expiration v.script

theorem VisitOf.begin (hbases : s.db.bases = files) {call : FileCall}
    (hcall : FromTable s (.begin call)) :
    VisitOf env files s.clock { label := call, script := FileCall.body env call } := by
  cases call with
  | getSignedUrl fileId file expiration =>
    refine ⟨rfl, ?_⟩
    cases file with
    | none => exact .begun rfl
    | some f => exact .looking ⟨hbases ▸ hcall fileId f expiration rfl, .inl rfl⟩
  | deleteFiles refused ids =>
    exact ⟨.id, .bind (fun _ => .ret _) (.deleteFiles env refused ids)⟩

/-- **What every step keeps.** -/
theorem FileInv.step (hids : (files.map FileBaseResult.id).Nodup) (h : FileInv env files s)
    {a : Turn FileCall} (hok : FromTable s a) (htimely : Timely env s a)
    (hstep : s.step (FileCall.body env) a = some s') : FileInv env files s' := by
  rcases Desk.step_cases hstep with ⟨t, rfl, ht, rfl⟩ | ⟨call, rfl, rfl⟩ | ⟨n, v, rfl, hv, hact⟩ |
    ⟨n, v, rfl, hv, hend⟩
  · exact ⟨h.bases, fun m w hw => (h.visits m w hw).later ht fun fileId file expiration hlabel =>
      htimely.tick t m w fileId file expiration rfl hw hlabel, h.cache⟩
  · refine ⟨h.bases, fun m w hw => ?_, h.cache⟩
    rcases Desk.put_cases hw with ⟨-, hw⟩ | ⟨-, hw⟩
    · obtain rfl := Option.some.inj hw
      exact .begin h.bases hok
    · exact h.visits m w hw
  · obtain ⟨v', store, rfl, -, hof, hcache⟩ := VisitOf.act hids h hv hact
    refine ⟨h.bases, fun m w hw => ?_, hcache⟩
    rcases Desk.put_cases hw with ⟨-, hw⟩ | ⟨-, hw⟩
    · obtain rfl := Option.some.inj hw
      exact hof
    · exact h.visits m w hw
  · have hgone : ∀ m w, (s.put n none).visits m = some w → VisitOf env files s.clock w := by
      intro m w hw
      rcases Desk.put_cases hw with ⟨-, hw⟩ | ⟨-, hw⟩
      · cases hw
      · exact h.visits m w hw
    rcases Desk.finish_cases hend with ⟨answer, -, rfl⟩ | ⟨e, -, rfl⟩
    · exact ⟨((h.visits n v hv).calm.bases s.db).trans h.bases, hgone, h.cache⟩
    · exact ⟨h.bases, hgone, h.cache⟩

/-- The file is deleted, and the call that names it has found nothing or not yet looked. -/
structure NotFound (env : StorageSettings) (fileId : UUID) (expiration : Option Int) (n : Nat)
    (s : FileDesk) : Prop where
  deleted : s.db.Deleted fileId
  begun : n < s.next
  visit : ∀ v, s.visits n = some v → v.own = id ∧
    (v.script = FileCall.body env (.getSignedUrl (some fileId) none expiration) ∨
      v.script = .ret (.url none))

theorem NotFound.act {fileId : UUID} {expiration : Option Int}
    (h : NotFound env fileId expiration n s) (hv : s.visits n = some v)
    (hact : s.act n v = some s') :
    ∃ v', s' = s.put n (some v') ∧ v'.own = id ∧ v'.script = .ret (.url none) := by
  obtain ⟨hown, hscript⟩ := h.visit v hv
  obtain ⟨label, script, own, rows, saw⟩ := v
  dsimp only at hown hscript
  subst hown
  rcases hscript with rfl | rfl
  · simp only [begun_eq, Desk.act] at hact
    cases hact
    refine ⟨_, rfl, rfl, ?_⟩
    dsimp only [id]
    generalize hrow : (s.db.files.find? fun r => r.id = fileId && r.status ≠ .deleted).map
      ContentFile.base = row
    cases row with
    | none => rfl
    | some f => exact absurd h.deleted (getById_mem hrow).2.2
  · cases hact

/-- **A deleted file stays deleted**, and the call stays without it. -/
theorem NotFound.step (hids : (files.map FileBaseResult.id).Nodup) (hinv : FileInv env files s)
    {fileId : UUID} {expiration : Option Int} (h : NotFound env fileId expiration n s)
    {a : Turn FileCall} (hstep : s.step (FileCall.body env) a = some s') :
    NotFound env fileId expiration n s' := by
  rcases Desk.step_cases hstep with ⟨t, rfl, ht, rfl⟩ | ⟨call, rfl, rfl⟩ | ⟨m, v, rfl, hv, hact⟩ |
    ⟨m, v, rfl, hv, hend⟩
  · exact ⟨h.deleted, h.begun, h.visit⟩
  · have hne : n ≠ s.next := Nat.ne_of_lt h.begun
    exact ⟨h.deleted, Nat.lt_succ_of_lt h.begun, fun w hw => h.visit w ((if_neg hne).symm.trans hw)⟩
  · by_cases hm : n = m
    · subst hm
      obtain ⟨v', rfl, hown, hret⟩ := h.act hv hact
      refine ⟨h.deleted, h.begun, fun w hw => ?_⟩
      obtain rfl := Option.some.inj ((if_pos rfl).symm.trans hw)
      exact ⟨hown, .inr hret⟩
    · obtain ⟨v', store, rfl, -⟩ := VisitOf.act hids hinv hv hact
      exact ⟨h.deleted, h.begun, fun w hw => h.visit w ((if_neg hm).symm.trans hw)⟩
  · have hgone : ∀ w, (s.put m none).visits n = some w → s.visits n = some w := by
      intro w hw
      rcases Desk.put_cases hw with ⟨-, hw⟩ | ⟨-, hw⟩
      · cases hw
      · exact hw
    rcases Desk.finish_cases hend with ⟨answer, -, rfl⟩ | ⟨e, -, rfl⟩
    · exact ⟨(hinv.visits m v hv).calm.deleted s.db fileId h.deleted, h.begun,
        fun w hw => h.visit w (hgone w hw)⟩
    · exact ⟨h.deleted, h.begun, fun w hw => h.visit w (hgone w hw)⟩

end Steps

/-! ## 4. Freshness -/

variable (env)

/-- What is said of a URL at the moment it is returned, asked for some seconds. -/
structure FreshUrl (files : List FileBaseResult) (now : Int) (fileId : Option UUID)
    (file : Option FileBaseResult) (seconds : Int) (u : SignedUrl) : Prop where
  requested : ∃ f, Requested files fileId file f ∧ ForFile env f u
  notExpired : now < u.expiresAt
  bounded : u.expiresAt ≤ now + seconds * secondMicros

/-- **Signed URLs are fresh** in the runs whose turns meet `ok`: every URL is, in the step that
returns it, and a call that names a file by its id and begins when the committed row is marked as
deleted never returns one. -/
structure UrlsFresh (ok : FileDesk → Turn FileCall → Prop) (s₀ : FileDesk) : Prop where
  returned : ∀ s n s' v fileId file expiration u, Desk.Run (FileCall.body env) ok s₀ s →
    ok s (.act n) → s.step (FileCall.body env) (.act n) = some s' → s'.visits n = some v →
    v.label = .getSignedUrl fileId file expiration → v.script = .ret (.url (some u)) →
    FreshUrl env s'.db.bases s'.clock fileId file (FileService.expiryOf env expiration) u
  deleted : ∀ s fileId expiration s₁ s' v u, Desk.Run (FileCall.body env) ok s₀ s →
    s.db.Deleted fileId → ok s (.begin (.getSignedUrl (some fileId) none expiration)) →
    s.step (FileCall.body env) (.begin (.getSignedUrl (some fileId) none expiration)) = some s₁ →
    Desk.Run (FileCall.body env) ok s₁ s' → s'.visits s.next = some v →
    v.script ≠ .ret (.url (some u))

/-- Any tables, nothing cached and nobody there. -/
def opened (db : FileTables) (blobs : BlobStore) (clock : Int) : FileDesk where
  db
  store := ⟨fun _ => none, blobs⟩
  clock

variable {env}

theorem FileInv.opened (db : FileTables) (blobs : BlobStore) (clock : Int) :
    FileInv env db.bases (opened db blobs clock) :=
  ⟨rfl, nofun, nofun⟩

/-- A URL is returned fresh in a timely step. -/
theorem Obtained.fresh {s : FileDesk} {n : Nat} {v : FileVisit} {fileId : Option UUID}
    {file : Option FileBaseResult} {expiration : Option Int} {u : SignedUrl}
    (h : Obtained env files s v fileId file (FileService.expiryOf env expiration) u)
    (hv : s.visits n = some v) (hlabel : v.label = .getSignedUrl fileId file expiration)
    (htimely : Timely env s (.act n)) :
    FreshUrl env files s.clock fileId file (FileService.expiryOf env expiration) u := by
  cases h with
  | @found f e hf hu hscript hentry heq hlasting =>
    subst heq
    obtain ⟨hnow, hlong⟩ := (hlasting.fresh_iff s.clock (FileService.expiryOf env expiration)).mpr
      (htimely.lookup n v fileId file expiration f e rfl hv hlabel hscript hentry)
    exact ⟨⟨f, hf, hu⟩, hnow, hlong⟩
  | @signed f hf hu hsigned hseconds hprompt =>
    refine ⟨⟨f, hf, hu⟩, hprompt, ?_⟩
    unfold SignedUrl.expiresAt
    rw [hseconds]
    omega

def photo : ContentFile where
  id := 1
  originalName := "photo.png"
  key := "photos/1.png"
  storage := "azure"
  bucket := "files"
  region := ""
  contentType := some "image/png"
  extension := some ".png"
  sizeBytes := some 4
  checksumMd5 := none
  checksumSha256 := none
  status := .uploaded

def photoTables : FileTables := { files := [photo] }

def photoSettings : StorageSettings where
  container := "files"
  configured := true
  canSign := true
  signedUrlExpirySeconds := 3600

/-- `get_signed_url(file_id=1, expiration=seconds)`. -/
def photoUrl (seconds : Int) : FileCall := .getSignedUrl (some 1) none (some seconds)

/-- The blob of the file is deleted, and the row is marked. -/
example : (Desk.replay (FileCall.body photoSettings) (opened photoTables (fun _ => some []) 0)
    [.begin (.deleteFiles (fun _ => false) [1]), .act 0, .act 0, .act 0, .act 0, .act 0, .act 0,
      .finish 0]).map (fun s => s.db.files.map ContentFile.status) = some [.deleted] := rfl

/-- A minute's URL that is stored half a minute after its signing is found, and returned, a quarter
of a minute after it has expired. -/
example : ((Desk.replay (FileCall.body photoSettings) (opened photoTables (fun _ => none) 0)
    [.begin (photoUrl 60), .act 0, .act 0, .act 0, .tick 30000000, .act 0, .finish 0,
      .tick 75000000, .begin (photoUrl 60), .act 1, .act 1]).bind fun s =>
        (s.visits 1).map fun v => (s.clock, v.script.result)) =
    some (75000000, some (.ok (.url (some ⟨"files", "photos/1.png", 0, 60⟩)))) := rfl

/-- A URL for an hour is asked for; then one for a minute, up to its lookup. -/
def hourThenMinute : List (Turn FileCall) :=
  [.begin (photoUrl 3600), .act 0, .act 0, .act 0, .act 0, .begin (photoUrl 60), .act 1]

def hourUrl : SignedUrl := ⟨"files", "photos/1.png", 0, 3600⟩

/-- What the second call finds and returns. -/
theorem hour_found : ((Desk.replay (FileCall.body photoSettings)
    (opened photoTables (fun _ => none) 0) hourThenMinute).bind fun s =>
      (s.step (FileCall.body photoSettings) (.act 1)).map fun s' => (s'.clock,
        (s'.visits 1).map fun v => (v.label, v.script.result))) =
    some (0, some (photoUrl 60, some (.ok (.url (some hourUrl))))) := rfl

end NewlifeCore.Content
