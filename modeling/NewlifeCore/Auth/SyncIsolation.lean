import NewlifeCore.Auth.MicrosoftAccounts
import NewlifeCore.Txn.Batch

/-!
# What a run of the directory sync leaves

All records of a run share one transaction, and each has its own `try`.  The statistics and the
database are read off the turns of the records: which of them succeeded, what they left, and what
a statement that failed took with it.

* §1: the sync of a record is nothing but statements, taken in turn from a list
  (`syncPerson_statements` and the methods under it), so that the library's account of statements in
  one transaction applies: a statement that fails puts back all that was not committed, earlier
  records included, and the statements after it run in a new transaction.
* §2: a run that returned has committed, so that its report and its database are those of its
  records (`run_entries`).  Whether they are what the records came to each by itself depends on one
  thing: a record that fails after an earlier one has changed the database takes that change along.
  `run_isolates_iff` says so for every list and every pattern of failures.
* §3 has a run of either kind.
-/

namespace NewlifeCore.Auth

open Txn Attempt

namespace MicrosoftUserSyncService

variable (maps : CaseMaps) (tenantId : UUID)

/-! ## 1. A record is a sequence of statements -/

theorem link_statements (record : GraphUserRecord) (draw : SyncDraw) (userId : UUID) :
    Statements (link tenantId record draw userId) := .method _

theorem updateProfile_statements (record : GraphUserRecord) (userId : UUID) :
    Statements (updateProfile record userId) :=
  Statements.method (UserRepository.updateDirectoryUserProfile userId
    (profileFieldsFromGraphUser record).1 (profileFieldsFromGraphUser record).2.1
    (profileFieldsFromGraphUser record).2.2)

theorem updateUser_statements (record : GraphUserRecord) (draw : SyncDraw) (userId : UUID) :
    Statements (updateUser tenantId record draw userId) :=
  .bind (updateProfile_statements record userId) fun _ => .bind (.method _) fun _ =>
    link_statements tenantId record draw userId

theorem saveProfile_statements (record : GraphUserRecord) (userId : UUID) :
    Statements (saveProfile record userId) := by
  refine .bind (.method _) fun found => ?_
  split
  · exact updateProfile_statements record userId
  · exact Statements.method (UserRepository.createUserProfile userId
      (profileFieldsFromGraphUser record).1 (profileFieldsFromGraphUser record).2.1
      (profileFieldsFromGraphUser record).2.2)

theorem linkUser_statements (record : GraphUserRecord) (draw : SyncDraw) (userId : UUID) :
    Statements (linkUser tenantId record draw userId) :=
  .bind (saveProfile_statements record userId) fun _ => .bind (.method _) fun _ =>
    link_statements tenantId record draw userId

theorem createUser_statements (record : GraphUserRecord) (draw : SyncDraw) (email : String) :
    Statements (createUser maps tenantId record draw email) :=
  .bind (.method _) fun _ => link_statements tenantId record draw draw.newUserId

theorem syncPerson_statements (record : GraphUserRecord) (draw : SyncDraw) (email : String) :
    Statements (syncPerson maps tenantId record draw false email) := by
  refine .bind (.method _) fun linked => ?_
  cases linked with
  | some userId => exact .bind (updateUser_statements tenantId record draw userId) fun _ => .ret _
  | none =>
    refine .bind (.method _) fun found => ?_
    cases found with
    | some existing =>
      exact .bind (linkUser_statements tenantId record draw existing.id) fun _ => .ret _
    | none => exact .bind (createUser_statements maps tenantId record draw email) fun _ => .ret _

/-- The sync of a directory entry. -/
def syncEntry (item : GraphUserRecord × SyncDraw) : AuthAttempt SyncOutcome :=
  syncOne maps tenantId item.1 item.2 false

theorem syncEntry_statements (item : GraphUserRecord × SyncDraw) :
    Statements (syncEntry maps tenantId item) := by
  unfold syncEntry syncOne
  cases resolveSyncEmail maps item.1 with
  | none => exact .ret _
  | some email =>
    dsimp only
    split
    · exact .ret _
    · split
      · exact .ret _
      · exact syncPerson_statements maps tenantId item.1 item.2 email

/-! ## 2. What a run reports and leaves -/

/-- A record that came to something, counted. -/
def counted (stats : MicrosoftUserSyncStats) (_ : GraphUserRecord × SyncDraw)
    (outcome : SyncOutcome) : MicrosoftUserSyncStats :=
  { stats with totalFetched := stats.totalFetched + 1 }.count outcome

/-- A record that failed, reported. -/
def reported (stats : MicrosoftUserSyncStats) (item : GraphUserRecord × SyncDraw) (e : AuthError) :
    MicrosoftUserSyncStats :=
  { stats with totalFetched := stats.totalFetched + 1
               errors := stats.errors ++ [(item.1.objectId, e)] }

/-- **A run isolates failures**: its statistics count what the records came to, the database has
what they left, and the records are isolated from one another. -/
structure IsolatesFailures (t : Int) (w : World Db Redis)
    (xs : List (Item (GraphUserRecord × SyncDraw) AuthError)) (stats : MicrosoftUserSyncStats)
    (db : Db) : Prop where
  counts : stats = tally counted reported {} xs
    (outcomes (syncEntry maps tenantId) t w.db w.store w.db xs)
  persists : db = after (syncEntry maps tenantId) t w.db w.store w.db xs
  isolated : Isolated (syncEntry maps tenantId) t w.db w.store xs

/-- No record fails after an earlier one has changed the database. -/
def NothingLost (t : Int) (w : World Db Redis)
    (xs : List (Item (GraphUserRecord × SyncDraw) AuthError)) : Prop :=
  Unspoilt (syncEntry maps tenantId) t w.db w.store w.db xs

variable {maps tenantId} {F : Faults AuthError} {t : Int} {w : World Db Redis}
  {settings : SyncSettings} {listing : DirectoryListing} {stats : MicrosoftUserSyncStats}
  {s s' : Moment Db Redis}

/-- The records of a run, each with the faults that reach it. -/
def entries (maps : CaseMaps) (tenantId : UUID) (F : Faults AuthError) (t : Int)
    (w : World Db Redis) (listing : DirectoryListing) :
    List (Item (GraphUserRecord × SyncDraw) AuthError) :=
  arriving (syncEntry maps tenantId) F t (.start w) listing.records

/-- Reading the settings takes no step. -/
theorem tenantOf_run (settings : SyncSettings) : (tenantOf settings F t s).2 = s := by
  unfold tenantOf
  cases settings.graphConfigured with
  | false => rfl
  | true =>
    cases settings.azureTenantId with
    | none => rfl
    | some text =>
      by_cases hempty : text = ""
      · simp only [Bool.not_true, Bool.false_eq_true, if_false, if_pos hempty]
        rfl
      · simp only [Bool.not_true, Bool.false_eq_true, if_false, if_neg hempty]
        cases uuidOfText (strip text) <;> rfl

theorem syncRecord_eq (stats : MicrosoftUserSyncStats) (item : GraphUserRecord × SyncDraw) :
    syncRecord maps tenantId false stats item =
      ((syncEntry maps tenantId item).bind fun o => ret (counted stats item o)).tryCatch fun e =>
        ret (reported stats item e) := rfl

theorem commit_bind {a b : MicrosoftUserSyncStats}
    (h : ((finish false).bind fun _ => pure a : AuthAttempt MicrosoftUserSyncStats) F t s =
      (.ok b, s')) : a = b ∧ s'.db = s.work := by
  unfold Attempt.bind finish at h
  simp only [Bool.false_eq_true, if_false, commit] at h
  cases hf : F s.steps with
  | some e =>
    rw [hf] at h
    cases h
  | none =>
    rw [hf] at h
    cases h
    exact ⟨rfl, rfl⟩

/-- **A run that returned** counted what its records came to, and committed what they left. -/
theorem run_entries (h : run maps settings false listing F t (.start w) = (.ok stats, s')) :
    ∃ tenantId, tenantOf settings F t (.start w) = (.ok tenantId, .start w) ∧
      stats = tally counted reported {} (entries maps tenantId F t w listing)
        (outcomes (syncEntry maps tenantId) t w.db w.store w.db
          (entries maps tenantId F t w listing)) ∧
      s'.db = after (syncEntry maps tenantId) t w.db w.store w.db
        (entries maps tenantId F t w listing) := by
  have hstart : (tenantOf settings F t (.start w)).2 = .start w := tenantOf_run settings
  unfold run at h
  cases htenant : tenantOf settings F t (.start w) with
  | mk o s₁ =>
    rw [htenant] at hstart
    obtain rfl : s₁ = .start w := hstart
    cases o with
    | error e =>
      have := (bind_error htenant).symm.trans h
      cases this
    | ok tenantId =>
      have h := (bind_ok htenant).symm.trans h
      obtain ⟨k, hloop⟩ := foldEach_run (syncEntry_statements maps tenantId)
        (fun stats item => syncRecord_eq stats item) (F := F) (t := t) w.store listing.records {}
        (.start w)
      have h := (bind_ok hloop).symm.trans h
      refine ⟨tenantId, rfl, ?_⟩
      cases hfailure : listing.failure with
      | some e =>
        rw [hfailure] at h
        cases h
      | none =>
        rw [hfailure] at h
        have hcommit := commit_bind h
        exact ⟨hcommit.1.symm, hcommit.2⟩

/-- **When a run of the sync isolates failures**: exactly if no record fails after an earlier one
has changed the database. -/
theorem run_isolates_iff (h : run maps settings false listing F t (.start w) = (.ok stats, s')) :
    ∃ tenantId, tenantOf settings F t (.start w) = (.ok tenantId, .start w) ∧
      (IsolatesFailures maps tenantId t w (entries maps tenantId F t w listing) stats s'.db ↔
        NothingLost maps tenantId t w (entries maps tenantId F t w listing)) := by
  obtain ⟨tenantId, htenant, hstats, hdb⟩ := run_entries h
  have hisolated := isolated_iff (t := t) (c := w.db) (r := w.store)
    (syncEntry_statements maps tenantId) (entries maps tenantId F t w listing)
  exact ⟨tenantId, htenant, fun hi => hisolated.mp hi.isolated,
    fun hn => ⟨hstats, hdb, hisolated.mpr hn⟩⟩

/-! ## 3. A run that loses an account -/

/-- A configured directory. -/
def configured : SyncSettings where
  azureTenantId := some "00000000-0000-0000-0000-0000000000ff"

def member (objectId givenName : String) : GraphUserRecord where
  objectId := objectId
  email := some (givenName ++ "@efcnewlife.org")
  givenName := some givenName
  surname := some "Lee"

/-- Two new members. -/
def twoMembers : DirectoryListing where
  records := [(member "a" "ann", ⟨1, 2⟩), (member "b" "ben", ⟨3, 4⟩)]

/-- Nothing is stored. -/
def noAccounts : World Db Redis := ⟨{}, Redis.empty⟩

/-- The second statement for the first member fails. -/
def firstFails : Faults AuthError := fun n =>
  if n = 1 then some (.internal "connection lost") else none

/-- The first member fails before anything is written, and the second gets an account. -/
theorem run_isolates_iff_twoMembers : ∃ stats s',
    run .ascii configured false twoMembers firstFails 0 (.start noAccounts) = (.ok stats, s') ∧
      stats.errors.length = 1 ∧ stats.created = 1 ∧
      IsolatesFailures .ascii 255 0 noAccounts
        (entries .ascii 255 firstFails 0 noAccounts twoMembers) stats s'.db := by
  have hcounts : (run .ascii configured false twoMembers firstFails 0
      (.start noAccounts)).1.toOption.map (fun stats => (stats.errors.length, stats.created)) =
        some (1, 1) := by decide +kernel
  have hlost : NothingLost .ascii 255 0 noAccounts
      (entries .ascii 255 firstFails 0 noAccounts twoMembers) := by
    refine ⟨rfl, Unspoilt.cons_ok ?_ ?_⟩
    · decide +kernel
    · trivial
  have htenant : (tenantOf configured firstFails 0 (.start noAccounts)).1 = .ok 255 := by
    decide +kernel
  cases h : run .ascii configured false twoMembers firstFails 0 (.start noAccounts) with
  | mk o s' =>
    rw [h] at hcounts
    cases o with
    | error e => cases hcounts
    | ok stats =>
      obtain ⟨herrors, hcreated⟩ := Prod.mk.inj (Option.some.inj hcounts)
      obtain ⟨tenantId, hread, hiff⟩ := run_isolates_iff h
      rw [hread] at htenant
      obtain rfl : tenantId = 255 := Except.ok.inj htenant
      exact ⟨stats, s', rfl, herrors, hcreated, hiff.mpr hlost⟩

/-- The first statement for the second member fails. -/
def secondFails : Faults AuthError := fun n =>
  if n = 4 then some (.internal "connection lost") else none

/-- **The account of the first of two members is counted and gone.** -/
theorem run_not_isolates : ∃ stats s',
    run .ascii configured false twoMembers secondFails 0 (.start noAccounts) = (.ok stats, s') ∧
      stats.created = 1 ∧ s'.db.users = [] ∧ ¬ IsolatesFailures .ascii 255 0 noAccounts
        (entries .ascii 255 secondFails 0 noAccounts twoMembers) stats s'.db := by
  have hrun : (run .ascii configured false twoMembers secondFails 0
      (.start noAccounts)).1.toOption.map MicrosoftUserSyncStats.created = some 1 := by
    decide +kernel
  have husers : (run .ascii configured false twoMembers secondFails 0
      (.start noAccounts)).2.db.users = [] := by decide +kernel
  have hpersisted : (after (syncEntry .ascii 255) 0 {} Redis.empty {}
      (succeeded (syncEntry .ascii 255) 0 {} Redis.empty {}
        (entries .ascii 255 secondFails 0 noAccounts twoMembers))).users.length = 1 := by
    decide +kernel
  cases h : run .ascii configured false twoMembers secondFails 0 (.start noAccounts) with
  | mk o s' =>
    rw [h] at hrun husers
    cases o with
    | error e => cases hrun
    | ok stats =>
      refine ⟨stats, s', rfl, Option.some.inj hrun, husers, fun hi => ?_⟩
      have hdb := hi.persists.trans hi.isolated.persisted.symm
      have hone : s'.db.users.length = 1 :=
        (congrArg (fun d : Db => d.users.length) hdb).trans hpersisted
      rw [show s'.db.users = [] from husers] at hone
      cases hone

end MicrosoftUserSyncService

end NewlifeCore.Auth
