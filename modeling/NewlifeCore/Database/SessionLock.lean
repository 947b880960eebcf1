import NewlifeCore.SharedLock

/-!
# The lock of a session

The methods of `Session` that take its `_locker`, with every way out of them.  What the driver, the
connection pool and the callbacks answer is open; a call that is awaited may be cancelled.  The rows
that a method returns are left out.

The methods are coroutines over one lock.  `Co.Spec` says of a coroutine what it does to the lock by
each way out, whatever its calls answer, and `Shared.handled` turns the promises of the single calls
into a statement about every interleaving of them: nobody gives back a lock that another one has,
and the lock is free once all are over.  So everything comes down to the methods one by one.

* `commit`, `rollback` and `close` take the lock before the `try` whose `finally` gives it back.  A
  wait that is cancelled never gets there (`spec_acquire`), and every other way out passes the
  `finally` (`spec_finally`).
* `execute` and `_fetch` take it inside that `try`, so that the `finally` of a cancelled wait gives
  back the lock of another call (`cancelled_releases`); unless their wait is not cancelled
  (`spec_tryAcquire`).
* `_ensure_connection` gives the lock back on two of the four ways out of its `try`.  Where the
  others take no part, `Steady`, it leaves the lock as it found it (`spec_connect`); of its callers
  only `fetchvals` lets it take the lock, as it calls it without.

`lockSpared` is what is left to be asked: no cancelled wait of the two, and no lost connection or
cancellation while `fetchvals` connects.  `sessionLock_handled` has every run under it, `spared_run`
one of them, and `not_lockHandled` one outside.
-/

namespace NewlifeCore.Database

/-! ## 1. What the methods work with -/

/-- `asyncpg.InterfaceError`, any other `Exception`, and `asyncio.CancelledError`, which is none. -/
inductive PyError
  | interfaceError
  | exception
  | cancelled
deriving DecidableEq

/-- The attributes of a `Session`, of its objects whether they are there. -/
structure SessionFields where
  usePool : Bool := true
  pool : Bool := false
  conn : Bool := false
  isClosed : Bool := false
  retryCount : Nat := 0
  tx : Bool := false
  /-- The callbacks that wait for the commit, by their numbers. -/
  afterCommitCallbacks : List Nat := []

/-- `FetchMethod`. -/
inductive FetchMethod
  | fetch
  | fetchRow
  | fetchVal
deriving DecidableEq

/-- What the methods call. -/
inductive DriverCall
  | createPool
  | isClosed
  | poolAcquire
  | createConnection
  | sleep
  | transaction
  | txStart
  /-- Whether the transaction's state is STARTED. -/
  | txStarted
  | txCommit
  | txRollback
  | formatStatement
  | connExecute
  | connFetch (method : FetchMethod)
  | formatValue
  | poolRelease
  | connClose
  | callback (number : Nat)
deriving DecidableEq

/-- A flag, which most calls return without a meaning, or an error. -/
abbrev DriverAnswer := Except PyError Bool

/-- The calls that are awaited. -/
def DriverCall.awaits : DriverCall → Bool
  | .isClosed | .transaction | .txStarted | .formatStatement | .formatValue => false
  | _ => true

/-- The calls that `_ensure_connection` makes before it gives the lock back. -/
def DriverCall.connects : DriverCall → Bool
  | .createPool | .isClosed | .poolAcquire | .createConnection => true
  | _ => false

/-- Only what is awaited can be cancelled. -/
def DriverCall.Answers (c : DriverCall) (r : DriverAnswer) : Prop :=
  r = .error .cancelled → c.awaits = true

abbrev SessionCo (α : Type) := Co SessionFields DriverCall DriverAnswer PyError α

namespace SessionLock

/-- A call, with its value or its error; one on an object that is not there is an
`AttributeError`. -/
def driver (c : DriverCall) : SessionCo Bool := .call c Co.done

/-- `await self._locker.acquire()`. -/
def acquire : SessionCo Unit :=
  .acquire fun taken => if taken then .ret () else .throw .cancelled

/-- `self._locker.release()`, a `RuntimeError` when the lock is not acquired. -/
def release : SessionCo Unit :=
  .release fun locked => if locked then .ret () else .throw .exception

/-- `lock and …`. -/
def onLock (lock : Bool) (p : SessionCo Unit) : SessionCo Unit := if lock then p else pure ()

/-! ## 2. The methods -/

def ensureTransaction (lock : Bool) : SessionCo Unit := do
  onLock lock acquire
  Co.tryFinally (do
    let s ← Co.get
    if s.tx then pure ()
    else do
      let _ ← driver .transaction
      Co.update fun s => { s with tx := true }
      let _ ← driver .txStart) (onLock lock release)

/-- `self._conn is None or self._conn.is_closed()`. -/
def disconnected : SessionCo Bool := do
  let s ← Co.get
  if s.conn then driver .isClosed else pure true

/-- The `try` of `_ensure_connection`. -/
def connect : SessionCo Unit := do
  let s ← Co.get
  if s.usePool then do
    if s.pool then pure ()
    else do
      let _ ← driver .createPool
      Co.update fun s => { s with pool := true }
    if ← disconnected then do
      let _ ← driver .poolAcquire
      Co.update fun s => { s with conn := true }
  else do
    if ← disconnected then do
      let _ ← driver .createConnection
      Co.update fun s => { s with conn := true }
  Co.update fun s => { s with isClosed := false }

/-- `_ensure_connection`, which calls itself as deep as the interpreter lets it. -/
def ensureConnection : Nat → Bool → SessionCo Unit
  | 0, _ => .throw .exception
  | depth + 1, lock => do
    onLock lock acquire
    connect.attempt fun
      | .ok _ => onLock lock release
      | .error .interfaceError => do
        Co.update fun s => { s with conn := false, pool := false, retryCount := s.retryCount + 1 }
        let s ← Co.get
        if 1800 < s.retryCount then .throw .interfaceError
        else do
          let _ ← driver .sleep
          ensureConnection depth false
      | .error .exception => do
        onLock lock release
        .throw .exception
      | .error .cancelled => .throw .cancelled

def rollback (lock : Bool) : SessionCo Unit := do
  onLock lock acquire
  Co.update fun s => { s with afterCommitCallbacks := [] }
  Co.tryFinally (do
    let s ← Co.get
    if s.tx then do
      if ← driver .txStarted then do
        let _ ← driver .txRollback
        Co.update fun s => { s with tx := false }) (onLock lock release)

/-- `except Exception: await self.rollback(False); raise`. -/
def rollBackAndRaise {α : Type} (e : PyError) : SessionCo α :=
  if e = .cancelled then .throw e
  else do
    rollback false
    .throw e

def execute (depth : Nat) : SessionCo Unit :=
  Co.tryFinally (Co.tryExcept (do
    acquire
    ensureConnection depth false
    ensureTransaction false
    let _ ← driver .formatStatement
    let _ ← driver .connExecute) rollBackAndRaise) release

/-- `_fetch`. -/
def fetch (depth : Nat) (method : FetchMethod) : SessionCo Unit :=
  Co.tryFinally (Co.tryExcept (do
    acquire
    let _ ← driver .formatStatement
    ensureConnection depth false
    let _ ← driver (.connFetch method)
    let _ ← driver .formatValue) rollBackAndRaise) release

def fetchvals (depth : Nat) : SessionCo Unit := do
  let _ ← driver .formatStatement
  ensureConnection depth true
  let _ ← driver (.connFetch .fetch)
  let _ ← driver .formatValue

/-- An `Exception` of a callback is logged, and the next one runs. -/
def runCallbacks : List Nat → SessionCo Unit
  | [] => pure ()
  | number :: numbers => do
    Co.tryExcept (do let _ ← driver (.callback number))
      fun e => if e = .cancelled then .throw e else pure ()
    runCallbacks numbers

def commit : SessionCo Unit := do
  acquire
  let returned ← Co.tryFinally (do
    let s ← Co.get
    if s.tx then do
      if ← driver .txStarted then do
        let _ ← driver .txCommit
        Co.update fun s => { s with tx := false }
        pure false
      else do
        Co.update fun s => { s with afterCommitCallbacks := [] }
        pure true
    else pure false) release
  if returned then pure ()
  else do
    let s ← Co.get
    Co.update fun s => { s with afterCommitCallbacks := [] }
    runCallbacks s.afterCommitCallbacks

def close (lock : Bool) : SessionCo Unit := do
  onLock lock acquire
  Co.tryFinally (do
    let s ← Co.get
    if s.isClosed then pure ()
    else do
      rollback false
      let s ← Co.get
      if s.usePool then do
        if s.pool && s.conn then do let _ ← driver .poolRelease
      else do
        if s.conn then do let _ ← driver .connClose
      Co.update fun s => { s with conn := false, isClosed := true }) (onLock lock release)

end SessionLock

/-- The methods that are called from outside. -/
inductive SessionCall
  | execute
  | fetch
  | fetchrow
  | fetchval
  | fetchvals
  | commit
  | rollback
  | close
deriving DecidableEq

open SessionLock in
/-- What runs a call; `depth` is how deep the interpreter lets calls be nested. -/
def SessionCall.body (depth : Nat) : SessionCall → SessionCo Unit
  | .execute => SessionLock.execute depth
  | .fetch => SessionLock.fetch depth .fetch
  | .fetchrow => SessionLock.fetch depth .fetchRow
  | .fetchval => SessionLock.fetch depth .fetchVal
  | .fetchvals => SessionLock.fetchvals depth
  | .commit => SessionLock.commit
  | .rollback => SessionLock.rollback true
  | .close => SessionLock.close true

/-! ## 3. What the methods promise -/

namespace SessionLock

variable {α β : Type} {R : Co.Limits DriverCall DriverAnswer} {Q : Except PyError α → Bool → Prop}

/-! ### 3.1 Those that leave the lock alone -/

theorem lockFree_driver (c : DriverCall) : Co.LockFree (driver c) := by
  intro r
  cases r <;> trivial

theorem lockFree_ensureTransaction : Co.LockFree (ensureTransaction false) := by
  unfold ensureTransaction
  refine .bind (.ret ()) fun _ => .tryFinally (.bind .get fun s => .ite (.ret ()) ?_) (.ret ())
  exact .bind (lockFree_driver _) fun _ => .bind (.update _) fun _ =>
    .bind (lockFree_driver _) fun _ => .ret ()

theorem lockFree_disconnected : Co.LockFree disconnected :=
  .bind .get fun _ => .ite (lockFree_driver _) (.ret _)

theorem lockFree_connect : Co.LockFree connect := by
  have hset : ∀ c, Co.LockFree (do
      if ← disconnected then do
        let _ ← driver c
        Co.update fun s : SessionFields => { s with conn := true }
      Co.update fun s => { s with isClosed := false } : SessionCo Unit) := by
    intro c
    refine .bind lockFree_disconnected fun _ => .ite ?_ (.update _)
    exact .bind (lockFree_driver _) fun _ => .bind (.update _) fun _ => .update _
  unfold connect
  refine .bind .get fun s => .ite (.ite (hset _) ?_) (hset _)
  exact .bind (lockFree_driver _) fun _ => .bind (.update _) fun _ => hset _

/-- What `_ensure_connection` does about a lost connection, but for the next try. -/
theorem lockFree_reconnect {next : SessionCo Unit} (hnext : Co.LockFree next) : Co.LockFree (do
    Co.update fun s => { s with conn := false, pool := false, retryCount := s.retryCount + 1 }
    let s ← Co.get
    if 1800 < s.retryCount then .throw .interfaceError
    else do
      let _ ← driver .sleep
      next : SessionCo Unit) :=
  .bind (.update _) fun _ => .bind .get fun _ =>
    .ite (.throw _) (.bind (lockFree_driver _) fun _ => hnext)

theorem lockFree_ensureConnection : ∀ depth, Co.LockFree (ensureConnection depth false)
  | 0 => .throw _
  | depth + 1 => by
    refine .bind (.ret ()) fun _ => .attempt (fun r => ?_) lockFree_connect
    match r with
    | .ok _ => exact .ret ()
    | .error .interfaceError => exact lockFree_reconnect (lockFree_ensureConnection depth)
    | .error .exception => exact .bind (.ret ()) fun _ => .throw _
    | .error .cancelled => exact .throw _

theorem lockFree_rollback : Co.LockFree (rollback false) := by
  unfold rollback
  refine .bind (.ret ()) fun _ => .bind (.update _) fun _ => .tryFinally ?_ (.ret ())
  refine .bind .get fun s => .ite (.bind (lockFree_driver _) fun _ => .ite ?_ (.ret ())) (.ret ())
  exact .bind (lockFree_driver _) fun _ => .update _

theorem lockFree_rollBackAndRaise (e : PyError) :
    Co.LockFree (rollBackAndRaise e : SessionCo α) := by
  unfold rollBackAndRaise
  exact .ite (.throw _) (.bind lockFree_rollback fun _ => .throw _)

theorem lockFree_runCallbacks : ∀ numbers, Co.LockFree (runCallbacks numbers)
  | [] => .ret ()
  | number :: numbers => by
    refine .bind (.tryExcept ?_ fun e => .ite (.throw _) (.ret ())) fun _ =>
      lockFree_runCallbacks numbers
    exact .bind (lockFree_driver _) fun _ => .ret ()

/-! ### 3.2 Those that take it -/

open Shared (Released)

/-- The lock is taken, or the wait for it cancelled. -/
theorem spec_acquire {f : Unit → SessionCo α} (hf : Co.Spec R Q (f ()) true)
    (hcancels : R.cancels → Q (.error .cancelled) false) : Co.Spec R Q (acquire.bind f) false :=
  ⟨rfl, hf, hcancels⟩

/-- **What has the lock at the end of its `try` gives it back.** -/
theorem spec_finally {p : SessionCo α} {held : Bool} (hp : Co.Spec R (fun _ h => h = true) p held) :
    Co.Spec R Released (p.tryFinally release) held := by
  refine .tryFinally hp fun r held hheld => ?_
  subst hheld
  exact ⟨rfl, rfl⟩

theorem spec_rollback : Co.Spec R Released (rollback true) false := by
  refine spec_acquire ?_ fun _ => rfl
  refine spec_finally (.of_lockFree ?_)
  refine .bind .get fun s => .ite (.bind (lockFree_driver _) fun _ => .ite ?_ (.ret ())) (.ret ())
  exact .bind (lockFree_driver _) fun _ => .update _

theorem spec_close : Co.Spec R Released (close true) false := by
  refine spec_acquire ?_ fun _ => rfl
  refine spec_finally (.of_lockFree ?_)
  have hcall : ∀ c (present : Prop) [Decidable present], Co.LockFree (do
      if present then do let _ ← driver c
      Co.update fun s => { s with conn := false, isClosed := true } : SessionCo Unit) := by
    intro c present _
    exact .ite (.bind (lockFree_driver _) fun _ => .update _) (.update _)
  refine .bind .get fun s => .ite (.ret ()) (.bind lockFree_rollback fun _ => ?_)
  exact .bind .get fun s => .ite (hcall _ _) (hcall _ _)

theorem spec_commit : Co.Spec R Released commit false := by
  refine spec_acquire ?_ fun _ => rfl
  refine .bind (spec_finally (.of_lockFree ?_)) (fun returned held hheld => ?_) fun _ _ h => h
  · refine .bind .get fun s => .ite (.bind (lockFree_driver _) fun _ => .ite ?_ ?_) (.ret _)
    · exact .bind (lockFree_driver _) fun _ => .bind (.update _) fun _ => .ret _
    · exact .bind (.update _) fun _ => .ret _
  · obtain rfl : held = false := hheld
    refine .of_lockFree (.ite (.ret ()) (.bind .get fun s => .bind (.update _) fun _ => ?_))
    exact lockFree_runCallbacks s.afterCommitCallbacks

/-- **A method that takes the lock inside its `try`** gives it back, if its wait for the lock is not
cancelled. -/
theorem spec_tryAcquire (hcancels : ¬ R.cancels) {p : Unit → SessionCo α}
    (hp : Co.LockFree (p ())) : Co.Spec R Released
      (Co.tryFinally (Co.tryExcept (acquire.bind p) rollBackAndRaise) release) false := by
  refine spec_finally
    (.tryExcept (Q := fun _ h => h = true) ?_ (fun _ _ h => h) fun e held hheld => ?_)
  · exact spec_acquire (.of_lockFree hp) fun h => absurd h hcancels
  · subst hheld
    exact .of_lockFree (lockFree_rollBackAndRaise e)

theorem spec_execute (hcancels : ¬ R.cancels) (depth : Nat) :
    Co.Spec R Released (execute depth) false := by
  refine spec_tryAcquire hcancels (.bind (lockFree_ensureConnection depth) fun _ => ?_)
  exact .bind lockFree_ensureTransaction fun _ => .bind (lockFree_driver _) fun _ =>
    .bind (lockFree_driver _) fun _ => .ret ()

theorem spec_fetch (hcancels : ¬ R.cancels) (depth : Nat) (method : FetchMethod) :
    Co.Spec R Released (fetch depth method) false := by
  refine spec_tryAcquire hcancels (.bind (lockFree_driver _) fun _ => ?_)
  exact .bind (lockFree_ensureConnection depth) fun _ => .bind (lockFree_driver _) fun _ =>
    .bind (lockFree_driver _) fun _ => .ret ()

/-- The lock is held, and the error, if there is one, is an ordinary exception. -/
def Steady (r : Except PyError α) (held : Bool) : Prop :=
  held = true ∧ ∀ e, r = .error e → e = .exception

theorem spec_steady_bind {p : SessionCo α} {f : α → SessionCo β} (hp : Co.Spec R Steady p true)
    (hf : ∀ a, Co.Spec R Steady (f a) true) : Co.Spec R Steady (p.bind f) true := by
  refine .bind hp (fun a held ha => ?_) fun e held he => ⟨he.1, fun e' h => ?_⟩
  · obtain rfl : held = true := ha.1
    exact hf a
  · exact he.2 e' (by cases h; rfl)

theorem spec_steady_ite {c : Prop} [Decidable c] {p q : SessionCo α}
    (hp : Co.Spec R Steady p true) (hq : Co.Spec R Steady q true) :
    Co.Spec R Steady (if c then p else q) true := by
  split
  · exact hp
  · exact hq

theorem spec_steady_driver {c : DriverCall}
    (hanswers : ∀ r, R.answers c r → r ≠ .error .interfaceError ∧ r ≠ .error .cancelled) :
    Co.Spec R Steady (driver c) true := by
  intro r hr
  obtain ⟨hinterface, hcancelled⟩ := hanswers r hr
  match r with
  | .ok b => exact ⟨rfl, nofun⟩
  | .error .exception => exact ⟨rfl, fun e h => by cases h; rfl⟩
  | .error .interfaceError => exact absurd rfl hinterface
  | .error .cancelled => exact absurd rfl hcancelled

theorem spec_connect (hanswers : ∀ c, c.connects = true → ∀ r, R.answers c r →
      r ≠ .error .interfaceError ∧ r ≠ .error .cancelled) : Co.Spec R Steady connect true := by
  have hget : Co.Spec R Steady (Co.get : SessionCo SessionFields) true := fun s => ⟨rfl, nofun⟩
  have hupdate : ∀ f, Co.Spec R Steady (Co.update f : SessionCo Unit) true := fun f => ⟨rfl, nofun⟩
  have hdisconnected : Co.Spec R Steady disconnected true :=
    spec_steady_bind hget fun _ =>
      spec_steady_ite (spec_steady_driver (hanswers _ rfl)) ⟨rfl, nofun⟩
  have hset : ∀ c, c.connects = true → Co.Spec R Steady (do
      if ← disconnected then do
        let _ ← driver c
        Co.update fun s : SessionFields => { s with conn := true }
      Co.update fun s => { s with isClosed := false } : SessionCo Unit) true := by
    intro c hc
    refine spec_steady_bind hdisconnected fun _ => spec_steady_ite ?_ (hupdate _)
    exact spec_steady_bind (spec_steady_driver (hanswers c hc)) fun _ =>
      spec_steady_bind (hupdate _) fun _ => hupdate _
  unfold connect
  refine spec_steady_bind hget fun s =>
    spec_steady_ite (spec_steady_ite (hset _ rfl) ?_) (hset _ rfl)
  exact spec_steady_bind (spec_steady_driver (hanswers _ rfl)) fun _ =>
    spec_steady_bind (hupdate _) fun _ => hset _ rfl

/-- **`_ensure_connection` gives the lock back** unless the connection is lost, or the call
cancelled, while it connects. -/
theorem spec_ensureConnection (hanswers : ∀ c, c.connects = true → ∀ r, R.answers c r →
      r ≠ .error .interfaceError ∧ r ≠ .error .cancelled) :
    ∀ depth, Co.Spec R Released (ensureConnection depth true) false
  | 0 => rfl
  | depth + 1 => by
    refine spec_acquire (.attempt (fun r held hr => ?_) (spec_connect hanswers)) fun _ => rfl
    obtain ⟨rfl, hordinary⟩ := hr
    match r with
    | .ok _ => exact ⟨rfl, rfl⟩
    | .error .exception => exact ⟨rfl, rfl⟩
    | .error .interfaceError => cases hordinary _ rfl
    | .error .cancelled => cases hordinary _ rfl

theorem spec_fetchvals (hanswers : ∀ c, c.connects = true → ∀ r, R.answers c r →
      r ≠ .error .interfaceError ∧ r ≠ .error .cancelled) (depth : Nat) :
    Co.Spec R Released (fetchvals depth) false := by
  refine .bind (.of_lockFree (lockFree_driver _)) (fun _ held hheld => ?_) fun _ _ h => h
  obtain rfl : held = false := hheld
  refine .bind (spec_ensureConnection hanswers depth) (fun _ held hheld => ?_) fun _ _ h => h
  obtain rfl : held = false := hheld
  exact .of_lockFree (.bind (lockFree_driver _) fun _ => .bind (lockFree_driver _) fun _ => .ret ())

end SessionLock

/-! ## 4. Calls side by side -/

/-- The calls that take the lock inside the `try` whose `finally` gives it back. -/
def SessionCall.triesToAcquire : SessionCall → Bool
  | .execute | .fetch | .fetchrow | .fetchval => true
  | _ => false

/-- Whatever can happen to a call. -/
def anyOutcome (_ : SessionCall) : Co.Limits DriverCall DriverAnswer where
  answers := DriverCall.Answers
  cancels := True

/-- **The lock is spared**: a call that takes it inside its `try` is not cancelled while it waits,
and `fetchvals` neither loses the connection nor is cancelled while it connects. -/
def lockSpared (call : SessionCall) : Co.Limits DriverCall DriverAnswer where
  answers c r := c.Answers r ∧ (call = .fetchvals → c.connects = true →
    r ≠ .error .interfaceError ∧ r ≠ .error .cancelled)
  cancels := call.triesToAcquire = false

theorem not_cancels {call : SessionCall} (h : call.triesToAcquire = true) :
    ¬ (lockSpared call).cancels := fun hc => by cases h.symm.trans hc

theorem spec_body (depth : Nat) (call : SessionCall) :
    Co.Spec (lockSpared call) Shared.Released (call.body depth) false := by
  cases call with
  | execute => exact SessionLock.spec_execute (not_cancels rfl) depth
  | fetch => exact SessionLock.spec_fetch (not_cancels rfl) depth _
  | fetchrow => exact SessionLock.spec_fetch (not_cancels rfl) depth _
  | fetchval => exact SessionLock.spec_fetch (not_cancels rfl) depth _
  | fetchvals =>
    refine SessionLock.spec_fetchvals (fun c hc r hr => ?_) depth
    obtain ⟨-, hspared⟩ : c.Answers r ∧ _ := hr
    exact hspared rfl hc
  | commit => exact SessionLock.spec_commit
  | rollback => exact SessionLock.spec_rollback
  | close => exact SessionLock.spec_close

/-- **The lock of a session is handled correctly as long as it is spared.** -/
theorem sessionLock_handled (depth : Nat) (fields : SessionFields) :
    Shared.Handled (SessionCall.body depth) (Shared.Within lockSpared) { fields } := by
  refine Shared.handled (spec_body depth) (fun call c => ?_) fields
  exact ⟨.ok true, nofun, fun _ _ => ⟨nofun, nofun⟩⟩

/-! ### 4.1 A lost connection -/

instance decidableAnswers (c : DriverCall) (r : DriverAnswer) : Decidable (c.Answers r) :=
  inferInstanceAs (Decidable (r = .error .cancelled → c.awaits = true))

instance decidableSpared (call : SessionCall) (c : DriverCall) (r : DriverAnswer) :
    Decidable ((lockSpared call).answers c r) :=
  inferInstanceAs (Decidable (c.Answers r ∧ (call = .fetchvals → c.connects = true →
    r ≠ .error .interfaceError ∧ r ≠ .error .cancelled)))

instance decidableCancels (call : SessionCall) : Decidable (lockSpared call).cancels :=
  inferInstanceAs (Decidable (call.triesToAcquire = false))

/-- Two calls wait while a statement loses its connection and gets another; the one that is next is
cancelled, and the other has its turn. -/
def reconnected : List (Shared.Move SessionCall DriverAnswer) :=
  let ok (n : Nat) := .answer n (.ok true)
  [.begin .execute, .run 0, .run 0, .begin .commit, .begin .rollback, .run 1, .run 2,
    .answer 0 (.error .interfaceError), .cancel 1, .finish 1, .run 0, .run 0, ok 0, .run 0, ok 0,
    .run 0, .run 0, ok 0, .run 0, .run 0, .run 0, ok 0, .run 0, ok 0, ok 0, ok 0, .run 0, .finish 0,
    .run 2, .run 2, .run 2, ok 2, ok 2, .run 2, .run 2, .finish 2]

/-- **The lock is spared, and free in the end.** -/
theorem spared_run (depth : Nat) : ∃ s, Shared.Run (SessionCall.body (depth + 2))
    (Shared.Within lockSpared) { fields := {} } s ∧ s.holder = none ∧ s.waiters = [] ∧
      s.fields.retryCount = 1 ∧ s.fields.conn = true ∧ s.fields.tx = false := by
  have hreplay : (Shared.checkedReplay (SessionCall.body (depth + 2)) (Shared.Within lockSpared)
      { fields := {} } reconnected).map (fun s => (s.holder, s.waiters, s.fields.retryCount,
        s.fields.conn, s.fields.tx)) = some (none, [], 1, true, false) := rfl
  obtain ⟨s, hs, hfacts⟩ := Option.map_eq_some_iff.mp hreplay
  simp only [Prod.mk.injEq] at hfacts
  exact ⟨s, .of_checkedReplay .refl hs, hfacts⟩

/-! ### 4.2 A wait that is cancelled -/

/-- A statement has the lock and waits for its connection; another one waits for the lock, and is
cancelled. -/
def cancelledWait : List (Shared.Move SessionCall DriverAnswer) :=
  [.begin .execute, .run 0, .run 0, .begin .execute, .run 1, .cancel 1]

/-- The second statement is about to give back the lock of the first. -/
theorem cancelled_releases (depth : Nat) :
    (Shared.replay (SessionCall.body (depth + 1)) { fields := {} } cancelledWait).map (fun s =>
      (s.holder, (s.tasks 1).map fun t => t.co.releasing)) = some (some 0, some true) := rfl

theorem not_lockHandled :
    ¬ Shared.Handled (SessionCall.body 1000) (Shared.Within anyOutcome) { fields := {} } := by
  intro h
  obtain ⟨s, hs, hfacts⟩ := Option.map_eq_some_iff.mp (cancelled_releases 999)
  obtain ⟨hholder, htask⟩ := Prod.mk.inj hfacts
  obtain ⟨t, ht, hreleasing⟩ := Option.map_eq_some_iff.mp htask
  have hrun : Shared.Run (SessionCall.body 1000) (Shared.Within anyOutcome) { fields := {} } s := by
    refine .of_replay (fun a ha s n t ht => ⟨fun r c k hr => ?_, fun _ => trivial⟩) .refl hs
    simp [cancelledWait, hr] at ha
  have hown := h.releases s 1 t hrun ht hreleasing
  rw [hholder] at hown
  cases hown

/-- The connection is lost once: `fetchvals` returns, and has the lock for good. -/
example (depth : Nat) : (Shared.replay (SessionCall.body (depth + 2)) { fields := {} }
    [.begin .fetchvals, .answer 0 (.ok true), .run 0, .run 0, .answer 0 (.error .interfaceError),
      .run 0, .run 0, .answer 0 (.ok true), .run 0, .answer 0 (.ok true), .run 0, .run 0,
      .answer 0 (.ok true), .run 0, .run 0, .answer 0 (.ok true), .answer 0 (.ok true)]).map
    (fun s => (s.holder, (s.tasks 0).map fun t => t.co.ended)) = some (some 0, some true) := rfl

end NewlifeCore.Database
