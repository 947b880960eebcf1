import Mathlib.Data.List.Basic
import Mathlib.Data.List.Pairwise

/-!
# The database session

`Session` of `aio_orm.py`: a connection, the transaction that its first writing statement opens, and
the callbacks that wait for the commit.  Each operation is told which of its round trips fail.
Transactions and callbacks are numbered so that a history can be read off the end of a run.

Three things make the session less simple than a transaction.

* `_tx` is let go only by a COMMIT or ROLLBACK that succeeds.  A transaction whose BEGIN, COMMIT or
  ROLLBACK has failed stays held, and the statements that follow commit by themselves.
* `_ensure_connection` replaces a connection that is closed and leaves `_tx` as it is.  The program
  notices the loss once it has waited for something else; from then on the transaction it holds is
  one of a dead connection, its statements commit by themselves on the new one, and its COMMIT or
  ROLLBACK raises.
* `fetchvals` alone rolls nothing back when it fails, and leaves a transaction the server has given
  up.

`Session.Alone` says that a statement would commit by itself.  What the operations do to what is
durable is stated once, for a session without callbacks, in part 4.
-/

namespace NewlifeCore.Database

/-! ## 1. Statements -/

/-- A transaction that `_tx` holds: it runs; or it runs but the server has given it up, after a
statement that nothing was rolled back for; or its connection is lost, and the statements go to the
one in its place; or its BEGIN, COMMIT or ROLLBACK has failed. -/
inductive TransactionState
  | started
  | aborted
  | orphaned
  | failed
deriving DecidableEq

/-- Where a statement fails: on the way to a connection, at the BEGIN it needs, or by itself. -/
inductive Place
  | connection
  | begin_
  | statement
deriving DecidableEq

/-- How a statement ends, and the rollback of one that fails. -/
inductive Fate
  | done
  | fails (place : Place) (rollsBack : Bool)
deriving DecidableEq

/-- A call of `execute`, with what it writes, or of `fetch`, `fetchrow` or `fetchval`; or, before
one, the loss of the connection while the program waited for something else. -/
inductive Statement (W : Type)
  | execute (w : W) (fate : Fate)
  | fetch (fate : Fate)
  | lost
deriving DecidableEq

/-- A callback: the statements it makes, and whether it raises. -/
structure Callback (W : Type) where
  statements : List (Statement W) := []
  raises : Bool := false
deriving DecidableEq

inductive Outcome
  | returned
  | raised
deriving DecidableEq

/-- **A session and what it has done.**  `number` is the number of the current transaction, the one
it holds or else the next it opens; `registered` has the transaction of each callback. -/
structure Session (W : Type) where
  tx : Option TransactionState := none
  afterCommitCallbacks : List (Nat × Callback W) := []
  pending : List W := []
  durable : List W := []
  number : Nat := 0
  registered : List Nat := []
  committed : List Nat := []
  ran : List Nat := []
deriving DecidableEq

namespace Session

variable {W : Type}

/-- The session holds no transaction any more. -/
def ended (s : Session W) : Session W := { s with tx := none, pending := [], number := s.number + 1 }

/-- The transaction it holds has failed. -/
def broken (s : Session W) : Session W := { s with tx := some .failed, pending := [] }

/-- `rollback`. -/
def rollback (rollsBack : Bool) (s : Session W) : Outcome × Session W :=
  let s := { s with afterCommitCallbacks := [] }
  match s.tx with
  | none => (.returned, s.ended)
  -- only a transaction that has started is rolled back and let go
  | some .failed => (.returned, s)
  -- the ROLLBACK goes to the connection that is lost
  | some .orphaned => (.raised, s.broken)
  | some _ => if rollsBack then (.returned, s.ended) else (.raised, s.broken)

/-- `_ensure_transaction`. -/
def ensureTransaction (s : Session W) : Session W :=
  match s.tx with
  | none => { s with tx := some .started }
  | some _ => s

/-- `_ensure_connection` finds the connection closed: the server has dropped what was pending, and
`_tx` is still held. -/
def lose (s : Session W) : Session W :=
  match s.tx with
  | some .started => { s with tx := some .orphaned, pending := [] }
  | some .aborted => { s with tx := some .orphaned, pending := [] }
  | _ => s

/-- The statements of the session commit by themselves. -/
def Alone (s : Session W) : Prop := s.tx = some .failed ∨ s.tx = some .orphaned

instance (s : Session W) : Decidable s.Alone := by unfold Alone; infer_instance

/-- Outside a running transaction a statement commits by itself. -/
def write (w : W) (s : Session W) : Session W :=
  match s.tx with
  | some .started => { s with pending := s.pending ++ [w] }
  | _ => { s with durable := s.durable ++ [w] }

/-- The server refuses every statement of a transaction that it has given up. -/
def fateOf (fate : Fate) (s : Session W) : Fate :=
  match s.tx, fate with
  | some .aborted, .done => .fails .statement true
  | _, fate => fate

/-- How far `execute` gets before it fails. -/
def reached (place : Place) (s : Session W) : Session W :=
  match place, s.tx with
  | .connection, _ => s
  | .begin_, none => s.broken
  | _, _ => s.ensureTransaction

def execute (w : W) (fate : Fate) (s : Session W) : Outcome × Session W :=
  match s.fateOf fate with
  | .done => (.returned, s.ensureTransaction.write w)
  | .fails place rollsBack => (.raised, ((s.reached place).rollback rollsBack).2)

/-- A SELECT opens no transaction. -/
def fetch (fate : Fate) (s : Session W) : Outcome × Session W :=
  match s.fateOf fate with
  | .done => (.returned, s)
  | .fails _ rollsBack => (.raised, (s.rollback rollsBack).2)

/-- The one SELECT that rolls nothing back. -/
def fetchvals (fate : Fate) (s : Session W) : Outcome × Session W :=
  match s.fateOf fate with
  | .done => (.returned, s)
  | .fails _ _ =>
    match s.tx with
    | some .started => (.raised, { s with tx := some .aborted, pending := [] })
    | _ => (.raised, s)

def statement : Statement W → Session W → Outcome × Session W
  | .execute w fate, s => s.execute w fate
  | .fetch fate, s => s.fetch fate
  | .lost, s => (.returned, s.lose)

def statements (xs : List (Statement W)) (s : Session W) : Session W :=
  xs.foldl (fun s x => (statement x s).2) s

/-! ## 2. Callbacks -/

/-- `add_after_commit`. -/
def addAfterCommit (c : Callback W) (s : Session W) : Session W :=
  { s with
    afterCommitCallbacks := s.afterCommitCallbacks ++ [(s.registered.length, c)]
    registered := s.registered ++ [s.number] }

/-- `await callback()`. -/
def call (c : Nat × Callback W) (s : Session W) : Outcome × Session W :=
  (if c.2.raises then .raised else .returned,
    statements c.2.statements { s with ran := s.ran ++ [c.1] })

/-- The loop of `commit`, which logs what a callback raises. -/
def callEach : List (Nat × Callback W) → Session W → Session W
  | [], s => s
  | c :: cs, s =>
    match s.call c with
    | (.returned, s') => callEach cs s'
    | (.raised, s') => callEach cs s'

def runCallbacks (s : Session W) : Session W :=
  callEach s.afterCommitCallbacks { s with afterCommitCallbacks := [] }

/-- What the server keeps of a transaction it commits. -/
def kept (s : Session W) : Session W :=
  { s.ended with durable := s.durable ++ s.pending, committed := s.committed ++ [s.number] }

/-- `commit`. -/
def commit (commits : Bool) (s : Session W) : Outcome × Session W :=
  match s.tx with
  | none => (.returned, s.kept.runCallbacks)
  | some .started => if commits then (.returned, s.kept.runCallbacks) else (.raised, s.broken)
  -- the server answers the COMMIT of a transaction it has given up with a rollback
  | some .aborted => if commits then (.returned, s.ended.runCallbacks) else (.raised, s.broken)
  -- the COMMIT goes to the connection that is lost
  | some .orphaned => (.raised, s.broken)
  | some .failed => (.returned, { s with afterCommitCallbacks := [] })

end Session

/-! ## 3. Runs -/

/-- A call of a session's method. -/
inductive Op (W : Type)
  | statement (x : Statement W)
  | addAfterCommit (c : Callback W)
  | commit (commits : Bool)
  | rollback (rollsBack : Bool)
deriving DecidableEq

variable {W : Type}

def Op.run : Op W → Session W → Outcome × Session W
  | .statement x, s => Session.statement x s
  | .addAfterCommit c, s => (.returned, s.addAfterCommit c)
  | .commit commits, s => s.commit commits
  | .rollback rollsBack, s => s.rollback rollsBack

/-- **Any sequence of calls**, whatever they raise, with what each came to. -/
def runAll : List (Op W) → Session W → List Outcome × Session W
  | [], s => ([], s)
  | op :: ops, s =>
    match op.run s with
    | (o, s') =>
      match runAll ops s' with
      | (os, s'') => (o :: os, s'')

/-! ## 4. What a call makes durable -/

namespace Session

/-- A session without callbacks, with writes pending in a running transaction only. -/
structure Settled (s : Session W) : Prop where
  callbacks : s.afterCommitCallbacks = []
  pending : s.tx ≠ some .started → s.pending = []

variable {s : Session W}

theorem Settled.start : ({} : Session W).Settled := ⟨rfl, fun _ => rfl⟩

theorem Settled.runCallbacks (hs : s.Settled) : s.runCallbacks = s := by
  rw [Session.runCallbacks, hs.callbacks]
  change { s with afterCommitCallbacks := [] } = s
  rw [← hs.callbacks]

theorem Settled.ended (hs : s.Settled) : s.ended.Settled := ⟨hs.callbacks, fun _ => rfl⟩

theorem Settled.broken (hs : s.Settled) : s.broken.Settled := ⟨hs.callbacks, fun _ => rfl⟩

theorem Settled.rollback (hs : s.Settled) (rollsBack : Bool) :
    (s.rollback rollsBack).2.Settled ∧ (s.rollback rollsBack).2.durable = s.durable := by
  have hcleared : { s with afterCommitCallbacks := [] } = s := by rw [← hs.callbacks]
  unfold Session.rollback
  simp only [hcleared]
  cases htx : s.tx with
  | none => exact ⟨hs.ended, rfl⟩
  | some state =>
    cases state with
    | failed => exact ⟨hs, rfl⟩
    | orphaned => exact ⟨hs.broken, rfl⟩
    | started =>
      cases rollsBack
      · exact ⟨hs.broken, rfl⟩
      · exact ⟨hs.ended, rfl⟩
    | aborted =>
      cases rollsBack
      · exact ⟨hs.broken, rfl⟩
      · exact ⟨hs.ended, rfl⟩

theorem Settled.lose (hs : s.Settled) : s.lose.Settled ∧ s.lose.durable = s.durable := by
  unfold Session.lose
  split
  · exact ⟨⟨hs.callbacks, fun _ => rfl⟩, rfl⟩
  · exact ⟨⟨hs.callbacks, fun _ => rfl⟩, rfl⟩
  · exact ⟨hs, rfl⟩

theorem Settled.kept (hs : s.Settled) : s.kept.Settled := ⟨hs.callbacks, fun _ => rfl⟩

/-- A commit makes durable what is pending in a running transaction. -/
theorem Settled.commit (hs : s.Settled) (commits : Bool) :
    (s.commit commits).2.Settled ∧
      (s.commit commits).2.durable =
        if commits = true ∧ s.tx = some .started then s.durable ++ s.pending else s.durable := by
  unfold Session.commit
  cases htx : s.tx with
  | none =>
    have hnone : s.pending = [] := hs.pending (by rw [htx]; nofun)
    simp only [hs.kept.runCallbacks, reduceCtorEq, and_false, if_false]
    exact ⟨hs.kept, by simp only [Session.kept, hnone, List.append_nil]⟩
  | some state =>
    cases state with
    | failed =>
      simp only [Option.some.injEq, reduceCtorEq, and_false, if_false]
      exact ⟨⟨rfl, fun _ => hs.pending (by rw [htx]; nofun)⟩, trivial⟩
    | orphaned =>
      simp only [Option.some.injEq, reduceCtorEq, and_false, if_false]
      exact ⟨hs.broken, rfl⟩
    | started =>
      cases commits
      · exact ⟨hs.broken, rfl⟩
      · simp only [if_true, hs.kept.runCallbacks, and_self]
        exact ⟨hs.kept, rfl⟩
    | aborted =>
      simp only [Option.some.injEq, reduceCtorEq, and_false, if_false]
      cases commits
      · exact ⟨hs.broken, rfl⟩
      · simp only [if_true, hs.ended.runCallbacks]
        exact ⟨hs.ended, rfl⟩

theorem Settled.ensureTransaction (hs : s.Settled) :
    s.ensureTransaction.Settled ∧ s.ensureTransaction.durable = s.durable := by
  unfold Session.ensureTransaction
  cases htx : s.tx with
  | none => exact ⟨⟨hs.callbacks, fun h => absurd rfl h⟩, rfl⟩
  | some state => exact ⟨hs, rfl⟩

theorem Settled.reached (hs : s.Settled) (place : Place) :
    (s.reached place).Settled ∧ (s.reached place).durable = s.durable := by
  unfold Session.reached
  split
  · exact ⟨hs, rfl⟩
  · exact ⟨hs.broken, rfl⟩
  · exact hs.ensureTransaction

/-- A write that succeeds waits for the commit, unless the session's statements commit by
themselves. -/
theorem Settled.written (hs : s.Settled) (w : W) (h : s.tx ≠ some .aborted) :
    (s.ensureTransaction.write w).Settled ∧ (s.ensureTransaction.write w).durable =
      if s.Alone then s.durable ++ [w] else s.durable := by
  cases htx : s.tx with
  | none =>
    simp only [Session.ensureTransaction, Session.write, htx]
    exact ⟨⟨hs.callbacks, fun h => absurd rfl h⟩, (if_neg (by simp [Alone, htx])).symm⟩
  | some state =>
    simp only [Session.ensureTransaction, Session.write, htx]
    cases state with
    | started =>
      exact ⟨⟨hs.callbacks, fun h => absurd rfl h⟩, (if_neg (by simp [Alone, htx])).symm⟩
    | aborted => exact absurd htx h
    | orphaned =>
      refine ⟨⟨hs.callbacks, fun _ => hs.pending (by simp [htx])⟩, (if_pos ?_).symm⟩
      simp [Alone, htx]
    | failed =>
      refine ⟨⟨hs.callbacks, fun _ => hs.pending (by simp [htx])⟩, (if_pos ?_).symm⟩
      simp [Alone, htx]

/-- A transaction the server has given up lets nothing succeed. -/
theorem fateOf_done {fate : Fate} (h : s.fateOf fate = .done) :
    fate = .done ∧ s.tx ≠ some .aborted := by
  unfold Session.fateOf at h
  split at h
  · cases h
  · rename_i hne
    exact ⟨h, fun htx => hne htx h⟩

theorem fateOf_alone (h : s.Alone) (fate : Fate) : s.fateOf fate = fate := by
  unfold Session.fateOf
  rcases h with htx | htx <;> rw [htx]

/-- **What a statement makes durable**: its write, where it succeeds alone. -/
theorem Settled.execute (hs : s.Settled) (w : W) (fate : Fate) :
    (s.execute w fate).2.Settled ∧
      (s.execute w fate).2.durable =
        if s.Alone ∧ fate = .done then s.durable ++ [w] else s.durable := by
  unfold Session.execute
  cases hfate : s.fateOf fate with
  | fails place rollsBack =>
    obtain ⟨hreached, hdurable⟩ := hs.reached place
    obtain ⟨hrolled, hkeeps⟩ := hreached.rollback rollsBack
    refine ⟨hrolled, (hkeeps.trans hdurable).trans (if_neg fun h => ?_).symm⟩
    rw [fateOf_alone h.1, h.2] at hfate
    cases hfate
  | done =>
    obtain ⟨hdone, htx⟩ := fateOf_done hfate
    obtain ⟨hsettled, hdurable⟩ := hs.written w htx
    refine ⟨hsettled, hdurable.trans ?_⟩
    simp only [hdone, and_true]

end Session

end NewlifeCore.Database
