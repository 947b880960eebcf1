import NewlifeCore.Database.Session

/-!
# Callbacks follow the transaction they were registered in

A callback waits in the session until the current transaction ends, and the session has one list of
them.  Along any run the list holds callbacks of the current transaction only, so a commit runs
those of the transaction it commits, and what drops them is never followed by a commit of theirs.
-/

namespace NewlifeCore.Database

variable {W : Type}

/-! ## 1. The invariant -/

/-- The callbacks that wait. -/
def Session.waiting (s : Session W) : List Nat := s.afterCommitCallbacks.map Prod.fst

/-- **What holds along a run** while the callbacks `todo` of the last commit are still to be called. -/
structure Inv (todo : List Nat) (s : Session W) : Prop where
  order : (s.ran ++ (todo ++ s.waiting)).Pairwise (· < ·)
  known : ∀ i ∈ s.ran ++ (todo ++ s.waiting), i < s.registered.length
  current : ∀ i ∈ s.waiting, s.registered[i]? = some s.number
  /-- None of the current transaction is missing, unless it has failed. -/
  all : s.tx ≠ some .failed → ∀ i : Nat, s.registered[i]? = some s.number → i ∈ s.waiting
  past : ∀ i n : Nat, s.registered[i]? = some n →
    n ≤ s.number ∧ (i ∈ s.ran ++ todo ↔ n ∈ s.committed)
  open_ : ∀ n ∈ s.committed, n < s.number
  running : s.tx ≠ some .aborted

variable {todo : List Nat} {s s' : Session W}

theorem Inv.start : Inv [] ({} : Session W) where
  order := List.Pairwise.nil
  known := nofun
  current := nofun
  all _ i h := by simp at h
  past i n h := by simp at h
  open_ := nofun
  running := nofun

/-- Two sessions have one history, and a transaction fails only in the second. -/
structure SameHistory (s s' : Session W) : Prop where
  ran : s'.ran = s.ran
  waiting : s'.afterCommitCallbacks = s.afterCommitCallbacks
  number : s'.number = s.number
  registered : s'.registered = s.registered
  committed : s'.committed = s.committed
  tx : s'.tx ≠ some .failed → s.tx ≠ some .failed
  running : s.tx ≠ some .aborted → s'.tx ≠ some .aborted

theorem Inv.congr (h : Inv todo s) (hs : SameHistory s s') : Inv todo s' := by
  have hw : s'.waiting = s.waiting := congrArg (List.map Prod.fst) hs.waiting
  constructor
  · rw [hs.ran, hw]
    exact h.order
  · rw [hs.ran, hw, hs.registered]
    exact h.known
  · rw [hw, hs.registered, hs.number]
    exact h.current
  · rw [hw, hs.registered, hs.number]
    exact fun htx => h.all (hs.tx htx)
  · rw [hs.ran, hs.registered, hs.number, hs.committed]
    exact h.past
  · rw [hs.committed, hs.number]
    exact h.open_
  · exact hs.running h.running

/-! ## 2. Steps -/

theorem SameHistory.ensureTransaction (s : Session W) : SameHistory s s.ensureTransaction := by
  unfold Session.ensureTransaction
  split
  · rename_i htx
    exact ⟨rfl, rfl, rfl, rfl, rfl, fun _ => by rw [htx]; exact nofun, fun _ => nofun⟩
  · exact ⟨rfl, rfl, rfl, rfl, rfl, id, id⟩

theorem SameHistory.lose (s : Session W) : SameHistory s s.lose := by
  unfold Session.lose
  split
  · rename_i htx
    exact ⟨rfl, rfl, rfl, rfl, rfl, fun _ => by rw [htx]; exact nofun, fun _ => nofun⟩
  · rename_i htx
    exact ⟨rfl, rfl, rfl, rfl, rfl, fun _ => by rw [htx]; exact nofun, fun _ => nofun⟩
  · exact ⟨rfl, rfl, rfl, rfl, rfl, id, id⟩

theorem SameHistory.write (w : W) (s : Session W) : SameHistory s (s.write w) := by
  unfold Session.write
  split <;> exact ⟨rfl, rfl, rfl, rfl, rfl, id, id⟩

theorem SameHistory.broken (s : Session W) : SameHistory s s.broken :=
  ⟨rfl, rfl, rfl, rfl, rfl, fun h => absurd rfl h, fun _ => nofun⟩

theorem SameHistory.reached (place : Place) (s : Session W) : SameHistory s (s.reached place) := by
  unfold Session.reached
  split
  · exact ⟨rfl, rfl, rfl, rfl, rfl, id, id⟩
  · exact .broken s
  · exact .ensureTransaction s

/-- What holds of all callbacks holds without those that wait. -/
theorem Inv.unwaited (h : Inv todo s) : (s.ran ++ (todo ++ [])).Pairwise (· < ·) ∧
    ∀ i ∈ s.ran ++ (todo ++ []), i < s.registered.length := by
  have hsub : (s.ran ++ (todo ++ [])).Sublist (s.ran ++ (todo ++ s.waiting)) :=
    ((List.nil_sublist _).append_left todo).append_left s.ran
  exact ⟨h.order.sublist hsub, fun i hi => h.known i (hsub.subset hi)⟩

/-- The callbacks of a transaction that ends without a commit are dropped. -/
theorem Inv.dropped (h : Inv todo s) : Inv todo { s with afterCommitCallbacks := [] }.ended := by
  constructor
  · exact h.unwaited.1
  · exact h.unwaited.2
  · exact nofun
  · intro _ i hi
    have := (h.past i _ hi).1
    simp only [Session.ended] at this
    omega
  · intro i n hi
    obtain ⟨hle, hiff⟩ := h.past i n hi
    exact ⟨Nat.le_succ_of_le hle, hiff⟩
  · exact fun n hn => Nat.lt_succ_of_lt (h.open_ n hn)
  · exact nofun

/-- Those of a failed transaction are dropped while the session still holds it. -/
theorem Inv.discarded (h : Inv todo s) (htx : s.tx = some .failed) :
    Inv todo { s with afterCommitCallbacks := [] } := by
  constructor
  · exact h.unwaited.1
  · exact h.unwaited.2
  · exact nofun
  · exact fun hne => absurd htx hne
  · exact h.past
  · exact h.open_
  · exact h.running

theorem Inv.rollback (h : Inv todo s) (rollsBack : Bool) :
    Inv todo (s.rollback rollsBack).2 := by
  unfold Session.rollback
  dsimp only
  split
  · exact h.dropped
  · rename_i htx
    exact h.discarded htx
  · exact (h.congr (.broken s)).discarded rfl
  · split
    · exact h.dropped
    · exact (h.congr (.broken s)).discarded rfl

theorem Inv.execute (h : Inv todo s) (w : W) (fate : Fate) : Inv todo (s.execute w fate).2 := by
  unfold Session.execute
  cases s.fateOf fate with
  | done => exact (h.congr (.ensureTransaction s)).congr (.write w _)
  | fails place rollsBack => exact (h.congr (.reached place s)).rollback rollsBack

theorem Inv.fetch (h : Inv todo s) (fate : Fate) : Inv todo (s.fetch fate).2 := by
  unfold Session.fetch
  cases s.fateOf fate with
  | done => exact h
  | fails place rollsBack => exact h.rollback rollsBack

theorem Inv.statement (h : Inv todo s) (x : Statement W) :
    Inv todo (Session.statement x s).2 := by
  cases x with
  | execute w fate => exact h.execute w fate
  | fetch fate => exact h.fetch fate
  | lost => exact h.congr (.lose s)

theorem Inv.statements (h : Inv todo s) (xs : List (Statement W)) :
    Inv todo (Session.statements xs s) := by
  induction xs generalizing s with
  | nil => exact h
  | cons x xs ih => exact ih (h.statement x)

theorem Inv.addAfterCommit (h : Inv [] s) (c : Callback W) : Inv [] (s.addAfterCommit c) := by
  have hw : (s.addAfterCommit c).waiting = s.waiting ++ [s.registered.length] := by
    simp [Session.waiting, Session.addAfterCommit]
  have hget : ∀ {i n : Nat}, (s.registered ++ [s.number])[i]? = some n ↔
      s.registered[i]? = some n ∨ (i = s.registered.length ∧ n = s.number) := by
    intro i n
    rcases Nat.lt_trichotomy i s.registered.length with hi | hi | hi
    · rw [List.getElem?_append_left hi]
      exact ⟨.inl, fun h => h.resolve_right fun hc => by omega⟩
    · subst hi
      simp [eq_comm]
    · rw [List.getElem?_eq_none (by simp; omega), List.getElem?_eq_none (by omega)]
      simp
      omega
  constructor
  · rw [hw, List.nil_append, ← List.append_assoc, List.pairwise_append]
    refine ⟨h.order, List.pairwise_singleton _ _, fun i hi j hj => ?_⟩
    rw [List.mem_singleton.mp hj]
    exact h.known i hi
  · intro i hi
    rw [hw, List.nil_append, ← List.append_assoc, List.mem_append] at hi
    simp only [Session.addAfterCommit, List.length_append, List.length_singleton]
    rcases hi with hi | hi
    · exact Nat.lt_succ_of_lt (h.known i hi)
    · rw [List.mem_singleton.mp hi]
      exact Nat.lt_succ_self _
  · intro i hi
    rw [hw, List.mem_append, List.mem_singleton] at hi
    exact hget.mpr (hi.imp (h.current i) fun hi => ⟨hi, rfl⟩)
  · intro htx i hi
    rw [hw, List.mem_append, List.mem_singleton]
    exact (hget.mp hi).imp (h.all htx i) And.left
  · intro i n hi
    rcases hget.mp hi with hi | ⟨rfl, rfl⟩
    · exact h.past i n hi
    · refine ⟨Nat.le_refl _, fun hi => ?_, fun hn => absurd (h.open_ _ hn) (Nat.lt_irrefl _)⟩
      have hran : s.registered.length ∈ s.ran := by rwa [List.append_nil] at hi
      exact absurd (h.known _ (List.mem_append_left _ hran)) (Nat.lt_irrefl _)
  · exact h.open_
  · exact h.running

/-- **A commit** turns the callbacks of its transaction into those to be called. -/
theorem Inv.kept (h : Inv [] s) (htx : s.tx ≠ some .failed) :
    Inv s.waiting { s.kept with afterCommitCallbacks := [] } := by
  have hnil : ∀ l : List Nat, l ++ ([] ++ s.waiting) = l ++ (s.waiting ++ []) := fun l => by simp
  constructor
  · exact hnil s.ran ▸ h.order
  · exact hnil s.ran ▸ h.known
  · intro i hi
    cases hi
  · intro _ i hi
    have : s.number + 1 ≤ s.number := (h.past i _ hi).1
    omega
  · intro i n hi
    obtain ⟨hle, hiff⟩ := h.past i n hi
    refine ⟨Nat.le_succ_of_le hle, ?_⟩
    simp only [Session.kept, Session.ended, List.mem_append, List.mem_singleton,
      List.append_nil] at hiff ⊢
    rw [hiff]
    refine or_congr_right ⟨fun hw => ?_, fun hn => h.all htx i (hn ▸ hi)⟩
    exact Option.some.inj (hi.symm.trans (h.current i hw))
  · intro n hn
    rcases List.mem_append.mp hn with hn | hn
    · exact Nat.lt_succ_of_lt (h.open_ n hn)
    · rw [List.mem_singleton.mp hn]
      exact Nat.lt_succ_self _
  · intro hs
    cases hs

theorem Inv.called {i : Nat} (h : Inv (i :: todo) s) : Inv todo { s with ran := s.ran ++ [i] } := by
  have hassoc : ∀ l : List Nat, (s.ran ++ [i]) ++ l = s.ran ++ (i :: l) := fun l => by simp
  constructor
  · exact (hassoc (todo ++ s.waiting)).symm ▸ h.order
  · exact (hassoc (todo ++ s.waiting)).symm ▸ h.known
  · exact h.current
  · exact h.all
  · exact (hassoc todo).symm ▸ h.past
  · exact h.open_
  · exact h.running

theorem Inv.call {c : Nat × Callback W} (h : Inv (c.1 :: todo) s) : Inv todo (s.call c).2 :=
  h.called.statements c.2.statements

theorem Inv.callEach {cs : List (Nat × Callback W)} (h : Inv (cs.map Prod.fst) s) :
    Inv [] (Session.callEach cs s) := by
  induction cs generalizing s with
  | nil => exact h
  | cons c cs ih =>
    have hcall := ih h.call
    unfold Session.callEach
    cases hc : s.call c with
    | mk o s' =>
      rw [hc] at hcall
      cases o <;> exact hcall

theorem Inv.commit (h : Inv [] s) (commits : Bool) : Inv [] (s.commit commits).2 := by
  unfold Session.commit
  split
  · rename_i htx
    exact Inv.callEach (h.kept (by rw [htx]; exact nofun))
  · rename_i htx
    split
    · exact Inv.callEach (h.kept (by rw [htx]; exact nofun))
    · exact h.congr (.broken s)
  · rename_i htx
    exact absurd htx h.running
  · exact h.congr (.broken s)
  · rename_i htx
    exact h.discarded htx

theorem Inv.op (h : Inv [] s) (op : Op W) : Inv [] (op.run s).2 := by
  cases op with
  | statement x => exact h.statement x
  | addAfterCommit c => exact h.addAfterCommit c
  | commit commits => exact h.commit commits
  | rollback rollsBack => exact h.rollback rollsBack

theorem Inv.run (h : Inv [] s) (ops : List (Op W)) : Inv [] (runAll ops s).2 := by
  induction ops generalizing s with
  | nil => exact h
  | cons op ops ih => exact ih (h.op op)

/-! ## 3. Callbacks that raise -/

/-- The callback, raising nothing. -/
def Callback.quiet (c : Callback W) : Callback W := { c with raises := false }

def Op.quiet : Op W → Op W
  | .addAfterCommit c => .addAfterCommit c.quiet
  | op => op

namespace Session

/-- The session with quiet callbacks waiting. -/
def quiet (s : Session W) : Session W :=
  { s with afterCommitCallbacks := s.afterCommitCallbacks.map fun c => (c.1, c.2.quiet) }

theorem rollback_quiet (rollsBack : Bool) (s : Session W) :
    s.quiet.rollback rollsBack = ((s.rollback rollsBack).1, (s.rollback rollsBack).2.quiet) := by
  unfold rollback quiet
  dsimp only
  cases s.tx with
  | none => rfl
  | some state =>
    cases state with
    | started => cases rollsBack <;> rfl
    | aborted => cases rollsBack <;> rfl
    | orphaned => rfl
    | failed => rfl

theorem lose_quiet (s : Session W) : s.quiet.lose = s.lose.quiet := by
  cases s with
  | mk tx =>
    cases tx with
    | none => rfl
    | some state => cases state <;> rfl

theorem ensureTransaction_quiet (s : Session W) :
    s.quiet.ensureTransaction = s.ensureTransaction.quiet := by
  cases s with
  | mk tx => cases tx <;> rfl

theorem write_quiet (w : W) (s : Session W) : s.quiet.write w = (s.write w).quiet := by
  unfold write quiet
  cases s.tx with
  | none => rfl
  | some state => cases state <;> rfl

theorem reached_quiet (place : Place) (s : Session W) :
    s.quiet.reached place = (s.reached place).quiet := by
  have htx : s.quiet.tx = s.tx := rfl
  cases place with
  | connection => rfl
  | begin_ =>
    unfold reached
    rw [htx]
    cases s.tx with
    | none => rfl
    | some state => exact ensureTransaction_quiet s
  | statement => exact ensureTransaction_quiet s

theorem fateOf_quiet (fate : Fate) (s : Session W) : s.quiet.fateOf fate = s.fateOf fate := rfl

theorem execute_quiet (w : W) (fate : Fate) (s : Session W) :
    s.quiet.execute w fate = ((s.execute w fate).1, (s.execute w fate).2.quiet) := by
  unfold execute
  rw [fateOf_quiet]
  cases s.fateOf fate with
  | done => simp only [ensureTransaction_quiet, write_quiet]
  | fails place rollsBack => simp only [reached_quiet, rollback_quiet]

theorem fetch_quiet (fate : Fate) (s : Session W) :
    s.quiet.fetch fate = ((s.fetch fate).1, (s.fetch fate).2.quiet) := by
  unfold fetch
  rw [fateOf_quiet]
  cases s.fateOf fate with
  | done => rfl
  | fails place rollsBack => simp only [rollback_quiet]

theorem statement_quiet (x : Statement W) (s : Session W) :
    statement x s.quiet = ((statement x s).1, (statement x s).2.quiet) := by
  cases x with
  | execute w fate => exact execute_quiet w fate s
  | fetch fate => exact fetch_quiet fate s
  | lost => exact Prod.ext rfl (lose_quiet s)

theorem statements_quiet (xs : List (Statement W)) (s : Session W) :
    statements xs s.quiet = (statements xs s).quiet := by
  induction xs generalizing s with
  | nil => rfl
  | cons x xs ih =>
    have hx := congrArg Prod.snd (statement_quiet x s)
    show statements xs (statement x s.quiet).2 = (statements xs (statement x s).2).quiet
    rw [hx, ih]

/-- **The loop over the callbacks** goes on alike whether or not one raises. -/
theorem callEach_quiet (cs : List (Nat × Callback W)) (s : Session W) :
    callEach (cs.map fun c => (c.1, c.2.quiet)) s.quiet = (callEach cs s).quiet := by
  have hloop : ∀ (c : Nat × Callback W) cs (s : Session W),
      callEach (c :: cs) s = callEach cs (s.call c).2 := by
    intro c cs s
    rw [callEach]
    cases s.call c with
    | mk o s' => cases o <;> rfl
  induction cs generalizing s with
  | nil => rfl
  | cons c cs ih =>
    rw [List.map_cons, hloop, hloop, ← ih]
    congr 1
    exact statements_quiet c.2.statements { s with ran := s.ran ++ [c.1] }

theorem commit_quiet (commits : Bool) (s : Session W) :
    s.quiet.commit commits = ((s.commit commits).1, (s.commit commits).2.quiet) := by
  have hrun : s.quiet.kept.runCallbacks = s.kept.runCallbacks.quiet :=
    callEach_quiet s.afterCommitCallbacks { s.kept with afterCommitCallbacks := [] }
  have hlost : s.quiet.ended.runCallbacks = s.ended.runCallbacks.quiet :=
    callEach_quiet s.afterCommitCallbacks { s.ended with afterCommitCallbacks := [] }
  have htx : s.quiet.tx = s.tx := rfl
  unfold commit
  rw [htx]
  cases s.tx with
  | none => exact Prod.ext rfl hrun
  | some state =>
    cases state with
    | started =>
      cases commits with
      | true => exact Prod.ext rfl hrun
      | false => rfl
    | aborted =>
      cases commits with
      | true => exact Prod.ext rfl hlost
      | false => rfl
    | orphaned => rfl
    | failed => rfl

end Session

theorem Op.run_quiet (op : Op W) (s : Session W) :
    op.quiet.run s.quiet = ((op.run s).1, (op.run s).2.quiet) := by
  cases op with
  | statement x => exact Session.statement_quiet x s
  | addAfterCommit c =>
    refine Prod.ext rfl ?_
    simp [Op.quiet, Op.run, Session.addAfterCommit, Session.quiet]
  | commit commits => exact Session.commit_quiet commits s
  | rollback rollsBack => exact Session.rollback_quiet rollsBack s

theorem runAll_quiet (ops : List (Op W)) (s : Session W) :
    runAll (ops.map Op.quiet) s.quiet = ((runAll ops s).1, (runAll ops s).2.quiet) := by
  induction ops generalizing s with
  | nil => rfl
  | cons op ops ih =>
    rw [List.map_cons, runAll, runAll, Op.run_quiet]
    simp only [ih]

/-! ## 4. The callbacks of a run -/

/-- **Callbacks follow their transactions.** -/
structure CallbacksFollow (ops : List (Op W)) (s : Session W) : Prop where
  /-- In the order of registration, and none twice. -/
  order : s.ran.Pairwise (· < ·)
  committed : ∀ i n : Nat, s.registered[i]? = some n → (i ∈ s.ran ↔ n ∈ s.committed)
  /-- What the calls came to, and everything else, is as if no callback raised. -/
  undisturbed : runAll (ops.map Op.quiet) {} = ((runAll ops {}).1, s.quiet)

/-- **After-commit callbacks follow the transaction**: after any sequence of calls, whichever
statements, commits, rollbacks and callbacks of it fail, those that ran are those whose transaction
committed, in the order they were registered in. -/
theorem afterCommit_follows (ops : List (Op W)) : CallbacksFollow ops (runAll ops {}).2 := by
  have h := Inv.start.run ops
  refine ⟨?_, fun i n hi => ?_, runAll_quiet ops {}⟩
  · exact (List.pairwise_append.mp h.order).1
  · simpa using (h.past i n hi).2

/-- A failed statement takes its transaction's callback along; the next one's runs. -/
example : (runAll [.statement (.execute "a" .done), .addAfterCommit {},
      .statement (.execute "b" (.fails .statement true)), .addAfterCommit { raises := true },
      .statement (.execute "c" .done), .addAfterCommit {}, .commit true] {}).2 =
    { durable := ["c"], number := 2, registered := [0, 1, 1], committed := [1], ran := [1, 2] } := by
  decide

end NewlifeCore.Database
