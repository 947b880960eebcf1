import NewlifeCore.Database.Session

/-!
# Requests

`CoreRequestMiddleware` gives a request one session and commits it at the end; an exception rolls it
back, in a handler of `apps.py` or in the middleware.  A failing statement has rolled back already
when its exception reaches the service, which may catch it and go on in another transaction.

`dispatch_atomic` says exactly when the writes of a request that reported success share one fate.
`Midway` is what holds of the session while the handler runs: nothing is durable but what was
written alone, and the writes that reported success are at least those durable or pending.  From it
the handler's run is followed by three inductions over its steps.

* `handle_whole`: a handler that loses nothing midway has all its writes, durable or pending.
* `handle_short`: one that does has fewer, and a write that is lost stays lost.
* `handle_durable`: something is durable before the commit exactly if a write was made alone.

How the request ends decides which of them counts.  An exception, or a COMMIT on a connection that
is lost, adds nothing to what is durable, so that nothing may be; a COMMIT that goes through keeps
what is pending, so that all must be.
-/

namespace NewlifeCore.Database

/-! ## 1. The middleware -/

/-- What an exception is to the handlers. -/
inductive ExceptionKind
  | httpException
  | apiBaseException
  | other
deriving DecidableEq

/-- What a service does about a statement that fails: it lets the exception out, as what it is or
turned into another, or logs it. -/
inductive Handling
  | propagates (kind : ExceptionKind)
  | caught
deriving DecidableEq

/-- A read or a write through the session. -/
inductive Access (W : Type)
  | statement (x : Statement W)
  | fetchvals (fate : Fate)
deriving DecidableEq

structure Step (W : Type) where
  access : Access W
  handling : Handling := .propagates .other
deriving DecidableEq

/-- A request: its accesses, what the handler raises after them, and how the rollback on an exception
and the final commit end. -/
structure Request (W : Type) where
  steps : List (Step W)
  raises : Option ExceptionKind := none
  rollsBack : Bool := true
  commits : Bool := true
deriving DecidableEq

inductive Response
  | success
  | error
  | raised
deriving DecidableEq

variable {W : Type}

def Access.run : Access W → Session W → Outcome × Session W
  | .statement x, s => Session.statement x s
  | .fetchvals fate, s => s.fetchvals fate

/-- What an access writes where it succeeds. -/
def Access.written : Access W → List W
  | .statement (.execute w _) => [w]
  | _ => []

@[simp] theorem Access.written_lost : (Access.statement .lost : Access W).written = [] := rfl

/-- The handler: how it ends, the session, and the writes that reported success. -/
def handle : List (Step W) → Session W → List W → Option ExceptionKind × Session W × List W
  | [], s, ws => (none, s, ws)
  | x :: xs, s, ws =>
    match x.access.run s with
    | (.returned, s') => handle xs s' (ws ++ x.access.written)
    | (.raised, s') =>
      match x.handling with
      | .caught => handle xs s' ws
      | .propagates kind => (some kind, s', ws)

/-- An exception of the handler: one that `apps.py` knows is rolled back and answered there, and the
middleware commits what is left. -/
def fail (kind : ExceptionKind) (r : Request W) (s : Session W) : Response × Session W :=
  if kind = .other then (.raised, (s.rollback r.rollsBack).2)
  else
    match s.rollback r.rollsBack with
    | (.raised, s') => (.raised, (s'.rollback true).2)
    | (.returned, s') =>
      match s'.commit r.commits with
      | (.returned, s'') => (.error, s'')
      | (.raised, s'') => (.raised, s'')

/-- The handler returned. -/
def succeed (r : Request W) (s : Session W) : Response × Session W :=
  match s.commit r.commits with
  | (.returned, s') => (.success, s')
  | (.raised, s') => (.raised, s')

/-- What became of a request. -/
structure Answer (W : Type) where
  response : Response
  raised : Bool
  reported : List W
  session : Session W
deriving DecidableEq

/-- **`dispatch`**, on a new session. -/
def dispatch (r : Request W) : Answer W :=
  match handle r.steps {} [] with
  | (outcome, s, ws) =>
    match outcome.or r.raises with
    | some kind => ⟨(fail kind r s).1, true, ws, (fail kind r s).2⟩
    | none => ⟨(succeed r s).1, false, ws, (succeed r s).2⟩

/-! ## 2. Atomicity -/

/-- The session holds a transaction that the server has open. -/
def Session.Open (s : Session W) : Prop := s.tx = some .started ∨ s.tx = some .aborted

/-- **A request is atomic**: of the writes that reported success all are committed or none is, none
where the handler raised and all where the response reports success. -/
structure Atomic (a : Answer W) : Prop where
  allOrNone : a.session.durable = a.reported ∨ a.session.durable = []
  raised : a.raised = true → a.session.durable = []
  success : a.response = .success → a.session.durable = a.reported

/-- Writes are pending neither where a failure is caught nor where the connection is lost. -/
def CaughtClean : List (Step W) → Session W → Prop
  | [], _ => True
  | x :: xs, s =>
    match x.access.run s with
    | (.returned, s') => (x.access = .statement .lost → s.pending = []) ∧ CaughtClean xs s'
    | (.raised, s') =>
      match x.handling with
      | .caught => s.pending = [] ∧ CaughtClean xs s'
      | .propagates _ => True

/-- No write is made while the statements of the session commit by themselves. -/
def NoneAlone : List (Step W) → Session W → Prop
  | [], _ => True
  | x :: xs, s =>
    match x.access.run s with
    | (.returned, s') => (s.Alone → x.access.written = []) ∧ NoneAlone xs s'
    | (.raised, s') =>
      match x.handling with
      | .caught => NoneAlone xs s'
      | .propagates _ => True

/-! ### 2.1 The session while the handler runs -/

/-- What holds of the session and of the writes that reported success. -/
structure Midway (s : Session W) (ws : List W) : Prop where
  callbacks : s.afterCommitCallbacks = []
  started : s.tx = some .started → s.pending ≠ []
  pending : s.tx ≠ some .started → s.pending = []
  durable : ¬s.Alone → s.durable = []
  covered : s.durable.length + s.pending.length ≤ ws.length
  /-- A transaction that is given up or cut off has taken a write with it. -/
  lost : s.tx = some .aborted ∨ s.tx = some .orphaned →
    s.durable.length + s.pending.length < ws.length

variable {s s' : Session W} {ws ws' : List W} {xs : List (Step W)} {o : Option ExceptionKind}

theorem Midway.start : Midway ({} : Session W) [] :=
  ⟨rfl, nofun, fun _ => rfl, fun _ => rfl, Nat.le_refl _, by rintro (h | h) <;> cases h⟩

theorem Session.not_alone_of_started (h : s.tx = some .started) : ¬s.Alone := by
  simp [Session.Alone, h]

/-- A write by itself, or in the transaction. -/
theorem Session.write_ensureTransaction (w : W) (h : s.tx ≠ some .aborted) :
    (s.Alone ∧ s.ensureTransaction.write w = { s with durable := s.durable ++ [w] }) ∨
    (¬s.Alone ∧ s.ensureTransaction.write w =
        { s with tx := some .started, pending := s.pending ++ [w] }) := by
  cases htx : s.tx with
  | none =>
    refine .inr ⟨by simp [Session.Alone, htx], ?_⟩
    simp only [Session.ensureTransaction, Session.write, htx]
  | some state =>
    cases state with
    | aborted => exact absurd htx h
    | started =>
      refine .inr ⟨Session.not_alone_of_started htx, ?_⟩
      simp only [Session.ensureTransaction, Session.write, htx]
    | orphaned =>
      refine .inl ⟨.inr htx, ?_⟩
      simp only [Session.ensureTransaction, Session.write, htx]
    | failed =>
      refine .inl ⟨.inl htx, ?_⟩
      simp only [Session.ensureTransaction, Session.write, htx]

/-- What the loss of the connection does: it cuts off the transaction that it finds open. -/
theorem Session.lose_cases (s : Session W) : s.lose = s ∧ ¬s.Open ∨
    s.Open ∧ s.lose = { s with tx := some .orphaned, pending := [] } := by
  unfold Session.lose Session.Open
  cases htx : s.tx with
  | none => exact .inl ⟨rfl, by simp⟩
  | some state =>
    cases state with
    | started => exact .inr ⟨.inl rfl, rfl⟩
    | aborted => exact .inr ⟨.inr rfl, rfl⟩
    | orphaned => exact .inl ⟨rfl, by simp⟩
    | failed => exact .inl ⟨rfl, by simp⟩

/-- What an access that succeeds does: nothing, or a write by itself or in the transaction; and the
loss of a connection takes the transaction with it. -/
theorem Access.returned {x : Access W} (h : x.run s = (.returned, s')) :
    (x.written = [] ∧ s' = s ∧ (x = .statement .lost → ¬s.Open)) ∨
    (s.Alone ∧ x ≠ .statement .lost ∧ s' = { s with durable := s.durable ++ x.written }) ∨
    (¬s.Alone ∧ s.tx ≠ some .aborted ∧ x.written ≠ [] ∧
      s' = { s with tx := some .started, pending := s.pending ++ x.written }) ∨
    (x = .statement .lost ∧ s.Open ∧ s' = { s with tx := some .orphaned, pending := [] }) := by
  cases x with
  | fetchvals fate =>
    simp only [Access.run, Session.fetchvals] at h
    split at h
    · cases h
      exact .inl ⟨rfl, rfl, nofun⟩
    · split at h <;> cases h
  | statement x =>
    cases x with
    | fetch fate =>
      simp only [Access.run, Session.statement, Session.fetch] at h
      split at h
      · cases h
        exact .inl ⟨rfl, rfl, nofun⟩
      · cases h
    | lost =>
      obtain rfl := (Prod.mk.inj h).2
      rcases s.lose_cases with ⟨hsame, hopen⟩ | ⟨hopen, hlose⟩
      · exact .inl ⟨rfl, hsame, fun _ => hopen⟩
      · exact .inr (.inr (.inr ⟨rfl, hopen, hlose⟩))
    | execute w fate =>
      simp only [Access.run, Session.statement, Session.execute] at h
      split at h
      · rename_i hfate
        cases h
        have htx := (Session.fateOf_done hfate).2
        rcases Session.write_ensureTransaction w htx with ⟨halone, hw⟩ | ⟨halone, hw⟩
        · exact .inr (.inl ⟨halone, nofun, hw⟩)
        · exact .inr (.inr (.inl ⟨halone, htx, List.cons_ne_nil _ _, hw⟩))
      · cases h

/-- What a rollback leaves. -/
theorem Session.rollback_leaves (s : Session W) (rollsBack : Bool) :
    (s.rollback rollsBack).2.durable = s.durable ∧
    (s.rollback rollsBack).2.afterCommitCallbacks = [] ∧
    (s.rollback rollsBack).2.tx ≠ some .started ∧
    (s.rollback rollsBack).2.tx ≠ some .aborted ∧
    (s.rollback rollsBack).2.tx ≠ some .orphaned ∧
    (s.Alone → (s.rollback rollsBack).2.tx = some .failed) ∧
    (s.rollback rollsBack).2.pending = if s.tx = some .failed then s.pending else [] := by
  unfold Session.rollback
  cases htx : s.tx with
  | none =>
    refine ⟨rfl, rfl, ?_, ?_, ?_, by simp [Session.Alone, htx], rfl⟩ <;> intro h <;> cases h
  | some state =>
    cases state with
    | failed => refine ⟨rfl, rfl, ?_, ?_, ?_, fun _ => rfl, rfl⟩ <;> intro h <;> cases h
    | orphaned => refine ⟨rfl, rfl, ?_, ?_, ?_, fun _ => rfl, rfl⟩ <;> intro h <;> cases h
    | started =>
      cases rollsBack <;> refine ⟨rfl, rfl, ?_, ?_, ?_, by simp [Session.Alone, htx], rfl⟩ <;>
        intro h <;> cases h
    | aborted =>
      cases rollsBack <;> refine ⟨rfl, rfl, ?_, ?_, ?_, by simp [Session.Alone, htx], rfl⟩ <;>
        intro h <;> cases h

/-- A rollback after a failure keeps the invariant and leaves nothing pending. -/
theorem Midway.rolledBack {s₁ : Session W} (hs : Midway s ws) (rollsBack : Bool)
    (hdurable : s₁.durable = s.durable) (halone : s.Alone → s₁.Alone)
    (hpending : s₁.tx = some .failed → s₁.pending = []) :
    Midway (s₁.rollback rollsBack).2 ws ∧ (s₁.rollback rollsBack).2.durable = s.durable ∧
      (s₁.rollback rollsBack).2.pending = [] := by
  obtain ⟨hd, hcb, hstarted, haborted, horphaned, hkeeps, hp⟩ := s₁.rollback_leaves rollsBack
  have hnone : (s₁.rollback rollsBack).2.pending = [] := by
    rw [hp]
    split
    · exact hpending ‹_›
    · rfl
  have hdurable' := hd.trans hdurable
  refine ⟨⟨hcb, fun h => absurd h hstarted, fun _ => hnone, ?_, ?_, ?_⟩, hdurable', hnone⟩
  · intro htx
    rw [hdurable']
    exact hs.durable fun h => htx (.inl (hkeeps (halone h)))
  · rw [hdurable', hnone]
    exact Nat.le_trans (Nat.le_add_right _ _) hs.covered
  · rintro (h | h)
    · exact absurd h haborted
    · exact absurd h horphaned

theorem Session.reached_leaves (s : Session W) (place : Place) :
    (s.reached place).durable = s.durable ∧
    (s.Alone → (s.reached place).Alone) ∧
    ((s.reached place).tx = some .failed →
      (s.reached place).pending = if s.tx = some .failed then s.pending else []) := by
  unfold Session.reached Session.ensureTransaction Session.Alone
  cases place <;> cases htx : s.tx <;> simp_all [Session.broken]

/-- **What an access that fails leaves**: what was pending is gone, what was committed stays. -/
theorem Access.raised {x : Access W} (hs : Midway s ws) (h : x.run s = (.raised, s')) :
    Midway s' ws ∧ s'.durable = s.durable ∧ s'.pending = [] := by
  have hfailed : s.tx = some .failed → s.pending = [] := fun htx =>
    hs.pending (by rw [htx]; nofun)
  cases x with
  | fetchvals fate =>
    simp only [Access.run, Session.fetchvals] at h
    split at h
    · cases h
    · split at h <;> rename_i htx <;> cases h
      · -- what was pending is lost with the transaction that the server gives up
        have hpos := List.length_pos_iff.mpr (hs.started htx)
        have hcovered := hs.covered
        refine ⟨⟨hs.callbacks, nofun, fun _ => rfl,
          fun _ => hs.durable (Session.not_alone_of_started htx), ?_, fun _ => ?_⟩, rfl, rfl⟩
        · exact Nat.le_trans (Nat.le_add_right _ _) hs.covered
        · simp only [List.length_nil]
          omega
      · exact ⟨hs, rfl, hs.pending htx⟩
  | statement x =>
    cases x with
    | fetch fate =>
      simp only [Access.run, Session.statement, Session.fetch] at h
      split at h
      · cases h
      · cases h
        exact hs.rolledBack _ rfl id hfailed
    | lost => cases h
    | execute w fate =>
      simp only [Access.run, Session.statement, Session.execute] at h
      split at h
      · cases h
      · rename_i place rollsBack hfate
        cases h
        obtain ⟨hd, hkeeps, hp⟩ := s.reached_leaves place
        refine hs.rolledBack _ hd hkeeps fun htx => ?_
        rw [hp htx]
        split
        · exact hfailed ‹_›
        · rfl

theorem Midway.returned {x : Access W} (hs : Midway s ws) (h : x.run s = (.returned, s')) :
    Midway s' (ws ++ x.written) := by
  have hcovered := hs.covered
  rcases Access.returned h with ⟨hw, rfl, -⟩ | ⟨halone, -, rfl⟩ | ⟨halone, -, hw, rfl⟩ |
    ⟨rfl, hopen, rfl⟩
  · rw [hw, List.append_nil]
    exact hs
  · refine ⟨hs.callbacks, hs.started, hs.pending, fun h => absurd halone h, ?_, fun htx => ?_⟩
    · simp only [List.length_append]
      omega
    · have := hs.lost htx
      simp only [List.length_append]
      omega
  · refine ⟨hs.callbacks, fun _ h => hw (List.append_eq_nil_iff.mp h).2,
      fun h => absurd rfl h, fun _ => hs.durable halone, ?_, by rintro (h | h) <;> cases h⟩
    simp only [List.length_append]
    omega
  · have hlt : s.durable.length < ws.length := by
      rcases hopen with htx | htx
      · have := List.length_pos_iff.mpr (hs.started htx)
        omega
      · have := hs.lost (.inl htx)
        omega
    rw [Access.written_lost, List.append_nil]
    exact ⟨hs.callbacks, nofun, fun _ => rfl, fun h => absurd (.inr rfl) h, Nat.le_of_lt hlt,
      fun _ => hlt⟩

/-! ### 2.2 The handler's run -/

/-- The step of `handle`. -/
theorem handle_cons {x : Step W} :
    handle (x :: xs) s ws =
      match x.access.run s with
      | (.returned, s') => handle xs s' (ws ++ x.access.written)
      | (.raised, s') =>
        match x.handling with
        | .caught => handle xs s' ws
        | .propagates kind => (some kind, s', ws) := rfl

theorem Midway.handle (hs : Midway s ws) (h : handle xs s ws = (o, s', ws')) :
    Midway s' ws' := by
  induction xs generalizing s ws with
  | nil =>
    cases h
    exact hs
  | cons x xs ih =>
    rw [handle_cons] at h
    split at h <;> rename_i hrun
    · exact ih (hs.returned hrun) h
    · have hs' := (Access.raised hs hrun).1
      split at h
      · exact ih hs' h
      · cases h
        exact hs'

/-- **A handler that catches nothing midway has all its writes**, committed or pending. -/
theorem handle_whole (hs : Midway s ws) (hws : ws = s.durable ++ s.pending)
    (hclean : CaughtClean xs s) (h : handle xs s ws = (none, s', ws')) :
    ws' = s'.durable ++ s'.pending := by
  induction xs generalizing s ws with
  | nil =>
    cases h
    exact hws
  | cons x xs ih =>
    rw [handle_cons] at h
    unfold CaughtClean at hclean
    split at h <;> rename_i hrun <;> rw [hrun] at hclean
    · refine ih (hs.returned hrun) ?_ hclean.2 h
      rcases Access.returned hrun with ⟨hw, rfl, -⟩ | ⟨halone, -, rfl⟩ | ⟨-, -, -, rfl⟩ |
        ⟨hlost, -, rfl⟩
      · rw [hw, List.append_nil, hws]
      · have hnone : s.pending = [] :=
          hs.pending fun htx => Session.not_alone_of_started htx halone
        simp [hws, hnone]
      · simp [hws]
      · simp [hws, hlost, hclean.1 hlost]
    · obtain ⟨hs', hdurable, hpending⟩ := Access.raised hs hrun
      cases hhandling : x.handling with
      | propagates kind =>
        rw [hhandling] at h
        cases h
      | caught =>
        rw [hhandling] at h hclean
        refine ih hs' ?_ hclean.2 h
        rw [hws, hdurable, hpending, hclean.1]

/-- A write that is lost stays lost. -/
theorem handle_short (hs : Midway s ws)
    (hshort : s.durable.length + s.pending.length < ws.length ∨ ¬CaughtClean xs s)
    (h : handle xs s ws = (none, s', ws')) :
    s'.durable.length + s'.pending.length < ws'.length := by
  induction xs generalizing s ws with
  | nil =>
    cases h
    exact hshort.resolve_right (not_not_intro trivial)
  | cons x xs ih =>
    rw [handle_cons] at h
    unfold CaughtClean at hshort
    split at h <;> rename_i hrun <;> rw [hrun] at hshort
    · refine ih (hs.returned hrun) ?_ h
      have hcovered := hs.covered
      rcases Access.returned hrun with ⟨hw, rfl, hlost⟩ | ⟨-, hlost, rfl⟩ | ⟨-, -, hwritten, rfl⟩ |
        ⟨hlost, hopen, rfl⟩
      · rw [hw, List.append_nil]
        refine hshort.imp_right fun hn hc => hn ⟨fun hx => hs.pending fun htx => ?_, hc⟩
        exact hlost hx (.inl htx)
      · simp only [List.length_append]
        exact hshort.imp (fun hlt => by omega) fun hn hc => hn ⟨fun hx => absurd hx hlost, hc⟩
      · simp only [List.length_append]
        refine hshort.imp (fun hlt => by omega) fun hn hc => hn ⟨fun hx => ?_, hc⟩
        rw [hx] at hwritten
        exact absurd rfl hwritten
      · -- what is pending when the connection is lost is lost with it
        rw [hlost, Access.written_lost, List.append_nil]
        refine .inl ?_
        simp only [List.length_nil]
        rcases hopen with htx | htx
        · have := List.length_pos_iff.mpr (hs.started htx)
          omega
        · have := hs.lost (.inl htx)
          omega
    · obtain ⟨hs', hdurable, hpending⟩ := Access.raised hs hrun
      cases hhandling : x.handling with
      | propagates kind =>
        rw [hhandling] at h
        cases h
      | caught =>
        rw [hhandling] at h hshort
        refine ih hs' ?_ h
        rw [hdurable, hpending]
        have hcovered := hs.covered
        by_cases hnone : s.pending = []
        · rw [hnone] at hshort
          exact hshort.imp_right fun hn hc => hn ⟨rfl, hc⟩
        · refine .inl ?_
          have := List.length_pos_iff.mpr hnone
          simp only [List.length_nil]
          omega

/-- **Until the commit the server keeps only what was written alone.** -/
theorem handle_durable (hs : Midway s ws) (h : handle xs s ws = (o, s', ws')) :
    s.durable.length ≤ s'.durable.length ∧ (s'.durable = s.durable ↔ NoneAlone xs s) := by
  induction xs generalizing s ws with
  | nil =>
    cases h
    exact ⟨Nat.le_refl _, iff_of_true rfl trivial⟩
  | cons x xs ih =>
    rw [handle_cons] at h
    unfold NoneAlone
    split at h <;> rename_i hrun
    · obtain ⟨hle, hiff⟩ := ih (hs.returned hrun) h
      rcases Access.returned hrun with ⟨hw, rfl, -⟩ | ⟨halone, -, rfl⟩ | ⟨halone, -, -, rfl⟩ |
        ⟨hlost, -, rfl⟩
      · exact ⟨hle, hiff.trans (iff_and_self.mpr fun _ _ => hw)⟩
      · simp only [List.length_append] at hle
        refine ⟨by omega, fun heq => ?_, fun ⟨hw, hn⟩ => ?_⟩
        · have hw : x.access.written = [] := by
            rw [heq] at hle
            exact List.length_eq_zero_iff.mp (by omega)
          refine ⟨fun _ => hw, hiff.mp ?_⟩
          rw [heq, hw, List.append_nil]
        · rw [hiff.mpr hn, hw halone, List.append_nil]
      · exact ⟨hle, hiff.trans (iff_and_self.mpr fun _ h => absurd h halone)⟩
      · exact ⟨hle, hiff.trans (iff_and_self.mpr fun _ _ => hlost ▸ rfl)⟩
    · obtain ⟨hs', hdurable, -⟩ := Access.raised hs hrun
      cases hhandling : x.handling with
      | propagates kind =>
        rw [hhandling] at h
        cases h
        exact ⟨Nat.le_of_eq (by rw [hdurable]), iff_of_true hdurable trivial⟩
      | caught =>
        rw [hhandling] at h
        rw [← hdurable]
        exact ih hs' h

/-! ### 2.3 The end of a request -/

theorem Session.commit_lost {commits : Bool} (hcommits : commits = false) (hopen : s.Open) :
    (s.commit commits).1 = .raised ∧ (s.commit commits).2.durable = s.durable := by
  unfold Session.commit
  rcases hopen with htx | htx <;> rw [htx, hcommits] <;> exact ⟨rfl, rfl⟩

/-- The COMMIT on a connection that is lost. -/
theorem Session.commit_orphaned (commits : Bool) (htx : s.tx = some .orphaned) :
    (s.commit commits).1 = .raised ∧ (s.commit commits).2.durable = s.durable := by
  unfold Session.commit
  rw [htx]
  exact ⟨rfl, rfl⟩

/-- A commit that does not fail keeps all that is pending. -/
theorem Midway.commit (hs : Midway s ws) {commits : Bool}
    (h : ¬(commits = false ∧ s.Open)) (horphaned : s.tx ≠ some .orphaned) :
    (s.commit commits).1 = .returned ∧
      (s.commit commits).2.durable = s.durable ++ s.pending := by
  have hidle : ∀ s₁ : Session W, s₁.afterCommitCallbacks = [] →
      s₁.runCallbacks.durable = s₁.durable := by
    intro s₁ hcb
    rw [Session.runCallbacks, hcb]
    rfl
  unfold Session.commit
  cases htx : s.tx with
  | none => exact ⟨rfl, hidle _ hs.callbacks⟩
  | some state =>
    have hsent : state ≠ .failed → commits = true := fun hstate => by
      cases state with
      | failed => exact absurd rfl hstate
      | orphaned => exact absurd htx horphaned
      | started => simpa [Session.Open, htx] using h
      | aborted => simpa [Session.Open, htx] using h
    cases state with
    | orphaned => exact absurd htx horphaned
    | failed =>
      rw [hs.pending (by simp [htx]), List.append_nil]
      exact ⟨rfl, rfl⟩
    | started =>
      rw [hsent (by simp)]
      exact ⟨rfl, hidle _ hs.callbacks⟩
    | aborted =>
      rw [hsent (by simp), hs.pending (by simp [htx]), List.append_nil]
      exact ⟨rfl, hidle _ hs.callbacks⟩

/-- An exception commits nothing more. -/
theorem fail_durable (hs : Midway s ws) (kind : ExceptionKind) (r : Request W) :
    (fail kind r s).2.durable = s.durable ∧ (fail kind r s).1 ≠ .success := by
  obtain ⟨hs', hdurable, hpending⟩ := hs.rolledBack r.rollsBack rfl id fun htx =>
    hs.pending (by rw [htx]; nofun)
  unfold fail
  split
  · exact ⟨hdurable, nofun⟩
  · cases hroll : s.rollback r.rollsBack with
    | mk outcome s₁ =>
      rw [hroll] at hs' hdurable hpending
      cases outcome with
      | raised => exact ⟨(s₁.rollback_leaves true).1.trans hdurable, nofun⟩
      | returned =>
        have hcommit : (s₁.commit r.commits).2.durable = s₁.durable := by
          by_cases hopen : r.commits = false ∧ s₁.Open
          · exact (Session.commit_lost hopen.1 hopen.2).2
          · by_cases horphaned : s₁.tx = some .orphaned
            · exact (Session.commit_orphaned _ horphaned).2
            · rw [(hs'.commit hopen horphaned).2, hpending, List.append_nil]
        simp only
        split <;> rename_i hc <;> rw [hc] at hcommit
        · exact ⟨hcommit.trans hdurable, nofun⟩
        · exact ⟨hcommit.trans hdurable, nofun⟩

theorem succeed_eq (r : Request W) (s : Session W) :
    succeed r s =
      (match (s.commit r.commits).1 with
        | .returned => .success
        | .raised => .raised, (s.commit r.commits).2) := by
  unfold succeed
  split <;> rename_i hc <;> rw [hc]

/-! ## 3. When a request is atomic -/

/-- **Where a request is atomic**: where the handler raises, or leaves its COMMIT to a connection
that is lost, nothing was written alone; elsewhere, unless the COMMIT fails, no failure was caught
and no connection lost midway. -/
def Sound (r : Request W) : Prop :=
  match handle r.steps {} [] with
  | (outcome, s, _) =>
    if (outcome.or r.raises).isSome ∨ s.tx = some .orphaned then NoneAlone r.steps {}
    else ¬(r.commits = false ∧ s.Open) → CaughtClean r.steps {}

/-- **A request is atomic exactly where it is sound.** -/
theorem dispatch_atomic (r : Request W) : Atomic (dispatch r) ↔ Sound r := by
  unfold Sound dispatch
  cases hrun : handle r.steps ({} : Session W) [] with
  | mk outcome rest =>
    obtain ⟨s, ws⟩ := rest
    have hs : Midway s ws := Midway.start.handle hrun
    have hdurable : s.durable = [] ↔ NoneAlone r.steps {} :=
      (handle_durable Midway.start hrun).2
    cases hraises : outcome.or r.raises with
    | some kind =>
      obtain ⟨hkeeps, hresponse⟩ := fail_durable hs kind r
      simp only [hraises, Option.isSome_some, true_or, if_true]
      rw [← hdurable, ← hkeeps]
      exact ⟨fun h => h.raised rfl, fun h => ⟨.inr h, fun _ => h, fun hr => absurd hr hresponse⟩⟩
    | none =>
      obtain ⟨rfl, -⟩ := Option.or_eq_none_iff.mp hraises
      simp only [hraises, Option.isSome_none, Bool.false_eq_true, false_or]
      split_ifs with horphaned
      · -- the COMMIT raises, and a write is missing, so that only nothing at all is atomic
        obtain ⟨hresponse, hkeeps⟩ := Session.commit_orphaned r.commits horphaned
        have hmissing : s.durable ≠ ws := by
          rintro rfl
          have := hs.lost (.inr horphaned)
          omega
        rw [succeed_eq, hresponse, ← hdurable, ← hkeeps]
        refine ⟨fun h => h.allOrNone.resolve_left ?_, fun h => ⟨.inr h, (fun h' => by cases h'), (fun h' => by cases h')⟩⟩
        rw [hkeeps]
        exact hmissing
      by_cases hopen : r.commits = false ∧ s.Open
      · obtain ⟨hresponse, hkeeps⟩ := Session.commit_lost hopen.1 hopen.2
        rw [succeed_eq, hresponse]
        refine iff_of_true ⟨.inr ?_, (fun h' => by cases h'), (fun h' => by cases h')⟩ fun h => absurd hopen h
        refine hkeeps.trans (hs.durable ?_)
        rcases hopen.2 with htx | htx <;> simp [Session.Alone, htx]
      · obtain ⟨hresponse, hkeeps⟩ := hs.commit hopen horphaned
        rw [succeed_eq, hresponse]
        have hall : s.durable ++ s.pending = ws ↔ CaughtClean r.steps {} := by
          refine ⟨fun h => ?_, fun h => (handle_whole Midway.start rfl h hrun).symm⟩
          by_contra hn
          have hlt := handle_short Midway.start (.inr hn) hrun
          rw [← h, List.length_append] at hlt
          exact absurd hlt (Nat.lt_irrefl _)
        rw [forall_prop_of_true hopen, ← hall, ← hkeeps]
        exact ⟨fun h => h.success rfl, fun h => ⟨.inl h, (fun h' => by cases h'), fun _ => h⟩⟩

/-- A sign-in whose failure to record the third party is caught, between two other writes. -/
def microsoftSignIn : Request String where
  steps :=
    [{ access := .statement (.execute "user profile" .done) },
      { access := .statement (.execute "third party" (.fails .statement true))
        handling := .caught },
      { access := .statement (.execute "last login" .done) }]

/-- **A caught failure loses what was written before it**: the request succeeds without. -/
theorem microsoftSignIn_not_atomic :
    (dispatch microsoftSignIn).response = .success ∧
    (dispatch microsoftSignIn).reported = ["user profile", "last login"] ∧
    (dispatch microsoftSignIn).session.durable = ["last login"] ∧
    ¬Atomic (dispatch microsoftSignIn) := by
  refine ⟨by decide, by decide, by decide, fun h => ?_⟩
  exact absurd (h.success (by decide)) (by decide)

/-- A write after the connection was lost is committed, whatever becomes of the request. -/
example :
    let lostMidway := dispatch
      { steps := [{ access := .statement (.execute "user profile" .done) },
          { access := .statement .lost }, { access := .statement (.execute "last login" .done) }] }
    lostMidway.response = .raised ∧ lostMidway.session.durable = ["last login"] := by
  decide

end NewlifeCore.Database
