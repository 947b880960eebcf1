import NewlifeCore.Auth.Roles

/-!
# The audit log of a role operation

A request on a role, from its first statement to the close of its session, with the background tasks
that its events start.  A task opens a session of its own, which the bus commits, but the handler's
`SessionProxy` finds the session of the request in the context that the task has copied.  The audit
row is therefore one more write of the request's session, made at a time nobody has fixed.

What becomes of the row depends on the state it finds that session in:

* an open transaction that holds the change: the row waits for the same commit;
* an open transaction that does not (the change was rolled back, and this statement or an earlier
  row's opened another): the row may be committed without the change;
* a transaction that has failed or whose connection is lost: the row commits by itself.

`RoleRequest.InTime` excludes the last two where the change is not committed, one turn at a time,
and `auditLog_iff` says that the log is in order throughout a run exactly if every turn is in time.
The operation itself waits for nothing but its session until it publishes, so that a connection
lost meanwhile fails the statement that is waiting for it; between two turns it may be lost unseen.
-/

namespace NewlifeCore.Auth.Roles

open Database

/-! ## 1. The request and its tasks -/

/-- How far the request is: with its service, returned, with an exception on its way, answered by a
handler of `apps.py`, or past its commit or rollback. -/
inductive RequestPhase
  | serving
  | returned
  | raised (kind : ExceptionKind)
  | answered
  | closing
  | closed
deriving DecidableEq

/-- A request on a role, and the events whose tasks have not got to their statement. -/
structure RoleRequest where
  phase : RequestPhase := .serving
  session : Session DbWrite := {}
  written : List DbWrite := []
  tasks : List AdminOperationLogEvent := []
deriving DecidableEq

/-- What happens next: the operation, an exception after it, the rollback of an exception by its
handler or by the middleware, the commit, the close, or a task's statement; or the connection of the
session is lost, which whoever comes next to it notices. -/
inductive RoleTurn
  | operate (tables : RoleTables) (rounds : List (Round RoleTables))
  | raise (kind : ExceptionKind)
  | answer (rollsBack : Bool)
  | rollback (rollsBack : Bool)
  | commit (commits : Bool)
  | close (rollsBack : Bool)
  | task (n : Nat) (fate : Fate)
  | lose

/-- `AdminOperationLogEventHandler.handle`, through the session of the request. -/
def AdminOperationLogEventHandler.handle (event : AdminOperationLogEvent) (fate : Fate)
    (session : Session DbWrite) : Outcome × Session DbWrite :=
  session.execute (.auditLog event) fate

namespace RoleRequest

/-- One turn; one that is not on changes nothing. -/
def step (op : RoleOperation) (st : RoleRequest) : RoleTurn → RoleRequest
  | .operate tables rounds =>
    if st.phase = .serving then
      match op.run { tables, rounds, session := st.session } with
      | (.ok _, k) =>
        { phase := .returned, session := k.session, written := k.written, tasks := k.events }
      | (.error kind, k) =>
        { phase := .raised kind, session := k.session, written := k.written, tasks := k.events }
    else st
  | .raise kind => if st.phase = .returned then { st with phase := .raised kind } else st
  | .answer rollsBack =>
    if st.phase = .raised .httpException ∨ st.phase = .raised .apiBaseException then
      match st.session.rollback rollsBack with
      | (.returned, s) => { st with phase := .answered, session := s }
      | (.raised, s) => { st with phase := .raised .other, session := s }
    else st
  | .rollback rollsBack =>
    if st.phase = .raised .other then
      { st with phase := .closing, session := (st.session.rollback rollsBack).2 }
    else st
  | .commit commits =>
    if st.phase = .returned ∨ st.phase = .answered then
      { st with phase := .closing, session := (st.session.commit commits).2 }
    else st
  | .close rollsBack =>
    if st.phase = .closing then
      { st with phase := .closed, session := (st.session.rollback rollsBack).2 }
    else st
  | .task n fate =>
    match st.tasks[n]? with
    | none => st
    | some event =>
      { st with
        tasks := st.tasks.eraseIdx n
        session := (AdminOperationLogEventHandler.handle event fate st.session).2 }
  | .lose => { st with session := st.session.lose }

/-! ## 2. What the log may record -/

/-- The change is committed. -/
def Committed (st : RoleRequest) : Prop := ∀ w ∈ st.written, w ∈ st.session.durable

/-- **An audit row is persisted only if the change is committed.** -/
def LogsCommitted (st : RoleRequest) : Prop :=
  ∀ event, DbWrite.auditLog event ∈ st.session.durable → st.Committed

/-- `P` holds now and after each of the turns. -/
def Throughout (P : RoleRequest → Prop) (op : RoleOperation) : RoleRequest → List RoleTurn → Prop
  | st, [] => P st
  | st, turn :: turns => P st ∧ Throughout P op (st.step op turn) turns

/-- **A turn is in time**: no audit row is written while the statements of the session commit by
themselves and the change is not committed, and no commit finds one pending without the change. -/
def InTime (st : RoleRequest) : RoleTurn → Prop
  | .task n fate =>
    n < st.tasks.length → st.session.Alone → fate = .done → st.Committed
  | .commit commits =>
    (st.phase = .returned ∨ st.phase = .answered) → commits = true →
      st.session.tx = some .started → ∀ event, DbWrite.auditLog event ∈ st.session.pending →
        ∀ w ∈ st.written, w ∈ st.session.durable ++ st.session.pending
  | _ => True

def AllInTime (op : RoleOperation) : RoleRequest → List RoleTurn → Prop
  | _, [] => True
  | st, turn :: turns => st.InTime turn ∧ AllInTime op (st.step op turn) turns

/-! ## 3. The operation writes no audit row -/

def IsRole (w : DbWrite) : Prop := ∃ r, w = .role r

theorem not_isRole (event : AdminOperationLogEvent) : ¬IsRole (.auditLog event) := nofun

/-- What holds while the operation runs. -/
structure Serving (k : Work RoleTables DbWrite AdminOperationLogEvent) : Prop where
  midway : Midway k.session k.written
  roles : ∀ w ∈ k.session.durable ++ k.session.pending, IsRole w
  written : ∀ w ∈ k.written, IsRole w

theorem serving_stable : RoleStable Serving where
  round k hk := by
    unfold Act.nextRound
    split
    · exact hk
    · exact ⟨hk.midway, hk.roles, hk.written⟩
  access k x s hk hx hrun := by
    refine ⟨hk.midway.returned hrun, fun w hw => ?_, fun w hw => ?_⟩
    · rcases Access.returned hrun with ⟨-, rfl, -⟩ | ⟨-, -, rfl⟩ | ⟨-, -, -, rfl⟩ | ⟨-, -, rfl⟩
      · exact hk.roles w hw
      · simp only [List.mem_append] at hw
        rcases hw with (hw | hw) | hw
        · exact hk.roles w (List.mem_append_left _ hw)
        · exact hx w hw
        · exact hk.roles w (List.mem_append_right _ hw)
      · simp only [List.mem_append] at hw
        rcases hw with hw | hw | hw
        · exact hk.roles w (List.mem_append_left _ hw)
        · exact hk.roles w (List.mem_append_right _ hw)
        · exact hx w hw
      · rw [List.append_nil] at hw
        exact hk.roles w (List.mem_append_left _ hw)
    · rcases List.mem_append.mp hw with hw | hw
      · exact hk.written w hw
      · exact hx w hw
  failure k x s hk hrun := by
    obtain ⟨hs, hdurable, hpending⟩ := Access.raised hk.midway hrun
    refine ⟨hs, fun w hw => hk.roles w ?_, hk.written⟩
    rw [hdurable, hpending, List.append_nil] at hw
    exact List.mem_append_left _ hw
  publish k event hk _ := ⟨hk.midway, hk.roles, hk.written⟩

/-! ## 4. The turns -/

/-- What holds of a request between turns. -/
structure Sound (st : RoleRequest) : Prop where
  settled : st.session.Settled
  written : ∀ w ∈ st.written, IsRole w
  serving : st.phase = .serving → st.session = {} ∧ st.tasks = []

theorem Sound.start : Sound {} := 
  ⟨Session.Settled.start, fun _ h => absurd h List.not_mem_nil, fun _ => ⟨rfl, rfl⟩⟩

variable (op : RoleOperation) {st st' : RoleRequest}

/-- What the operation leaves. -/
theorem operate_leaves (hst : st.Sound) (hphase : st.phase = .serving) (tables : RoleTables)
    (rounds : List (Round RoleTables)) :
    (st.step op (.operate tables rounds)).Sound ∧
      ∀ w ∈ (st.step op (.operate tables rounds)).session.durable, IsRole w := by
  have hkeeps : Serving (op.run { tables, rounds, session := st.session }).2 := by
    refine op.run_keeps serving_stable _ ?_
    rw [(hst.serving hphase).1]
    exact ⟨Midway.start, fun _ h => absurd h List.not_mem_nil, fun _ h => absurd h List.not_mem_nil⟩
  have hleft : ∀ w ∈ (op.run { tables, rounds, session := st.session }).2.session.durable,
      IsRole w := fun w hw => hkeeps.roles w (List.mem_append_left _ hw)
  simp only [step, hphase, if_true]
  split <;> rename_i hrun <;> rw [hrun] at hkeeps hleft
  · exact ⟨⟨⟨hkeeps.midway.callbacks, hkeeps.midway.pending⟩, hkeeps.written, nofun⟩, hleft⟩
  · exact ⟨⟨⟨hkeeps.midway.callbacks, hkeeps.midway.pending⟩, hkeeps.written, nofun⟩, hleft⟩

/-- What the log may record depends on what is written and durable. -/
theorem LogsCommitted.of_eq (hlogs : st.LogsCommitted) (hwritten : st'.written = st.written)
    (hdurable : st'.session.durable = st.session.durable) : st'.LogsCommitted := by
  unfold LogsCommitted Committed
  rw [hwritten, hdurable]
  exact hlogs

/-- A turn that moves the request on with a session that has committed nothing more. -/
theorem Sound.moved (hst : st.Sound) (hlogs : st.LogsCommitted) {phase : RequestPhase}
    {s : Session DbWrite} (hphase : phase ≠ .serving)
    (hs : s.Settled ∧ s.durable = st.session.durable) :
    ({ st with phase, session := s } : RoleRequest).Sound ∧
      (({ st with phase, session := s } : RoleRequest).LogsCommitted ↔ True) :=
  ⟨⟨hs.1, hst.written, fun h => absurd h hphase⟩,
    iff_of_true (hlogs.of_eq rfl hs.2) trivial⟩

/-- A change on a role is not an audit row. -/
theorem Sound.committed_append (hst : st.Sound) {event : AdminOperationLogEvent}
    {ws : List DbWrite} : (∀ w ∈ st.written, w ∈ ws ++ [.auditLog event]) ↔
      ∀ w ∈ st.written, w ∈ ws := by
  refine forall₂_congr fun w hw => ⟨fun h => ?_, List.mem_append_left _⟩
  rcases List.mem_append.mp h with h | h
  · exact h
  · exact absurd (List.mem_singleton.mp h ▸ hst.written w hw) (not_isRole event)

/-- An audit row commits by itself, or waits. -/
theorem task_logsCommitted (hst : st.Sound) (hlogs : st.LogsCommitted) (n : Nat) (fate : Fate) :
    (st.step op (.task n fate)).Sound ∧
      ((st.step op (.task n fate)).LogsCommitted ↔ st.InTime (.task n fate)) := by
  unfold step InTime
  simp only
  cases htask : st.tasks[n]? with
  | none =>
    refine ⟨hst, iff_of_true hlogs fun hn => ?_⟩
    exact absurd hn (Nat.not_lt.mpr (List.getElem?_eq_none_iff.mp htask))
  | some event =>
    obtain ⟨hn, -⟩ := List.getElem?_eq_some_iff.mp htask
    obtain ⟨hsettled, hdurable⟩ := hst.settled.execute (.auditLog event) fate
    refine ⟨⟨hsettled, hst.written, fun h => ?_⟩, ?_⟩
    · have hnone := (hst.serving h).2
      rw [hnone] at hn
      exact absurd hn (Nat.not_lt_zero n)
    · unfold LogsCommitted Committed AdminOperationLogEventHandler.handle
      simp only [hdurable]
      split
      · rename_i halone
        rw [hst.committed_append]
        refine ⟨fun h _ _ _ => h event (List.mem_append_right _ (List.mem_singleton_self _)), ?_⟩
        exact fun h _ _ => h hn halone.1 halone.2
      · rename_i halone
        exact iff_of_true hlogs fun _ htx hfate => absurd ⟨htx, hfate⟩ halone

/-- A commit commits the rows that wait, with the change or without. -/
theorem commit_logsCommitted (hst : st.Sound) (hlogs : st.LogsCommitted) (commits : Bool) :
    (st.step op (.commit commits)).Sound ∧
      ((st.step op (.commit commits)).LogsCommitted ↔ st.InTime (.commit commits)) := by
  unfold step InTime
  simp only
  split
  · rename_i hphase
    obtain ⟨hsettled, hdurable⟩ := hst.settled.commit commits
    refine ⟨⟨hsettled, hst.written, nofun⟩, ?_⟩
    unfold LogsCommitted Committed
    simp only [hdurable]
    split
    · rename_i hcommits
      refine ⟨fun h _ _ _ event he => h event (List.mem_append_right _ he), fun h event he => ?_⟩
      rcases List.mem_append.mp he with he | he
      · exact fun w hw => List.mem_append_left _ (hlogs event he w hw)
      · exact h hphase hcommits.1 hcommits.2 event he
    · rename_i hcommits
      exact iff_of_true hlogs fun _ hc htx => absurd ⟨hc, htx⟩ hcommits
  · rename_i hphase
    exact ⟨hst, iff_of_true hlogs fun h => absurd h hphase⟩

/-- **One turn**: from then on the log is in order exactly if the turn is in time. -/
theorem step_logsCommitted (hst : st.Sound) (hlogs : st.LogsCommitted) (turn : RoleTurn) :
    (st.step op turn).Sound ∧ ((st.step op turn).LogsCommitted ↔ st.InTime turn) := by
  cases turn with
  | task n fate => exact task_logsCommitted op hst hlogs n fate
  | commit commits => exact commit_logsCommitted op hst hlogs commits
  | lose =>
    obtain ⟨hsettled, hdurable⟩ := hst.settled.lose
    refine ⟨⟨hsettled, hst.written, fun h => ?_⟩, iff_of_true (hlogs.of_eq rfl hdurable) trivial⟩
    obtain ⟨hsession, htasks⟩ := hst.serving h
    exact ⟨congrArg Session.lose hsession, htasks⟩
  | operate tables rounds =>
    by_cases hphase : st.phase = .serving
    · obtain ⟨hsound, hroles⟩ := operate_leaves op hst hphase tables rounds
      refine ⟨hsound, iff_of_true (fun event he => ?_) trivial⟩
      exact absurd (hroles _ he) (not_isRole event)
    · simp only [step, hphase, if_false]
      exact ⟨hst, iff_of_true hlogs trivial⟩
  | raise kind =>
    simp only [step]
    split
    · refine hst.moved hlogs ?_ ⟨hst.settled, rfl⟩
      nofun
    · exact ⟨hst, iff_of_true hlogs trivial⟩
  | answer rollsBack =>
    have hrolled := hst.settled.rollback rollsBack
    simp only [step]
    split
    · split <;> rename_i hrun <;> rw [hrun] at hrolled
      · refine hst.moved hlogs ?_ hrolled
        nofun
      · refine hst.moved hlogs ?_ hrolled
        nofun
    · exact ⟨hst, iff_of_true hlogs trivial⟩
  | rollback rollsBack =>
    simp only [step]
    split
    · refine hst.moved hlogs ?_ (hst.settled.rollback rollsBack)
      nofun
    · exact ⟨hst, iff_of_true hlogs trivial⟩
  | close rollsBack =>
    simp only [step]
    split
    · refine hst.moved hlogs ?_ (hst.settled.rollback rollsBack)
      nofun
    · exact ⟨hst, iff_of_true hlogs trivial⟩

/-! ## 5. Runs -/

theorem throughout_iff (hst : st.Sound) (hlogs : st.LogsCommitted) (turns : List RoleTurn) :
    Throughout LogsCommitted op st turns ↔ AllInTime op st turns := by
  induction turns generalizing st with
  | nil => exact iff_of_true hlogs trivial
  | cons turn turns ih =>
    obtain ⟨hst', hturn⟩ := step_logsCommitted op hst hlogs turn
    unfold Throughout AllInTime
    constructor
    · rintro ⟨-, hrest⟩
      have hlogs' : (st.step op turn).LogsCommitted := by
        cases turns with
        | nil => exact hrest
        | cons turn' turns => exact hrest.1
      exact ⟨hturn.mp hlogs', (ih hst' hlogs').mp hrest⟩
    · rintro ⟨htime, hrest⟩
      exact ⟨hlogs, (ih hst' (hturn.mpr htime)).mpr hrest⟩

/-- **The audit log of a role operation records only what is committed exactly if every turn is in
time**, whatever fails and however its tasks are scheduled. -/
theorem auditLog_iff (op : RoleOperation) (turns : List RoleTurn) :
    Throughout LogsCommitted op {} turns ↔ AllInTime op {} turns :=
  throughout_iff op Sound.start (fun _ h => absurd h List.not_mem_nil) turns

/-- An assignment whose COMMIT fails before the task of its event has got to its statement. -/
def lateTask : List RoleTurn :=
  [.operate { roles := [{ id := 1, code := "editor" }] } [], .commit false, .close true,
    .task 0 .done]

/-- **The log records an assignment that is not committed.** -/
theorem lateTask_not_logsCommitted :
    ¬Throughout LogsCommitted (.assign 1 ⟨[7]⟩) {} lateTask := by
  intro h
  have hcommitted := h.2.2.2.2
    { operationType := .update, recordId := 1, operationCode := authRolePermissionTable
      oldData := some (.permissions 1 []), newData := some (.permissions 1 [7]) } (by decide)
  exact absurd (hcommitted (.role (.insertRolePermissions 1 [7])) (by decide)) (by decide)

end RoleRequest

end NewlifeCore.Auth.Roles
