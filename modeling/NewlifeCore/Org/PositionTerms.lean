import NewlifeCore.Org.Positions

/-!
# The terms of a position

The terms of a position are consistent when each starts before it ends, no two share a moment and
one at most is open.  An assignment keeps them so exactly when the UPDATE of its call reached every
term that is open when the call commits, and each of these started before the new term.
-/

namespace NewlifeCore.Org

open Txn Prog PositionRepository

/-! ## 1. Consistent terms -/

/-- One term is over when the other starts. -/
def OrgPositionAssignment.Before (r r' : OrgPositionAssignment) : Prop :=
  ∃ e, r.endAt = some e ∧ e ≤ r'.startAt

/-- **The terms of each position are consistent.** -/
structure PositionDb.Consistent (db : PositionDb) : Prop where
  ordered : ∀ r ∈ db.assignments, ∀ e, r.endAt = some e → r.startAt < e
  apart : ∀ r ∈ db.assignments, ∀ r' ∈ db.assignments, r.positionId = r'.positionId → r ≠ r' →
    r.Before r' ∨ r'.Before r
  oneOpen : ∀ r ∈ db.assignments, ∀ r' ∈ db.assignments, r.positionId = r'.positionId →
    r.endAt = none → r'.endAt = none → r = r'

/-- Consistent, and a position that had an incumbent has one. -/
structure PositionDb.Terms (db : PositionDb) : Prop extends db.Consistent where
  current : ∀ r ∈ db.assignments, ∃ o ∈ db.assignments, o.positionId = r.positionId ∧ o.endAt = none

variable {db : PositionDb} {r r' : OrgPositionAssignment} {call : AssignCall} {t : Int}

/-- Two open terms are not apart. -/
theorem not_before_open (h : r.endAt = none) : ¬r.Before r' := by
  rintro ⟨e, he, -⟩
  rw [h] at he
  cases he

theorem PositionDb.Consistent.of_apart
    (ordered : ∀ r ∈ db.assignments, ∀ e, r.endAt = some e → r.startAt < e)
    (apart : ∀ r ∈ db.assignments, ∀ r' ∈ db.assignments, r.positionId = r'.positionId → r ≠ r' →
      r.Before r' ∨ r'.Before r) : db.Consistent := by
  refine ⟨ordered, apart, fun r hr r' hr' hp hopen hopen' => ?_⟩
  by_contra hne
  rcases apart r hr r' hr' hp hne with h | h
  · exact not_before_open hopen h
  · exact not_before_open hopen' h

/-- A term that is over was over when the open one started. -/
theorem PositionDb.Terms.ended_before (h : db.Terms) (hr : r ∈ db.assignments) {e : Int}
    (he : r.endAt = some e) : ∃ o ∈ db.assignments, o.positionId = r.positionId ∧
      o.endAt = none ∧ e ≤ o.startAt := by
  obtain ⟨o, ho, hp, hopen⟩ := h.current r hr
  have hne : r ≠ o := fun heq => by rw [heq, hopen] at he; cases he
  rcases h.apart r hr o ho hp.symm hne with ⟨e', he', hle⟩ | hbefore
  · rw [he] at he'
    cases he'
    exact ⟨o, ho, hp, hopen, hle⟩
  · exact absurd hbefore (not_before_open hopen)

/-! ## 2. What a call has done when it can commit -/

/-- A term after an UPDATE that holds some rows. -/
def closedAmong (positionId : UUID) (held : List PositionRow) (now : Int)
    (r : OrgPositionAssignment) : OrgPositionAssignment :=
  if isOpenOf positionId r && held.contains (.assignment r.id) then endRow now r else r

/-- **What a call did**: it ended the open terms it holds, at the start of its own. -/
structure AssignCall.Done (call : AssignCall) (held : List PositionRow)
    (own : PositionDb → PositionDb) (db : PositionDb) (t : Int) : Prop where
  fresh : ∀ r ∈ db.assignments, r.id ≠ call.assignmentId
  stored : (own db).assignments = db.assignments.map (closedAmong call.positionId held t) ++
    [⟨call.assignmentId, call.positionId, call.userId, t, none⟩]
  given : ∀ s, call.startAt = some s → t = s

/-- The others only let time pass, for what a call does. -/
def positionRely : Rely PositionDb Empty where
  rel _ _ t _ t' := t ≤ t'
  refl _ _ t := le_refl t
  trans h₁ h₂ := le_trans h₁ h₂
  tick _ _ _ _ h := h
  mono _ h := h

abbrev PositionView := View PositionDb PositionRow Empty

/-- Nobody else stores a row under a name that is held. -/
theorem fresh_locked {db db' : PositionDb} {id : UUID}
    (hrow : RowStore.row db' (PositionRow.assignment id) = RowStore.row db (.assignment id))
    (h : ∀ r ∈ db.assignments, r.id ≠ id) : ∀ r ∈ db'.assignments, r.id ≠ id := by
  have hnone : db.assignments.filter
      (fun r => PositionRow.assignment r.id = PositionRow.assignment id) = [] := by
    rw [List.filter_eq_nil_iff]
    intro r hr
    simpa using h r hr
  have hnone' : db'.assignments.filter
      (fun r => PositionRow.assignment r.id = PositionRow.assignment id) = [] := hrow.trans hnone
  rw [List.filter_eq_nil_iff] at hnone'
  intro r hr
  simpa using hnone' r hr

/-- What is stored once the INSERT went through. -/
theorem insertAssignment_ok {row : OrgPositionAssignment} {c : Change PositionDb PositionRow}
    (h : (if db.assignments.any fun r => r.id = row.id then .error .uniqueViolation
      else if !(db.positions.any fun p => p.id = row.positionId) || row.userId ∉ db.userIds then
        .error .foreignKeyViolation
      else .ok (assignmentTable.insert [row]) : Except OrgError (Change PositionDb PositionRow)) =
        .ok c) : (∀ r ∈ db.assignments, r.id ≠ row.id) ∧ c = assignmentTable.insert [row] := by
  split at h
  · cases h
  · rename_i hfresh
    split at h
    · cases h
    · cases h
      exact ⟨by simpa using hfresh, rfl⟩

/-- The two statements of a call whose term starts at `t`. -/
theorem writes_wp (hgiven : ∀ s, call.startAt = some s → t = s) {v : PositionView}
    (hown : v.own = id) (hrows : v.rows = []) :
    wp positionRely ((closeOpen call.positionId t).bind fun _ => insertAssignment
      { id := call.assignmentId, positionId := call.positionId, userId := call.userId, startAt := t })
      (fun _ w => call.Done w.rows w.own w.db t) v := by
  intro v₁ h₁ _ c hc v₂ h₂ _ _ v₃ h₃ _ d hd v₄ h₄ d' hd' w hw
  cases hc
  obtain ⟨-, rfl⟩ := insertAssignment_ok hd
  obtain ⟨hfresh, -⟩ := insertAssignment_ok hd'
  have hown₂ : v₂.own = id := h₂.own.trans (h₁.own.trans hown)
  have hrows₂ : v₂.rows = [] := h₂.rows.trans (h₁.rows.trans hrows)
  set c := assignmentTable.update (isOpenOf call.positionId) (endRow t) (fun _ => rfl) v₁.seen
    with hc
  have hown₄ : v₄.own = c.apply := by
    rw [h₄.own, h₃.own, View.change, hown₂]
    rfl
  have hrows₄ : v₄.rows = c.rows := by
    rw [h₄.rows, h₃.rows, View.change, hrows₂, List.append_nil]
  have hclosed : ∀ db, (c.apply db).assignments = db.assignments.map fun r =>
      if isOpenOf call.positionId r && c.rows.contains (.assignment r.id) then endRow t r else r :=
    fun _ => rfl
  have hids : ∀ r ∈ v₄.db.assignments, r.id ≠ call.assignmentId := by
    intro r hr heq
    rw [View.seen, hown₄, hclosed] at hfresh
    refine hfresh _ (List.mem_map_of_mem hr) ?_
    rw [← heq]
    split <;> rfl
  have hheld : w.rows = .assignment call.assignmentId :: c.rows := by
    rw [hw.rows, View.change, hrows₄]
    rfl
  have hnew : PositionRow.assignment call.assignmentId ∈
      (v₄.change (assignmentTable.insert [⟨call.assignmentId, call.positionId, call.userId, t,
        none⟩])).rows := List.mem_cons_self
  have hfresh : ∀ r ∈ w.db.assignments, r.id ≠ call.assignmentId :=
    fresh_locked (hw.locked _ hnew) hids
  refine ⟨hfresh, ?_, hgiven⟩
  rw [hw.own, View.change, hown₄]
  show (c.apply w.db).assignments ++ _ = _
  rw [hclosed]
  refine congrArg (· ++ _) (List.map_congr_left fun r hr => ?_)
  have hother : (PositionRow.assignment r.id == .assignment call.assignmentId) = false := by
    simpa using hfresh r hr
  rw [closedAmong, hheld, List.contains_cons, hother, Bool.false_or]

theorem assignPosition_wp (call : AssignCall) {v : PositionView} (hown : v.own = id)
    (hrows : v.rows = []) : wp positionRely (assignPosition call)
      (fun _ w => ∃ t, call.Done w.rows w.own w.db t) v := by
  refine wp_bind (wp_select fun v₁ h₁ v₂ h₂ => wp_bind (wp_raiseIf fun _ v₃ h₃ => ?_))
  have h := (h₁.trans h₂).trans h₃
  refine wp_bind ?_
  cases hstart : call.startAt with
  | some s =>
    intro v₄ h₄
    refine wp_mono (fun _ _ hdone => ⟨s, hdone⟩) (writes_wp (fun s' hs' => ?_)
      (((h.trans h₄).own).trans hown) (((h.trans h₄).rows).trans hrows))
    rw [hstart] at hs'
    exact Option.some_inj.mp hs'
  | none =>
    refine wp_now fun v₄ h₄ v₅ h₅ => ?_
    have h' := (h.trans h₄).trans h₅
    refine wp_mono (fun _ _ hdone => ⟨v₄.clock, hdone⟩) (writes_wp (fun s' hs' => ?_)
      (h'.own.trans hown) (h'.rows.trans hrows))
    rw [hstart] at hs'
    cases hs'

/-! ## 3. When its commit keeps the terms -/

/-- **The call succeeds the incumbent**: it holds every term that is open now, and its own starts
later. -/
def AssignCall.Succeeds (call : AssignCall) (held : List PositionRow)
    (own : PositionDb → PositionDb) (db : PositionDb) : Prop :=
  ∀ r ∈ db.assignments, r.positionId = call.positionId → r.endAt = none →
    PositionRow.assignment r.id ∈ held ∧
      ∀ n ∈ (own db).assignments, n.id = call.assignmentId → r.startAt < n.startAt

section Commit

variable {held : List PositionRow} {own : PositionDb → PositionDb}

/-- Ending a term leaves the rest of it. -/
theorem closedAmong_fields (positionId : UUID) (held : List PositionRow) (now : Int)
    (r : OrgPositionAssignment) : (closedAmong positionId held now r).id = r.id ∧
      (closedAmong positionId held now r).positionId = r.positionId ∧
        (closedAmong positionId held now r).startAt = r.startAt := by
  unfold closedAmong
  split <;> exact ⟨rfl, rfl, rfl⟩

/-- What is ended stays ended, where it was. -/
theorem closedAmong_ended {positionId : UUID} {now e : Int} (h : r.endAt = some e) :
    closedAmong positionId held now r = r := by
  unfold closedAmong isOpenOf
  rw [h]
  simp

theorem closedAmong_other {positionId : UUID} {now : Int} (h : r.positionId ≠ positionId) :
    closedAmong positionId held now r = r := by
  unfold closedAmong isOpenOf
  simp [h]

theorem closedAmong_open (held : List PositionRow) (now : Int) {positionId : UUID}
    (hp : r.positionId = positionId) (hopen : r.endAt = none) :
    (closedAmong positionId held now r).endAt =
      if PositionRow.assignment r.id ∈ held then some now else none := by
  unfold closedAmong isOpenOf endRow
  split <;> simp_all

theorem Before.closedAmong {positionId : UUID} {now : Int} (h : r.Before r') :
    (closedAmong positionId held now r).Before (closedAmong positionId held now r') := by
  obtain ⟨e, he, hle⟩ := h
  rw [closedAmong_ended he]
  exact ⟨e, he, by rwa [(closedAmong_fields positionId held now r').2.2]⟩

variable (hdone : call.Done held own db t)
include hdone

theorem AssignCall.Done.mem_iff {q : OrgPositionAssignment} : q ∈ (own db).assignments ↔
    (∃ r ∈ db.assignments, closedAmong call.positionId held t r = q) ∨
      q = ⟨call.assignmentId, call.positionId, call.userId, t, none⟩ := by
  rw [hdone.stored, List.mem_append, List.mem_map, List.mem_singleton]

/-- The new term is the one under the call's key. -/
theorem AssignCall.Done.startAt_new {n : OrgPositionAssignment} (hn : n ∈ (own db).assignments)
    (hid : n.id = call.assignmentId) : n.startAt = t := by
  rcases hdone.mem_iff.mp hn with ⟨r, hr, rfl⟩ | rfl
  · rw [(closedAmong_fields _ _ _ r).1] at hid
    exact absurd hid (hdone.fresh r hr)
  · rfl

theorem AssignCall.Done.succeeds_iff : call.Succeeds held own db ↔
    ∀ r ∈ db.assignments, r.positionId = call.positionId → r.endAt = none →
      PositionRow.assignment r.id ∈ held ∧ r.startAt < t := by
  refine forall₂_congr fun r hr => forall₂_congr fun hp hopen => and_congr_right fun _ => ?_
  constructor
  · intro h
    exact h _ (hdone.mem_iff.mpr (.inr rfl)) rfl
  · intro h n hn hid
    rw [hdone.startAt_new hn hid]
    exact h

/-- A call that succeeds the incumbent keeps the terms. -/
theorem AssignCall.Done.terms (h : db.Terms) (hsucceeds : call.Succeeds held own db) :
    (own db).Terms := by
  have hopen := hdone.succeeds_iff.mp hsucceeds
  -- an open term of the position ends where the new one starts, the ended ones ended before
  have hends : ∀ r ∈ db.assignments, r.positionId = call.positionId →
      (closedAmong call.positionId held t r).Before
        ⟨call.assignmentId, call.positionId, call.userId, t, none⟩ := by
    intro r hr hp
    cases he : r.endAt with
    | none => exact ⟨t, by rw [closedAmong_open _ _ hp he, if_pos (hopen r hr hp he).1], le_refl t⟩
    | some e =>
      obtain ⟨o, ho, hop, hoo, hle⟩ := h.ended_before hr he
      rw [closedAmong_ended he]
      exact ⟨e, he, le_trans hle (le_of_lt (hopen o ho (hop.trans hp) hoo).2)⟩
  refine { PositionDb.Consistent.of_apart ?_ ?_ with current := ?_ }
  · intro q hq e he
    rcases hdone.mem_iff.mp hq with ⟨r, hr, rfl⟩ | rfl
    · rw [(closedAmong_fields _ _ _ r).2.2]
      cases hend : r.endAt with
      | some e' =>
        rw [closedAmong_ended hend] at he
        exact h.ordered r hr e he
      | none =>
        by_cases hp : r.positionId = call.positionId
        · rw [closedAmong_open _ _ hp hend, if_pos (hopen r hr hp hend).1] at he
          cases he
          exact (hopen r hr hp hend).2
        · rw [closedAmong_other hp] at he
          exact h.ordered r hr e he
    · cases he
  · intro q hq q' hq' hp hne
    rcases hdone.mem_iff.mp hq with ⟨r, hr, rfl⟩ | rfl <;>
      rcases hdone.mem_iff.mp hq' with ⟨r', hr', rfl⟩ | rfl
    · rw [(closedAmong_fields _ _ _ r).2.1, (closedAmong_fields _ _ _ r').2.1] at hp
      have hne : r ≠ r' := fun heq => hne (congrArg _ heq)
      exact (h.apart r hr r' hr' hp hne).imp Before.closedAmong Before.closedAmong
    · rw [(closedAmong_fields _ _ _ r).2.1] at hp
      exact .inl (hends r hr hp)
    · rw [(closedAmong_fields _ _ _ r').2.1] at hp
      exact .inr (hends r' hr' hp.symm)
    · exact absurd rfl hne
  · intro q hq
    have hnew := hdone.mem_iff.mpr
      (.inr (rfl : (⟨call.assignmentId, call.positionId, call.userId, t, none⟩ :
        OrgPositionAssignment) = _))
    by_cases hp : q.positionId = call.positionId
    · exact ⟨_, hnew, hp.symm, rfl⟩
    · rcases hdone.mem_iff.mp hq with ⟨r, hr, rfl⟩ | rfl
      · rw [(closedAmong_fields _ _ _ r).2.1] at hp ⊢
        obtain ⟨o, ho, hop, hoo⟩ := h.current r hr
        have hsame : closedAmong call.positionId held t o = o :=
          closedAmong_other (hop ▸ hp)
        exact ⟨o, hdone.mem_iff.mpr (.inl ⟨o, ho, hsame⟩), hop, hoo⟩
      · exact absurd rfl hp

/-- A call that does not leaves a second open term, or one that does not start before it ends. -/
theorem AssignCall.Done.succeeds (h : (own db).Consistent) : call.Succeeds held own db := by
  refine hdone.succeeds_iff.mpr fun r hr hp hopen => ?_
  have hq := hdone.mem_iff.mpr (.inl ⟨r, hr, rfl⟩)
  have hend := closedAmong_open held t hp hopen
  by_cases hheld : PositionRow.assignment r.id ∈ held
  · rw [if_pos hheld] at hend
    have hlt := h.ordered _ hq t hend
    rw [(closedAmong_fields _ _ _ r).2.2] at hlt
    exact ⟨hheld, hlt⟩
  · rw [if_neg hheld] at hend
    have heq := h.oneOpen _ hq _ (hdone.mem_iff.mpr (.inr rfl))
      ((closedAmong_fields _ _ _ r).2.1.trans hp) hend rfl
    have hid := congrArg OrgPositionAssignment.id heq
    rw [(closedAmong_fields _ _ _ r).1] at hid
    exact absurd hid (hdone.fresh r hr)

end Commit

/-! ## 4. Runs -/

/-- Every call succeeds the incumbent when it commits. -/
def CallsSucceed (s : PositionSys) (a : Action AssignCall) : Prop :=
  ∀ i pre tx post, a = .commit i → focus s.txs i = some (pre, tx, post) →
    tx.label.Succeeds tx.rows tx.own s.db

instance (call : AssignCall) (held : List PositionRow) (own : PositionDb → PositionDb)
    (db : PositionDb) : Decidable (call.Succeeds held own db) := by
  unfold AssignCall.Succeeds
  infer_instance

/-- The same, to be evaluated. -/
def callsSucceed (s : PositionSys) : Action AssignCall → Bool
  | .commit i => (focus s.txs i).all fun (_, tx, _) => tx.label.Succeeds tx.rows tx.own s.db
  | _ => true

theorem CallsSucceed.of_eval {s : PositionSys} {a : Action AssignCall}
    (h : callsSucceed s a = true) : CallsSucceed s a := by
  rintro i pre tx post rfl hf
  simpa [callsSucceed, hf] using h

/-- The proof that this is enough. -/
def termsOutline : Outline (ε := OrgError) assignPosition CallsSucceed where
  inv db _ _ := db.Terms
  rely _ := positionRely
  post call _ w := ∃ t, call.Done w.rows w.own w.db t
  tick h _ := h
  runs _ _ := assignPosition_wp _ rfl rfl
  commit {s i pre tx post s'} hok hs hf _ hinv hpost := by
    obtain ⟨t, hdone⟩ := hpost
    obtain ⟨pre', ty, post', u, hf', -, rfl⟩ := step_commit hs
    rw [hf] at hf'
    cases hf'
    exact ⟨hdone.terms hinv (hok i pre tx post rfl hf), fun _ _ => le_refl _⟩

/-- **The terms of a position are consistent** in every run whose calls succeed the incumbent when
they commit; and the first commit of a call that does not ends that. -/
theorem positionTerms_consistent_iff (db : PositionDb) (t : Int) (hdb : db.Terms) (s : PositionSys)
    (hr : Run assignPosition CallsSucceed (Sys.idle db t) s) :
    s.db.Consistent ∧ ∀ a s', step assignPosition s a = some s' →
      (s'.db.Consistent ↔ CallsSucceed s a) := by
  have hholds := termsOutline.holds_run (termsOutline.holds_idle hdb) hr
  have hterms : s.db.Terms := hholds.inv
  refine ⟨hterms.toConsistent, fun a s' hs => ?_⟩
  by_cases ha : ∃ i, a = .commit i
  · obtain ⟨i, rfl⟩ := ha
    obtain ⟨pre, tx, post, hf, ⟨t, hdone⟩, rfl⟩ := termsOutline.holds_commit hholds hs
    constructor
    · intro hconsistent j pre' ty post' hj hf'
      cases hj
      rw [hf] at hf'
      cases hf'
      exact hdone.succeeds hconsistent
    · intro hsucceeds
      exact (hdone.terms hterms (hsucceeds i pre tx post rfl hf)).toConsistent
  -- no other step changes what is committed
  · have hdb : s'.db = s.db := by
      rcases step_cases hs with ⟨t, -, -, rfl⟩ | ⟨l, -, rfl⟩ | ⟨i, pre, tx, post, -, -, -, rfl⟩ |
        ⟨i, pre, tx, post, tx', -, -, -, rfl⟩ | ⟨i, pre, tx, post, u, hi, -⟩ |
        ⟨i, pre, tx, post, -, -, rfl⟩
      all_goals first | rfl | exact absurd ⟨i, hi⟩ ha
    rw [hdb]
    exact iff_of_true hterms.toConsistent fun i _ _ _ hi _ => absurd ⟨i, hi⟩ ha

/-! ### 4.1 A backdated term, and two calls at once -/

/-- A vacant position and two users. -/
def vacantPosition : PositionDb := { positions := [{ id := 1 }], userIds := [10, 11] }

theorem vacantPosition_terms : vacantPosition.Terms where
  ordered := nofun
  apart := nofun
  oneOpen := nofun
  current := nofun

def assignFirst : AssignCall := ⟨1, 10, some 20, 100⟩

/-- The second incumbent, from a given start. -/
def assignSecond (startAt : Int) : AssignCall := ⟨1, 11, some startAt, 101⟩

/-- `n` statements of the transaction at place `i`. -/
def statements (i n : Nat) : List (Action AssignCall) := List.replicate n (.statement i)

/-- One call after the other. -/
def assignedInTurn (startAt : Int) : List (Action AssignCall) :=
  [.begin assignFirst, .start 0] ++ statements 0 3 ++ [.commit 0] ++
    [.begin (assignSecond startAt), .start 0] ++ statements 0 3 ++ [.commit 0]

/-- The second call's UPDATE runs before the first call commits. -/
def assignedAtOnce (startAt : Int) : List (Action AssignCall) :=
  [.begin assignFirst, .start 0, .begin (assignSecond startAt), .start 1] ++ statements 0 3 ++
    statements 1 2 ++ [.commit 0] ++ statements 0 1 ++ [.commit 0]

def termsOf (s : PositionSys) : List (Int × Option Int) :=
  s.db.assignments.map fun r => (r.startAt, r.endAt)

theorem positionTerms_consistent_inTurn :
    ∃ s, Run assignPosition CallsSucceed (Sys.idle vacantPosition 0) s ∧
      termsOf s = [(20, some 30), (30, none)] ∧ s.db.Consistent := by
  have hrun : (replay assignPosition callsSucceed (Sys.idle vacantPosition 0)
      (assignedInTurn 30)).map termsOf = some [(20, some 30), (30, none)] := by decide +kernel
  obtain ⟨s, hs, hterms⟩ := Option.map_eq_some_iff.mp hrun
  have hr : Run assignPosition CallsSucceed (Sys.idle vacantPosition 0) s :=
    run_of_replay (fun _ _ => CallsSucceed.of_eval) .refl hs
  exact ⟨s, hr, hterms,
    (positionTerms_consistent_iff vacantPosition 0 vacantPosition_terms s hr).1⟩

/-- **A backdated assignment ends the first term before its start, and two calls at once leave two
open terms.** -/
theorem positionTerms_not_consistent :
    (∃ s, Run assignPosition (fun _ _ => True) (Sys.idle vacantPosition 0) s ∧
      termsOf s = [(20, some 10), (10, none)] ∧ ¬s.db.Consistent) ∧
    ∃ s, Run assignPosition (fun _ _ => True) (Sys.idle vacantPosition 0) s ∧
      termsOf s = [(20, none), (30, none)] ∧ ¬s.db.Consistent := by
  have hturn : (replay assignPosition (fun _ _ => true) (Sys.idle vacantPosition 0)
      (assignedInTurn 10)).map (fun s => s.db.assignments) =
        some [⟨100, 1, 10, 20, some 10⟩, ⟨101, 1, 11, 10, none⟩] := by decide +kernel
  have honce : (replay assignPosition (fun _ _ => true) (Sys.idle vacantPosition 0)
      (assignedAtOnce 30)).map (fun s => s.db.assignments) =
        some [⟨100, 1, 10, 20, none⟩, ⟨101, 1, 11, 30, none⟩] := by decide +kernel
  obtain ⟨s, hs, hrows⟩ := Option.map_eq_some_iff.mp hturn
  obtain ⟨s', hs', hrows'⟩ := Option.map_eq_some_iff.mp honce
  refine ⟨⟨s, run_of_replay (fun _ _ _ => trivial) .refl hs, by rw [termsOf, hrows]; rfl,
    fun h => ?_⟩, s', run_of_replay (fun _ _ _ => trivial) .refl hs',
    by rw [termsOf, hrows']; rfl, fun h => ?_⟩
  · have hordered := h.ordered
    rw [hrows] at hordered
    exact absurd (hordered _ List.mem_cons_self 10 rfl) (by decide)
  · have hopen := h.oneOpen
    rw [hrows'] at hopen
    exact absurd (hopen _ List.mem_cons_self _ (List.mem_cons_of_mem _ List.mem_cons_self) rfl rfl
      rfl) (by decide)

end NewlifeCore.Org
