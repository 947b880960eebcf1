import NewlifeCore.Txn.Script

/-!
# Requests side by side

Any number of scripts over one committed database and one store, step by step.  Every SELECT sees
the data committed before it plus the writes of its own session; a write whose rows another
request holds cannot be made before that request is over; a command of the store takes effect at
once.  A request that returned commits its session when it ends, one that raised rolls it back.

Requests are numbered in the order they begin.  `step` is executable, so an interleaving is
replayed by evaluating it.
-/

namespace NewlifeCore.Txn

variable {σ ρ τ ε α L : Type} [RowStore σ ρ]

/-- What a request that is over has returned or raised. -/
def Script.result : Script σ ρ τ ε α → Option (Except ε α)
  | .ret a => some (.ok a)
  | .raise e => some (.error e)
  | _ => none

theorem Script.result_ok {p : Script σ ρ τ ε α} {a : α} (h : p.result = some (.ok a)) :
    p = .ret a := by
  cases p <;> cases h
  rfl

/-! ## 1. The system -/

/-- A request being served, with what its session wrote and locked. -/
structure Visit (σ ρ τ ε α L : Type) [RowStore σ ρ] where
  label : L
  script : Script σ ρ τ ε α
  own : σ → σ := id
  rows : List ρ := []
  /-- The committed database its last SELECT ran on. -/
  saw : Option σ := none

/-- The committed database, the store, the clock and the requests being served. -/
structure Desk (σ ρ τ ε α L : Type) [RowStore σ ρ] where
  db : σ
  store : τ
  clock : Int
  visits : Nat → Option (Visit σ ρ τ ε α L) := fun _ => none
  next : Nat := 0

/-- What may happen next. -/
inductive Turn (L : Type) where
  | tick (t : Int)
  | begin (label : L)
  /-- The next statement or command of a request. -/
  | act (n : Nat)
  /-- The end of a request, with its commit or rollback. -/
  | finish (n : Nat)

namespace Desk

variable (s : Desk σ ρ τ ε α L)

/-- Request `n` becomes `v`, or is over. -/
def put (n : Nat) (v : Option (Visit σ ρ τ ε α L)) : Desk σ ρ τ ε α L :=
  { s with visits := fun m => if m = n then v else s.visits m }

@[simp] theorem put_visits (n m : Nat) (v : Option (Visit σ ρ τ ε α L)) :
    (s.put n v).visits m = if m = n then v else s.visits m := rfl

variable {s} in
/-- Who is there after request `n` has become `v`. -/
theorem put_cases {n m : Nat} {v : Option (Visit σ ρ τ ε α L)} {w : Visit σ ρ τ ε α L}
    (h : (s.put n v).visits m = some w) :
    (m = n ∧ v = some w) ∨ (m ≠ n ∧ s.visits m = some w) := by
  by_cases hm : m = n
  · exact .inl ⟨hm, (if_pos hm).symm.trans h⟩
  · exact .inr ⟨hm, (if_neg hm).symm.trans h⟩

/-- What request `v` sees. -/
def midway (v : Visit σ ρ τ ε α L) : Midway σ τ := ⟨v.own s.db, s.db, s.store⟩

/-- No other request holds one of the rows. -/
def rowsFree [DecidableEq ρ] (n : Nat) (rows : List ρ) : Bool :=
  (List.range s.next).all fun m => m = n || (s.visits m).all fun v => rows.all fun x => x ∉ v.rows

variable [DecidableEq ρ]

/-- The next statement or command of request `n`; `none` while it has to wait, and at its end. -/
def act (n : Nat) (v : Visit σ ρ τ ε α L) : Option (Desk σ ρ τ ε α L) :=
  match v.script with
  | .ret _ => none
  | .raise _ => none
  | .read q k => some (s.put n (some { v with script := k (q (v.own s.db) s.clock), saw := s.db }))
  | .clock k => some (s.put n (some { v with script := k s.clock }))
  | .write stmt k =>
    match stmt (v.own s.db) with
    | .error e => some (s.put n (some { v with script := .raise e }))
    | .ok c =>
      if s.rowsFree n c.rows then
        some (s.put n (some { v with script := k c.rows.length, own := c.apply ∘ v.own
                                     rows := c.rows ++ v.rows }))
      else none
  | .command c k =>
    some { s.put n (some { v with script := k (c s.store s.clock).2 }) with
      store := (c s.store s.clock).1 }
  | .commit k =>
    some { s.put n (some { v with script := k, own := id, rows := [] }) with db := v.own s.db }

/-- The end of request `n`. -/
def finish (n : Nat) (v : Visit σ ρ τ ε α L) : Option (Desk σ ρ τ ε α L) :=
  match v.script.result with
  | some (.ok _) => some { s.put n none with db := v.own s.db }
  | some (.error _) => some (s.put n none)
  | none => none

/-- One step of the system; `none` when the turn is not possible. -/
def step (body : L → Script σ ρ τ ε α) : Turn L → Option (Desk σ ρ τ ε α L)
  | .tick t => if s.clock ≤ t then some { s with clock := t } else none
  | .begin label =>
    some { s.put s.next (some { label, script := body label }) with next := s.next + 1 }
  | .act n => (s.visits n).bind (s.act n)
  | .finish n => (s.visits n).bind (s.finish n)

/-- The state after a list of turns, each of them possible. -/
def replay (body : L → Script σ ρ τ ε α) : Desk σ ρ τ ε α L → List (Turn L) →
    Option (Desk σ ρ τ ε α L)
  | s, [] => some s
  | s, a :: as => (s.step body a).bind fun s' => replay body s' as

/-- **The runs whose turns all meet `ok`**, turn added at the end. -/
inductive Run (body : L → Script σ ρ τ ε α) (ok : Desk σ ρ τ ε α L → Turn L → Prop)
    (s₀ : Desk σ ρ τ ε α L) : Desk σ ρ τ ε α L → Prop
  | refl : Run body ok s₀ s₀
  | tail {s s' : Desk σ ρ τ ε α L} (a : Turn L) : Run body ok s₀ s → ok s a →
      s.step body a = some s' → Run body ok s₀ s'

end Desk

namespace Desk

variable [DecidableEq ρ] {body : L → Script σ ρ τ ε α} {ok : Desk σ ρ τ ε α L → Turn L → Prop}
  {s s' s₀ : Desk σ ρ τ ε α L}

/-! ## 2. What a step can be -/

/-- **Everything a step can be.** -/
theorem step_cases {a : Turn L} (h : s.step body a = some s') :
    (∃ t, a = .tick t ∧ s.clock ≤ t ∧ s' = { s with clock := t }) ∨
    (∃ l, a = .begin l ∧
      s' = { s.put s.next (some { label := l, script := body l }) with next := s.next + 1 }) ∨
    (∃ n v, a = .act n ∧ s.visits n = some v ∧ s.act n v = some s') ∨
    (∃ n v, a = .finish n ∧ s.visits n = some v ∧ s.finish n v = some s') := by
  cases a with
  | tick t =>
    simp only [step] at h
    split at h
    · exact .inl ⟨t, rfl, ‹_›, (Option.some.inj h).symm⟩
    · cases h
  | begin l => exact .inr (.inl ⟨l, rfl, (Option.some.inj h).symm⟩)
  | act n =>
    obtain ⟨v, hv, h⟩ := Option.bind_eq_some_iff.mp h
    exact .inr (.inr (.inl ⟨n, v, rfl, hv, h⟩))
  | finish n =>
    obtain ⟨v, hv, h⟩ := Option.bind_eq_some_iff.mp h
    exact .inr (.inr (.inr ⟨n, v, rfl, hv, h⟩))

omit [DecidableEq ρ] in
/-- The end of a request that returned publishes its session, of one that raised nothing. -/
theorem finish_cases {n : Nat} {v : Visit σ ρ τ ε α L} (h : s.finish n v = some s') :
    (∃ a, v.script = .ret a ∧ s' = { s.put n none with db := v.own s.db }) ∨
      ∃ e, v.script = .raise e ∧ s' = s.put n none := by
  unfold finish at h
  cases hv : v.script with
  | ret a => exact .inl ⟨a, rfl, by simpa [hv, Script.result] using h.symm⟩
  | raise e => exact .inr ⟨e, rfl, by simpa [hv, Script.result] using h.symm⟩
  | _ => simp [hv, Script.result] at h

/-- **A statement or command is a step of the request run alone**: its rest comes to the same. -/
theorem act_exec {n : Nat} {v : Visit σ ρ τ ε α L} (h : s.act n v = some s') :
    ∃ v', s'.visits = (s.put n (some v')).visits ∧ s'.clock = s.clock ∧ s'.next = s.next ∧
      v'.label = v.label ∧
      v'.script.exec (s'.midway v') s.clock = v.script.exec (s.midway v) s.clock := by
  unfold act at h
  split at h
  · cases h
  · cases h
  all_goals rename_i hscript
  · cases h
    refine ⟨_, rfl, rfl, rfl, rfl, ?_⟩
    rw [hscript]
    rfl
  · cases h
    refine ⟨_, rfl, rfl, rfl, rfl, ?_⟩
    rw [hscript]
    rfl
  · split at h
    · rename_i e hstmt
      cases h
      refine ⟨_, rfl, rfl, rfl, rfl, ?_⟩
      rw [hscript]
      simp only [Script.exec, midway, hstmt]
      rfl
    · rename_i c hstmt
      split at h
      · cases h
        refine ⟨_, rfl, rfl, rfl, rfl, ?_⟩
        rw [hscript]
        simp only [Script.exec, midway, hstmt]
        rfl
      · cases h
  · cases h
    refine ⟨_, rfl, rfl, rfl, rfl, ?_⟩
    rw [hscript]
    rfl
  · cases h
    refine ⟨_, rfl, rfl, rfl, rfl, ?_⟩
    rw [hscript]
    rfl

/-- Request `n` has become `v`, and nobody else anything. -/
structure ActedTo (s s' : Desk σ ρ τ ε α L) (n : Nat) (v : Visit σ ρ τ ε α L) : Prop where
  visits : s'.visits = (s.put n (some v)).visits
  clock : s'.clock = s.clock
  next : s'.next = s.next

section ActedTo

omit [DecidableEq ρ]

variable {n m : Nat} {v w : Visit σ ρ τ ε α L}

theorem ActedTo.self (h : s.ActedTo s' n v) : s'.visits n = some v := by
  rw [h.visits]
  exact if_pos rfl

theorem ActedTo.other (h : s.ActedTo s' n v) (hm : m ≠ n) : s'.visits m = s.visits m := by
  rw [h.visits]
  exact if_neg hm

/-- Who is there after the step. -/
theorem ActedTo.cases (h : s.ActedTo s' n v) (hw : s'.visits m = some w) :
    (m = n ∧ w = v) ∨ (m ≠ n ∧ s.visits m = some w) := by
  rw [h.visits] at hw
  exact (put_cases hw).imp_left fun ⟨hm, hv⟩ => ⟨hm, (Option.some.inj hv).symm⟩

/-- Nobody is new when a request has ended, and it is gone. -/
theorem finish_other (h : s.finish n v = some s') (hw : s'.visits m = some w) :
    m ≠ n ∧ s.visits m = some w := by
  rcases finish_cases h with ⟨g, -, rfl⟩ | ⟨e, -, rfl⟩
  · rcases put_cases hw with ⟨-, hw⟩ | hw
    · cases hw
    · exact hw
  · rcases put_cases hw with ⟨-, hw⟩ | hw
    · cases hw
    · exact hw

end ActedTo

/-- A step of a request leaves its label alone. -/
theorem act_label {n : Nat} {v : Visit σ ρ τ ε α L} (h : s.act n v = some s') :
    ∃ v', v'.label = v.label ∧ s.ActedTo s' n v' := by
  obtain ⟨v', hvisits, hclock, hnext, hlabel, -⟩ := act_exec h
  exact ⟨v', hlabel, hvisits, hclock, hnext⟩

/-! ## 3. Invariants -/

/-- **What every step keeps, every run keeps.** -/
theorem Run.invariant {I : Desk σ ρ τ ε α L → Prop} (h₀ : I s₀)
    (hstep : ∀ s a s', I s → ok s a → s.step body a = some s' → I s') (h : Run body ok s₀ s) :
    I s := by
  induction h with
  | refl => exact h₀
  | tail a _ hok hs ih => exact hstep _ a _ ih hok hs

theorem Run.of_replay : ∀ {as : List (Turn L)} {s s' : Desk σ ρ τ ε α L},
    (∀ a ∈ as, ∀ s, ok s a) → Run body ok s₀ s → replay body s as = some s' → Run body ok s₀ s'
  | [], _, _, _, hr, h => by cases h; exact hr
  | a :: as, s, s', hok, hr, h => by
    obtain ⟨s₁, h₁, h₂⟩ := Option.bind_eq_some_iff.mp h
    have ha := hok a List.mem_cons_self s
    exact Run.of_replay (fun b hb => hok b (List.mem_cons_of_mem a hb)) (hr.tail a ha h₁) h₂

/-- The clock never goes back. -/
theorem step_clock (h : s.step body a = some s') : s.clock ≤ s'.clock := by
  rcases step_cases h with ⟨t, -, ht, rfl⟩ | ⟨l, -, rfl⟩ | ⟨n, v, -, -, hact⟩ | ⟨n, v, -, -, hend⟩
  · exact ht
  · exact Int.le_refl _
  · obtain ⟨v', -, hclock, -⟩ := act_exec hact
    exact Int.le_of_eq hclock.symm
  · rcases finish_cases hend with ⟨g, -, rfl⟩ | ⟨e, -, rfl⟩
    · exact Int.le_refl _
    · exact Int.le_refl _

theorem Run.clock_le (h : Run body ok s s') : s.clock ≤ s'.clock :=
  h.invariant (I := fun s₁ => s.clock ≤ s₁.clock) (Int.le_refl _)
    fun _ _ _ hs _ hstep => Int.le_trans hs (step_clock hstep)

theorem Run.mono {ok' : Desk σ ρ τ ε α L → Turn L → Prop} (h : Run body ok s s')
    (hok : ∀ s a, ok s a → ok' s a) : Run body ok' s s' := by
  induction h with
  | refl => exact .refl
  | tail a _ ha hstep ih => exact ih.tail a (hok _ a ha) hstep

theorem Run.trans {s₁ : Desk σ ρ τ ε α L} (h : Run body ok s s₁)
    (h' : Run body ok s₁ s') : Run body ok s s' := by
  induction h' with
  | refl => exact h
  | tail a _ ha hstep ih => exact ih.tail a ha hstep

/-- The numbers from `next` on are not taken yet. -/
def Vacant (s : Desk σ ρ τ ε α L) : Prop := ∀ n, s.next ≤ n → s.visits n = none

omit [DecidableEq ρ] in
theorem Vacant.lt (h : s.Vacant) {n : Nat} {v : Visit σ ρ τ ε α L} (hv : s.visits n = some v) :
    n < s.next := by
  by_contra hle
  rw [h n (Nat.le_of_not_lt hle)] at hv
  cases hv

theorem Vacant.step {a : Turn L} (h : s.Vacant) (hstep : s.step body a = some s') : s'.Vacant := by
  intro m hm
  rcases step_cases hstep with ⟨t, -, -, rfl⟩ | ⟨l, -, rfl⟩ | ⟨n, v, -, hv, hact⟩ |
    ⟨n, v, -, hv, hend⟩
  · exact h m hm
  · have hne : m ≠ s.next := Nat.ne_of_gt hm
    exact (if_neg hne).trans (h m (Nat.le_of_succ_le hm))
  · obtain ⟨v', -, hto⟩ := act_label hact
    rw [hto.next] at hm
    rw [hto.other (Nat.ne_of_gt (Nat.lt_of_lt_of_le (h.lt hv) hm))]
    exact h m hm
  · have hne : m ≠ n := by
      rintro rfl
      have hlt := h.lt hv
      rcases finish_cases hend with ⟨g, -, rfl⟩ | ⟨e, -, rfl⟩
      · exact Nat.not_lt_of_le hm hlt
      · exact Nat.not_lt_of_le hm hlt
    rcases finish_cases hend with ⟨g, -, rfl⟩ | ⟨e, -, rfl⟩
    · exact (if_neg hne).trans (h m hm)
    · exact (if_neg hne).trans (h m hm)

/-- A condition on who begins. -/
instance {P : L → Prop} [DecidablePred P] :
    ∀ a : Turn L, Decidable (∀ l, a = .begin l → P l)
  | .begin l => decidable_of_iff (P l) ⟨fun h _ hl => Turn.begin.inj hl ▸ h, fun h => h l rfl⟩
  | .tick _ => .isTrue fun _ h => by cases h
  | .act _ => .isTrue fun _ h => by cases h
  | .finish _ => .isTrue fun _ h => by cases h

/-- The state after a list of turns, each of them possible and meeting `ok`. -/
def checkedReplay (body : L → Script σ ρ τ ε α) (ok : Desk σ ρ τ ε α L → Turn L → Prop)
    [∀ s a, Decidable (ok s a)] : Desk σ ρ τ ε α L → List (Turn L) → Option (Desk σ ρ τ ε α L)
  | s, [] => some s
  | s, a :: as =>
    if ok s a then (s.step body a).bind fun s' => checkedReplay body ok s' as else none

theorem Run.of_checkedReplay [∀ s a, Decidable (ok s a)] {as : List (Turn L)}
    (hr : Run body ok s₀ s) (h : checkedReplay body ok s as = some s') : Run body ok s₀ s' := by
  induction as generalizing s with
  | nil =>
    cases h
    exact hr
  | cons a as ih =>
    unfold checkedReplay at h
    split at h
    · obtain ⟨s₁, hstep, h⟩ := Option.bind_eq_some_iff.mp h
      exact ih (hr.tail a ‹_› hstep) h
    · cases h

/-! ## 4. Runs with their turns -/

/-- The turns, each of them possible and meeting `ok`, lead from a state to a state. -/
def Follows (body : L → Script σ ρ τ ε α) (ok : Desk σ ρ τ ε α L → Turn L → Prop) :
    Desk σ ρ τ ε α L → List (Turn L) → Desk σ ρ τ ε α L → Prop
  | s, [], s' => s' = s
  | s, a :: as, s' => ok s a ∧ ∃ s₁, s.step body a = some s₁ ∧ Follows body ok s₁ as s'

theorem Follows.append : ∀ {as bs : List (Turn L)} {s s' : Desk σ ρ τ ε α L},
    Follows body ok s (as ++ bs) s' ↔ ∃ s₁, Follows body ok s as s₁ ∧ Follows body ok s₁ bs s'
  | [], _, s, _ => ⟨fun h => ⟨s, rfl, h⟩, fun ⟨_, h₁, h⟩ => h₁ ▸ h⟩
  | a :: as, bs, s, s' => by
    constructor
    · rintro ⟨hok, s₁, hstep, h⟩
      obtain ⟨s₂, h₁, h₂⟩ := Follows.append.mp h
      exact ⟨s₂, ⟨hok, s₁, hstep, h₁⟩, h₂⟩
    · rintro ⟨s₂, ⟨hok, s₁, hstep, h₁⟩, h₂⟩
      exact ⟨hok, s₁, hstep, Follows.append.mpr ⟨s₂, h₁, h₂⟩⟩

theorem Follows.of_replay : ∀ {as : List (Turn L)} {s s' : Desk σ ρ τ ε α L},
    replay body s as = some s' → Follows body (fun _ _ => True) s as s'
  | [], _, _, h => (Option.some.inj h).symm
  | a :: as, s, s', h => by
    obtain ⟨s₁, h₁, h₂⟩ := Option.bind_eq_some_iff.mp h
    exact ⟨trivial, s₁, h₁, Follows.of_replay h₂⟩

theorem Follows.of_checkedReplay {ok' : Desk σ ρ τ ε α L → Turn L → Prop}
    [∀ s a, Decidable (ok' s a)] (hok : ∀ s a, ok' s a → ok s a) :
    ∀ {as : List (Turn L)} {s s' : Desk σ ρ τ ε α L},
      checkedReplay body ok' s as = some s' → Follows body ok s as s'
  | [], _, _, h => (Option.some.inj h).symm
  | a :: as, s, s', h => by
    obtain ⟨ha, h⟩ := Option.ite_none_right_eq_some.mp h
    obtain ⟨s₁, hstep, h⟩ := Option.bind_eq_some_iff.mp h
    exact ⟨hok s a ha, s₁, hstep, Follows.of_checkedReplay hok h⟩

/-- The committed databases along some turns, as far as they are possible. -/
def databases (body : L → Script σ ρ τ ε α) : Desk σ ρ τ ε α L → List (Turn L) → List σ
  | s, [] => [s.db]
  | s, a :: as => s.db :: ((s.step body a).map fun s' => databases body s' as).getD []

/-- A database on the way is one of those along the turns. -/
theorem Follows.db_mem : ∀ {before as : List (Turn L)} {s s' : Desk σ ρ τ ε α L},
    before <+: as → Follows body ok s before s' → s'.db ∈ databases body s as
  | [], as, s, s', _, h => by
    obtain rfl : s' = s := h
    cases as with
    | nil => exact List.mem_singleton_self _
    | cons a as => exact List.mem_cons_self
  | b :: before, as, s, s', hprefix, h => by
    cases as with
    | nil => exact absurd hprefix (by simp)
    | cons a as =>
      obtain ⟨rfl, hrest⟩ := List.cons_prefix_cons.mp hprefix
      obtain ⟨-, s₁, hstep, h⟩ := h
      unfold databases
      rw [hstep]
      exact List.mem_cons_of_mem _ (Follows.db_mem hrest h)

end Desk

end NewlifeCore.Txn
