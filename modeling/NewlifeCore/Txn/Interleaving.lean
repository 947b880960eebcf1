import NewlifeCore.Txn.Rely

/-!
# READ COMMITTED, statement by statement

Any number of transactions over one committed database.  Every statement sees the data committed
before it plus its own transaction's writes; a write locks its rows and an advisory lock its key
to the end of the transaction; a commit publishes the transaction's changes at once; the clock
only grows.  A transaction may be rolled back at any moment, an exception included.

A write that finds one of its rows locked waits, and what it will change is settled then: once it
has its rows, it changes those it was issued for, as they are by now, and no others.

`step` is executable, so a particular interleaving is replayed by evaluating it.  `Run` collects
the runs whose steps all meet a condition, and `Run.rely_invariant` is how such runs are reasoned
about: a `wp` proof for each body, and for each commit that it keeps the invariant and what the
other open transactions rely on.
-/

namespace NewlifeCore.Txn

/-! ## 1. The system -/

/-- One open transaction, serving the call `label`. -/
structure Tx (σ ρ κ ε L : Type) [RowStore σ ρ] extends Session σ ρ κ where
  label : L
  began : Int
  prog : Prog σ ρ κ ε Unit
  /-- The change of a write that is waiting for its rows. -/
  issued : Option (Change σ ρ) := none

/-- A committed call and the span of the clock it ran in. -/
structure Finished (L : Type) where
  label : L
  began : Int
  ended : Int

/-- The committed database, the clock, the open transactions and the calls committed so far. -/
structure Sys (σ ρ κ ε L : Type) [RowStore σ ρ] where
  db : σ
  clock : Int
  txs : List (Tx σ ρ κ ε L)
  finished : List (Finished L)

/-- What may happen next; transactions are named by their place in the list. -/
inductive Action (L : Type) where
  | tick (t : Int)
  | begin (label : L)
  /-- The first `execute` of a connection opens its transaction. -/
  | start (i : Nat)
  | statement (i : Nat)
  | commit (i : Nat)
  | rollback (i : Nat)

section System

variable {σ ρ κ ε L : Type} [RowStore σ ρ]

/-- The moment `tx` is at. -/
def Tx.view (tx : Tx σ ρ κ ε L) (db : σ) (clock : Int) : View σ ρ κ :=
  { toSession := tx.toSession, db, clock }

/-- The transaction at place `i`, what is before it and what is after it. -/
def focus (txs : List (Tx σ ρ κ ε L)) (i : Nat) :
    Option (List (Tx σ ρ κ ε L) × Tx σ ρ κ ε L × List (Tx σ ρ κ ε L)) :=
  match txs.drop i with
  | [] => none
  | tx :: post => some (txs.take i, tx, post)

theorem focus_some {txs pre post : List (Tx σ ρ κ ε L)} {i : Nat} {tx : Tx σ ρ κ ε L}
    (h : focus txs i = some (pre, tx, post)) : txs = pre ++ tx :: post := by
  unfold focus at h
  split at h
  · cases h
  · rename_i tx' post' hd
    simp only [Option.some.injEq, Prod.mk.injEq] at h
    obtain ⟨rfl, rfl, rfl⟩ := h
    rw [← hd, List.take_append_drop]

/-! ### 1.1 Locks exclude -/

/-- Two open transactions hold no key and no row in common. -/
def Tx.Apart (a b : Tx σ ρ κ ε L) : Prop :=
  (∀ l ∈ a.locks, l ∉ b.locks) ∧ ∀ x ∈ a.rows, x ∉ b.rows

theorem Tx.Apart.symm {a b : Tx σ ρ κ ε L} (h : a.Apart b) : b.Apart a :=
  ⟨fun l hb ha => h.1 l ha hb, fun x hb ha => h.2 x ha hb⟩

/-- A transaction touches no row but those it locked. -/
def Tx.Framed (tx : Tx σ ρ κ ε L) : Prop :=
  ∀ db x, x ∉ tx.rows → RowStore.row (tx.own db) x = RowStore.row db x

/-- What holds of the open transactions of every run. -/
structure Sys.WellFormed (s : Sys σ ρ κ ε L) : Prop where
  apart : s.txs.Pairwise Tx.Apart
  framed : ∀ tx ∈ s.txs, tx.Framed

theorem pairwise_focus {pre post : List (Tx σ ρ κ ε L)} {tx : Tx σ ρ κ ε L} :
    (pre ++ tx :: post).Pairwise Tx.Apart ↔
      (pre ++ post).Pairwise Tx.Apart ∧ ∀ o ∈ pre ++ post, tx.Apart o := by
  constructor
  · intro h
    refine ⟨h.sublist (by simp), fun o ho => ?_⟩
    have h' := List.pairwise_append.mp h
    rcases List.mem_append.mp ho with ho | ho
    · exact (h'.2.2 o ho tx (by simp)).symm
    · exact (List.pairwise_cons.mp h'.2.1).1 o ho
  · rintro ⟨h, htx⟩
    have h' := List.pairwise_append.mp h
    refine List.pairwise_append.mpr ⟨h'.1, List.pairwise_cons.mpr
      ⟨fun o ho => htx o (by simp [ho]), h'.2.1⟩, fun a ha b hb => ?_⟩
    rcases List.mem_cons.mp hb with rfl | hb
    · exact (htx a (by simp [ha])).symm
    · exact h'.2.2 a ha b hb

/-! ### 1.2 Steps -/

variable [DecidableEq ρ] [DecidableEq κ]

/-- No other transaction holds the key. -/
def keyFree (others : List (Tx σ ρ κ ε L)) (l : κ) : Bool :=
  others.all fun o => !o.locks.contains l

/-- No other transaction holds one of the rows. -/
def rowsFree (others : List (Tx σ ρ κ ε L)) (rows : List ρ) : Bool :=
  others.all fun o => rows.all fun x => !o.rows.contains x

/-- The next statement of `tx`, or that it starts to wait; `none` while it has to go on waiting, or
when there is none.  Constraints are checked when the write is made, waiting or not. -/
def Tx.statement (tx : Tx σ ρ κ ε L) (db : σ) (clock : Int) (others : List (Tx σ ρ κ ε L)) :
    Option (Tx σ ρ κ ε L) :=
  match tx.prog with
  | .ret _ => none
  | .raise _ => none
  | .read q k => some { tx with prog := k (q (tx.view db clock).seen (tx.view db clock).sqlNow) }
  | .clock k => some { tx with prog := k clock }
  | .lock l k =>
    if tx.started.isSome && keyFree others l then
      some { tx with prog := k, locks := l :: tx.locks }
    else none
  | .tryLock l k =>
    if keyFree others l then some { tx with prog := k true, locks := l :: tx.locks }
    else some { tx with prog := k false }
  | .write stmt k =>
    if tx.started.isSome then
      match stmt (tx.view db clock).seen with
      | .error e => some { tx with prog := .raise e, issued := none }
      | .ok c' =>
        let c := tx.issued.getD c'
        if rowsFree others c.rows then
          some { tx with
            prog := k (c.still c').length, issued := none, own := c.apply ∘ tx.own
            rows := c.rows ++ tx.rows }
        else if tx.issued.isNone then some { tx with issued := some c' }
        else none
    else none

/-- One step of the system; `none` when the action is not possible. -/
def step (body : L → Prog σ ρ κ ε Unit) (s : Sys σ ρ κ ε L) : Action L → Option (Sys σ ρ κ ε L)
  | .tick t => if s.clock ≤ t then some { s with clock := t } else none
  | .begin label =>
    some { s with txs := s.txs ++ [{ Session.fresh with label, began := s.clock,
                                                        prog := body label }] }
  | .start i =>
    match focus s.txs i with
    | some (pre, tx, post) =>
      if tx.started.isNone then
        some { s with txs := pre ++ { tx with started := some s.clock } :: post }
      else none
    | none => none
  | .statement i =>
    match focus s.txs i with
    | some (pre, tx, post) =>
      (tx.statement s.db s.clock (pre ++ post)).map fun tx' =>
        { s with txs := pre ++ tx' :: post }
    | none => none
  | .commit i =>
    match focus s.txs i with
    | some (pre, tx, post) =>
      match tx.prog with
      | .ret _ =>
        some { s with db := tx.own s.db, txs := pre ++ post,
                      finished := s.finished ++ [⟨tx.label, tx.began, s.clock⟩] }
      | _ => none
    | none => none
  | .rollback i =>
    match focus s.txs i with
    | some (pre, _, post) => some { s with txs := pre ++ post }
    | none => none

/-- The system with nothing running. -/
def Sys.idle (db : σ) (clock : Int) : Sys σ ρ κ ε L := ⟨db, clock, [], []⟩

/-- The state after a list of actions, each of them possible and meeting `ok`. -/
def replay (body : L → Prog σ ρ κ ε Unit) (ok : Sys σ ρ κ ε L → Action L → Bool) :
    Sys σ ρ κ ε L → List (Action L) → Option (Sys σ ρ κ ε L)
  | s, [] => some s
  | s, a :: as => if ok s a then (step body s a).bind fun s' => replay body ok s' as else none

/-- **The runs whose steps all meet `ok`**, step added at the end. -/
inductive Run (body : L → Prog σ ρ κ ε Unit) (ok : Sys σ ρ κ ε L → Action L → Prop)
    (s₀ : Sys σ ρ κ ε L) : Sys σ ρ κ ε L → Prop where
  | refl : Run body ok s₀ s₀
  | tail {s s'} (a : Action L) : Run body ok s₀ s → ok s a → step body s a = some s' →
      Run body ok s₀ s'

variable {body : L → Prog σ ρ κ ε Unit} {ok : Sys σ ρ κ ε L → Action L → Prop}
  {s s' s₀ : Sys σ ρ κ ε L}

/-! ## 2. What a step can be -/

/-- **Everything a step can be**, with the transaction it is about. -/
theorem step_cases {a : Action L} (h : step body s a = some s') :
    (∃ t, a = .tick t ∧ s.clock ≤ t ∧ s' = { s with clock := t }) ∨
    (∃ l, a = .begin l ∧ s' = { s with txs := s.txs ++ [{ Session.fresh with
        label := l, began := s.clock, prog := body l }] }) ∨
    (∃ i pre tx post, a = .start i ∧ focus s.txs i = some (pre, tx, post) ∧ tx.started = none ∧
      s' = { s with txs := pre ++ { tx with started := some s.clock } :: post }) ∨
    (∃ i pre tx post tx', a = .statement i ∧ focus s.txs i = some (pre, tx, post) ∧
      tx.statement s.db s.clock (pre ++ post) = some tx' ∧
      s' = { s with txs := pre ++ tx' :: post }) ∨
    (∃ i pre tx post u, a = .commit i ∧ focus s.txs i = some (pre, tx, post) ∧
      tx.prog = .ret u ∧ s' = { s with
        db := tx.own s.db, txs := pre ++ post,
        finished := s.finished ++ [⟨tx.label, tx.began, s.clock⟩] }) ∨
    (∃ i pre tx post, a = .rollback i ∧ focus s.txs i = some (pre, tx, post) ∧
      s' = { s with txs := pre ++ post }) := by
  cases a with
  | tick t =>
    simp only [step] at h
    split at h
    · exact .inl ⟨t, rfl, ‹_›, (Option.some.inj h).symm⟩
    · cases h
  | begin l => exact .inr (.inl ⟨l, rfl, (Option.some.inj h).symm⟩)
  | start i =>
    simp only [step] at h
    split at h
    · rename_i pre tx post hf
      split at h
      · refine .inr (.inr (.inl ⟨i, pre, tx, post, rfl, hf, ?_, (Option.some.inj h).symm⟩))
        simpa using ‹tx.started.isNone = true›
      · cases h
    · cases h
  | statement i =>
    simp only [step] at h
    split at h
    · rename_i pre tx post hf
      obtain ⟨tx', ht, rfl⟩ := Option.map_eq_some_iff.mp h
      exact .inr (.inr (.inr (.inl ⟨i, pre, tx, post, tx', rfl, hf, ht, rfl⟩)))
    · cases h
  | commit i =>
    simp only [step] at h
    split at h
    · rename_i pre tx post hf
      split at h
      · rename_i u hp
        exact .inr (.inr (.inr (.inr (.inl
          ⟨i, pre, tx, post, u, rfl, hf, hp, (Option.some.inj h).symm⟩))))
      · cases h
    · cases h
  | rollback i =>
    simp only [step] at h
    split at h
    · rename_i pre tx post hf
      exact .inr (.inr (.inr (.inr (.inr ⟨i, pre, tx, post, rfl, hf, (Option.some.inj h).symm⟩))))
    · cases h

theorem run_of_replay {okb : Sys σ ρ κ ε L → Action L → Bool}
    (hok : ∀ s a, okb s a = true → ok s a) :
    ∀ {as : List (Action L)} {s s' : Sys σ ρ κ ε L}, Run body ok s₀ s →
      replay body okb s as = some s' → Run body ok s₀ s'
  | [], _, _, hr, h => by cases h; exact hr
  | a :: as, s, s', hr, h => by
    simp only [replay] at h
    split at h
    · rename_i ha
      obtain ⟨s₁, h₁, h₂⟩ := Option.bind_eq_some_iff.mp h
      exact run_of_replay hok (hr.tail a (hok _ _ ha) h₁) h₂
    · cases h

/-! ## 3. One statement, seen from its transaction -/

omit [DecidableEq ρ] in
theorem keyFree_spec {others : List (Tx σ ρ κ ε L)} {l : κ} (h : keyFree others l = true) :
    ∀ o ∈ others, l ∉ o.locks := by
  simpa [keyFree] using h

omit [DecidableEq κ] in
theorem rowsFree_spec {others : List (Tx σ ρ κ ε L)} {rows : List ρ}
    (h : rowsFree others rows = true) : ∀ o ∈ others, ∀ x ∈ rows, x ∉ o.rows := by
  simpa [rowsFree] using h

namespace Tx

variable {tx tx' : Tx σ ρ κ ε L} {db : σ} {clock : Int} {others : List (Tx σ ρ κ ε L)}

/-- What a statement changes of its transaction: its program, and at most one lock. -/
theorem statement_cases (h : tx.statement db clock others = some tx') :
    (∃ p c, tx' = { tx with prog := p, issued := c }) ∨
    (∃ p l, (∀ o ∈ others, l ∉ o.locks) ∧ tx' = { tx with prog := p, locks := l :: tx.locks }) ∨
    (∃ p, ∃ c : Change σ ρ, (∀ o ∈ others, ∀ x ∈ c.rows, x ∉ o.rows) ∧
      tx' = { tx with prog := p, issued := none, own := c.apply ∘ tx.own
                      rows := c.rows ++ tx.rows }) := by
  unfold statement at h
  split at h
  · cases h
  · cases h
  · exact .inl ⟨_, _, (Option.some.inj h).symm⟩
  · exact .inl ⟨_, _, (Option.some.inj h).symm⟩
  · split at h
    · rename_i hc
      rw [Bool.and_eq_true] at hc
      exact .inr (.inl ⟨_, _, keyFree_spec hc.2, (Option.some.inj h).symm⟩)
    · cases h
  · split at h
    · rename_i hc
      exact .inr (.inl ⟨_, _, keyFree_spec hc, (Option.some.inj h).symm⟩)
    · exact .inl ⟨_, _, (Option.some.inj h).symm⟩
  · split at h
    · split at h
      · exact .inl ⟨_, _, (Option.some.inj h).symm⟩
      · dsimp only at h
        split at h
        · rename_i hc
          exact .inr (.inr ⟨_, _, rowsFree_spec hc, (Option.some.inj h).symm⟩)
        · split at h
          · exact .inl ⟨_, _, (Option.some.inj h).symm⟩
          · cases h
    · cases h

theorem statement_label (h : tx.statement db clock others = some tx') :
    tx'.label = tx.label ∧ tx'.began = tx.began := by
  rcases statement_cases h with ⟨p, c, rfl⟩ | ⟨p, l, -, rfl⟩ | ⟨p, c, -, rfl⟩ <;> exact ⟨rfl, rfl⟩

/-- **Where a transaction stands in a proof**: its program's weakest precondition holds, and what a
waiting write was issued with was computed at an earlier moment. -/
structure Ready (R : Rely σ κ) (Φ : Unit → View σ ρ κ → Prop) (tx : Tx σ ρ κ ε L) (db : σ)
    (clock : Int) : Prop where
  wp : Prog.wp R tx.prog Φ (tx.view db clock)
  issued : ∀ c, tx.issued = some c → ∃ stmt k u, tx.prog = .write stmt k ∧
    Env R u (tx.view db clock) ∧ u.started.isSome ∧ stmt u.seen = .ok c ∧ Prog.wp R tx.prog Φ u

variable {R : Rely σ κ} {Φ : Unit → View σ ρ κ → Prop}

omit [DecidableEq κ] in
/-- The others' moves leave it standing there. -/
theorem Ready.env (h : tx.Ready R Φ db clock) {db' : σ} {clock' : Int}
    (henv : Env R (tx.view db clock) (tx.view db' clock')) : tx.Ready R Φ db' clock' where
  wp := Prog.wp_env henv h.wp
  issued c hc :=
    let ⟨stmt, k, u, hp, hu, hs, hcu, hwp⟩ := h.issued c hc
    ⟨stmt, k, u, hp, hu.trans henv, hs, hcu, hwp⟩

omit [DecidableEq κ] in
/-- Opening the transaction leaves it standing there too. -/
theorem Ready.start (h : tx.Ready R Φ db clock) (hn : tx.started = none) :
    ({ tx with started := some clock } : Tx σ ρ κ ε L).Ready R Φ db clock := by
  have henv : Env R (tx.view db clock) { tx.view db clock with started := some clock } :=
    ⟨rfl, rfl, rfl, .inr ⟨hn, clock, rfl, le_refl _, le_refl _⟩, R.refl _ _ _, le_refl _,
      fun _ _ => rfl⟩
  refine ⟨Prog.wp_env henv h.wp, fun c hc => ?_⟩
  obtain ⟨stmt, k, u, hp, hu, hs, hcu, hwp⟩ := h.issued c hc
  exact ⟨stmt, k, u, hp, hu.trans henv, hs, hcu, hwp⟩

omit [DecidableEq κ] in
theorem Ready.not_issued (h : tx.Ready R Φ db clock)
    (hp : ∀ stmt k, tx.prog ≠ .write stmt k) : tx.issued = none := by
  cases hc : tx.issued with
  | none => rfl
  | some c =>
    obtain ⟨stmt, k, -, hw, -⟩ := h.issued c hc
    exact absurd hw (hp stmt k)

omit [DecidableEq κ] in
/-- A transaction that waits for nothing is ready by its program alone. -/
theorem Ready.of_wp (h : Prog.wp R tx.prog Φ (tx.view db clock)) (hc : tx.issued = none) :
    tx.Ready R Φ db clock := ⟨h, fun c h => by rw [hc] at h; cases h⟩

/-- **A statement is a step of the weakest precondition.** -/
theorem statement_ready (hr : tx.Ready R Φ db clock)
    (h : tx.statement db clock others = some tx') : tx'.Ready R Φ db clock := by
  have hwp := hr.wp
  unfold statement at h
  split at h
  · cases h
  · cases h
  · rename_i q k hp
    have hn := hr.not_issued fun _ _ => by rw [hp]; exact nofun
    rw [hp] at hwp
    cases h
    exact .of_wp (hwp _ (Env.refl _)) hn
  · rename_i k hp
    have hn := hr.not_issued fun _ _ => by rw [hp]; exact nofun
    rw [hp] at hwp
    cases h
    exact .of_wp (hwp _ (Env.refl _)) hn
  · rename_i l k hp
    have hn := hr.not_issued fun _ _ => by rw [hp]; exact nofun
    rw [hp] at hwp
    split at h
    · rename_i hc
      cases h
      simp only [Bool.and_eq_true] at hc
      exact .of_wp (hwp _ (Env.refl _) hc.1) hn
    · cases h
  · rename_i l k hp
    have hn := hr.not_issued fun _ _ => by rw [hp]; exact nofun
    rw [hp] at hwp
    split at h
    · cases h
      exact .of_wp (hwp _ (Env.refl _)).1 hn
    · cases h
      exact .of_wp (hwp _ (Env.refl _)).2 hn
  · rename_i stmt k hp
    rw [hp] at hwp
    split at h
    · rename_i hs
      split at h
      · cases h
        exact .of_wp trivial rfl
      · rename_i c' hc'
        dsimp only at h
        split at h
        · cases h
          refine .of_wp ?_ rfl
          cases hiss : tx.issued with
          | none => exact hwp _ (Env.refl _) hs c' hc' _ (Env.refl _) c' hc'
          | some c =>
            obtain ⟨stmt', k', u, hp', hu, hus, hcu, hwpu⟩ := hr.issued c hiss
            rw [hp] at hp' hwpu
            cases hp'
            exact hwpu u (Env.refl u) hus c hcu _ hu c' hc'
        · split at h
          · cases h
            refine ⟨by rw [hp]; exact hwp, fun c hc => ?_⟩
            cases hc
            exact ⟨stmt, k, _, hp, Env.refl _, hs, hc', by rw [hp]; exact hwp⟩
          · cases h
    · cases h

theorem statement_apart (h : tx.statement db clock others = some tx')
    (hap : ∀ o ∈ others, tx.Apart o) : ∀ o ∈ others, tx'.Apart o := by
  rcases statement_cases h with ⟨p, c, rfl⟩ | ⟨p, l, hl, rfl⟩ | ⟨p, c, hc, rfl⟩
  · exact hap
  · intro o ho
    refine ⟨fun l' hl' => ?_, (hap o ho).2⟩
    rcases List.mem_cons.mp hl' with rfl | hl'
    · exact hl o ho
    · exact (hap o ho).1 l' hl'
  · intro o ho
    refine ⟨(hap o ho).1, fun x hx => ?_⟩
    rcases List.mem_append.mp hx with hx | hx
    · exact hc o ho x hx
    · exact (hap o ho).2 x hx

theorem statement_framed (h : tx.statement db clock others = some tx') (hf : tx.Framed) :
    tx'.Framed := by
  rcases statement_cases h with ⟨p, c, rfl⟩ | ⟨p, l, -, rfl⟩ | ⟨p, c, -, rfl⟩
  · exact hf
  · exact hf
  · intro db' x hx
    simp only [List.mem_append, not_or] at hx
    exact (c.frame _ x hx.1).trans (hf db' x hx.2)

end Tx

omit [DecidableEq ρ] [DecidableEq κ] in
theorem wellFormed_idle (db : σ) (t : Int) : (Sys.idle db t : Sys σ ρ κ ε L).WellFormed :=
  ⟨.nil, fun _ h => absurd h (by simp [Sys.idle])⟩

theorem wellFormed_step {a : Action L} (h : step body s a = some s') (hw : s.WellFormed) :
    s'.WellFormed := by
  rcases step_cases h with ⟨t, -, -, rfl⟩ | ⟨l, -, rfl⟩ | ⟨i, pre, tx, post, -, hf, -, rfl⟩ |
    ⟨i, pre, tx, post, tx', -, hf, ht, rfl⟩ | ⟨i, pre, tx, post, u, -, hf, -, rfl⟩ |
    ⟨i, pre, tx, post, -, hf, rfl⟩
  · exact ⟨hw.apart, hw.framed⟩
  · refine ⟨List.pairwise_append.mpr ⟨hw.apart, List.pairwise_singleton _ _, ?_⟩, ?_⟩
    · intro a _ b hb
      simp only [List.mem_singleton] at hb
      subst hb
      exact ⟨fun l _ hl => absurd hl (by simp [Session.fresh]),
        fun x _ hx => absurd hx (by simp [Session.fresh])⟩
    · intro tx htx
      rcases List.mem_append.mp htx with htx | htx
      · exact hw.framed tx htx
      · simp only [List.mem_singleton] at htx
        subst htx
        exact fun _ _ _ => rfl
  all_goals
    have hs := focus_some hf
    have hap := pairwise_focus.mp (hs ▸ hw.apart)
    have hfr : ∀ o ∈ pre ++ tx :: post, o.Framed := hs ▸ hw.framed
  · refine ⟨pairwise_focus.mpr ⟨hap.1, hap.2⟩, fun o ho => ?_⟩
    rcases List.mem_append.mp ho with ho | ho
    · exact hfr o (by simp [ho])
    · rcases List.mem_cons.mp ho with rfl | ho
      · exact hfr tx (by simp)
      · exact hfr o (by simp [ho])
  · refine ⟨pairwise_focus.mpr ⟨hap.1, Tx.statement_apart ht hap.2⟩, fun o ho => ?_⟩
    rcases List.mem_append.mp ho with ho | ho
    · exact hfr o (by simp [ho])
    · rcases List.mem_cons.mp ho with rfl | ho
      · exact Tx.statement_framed ht (hfr tx (by simp))
      · exact hfr o (by simp [ho])
  all_goals
    refine ⟨hap.1, fun o ho => hfr o ?_⟩
    rcases List.mem_append.mp ho with ho | ho <;> simp [ho]

/-! ## 4. Invariants of runs -/

/-- **A proof outline for a system**: an invariant of the committed state, what each call relies
on and what its transaction has established when it can commit. -/
structure Outline (body : L → Prog σ ρ κ ε Unit) (ok : Sys σ ρ κ ε L → Action L → Prop) where
  inv : σ → Int → List (Finished L) → Prop
  rely : L → Rely σ κ
  post : L → Int → View σ ρ κ → Prop
  /-- The invariant survives the passing of time. -/
  tick : ∀ {db t t' fin}, inv db t fin → t ≤ t' → inv db t' fin
  /-- Each body, begun where the invariant holds, establishes its postcondition. -/
  runs : ∀ {s : Sys σ ρ κ ε L} {l}, ok s (.begin l) → inv s.db s.clock s.finished →
    Prog.wp (rely l) (body l) (fun _ w => post l s.clock w) (View.fresh s.db s.clock)
  /-- A commit keeps the invariant and everything the others rely on. -/
  commit : ∀ {s : Sys σ ρ κ ε L} {i pre tx post' s'}, ok s (.commit i) →
    step body s (.commit i) = some s' → focus s.txs i = some (pre, tx, post') →
    s.WellFormed → inv s.db s.clock s.finished →
    post tx.label tx.began (tx.view s.db s.clock) →
    inv s'.db s'.clock s'.finished ∧ ∀ o ∈ pre ++ post',
      (rely o.label).rel o.locks s.db s.clock s'.db s'.clock

namespace Outline

variable (O : Outline body ok)

/-- What the outline says of a state in the middle of a run. -/
structure Holds (s : Sys σ ρ κ ε L) : Prop where
  wf : s.WellFormed
  inv : O.inv s.db s.clock s.finished
  txs : ∀ tx ∈ s.txs, tx.Ready (O.rely tx.label) (fun _ w => O.post tx.label tx.began w) s.db s.clock

theorem holds_idle {db : σ} {t : Int} (h : O.inv db t []) :
    O.Holds (Sys.idle db t : Sys σ ρ κ ε L) :=
  ⟨wellFormed_idle db t, h, fun _ h => absurd h (by simp [Sys.idle])⟩

/-- What a transaction has established when it commits. -/
theorem holds_commit {i : Nat} (h : O.Holds s) (hs : step body s (.commit i) = some s') :
    ∃ pre tx post, focus s.txs i = some (pre, tx, post) ∧
      O.post tx.label tx.began (tx.view s.db s.clock) ∧ s' = { s with
        db := tx.own s.db, txs := pre ++ post,
        finished := s.finished ++ [⟨tx.label, tx.began, s.clock⟩] } := by
  rcases step_cases hs with ⟨t, ha, -⟩ | ⟨l, ha, -⟩ | ⟨i, pre, tx, post, ha, -⟩ |
    ⟨i, pre, tx, post, tx', ha, -⟩ | ⟨i, pre, tx, post, u, ha, hf, hp, rfl⟩ |
    ⟨i, pre, tx, post, ha, -⟩
  all_goals first | cases ha; done | skip
  injection ha with hi
  subst hi
  refine ⟨pre, tx, post, hf, ?_, rfl⟩
  have := (h.txs tx (focus_some hf ▸ by simp)).wp
  rw [hp] at this
  exact this _ (Env.refl _)

theorem holds_step {a : Action L} (h : O.Holds s) (ha : ok s a)
    (hs : step body s a = some s') : O.Holds s' := by
  have hwf := wellFormed_step hs h.wf
  rcases step_cases hs with ⟨t, -, ht, rfl⟩ | ⟨l, rfl, rfl⟩ | ⟨i, pre, tx, post, -, hf, hn, rfl⟩ |
    ⟨i, pre, tx, post, tx', -, hf, ht, rfl⟩ | ⟨i, pre, tx, post, u, rfl, hf, hp, rfl⟩ |
    ⟨i, pre, tx, post, -, hf, rfl⟩
  · refine ⟨hwf, O.tick h.inv ht, fun tx htx => (h.txs tx htx).env ?_⟩
    exact ⟨rfl, rfl, rfl, .inl rfl, (O.rely _).tick _ _ ht, ht, fun _ _ => rfl⟩
  · refine ⟨hwf, h.inv, fun tx htx => ?_⟩
    rcases List.mem_append.mp htx with htx | htx
    · exact h.txs tx htx
    · simp only [List.mem_singleton] at htx
      subst htx
      exact .of_wp (O.runs ha h.inv) rfl
  all_goals
    have hsplit := focus_some hf
    have htxs : ∀ o ∈ pre ++ tx :: post, o.Ready (O.rely o.label)
        (fun _ w => O.post o.label o.began w) s.db s.clock := hsplit ▸ h.txs
    have hrest : ∀ o ∈ pre ++ post, o ∈ pre ++ tx :: post := by
      intro o ho
      rcases List.mem_append.mp ho with ho | ho <;> simp [ho]
  · refine ⟨hwf, h.inv, fun o ho => ?_⟩
    rcases List.mem_append.mp ho with ho | ho
    · exact htxs o (by simp [ho])
    · rcases List.mem_cons.mp ho with rfl | ho
      · exact (htxs tx (by simp)).start hn
      · exact htxs o (by simp [ho])
  · refine ⟨hwf, h.inv, fun o ho => ?_⟩
    rcases List.mem_append.mp ho with ho | ho
    · exact htxs o (by simp [ho])
    · rcases List.mem_cons.mp ho with rfl | ho
      · obtain ⟨hl, hb⟩ := Tx.statement_label ht
        rw [hl, hb]
        exact Tx.statement_ready (htxs tx (by simp)) ht
      · exact htxs o (by simp [ho])
  · have hpost : O.post tx.label tx.began (tx.view s.db s.clock) := by
      have := (htxs tx (by simp)).wp
      rw [hp] at this
      exact this _ (Env.refl _)
    obtain ⟨hinv, hrel⟩ := O.commit ha hs hf h.wf h.inv hpost
    refine ⟨hwf, hinv, fun o ho => (htxs o (hrest o ho)).env ?_⟩
    have hap := (pairwise_focus.mp (hsplit ▸ h.wf.apart)).2 o ho
    refine ⟨rfl, rfl, rfl, .inl rfl, hrel o ho, le_refl _, fun x hx => ?_⟩
    exact h.wf.framed tx (hsplit ▸ by simp) s.db x fun hx' => hap.2 x hx' hx
  · exact ⟨hwf, h.inv, fun o ho => htxs o (hrest o ho)⟩

/-- **The outline's invariant holds in every state of every run** whose steps meet `ok`. -/
theorem holds_run {s₀ : Sys σ ρ κ ε L} (h : O.Holds s₀) : ∀ {s}, Run body ok s₀ s → O.Holds s
  | _, .refl => h
  | _, .tail _ hr ha hs => O.holds_step (holds_run h hr) ha hs

end Outline

end System

end NewlifeCore.Txn
