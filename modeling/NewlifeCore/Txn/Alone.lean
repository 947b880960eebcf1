import NewlifeCore.Txn.Exec
import NewlifeCore.Txn.Solo

/-!
# How a program ends alone

`exec` forgets what a raising program had written; here the session's view is kept to the end,
whether the program returns or raises, and the clock moves between the statements.  What `solo`
proves holds of every return (`Ends.of_solo`); what a raise leaves is read off the program, guard
by guard.
-/

namespace NewlifeCore.Txn.Prog

variable {σ ρ κ ε : Type} [RowStore σ ρ] {α β : Type}

/-! ## 1. The relation -/

/-- **One way a program ends with nothing beside it**: from `db` at `t`, in a transaction begun at
`n`, it returns or raises `r` at `t'`, when its session sees `db'`. -/
inductive Ends (n : Int) {α : Type} :
    Prog σ ρ κ ε α → σ → Int → Except ε α → σ → Int → Prop where
  | ret {a db t t'} : t ≤ t' → Ends n (.ret a) db t (.ok a) db t'
  | raise {e db t t'} : t ≤ t' → Ends n (.raise e) db t (.error e) db t'
  | read {β : Type} {q : σ → Int → β} {k db t t₁ r db' t'} : t ≤ t₁ →
      Ends n (k (q db n)) db t₁ r db' t' → Ends n (.read q k) db t r db' t'
  | clock {k db t t₁ r db' t'} : t ≤ t₁ → Ends n (k t₁) db t₁ r db' t' →
      Ends n (.clock k) db t r db' t'
  | lock {l k db t t₁ r db' t'} : t ≤ t₁ → Ends n k db t₁ r db' t' →
      Ends n (.lock l k) db t r db' t'
  | tryLock {l k db t t₁ r db' t'} : t ≤ t₁ → Ends n (k true) db t₁ r db' t' →
      Ends n (.tryLock l k) db t r db' t'
  | write {s k c db t t₁ r db' t'} : t ≤ t₁ → s db = .ok c →
      Ends n (k c.rows.length) (c.apply db) t₁ r db' t' → Ends n (.write s k) db t r db' t'
  | refused {s k e db t t'} : t ≤ t' → s db = .error e →
      Ends n (.write s k) db t (.error e) db t'

namespace Ends

variable {n t t' : Int} {p : Prog σ ρ κ ε α} {db db' : σ}

theorem le {r : Except ε α} (h : Ends n p db t r db' t') : t ≤ t' := by
  induction h with
  | ret h => exact h
  | raise h => exact h
  | read h _ ih => exact le_trans h ih
  | clock h _ ih => exact le_trans h ih
  | lock h _ ih => exact le_trans h ih
  | tryLock h _ ih => exact le_trans h ih
  | write h _ _ ih => exact le_trans h ih
  | refused h => exact h

/-! ## 2. Sequencing -/

/-- A sequence ends in its first program, by an exception, or in its second. -/
theorem bind_cases {f : α → Prog σ ρ κ ε β} {r : Except ε β}
    (h : Ends n (p.bind f) db t r db' t') :
    (∃ e, r = .error e ∧ Ends n p db t (.error e) db' t') ∨
      ∃ a db₁ t₁, Ends n p db t (.ok a) db₁ t₁ ∧ Ends n (f a) db₁ t₁ r db' t' := by
  induction p generalizing db t with
  | ret a => exact .inr ⟨a, db, t, .ret (le_refl t), h⟩
  | raise e =>
    cases h with
    | raise ht => exact .inl ⟨e, rfl, .raise ht⟩
  | read q k ih =>
    cases h with
    | read ht h =>
      rcases ih _ h with ⟨e, hr, he⟩ | ⟨a, db₁, t₁, ha, hf⟩
      · exact .inl ⟨e, hr, .read ht he⟩
      · exact .inr ⟨a, db₁, t₁, .read ht ha, hf⟩
  | clock k ih =>
    cases h with
    | clock ht h =>
      rcases ih _ h with ⟨e, hr, he⟩ | ⟨a, db₁, t₁, ha, hf⟩
      · exact .inl ⟨e, hr, .clock ht he⟩
      · exact .inr ⟨a, db₁, t₁, .clock ht ha, hf⟩
  | lock l k ih =>
    cases h with
    | lock ht h =>
      rcases ih h with ⟨e, hr, he⟩ | ⟨a, db₁, t₁, ha, hf⟩
      · exact .inl ⟨e, hr, .lock ht he⟩
      · exact .inr ⟨a, db₁, t₁, .lock ht ha, hf⟩
  | tryLock l k ih =>
    cases h with
    | tryLock ht h =>
      rcases ih _ h with ⟨e, hr, he⟩ | ⟨a, db₁, t₁, ha, hf⟩
      · exact .inl ⟨e, hr, .tryLock ht he⟩
      · exact .inr ⟨a, db₁, t₁, .tryLock ht ha, hf⟩
  | write s k ih =>
    cases h with
    | write ht hs h =>
      rcases ih _ h with ⟨e, hr, he⟩ | ⟨a, db₁, t₁, ha, hf⟩
      · exact .inl ⟨e, hr, .write ht hs he⟩
      · exact .inr ⟨a, db₁, t₁, .write ht hs ha, hf⟩
    | refused ht hs => exact .inl ⟨_, rfl, .refused ht hs⟩

theorem readOnly {r : Except ε α} (hp : ReadOnly p) (h : Ends n p db t r db' t') : db' = db := by
  induction h with
  | ret => rfl
  | raise => rfl
  | read _ _ ih => exact ih (hp _)
  | clock _ _ ih => exact ih (hp _)
  | lock => exact hp.elim
  | tryLock => exact hp.elim
  | write => exact hp.elim
  | refused => rfl

/-- A sequence that begins by reading. -/
theorem reads {f : α → Prog σ ρ κ ε β} {r : Except ε β} (hp : ReadOnly p)
    (h : Ends n (p.bind f) db t r db' t') :
    (∃ e, r = .error e ∧ db' = db) ∨
      ∃ a t₁, Ends n p db t (.ok a) db t₁ ∧ Ends n (f a) db t₁ r db' t' := by
  rcases bind_cases h with ⟨e, hr, he⟩ | ⟨a, db₁, t₁, ha, hf⟩
  · exact .inl ⟨e, hr, he.readOnly hp⟩
  · obtain rfl := ha.readOnly hp
    exact .inr ⟨a, t₁, ha, hf⟩

theorem select {q : σ → Int → β} {r : Except ε β}
    (h : Ends n (select q : Prog σ ρ κ ε β) db t r db' t') : r = .ok (q db n) ∧ db' = db := by
  cases h with
  | read _ h =>
    cases h
    exact ⟨rfl, rfl⟩

/-! ## 3. What is known of programs run alone -/

/-- Only time passes. -/
theorem env_tick (v : View σ ρ κ) {t : Int} (ht : v.clock ≤ t) :
    Env Rely.alone v { v with clock := t } :=
  ⟨rfl, rfl, rfl, .inl rfl, ⟨rfl, ht⟩, ht, fun _ _ => rfl⟩

theorem of_wp [DecidableEq ρ] {Φ : α → View σ ρ κ → Prop} {a : α} {v : View σ ρ κ}
    (hwp : wp Rely.alone p Φ v) (hseen : v.seen = db) (hclock : v.clock = t)
    (hstarted : v.started = some n) (h : Ends n p db t (.ok a) db' t') :
    ∃ w, w.seen = db' ∧ w.clock = t' ∧ Φ a w := by
  subst hseen hclock
  induction p generalizing v with
  | ret b =>
    cases h with
    | ret ht => exact ⟨{ v with clock := t' }, rfl, rfl, hwp _ (env_tick v ht)⟩
  | raise e => cases h
  | read q k ih =>
    cases h with
    | read ht h =>
      have hk := hwp _ (env_tick v ht)
      simp only [View.sqlNow, hstarted, Option.getD_some] at hk
      exact ih _ hk hstarted h
  | clock k ih =>
    cases h with
    | clock ht h => exact ih _ (hwp _ (env_tick v ht)) hstarted h
  | lock l k ih =>
    cases h with
    | lock ht h => exact ih (hwp _ (env_tick v ht) (Option.isSome_of_eq_some hstarted)) hstarted h
  | tryLock l k ih =>
    cases h with
    | tryLock ht h => exact ih _ (hwp _ (env_tick v ht)).1 hstarted h
  | write s k ih =>
    cases h with
    | write ht hs h =>
      have hk := hwp _ (env_tick v ht) (Option.isSome_of_eq_some hstarted) _ hs _ (Env.refl _) _ hs
      rw [Change.still_self] at hk
      exact ih _ hk hstarted h

/-- **What `solo` proves holds of every return.** -/
theorem of_solo [DecidableEq ρ] {Φ : α → σ → Int → Prop} {a : α} (hn : n ≤ t)
    (hsolo : solo p Φ db t) (h : Ends n p db t (.ok a) db' t') : Φ a db' t' := by
  have hwp := hsolo ⟨⟨id, [], [], some n⟩, db, t⟩ rfl rfl hn
  obtain ⟨w, hseen, hclock, -, hΦ⟩ := of_wp hwp rfl rfl rfl h
  rwa [hseen, hclock] at hΦ

/-- A return has what every return of the program has. -/
theorem returns {Ψ : α → Prop} {a : α} (hp : Returns Ψ p) (h : Ends n p db t (.ok a) db' t') :
    Ψ a := by
  induction p generalizing db t with
  | ret b =>
    cases h
    exact hp
  | raise e => cases h
  | read q k ih =>
    cases h with
    | read _ h => exact ih _ (hp _) h
  | clock k ih =>
    cases h with
    | clock _ h => exact ih _ (hp _) h
  | lock l k ih =>
    cases h with
    | lock _ h => exact ih hp h
  | tryLock l k ih =>
    cases h with
    | tryLock _ h => exact ih _ (hp _) h
  | write s k ih =>
    cases h with
    | write _ _ h => exact ih _ (hp _) h

/-- Serial execution is one way to end. -/
theorem of_exec {a : α} (h : p.exec db t = .ok (a, db')) : Ends t p db t (.ok a) db' t := by
  induction p generalizing db with
  | ret b =>
    cases h
    exact .ret (le_refl t)
  | raise e => cases h
  | read q k ih => exact .read (le_refl t) (ih _ h)
  | clock k ih => exact .clock (le_refl t) (ih _ h)
  | lock l k ih => exact .lock (le_refl t) (ih h)
  | tryLock l k ih => exact .tryLock (le_refl t) (ih _ h)
  | write s k ih =>
    cases hs : s db with
    | error e =>
      simp only [exec, hs] at h
      cases h
    | ok c =>
      simp only [exec, hs] at h
      exact .write (le_refl t) hs (ih _ h)

end Ends

/-! ## 4. Programs that cannot raise -/

/-- No path of the program raises, and no write of it is refused. -/
def Raiseless : Prog σ ρ κ ε α → Prop
  | ret _ => True
  | raise _ => False
  | read _ k => ∀ b, Raiseless (k b)
  | clock k => ∀ t, Raiseless (k t)
  | lock _ k => Raiseless k
  | tryLock _ k => ∀ b, Raiseless (k b)
  | write s k => (∀ db, ∃ c, s db = .ok c) ∧ ∀ n, Raiseless (k n)

namespace Raiseless

theorem ret (a : α) : Raiseless (ret a : Prog σ ρ κ ε α) := trivial

theorem bind {f : α → Prog σ ρ κ ε β} (hf : ∀ a, Raiseless (f a)) :
    ∀ {p : Prog σ ρ κ ε α}, Raiseless p → Raiseless (p.bind f)
  | .ret a, _ => hf a
  | .read _ _, hp => fun b => bind hf (hp b)
  | .clock _, hp => fun t => bind hf (hp t)
  | .lock _ k, hp => bind (p := k) hf hp
  | .tryLock _ _, hp => fun b => bind hf (hp b)
  | .write _ _, hp => ⟨hp.1, fun n => bind hf (hp.2 n)⟩

theorem each {f : α → Prog σ ρ κ ε Unit} (hf : ∀ a, Raiseless (f a)) :
    ∀ xs, Raiseless (each xs f)
  | [] => trivial
  | x :: xs => bind (fun _ => each hf xs) (hf x)

theorem foldEach {f : β → α → Prog σ ρ κ ε β} (hf : ∀ b a, Raiseless (f b a)) :
    ∀ (xs : List α) (acc : β), Raiseless (foldEach xs acc f)
  | [], _ => trivial
  | x :: xs, acc => bind (fun _ => foldEach hf xs _) (hf acc x)

theorem exec {p : Prog σ ρ κ ε α} (hp : Raiseless p) (db : σ) (t : Int) :
    ∃ a db', p.exec db t = .ok (a, db') := by
  induction p generalizing db with
  | ret a => exact ⟨a, db, rfl⟩
  | raise e => exact absurd hp id
  | read q k ih => exact ih _ (hp _) db
  | clock k ih => exact ih _ (hp _) db
  | lock l k ih => exact ih hp db
  | tryLock l k ih => exact ih _ (hp _) db
  | write s k ih =>
    obtain ⟨c, hc⟩ := hp.1 db
    simp only [Prog.exec, hc]
    exact ih _ (hp.2 _) _

theorem not_error {n t t' : Int} {p : Prog σ ρ κ ε α} {db db' : σ} {e : ε} (hp : Raiseless p)
    (h : Ends n p db t (.error e) db' t') : False := by
  induction p generalizing db t with
  | ret a => cases h
  | raise e => exact hp
  | read q k ih =>
    cases h with
    | read _ h => exact ih _ (hp _) h
  | clock k ih =>
    cases h with
    | clock _ h => exact ih _ (hp _) h
  | lock l k ih =>
    cases h with
    | lock _ h => exact ih hp h
  | tryLock l k ih =>
    cases h with
    | tryLock _ h => exact ih _ (hp _) h
  | write s k ih =>
    cases h with
    | write _ _ h => exact ih _ (hp.2 _) h
    | refused _ hs =>
      obtain ⟨c, hc⟩ := hp.1 _
      rw [hc] at hs
      cases hs

end Raiseless

end NewlifeCore.Txn.Prog
