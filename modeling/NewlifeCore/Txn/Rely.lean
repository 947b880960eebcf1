import NewlifeCore.Txn.Program

/-!
# Programs among other transactions

What one transaction may conclude while others commit between its statements.  A `View` is what
it has at one moment: the committed database, the clock, and its own uncommitted part.  A
`Rely` says what the others can do to the committed database; `wp` is the weakest precondition
of a program whose every statement may be preceded by such moves.

The rules follow the program: one for `bind`, one for each statement, one for each loop, and one
for programs that only read, which is how every check of a service method is dismissed.
-/

namespace NewlifeCore.Txn

variable {σ ρ κ ε : Type} [RowStore σ ρ] {α β : Type}

/-! ## 1. One moment of one transaction -/

/-- What a transaction holds: its uncommitted changes, its row and advisory locks, and when it
was started (until then its reads run outside it). -/
structure Session (σ ρ κ : Type) where
  own : σ → σ
  rows : List ρ
  locks : List κ
  started : Option Int

/-- A connection that has not executed anything yet. -/
def Session.fresh : Session σ ρ κ := ⟨id, [], [], none⟩

/-- A moment of one transaction. -/
structure View (σ ρ κ : Type) extends Session σ ρ κ where
  db : σ
  clock : Int

namespace View

/-- The rows a statement of this transaction sees. -/
def seen (v : View σ ρ κ) : σ := v.own v.db

/-- SQL `now()`: the start of the transaction, or of the statement outside one. -/
def sqlNow (v : View σ ρ κ) : Int := v.started.getD v.clock

def addLock (v : View σ ρ κ) (l : κ) : View σ ρ κ := { v with locks := l :: v.locks }

def change (v : View σ ρ κ) (c : Change σ ρ) : View σ ρ κ :=
  { v with own := c.apply ∘ v.own, rows := c.rows ++ v.rows }

section Fresh

/-- The first moment of a transaction. -/
def fresh (db : σ) (clock : Int) : View σ ρ κ := { Session.fresh with db, clock }

omit [RowStore σ ρ]

@[simp] theorem fresh_own (db : σ) (t : Int) : (fresh db t : View σ ρ κ).own = id := rfl
@[simp] theorem fresh_rows (db : σ) (t : Int) : (fresh db t : View σ ρ κ).rows = [] := rfl
@[simp] theorem fresh_locks (db : σ) (t : Int) : (fresh db t : View σ ρ κ).locks = [] := rfl
@[simp] theorem fresh_db (db : σ) (t : Int) : (fresh db t : View σ ρ κ).db = db := rfl
@[simp] theorem fresh_clock (db : σ) (t : Int) : (fresh db t : View σ ρ κ).clock = t := rfl
@[simp] theorem fresh_sqlNow (db : σ) (t : Int) : (fresh db t : View σ ρ κ).sqlNow = t := rfl

end Fresh

end View

/-! ## 2. What the others may do -/

/-- **What a transaction holding given locks may rely on** about the committed database and the
clock, before and after other transactions moved. -/
structure Rely (σ κ : Type) where
  rel : List κ → σ → Int → σ → Int → Prop
  refl : ∀ L db t, rel L db t db t
  trans : ∀ {L db₁ t₁ db₂ t₂ db₃ t₃},
    rel L db₁ t₁ db₂ t₂ → rel L db₂ t₂ db₃ t₃ → rel L db₁ t₁ db₃ t₃
  tick : ∀ L db {t t'}, t ≤ t' → rel L db t db t'
  /-- More locks, more to rely on. -/
  mono : ∀ {L L' db t db' t'}, L ⊆ L' → rel L' db t db' t' → rel L db t db' t'

/-- The rely of a transaction that runs alone: only time passes. -/
def Rely.alone : Rely σ κ where
  rel _ db t db' t' := db' = db ∧ t ≤ t'
  refl _ _ _ := ⟨rfl, le_refl _⟩
  trans h₁ h₂ := ⟨h₂.1.trans h₁.1, le_trans h₁.2 h₂.2⟩
  tick _ _ _ _ h := ⟨rfl, h⟩
  mono _ h := h

/-- A move of the others, seen by one transaction. -/
structure Env (R : Rely σ κ) (v v' : View σ ρ κ) : Prop where
  own : v'.own = v.own
  rows : v'.rows = v.rows
  locks : v'.locks = v.locks
  started : v'.started = v.started ∨
    v.started = none ∧ ∃ t, v'.started = some t ∧ v.clock ≤ t ∧ t ≤ v'.clock
  rel : R.rel v.locks v.db v.clock v'.db v'.clock
  clock : v.clock ≤ v'.clock
  locked : ∀ x ∈ v.rows, RowStore.row v'.db x = RowStore.row v.db x

namespace Env

variable {R : Rely σ κ} {v v₁ v₂ v₃ : View σ ρ κ}

theorem refl (v : View σ ρ κ) : Env R v v :=
  ⟨rfl, rfl, rfl, .inl rfl, R.refl _ _ _, le_refl _, fun _ _ => rfl⟩

theorem trans (h₁ : Env R v₁ v₂) (h₂ : Env R v₂ v₃) : Env R v₁ v₃ where
  own := h₂.own.trans h₁.own
  rows := h₂.rows.trans h₁.rows
  locks := h₂.locks.trans h₁.locks
  started := by
    rcases h₁.started with h | ⟨hn, t, ht, hlo, hhi⟩
    · rcases h₂.started with h' | ⟨hn, t, ht, hlo, hhi⟩
      · exact .inl (h'.trans h)
      · exact .inr ⟨h ▸ hn, t, ht, le_trans h₁.clock hlo, hhi⟩
    · rcases h₂.started with h' | ⟨hn', _⟩
      · exact .inr ⟨hn, t, h'.trans ht, hlo, le_trans hhi h₂.clock⟩
      · rw [ht] at hn'; cases hn'
  rel := R.trans h₁.rel (h₁.locks ▸ h₂.rel)
  clock := le_trans h₁.clock h₂.clock
  locked x hx := (h₂.locked x (h₁.rows ▸ hx)).trans (h₁.locked x hx)

end Env

/-! ## 3. Earlier moments -/

/-- `w` is a later moment of the transaction at `v`: the others moved within `R`, and it may
have written and locked more. -/
structure Later (R : Rely σ κ) (v w : View σ ρ κ) : Prop where
  locks : v.locks ⊆ w.locks
  rows : v.rows ⊆ w.rows
  rel : R.rel v.locks v.db v.clock w.db w.clock
  clock : v.clock ≤ w.clock
  timely : v.sqlNow ≤ v.clock → w.sqlNow ≤ w.clock
  sqlNow : v.sqlNow ≤ v.clock → v.sqlNow ≤ w.sqlNow
  locked : ∀ x ∈ v.rows, RowStore.row w.db x = RowStore.row v.db x

namespace Later

variable {R : Rely σ κ} {u v w : View σ ρ κ}

theorem trans (h₁ : Later R u v) (h₂ : Later R v w) : Later R u w where
  locks := List.Subset.trans h₁.locks h₂.locks
  rows := List.Subset.trans h₁.rows h₂.rows
  rel := R.trans h₁.rel (R.mono h₁.locks h₂.rel)
  clock := le_trans h₁.clock h₂.clock
  timely h := h₂.timely (h₁.timely h)
  sqlNow h := le_trans (h₁.sqlNow h) (h₂.sqlNow (h₁.timely h))
  locked x hx := (h₂.locked x (h₁.rows hx)).trans (h₁.locked x hx)

theorem of_env (h : Env R v w) : Later R v w where
  locks := by rw [h.locks]; exact List.Subset.refl _
  rows := by rw [h.rows]; exact List.Subset.refl _
  rel := h.rel
  clock := h.clock
  timely hv := by
    unfold View.sqlNow at *
    rcases h.started with hs | ⟨hn, t, ht, hlo, hhi⟩
    · rw [hs]
      cases hvs : v.started with
      | none => exact le_refl _
      | some t => rw [hvs] at hv; exact le_trans hv h.clock
    · rw [ht]; exact hhi
  sqlNow hv := by
    unfold View.sqlNow at *
    rcases h.started with hs | ⟨hn, t, ht, hlo, hhi⟩
    · rw [hs]
      cases v.started with
      | none => exact h.clock
      | some t => exact le_refl _
    · rw [ht, hn]; exact hlo
  locked := h.locked

theorem refl (v : View σ ρ κ) : Later R v v := of_env (Env.refl v)

theorem addLock (v : View σ ρ κ) (l : κ) : Later R v (v.addLock l) where
  locks := List.subset_cons_self _ _
  rows := List.Subset.refl _
  rel := R.refl _ _ _
  clock := le_refl _
  timely h := h
  sqlNow _ := le_refl _
  locked _ _ := rfl

theorem change (v : View σ ρ κ) (c : Change σ ρ) : Later R v (v.change c) where
  locks := List.Subset.refl _
  rows := List.subset_append_right _ _
  rel := R.refl _ _ _
  clock := le_refl _
  timely h := h
  sqlNow _ := le_refl _
  locked _ _ := rfl

end Later

/-- **`P` held at an earlier moment** of the transaction, or holds now. -/
def Once (R : Rely σ κ) (P : View σ ρ κ → Prop) (w : View σ ρ κ) : Prop :=
  ∃ u, P u ∧ Later R u w

theorem Once.later {R : Rely σ κ} {P : View σ ρ κ → Prop} {v w : View σ ρ κ} (h : Once R P v)
    (hw : Later R v w) : Once R P w :=
  let ⟨u, hu, huv⟩ := h
  ⟨u, hu, huv.trans hw⟩

theorem Once.mono {R : Rely σ κ} {P Q : View σ ρ κ → Prop} {w : View σ ρ κ} (h : Once R P w)
    (hPQ : ∀ u, P u → Q u) : Once R Q w :=
  let ⟨u, hu, huw⟩ := h
  ⟨u, hPQ u hu, huw⟩

/-- **`P` held of the rows seen, and of SQL `now()`**, at a moment between `v` and `w` at which
the transaction had written nothing more than at `v`. -/
def Read (R : Rely σ κ) (v : View σ ρ κ) (P : σ → Int → Prop) (w : View σ ρ κ) : Prop :=
  Once R (fun u => Env R v u ∧ P u.seen u.sqlNow) w

namespace Read

variable {R : Rely σ κ} {u v w w' : View σ ρ κ} {P Q : σ → Int → Prop}

theorem later (h : Read R v P w) (hw : Later R w w') : Read R v P w' := Once.later h hw

theorem mono (h : Read R v P w) (hPQ : ∀ db n, P db n → Q db n) : Read R v Q w :=
  Once.mono h fun _ hu => ⟨hu.1, hPQ _ _ hu.2⟩

/-- What was read after some moves of the others was read after all of them. -/
theorem since (h : Read R u P w) (hv : Env R v u) : Read R v P w :=
  Once.mono h fun _ hu => ⟨hv.trans hu.1, hu.2⟩

/-- Alone, what was read is what is there. -/
theorem alone {db : σ} (h : Read Rely.alone v P w) (hseen : v.seen = db)
    (hn : v.sqlNow ≤ v.clock) : ∃ n, n ≤ w.clock ∧ P db n := by
  obtain ⟨u, ⟨hu, hP⟩, huw⟩ := h
  have hdb : u.seen = v.seen := by
    rw [View.seen, View.seen, hu.own, (hu.rel.1 : u.db = v.db)]
  exact ⟨u.sqlNow, le_trans ((Later.of_env hu).timely hn) huw.clock, by rwa [hdb, hseen] at hP⟩

end Read

/-! ## 4. Weakest preconditions -/

namespace Prog

variable [DecidableEq ρ]

/-- **`wp R p Φ v`**: however the others move between its statements within `R`, and between the
moment a write is issued and the moment it gets its rows, if `p` runs from `v` and returns, then
`Φ` holds of its result at every later moment it may commit at. -/
def wp (R : Rely σ κ) :
    Prog σ ρ κ ε α → (α → View σ ρ κ → Prop) → View σ ρ κ → Prop
  | ret a, Φ, v => ∀ v', Env R v v' → Φ a v'
  | raise _, _, _ => True
  | read q k, Φ, v => ∀ v', Env R v v' → wp R (k (q v'.seen v'.sqlNow)) Φ v'
  | clock k, Φ, v => ∀ v', Env R v v' → wp R (k v'.clock) Φ v'
  | lock l k, Φ, v => ∀ v', Env R v v' → v'.started.isSome → wp R k Φ (v'.addLock l)
  | tryLock l k, Φ, v => ∀ v', Env R v v' →
      wp R (k true) Φ (v'.addLock l) ∧ wp R (k false) Φ v'
  | write s k, Φ, v => ∀ v', Env R v v' → v'.started.isSome → ∀ c, s v'.seen = .ok c →
      ∀ w, Env R v' w → ∀ c', s w.seen = .ok c' → wp R (k (c.still c').length) Φ (w.change c)

variable {R : Rely σ κ} {Φ Ψ : α → View σ ρ κ → Prop}

/-- A precondition survives the others' moves. -/
theorem wp_env {v v' : View σ ρ κ} (h : Env R v v') :
    ∀ {p : Prog σ ρ κ ε α}, wp R p Φ v → wp R p Φ v'
  | ret _, hp => fun w hw => hp w (h.trans hw)
  | raise _, _ => trivial
  | read _ _, hp => fun w hw => hp w (h.trans hw)
  | clock _, hp => fun w hw => hp w (h.trans hw)
  | lock _ _, hp => fun w hw => hp w (h.trans hw)
  | tryLock _ _, hp => fun w hw => hp w (h.trans hw)
  | write _ _, hp => fun w hw => hp w (h.trans hw)

theorem wp_mono (hΦ : ∀ a v, Φ a v → Ψ a v) :
    ∀ {p : Prog σ ρ κ ε α} {v : View σ ρ κ}, wp R p Φ v → wp R p Ψ v
  | ret _, _, hp => fun w hw => hΦ _ _ (hp w hw)
  | raise _, _, _ => trivial
  | read _ _, _, hp => fun w hw => wp_mono hΦ (hp w hw)
  | clock _, _, hp => fun w hw => wp_mono hΦ (hp w hw)
  | lock _ _, _, hp => fun w hw hs => wp_mono hΦ (hp w hw hs)
  | tryLock _ _, _, hp => fun w hw => ⟨wp_mono hΦ (hp w hw).1, wp_mono hΦ (hp w hw).2⟩
  | write _ _, _, hp => fun v hv hs c hc w hw c' hc' => wp_mono hΦ (hp v hv hs c hc w hw c' hc')

theorem wp_bind {f : α → Prog σ ρ κ ε β} {Φ : β → View σ ρ κ → Prop} :
    ∀ {p : Prog σ ρ κ ε α} {v : View σ ρ κ},
      wp R p (fun a v' => wp R (f a) Φ v') v → wp R (p.bind f) Φ v
  | ret _, v, hp => hp v (Env.refl v)
  | raise _, _, _ => trivial
  | read _ _, _, hp => fun w hw => wp_bind (hp w hw)
  | clock _, _, hp => fun w hw => wp_bind (hp w hw)
  | lock _ _, _, hp => fun w hw hs => wp_bind (hp w hw hs)
  | tryLock _ _, _, hp => fun w hw => ⟨wp_bind (hp w hw).1, wp_bind (hp w hw).2⟩
  | write _ _, _, hp => fun v hv hs c hc w hw c' hc' => wp_bind (hp v hv hs c hc w hw c' hc')

theorem wp_and {p : Prog σ ρ κ ε α} : ∀ {v : View σ ρ κ},
    wp R p Φ v → wp R p Ψ v → wp R p (fun a w => Φ a w ∧ Ψ a w) v := by
  induction p with
  | ret a => exact fun h₁ h₂ w hw => ⟨h₁ w hw, h₂ w hw⟩
  | raise e => exact fun _ _ => trivial
  | read q k ih => exact fun h₁ h₂ w hw => ih _ (h₁ w hw) (h₂ w hw)
  | clock k ih => exact fun h₁ h₂ w hw => ih _ (h₁ w hw) (h₂ w hw)
  | lock l k ih => exact fun h₁ h₂ w hw hs => ih (h₁ w hw hs) (h₂ w hw hs)
  | tryLock l k ih =>
    exact fun h₁ h₂ w hw => ⟨ih _ (h₁ w hw).1 (h₂ w hw).1, ih _ (h₁ w hw).2 (h₂ w hw).2⟩
  | write s k ih =>
    exact fun h₁ h₂ v hv hs c hc w hw c' hc' =>
      ih _ (h₁ v hv hs c hc w hw c' hc') (h₂ v hv hs c hc w hw c' hc')

/-- Whatever a program does, it ends at a later moment. -/
theorem wp_later (u : View σ ρ κ) {p : Prog σ ρ κ ε α} : ∀ {v : View σ ρ κ}, Later R u v →
    wp R p (fun _ w => Later R u w) v := by
  induction p with
  | ret a => exact fun h w hw => h.trans (.of_env hw)
  | raise e => exact fun _ => trivial
  | read q k ih => exact fun h w hw => ih _ (h.trans (.of_env hw))
  | clock k ih => exact fun h w hw => ih _ (h.trans (.of_env hw))
  | lock l k ih => exact fun h w hw _ => ih ((h.trans (.of_env hw)).trans (.addLock w l))
  | tryLock l k ih =>
    exact fun h w hw => ⟨ih _ ((h.trans (.of_env hw)).trans (.addLock w l)),
      ih _ (h.trans (.of_env hw))⟩
  | write s k ih =>
    exact fun h v hv _ c _ w hw _ _ => ih _ ((h.trans (.of_env (hv.trans hw))).trans (.change w c))

/-- **Sequencing by specifications**: what the first program establishes, at a later moment, is
what the rest starts from. -/
theorem wp_seq {Ψ : α → View σ ρ κ → Prop} {Φ : β → View σ ρ κ → Prop} {p : Prog σ ρ κ ε α}
    {f : α → Prog σ ρ κ ε β} {v : View σ ρ κ} (hp : wp R p Ψ v)
    (hf : ∀ a w, Later R v w → Ψ a w → wp R (f a) Φ w) : wp R (p.bind f) Φ v :=
  wp_bind (wp_mono (fun a w h => hf a w h.2 h.1) (wp_and hp (wp_later v (Later.refl v))))

/-- Weakening a specification, the later moment given. -/
theorem wp_conseq {p : Prog σ ρ κ ε α} {v : View σ ρ κ} (hp : wp R p Ψ v)
    (h : ∀ a w, Later R v w → Ψ a w → Φ a w) : wp R p Φ v :=
  wp_mono (fun a w h' => h a w h'.2 h'.1) (wp_and hp (wp_later v (Later.refl v)))

/-! ### 4.1 Statements -/

theorem wp_ret {a : α} {v : View σ ρ κ} (h : ∀ v', Env R v v' → Φ a v') :
    wp R (ret a : Prog σ ρ κ ε α) Φ v := h

theorem wp_raise {e : ε} {v : View σ ρ κ} : wp R (raise e : Prog σ ρ κ ε α) Φ v := trivial

theorem wp_select {q : σ → Int → α} {v : View σ ρ κ}
    (h : ∀ v', Env R v v' → ∀ v'', Env R v' v'' → Φ (q v'.seen v'.sqlNow) v'') :
    wp R (select q : Prog σ ρ κ ε α) Φ v := fun v' hv v'' hv' => h v' hv v'' hv'

theorem wp_now {Φ : Int → View σ ρ κ → Prop} {v : View σ ρ κ}
    (h : ∀ v', Env R v v' → ∀ v'', Env R v' v'' → Φ v'.clock v'') :
    wp R (now : Prog σ ρ κ ε Int) Φ v := fun v' hv v'' hv' => h v' hv v'' hv'

theorem wp_acquire {l : κ} {Φ : Unit → View σ ρ κ → Prop} {v : View σ ρ κ}
    (h : ∀ v', Env R v v' → v'.started.isSome → ∀ v'', Env R (v'.addLock l) v'' → Φ () v'') :
    wp R (acquire l : Prog σ ρ κ ε Unit) Φ v := fun v' hv hs v'' hv' => h v' hv hs v'' hv'

theorem wp_tryAcquire {l : κ} {Φ : Bool → View σ ρ κ → Prop} {v : View σ ρ κ}
    (htrue : ∀ v', Env R v v' → ∀ v'', Env R (v'.addLock l) v'' → Φ true v'')
    (hfalse : ∀ v', Env R v v' → Φ false v') :
    wp R (tryAcquire l : Prog σ ρ κ ε Bool) Φ v := fun v' hv =>
  ⟨fun v'' hv' => htrue v' hv v'' hv', fun v'' hv' => hfalse v'' (hv.trans hv')⟩

theorem wp_execute {s : σ → Except ε (Change σ ρ)} {Φ : Unit → View σ ρ κ → Prop}
    {v : View σ ρ κ}
    (h : ∀ v', Env R v v' → v'.started.isSome → ∀ c, s v'.seen = .ok c → ∀ u, Env R v' u →
      ∀ c', s u.seen = .ok c' → ∀ w, Env R (u.change c) w → Φ () w) :
    wp R (execute s : Prog σ ρ κ ε Unit) Φ v :=
  fun v' hv hs c hc u hu c' hc' w hw => h v' hv hs c hc u hu c' hc' w hw

theorem wp_executeCount {s : σ → Except ε (Change σ ρ)} {Φ : Nat → View σ ρ κ → Prop}
    {v : View σ ρ κ}
    (h : ∀ v', Env R v v' → v'.started.isSome → ∀ c, s v'.seen = .ok c → ∀ u, Env R v' u →
      ∀ c', s u.seen = .ok c' → ∀ w, Env R (u.change c) w → Φ (c.still c').length w) :
    wp R (executeCount s : Prog σ ρ κ ε Nat) Φ v :=
  fun v' hv hs c hc u hu c' hc' w hw => h v' hv hs c hc u hu c' hc' w hw

theorem wp_raiseIf {c : Bool} {e : ε} {Φ : Unit → View σ ρ κ → Prop} {v : View σ ρ κ}
    (h : c = false → ∀ v', Env R v v' → Φ () v') :
    wp R (raiseIf c e : Prog σ ρ κ ε Unit) Φ v := by
  cases c with
  | false => exact h rfl
  | true => trivial

theorem wp_ofExcept {x : Except ε α} {v : View σ ρ κ}
    (h : ∀ a, x = .ok a → ∀ v', Env R v v' → Φ a v') :
    wp R (ofExcept x : Prog σ ρ κ ε α) Φ v := by
  cases x with
  | ok a => exact h a rfl
  | error e => trivial

/-! ### 4.2 Statements, as specifications -/

/-- A SELECT returns what it computed at one moment since. -/
theorem wp_select_once (q : σ → Int → α) (v : View σ ρ κ) :
    wp R (select q : Prog σ ρ κ ε α)
      (fun a w => Env R v w ∧ Read R v (fun db n => a = q db n) w) v :=
  wp_select fun u hu _ hw => ⟨hu.trans hw, u, ⟨hu, rfl⟩, .of_env hw⟩

/-- A clock reading is the clock at one moment since. -/
theorem wp_now_once (v : View σ ρ κ) : wp R (now : Prog σ ρ κ ε Int)
    (fun t w => Env R v w ∧ v.clock ≤ t ∧ t ≤ w.clock) v :=
  wp_now fun _ hu _ hw => ⟨hu.trans hw, hu.clock, hw.clock⟩

/-- A write computes its change at one moment since and applies it at another. -/
theorem wp_execute_once (s : σ → Except ε (Change σ ρ)) (v : View σ ρ κ) :
    wp R (execute s : Prog σ ρ κ ε Unit)
      (fun _ w => ∃ v' c u c', Env R v v' ∧ s v'.seen = .ok c ∧ Env R v' u ∧ s u.seen = .ok c' ∧
        Env R (u.change c) w) v :=
  wp_execute fun v' hv _ c hc u hu c' hc' _ hw => ⟨v', c, u, c', hv, hc, hu, hc', hw⟩

theorem wp_executeCount_once (s : σ → Except ε (Change σ ρ)) (v : View σ ρ κ) :
    wp R (executeCount s : Prog σ ρ κ ε Nat)
      (fun n w => ∃ v' c u c', Env R v v' ∧ s v'.seen = .ok c ∧ Env R v' u ∧ s u.seen = .ok c' ∧
        n = (c.still c').length ∧ Env R (u.change c) w) v :=
  wp_executeCount fun v' hv _ c hc u hu c' hc' _ hw => ⟨v', c, u, c', hv, hc, hu, hc', rfl, hw⟩

/-! ### 4.3 Programs that only read -/

/-- **A read-only program moves nothing of its own**: whatever it returns, only the others have
moved meanwhile. -/
theorem wp_readOnly : ∀ {p : Prog σ ρ κ ε α} {v : View σ ρ κ}, ReadOnly p →
    (∀ a v', Env R v v' → Φ a v') → wp R p Φ v
  | ret _, _, _, h => fun v' hv => h _ v' hv
  | raise _, _, _, _ => trivial
  | read _ _, _, hp, h => fun _ hv => wp_readOnly (hp _) fun a w hw => h a w (hv.trans hw)
  | clock _, _, hp, h => fun _ hv => wp_readOnly (hp _) fun a w hw => h a w (hv.trans hw)

/-- What a program can return, it returns. -/
theorem wp_returns {Ψ : α → Prop} : ∀ {p : Prog σ ρ κ ε α} {v : View σ ρ κ}, Returns Ψ p →
    wp R p (fun a _ => Ψ a) v
  | ret _, _, hp => fun _ _ => hp
  | raise _, _, _ => trivial
  | read _ _, _, hp => fun _ _ => wp_returns (hp _)
  | clock _, _, hp => fun _ _ => wp_returns (hp _)
  | lock _ k, _, hp => fun _ _ _ => wp_returns (p := k) hp
  | tryLock _ _, _, hp => fun _ _ => ⟨wp_returns (hp true), wp_returns (hp false)⟩
  | write _ _, _, hp => fun _ _ _ _ _ _ _ _ _ => wp_returns (hp _)

/-- A read-only program moves nothing, as a specification. -/
theorem wp_quiet {p : Prog σ ρ κ ε α} (hp : ReadOnly p) (v : View σ ρ κ) :
    wp R p (fun _ w => Env R v w) v := wp_readOnly hp fun _ _ h => h

/-- A check: it moves nothing, and returns what it can return. -/
theorem wp_check {Ψ : α → Prop} {p : Prog σ ρ κ ε α} (hr : ReadOnly p) (hp : Returns Ψ p)
    (v : View σ ρ κ) : wp R p (fun a w => Env R v w ∧ Ψ a) v :=
  wp_and (wp_quiet hr v) (wp_returns hp)

/-! ### 4.4 Loops -/

/-- A loop keeps an indexed invariant when each turn does. -/
theorem wp_mapEach {f : α → Prog σ ρ κ ε β} (I : List α → List β → View σ ρ κ → Prop)
    (henv : ∀ done out v v', I done out v → Env R v v' → I done out v') :
    ∀ (xs done : List α) (out : List β) (v : View σ ρ κ),
      (∀ done out x v, x ∈ xs → I done out v →
        wp R (f x) (fun b => I (done ++ [x]) (out ++ [b])) v) → I done out v →
      wp R (mapEach xs f) (fun bs v' => I (done ++ xs) (out ++ bs) v') v
  | [], done, out, v, _, hI => fun v' hv => by simpa using henv done out v v' hI hv
  | x :: xs, done, out, v, hstep, hI => by
    refine wp_bind (wp_mono (fun b v' h' => ?_) (hstep done out x v List.mem_cons_self hI))
    refine wp_bind (wp_mono (fun bs v'' h'' => ?_)
      (wp_mapEach I henv xs (done ++ [x]) (out ++ [b]) v'
        (fun done out y v hy => hstep done out y v (List.mem_cons_of_mem _ hy)) h'))
    intro w hw
    have := henv _ _ v'' w h'' hw
    simpa using this

theorem wp_foldEach {f : β → α → Prog σ ρ κ ε β} (I : List α → β → View σ ρ κ → Prop)
    (henv : ∀ done acc v v', I done acc v → Env R v v' → I done acc v') :
    ∀ (xs done : List α) (acc : β) (v : View σ ρ κ),
      (∀ done acc x v, x ∈ xs → I done acc v →
        wp R (f acc x) (fun acc' => I (done ++ [x]) acc') v) → I done acc v →
      wp R (foldEach xs acc f) (fun acc' v' => I (done ++ xs) acc' v') v
  | [], done, acc, v, _, hI => fun v' hv => by simpa using henv done acc v v' hI hv
  | x :: xs, done, acc, v, hstep, hI => by
    refine wp_bind (wp_mono (fun acc' v' h' => ?_) (hstep done acc x v List.mem_cons_self hI))
    have := wp_foldEach I henv xs (done ++ [x]) acc' v'
      (fun done acc y v hy => hstep done acc y v (List.mem_cons_of_mem _ hy)) h'
    simpa using this

end Prog

end NewlifeCore.Txn
