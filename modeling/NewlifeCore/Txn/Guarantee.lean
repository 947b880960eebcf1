import NewlifeCore.Txn.Rely

/-!
# What a transaction leaves to the others

The other half of the bargain with `Rely`: what the statements of one program may make of any
database, whichever moment they were issued at.  A change is judged by the rows it locks and by
what it does to every state it could be applied to, so that what is found out about a program
still holds of its transaction when it commits.
-/

namespace NewlifeCore.Txn

variable {σ ρ κ ε : Type} [RowStore σ ρ] {α β : Type}

/-- **What a transaction that locked given rows may do** to a database. -/
structure Guarantee (σ ρ : Type) where
  rel : List ρ → σ → σ → Prop
  refl : ∀ rows db, rel rows db db
  trans : ∀ {rows db₁ db₂ db₃}, rel rows db₁ db₂ → rel rows db₂ db₃ → rel rows db₁ db₃
  /-- More rows, more that may be done. -/
  mono : ∀ {rows rows' db db'}, rows ⊆ rows' → rel rows db db' → rel rows' db db'

namespace Prog

/-- Every write of the program does no more than `G` allows, wherever it is applied and whatever
its other statements see. -/
def Keeps (G : Guarantee σ ρ) : Prog σ ρ κ ε α → Prop
  | ret _ => True
  | raise _ => True
  | read _ k => ∀ b, Keeps G (k b)
  | clock k => ∀ t, Keeps G (k t)
  | lock _ k => Keeps G k
  | tryLock _ k => ∀ b, Keeps G (k b)
  | write stmt k => (∀ db c, stmt db = .ok c → ∀ db', G.rel c.rows db' (c.apply db')) ∧
      ∀ n, Keeps G (k n)

namespace Keeps

variable {G : Guarantee σ ρ}

theorem ret (a : α) : Keeps G (ret a : Prog σ ρ κ ε α) := trivial

theorem bind {f : α → Prog σ ρ κ ε β} (hf : ∀ a, Keeps G (f a)) :
    ∀ {p : Prog σ ρ κ ε α}, Keeps G p → Keeps G (p.bind f)
  | .ret a, _ => hf a
  | .raise _, _ => trivial
  | .read _ _, hp => fun b => bind hf (hp b)
  | .clock _, hp => fun t => bind hf (hp t)
  | .lock _ k, hp => bind (p := k) hf hp
  | .tryLock _ _, hp => fun b => bind hf (hp b)
  | .write _ _, hp => ⟨hp.1, fun n => bind hf (hp.2 n)⟩

theorem readOnly : ∀ {p : Prog σ ρ κ ε α}, ReadOnly p → Keeps G p
  | .ret _, _ => trivial
  | .raise _, _ => trivial
  | .read _ _, hp => fun b => readOnly (hp b)
  | .clock _, hp => fun t => readOnly (hp t)

/-- What runs after the checks. -/
theorem checked {p : Prog σ ρ κ ε α} {f : α → Prog σ ρ κ ε β} (hp : ReadOnly p)
    (hf : ∀ a, Keeps G (f a)) : Keeps G (p.bind f) := bind hf (readOnly hp)

theorem execute {s : σ → Except ε (Change σ ρ)}
    (h : ∀ db c, s db = .ok c → ∀ db', G.rel c.rows db' (c.apply db')) :
    Keeps G (Prog.execute (κ := κ) s) := ⟨h, fun _ => trivial⟩

theorem executeCount {s : σ → Except ε (Change σ ρ)}
    (h : ∀ db c, s db = .ok c → ∀ db', G.rel c.rows db' (c.apply db')) :
    Keeps G (Prog.executeCount (κ := κ) s) := ⟨h, fun _ => trivial⟩

theorem compositional : Compositional fun α (p : Prog σ ρ κ ε α) => Keeps G p :=
  ⟨readOnly, fun hf _ hp => bind hf hp⟩

end Keeps

variable [DecidableEq ρ] {R : Rely σ κ} {G : Guarantee σ ρ}

theorem wp_keeps_from (u : View σ ρ κ) {p : Prog σ ρ κ ε α} (hp : Keeps G p) :
    ∀ {v : View σ ρ κ}, (∀ db, G.rel v.rows (u.own db) (v.own db)) →
      wp R p (fun _ w => ∀ db, G.rel w.rows (u.own db) (w.own db)) v := by
  have henv : ∀ {v w : View σ ρ κ}, (∀ db, G.rel v.rows (u.own db) (v.own db)) → Env R v w →
      ∀ db, G.rel w.rows (u.own db) (w.own db) :=
    fun h hw db => by rw [hw.own, hw.rows]; exact h db
  induction p with
  | ret a => exact fun {v} h w hw => henv h hw
  | raise e => exact fun {v} _ => trivial
  | read q k ih => exact fun {v} h w hw => ih _ (hp _) (henv h hw)
  | clock k ih => exact fun {v} h w hw => ih _ (hp _) (henv h hw)
  | lock l k ih => exact fun {v} h w hw _ => ih hp fun db => henv h hw db
  | tryLock l k ih =>
    exact fun {v} h w hw => ⟨ih _ (hp true) fun db => henv h hw db,
      ih _ (hp false) (henv h hw)⟩
  | write stmt k ih =>
    intro v h v' hv _ c hc w hw c' _
    refine ih _ (hp.2 _) fun db => ?_
    have hown := henv h (hv.trans hw) db
    exact G.trans (G.mono (List.subset_append_right _ _) hown)
      (G.mono (List.subset_append_left _ _) (hp.1 _ c hc _))

/-- **A transaction does to any database what its program keeps to**, whatever the others do. -/
theorem wp_keeps {p : Prog σ ρ κ ε α} (hp : Keeps G p) (v : View σ ρ κ) :
    wp R p (fun _ w => ∀ db, G.rel w.rows (v.own db) (w.own db)) v :=
  wp_keeps_from v hp fun _ => G.refl _ _

end Prog

end NewlifeCore.Txn
