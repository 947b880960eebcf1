import NewlifeCore.Txn.Exec

/-!
# Requests over a database and a store

A request runs SQL statements in one transaction and, between them, commands of a second store
that take effect at once and that no rollback takes back.  `σ` is the type of database states, `τ`
that of the store; a command is a function of the store and the time.

A script says nothing about who runs beside it: `Script.serve` runs one request alone, at one
instant, and `Txn.Desk` any number of them step by step.
-/

namespace NewlifeCore.Txn

/-- A request over databases `σ` and stores `τ`, returning `α` or raising `ε`. -/
inductive Script (σ ρ τ ε : Type) [RowStore σ ρ] (α : Type) : Type 1 where
  | ret (a : α)
  | raise (e : ε)
  | read {β : Type} (q : σ → Int → β) (k : β → Script σ ρ τ ε α)
  | clock (k : Int → Script σ ρ τ ε α)
  | write (stmt : σ → Except ε (Change σ ρ)) (k : Nat → Script σ ρ τ ε α)
  | command {β : Type} (c : τ → Int → τ × β) (k : β → Script σ ρ τ ε α)
  /-- `session.commit()` before the end of the request. -/
  | commit (k : Script σ ρ τ ε α)

namespace Script

variable {σ ρ τ ε : Type} [RowStore σ ρ] {α β γ : Type}

/-! ## 1. The monad -/

def bind : Script σ ρ τ ε α → (α → Script σ ρ τ ε β) → Script σ ρ τ ε β
  | ret a, f => f a
  | raise e, _ => raise e
  | read q k, f => read q fun b => (k b).bind f
  | clock k, f => clock fun t => (k t).bind f
  | write s k, f => write s fun n => (k n).bind f
  | command c k, f => command c fun b => (k b).bind f
  | commit k, f => commit (k.bind f)

instance : Monad (Script σ ρ τ ε) where
  pure := ret
  bind := bind

@[simp] theorem pure_eq (a : α) : (pure a : Script σ ρ τ ε α) = ret a := rfl
@[simp] theorem bind_eq (p : Script σ ρ τ ε α) (f : α → Script σ ρ τ ε β) :
    p >>= f = p.bind f := rfl

theorem bind_ret : ∀ p : Script σ ρ τ ε α, p.bind ret = p
  | ret _ => rfl
  | raise _ => rfl
  | read q k => congrArg (read q) (funext fun b => bind_ret (k b))
  | clock k => congrArg clock (funext fun t => bind_ret (k t))
  | write s k => congrArg (write s) (funext fun n => bind_ret (k n))
  | command c k => congrArg (command c) (funext fun b => bind_ret (k b))
  | commit k => congrArg commit (bind_ret k)

theorem bind_bind (f : α → Script σ ρ τ ε β) (g : β → Script σ ρ τ ε γ) :
    ∀ p : Script σ ρ τ ε α, (p.bind f).bind g = p.bind fun a => (f a).bind g
  | ret _ => rfl
  | raise _ => rfl
  | read q k => congrArg (read q) (funext fun b => bind_bind f g (k b))
  | clock k => congrArg clock (funext fun t => bind_bind f g (k t))
  | write s k => congrArg (write s) (funext fun n => bind_bind f g (k n))
  | command c k => congrArg (command c) (funext fun b => bind_bind f g (k b))
  | commit k => congrArg commit (bind_bind f g k)

instance : LawfulMonad (Script σ ρ τ ε) :=
  LawfulMonad.mk' _ (fun p => bind_ret p) (fun _ _ => rfl) (fun p f g => bind_bind f g p)

/-! ## 2. Statements and commands as scripts -/

/-- A repository method inside a request. -/
def query : Prog σ ρ Empty ε α → Script σ ρ τ ε α
  | .ret a => ret a
  | .raise e => raise e
  | .read q k => read q fun b => query (k b)
  | .clock k => clock fun t => query (k t)
  | .lock l _ => l.elim
  | .tryLock l _ => l.elim
  | .write s k => write s fun n => query (k n)

def now : Script σ ρ τ ε Int := clock ret

def tell (c : τ → Int → τ) : Script σ ρ τ ε Unit := command (fun r t => (c r t, ())) ret

def ask (c : τ → Int → β) : Script σ ρ τ ε β := command (fun r t => (r, c r t)) ret

def commitNow : Script σ ρ τ ε Unit := commit (ret ())

/-- `if c: raise e`. -/
def raiseIf (c : Bool) (e : ε) : Script σ ρ τ ε Unit := if c then raise e else ret ()

/-- `try: p except e: h(e)` for the exceptions that `p` raises itself. -/
def tryCatch : Script σ ρ τ ε α → (ε → Script σ ρ τ ε α) → Script σ ρ τ ε α
  | ret a, _ => ret a
  | raise e, h => h e
  | read q k, h => read q fun b => (k b).tryCatch h
  | clock k, h => clock fun t => (k t).tryCatch h
  | write s k, h => write s fun n => (k n).tryCatch h
  | command c k, h => command c fun b => (k b).tryCatch h
  | commit k, h => commit (k.tryCatch h)

/-- A loop whose body returns nothing. -/
def each (xs : List α) (f : α → Script σ ρ τ ε Unit) : Script σ ρ τ ε Unit :=
  match xs with
  | [] => ret ()
  | x :: xs => (f x).bind fun _ => each xs f

@[simp] theorem query_ret (a : α) : (query (.ret a) : Script σ ρ τ ε α) = ret a := rfl

/-- **A property that composes**: what runs one script after the other has it when both have. -/
structure Compositional (P : ∀ α : Type, Script σ ρ τ ε α → Prop) : Prop where
  ret : ∀ {α : Type} (a : α), P α (ret a)
  raise : ∀ {α : Type} (e : ε), P α (raise e)
  bind : ∀ {α β : Type} {p : Script σ ρ τ ε α} {f : α → Script σ ρ τ ε β}, P α p →
    (∀ a, P β (f a)) → P β (p.bind f)

theorem Compositional.each {P : ∀ α : Type, Script σ ρ τ ε α → Prop} (hP : Compositional P)
    {f : α → Script σ ρ τ ε Unit} (hf : ∀ a, P Unit (f a)) : ∀ xs, P Unit (each xs f)
  | [] => hP.ret ()
  | x :: xs => hP.bind (hf x) fun _ => each hP hf xs

/-! ## 3. One request alone -/

end Script

/-- What is left between two requests. -/
structure World (σ τ : Type) where
  db : σ
  store : τ

/-- In the middle of one: its session sees `work`, and `db` is committed. -/
structure Midway (σ τ : Type) where
  work : σ
  db : σ
  store : τ

namespace Script

variable {σ ρ τ ε : Type} [RowStore σ ρ] {α β : Type}

/-- A request run at one instant, up to its result. -/
def exec : Script σ ρ τ ε α → Midway σ τ → Int → Except ε α × Midway σ τ
  | ret a, s, _ => (.ok a, s)
  | raise e, s, _ => (.error e, s)
  | read q k, s, t => exec (k (q s.work t)) s t
  | clock k, s, t => exec (k t) s t
  | write stmt k, s, t =>
    match stmt s.work with
    | .error e => (.error e, s)
    | .ok c => exec (k c.rows.length) { s with work := c.apply s.work } t
  | command c k, s, t => exec (k (c s.store t).2) { s with store := (c s.store t).1 } t
  | commit k, s, t => exec k { s with db := s.work } t

/-- **One request alone**: a result commits its transaction, an exception rolls it back; the
store keeps what it was told. -/
def serve (p : Script σ ρ τ ε α) (w : World σ τ) (t : Int) : Except ε α × World σ τ :=
  match p.exec ⟨w.db, w.db, w.store⟩ t with
  | (.ok a, s) => (.ok a, ⟨s.work, s.store⟩)
  | (.error e, s) => (.error e, ⟨s.db, s.store⟩)

theorem exec_bind (f : α → Script σ ρ τ ε β) : ∀ (p : Script σ ρ τ ε α) (s : Midway σ τ) (t : Int),
    (p.bind f).exec s t =
      match p.exec s t with
      | (.ok a, s') => (f a).exec s' t
      | (.error e, s') => (.error e, s')
  | ret _, _, _ => rfl
  | raise _, _, _ => rfl
  | read q k, s, t => exec_bind f (k (q s.work t)) s t
  | clock k, s, t => exec_bind f (k t) s t
  | write stmt k, s, t => by
    cases hs : stmt s.work with
    | error e => simp only [bind, exec, hs]
    | ok c => simp only [bind, exec, hs]; exact exec_bind f (k _) _ _
  | command c k, s, t => exec_bind f (k (c s.store t).2) _ t
  | commit k, s, t => exec_bind f k _ t

/-- A repository method does to the session what it does alone. -/
theorem exec_query : ∀ (p : Prog σ ρ Empty ε α) (s : Midway σ τ) (t : Int),
    ((query p : Script σ ρ τ ε α).exec s t).1 = (p.exec s.work t).map Prod.fst ∧
      ((query p : Script σ ρ τ ε α).exec s t).2.db = s.db ∧
      ((query p : Script σ ρ τ ε α).exec s t).2.store = s.store ∧
      ∀ a d, p.exec s.work t = .ok (a, d) → ((query p : Script σ ρ τ ε α).exec s t).2.work = d
  | .ret a, s, t => ⟨rfl, rfl, rfl, fun _ _ h => by cases h; rfl⟩
  | .raise e, s, t => ⟨rfl, rfl, rfl, fun _ _ h => by cases h⟩
  | .read q k, s, t => exec_query (k (q s.work t)) s t
  | .clock k, s, t => exec_query (k t) s t
  | .lock l _, _, _ => l.elim
  | .tryLock l _, _, _ => l.elim
  | .write stmt k, s, t => by
    cases hs : stmt s.work with
    | error e =>
      simp only [query, exec, Prog.exec, hs]
      exact ⟨rfl, trivial, trivial, fun _ _ h => by cases h⟩
    | ok c =>
      simp only [query, exec, Prog.exec, hs]
      exact exec_query (k _) { s with work := c.apply s.work } t

/-- A request that returned has returned from each part. -/
theorem exec_bind_ok {f : α → Script σ ρ τ ε β} {p : Script σ ρ τ ε α} {s s' : Midway σ τ} {t : Int}
    {b : β} (h : (p.bind f).exec s t = (.ok b, s')) :
    ∃ a s₁, p.exec s t = (.ok a, s₁) ∧ (f a).exec s₁ t = (.ok b, s') := by
  rw [exec_bind] at h
  cases hp : p.exec s t with
  | mk r s₁ =>
    rw [hp] at h
    cases r with
    | ok a => exact ⟨a, s₁, rfl, h⟩
    | error e => cases h

theorem exec_query_ok {p : Prog σ ρ Empty ε α} {s s' : Midway σ τ} {t : Int} {a : α}
    (h : (query p : Script σ ρ τ ε α).exec s t = (.ok a, s')) :
    ∃ d, p.exec s.work t = .ok (a, d) ∧ s' = { s with work := d } := by
  obtain ⟨hr, hdb, hstore, hwork⟩ := exec_query (τ := τ) p s t
  rw [h] at hr hdb hstore hwork
  cases hp : p.exec s.work t with
  | error e =>
    rw [hp] at hr
    cases hr
  | ok x =>
    rw [hp] at hr
    cases hr
    refine ⟨x.2, rfl, ?_⟩
    cases s'
    simp only [Midway.mk.injEq]
    exact ⟨hwork x.1 x.2 hp, hdb, hstore⟩

theorem exec_raiseIf_ok {c : Bool} {e : ε} {s s' : Midway σ τ} {t : Int}
    (h : (raiseIf c e : Script σ ρ τ ε Unit).exec s t = (.ok (), s')) : c = false ∧ s' = s := by
  cases c with
  | false => exact ⟨rfl, (Prod.mk.inj h).2.symm⟩
  | true => cases h

/-- A handler that always raises leaves a result, and the session, alone. -/
theorem exec_tryCatch {h : ε → Script σ ρ τ ε α} (hh : ∀ e, ∃ e', h e = raise e') :
    ∀ (p : Script σ ρ τ ε α) (s : Midway σ τ) (t : Int),
      ((p.tryCatch h).exec s t).2 = (p.exec s t).2 ∧
        ∀ a, ((p.tryCatch h).exec s t).1 = .ok a ↔ (p.exec s t).1 = .ok a
  | ret _, _, _ => ⟨rfl, fun _ => Iff.rfl⟩
  | raise e, s, t => by
    obtain ⟨e', he⟩ := hh e
    simp [tryCatch, he, exec]
  | read q k, s, t => exec_tryCatch hh (k (q s.work t)) s t
  | clock k, s, t => exec_tryCatch hh (k t) s t
  | write stmt k, s, t => by
    cases hs : stmt s.work with
    | error e => simp [tryCatch, exec, hs]
    | ok c =>
      simp only [tryCatch, exec, hs]
      exact exec_tryCatch hh (k _) _ t
  | command c k, s, t => exec_tryCatch hh (k (c s.store t).2) _ t
  | commit k, s, t => exec_tryCatch hh k _ t

/-! ### 3.1 Promises -/

/-- **What a request promises** at the instant `t`: from `P` it returns with `Q`, or it raises and
leaves `E`. -/
def Keeps (t : Int) (P : Midway σ τ → Prop) (p : Script σ ρ τ ε α)
    (Q : α → Midway σ τ → Prop) (E : World σ τ → Prop) : Prop :=
  ∀ s, P s → match p.exec s t with
    | (.ok a, s') => Q a s'
    | (.error _, s') => E ⟨s'.db, s'.store⟩

namespace Keeps

variable {t : Int} {P P' : Midway σ τ → Prop} {Q Q' : α → Midway σ τ → Prop}
  {E E' : World σ τ → Prop}

theorem ret {a : α} (h : ∀ s, P s → Q a s) : Keeps t P (ret a : Script σ ρ τ ε α) Q E :=
  fun s hs => h s hs

theorem raise {e : ε} (h : ∀ s, P s → E ⟨s.db, s.store⟩) :
    Keeps t P (raise e : Script σ ρ τ ε α) Q E := fun s hs => h s hs

theorem bind {p : Script σ ρ τ ε α} {f : α → Script σ ρ τ ε β} {Q' : β → Midway σ τ → Prop}
    (hp : Keeps t P p Q E) (hf : ∀ a, Keeps t (Q a) (f a) Q' E) : Keeps t P (p.bind f) Q' E := by
  intro s hs
  have h := hp s hs
  rw [exec_bind]
  cases hps : p.exec s t with
  | mk r s' =>
    rw [hps] at h
    cases r with
    | ok a => exact hf a s' h
    | error e => exact h

theorem conseq {p : Script σ ρ τ ε α} (h : Keeps t P p Q E) (hP : ∀ s, P' s → P s)
    (hQ : ∀ a s, Q a s → Q' a s) (hE : ∀ w, E w → E' w) : Keeps t P' p Q' E' := by
  intro s hs
  have h := h s (hP s hs)
  cases hps : p.exec s t with
  | mk r s' =>
    rw [hps] at h
    cases r with
    | ok a => exact hQ a s' h
    | error e => exact hE _ h

theorem query {p : Prog σ ρ Empty ε α}
    (hok : ∀ s a d, P s → p.exec s.work t = .ok (a, d) → Q a { s with work := d })
    (herror : ∀ s e, P s → p.exec s.work t = .error e → E ⟨s.db, s.store⟩) :
    Keeps t P (query p : Script σ ρ τ ε α) Q E := by
  intro s hs
  obtain ⟨hr, hdb, hstore, hwork⟩ := exec_query (τ := τ) p s t
  cases hps : (Script.query p : Script σ ρ τ ε α).exec s t with
  | mk r s' =>
    rw [hps] at hr hdb hstore hwork
    cases hp : p.exec s.work t with
    | error e =>
      rw [hp] at hr
      cases hr
      show E ⟨s'.db, s'.store⟩
      dsimp only at hdb hstore
      rw [hdb, hstore]
      exact herror s e hs hp
    | ok x =>
      rw [hp] at hr
      cases hr
      have hs' : s' = { s with work := x.2 } := by
        cases s'
        simp only [Midway.mk.injEq]
        exact ⟨hwork x.1 x.2 hp, hdb, hstore⟩
      rw [hs']
      exact hok s x.1 x.2 hs hp

theorem tell {c : τ → Int → τ} {Q : Unit → Midway σ τ → Prop}
    (h : ∀ s, P s → Q () { s with store := c s.store t }) :
    Keeps t P (tell c : Script σ ρ τ ε Unit) Q E := fun s hs => h s hs

theorem ask {c : τ → Int → α} (h : ∀ s, P s → Q (c s.store t) s) :
    Keeps t P (ask c : Script σ ρ τ ε α) Q E := fun s hs => h s hs

theorem now {Q : Int → Midway σ τ → Prop} (h : ∀ s, P s → Q t s) :
    Keeps t P (now : Script σ ρ τ ε Int) Q E := fun s hs => h s hs

theorem commitNow {Q : Unit → Midway σ τ → Prop} (h : ∀ s, P s → Q () { s with db := s.work }) :
    Keeps t P (commitNow : Script σ ρ τ ε Unit) Q E := fun s hs => h s hs

theorem raiseIf {c : Bool} {e : ε} {Q : Unit → Midway σ τ → Prop}
    (hraise : ∀ s, P s → c = true → E ⟨s.db, s.store⟩) (h : ∀ s, P s → c = false → Q () s) :
    Keeps t P (raiseIf c e : Script σ ρ τ ε Unit) Q E := by
  intro s hs
  cases c with
  | false => exact h s hs rfl
  | true => exact hraise s hs rfl

/-- What is known beforehand and is not about the state. -/
theorem assume {C : Prop} {p : Script σ ρ τ ε α} (h : C → Keeps t P p Q E) :
    Keeps t (fun s => P s ∧ C) p Q E := fun s hs => h hs.2 s hs.1

theorem tryCatch {p : Script σ ρ τ ε α} {h : ε → Script σ ρ τ ε α} (hp : Keeps t P p Q E)
    (hh : ∀ e, ∃ e', h e = .raise e') : Keeps t P (p.tryCatch h) Q E := by
  intro s hs
  have hq := hp s hs
  obtain ⟨hs', hr⟩ := exec_tryCatch hh p s t
  cases hps : p.exec s t with
  | mk r s₁ =>
    rw [hps] at hq hs' hr
    cases hts : (p.tryCatch h).exec s t with
    | mk r' s₂ =>
      rw [hts] at hs' hr
      dsimp only at hs' hr
      subst hs'
      cases r with
      | ok a =>
        rw [(hr a).mpr rfl]
        exact hq
      | error e =>
        cases r' with
        | ok a => cases (hr a).mp rfl
        | error e' => exact hq

/-- What a request promises, it leaves behind. -/
theorem serve {p : Script σ ρ τ ε α} (h : Keeps t P p Q E) {w : World σ τ}
    (hw : P ⟨w.db, w.db, w.store⟩) :
    match p.serve w t with
    | (.ok a, w') => ∃ db, Q a ⟨w'.db, db, w'.store⟩
    | (.error _, w') => E w' := by
  have hs := h _ hw
  unfold Script.serve
  cases hps : p.exec ⟨w.db, w.db, w.store⟩ t with
  | mk r s' =>
    rw [hps] at hs
    cases r with
    | ok a => exact ⟨s'.db, hs⟩
    | error e => exact hs

end Keeps

/-! ### 3.2 What a request can write -/

/-- Every write of the request changes what it sees as `R` allows, whatever its other steps see. -/
def Writes (R : σ → σ → Prop) : Script σ ρ τ ε α → Prop
  | ret _ => True
  | raise _ => True
  | read _ k => ∀ b, Writes R (k b)
  | clock k => ∀ t, Writes R (k t)
  | write stmt k => (∀ db c, stmt db = .ok c → R db (c.apply db)) ∧ ∀ n, Writes R (k n)
  | command _ k => ∀ b, Writes R (k b)
  | commit k => Writes R k

namespace Writes

variable {R : σ → σ → Prop}

theorem ret (a : α) : Writes R (ret a : Script σ ρ τ ε α) := trivial

theorem tell (c : τ → Int → τ) : Writes R (tell c : Script σ ρ τ ε Unit) := fun _ => trivial

theorem now : Writes R (now : Script σ ρ τ ε Int) := fun _ => trivial

theorem bind {f : α → Script σ ρ τ ε β} (hf : ∀ a, Writes R (f a)) :
    ∀ {p : Script σ ρ τ ε α}, Writes R p → Writes R (p.bind f)
  | .ret a, _ => hf a
  | .raise _, _ => trivial
  | .read _ _, hp => fun b => bind hf (hp b)
  | .clock _, hp => fun t => bind hf (hp t)
  | .write _ _, hp => ⟨hp.1, fun n => bind hf (hp.2 n)⟩
  | .command _ _, hp => fun b => bind hf (hp b)
  | .commit k, hp => bind (p := k) hf hp

theorem query : ∀ {p : Prog σ ρ Empty ε α}, p.Writes R →
    Writes R (query p : Script σ ρ τ ε α)
  | .ret _, _ => trivial
  | .raise _, _ => trivial
  | .read _ _, hp => fun b => query (hp b)
  | .clock _, hp => fun t => query (hp t)
  | .lock l _, _ => l.elim
  | .tryLock l _, _ => l.elim
  | .write _ _, hp => ⟨hp.1, fun n => query (hp.2 n)⟩

theorem each {f : α → Script σ ρ τ ε Unit} (hf : ∀ a, Writes R (f a)) :
    ∀ xs, Writes R (each xs f)
  | [] => trivial
  | x :: xs => bind (fun _ => each hf xs) (hf x)

/-- What the writes keep, the request keeps, in its session and in what it commits. -/
theorem exec {I : σ → Prop} (hI : ∀ {db db'}, R db db' → I db → I db') :
    ∀ {p : Script σ ρ τ ε α} {s : Midway σ τ} {t : Int}, p.Writes R → I s.work → I s.db →
      I (p.exec s t).2.work ∧ I (p.exec s t).2.db
  | .ret _, _, _, _, hw, hd => ⟨hw, hd⟩
  | .raise _, _, _, _, hw, hd => ⟨hw, hd⟩
  | .read _ k, _, _, hp, hw, hd => exec (p := k _) hI (hp _) hw hd
  | .clock k, _, _, hp, hw, hd => exec (p := k _) hI (hp _) hw hd
  | .write stmt k, s, t, hp, hw, hd => by
    cases hs : stmt s.work with
    | error e =>
      simp only [Script.exec, hs]
      exact ⟨hw, hd⟩
    | ok c =>
      simp only [Script.exec, hs]
      exact exec (p := k _) hI (hp.2 _) (hI (hp.1 _ c hs) hw) hd
  | .command _ k, _, _, hp, hw, hd => exec (p := k _) hI (hp _) hw hd
  | .commit k, s, _, hp, hw, _ => exec (p := k) (s := { s with db := s.work }) hI hp hw hw

end Writes

end Script

end NewlifeCore.Txn
