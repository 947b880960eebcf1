import Mathlib.Data.List.Forall2
import NewlifeCore.Txn.Interleaving

/-!
# Programs run alone

`exec p db t` runs `p` as one transaction with nothing beside it and the clock standing at `t`:
the result with the database it commits, or the exception that rolled it back.  This is the
serial reading of a service method; `exec_run` shows that it is one of the runs of
`Txn.Interleaving`, and `exec_of_wp` that whatever a `wp` proof establishes holds of it.
-/

namespace NewlifeCore.Txn

variable {σ ρ κ ε : Type} [RowStore σ ρ] {α β : Type}

namespace Prog

/-! ## 1. Serial execution -/

def exec : Prog σ ρ κ ε α → σ → Int → Except ε (α × σ)
  | ret a, db, _ => .ok (a, db)
  | raise e, _, _ => .error e
  | read q k, db, t => (k (q db t)).exec db t
  | clock k, db, t => (k t).exec db t
  | lock _ k, db, t => k.exec db t
  | tryLock _ k, db, t => (k true).exec db t
  | write s k, db, t =>
    match s db with
    | .error e => .error e
    | .ok c => (k c.rows.length).exec (c.apply db) t

/-- The database after the call, unchanged when it raised. -/
def after (p : Prog σ ρ κ ε α) (db : σ) (t : Int) : σ :=
  match p.exec db t with
  | .ok (_, db') => db'
  | .error _ => db

variable {db db' : σ} {t : Int}

/-- The call returned. -/
def returns (p : Prog σ ρ κ ε α) (db : σ) (t : Int) : Bool := (p.exec db t).isOk

theorem exec_after {p : Prog σ ρ κ ε Unit} (h : p.returns db t = true) :
    p.exec db t = .ok ((), p.after db t) := by
  unfold returns at h
  unfold after
  cases hp : p.exec db t with
  | error e => rw [hp] at h; cases h
  | ok r => rfl

@[simp] theorem exec_ret (a : α) : (ret a : Prog σ ρ κ ε α).exec db t = .ok (a, db) := rfl
@[simp] theorem exec_raise (e : ε) : (raise e : Prog σ ρ κ ε α).exec db t = .error e := rfl
@[simp] theorem exec_select (q : σ → Int → β) :
    (select q : Prog σ ρ κ ε β).exec db t = .ok (q db t, db) := rfl
@[simp] theorem exec_now : (now : Prog σ ρ κ ε Int).exec db t = .ok (t, db) := rfl
@[simp] theorem exec_acquire (l : κ) :
    (acquire l : Prog σ ρ κ ε Unit).exec db t = .ok ((), db) := rfl
@[simp] theorem exec_tryAcquire (l : κ) :
    (tryAcquire l : Prog σ ρ κ ε Bool).exec db t = .ok (true, db) := rfl

theorem exec_execute {s : σ → Except ε (Change σ ρ)} {c : Change σ ρ} (h : s db = .ok c) :
    (execute s : Prog σ ρ κ ε Unit).exec db t = .ok ((), c.apply db) := by
  simp only [execute, exec, h]

@[simp] theorem exec_raiseIf (c : Bool) (e : ε) : (raiseIf c e : Prog σ ρ κ ε Unit).exec db t =
    if c then .error e else .ok ((), db) := by
  cases c <;> rfl

@[simp] theorem exec_ofExcept (x : Except ε α) : (ofExcept x : Prog σ ρ κ ε α).exec db t =
    match x with
    | .ok a => .ok (a, db)
    | .error e => .error e := by
  cases x <;> rfl

/-- **Sequencing**: the second program runs on what the first one left. -/
theorem exec_bind (f : α → Prog σ ρ κ ε β) : ∀ (p : Prog σ ρ κ ε α) (db : σ) (t : Int),
    (p.bind f).exec db t =
      match p.exec db t with
      | .ok (a, db') => (f a).exec db' t
      | .error e => .error e
  | ret _, _, _ => rfl
  | raise _, _, _ => rfl
  | read q k, db, t => exec_bind f (k (q db t)) db t
  | clock k, db, t => exec_bind f (k t) db t
  | lock _ k, db, t => exec_bind f k db t
  | tryLock _ k, db, t => exec_bind f (k true) db t
  | write s k, db, t => by
    cases hs : s db with
    | error e => simp only [bind, exec, hs]
    | ok c => simp only [bind, exec, hs]; exact exec_bind f (k _) _ _

theorem exec_bind_ok {f : α → Prog σ ρ κ ε β} {p : Prog σ ρ κ ε α} {b : β} {db' : σ}
    (h : (p.bind f).exec db t = .ok (b, db')) :
    ∃ a db₁, p.exec db t = .ok (a, db₁) ∧ (f a).exec db₁ t = .ok (b, db') := by
  rw [exec_bind] at h
  cases hp : p.exec db t with
  | error e => rw [hp] at h; cases h
  | ok r =>
    rw [hp] at h
    exact ⟨r.1, r.2, rfl, h⟩

theorem exec_bind_error {f : α → Prog σ ρ κ ε β} {p : Prog σ ρ κ ε α} {e : ε}
    (h : (p.bind f).exec db t = .error e) : p.exec db t = .error e ∨
      ∃ a db₁, p.exec db t = .ok (a, db₁) ∧ (f a).exec db₁ t = .error e := by
  rw [exec_bind] at h
  cases hp : p.exec db t with
  | error e₁ =>
    rw [hp] at h
    cases h
    exact .inl rfl
  | ok r =>
    rw [hp] at h
    exact .inr ⟨r.1, r.2, rfl, h⟩

theorem exec_seq {f : α → Prog σ ρ κ ε β} {p : Prog σ ρ κ ε α} {a : α} {db₁ : σ}
    (h : p.exec db t = .ok (a, db₁)) : (p.bind f).exec db t = (f a).exec db₁ t := by
  rw [exec_bind, h]

/-- A read-only program leaves the database alone. -/
theorem exec_readOnly : ∀ {p : Prog σ ρ κ ε α} {db : σ} {t : Int} {a : α} {db' : σ},
    ReadOnly p → p.exec db t = .ok (a, db') → db' = db
  | ret _, _, _, _, _, _, h => by cases h; rfl
  | raise _, _, _, _, _, _, h => by cases h
  | read _ _, _, _, _, _, hp, h => exec_readOnly (hp _) h
  | clock _, _, _, _, _, hp, h => exec_readOnly (hp _) h

/-- The result of a read-only program, the database set aside. -/
def eval (p : Prog σ ρ κ ε α) (db : σ) (t : Int) : Except ε α :=
  match p.exec db t with
  | .ok (a, _) => .ok a
  | .error e => .error e

theorem exec_eq_eval {p : Prog σ ρ κ ε α} (hp : ReadOnly p) (db : σ) (t : Int) :
    p.exec db t = match p.eval db t with
      | .ok a => .ok (a, db)
      | .error e => .error e := by
  unfold eval
  cases h : p.exec db t with
  | error e => rfl
  | ok r =>
    obtain ⟨a, db'⟩ := r
    rw [exec_readOnly hp h]

theorem eval_readOnly {p : Prog σ ρ κ ε α} (hp : ReadOnly p) {a : α} {db' : σ} :
    p.exec db t = .ok (a, db') ↔ db' = db ∧ p.eval db t = .ok a := by
  rw [exec_eq_eval hp]
  cases p.eval db t with
  | error e => simp
  | ok b => simp only [Except.ok.injEq, Prod.mk.injEq]; exact ⟨fun h => ⟨h.2.symm, h.1⟩,
      fun h => ⟨h.2, h.1.symm⟩⟩

theorem eval_ok {p : Prog σ ρ κ ε α} (hp : ReadOnly p) {a : α} (h : p.eval db t = .ok a) :
    p.exec db t = .ok (a, db) := (eval_readOnly hp).mpr ⟨rfl, h⟩

/-- A program that begins by reading. -/
theorem exec_reads_iff {f : α → Prog σ ρ κ ε β} {p : Prog σ ρ κ ε α} (hp : ReadOnly p) {b : β}
    {db' : σ} : (p.bind f).exec db t = .ok (b, db') ↔
      ∃ a, p.eval db t = .ok a ∧ (f a).exec db t = .ok (b, db') := by
  rw [exec_bind, exec_eq_eval hp]
  cases p.eval db t with
  | error e => simp
  | ok a => simp

theorem eval_bind_iff {f : α → Prog σ ρ κ ε β} {p : Prog σ ρ κ ε α} (hp : ReadOnly p) {b : β} :
    (p.bind f).eval db t = .ok b ↔ ∃ a, p.eval db t = .ok a ∧ (f a).eval db t = .ok b := by
  unfold eval
  rw [exec_bind]
  cases h : p.exec db t with
  | error e => simp
  | ok r =>
    obtain ⟨a, db'⟩ := r
    rw [exec_readOnly hp h]
    simp

@[simp] theorem eval_ret (a : α) : (ret a : Prog σ ρ κ ε α).eval db t = .ok a := rfl
@[simp] theorem eval_raise (e : ε) : (raise e : Prog σ ρ κ ε α).eval db t = .error e := rfl
@[simp] theorem eval_select (q : σ → Int → β) :
    (select q : Prog σ ρ κ ε β).eval db t = .ok (q db t) := rfl
@[simp] theorem eval_now : (now : Prog σ ρ κ ε Int).eval db t = .ok t := rfl

@[simp] theorem eval_raiseIf (c : Bool) (e : ε) : (raiseIf c e : Prog σ ρ κ ε Unit).eval db t =
    if c then .error e else .ok () := by
  cases c <;> rfl

@[simp] theorem eval_ofExcept (x : Except ε α) :
    (ofExcept x : Prog σ ρ κ ε α).eval db t = x := by
  cases x <;> rfl

/-- A result has what every result of the program has. -/
theorem exec_returns {Ψ : α → Prop} {a : α} : ∀ {p : Prog σ ρ κ ε α} {db : σ} {t : Int},
    Returns Ψ p → p.exec db t = .ok (a, db') → Ψ a
  | ret _, _, _, hp, h => by cases h; exact hp
  | raise _, _, _, _, h => by cases h
  | read q k, db, t, hp, h => exec_returns (p := k (q db t)) (hp _) h
  | clock k, _, t, hp, h => exec_returns (p := k t) (hp t) h
  | lock _ k, _, _, hp, h => exec_returns (p := k) hp h
  | tryLock _ k, _, _, hp, h => exec_returns (p := k true) (hp true) h
  | write s k, db, t, hp, h => by
    cases hc : s db with
    | error e => simp only [exec, hc] at h; cases h
    | ok c =>
      simp only [exec, hc] at h
      exact exec_returns (p := k c.rows.length) (hp _) h

/-- `try: p except e: raise g(e)`, for the exceptions of statements too. -/
def mapError (g : ε → ε) : Prog σ ρ κ ε α → Prog σ ρ κ ε α
  | ret a => ret a
  | raise e => raise (g e)
  | read q k => read q fun b => (k b).mapError g
  | clock k => clock fun t => (k t).mapError g
  | lock l k => lock l (k.mapError g)
  | tryLock l k => tryLock l fun b => (k b).mapError g
  | write s k => write (fun db => (s db).mapError g) fun n => (k n).mapError g

theorem exec_mapError (g : ε → ε) : ∀ (p : Prog σ ρ κ ε α) (db : σ) (t : Int),
    (p.mapError g).exec db t = (p.exec db t).mapError g
  | ret _, _, _ => rfl
  | raise _, _, _ => rfl
  | read q k, db, t => exec_mapError g (k (q db t)) db t
  | clock k, db, t => exec_mapError g (k t) db t
  | lock _ k, db, t => exec_mapError g k db t
  | tryLock _ k, db, t => exec_mapError g (k true) db t
  | write s k, db, t => by
    simp only [mapError, exec]
    cases s db with
    | error e => rfl
    | ok c => exact exec_mapError g (k _) _ t

theorem exec_mapError_ok {g : ε → ε} {p : Prog σ ρ κ ε α} {r : α × σ} :
    (p.mapError g).exec db t = .ok r ↔ p.exec db t = .ok r := by
  rw [exec_mapError]
  cases p.exec db t with
  | error e => exact iff_of_false nofun nofun
  | ok a => exact Iff.rfl

theorem exec_executeCount_iff {stmt : σ → Except ε (Change σ ρ)} {n : Nat} :
    (executeCount stmt : Prog σ ρ κ ε Nat).exec db t = .ok (n, db') ↔
      ∃ c, stmt db = .ok c ∧ n = c.rows.length ∧ db' = c.apply db := by
  simp only [executeCount, exec]
  cases stmt db with
  | error e => simp
  | ok c => simp [eq_comm]

theorem exec_execute_iff {stmt : σ → Except ε (Change σ ρ)} :
    (execute stmt : Prog σ ρ κ ε Unit).exec db t = .ok ((), db') ↔
      ∃ c, stmt db = .ok c ∧ db' = c.apply db := by
  simp only [execute, exec]
  cases stmt db with
  | error e => simp
  | ok c => simp [eq_comm]

/-- A write succeeds unless a constraint refuses it. -/
theorem execute_ok_iff {stmt : σ → Except ε (Change σ ρ)} :
    (∃ r, (execute stmt : Prog σ ρ κ ε Unit).exec db t = .ok r) ↔ ∃ c, stmt db = .ok c := by
  simp only [execute, exec]
  cases stmt db with
  | error e => simp
  | ok c => simp

theorem executeCount_ok_iff {stmt : σ → Except ε (Change σ ρ)} :
    (∃ r, (executeCount stmt : Prog σ ρ κ ε Nat).exec db t = .ok r) ↔ ∃ c, stmt db = .ok c := by
  simp only [executeCount, exec]
  cases stmt db with
  | error e => simp
  | ok c => simp

/-- Two programs in sequence succeed if the second one does on what the first one left. -/
theorem bind_ok_iff {f : α → Prog σ ρ κ ε β} {p : Prog σ ρ κ ε α} :
    (∃ r, (p.bind f).exec db t = .ok r) ↔
      ∃ a db₁, p.exec db t = .ok (a, db₁) ∧ ∃ r, (f a).exec db₁ t = .ok r := by
  rw [exec_bind]
  cases p.exec db t with
  | error e => simp
  | ok r =>
    obtain ⟨a, db₁⟩ := r
    simp

/-- A write that succeeded made the change it computed. -/
theorem exec_executed {stmt : σ → Except ε (Change σ ρ)}
    (h : (execute stmt : Prog σ ρ κ ε Unit).exec db t = .ok ((), db')) :
    ∃ c, stmt db = .ok c ∧ db' = c.apply db := exec_execute_iff.mp h

/-- What every write of a program does, the program does. -/
theorem Writes.exec {R : σ → σ → Prop} (hrefl : ∀ db, R db db)
    (htrans : ∀ {a b c}, R a b → R b c → R a c) {a : α} {db' : σ} :
    ∀ {p : Prog σ ρ κ ε α} {db : σ} {t : Int}, p.Writes R → p.exec db t = .ok (a, db') → R db db'
  | .ret _, _, _, _, h => by cases h; exact hrefl _
  | .raise _, _, _, _, h => by cases h
  | .read _ _, _, _, hp, h => Writes.exec hrefl htrans (hp _) h
  | .clock _, _, _, hp, h => Writes.exec hrefl htrans (hp _) h
  | .lock _ k, _, _, hp, h => Writes.exec (p := k) hrefl htrans hp h
  | .tryLock _ k, _, _, hp, h => Writes.exec (p := k true) hrefl htrans (hp true) h
  | .write stmt k, db, t, hp, h => by
    simp only [Prog.exec] at h
    cases hc : stmt db with
    | error e =>
      rw [hc] at h
      cases h
    | ok c =>
      rw [hc] at h
      exact htrans (hp.1 db c hc) (Writes.exec hrefl htrans (hp.2 _) h)

theorem eval_raiseIf_ok {c : Bool} {e : ε} :
    (raiseIf c e : Prog σ ρ κ ε Unit).eval db t = .ok () ↔ c = false := by
  cases c <;> simp [raiseIf, eval]

/-- A guard at the front of a program. -/
theorem exec_guard_iff {c : Bool} {e : ε} {f : Unit → Prog σ ρ κ ε α} {r : α × σ} :
    ((raiseIf c e).bind f).exec db t = .ok r ↔ c = false ∧ (f ()).exec db t = .ok r := by
  cases c <;> simp [raiseIf]

/-! ### 1.1 Loops -/

/-- What each turn of a loop keeps, the whole loop keeps. -/
theorem exec_mapEach {f : α → Prog σ ρ κ ε β} (I : List α → List β → σ → Prop) :
    ∀ (xs done : List α) (out : List β) {out' : List β} {db db' : σ}, I done out db →
      (∀ done out x db₁ b db₂, x ∈ xs → I done out db₁ → (f x).exec db₁ t = .ok (b, db₂) →
        I (done ++ [x]) (out ++ [b]) db₂) →
      (mapEach xs f).exec db t = .ok (out', db') → I (done ++ xs) (out ++ out') db'
  | [], done, out, _, _, _, h, _, hx => by
    cases hx
    rwa [List.append_nil, List.append_nil]
  | x :: xs, done, out, out', db, db', h, hstep, hx => by
    obtain ⟨b, db₁, h₁, hrest⟩ := exec_bind_ok hx
    obtain ⟨bs, db₂, h₂, hret⟩ := exec_bind_ok hrest
    cases hret
    have := exec_mapEach I xs (done ++ [x]) (out ++ [b])
      (hstep done out x db b db₁ List.mem_cons_self h h₁)
      (fun d o y u c u' hy => hstep d o y u c u' (List.mem_cons_of_mem _ hy)) h₂
    rwa [List.append_assoc, List.append_assoc] at this

/-- What a loop that only reads keeps from turn to turn, its result has. -/
theorem eval_foldEach {f : β → α → Prog σ ρ κ ε β} (hf : ∀ b a, ReadOnly (f b a))
    (I : List α → β → Prop) : ∀ (xs done : List α) {acc acc' : β}, I done acc →
      (∀ done acc x acc', x ∈ xs → I done acc → (f acc x).eval db t = .ok acc' →
        I (done ++ [x]) acc') →
      (foldEach xs acc f).eval db t = .ok acc' → I (done ++ xs) acc'
  | [], done, _, _, h, _, hx => by
    cases hx
    rwa [List.append_nil]
  | x :: xs, done, acc, acc', h, hstep, hx => by
    obtain ⟨acc₁, h₁, h₂⟩ := (eval_bind_iff (hf acc x)).mp hx
    have := eval_foldEach hf I xs (done ++ [x]) (hstep done acc x acc₁ List.mem_cons_self h h₁)
      (fun d a y a' hy => hstep d a y a' (List.mem_cons_of_mem _ hy)) h₂
    rwa [List.append_assoc] at this

/-- A loop whose turns read what a function computes, computes the fold of it. -/
theorem eval_foldEach_eq {f : β → α → Prog σ ρ κ ε β} {g : β → α → β}
    (hf : ∀ b a, ReadOnly (f b a)) (hg : ∀ b a, (f b a).eval db t = .ok (g b a)) :
    ∀ (xs : List α) (acc : β), (foldEach xs acc f).eval db t = .ok (xs.foldl g acc)
  | [], _ => rfl
  | x :: xs, acc => (eval_bind_iff (hf acc x)).mpr ⟨_, hg acc x, eval_foldEach_eq hf hg xs _⟩

/-- A loop that only reads does not depend on the order of its turns' results: it succeeds when
each turn does. -/
theorem eval_each_ok {f : α → Prog σ ρ κ ε Unit} (hf : ∀ a, ReadOnly (f a)) :
    ∀ {xs : List α}, (each xs f).eval db t = .ok () ↔ ∀ x ∈ xs, (f x).eval db t = .ok ()
  | [] => by simp [each]
  | x :: xs => by
    rw [each, eval_bind_iff (hf x)]
    simp only [eval_each_ok hf, List.mem_cons, forall_eq_or_imp]
    exact ⟨fun ⟨_, h⟩ => h, fun h => ⟨(), h⟩⟩

/-- The results of a collecting loop that only reads, turn by turn. -/
theorem eval_mapEach_ok {f : α → Prog σ ρ κ ε β} (hf : ∀ a, ReadOnly (f a)) :
    ∀ {xs : List α} {ys : List β}, (mapEach xs f).eval db t = .ok ys ↔
      List.Forall₂ (fun x y => (f x).eval db t = .ok y) xs ys
  | [], ys => by
    simp only [mapEach, eval_ret, Except.ok.injEq, List.forall₂_nil_left_iff]
    exact eq_comm
  | x :: xs, ys => by
    rw [mapEach, eval_bind_iff (hf x), List.forall₂_cons_left_iff]
    constructor
    · rintro ⟨y, hy, hrest⟩
      obtain ⟨bs, hbs, hret⟩ := (eval_bind_iff (ReadOnly.mapEach hf xs)).mp hrest
      cases hret
      exact ⟨y, bs, hy, (eval_mapEach_ok hf).mp hbs, rfl⟩
    · rintro ⟨y, bs, hy, hbs, rfl⟩
      exact ⟨y, hy, (eval_bind_iff (ReadOnly.mapEach hf xs)).mpr
        ⟨bs, (eval_mapEach_ok hf).mpr hbs, rfl⟩⟩

/-- Each result of a collecting loop that only reads is some turn's. -/
theorem eval_mapEach_mem {f : α → Prog σ ρ κ ε β} (hf : ∀ a, ReadOnly (f a)) {xs : List α}
    {ys : List β} (h : (mapEach xs f).eval db t = .ok ys) {y : β} (hy : y ∈ ys) :
    ∃ x ∈ xs, (f x).eval db t = .ok y := by
  have hall := (eval_mapEach_ok hf).mp h
  clear h
  induction hall with
  | nil => cases hy
  | cons hx _ ih =>
    rcases List.mem_cons.mp hy with rfl | hy
    · exact ⟨_, List.mem_cons_self, hx⟩
    · obtain ⟨x, hx, hxy⟩ := ih hy
      exact ⟨x, List.mem_cons_of_mem _ hx, hxy⟩

/-! ## 2. Serial execution and weakest preconditions -/

/-- Where a transaction that has run alone stands. -/
def Serial (v : View σ ρ κ) (db : σ) (t : Int) (db' : σ) : Prop :=
  v.db = db ∧ v.clock = t ∧ v.own db = db' ∧ v.started.getD t = t

/-- Opening the transaction, where that has not happened yet. -/
theorem serial_start (R : Rely σ κ) {v : View σ ρ κ} {db db' : σ} {t : Int}
    (hv : Serial v db t db') : ∃ w, Env R v w ∧ w.started.isSome ∧ Serial w db t db' := by
  cases hs : v.started with
  | some t' => exact ⟨v, Env.refl v, by rw [hs]; rfl, hv⟩
  | none =>
    refine ⟨{ v with started := some v.clock }, ?_, rfl, hv.1, hv.2.1, hv.2.2.1, hv.2.1⟩
    exact
      ⟨rfl, rfl, rfl, .inr ⟨hs, v.clock, rfl, le_refl _, le_refl _⟩, R.refl _ _ _, le_refl _,
      fun _ _ => rfl⟩

/-- **What `wp` establishes holds of serial execution**, whatever others are allowed to do. -/
theorem exec_of_wp [DecidableEq ρ] {R : Rely σ κ} {Φ : α → View σ ρ κ → Prop} :
    ∀ {p : Prog σ ρ κ ε α} {v : View σ ρ κ} {db₀ db db' : σ} {t : Int} {a : α},
      wp R p Φ v → Serial v db₀ t db → p.exec db t = .ok (a, db') →
      ∃ v', Serial v' db₀ t db' ∧ Φ a v'
  | ret _, v, _, _, _, _, _, hwp, hv, h => by
    cases h
    exact ⟨v, hv, hwp v (Env.refl v)⟩
  | raise _, _, _, _, _, _, _, _, _, h => by cases h
  | read q k, v, db₀, db, db', t, a, hwp, hv, h => by
    have hq : q v.seen v.sqlNow = q db t := by
      rw [View.seen, View.sqlNow, hv.1, hv.2.1, hv.2.2.1, hv.2.2.2]
    have := hwp v (Env.refl v)
    rw [hq] at this
    exact exec_of_wp this hv h
  | clock k, v, _, _, _, _, _, hwp, hv, h => by
    have := hwp v (Env.refl v)
    rw [hv.2.1] at this
    exact exec_of_wp this hv h
  | lock l k, v, db₀, db, db', t, a, hwp, hv, h => by
    obtain ⟨w, henv, hs, hw⟩ := serial_start R hv
    exact exec_of_wp (hwp w henv hs) (v := w.addLock l) hw h
  | tryLock l k, v, _, _, _, _, _, hwp, hv, h =>
    exec_of_wp (v := v.addLock l) (hwp v (Env.refl v)).1 hv h
  | write s k, v, db₀, db, db', t, a, hwp, hv, h => by
    obtain ⟨w, henv, hs, hw⟩ := serial_start R hv
    cases hc : s db with
    | error e => simp only [exec, hc] at h; cases h
    | ok c =>
      simp only [exec, hc] at h
      have hseen : s w.seen = .ok c := by rw [View.seen, hw.1, hw.2.2.1, hc]
      have hk := hwp w henv hs c hseen w (Env.refl w) c hseen
      rw [Change.still_self] at hk
      refine exec_of_wp (v := w.change c) hk ?_ h
      exact ⟨hw.1, hw.2.1, congrArg c.apply hw.2.2.1, hw.2.2.2⟩

/-- What `wp` establishes of a transaction that runs alone, read off its serial execution. -/
theorem exec_of_wp_alone [DecidableEq ρ] {p : Prog σ ρ κ ε α} {Φ : View σ ρ κ → α → View σ ρ κ → Prop}
    (hwp : ∀ v, wp Rely.alone p (Φ v) v) {db db' : σ} {t : Int} {a : α}
    (h : p.exec db t = .ok (a, db')) :
    ∃ v w, Serial v db t db ∧ Serial w db t db' ∧ Φ v a w := by
  have hv : Serial (View.fresh db t : View σ ρ κ) db t db := ⟨rfl, rfl, rfl, rfl⟩
  obtain ⟨w, hw, hΦ⟩ := exec_of_wp (hwp _) hv h
  exact ⟨_, w, hv, hw, hΦ⟩

/-- What a transaction alone has read is true of its database. -/
theorem read_alone {v w : View σ ρ κ} {P : σ → Int → Prop} {db db' : σ} {t : Int}
    (h : Read Rely.alone v P w) (hv : Serial v db t db) (hw : Serial w db t db') : P db t := by
  obtain ⟨u, ⟨henv, hP⟩, hlater⟩ := h
  have hclock : u.clock = t :=
    le_antisymm (le_trans hlater.clock (le_of_eq hw.2.1)) (le_trans (le_of_eq hv.2.1.symm) henv.clock)
  have hseen : u.seen = db := by
    rw [View.seen, henv.own, henv.rel.1, hv.1]
    exact hv.2.2.1
  have hnow : u.sqlNow = t := by
    have hvs := hv.2.2.2
    unfold View.sqlNow
    rcases henv.started with hs | ⟨-, s, hs, hlo, hhi⟩
    · rw [hs, hclock]
      exact hvs
    · rw [hs]
      exact le_antisymm (hclock ▸ hhi) (hv.2.1 ▸ hlo)
  rwa [hseen, hnow] at hP

end Prog

/-! ## 3. Serial execution is a run -/

section Runs

variable {L : Type} [DecidableEq ρ] [DecidableEq κ] {body : L → Prog σ ρ κ ε Unit}
  {ok : Sys σ ρ κ ε L → Action L → Prop} {s₁ s₂ s₃ : Sys σ ρ κ ε L}

theorem Run.trans (h₁ : Run body ok s₁ s₂) : ∀ {s₃}, Run body ok s₂ s₃ → Run body ok s₁ s₃
  | _, .refl => h₁
  | _, .tail a hr ha hs => (Run.trans h₁ hr).tail a ha hs

/-- A transaction alone in the system runs to where it can commit. -/
theorem run_alone (hok : ∀ s a, (∀ l, a ≠ .begin l) → ok s a) :
    ∀ (p : Prog σ ρ κ ε Unit) (tx : Tx σ ρ κ ε L) (db db' : σ) (t : Int) (fin : List (Finished L)),
      tx.prog = p → tx.issued = none → tx.started = some t →
      p.exec (tx.own db) t = .ok ((), db') →
      ∃ tx' : Tx σ ρ κ ε L, tx'.prog = .ret () ∧ tx'.own db = db' ∧ tx'.label = tx.label ∧
        tx'.began = tx.began ∧ Run body ok ⟨db, t, [tx], fin⟩ ⟨db, t, [tx'], fin⟩ := by
  -- every statement is possible, since nobody else holds anything
  have turn : ∀ {tx tx' : Tx σ ρ κ ε L} {db db' t fin}, tx.statement db t [] = some tx' →
      (∃ tx'' : Tx σ ρ κ ε L, tx''.prog = .ret () ∧ tx''.own db = db' ∧ tx''.label = tx'.label ∧
        tx''.began = tx'.began ∧ Run body ok ⟨db, t, [tx'], fin⟩ ⟨db, t, [tx''], fin⟩) →
      ∃ tx'' : Tx σ ρ κ ε L, tx''.prog = .ret () ∧ tx''.own db = db' ∧ tx''.label = tx.label ∧
        tx''.began = tx.began ∧ Run body ok ⟨db, t, [tx], fin⟩ ⟨db, t, [tx''], fin⟩ := by
    rintro tx tx' db db' t fin hst ⟨tx'', hp, hown, hlabel, hbegan, hrun⟩
    obtain ⟨hl, hb⟩ := Tx.statement_label hst
    have hturn : Run body ok ⟨db, t, [tx], fin⟩ ⟨db, t, [tx'], fin⟩ :=
      Run.refl.tail (.statement 0) (hok _ _ fun _ => nofun) (by simp [step, focus, hst])
    exact ⟨tx'', hp, hown, hlabel.trans hl, hbegan.trans hb, hturn.trans hrun⟩
  intro p
  induction p with
  | ret u =>
    intro tx db db' t fin hp _ _ h
    cases h
    exact ⟨tx, hp, rfl, rfl, rfl, .refl⟩
  | raise e => intro _ _ _ _ _ _ _ _ h; cases h
  | read q k ih =>
    intro tx db db' t fin hp hn hs h
    have hview : (tx.view db t).sqlNow = t := by simp [View.sqlNow, Tx.view, hs]
    have hst : tx.statement db t [] = some { tx with prog := k (q (tx.own db) t) } := by
      simp only [Tx.statement, hp, hview]; rfl
    exact turn hst (ih _ _ db db' t fin rfl hn hs h)
  | clock k ih =>
    intro tx db db' t fin hp hn hs h
    have hst : tx.statement db t [] = some { tx with prog := k t } := by
      simp only [Tx.statement, hp]
    exact turn hst (ih _ _ db db' t fin rfl hn hs h)
  | lock l k ih =>
    intro tx db db' t fin hp hn hs h
    have hst : tx.statement db t [] = some { tx with prog := k, locks := l :: tx.locks } := by
      simp [Tx.statement, hp, hs, keyFree]
    exact turn hst (ih _ db db' t fin rfl hn hs h)
  | tryLock l k ih =>
    intro tx db db' t fin hp hn hs h
    have hst : tx.statement db t [] = some { tx with prog := k true, locks := l :: tx.locks } := by
      simp [Tx.statement, hp, keyFree]
    exact turn hst (ih _ _ db db' t fin rfl hn hs h)
  | write w k ih =>
    intro tx db db' t fin hp hn hs h
    cases hw : w (tx.own db) with
    | error e => simp only [Prog.exec, hw] at h; cases h
    | ok c =>
      simp only [Prog.exec, hw] at h
      have hst : tx.statement db t [] = some { tx with
          prog := k c.rows.length, issued := none, own := c.apply ∘ tx.own
          rows := c.rows ++ tx.rows } := by
        simp [Tx.statement, hp, hn, hs, Tx.view, View.seen, hw, rowsFree]
      exact turn hst (ih _ _ db db' t fin rfl rfl hs h)

/-- **Serial execution is one of the runs**: with nothing else open, the call is begun, run and
committed at one instant. -/
theorem exec_run (hok : ∀ s a, (∀ l, a ≠ .begin l) → ok s a) {l : L} {db db' : σ} {t : Int}
    (fin : List (Finished L)) (hl : ok ⟨db, t, [], fin⟩ (.begin l))
    (h : (body l).exec db t = .ok ((), db')) :
    ∃ s : Sys σ ρ κ ε L, Run body ok ⟨db, t, [], fin⟩ s ∧ s.db = db ∧ s.finished = fin ∧
      step body s (.commit 0) = some ⟨db', t, [], fin ++ [⟨l, t, t⟩]⟩ := by
  let tx₀ : Tx σ ρ κ ε L := { Session.fresh with label := l, began := t, prog := body l }
  have hbegin : Run body ok ⟨db, t, [], fin⟩ ⟨db, t, [tx₀], fin⟩ := Run.refl.tail (.begin l) hl rfl
  have hstart : Run body ok ⟨db, t, [], fin⟩ ⟨db, t, [{ tx₀ with started := some t }], fin⟩ :=
    hbegin.tail (.start 0) (hok _ _ fun _ => nofun) rfl
  obtain ⟨tx, hp, hown, hlabel, hbegan, hrun⟩ := run_alone hok (body l)
    { tx₀ with started := some t } db db' t fin rfl rfl rfl h
  have hl' : tx.label = l := hlabel
  have hb' : tx.began = t := hbegan
  refine ⟨_, hstart.trans hrun, rfl, rfl, ?_⟩
  simp [step, focus, hp, hown, hl', hb']

end Runs

end NewlifeCore.Txn
