import NewlifeCore.Txn.Exec

/-!
# Databases a program cannot tell apart

Two databases are alike for a program when it returns, or raises, the same on both.  The order in
which an unsorted query returns its rows is such a difference between databases; whether it shows
is settled statement by statement.
-/

namespace NewlifeCore.Txn.Prog

variable {σ ρ κ ε : Type} [RowStore σ ρ] {α β : Type} {s s' : σ} {t : Int}

/-- **The program returns the same on both databases.** -/
def Alike (s s' : σ) (t : Int) (p : Prog σ ρ κ ε α) : Prop := p.eval s t = p.eval s' t

theorem eval_bind {f : α → Prog σ ρ κ ε β} {p : Prog σ ρ κ ε α} (hp : ReadOnly p) :
    (p.bind f).eval s t =
      match p.eval s t with
      | .ok a => (f a).eval s t
      | .error e => .error e := by
  rw [eval, exec_bind, exec_eq_eval hp]
  cases p.eval s t with
  | error e => rfl
  | ok a => rfl

/-- Two sequences return the same when their first programs do and what follows does. -/
theorem eval_bind_congr {f f' : α → Prog σ ρ κ ε β} {p p' : Prog σ ρ κ ε α} (hp : ReadOnly p)
    (hp' : ReadOnly p') (h : p.eval s t = p'.eval s' t)
    (hf : ∀ a, p.eval s t = .ok a → (f a).eval s t = (f' a).eval s' t) :
    (p.bind f).eval s t = (p'.bind f').eval s' t := by
  rw [eval_bind hp, eval_bind hp', ← h]
  cases ha : p.eval s t with
  | error e => rfl
  | ok a => exact hf a ha

/-- A handler runs on what was there before the program. -/
theorem eval_tryCatch {h : ε → Prog σ ρ κ ε α} : ∀ {p : Prog σ ρ κ ε α}, ReadOnly p →
    (p.tryCatch h).eval s t =
      match p.eval s t with
      | .ok a => .ok a
      | .error e => (h e).eval s t
  | .ret _, _ => rfl
  | .raise _, _ => rfl
  | .read q k, hp => eval_tryCatch (p := k (q s t)) (hp (q s t))
  | .clock k, hp => eval_tryCatch (p := k t) (hp t)
  | .lock _ _, hp => hp.elim
  | .tryLock _ _, hp => hp.elim
  | .write _ _, hp => hp.elim

namespace Alike

@[simp] theorem ret (a : α) : Alike s s' t (ret a : Prog σ ρ κ ε α) := rfl
@[simp] theorem raise (e : ε) : Alike s s' t (raise e : Prog σ ρ κ ε α) := rfl

theorem select {q : σ → Int → β} (h : q s t = q s' t) :
    Alike s s' t (select q : Prog σ ρ κ ε β) := congrArg Except.ok h

@[simp] theorem now : Alike s s' t (now : Prog σ ρ κ ε Int) := rfl

@[simp] theorem raiseIf (c : Bool) (e : ε) :
    Alike s s' t (raiseIf c e : Prog σ ρ κ ε Unit) := by
  rw [Alike, eval_raiseIf, eval_raiseIf]

@[simp] theorem ofExcept (x : Except ε α) : Alike s s' t (ofExcept x : Prog σ ρ κ ε α) := by
  rw [Alike, eval_ofExcept, eval_ofExcept]

/-- What follows has to be alike only for what the first program returns. -/
theorem bind {f : α → Prog σ ρ κ ε β} {p : Prog σ ρ κ ε α} (hp : ReadOnly p)
    (h : Alike s s' t p) (hf : ∀ a, p.eval s t = .ok a → Alike s s' t (f a)) :
    Alike s s' t (p.bind f) :=
  eval_bind_congr hp hp h hf

/-- A computed value is the same on both. -/
theorem checked {f : α → Prog σ ρ κ ε β} {x : Except ε α} (hf : ∀ a, Alike s s' t (f a)) :
    Alike s s' t ((Prog.ofExcept x).bind f) :=
  bind (ReadOnly.ofExcept x) (ofExcept x) fun a _ => hf a

/-- What is read may differ, if what follows does with it the same. -/
theorem bind_ok {f : α → Prog σ ρ κ ε β} {p : Prog σ ρ κ ε α} (hp : ReadOnly p) {a a' : α}
    (h : p.eval s t = .ok a) (h' : p.eval s' t = .ok a') (hf : (f a).eval s t = (f a').eval s' t) :
    Alike s s' t (p.bind f) := by
  rw [Alike, eval_bind hp, eval_bind hp, h, h']
  exact hf

theorem tryCatch {h : ε → Prog σ ρ κ ε α} {p : Prog σ ρ κ ε α} (hp : ReadOnly p)
    (hprog : Alike s s' t p) (hhandler : ∀ e, Alike s s' t (h e)) :
    Alike s s' t (p.tryCatch h) := by
  rw [Alike, eval_tryCatch hp, eval_tryCatch hp, ← hprog]
  cases p.eval s t with
  | error e => exact hhandler e
  | ok a => rfl

theorem each {f : α → Prog σ ρ κ ε Unit} (hf : ∀ a, ReadOnly (f a)) :
    ∀ {xs : List α}, (∀ x ∈ xs, Alike s s' t (f x)) → Alike s s' t (each xs f)
  | [], _ => rfl
  | x :: _, h => bind (hf x) (h x List.mem_cons_self) fun _ _ =>
      each hf fun y hy => h y (List.mem_cons_of_mem x hy)

theorem mapEach {f : α → Prog σ ρ κ ε β} (hf : ∀ a, ReadOnly (f a)) :
    ∀ {xs : List α}, (∀ x ∈ xs, Alike s s' t (f x)) → Alike s s' t (mapEach xs f)
  | [], _ => rfl
  | x :: xs, h => by
    refine bind (hf x) (h x List.mem_cons_self) fun b _ => ?_
    have htail := mapEach hf fun y hy => h y (List.mem_cons_of_mem x hy)
    exact bind (ReadOnly.mapEach hf xs) htail fun _ _ => ret _

theorem foldEach {f : β → α → Prog σ ρ κ ε β} (hf : ∀ b a, ReadOnly (f b a))
    (h : ∀ b a, Alike s s' t (f b a)) : ∀ (xs : List α) (acc : β), Alike s s' t (foldEach xs acc f)
  | [], acc => ret acc
  | x :: xs, acc => bind (hf acc x) (h acc x) fun acc' _ => foldEach hf h xs acc'

end Alike

end NewlifeCore.Txn.Prog
