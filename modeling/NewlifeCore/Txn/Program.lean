import Mathlib.Data.List.Basic
import Mathlib.Data.Int.Order.Basic

/-!
# Programs of database statements

A service method is a program: a tree of SQL statements, clock readings and lock requests whose
continuations are functions of what the statement returned.  Nothing here fixes a database; `σ`
is the type of database states, `ρ` names rows (what a write locks), `κ` names advisory locks
and `ε` is the type of exceptions.  A point of the clock is an integer, in microseconds.

A program says nothing about who runs beside it.  `Txn.Exec` runs one program alone,
`Txn.Interleaving` runs any number of them statement by statement.
-/

namespace NewlifeCore.Txn

/-- How the rows of a database state are read off by name. -/
class RowStore (σ : Type) (ρ : outParam Type) where
  /-- The content of a row, absence included. -/
  Row : Type
  row : σ → ρ → Row

/-- **What one INSERT, UPDATE or DELETE does**: the rows it locks and the change it makes to
them.  `frame` is the row lock's half of the bargain: no other row is touched. -/
structure Change (σ ρ : Type) [RowStore σ ρ] where
  rows : List ρ
  apply : σ → σ
  frame : ∀ db x, x ∉ rows → RowStore.row (apply db) x = RowStore.row db x

/-- The rows an issued change still affects, when the same statement would now make the change
`c'`. -/
def Change.still {σ ρ : Type} [RowStore σ ρ] [DecidableEq ρ] (c c' : Change σ ρ) : List ρ :=
  c.rows.filter fun x => c'.rows.contains x

@[simp] theorem Change.still_self {σ ρ : Type} [RowStore σ ρ] [DecidableEq ρ] (c : Change σ ρ) :
    c.still c = c.rows := List.filter_eq_self.mpr fun _ h => List.contains_iff_mem.mpr h

/-- A program over databases `σ`, returning `α` or raising `ε`. -/
inductive Prog (σ ρ κ ε : Type) [RowStore σ ρ] (α : Type) : Type 1 where
  | ret (a : α)
  | raise (e : ε)
  /-- A SELECT: a function of the rows it sees and of SQL `now()`. -/
  | read {β : Type} (q : σ → Int → β) (k : β → Prog σ ρ κ ε α)
  /-- A reading of the application's own clock. -/
  | clock (k : Int → Prog σ ρ κ ε α)
  /-- An advisory lock held to the end of the transaction; waits for it. -/
  | lock (l : κ) (k : Prog σ ρ κ ε α)
  /-- The same, refused at once when another transaction holds it. -/
  | tryLock (l : κ) (k : Bool → Prog σ ρ κ ε α)
  /-- A write: computed from the rows it sees, refused when a constraint fails; it returns how
  many rows it affected. -/
  | write (stmt : σ → Except ε (Change σ ρ)) (k : Nat → Prog σ ρ κ ε α)

namespace Prog

variable {σ ρ κ ε : Type} [RowStore σ ρ] {α β γ : Type}

/-! ## 1. The monad -/

def bind : Prog σ ρ κ ε α → (α → Prog σ ρ κ ε β) → Prog σ ρ κ ε β
  | ret a, f => f a
  | raise e, _ => raise e
  | read q k, f => read q fun b => (k b).bind f
  | clock k, f => clock fun t => (k t).bind f
  | lock l k, f => lock l (k.bind f)
  | tryLock l k, f => tryLock l fun b => (k b).bind f
  | write s k, f => write s fun n => (k n).bind f

instance : Monad (Prog σ ρ κ ε) where
  pure := ret
  bind := bind

@[simp] theorem pure_eq (a : α) : (pure a : Prog σ ρ κ ε α) = ret a := rfl
@[simp] theorem bind_eq (p : Prog σ ρ κ ε α) (f : α → Prog σ ρ κ ε β) : p >>= f = p.bind f := rfl

@[simp] theorem ret_bind (a : α) (f : α → Prog σ ρ κ ε β) : (ret a).bind f = f a := rfl
@[simp] theorem raise_bind (e : ε) (f : α → Prog σ ρ κ ε β) :
    (raise e : Prog σ ρ κ ε α).bind f = raise e := rfl

theorem bind_ret : ∀ p : Prog σ ρ κ ε α, p.bind ret = p
  | ret _ => rfl
  | raise _ => rfl
  | read q k => congrArg (read q) (funext fun b => bind_ret (k b))
  | clock k => congrArg clock (funext fun t => bind_ret (k t))
  | lock l k => congrArg (lock l) (bind_ret k)
  | tryLock l k => congrArg (tryLock l) (funext fun b => bind_ret (k b))
  | write s k => congrArg (write s) (funext fun n => bind_ret (k n))

theorem bind_bind (f : α → Prog σ ρ κ ε β) (g : β → Prog σ ρ κ ε γ) :
    ∀ p : Prog σ ρ κ ε α, (p.bind f).bind g = p.bind fun a => (f a).bind g
  | ret _ => rfl
  | raise _ => rfl
  | read q k => congrArg (read q) (funext fun b => bind_bind f g (k b))
  | clock k => congrArg clock (funext fun t => bind_bind f g (k t))
  | lock l k => congrArg (lock l) (bind_bind f g k)
  | tryLock l k => congrArg (tryLock l) (funext fun b => bind_bind f g (k b))
  | write s k => congrArg (write s) (funext fun n => bind_bind f g (k n))

instance : LawfulMonad (Prog σ ρ κ ε) :=
  LawfulMonad.mk' _ (fun p => bind_ret p) (fun _ _ => rfl) (fun p f g => bind_bind f g p)

/-! ## 2. Statements as programs -/

def select (q : σ → Int → β) : Prog σ ρ κ ε β := read q ret

def now : Prog σ ρ κ ε Int := clock ret

def acquire (l : κ) : Prog σ ρ κ ε Unit := lock l (ret ())

def tryAcquire (l : κ) : Prog σ ρ κ ε Bool := tryLock l ret

def execute (stmt : σ → Except ε (Change σ ρ)) : Prog σ ρ κ ε Unit := write stmt fun _ => ret ()

def executeCount (stmt : σ → Except ε (Change σ ρ)) : Prog σ ρ κ ε Nat := write stmt ret

/-- `if c: raise e`. -/
def raiseIf (c : Bool) (e : ε) : Prog σ ρ κ ε Unit := if c then raise e else ret ()

/-- The value of a computation that already ran, or its exception. -/
def ofExcept : Except ε α → Prog σ ρ κ ε α
  | .ok a => ret a
  | .error e => raise e

/-- `try: p except e: h(e)`, where `h` may raise again. -/
def tryCatch : Prog σ ρ κ ε α → (ε → Prog σ ρ κ ε α) → Prog σ ρ κ ε α
  | ret a, _ => ret a
  | raise e, h => h e
  | read q k, h => read q fun b => (k b).tryCatch h
  | clock k, h => clock fun t => (k t).tryCatch h
  | lock l k, h => lock l (k.tryCatch h)
  | tryLock l k, h => tryLock l fun b => (k b).tryCatch h
  | write s k, h => write s fun n => (k n).tryCatch h

/-- A loop whose body returns nothing. -/
def each (xs : List α) (f : α → Prog σ ρ κ ε Unit) : Prog σ ρ κ ε Unit :=
  match xs with
  | [] => ret ()
  | x :: xs => (f x).bind fun _ => each xs f

/-- A loop that collects what its body returns. -/
def mapEach (xs : List α) (f : α → Prog σ ρ κ ε β) : Prog σ ρ κ ε (List β) :=
  match xs with
  | [] => ret []
  | x :: xs => (f x).bind fun b => (mapEach xs f).bind fun bs => ret (b :: bs)

/-- A loop with an accumulator. -/
def foldEach (xs : List α) (acc : β) (f : β → α → Prog σ ρ κ ε β) : Prog σ ρ κ ε β :=
  match xs with
  | [] => ret acc
  | x :: xs => (f acc x).bind fun acc => foldEach xs acc f

/-! ## 3. Programs that only read -/

/-- The program takes no lock and writes nothing on any of its paths. -/
def ReadOnly : Prog σ ρ κ ε α → Prop
  | ret _ => True
  | raise _ => True
  | read _ k => ∀ b, ReadOnly (k b)
  | clock k => ∀ t, ReadOnly (k t)
  | lock _ _ => False
  | tryLock _ _ => False
  | write _ _ => False

namespace ReadOnly

@[simp] theorem ret (a : α) : ReadOnly (ret a : Prog σ ρ κ ε α) := trivial
@[simp] theorem raise (e : ε) : ReadOnly (raise e : Prog σ ρ κ ε α) := trivial
@[simp] theorem select (q : σ → Int → β) : ReadOnly (select q : Prog σ ρ κ ε β) :=
  fun _ => trivial
@[simp] theorem now : ReadOnly (now : Prog σ ρ κ ε Int) := fun _ => trivial

@[simp] theorem raiseIf (c : Bool) (e : ε) : ReadOnly (raiseIf c e : Prog σ ρ κ ε Unit) := by
  cases c <;> trivial

@[simp] theorem ofExcept (x : Except ε α) : ReadOnly (ofExcept x : Prog σ ρ κ ε α) := by
  cases x <;> trivial

theorem bind {f : α → Prog σ ρ κ ε β} (hf : ∀ a, ReadOnly (f a)) :
    ∀ {p : Prog σ ρ κ ε α}, ReadOnly p → ReadOnly (p.bind f)
  | .ret a, _ => hf a
  | .raise _, _ => trivial
  | .read _ _, hp => fun b => bind hf (hp b)
  | .clock _, hp => fun t => bind hf (hp t)

theorem tryCatch {h : ε → Prog σ ρ κ ε α} (hh : ∀ e, ReadOnly (h e)) :
    ∀ {p : Prog σ ρ κ ε α}, ReadOnly p → ReadOnly (p.tryCatch h)
  | .ret _, _ => trivial
  | .raise e, _ => hh e
  | .read _ _, hp => fun b => tryCatch hh (hp b)
  | .clock _, hp => fun t => tryCatch hh (hp t)

theorem each {f : α → Prog σ ρ κ ε Unit} (hf : ∀ a, ReadOnly (f a)) :
    ∀ xs, ReadOnly (each xs f)
  | [] => trivial
  | x :: xs => bind (fun _ => each hf xs) (hf x)

theorem mapEach {f : α → Prog σ ρ κ ε β} (hf : ∀ a, ReadOnly (f a)) :
    ∀ xs, ReadOnly (mapEach xs f)
  | [] => trivial
  | x :: xs => bind (fun _ => bind (fun _ => ReadOnly.ret _) (mapEach hf xs)) (hf x)

theorem foldEach {f : β → α → Prog σ ρ κ ε β} (hf : ∀ acc a, ReadOnly (f acc a)) :
    ∀ xs acc, ReadOnly (foldEach xs acc f)
  | [], _ => trivial
  | x :: xs, acc => bind (fun acc => foldEach hf xs acc) (hf acc x)

end ReadOnly

/-! ## 4. What a program can return -/

/-- `Ψ` holds of whatever the program returns, whatever its statements see. -/
def Returns (Ψ : α → Prop) : Prog σ ρ κ ε α → Prop
  | ret a => Ψ a
  | raise _ => True
  | read _ k => ∀ b, Returns Ψ (k b)
  | clock k => ∀ t, Returns Ψ (k t)
  | lock _ k => Returns Ψ k
  | tryLock _ k => ∀ b, Returns Ψ (k b)
  | write _ k => ∀ n, Returns Ψ (k n)

namespace Returns

variable {Ψ : α → Prop}

theorem bind {Ψ' : β → Prop} {f : α → Prog σ ρ κ ε β} (hf : ∀ a, Ψ a → Returns Ψ' (f a)) :
    ∀ {p : Prog σ ρ κ ε α}, Returns Ψ p → Returns Ψ' (p.bind f)
  | .ret a, hp => hf a hp
  | .raise _, _ => trivial
  | .read _ _, hp => fun b => bind hf (hp b)
  | .clock _, hp => fun t => bind hf (hp t)
  | .lock _ k, hp => bind (p := k) hf hp
  | .tryLock _ _, hp => fun b => bind hf (hp b)
  | .write _ _, hp => fun n => bind hf (hp n)

theorem mono {Ψ' : α → Prop} (h : ∀ a, Ψ a → Ψ' a) :
    ∀ {p : Prog σ ρ κ ε α}, Returns Ψ p → Returns Ψ' p
  | .ret _, hp => h _ hp
  | .raise _, _ => trivial
  | .read _ _, hp => fun b => mono h (hp b)
  | .clock _, hp => fun t => mono h (hp t)
  | .lock _ k, hp => mono (p := k) h hp
  | .tryLock _ _, hp => fun b => mono h (hp b)
  | .write _ _, hp => fun n => mono h (hp n)

/-- Every program returns something. -/
theorem any : ∀ p : Prog σ ρ κ ε α, Returns (fun _ => True) p
  | .ret _ => trivial
  | .raise _ => trivial
  | .read _ k => fun b => any (k b)
  | .clock k => fun t => any (k t)
  | .lock _ k => any k
  | .tryLock _ k => fun b => any (k b)
  | .write _ k => fun n => any (k n)

/-- What runs after a program, whatever that program returned. -/
theorem seq {Ψ' : β → Prop} {f : α → Prog σ ρ κ ε β} (p : Prog σ ρ κ ε α)
    (hf : ∀ a, Returns Ψ' (f a)) : Returns Ψ' (p.bind f) :=
  bind (fun a _ => hf a) (any p)

theorem raiseIf (c : Bool) (e : ε) :
    Returns (fun _ => c = false) (raiseIf c e : Prog σ ρ κ ε Unit) := by
  cases c with
  | false => exact rfl
  | true => trivial

theorem ofExcept (x : Except ε α) :
    Returns (fun a => x = .ok a) (ofExcept x : Prog σ ρ κ ε α) := by
  cases x with
  | ok a => exact rfl
  | error e => trivial

theorem foldEach {f : β → α → Prog σ ρ κ ε β} (I : List α → β → Prop)
    (hstep : ∀ done acc x, I done acc → Returns (I (done ++ [x])) (f acc x)) :
    ∀ (xs done : List α) (acc : β), I done acc → Returns (I (done ++ xs)) (foldEach xs acc f)
  | [], done, acc, h => by simpa [Prog.foldEach, Returns] using h
  | x :: xs, done, acc, h => by
    refine bind (fun acc' h' => ?_) (hstep done acc x h)
    have := foldEach I hstep xs (done ++ [x]) acc' h'
    simpa using this

/-- A loop that collects returns one result a turn. -/
theorem mapEach_length {f : α → Prog σ ρ κ ε β} :
    ∀ xs : List α, Returns (fun bs : List β => bs.length = xs.length) (mapEach xs f)
  | [] => rfl
  | x :: xs => by
    refine seq (f x) fun b => bind (fun bs h => ?_) (mapEach_length xs)
    show (b :: bs).length = (x :: xs).length
    rw [List.length_cons, List.length_cons, h]

end Returns

/-! ## 5. What a program can write -/

/-- Every write of the program changes what it sees as `R` allows, whatever its other statements
see. -/
def Writes (R : σ → σ → Prop) : Prog σ ρ κ ε α → Prop
  | ret _ => True
  | raise _ => True
  | read _ k => ∀ b, Writes R (k b)
  | clock k => ∀ t, Writes R (k t)
  | lock _ k => Writes R k
  | tryLock _ k => ∀ b, Writes R (k b)
  | write stmt k => (∀ db c, stmt db = .ok c → R db (c.apply db)) ∧ ∀ n, Writes R (k n)

namespace Writes

variable {R : σ → σ → Prop}

theorem bind {f : α → Prog σ ρ κ ε β} (hf : ∀ a, Writes R (f a)) :
    ∀ {p : Prog σ ρ κ ε α}, Writes R p → Writes R (p.bind f)
  | .ret a, _ => hf a
  | .raise _, _ => trivial
  | .read _ _, hp => fun b => bind hf (hp b)
  | .clock _, hp => fun t => bind hf (hp t)
  | .lock _ k, hp => bind (p := k) hf hp
  | .tryLock _ _, hp => fun b => bind hf (hp b)
  | .write _ _, hp => ⟨hp.1, fun n => bind hf (hp.2 n)⟩

theorem readOnly : ∀ {p : Prog σ ρ κ ε α}, ReadOnly p → Writes R p
  | .ret _, _ => trivial
  | .raise _, _ => trivial
  | .read _ _, hp => fun b => readOnly (hp b)
  | .clock _, hp => fun t => readOnly (hp t)

theorem execute {s : σ → Except ε (Change σ ρ)} (h : ∀ db c, s db = .ok c → R db (c.apply db)) :
    Writes R (Prog.execute (κ := κ) s) := ⟨h, fun _ => trivial⟩

theorem each {f : α → Prog σ ρ κ ε Unit} (hf : ∀ a, Writes R (f a)) : ∀ xs, Writes R (each xs f)
  | [] => trivial
  | x :: xs => bind (fun _ => each hf xs) (hf x)

end Writes

/-! ## 6. Properties that compose -/

/-- **A property that composes**: whatever only reads has it, and what runs one program after the
other has it when both have. -/
structure Compositional (P : ∀ α : Type, Prog σ ρ κ ε α → Prop) : Prop where
  readOnly : ∀ {α : Type} {p : Prog σ ρ κ ε α}, ReadOnly p → P α p
  bind : ∀ {α β : Type} {f : α → Prog σ ρ κ ε β}, (∀ a, P β (f a)) →
    ∀ {p : Prog σ ρ κ ε α}, P α p → P β (p.bind f)

namespace Compositional

variable {P : ∀ α : Type, Prog σ ρ κ ε α → Prop} (hP : Compositional P)
include hP

theorem ret (a : α) : P α (ret a) := hP.readOnly (ReadOnly.ret a)

/-- What runs after the checks. -/
theorem checked {p : Prog σ ρ κ ε α} {f : α → Prog σ ρ κ ε β} (hp : ReadOnly p)
    (hf : ∀ a, P β (f a)) : P β (p.bind f) := hP.bind hf (hP.readOnly hp)

theorem each {f : α → Prog σ ρ κ ε Unit} (hf : ∀ a, P Unit (f a)) : ∀ xs, P Unit (each xs f)
  | [] => hP.ret ()
  | x :: xs => hP.bind (fun _ => each hf xs) (hf x)

theorem mapEach {f : α → Prog σ ρ κ ε β} (hf : ∀ a, P β (f a)) : ∀ xs, P (List β) (mapEach xs f)
  | [] => hP.ret []
  | x :: xs => hP.bind (fun _ => hP.bind (fun _ => hP.ret _) (mapEach hf xs)) (hf x)

end Compositional

end Prog

end NewlifeCore.Txn
