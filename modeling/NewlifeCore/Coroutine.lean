import Mathlib.Logic.Basic

/-!
# Coroutines that share an object and its lock

A coroutine reads and sets the fields of an object that others share, calls what is outside, whose
answer is anybody's guess, and takes and gives back the object's lock.  `Spec` is a program logic
for the lock alone: what holds of a coroutine's result and of whether it has the lock, whatever it
reads and is answered.
-/

namespace NewlifeCore

/-- A coroutine over fields `F`, with calls `C` answered by `A`, returning `α` or raising `ε`. -/
inductive Co (F C A ε α : Type) : Type
  | ret (a : α)
  | throw (e : ε)
  | look (k : F → Co F C A ε α)
  | set (f : F → F) (k : Co F C A ε α)
  | call (c : C) (k : A → Co F C A ε α)
  /-- The lock is waited for: it is taken, or the wait is cancelled. -/
  | acquire (k : Bool → Co F C A ε α)
  /-- The lock is given back, whoever has it, unless nobody has. -/
  | release (k : Bool → Co F C A ε α)

namespace Co

variable {F C A ε α β : Type}

/-! ## 1. Programs -/

/-- `p`, and then what its result leads to, be it a value or an exception. -/
def attempt (f : Except ε α → Co F C A ε β) : Co F C A ε α → Co F C A ε β
  | ret a => f (.ok a)
  | throw e => f (.error e)
  | look k => look fun x => attempt f (k x)
  | set g k => set g (attempt f k)
  | call c k => call c fun r => attempt f (k r)
  | acquire k => acquire fun b => attempt f (k b)
  | release k => release fun b => attempt f (k b)

/-- A result once more. -/
def done : Except ε α → Co F C A ε α
  | .ok a => ret a
  | .error e => throw e

def bind (p : Co F C A ε α) (f : α → Co F C A ε β) : Co F C A ε β :=
  p.attempt fun
    | .ok a => f a
    | .error e => throw e

instance : Monad (Co F C A ε) where
  pure := ret
  bind := bind

@[simp] theorem pure_eq (a : α) : (pure a : Co F C A ε α) = ret a := rfl

@[simp] theorem bind_eq (p : Co F C A ε α) (f : α → Co F C A ε β) : p >>= f = p.bind f := rfl

/-- `try: p except e: h(e)`. -/
def tryExcept (p : Co F C A ε α) (h : ε → Co F C A ε α) : Co F C A ε α :=
  p.attempt fun
    | .ok a => ret a
    | .error e => h e

/-- `try: p finally: q`. -/
def tryFinally (p : Co F C A ε α) (q : Co F C A ε Unit) : Co F C A ε α :=
  p.attempt fun r => q.bind fun _ => done r

def get : Co F C A ε F := look ret

def update (f : F → F) : Co F C A ε Unit := set f (ret ())

/-- The coroutine has returned or raised. -/
def ended : Co F C A ε α → Bool
  | ret _ => true
  | throw _ => true
  | _ => false

/-- The coroutine is about to give the lock back. -/
def releasing : Co F C A ε α → Bool
  | release _ => true
  | _ => false

/-! ## 2. The lock -/

/-- What a coroutine can meet: the answers to its calls, and a cancelled wait for the lock. -/
structure Limits (C A : Type) where
  answers : C → A → Prop
  cancels : Prop

/-- **A program's promise about the lock**, to keep which it neither waits for a lock that it has
nor gives back one that it has not. -/
def Spec (R : Limits C A) (Q : Except ε α → Bool → Prop) : Co F C A ε α → Bool → Prop
  | ret a, held => Q (.ok a) held
  | throw e, held => Q (.error e) held
  | look k, held => ∀ x, Spec R Q (k x) held
  | set _ k, held => Spec R Q k held
  | call c k, held => ∀ r, R.answers c r → Spec R Q (k r) held
  | acquire k, held =>
    held = false ∧ Spec R Q (k true) true ∧ (R.cancels → Spec R Q (k false) false)
  | release k, held => held = true ∧ Spec R Q (k true) false

/-- A program that leaves the lock alone. -/
def LockFree : Co F C A ε α → Prop
  | ret _ => True
  | throw _ => True
  | look k => ∀ x, LockFree (k x)
  | set _ k => LockFree k
  | call _ k => ∀ r, LockFree (k r)
  | acquire _ => False
  | release _ => False

variable {R : Limits C A} {Q : Except ε α → Bool → Prop} {Q' : Except ε β → Bool → Prop}

namespace Spec

theorem attempt {f : Except ε α → Co F C A ε β} (hf : ∀ r held, Q r held → Spec R Q' (f r) held) :
    ∀ {p : Co F C A ε α} {held : Bool}, Spec R Q p held → Spec R Q' (p.attempt f) held
  | .ret _, _, hp => hf _ _ hp
  | .throw _, _, hp => hf _ _ hp
  | .look _, _, hp => fun x => attempt hf (hp x)
  | .set _ k, _, hp => attempt (p := k) hf hp
  | .call _ _, _, hp => fun r hr => attempt hf (hp r hr)
  | .acquire _, _, hp => ⟨hp.1, attempt hf hp.2.1, fun hc => attempt hf (hp.2.2 hc)⟩
  | .release _, _, hp => ⟨hp.1, attempt hf hp.2⟩

/-- A program in sequence: what raises first raises as a whole. -/
theorem bind {p : Co F C A ε α} {f : α → Co F C A ε β} {held : Bool} (hp : Spec R Q p held)
    (hf : ∀ a held, Q (.ok a) held → Spec R Q' (f a) held)
    (he : ∀ e held, Q (.error e) held → Q' (.error e) held) : Spec R Q' (p.bind f) held := by
  refine attempt (fun r held hr => ?_) hp
  cases r with
  | ok a => exact hf a held hr
  | error e => exact he e held hr

theorem tryExcept {Q' : Except ε α → Bool → Prop} {p : Co F C A ε α} {h : ε → Co F C A ε α}
    {held : Bool} (hp : Spec R Q p held) (ha : ∀ a held, Q (.ok a) held → Q' (.ok a) held)
    (he : ∀ e held, Q (.error e) held → Spec R Q' (h e) held) :
    Spec R Q' (p.tryExcept h) held := by
  refine attempt (fun r held hr => ?_) hp
  cases r with
  | ok a => exact ha a held hr
  | error e => exact he e held hr

/-- What is done in the end keeps a result, or raises instead of it. -/
theorem tryFinally {Q' : Except ε α → Bool → Prop} {p : Co F C A ε α} {q : Co F C A ε Unit}
    {held : Bool} (hp : Spec R Q p held)
    (hq : ∀ r held, Q r held → Spec R (fun r' held' => match r' with
      | .ok _ => Q' r held'
      | .error e => Q' (.error e) held') q held) : Spec R Q' (p.tryFinally q) held := by
  refine attempt (fun r held hr => bind (hq r held hr) (fun _ held' h => ?_) fun _ _ h => h) hp
  cases r <;> exact h

/-- What leaves the lock alone leaves it as it is. -/
theorem of_lockFree : ∀ {p : Co F C A ε α} {held : Bool}, p.LockFree →
    Spec R (fun _ h => h = held) p held
  | .ret _, _, _ => rfl
  | .throw _, _, _ => rfl
  | .look _, _, hp => fun x => of_lockFree (hp x)
  | .set _ k, _, hp => of_lockFree (p := k) hp
  | .call _ _, _, hp => fun r _ => of_lockFree (hp r)

end Spec

namespace LockFree

theorem ret (a : α) : LockFree (ret a : Co F C A ε α) := trivial

theorem throw (e : ε) : LockFree (throw e : Co F C A ε α) := trivial

theorem get : LockFree (get : Co F C A ε F) := fun _ => trivial

theorem update (f : F → F) : LockFree (update f : Co F C A ε Unit) := trivial

theorem ite {c : Prop} [Decidable c] {p q : Co F C A ε α} (hp : LockFree p)
    (hq : LockFree q) : LockFree (if c then p else q) := by
  split
  · exact hp
  · exact hq

theorem attempt {f : Except ε α → Co F C A ε β} (hf : ∀ r, LockFree (f r)) :
    ∀ {p : Co F C A ε α}, LockFree p → LockFree (p.attempt f)
  | .ret _, _ => hf _
  | .throw _, _ => hf _
  | .look _, hp => fun x => attempt hf (hp x)
  | .set _ k, hp => attempt (p := k) hf hp
  | .call _ _, hp => fun r => attempt hf (hp r)

theorem bind {p : Co F C A ε α} {f : α → Co F C A ε β} (hp : LockFree p)
    (hf : ∀ a, LockFree (f a)) : LockFree (p.bind f) := by
  refine attempt (fun r => ?_) hp
  cases r with
  | ok a => exact hf a
  | error e => trivial

theorem tryExcept {p : Co F C A ε α} {h : ε → Co F C A ε α} (hp : LockFree p)
    (hh : ∀ e, LockFree (h e)) : LockFree (p.tryExcept h) := by
  refine attempt (fun r => ?_) hp
  cases r with
  | ok a => trivial
  | error e => exact hh e

theorem tryFinally {p : Co F C A ε α} {q : Co F C A ε Unit} (hp : LockFree p) (hq : LockFree q) :
    LockFree (p.tryFinally q) := by
  refine attempt (fun r => bind hq fun _ => ?_) hp
  cases r <;> trivial

end LockFree

end Co

end NewlifeCore
