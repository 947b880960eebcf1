import NewlifeCore.Txn.Program

/-!
# Jobs over one connection

A job runs its statements through one connection with at most one open transaction.  The first
write opens it; a call that fails rolls it back and raises, and whoever catches the exception goes
on with the next write opening another one.  Between two statements a job may also send messages,
which no rollback takes back.

Which calls fail is given from outside, by the number of the call.  `σ` is the type of database
states and `μ` the type of messages.
-/

namespace NewlifeCore.Txn

/-! ## 1. The connection -/

/-- **A connection**: the committed database, what the open transaction sees, the outside calls
made so far and the messages sent.  `sending` records that a message went out since the last
commit, and `late` that the transaction was given up after such a message. -/
structure Connection (σ μ : Type) where
  db : σ
  tx : Option σ := none
  calls : Nat := 0
  sent : List μ := []
  sending : Bool := false
  late : Bool := false

namespace Connection

variable {σ μ : Type} (s : Connection σ μ)

/-- What a statement sees: the open transaction, or else the committed database. -/
def seen : σ := s.tx.getD s.db

def called : Connection σ μ := { s with calls := s.calls + 1 }

/-- A database call failed: the transaction is rolled back. -/
def abort : Connection σ μ := { s.called with tx := none, late := s.late || s.sending }

def write (d : σ) : Connection σ μ := { s.called with tx := some d }

def send (m : μ) : Connection σ μ := { s.called with sent := s.sent ++ [m], sending := true }

def commit (d : σ) : Connection σ μ := { s.called with db := d, tx := none, sending := false }

/-- Giving up the transaction. -/
def rollback : Connection σ μ := { s with tx := none, late := s.late || s.sending }

@[simp] theorem called_seen : s.called.seen = s.seen := rfl
@[simp] theorem write_seen (d : σ) : (s.write d).seen = d := rfl
@[simp] theorem send_seen (m : μ) : (s.send m).seen = s.seen := rfl
@[simp] theorem abort_seen : s.abort.seen = s.db := rfl
@[simp] theorem commit_seen (d : σ) : (s.commit d).seen = d := rfl
@[simp] theorem rollback_seen : s.rollback.seen = s.db := rfl

end Connection

/-- What happens to a job from outside: which of its calls fail, the clock it reads, and whether
the advisory lock it tries is free. -/
structure Conditions where
  fails : Nat → Bool
  clock : Int
  free : Bool := true

/-- Why a job stopped: an exception of its own, or an outside call that failed. -/
inductive Failure (ε : Type)
  | raised (e : ε)
  | outage

/-- A job over databases `σ` and messages `μ`. -/
def Job (σ μ ε α : Type) : Type :=
  Conditions → Connection σ μ → Except (Failure ε) α × Connection σ μ

namespace Job

variable {σ ρ κ μ ε : Type} {α β : Type}

/-! ## 2. The monad -/

def ret (a : α) : Job σ μ ε α := fun _ s => (.ok a, s)

def bind (p : Job σ μ ε α) (f : α → Job σ μ ε β) : Job σ μ ε β := fun c s =>
  match p c s with
  | (.ok a, s') => f a c s'
  | (.error e, s') => (.error e, s')

instance : Monad (Job σ μ ε) where
  pure := ret
  bind := bind

@[simp] theorem pure_eq (a : α) : (pure a : Job σ μ ε α) = ret a := rfl
@[simp] theorem bind_eq (p : Job σ μ ε α) (f : α → Job σ μ ε β) : p >>= f = p.bind f := rfl

/-- `try: p except: h`. -/
def tryCatch (p h : Job σ μ ε α) : Job σ μ ε α := fun c s =>
  match p c s with
  | (.ok a, s') => (.ok a, s')
  | (.error _, s') => h c s'

def each (xs : List α) (f : α → Job σ μ ε Unit) : Job σ μ ε Unit :=
  match xs with
  | [] => ret ()
  | x :: xs => (f x).bind fun _ => each xs f

/-- A loop that collects what its body returns. -/
def mapEach (xs : List α) (f : α → Job σ μ ε β) : Job σ μ ε (List β) :=
  match xs with
  | [] => ret []
  | x :: xs => (f x).bind fun b => (mapEach xs f).bind fun bs => ret (b :: bs)

/-! ## 3. Calls -/

/-- A call of the database fails, or goes on. -/
def statement (go : Job σ μ ε α) : Job σ μ ε α := fun c s =>
  if c.fails s.calls then (.error .outage, s.abort) else go c s

/-- A program's statements, over the connection. -/
def run [RowStore σ ρ] : Prog σ ρ κ ε α → Job σ μ ε α
  | .ret a => ret a
  | .raise e => fun _ s => (.error (.raised e), s)
  | .read q k => statement fun c s => run (k (q s.seen c.clock)) c s.called
  | .clock k => fun c s => run (k c.clock) c s
  | .lock _ k => statement fun c s => run k c (s.write s.seen)
  | .tryLock _ k => statement fun c s => run (k c.free) c s.called
  | .write stmt k => statement fun c s =>
    match stmt s.seen with
    | .error e => (.error (.raised e), s.abort)
    | .ok d => run (k d.rows.length) c (s.write (d.apply s.seen))

/-- `session.commit()`. -/
def commit : Job σ μ ε Unit := fun c s =>
  match s.tx with
  | none => (.ok (), s)
  | some d => if c.fails s.calls then (.error .outage, s.abort) else (.ok (), s.commit d)

/-- `session.rollback()`. -/
def rollback : Job σ μ ε Unit := fun _ s => (.ok (), s.rollback)

/-- A message is sent, or its port fails. -/
def send (m : μ) : Job σ μ ε Unit := fun c s =>
  if c.fails s.calls then (.error .outage, s.called) else (.ok (), s.send m)

/-- A value that another port computes, where it does. -/
def port (a : Option α) : Job σ μ ε α := fun c s =>
  match a with
  | none => (.error .outage, s.called)
  | some a => if c.fails s.calls then (.error .outage, s.called) else (.ok a, s.called)

/-! ## 4. Triples -/

/-- **A job keeps its promises**: from a connection with `P` it ends in one with `Q`, or it raises
and leaves one with `E`. -/
def Keeps (P : Connection σ μ → Prop) (p : Job σ μ ε α) (Q : α → Connection σ μ → Prop)
    (E : Connection σ μ → Prop) : Prop :=
  ∀ c s, P s → match p c s with
    | (.ok a, s') => Q a s'
    | (.error _, s') => E s'

namespace Keeps

variable {P P' E E' : Connection σ μ → Prop} {Q Q' : α → Connection σ μ → Prop}

theorem ret {a : α} (h : ∀ s, P s → Q a s) : Keeps P (ret a : Job σ μ ε α) Q E :=
  fun _ s hs => h s hs

theorem bind {p : Job σ μ ε α} {f : α → Job σ μ ε β} {Q' : β → Connection σ μ → Prop}
    (hp : Keeps P p Q E) (hf : ∀ a, Keeps (Q a) (f a) Q' E) : Keeps P (p.bind f) Q' E := by
  intro c s hs
  have h₁ := hp c s hs
  unfold Job.bind
  cases hpc : p c s with
  | mk r s' =>
    rw [hpc] at h₁
    cases r with
    | ok a => exact hf a c s' h₁
    | error e => exact h₁

theorem conseq {p : Job σ μ ε α} (h : Keeps P p Q E) (hP : ∀ s, P' s → P s)
    (hQ : ∀ a s, Q a s → Q' a s) (hE : ∀ s, E s → E' s) : Keeps P' p Q' E' := by
  intro c s hs
  have h₁ := h c s (hP s hs)
  cases hpc : p c s with
  | mk r s' =>
    rw [hpc] at h₁
    cases r with
    | ok a => exact hQ a s' h₁
    | error e => exact hE s' h₁

theorem tryCatch {p h : Job σ μ ε α} (hp : Keeps P p Q E') (hh : Keeps E' h Q E) :
    Keeps P (p.tryCatch h) Q E := by
  intro c s hs
  have h₁ := hp c s hs
  unfold Job.tryCatch
  cases hpc : p c s with
  | mk r s' =>
    rw [hpc] at h₁
    cases r with
    | ok a => exact h₁
    | error e => exact hh c s' h₁

/-- What each turn of a loop keeps, the loop keeps. -/
theorem each {f : α → Job σ μ ε Unit} (I : List α → Connection σ μ → Prop) (all : List α)
    (hstep : ∀ done x rest, all = done ++ x :: rest →
      Keeps (I done) (f x) (fun _ => I (done ++ [x])) E) :
    ∀ xs done, all = done ++ xs → Keeps (I done) (each xs f) (fun _ => I all) E
  | [], done, h => ret fun s hs => by rwa [h, List.append_nil]
  | x :: xs, done, h => bind (hstep done x xs h) fun _ =>
      each I all hstep xs (done ++ [x]) (by rw [h, List.append_assoc, List.singleton_append])

theorem mapEach {f : α → Job σ μ ε β} (h : ∀ x, Keeps P (f x) (fun _ => P) E) :
    ∀ xs, Keeps P (mapEach xs f) (fun _ => P) E
  | [] => ret fun _ hs => hs
  | x :: xs => bind (h x) fun _ => bind (mapEach h xs) fun _ => ret fun _ hs => hs

theorem statement {go : Job σ μ ε α} (habort : ∀ s, P s → E s.abort) (h : Keeps P go Q E) :
    Keeps P (statement go) Q E := by
  intro c s hs
  unfold Job.statement
  by_cases hc : c.fails s.calls = true
  · rw [if_pos hc]; exact habort s hs
  · rw [if_neg hc]; exact h c s hs

theorem send {m : μ} {Q : Unit → Connection σ μ → Prop} (hfail : ∀ s, P s → E s.called)
    (h : ∀ s, P s → Q () (s.send m)) : Keeps P (send m : Job σ μ ε Unit) Q E := by
  intro c s hs
  unfold Job.send
  by_cases hc : c.fails s.calls = true
  · rw [if_pos hc]; exact hfail s hs
  · rw [if_neg hc]; exact h s hs

theorem port {v : Option α} (hfail : ∀ s, P s → E s.called) (h : ∀ a s, P s → Q a s.called) :
    Keeps P (port v : Job σ μ ε α) Q E := by
  intro c s hs
  unfold Job.port
  cases v with
  | none => exact hfail s hs
  | some a =>
    by_cases hc : c.fails s.calls = true
    · simpa [hc] using hfail s hs
    · simpa [hc] using h a s hs

/-- A commit with a transaction open and one without. -/
theorem commit {Q : Unit → Connection σ μ → Prop} (habort : ∀ s, P s → E s.abort)
    (hnone : ∀ s, P s → s.tx = none → Q () s)
    (hsome : ∀ s d, P s → s.tx = some d → Q () (s.commit d)) :
    Keeps P (commit : Job σ μ ε Unit) Q E := by
  intro c s hs
  unfold Job.commit
  cases htx : s.tx with
  | none => exact hnone s hs htx
  | some d =>
    by_cases hc : c.fails s.calls = true
    · simpa [hc] using habort s hs
    · simpa [hc] using hsome s d hs htx

theorem rollback {Q : Unit → Connection σ μ → Prop} (h : ∀ s, P s → Q () s.rollback) :
    Keeps P (rollback : Job σ μ ε Unit) Q E := fun _ s hs => h s hs

section Programs

variable [RowStore σ ρ]

theorem select {q : σ → Int → α} (habort : ∀ s, P s → E s.abort)
    (h : ∀ s t, P s → Q (q s.seen t) s.called) :
    Keeps P (run (Prog.select q : Prog σ ρ κ ε α)) Q E :=
  statement habort fun c s hs => h s c.clock hs

theorem execute {stmt : σ → Except ε (Change σ ρ)} {Q : Unit → Connection σ μ → Prop}
    (habort : ∀ s, P s → E s.abort)
    (h : ∀ s d, P s → stmt s.seen = .ok d → Q () (s.write (d.apply s.seen))) :
    Keeps P (run (Prog.execute stmt : Prog σ ρ κ ε Unit)) Q E := by
  unfold Prog.execute Job.run
  refine statement habort fun c s hs => ?_
  cases hst : stmt s.seen with
  | error e => exact habort s hs
  | ok d => exact h s d hs hst

/-- A program whose statements make only changes that the invariant allows. -/
theorem run {R : σ → σ → Prop} (hE : ∀ s, P s → E s) (habort : ∀ s, P s → E s.abort)
    (hcalled : ∀ s, P s → P s.called) (hlock : ∀ s, P s → P (s.write s.seen))
    (hwrite : ∀ s d, P s → R s.seen d → P (s.write d)) :
    ∀ {p : Prog σ ρ κ ε α}, p.Writes R → Keeps P (run p) (fun _ => P) E
  | .ret _, _ => fun _ _ hs => hs
  | .raise _, _ => fun _ s hs => hE s hs
  | .clock _, hp => fun c s hs => run hE habort hcalled hlock hwrite (hp c.clock) c s hs
  | .read q _, hp => statement habort fun c s hs =>
      run hE habort hcalled hlock hwrite (hp (q s.seen c.clock)) c _ (hcalled s hs)
  | .lock _ k, hp => statement habort fun c s hs =>
      run (p := k) hE habort hcalled hlock hwrite hp c _ (hlock s hs)
  | .tryLock _ _, hp => statement habort fun c s hs =>
      run hE habort hcalled hlock hwrite (hp c.free) c _ (hcalled s hs)
  | .write stmt _, hp => by
    unfold Job.run
    refine statement habort fun c s hs => ?_
    cases hst : stmt s.seen with
    | error e => exact habort s hs
    | ok d =>
      exact run hE habort hcalled hlock hwrite (hp.2 d.rows.length) c _
        (hwrite s _ hs (hp.1 s.seen d hst))

end Programs

end Keeps

end Job

end NewlifeCore.Txn
