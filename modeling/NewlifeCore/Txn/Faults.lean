import NewlifeCore.Txn.Script

/-!
# Requests whose steps fail

A request that catches exceptions sees what a failure leaves behind.  A failed statement rolls the
open transaction back before its exception reaches the request, so what a handler goes on with is
a new transaction; a failed step outside the database leaves both stores alone.  `Faults` says
which steps fail, beside those whose own statement is refused.
-/

namespace NewlifeCore.Txn

/-- The failing steps of a request, counted from its first, and what they raise. -/
abbrev Faults (ε : Type) := Nat → Option ε

/-- In the middle of a request: `steps` of its steps are done. -/
structure Moment (σ τ : Type) where
  work : σ
  db : σ
  store : τ
  steps : Nat := 0

namespace Moment

variable {σ τ : Type}

def start (w : World σ τ) : Moment σ τ := ⟨w.db, w.db, w.store, 0⟩

/-- One more step, which left `work` and `store`. -/
def next (s : Moment σ τ) (work : σ) (store : τ) : Moment σ τ := ⟨work, s.db, store, s.steps + 1⟩

/-- A failed statement. -/
def rollback (s : Moment σ τ) : Moment σ τ := s.next s.db s.store

@[simp] theorem next_db (s : Moment σ τ) (d : σ) (r : τ) : (s.next d r).db = s.db := rfl
@[simp] theorem next_work (s : Moment σ τ) (d : σ) (r : τ) : (s.next d r).work = d := rfl
@[simp] theorem next_store (s : Moment σ τ) (d : σ) (r : τ) : (s.next d r).store = r := rfl
@[simp] theorem next_steps (s : Moment σ τ) (d : σ) (r : τ) : (s.next d r).steps = s.steps + 1 := rfl
@[simp] theorem rollback_db (s : Moment σ τ) : s.rollback.db = s.db := rfl
@[simp] theorem rollback_work (s : Moment σ τ) : s.rollback.work = s.db := rfl
@[simp] theorem rollback_store (s : Moment σ τ) : s.rollback.store = s.store := rfl
@[simp] theorem rollback_steps (s : Moment σ τ) : s.rollback.steps = s.steps + 1 := rfl

end Moment

/-- A request run at one instant, under given faults. -/
def Attempt (σ τ ε α : Type) := Faults ε → Int → Moment σ τ → Except ε α × Moment σ τ

namespace Attempt

variable {σ ρ τ ε : Type} [RowStore σ ρ] {α β : Type}

/-! ## 1. Steps -/

def ret (a : α) : Attempt σ τ ε α := fun _ _ s => (.ok a, s)

def raise (e : ε) : Attempt σ τ ε α := fun _ _ s => (.error e, s)

def bind (p : Attempt σ τ ε α) (f : α → Attempt σ τ ε β) : Attempt σ τ ε β := fun F t s =>
  match p F t s with
  | (.ok a, s') => f a F t s'
  | (.error e, s') => (.error e, s')

instance : Monad (Attempt σ τ ε) where
  pure := ret
  bind := bind

/-- A repository method, whose exceptions are those of its statements. -/
def method (p : Prog σ ρ Empty ε α) : Attempt σ τ ε α := fun F t s =>
  match F s.steps with
  | some e => (.error e, s.rollback)
  | none =>
    match p.exec s.work t with
    | .ok (a, d) => (.ok a, s.next d s.store)
    | .error e => (.error e, s.rollback)

/-- A step outside the database. -/
def outside (c : τ → Int → Except ε (α × τ)) : Attempt σ τ ε α := fun F t s =>
  match F s.steps with
  | some e => (.error e, s.next s.work s.store)
  | none =>
    match c s.store t with
    | .ok (a, r) => (.ok a, s.next s.work r)
    | .error e => (.error e, s.next s.work s.store)

/-- The rest of a request that catches nothing. -/
def script (p : Script σ ρ τ ε α) : Attempt σ τ ε α := fun F t s =>
  match F s.steps with
  | some e => (.error e, s.rollback)
  | none =>
    match p.exec ⟨s.work, s.db, s.store⟩ t with
    | (r, m) => (r, ⟨m.work, m.db, m.store, s.steps + 1⟩)

/-- `try: p except e: h(e)`. -/
def tryCatch (p : Attempt σ τ ε α) (h : ε → Attempt σ τ ε α) : Attempt σ τ ε α := fun F t s =>
  match p F t s with
  | (.ok a, s') => (.ok a, s')
  | (.error e, s') => h e F t s'

/-- `session.commit()`. -/
def commit : Attempt σ τ ε Unit := fun F _ s =>
  match F s.steps with
  | some e => (.error e, s.rollback)
  | none => (.ok (), ⟨s.work, s.work, s.store, s.steps + 1⟩)

/-- `session.rollback()`. -/
def rollback : Attempt σ τ ε Unit := fun _ _ s => (.ok (), s.rollback)

/-- Its steps fail as `G` says, counted from its own first. -/
def under (G : Faults ε) (p : Attempt σ τ ε α) : Attempt σ τ ε α := fun _ t s =>
  p (fun n => G (n - s.steps)) t s

/-- A loop with an accumulator. -/
def foldEach (xs : List β) (acc : α) (f : α → β → Attempt σ τ ε α) : Attempt σ τ ε α :=
  match xs with
  | [] => ret acc
  | x :: xs => (f acc x).bind fun acc => foldEach xs acc f

/-- **One request**: its commit is its last step; an exception rolls back. -/
def serve (p : Attempt σ τ ε α) (F : Faults ε) (w : World σ τ) (t : Int) : Except ε α × World σ τ :=
  match (p.bind fun a => commit.bind fun _ => ret a) F t (.start w) with
  | (r, s) => (r, ⟨s.db, s.store⟩)

@[simp] theorem pure_eq (a : α) : (pure a : Attempt σ τ ε α) = ret a := rfl
@[simp] theorem bind_eq (p : Attempt σ τ ε α) (f : α → Attempt σ τ ε β) : p >>= f = p.bind f := rfl

section Runs

variable {F G : Faults ε} {t : Int} {s s' : Moment σ τ} {a : α} {e : ε}

theorem method_fails {p : Prog σ ρ Empty ε α} (h : F s.steps = some e) :
    method p F t s = (.error e, s.rollback) := by
  rw [method, h]

theorem method_ok {p : Prog σ ρ Empty ε α} {d : σ} (h : F s.steps = none)
    (hp : p.exec s.work t = .ok (a, d)) : method p F t s = (.ok a, s.next d s.store) := by
  rw [method, h]
  simp only [hp]

theorem outside_fails {c : τ → Int → Except ε (α × τ)} (h : F s.steps = some e) :
    outside c F t s = (.error e, s.next s.work s.store) := by
  rw [outside, h]

theorem outside_ok {c : τ → Int → Except ε (α × τ)} {r : τ} (h : F s.steps = none)
    (hc : c s.store t = .ok (a, r)) : outside c F t s = (.ok a, s.next s.work r) := by
  rw [outside, h]
  simp only [hc]

theorem bind_ok {p : Attempt σ τ ε α} {f : α → Attempt σ τ ε β} (h : p F t s = (.ok a, s')) :
    p.bind f F t s = f a F t s' := by
  rw [bind, h]

theorem bind_error {p : Attempt σ τ ε α} {f : α → Attempt σ τ ε β} (h : p F t s = (.error e, s')) :
    p.bind f F t s = (.error e, s') := by
  rw [bind, h]

theorem tryCatch_raise {p : Attempt σ τ ε α} {g : ε → ε} {r : Except ε α} (h : p F t s = (r, s')) :
    (p.tryCatch fun e => raise (g e)) F t s = (r.mapError g, s') := by
  rw [tryCatch, h]
  cases r <;> rfl

end Runs

/-! ## 2. Promises -/

/-- **What a request promises** at the instant `t`, whichever steps fail: from `P` it returns with
`Q`, or it raises with `E`. -/
def Keeps (t : Int) (P : Moment σ τ → Prop) (p : Attempt σ τ ε α) (Q : α → Moment σ τ → Prop)
    (E : Moment σ τ → Prop) : Prop :=
  ∀ F s, P s → match p F t s with
    | (.ok a, s') => Q a s'
    | (.error _, s') => E s'

namespace Keeps

variable {t : Int} {P P' : Moment σ τ → Prop} {Q Q' : α → Moment σ τ → Prop}
  {E E' : Moment σ τ → Prop} {p : Attempt σ τ ε α}

theorem ret {a : α} (h : ∀ s, P s → Q a s) : Keeps t P (ret a : Attempt σ τ ε α) Q E :=
  fun _ s hs => h s hs

theorem raise {e : ε} (h : ∀ s, P s → E s) : Keeps t P (raise e : Attempt σ τ ε α) Q E :=
  fun _ s hs => h s hs

theorem bind {f : α → Attempt σ τ ε β} {Q' : β → Moment σ τ → Prop}
    (hp : Keeps t P p Q E) (hf : ∀ a, Keeps t (Q a) (f a) Q' E) : Keeps t P (p.bind f) Q' E := by
  intro F s hs
  have h := hp F s hs
  unfold Attempt.bind
  cases hps : p F t s with
  | mk r s' =>
    rw [hps] at h
    cases r with
    | ok a => exact hf a F s' h
    | error e => exact h

theorem conseq (h : Keeps t P p Q E) (hP : ∀ s, P' s → P s) (hQ : ∀ a s, Q a s → Q' a s)
    (hE : ∀ s, E s → E' s) : Keeps t P' p Q' E' := by
  intro F s hs
  have h := h F s (hP s hs)
  cases hps : p F t s with
  | mk r s' =>
    rw [hps] at h
    cases r with
    | ok a => exact hQ a s' h
    | error e => exact hE s' h

theorem method {p : Prog σ ρ Empty ε α}
    (hok : ∀ s a d, P s → p.exec s.work t = .ok (a, d) → Q a (s.next d s.store))
    (herror : ∀ s, P s → E s.rollback) : Keeps t P (method p : Attempt σ τ ε α) Q E := by
  intro F s hs
  unfold Attempt.method
  cases F s.steps with
  | some e => exact herror s hs
  | none =>
    cases hp : p.exec s.work t with
    | error e => exact herror s hs
    | ok x => exact hok s x.1 x.2 hs hp

theorem tryCatch {D : Moment σ τ → Prop} {h : ε → Attempt σ τ ε α} (hp : Keeps t P p Q D)
    (hh : ∀ e, Keeps t D (h e) Q E) : Keeps t P (p.tryCatch h) Q E := by
  intro F s hs
  have hq := hp F s hs
  unfold Attempt.tryCatch
  cases hps : p F t s with
  | mk r s' =>
    rw [hps] at hq
    cases r with
    | ok a => exact hq
    | error e => exact hh e F s' hq

theorem commit {Q : Unit → Moment σ τ → Prop}
    (hok : ∀ s, P s → Q () ⟨s.work, s.work, s.store, s.steps + 1⟩) (herror : ∀ s, P s → E s.rollback) :
    Keeps t P (commit : Attempt σ τ ε Unit) Q E := by
  intro F s hs
  unfold Attempt.commit
  cases F s.steps with
  | some e => exact herror s hs
  | none => exact hok s hs

theorem rollback {Q : Unit → Moment σ τ → Prop} (h : ∀ s, P s → Q () s.rollback) :
    Keeps t P (rollback : Attempt σ τ ε Unit) Q E := fun _ s hs => h s hs

/-- A loop keeps what each turn keeps. -/
theorem foldEach {f : α → β → Attempt σ τ ε α} (h : ∀ acc x, Keeps t P (f acc x) (fun _ => P) E) :
    ∀ xs acc, Keeps t P (foldEach xs acc f) (fun _ => P) E
  | [], _ => ret fun _ h => h
  | x :: xs, acc => bind (h acc x) fun acc => foldEach h xs acc

/-- What a request promises, it leaves behind. -/
theorem serve (h : Keeps t P p Q E) {I : World σ τ → Prop} (F : Faults ε) {w : World σ τ}
    (hw : P (.start w)) (hcommit : ∀ a s, Q a s → I ⟨s.work, s.store⟩)
    (hfail : ∀ a s, Q a s → I ⟨s.db, s.store⟩) (hraise : ∀ s, E s → I ⟨s.db, s.store⟩) :
    I (p.serve F w t).2 := by
  have hall : Keeps t P (p.bind fun a => Attempt.commit.bind fun _ => Attempt.ret a)
      (fun _ s => I ⟨s.db, s.store⟩) (fun s => I ⟨s.db, s.store⟩) := by
    refine bind (h.conseq (fun _ h => h) (fun _ _ h => h) hraise) fun a => ?_
    refine bind (Q := fun _ s => I ⟨s.db, s.store⟩) (commit (fun s hs => ?_) fun s hs => ?_)
      fun _ => ret fun _ h => h
    · exact hcommit a s hs
    · exact hfail a s hs
  have hend := hall F _ hw
  unfold Attempt.serve
  cases hps : (p.bind fun a => Attempt.commit.bind fun _ => Attempt.ret a) F t (.start w) with
  | mk r s' =>
    rw [hps] at hend
    cases r <;> exact hend

end Keeps

/-! ## 3. Invariants of the database -/

/-- `J` holds of what the session sees, `I` of what was committed. -/
def During (J I : σ → Prop) (s : Moment σ τ) : Prop := J s.work ∧ I s.db

/-- An invariant holds of both. -/
abbrev Holds (I : σ → Prop) : Moment σ τ → Prop := During I I

variable {I J : σ → Prop} {t : Int}

theorem During.rollback {s : Moment σ τ} (h : During J I s) : Holds I s.rollback := ⟨h.2, h.2⟩

namespace Keeps

/-- A method, from what is known of the session to what it establishes. -/
theorem step {p : Prog σ ρ Empty ε α} {K : α → σ → Prop}
    (h : ∀ db a d, J db → p.exec db t = .ok (a, d) → K a d) :
    Keeps t (During J I) (Attempt.method p : Attempt σ τ ε α) (fun a => During (K a) I)
      (Holds I) :=
  method (fun _ a d hs hp => ⟨h _ a d hs.1 hp, hs.2⟩) fun _ hs => hs.rollback

/-- A SELECT, whose result is known from then on. -/
theorem read {q : σ → Int → α} :
    Keeps t (During J I) (Attempt.method (Prog.select q) : Attempt σ τ ε α)
      (fun a => During (fun db => J db ∧ q db t = a) I) (Holds I) :=
  step fun _ _ _ hdb h => by cases h; exact ⟨hdb, rfl⟩

/-- What is known and is not about the state. -/
theorem assume {C : Prop} {p : Attempt σ τ ε α} {Q : α → Moment σ τ → Prop} {E : Moment σ τ → Prop}
    (h : C → Keeps t (During J I) p Q E) : Keeps t (During (fun db => J db ∧ C) I) p Q E :=
  fun F s hs => h hs.1.2 F s ⟨hs.1.1, hs.2⟩

/-- A method whose writes keep what is known. -/
theorem frame {p : Prog σ ρ Empty ε α} {R : σ → σ → Prop} (hrefl : ∀ db, R db db)
    (htrans : ∀ {db₁ db₂ db₃}, R db₁ db₂ → R db₂ db₃ → R db₁ db₃)
    (hJ : ∀ {db db'}, R db db' → J db → J db') (hp : p.Writes R) :
    Keeps t (During J I) (Attempt.method p : Attempt σ τ ε α) (fun _ => During J I) (Holds I) :=
  step fun _ _ _ hdb h => hJ (hp.exec hrefl htrans h) hdb

/-- The rest of a request, whose writes keep an invariant. -/
theorem scriptHolds {p : Script σ ρ τ ε α} {R : σ → σ → Prop}
    (hI : ∀ {db db'}, R db db' → I db → I db') (hp : p.Writes R) :
    Keeps t (Holds I) (Attempt.script p) (fun _ => Holds I) (Holds I) := by
  intro F s hs
  unfold Attempt.script
  cases F s.steps with
  | some e => exact hs.rollback
  | none =>
    have hrun := Script.Writes.exec (I := I) hI (s := ⟨s.work, s.db, s.store⟩) (t := t) hp hs.1 hs.2
    cases hps : p.exec ⟨s.work, s.db, s.store⟩ t with
    | mk r m =>
      rw [hps] at hrun
      cases r <;> exact hrun

theorem commitHolds :
    Keeps t (Holds I) (Attempt.commit : Attempt σ τ ε Unit) (fun _ => Holds I) (Holds I) :=
  commit (fun _ hs => ⟨hs.1, hs.1⟩) fun _ hs => hs.rollback

/-- **A request that keeps an invariant leaves it**, whichever of its steps fail. -/
theorem serveHolds {p : Attempt σ τ ε α} (h : Keeps t (Holds I) p (fun _ => Holds I) (Holds I))
    (F : Faults ε) {w : World σ τ} (hw : I w.db) : I (p.serve F w t).2.db :=
  h.serve (I := fun w => I w.db) F ⟨hw, hw⟩ (fun _ _ hs => hs.1) (fun _ _ hs => hs.2)
    fun _ hs => hs.2

/-- A request of one method. -/
theorem serveMethod {p : Prog σ ρ Empty ε α} (F : Faults ε) {w : World σ τ} (hw : I w.db)
    (h : ∀ a d, p.exec w.db t = .ok (a, d) → I d) :
    I ((Attempt.method p : Attempt σ τ ε α).serve F w t).2.db := by
  have hstep : Keeps t (During (fun db => db = w.db) I) (Attempt.method p : Attempt σ τ ε α)
      (fun _ => Holds I) (Holds I) := step fun db a d hdb hd => h a d (hdb ▸ hd)
  exact hstep.serve (I := fun w => I w.db) F ⟨rfl, hw⟩ (fun _ _ hs => hs.1) (fun _ _ hs => hs.2)
    fun _ hs => hs.2

end Keeps

/-! ## 4. Requests one after the other -/

variable {L : Type} {body : L → Attempt σ τ ε Unit} {ok : World σ τ → Int → L → Prop}
  {w w₀ : World σ τ}

/-- **The states that sequences of requests reach**, whichever steps fail; `ok` is what is asked of
a request when it is made. -/
inductive Served (body : L → Attempt σ τ ε Unit) (ok : World σ τ → Int → L → Prop)
    (w₀ : World σ τ) : World σ τ → Prop
  | refl : Served body ok w₀ w₀
  | request {w : World σ τ} (l : L) (F : Faults ε) (t : Int) : Served body ok w₀ w → ok w t l →
      Served body ok w₀ ((body l).serve F w t).2

/-- **What every request keeps, every sequence of requests keeps.** -/
theorem Served.invariant {I : World σ τ → Prop} (h₀ : I w₀)
    (hstep : ∀ l F t w, I w → ok w t l → I ((body l).serve F w t).2) (h : Served body ok w₀ w) :
    I w := by
  induction h with
  | refl => exact h₀
  | request l F t _ hok ih => exact hstep l F t _ ih hok

end Attempt

end NewlifeCore.Txn
