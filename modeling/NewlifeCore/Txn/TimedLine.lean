import NewlifeCore.Txn.Desk
import NewlifeCore.Txn.Guarantee

/-!
# A line of the store that is filled for a time

A line is what the store has under one key: some items, and when they go.  A fill SELECTs the items
that the database grants, empties the line, writes them one by one and then gives the line its time
to live.  Fills of one line run side by side with each other and with requests that change the
grants, and nothing locks the line; still, an item that is granted no longer is gone when the time
to live is over, if no fill was half-way through at the moment it was taken away.
-/

namespace NewlifeCore.Txn

/-- What is under one key, and when it goes. -/
structure Line (κ : Type) where
  items : κ → Prop
  expireAt : Option Int

/-- **A line and where it is filled from**: what the store has on it, how long a fill lasts, what a
database grants, and which databases a fill may be asked of. -/
structure TimedLine (σ τ κ : Type) where
  look : τ → Option (Line κ)
  ttl : Int
  grants : σ → Int → κ → Prop
  Fit : σ → Prop

namespace TimedLine

variable {σ ρ τ ε κ α β L : Type} [RowStore σ ρ] (C : TimedLine σ τ κ)

/-! ## 1. What a command does to the line -/

/-- An item is on the line. -/
def Has (r : τ) (x : κ) : Prop := ∃ l, C.look r = some l ∧ l.items x

/-- The line is as it was, or empty. -/
def Still (r r' : τ) : Prop := C.look r' = C.look r ∨ C.look r' = none

/-- Nothing is added but one item, and no time is. -/
def Added (x : κ) (r r' : τ) : Prop :=
  ∃ l, C.look r' = some l ∧ (∀ y, l.items y → y = x ∨ C.Has r y) ∧
    ∀ e, l.expireAt = some e → ∃ l₀, C.look r = some l₀ ∧ l₀.expireAt = some e

/-- What is on the line gets its time to live. -/
def Timed (t : Int) (r r' : τ) : Prop :=
  ∀ l, C.look r' = some l → l.expireAt = some (t + C.ttl) ∧ ∀ y, l.items y → C.Has r y

def Quiet (c : τ → Int → τ) : Prop := ∀ r t, C.Still r (c r t)

/-! ## 2. Where a request can be -/

/-- Before and after a fill, past its SELECT, and past its DELETE, with what it may write. -/
inductive Stage (κ : Type) where
  | away
  | chosen (may : κ → Prop)
  | opened (may : κ → Prop)

def Stage.may : Stage κ → κ → Prop
  | away, _ => False
  | chosen may, x => may x
  | opened may, x => may x

def Stage.IsOpened : Stage κ → Prop
  | opened _ => True
  | _ => False

/-- A change of the database that takes no grant to be there. -/
def Unheard (f : σ → σ) : Prop :=
  ∀ db, C.Fit db → C.Fit (f db) ∧ ∀ t x, C.grants (f db) t x → C.grants db t x

/-- **A request that fills the line** as it should, from a stage on: it writes what its SELECT
granted to the line that it has emptied, and ends with the time to live. -/
inductive At : Stage κ → Script σ ρ τ ε α → Prop
  | ret (a : α) : At .away (.ret a)
  | raise (e : ε) : At .away (.raise e)
  | read {β : Type} {q : σ → Int → β} {k : β → Script σ ρ τ ε α}
      (hk : ∀ db t, C.Fit db → At .away (k (q db t))) : At .away (.read q k)
  | clock {k : Int → Script σ ρ τ ε α} (hk : ∀ t, At .away (k t)) : At .away (.clock k)
  | write {stmt : σ → Except ε (Change σ ρ)} {k : Nat → Script σ ρ τ ε α}
      (hc : ∀ db c, stmt db = .ok c → C.Unheard c.apply) (hk : ∀ n, At .away (k n)) :
      At .away (.write stmt k)
  | commit {k : Script σ ρ τ ε α} (hk : At .away k) : At .away (.commit k)
  | command {β : Type} {c : τ → Int → τ × β} {k : β → Script σ ρ τ ε α}
      (hc : C.Quiet fun r t => (c r t).1) (hk : ∀ b, At .away (k b)) : At .away (.command c k)
  | choose {β : Type} {q : σ → Int → β} {k : β → Script σ ρ τ ε α}
      (hk : ∀ db t, C.Fit db → At (.chosen (C.grants db t)) (k (q db t))) : At .away (.read q k)
  | drop {β : Type} {may : κ → Prop} {c : τ → Int → τ × β} {k : β → Script σ ρ τ ε α}
      (hc : ∀ r t, C.look (c r t).1 = none) (hk : ∀ b, At .away (k b)) :
      At (.chosen may) (.command c k)
  | clear {β : Type} {may : κ → Prop} {c : τ → Int → τ × β} {k : β → Script σ ρ τ ε α}
      (hc : ∀ r t, C.look (c r t).1 = none) (hk : ∀ b, At (.opened may) (k b)) :
      At (.chosen may) (.command c k)
  | add {β : Type} {may : κ → Prop} {x : κ} {c : τ → Int → τ × β} {k : β → Script σ ρ τ ε α}
      (hx : may x) (hc : ∀ r t, C.Added x r (c r t).1) (hloud : ¬ C.Quiet fun r t => (c r t).1)
      (hk : ∀ b, At (.opened may) (k b)) : At (.opened may) (.command c k)
  | expire {β : Type} {may : κ → Prop} {c : τ → Int → τ × β} {k : β → Script σ ρ τ ε α}
      (hc : ∀ r t, C.Timed t r (c r t).1) (hloud : ¬ C.Quiet fun r t => (c r t).1)
      (hk : ∀ b, At .away (k b)) : At (.opened may) (.command c k)

/-- A request that only ever empties the line. -/
def Aside : Script σ ρ τ ε α → Prop
  | .ret _ => True
  | .raise _ => True
  | .read _ k => ∀ b, Aside (k b)
  | .clock k => ∀ t, Aside (k t)
  | .write _ k => ∀ n, Aside (k n)
  | .command c k => (C.Quiet fun r t => (c r t).1) ∧ ∀ b, Aside (k b)
  | .commit k => Aside k

/-- **Half-way through a fill**: before its next SELECT the request does more to the line than
empty it. -/
def MidFill : Script σ ρ τ ε α → Prop
  | .ret _ => False
  | .raise _ => False
  | .read _ _ => False
  | .clock k => ∃ t, MidFill (k t)
  | .write _ k => ∃ n, MidFill (k n)
  | .command c k => (¬ C.Quiet fun r t => (c r t).1) ∨ ∃ b, MidFill (k b)
  | .commit k => MidFill k

/-- What a step of a request that fills the line does to it, and to the request's stage. -/
inductive Moved (view : σ) (now : Int) (r r' : τ) : Stage κ → Stage κ → Prop
  | still (h : C.Still r r') : Moved view now r r' .away .away
  | chose (h : r' = r) : Moved view now r r' .away (.chosen (C.grants view now))
  | dropped {may} (h : C.look r' = none) : Moved view now r r' (.chosen may) .away
  | cleared {may} (h : C.look r' = none) : Moved view now r r' (.chosen may) (.opened may)
  | added {may x} (hx : may x) (h : C.Added x r r') :
      Moved view now r r' (.opened may) (.opened may)
  | timed {may} (h : C.Timed now r r') : Moved view now r r' (.opened may) .away

variable {C} {stage : Stage κ} {may : κ → Prop} {p : Script σ ρ τ ε α}

theorem Quiet.of_empties {c : τ → Int → τ} (h : ∀ r t, C.look (c r t) = none) : C.Quiet c :=
  fun r t => .inr (h r t)

theorem Quiet.refl : C.Quiet fun r _ => r := fun _ _ => .inl rfl

/-- Past its DELETE a fill is half-way through. -/
theorem At.midFill_opened (h : C.At (.opened may) p) : C.MidFill p := by
  cases h with
  | add hx hc hloud hk => exact .inl hloud
  | expire hc hloud hk => exact .inl hloud

/-- **A request that is not half-way through a fill is in none.** -/
theorem At.away_of_not_midFill [Nonempty τ] (h : C.At stage p) (hmid : ¬ C.MidFill p) :
    C.At .away p := by
  obtain ⟨r⟩ := ‹Nonempty τ›
  cases h with
  | drop hc hk => exact .command (.of_empties hc) hk
  | @clear β may c k hc hk => exact absurd (.inr ⟨(c r 0).2, (hk _).midFill_opened⟩) hmid
  | add hx hc hloud hk => exact absurd (.inl hloud) hmid
  | expire hc hloud hk => exact absurd (.inl hloud) hmid
  | ret a => exact .ret a
  | raise e => exact .raise e
  | read hk => exact .read hk
  | clock hk => exact .clock hk
  | write hc hk => exact .write hc hk
  | commit hk => exact .commit hk
  | command hc hk => exact .command hc hk
  | choose hk => exact .choose hk

/-! ### 2.1 Requests from their parts -/

theorem At.bind {f : α → Script σ ρ τ ε β} (hf : ∀ a, C.At .away (f a)) (h : C.At stage p) :
    C.At stage (p.bind f) := by
  induction h with
  | ret a => exact hf a
  | raise e => exact .raise e
  | read hk ih => exact .read fun db t hdb => ih db t hdb
  | clock hk ih => exact .clock ih
  | write hc hk ih => exact .write hc ih
  | commit hk ih => exact .commit ih
  | command hc hk ih => exact .command hc ih
  | choose hk ih => exact .choose fun db t hdb => ih db t hdb
  | drop hc hk ih => exact .drop hc ih
  | clear hc hk ih => exact .clear hc ih
  | add hx hc hloud hk ih => exact .add hx hc hloud ih
  | expire hc hloud hk ih => exact .expire hc hloud ih

/-- A method of a repository, whose changes take no grant to be there. -/
theorem At.query {G : Guarantee σ ρ} (hG : ∀ rows f, (∀ db, G.rel rows db (f db)) → C.Unheard f) :
    ∀ {p : Prog σ ρ Empty ε α}, p.Keeps G → C.At .away (Script.query p : Script σ ρ τ ε α)
  | .ret a, _ => .ret a
  | .raise e, _ => .raise e
  | .read _ _, hp => .read fun _ _ _ => At.query hG (hp _)
  | .clock _, hp => .clock fun _ => At.query hG (hp _)
  | .lock l _, _ => l.elim
  | .tryLock l _, _ => l.elim
  | .write _ _, hp => .write (fun db c hc => hG _ _ (hp.1 db c hc)) fun _ => At.query hG (hp.2 _)

/-- A SELECT whose answer is relied on. -/
theorem At.select {q : σ → Int → β} {f : β → Script σ ρ τ ε α}
    (hf : ∀ db t, C.Fit db → C.At .away (f (q db t))) :
    C.At .away ((Script.query (Prog.select q)).bind f) := .read hf

theorem At.tell {c : τ → Int → τ} (hc : C.Quiet c) :
    C.At .away (Script.tell c : Script σ ρ τ ε Unit) := .command hc fun _ => .ret _

theorem At.tryCatch {h : ε → Script σ ρ τ ε α} (hh : ∀ e, C.At .away (h e))
    (hp : C.At stage p) : C.At stage (p.tryCatch h) := by
  induction hp with
  | ret a => exact .ret a
  | raise e => exact hh e
  | read hk ih => exact .read fun db t hdb => ih db t hdb
  | clock hk ih => exact .clock ih
  | write hc hk ih => exact .write hc ih
  | commit hk ih => exact .commit ih
  | command hc hk ih => exact .command hc ih
  | choose hk ih => exact .choose fun db t hdb => ih db t hdb
  | drop hc hk ih => exact .drop hc ih
  | clear hc hk ih => exact .clear hc ih
  | add hx hc hloud hk ih => exact .add hx hc hloud ih
  | expire hc hloud hk ih => exact .expire hc hloud ih

namespace Aside

theorem ret (a : α) : C.Aside (.ret a : Script σ ρ τ ε α) := trivial

theorem bind {f : α → Script σ ρ τ ε β} (hf : ∀ a, C.Aside (f a)) :
    ∀ {p : Script σ ρ τ ε α}, C.Aside p → C.Aside (p.bind f)
  | .ret a, _ => hf a
  | .raise _, _ => trivial
  | .read _ _, hp => fun b => bind hf (hp b)
  | .clock _, hp => fun t => bind hf (hp t)
  | .write _ _, hp => fun n => bind hf (hp n)
  | .command _ _, hp => ⟨hp.1, fun b => bind hf (hp.2 b)⟩
  | .commit k, hp => bind (p := k) hf hp

theorem query : ∀ p : Prog σ ρ Empty ε α, C.Aside (Script.query p : Script σ ρ τ ε α)
  | .ret _ => trivial
  | .raise _ => trivial
  | .read _ k => fun b => query (k b)
  | .clock k => fun t => query (k t)
  | .lock l _ => l.elim
  | .tryLock l _ => l.elim
  | .write _ k => fun n => query (k n)

theorem now : C.Aside (Script.now : Script σ ρ τ ε Int) := fun _ => trivial

theorem tell {c : τ → Int → τ} (hc : C.Quiet c) :
    C.Aside (Script.tell c : Script σ ρ τ ε Unit) := ⟨hc, fun _ => trivial⟩

theorem ask (c : τ → Int → β) : C.Aside (Script.ask c : Script σ ρ τ ε β) :=
  ⟨.refl, fun _ => trivial⟩

theorem tryCatch {h : ε → Script σ ρ τ ε α} (hh : ∀ e, C.Aside (h e)) :
    ∀ {p : Script σ ρ τ ε α}, C.Aside p → C.Aside (p.tryCatch h)
  | .ret _, _ => trivial
  | .raise e, _ => hh e
  | .read _ _, hp => fun b => tryCatch hh (hp b)
  | .clock _, hp => fun t => tryCatch hh (hp t)
  | .write _ _, hp => fun n => tryCatch hh (hp n)
  | .command _ _, hp => ⟨hp.1, fun b => tryCatch hh (hp.2 b)⟩
  | .commit k, hp => tryCatch (p := k) hh hp

end Aside

/-! ## 3. One step of a request -/

theorem Unheard.id : C.Unheard (fun db => db) := fun _ hdb => ⟨hdb, fun _ _ h => h⟩

theorem Unheard.comp {f g : σ → σ} (hf : C.Unheard f) (hg : C.Unheard g) : C.Unheard (f ∘ g) :=
  fun db hdb => ⟨(hf _ (hg db hdb).1).1, fun t x h =>
    (hg db hdb).2 t x ((hf _ (hg db hdb).1).2 t x h)⟩

variable [DecidableEq ρ] {s s' : Desk σ ρ τ ε α L} {n : Nat} {v : Visit σ ρ τ ε α L}

/-- **A step of a request that fills the line.** -/
theorem At.act (hv : C.At stage v.script) (hdb : C.Fit s.db) (hown : C.Unheard v.own)
    (h : s.act n v = some s') :
    ∃ v' stage', s.ActedTo s' n v' ∧ C.Unheard v'.own ∧ C.At stage' v'.script ∧
      C.Moved (v.own s.db) s.clock s.store s'.store stage stage' := by
  obtain ⟨label, script, own, rows, saw⟩ := v
  have hfit : C.Fit (own s.db) := (hown _ hdb).1
  cases hv with
  | ret a => cases h
  | raise e => cases h
  | read hk =>
    cases h
    exact ⟨_, _, ⟨rfl, rfl, rfl⟩, hown, hk _ _ hfit, .still (.inl rfl)⟩
  | choose hk =>
    cases h
    exact ⟨_, _, ⟨rfl, rfl, rfl⟩, hown, hk _ _ hfit, .chose rfl⟩
  | clock hk =>
    cases h
    exact ⟨_, _, ⟨rfl, rfl, rfl⟩, hown, hk _, .still (.inl rfl)⟩
  | @write stmt k hc hk =>
    simp only [Desk.act] at h
    split at h
    · rename_i e hstmt
      cases h
      exact ⟨_, _, ⟨rfl, rfl, rfl⟩, hown, .raise e, .still (.inl rfl)⟩
    · rename_i c hstmt
      split at h
      · cases h
        exact ⟨_, _, ⟨rfl, rfl, rfl⟩, (hc _ c hstmt).comp hown, hk _, .still (.inl rfl)⟩
      · cases h
  | commit hk =>
    cases h
    exact ⟨_, _, ⟨rfl, rfl, rfl⟩, .id, hk, .still (.inl rfl)⟩
  | command hc hk =>
    cases h
    exact ⟨_, _, ⟨rfl, rfl, rfl⟩, hown, hk _, .still (hc _ _)⟩
  | drop hc hk =>
    cases h
    exact ⟨_, _, ⟨rfl, rfl, rfl⟩, hown, hk _, .dropped (hc _ _)⟩
  | clear hc hk =>
    cases h
    exact ⟨_, _, ⟨rfl, rfl, rfl⟩, hown, hk _, .cleared (hc _ _)⟩
  | add hx hc hloud hk =>
    cases h
    exact ⟨_, _, ⟨rfl, rfl, rfl⟩, hown, hk _, .added hx (hc _ _)⟩
  | expire hc hloud hk =>
    cases h
    exact ⟨_, _, ⟨rfl, rfl, rfl⟩, hown, hk _, .timed (hc _ _)⟩

/-- A step of a request aside leaves the line alone, or empties it. -/
theorem Aside.act (hv : C.Aside v.script) (h : s.act n v = some s') :
    ∃ v', s.ActedTo s' n v' ∧ C.Aside v'.script ∧ C.Still s.store s'.store := by
  obtain ⟨label, script, own, rows, saw⟩ := v
  cases script with
  | ret a => cases h
  | raise e => cases h
  | read q k =>
    cases h
    exact ⟨_, ⟨rfl, rfl, rfl⟩, hv _, .inl rfl⟩
  | clock k =>
    cases h
    exact ⟨_, ⟨rfl, rfl, rfl⟩, hv _, .inl rfl⟩
  | write stmt k =>
    simp only [Desk.act] at h
    split at h
    · cases h
      exact ⟨_, ⟨rfl, rfl, rfl⟩, trivial, .inl rfl⟩
    · split at h
      · cases h
        exact ⟨_, ⟨rfl, rfl, rfl⟩, hv _, .inl rfl⟩
      · cases h
  | command c k =>
    cases h
    exact ⟨_, ⟨rfl, rfl, rfl⟩, hv.2 _, hv.1 _ _⟩
  | commit k =>
    cases h
    exact ⟨_, ⟨rfl, rfl, rfl⟩, hv, .inl rfl⟩

/-! ## 4. What a run keeps -/

variable (C) in
/-- A request is aside, or somewhere in a fill that takes no grant to be there. -/
def Serves (v : Visit σ ρ τ ε α L) (P : Stage κ → Prop) : Prop :=
  C.Aside v.script ∨ C.Unheard v.own ∧ ∃ stage, C.At stage v.script ∧ P stage

variable (C) in
/-- **Whatever is on the line is about to go**: in the time to live, or once a fill that is past
its DELETE has given it one. -/
structure Bounded (s : Desk σ ρ τ ε α L) : Prop where
  vacant : ∀ n, s.next ≤ n → s.visits n = none
  visits : ∀ n v, s.visits n = some v → C.Serves v fun _ => True
  bound : ∀ l e, C.look s.store = some l → l.expireAt = some e → e ≤ s.clock + C.ttl
  timeless : ∀ l, C.look s.store = some l → l.expireAt = none →
    ∃ n v may, s.visits n = some v ∧ C.At (.opened may) v.script

variable (C) in
/-- **An item is lapsing**: nobody is about to write it, and where it is on the line it goes by a
certain time, which no fill is about to put off. -/
structure Lapsing (x : κ) (deadline : Int) (s : Desk σ ρ τ ε α L) : Prop where
  visits : ∀ n v, s.visits n = some v → C.Serves v fun stage =>
    ¬ stage.may x ∧ (stage.IsOpened → ¬ C.Has s.store x)
  stored : ∀ l, C.look s.store = some l → l.items x → ∃ e, l.expireAt = some e ∧ e ≤ deadline

variable {P Q : Stage κ → Prop} {x : κ} {deadline : Int} {r r' : τ}

omit [DecidableEq ρ] in
theorem Serves.mono (h : C.Serves v P) (hPQ : ∀ stage, P stage → Q stage) : C.Serves v Q :=
  h.imp_right fun ⟨hown, stage, hat, hP⟩ => ⟨hown, stage, hat, hPQ stage hP⟩

theorem Still.not_has (h : C.Still r r') (hx : ¬ C.Has r x) : ¬ C.Has r' x := by
  rintro ⟨l, hl, hitem⟩
  rcases h with h | h
  · exact hx ⟨l, h ▸ hl, hitem⟩
  · rw [h] at hl
    cases hl

theorem Still.look (h : C.Still r r') {l : Line κ} (hl : C.look r' = some l) :
    C.look r = some l := by
  rcases h with h | h
  · exact h ▸ hl
  · rw [h] at hl
    cases hl

/-- The time on the line is the old one, or counts from now. -/
theorem Moved.expireAt {view : σ} {now : Int} {stage' : Stage κ}
    (h : C.Moved view now r r' stage stage') {l : Line κ} {e : Int} (hl : C.look r' = some l)
    (he : l.expireAt = some e) :
    (∃ l₀, C.look r = some l₀ ∧ l₀.expireAt = some e) ∨ e = now + C.ttl := by
  cases h with
  | still h => exact .inl ⟨l, h.look hl, he⟩
  | chose h => exact .inl ⟨l, h ▸ hl, he⟩
  | dropped h => rw [h] at hl; cases hl
  | cleared h => rw [h] at hl; cases hl
  | added hx h =>
    obtain ⟨l', hl', -, hold⟩ := h
    obtain rfl := Option.some.inj (hl'.symm.trans hl)
    exact .inl (hold e he)
  | timed h =>
    have htimed := (h l hl).1
    rw [he] at htimed
    exact .inr (Option.some.inj htimed)

/-- A line that has no time was there without one, or is being filled. -/
theorem Moved.timeless {view : σ} {now : Int} {stage' : Stage κ}
    (h : C.Moved view now r r' stage stage') {l : Line κ} (hl : C.look r' = some l)
    (he : l.expireAt = none) : C.look r = some l ∨ ∃ may, stage' = .opened may := by
  cases h with
  | still h => exact .inl (h.look hl)
  | chose h => exact .inl (h ▸ hl)
  | dropped h => rw [h] at hl; cases hl
  | cleared h => rw [h] at hl; cases hl
  | added hx h => exact .inr ⟨_, rfl⟩
  | timed h =>
    rw [(h l hl).1] at he
    cases he

/-- A fill that may not write an item brings it no nearer. -/
theorem Moved.lapsing {view : σ} {now : Int} {stage' : Stage κ}
    (h : C.Moved view now r r' stage stage') (hmay : ¬ stage.may x)
    (hopened : stage.IsOpened → ¬ C.Has r x) (hnot : ¬ C.grants view now x) :
    (¬ stage'.may x ∧ (stage'.IsOpened → ¬ C.Has r' x)) ∧ (¬ C.Has r x → ¬ C.Has r' x) ∧
      ∀ l, C.look r' = some l → l.items x → C.look r = some l := by
  cases h with
  | still h => exact ⟨⟨not_false, False.elim⟩, h.not_has, fun l hl _ => h.look hl⟩
  | chose h =>
    subst h
    exact ⟨⟨hnot, False.elim⟩, id, fun l hl _ => hl⟩
  | dropped h =>
    have hempty : ¬ C.Has r' x := by
      rintro ⟨l, hl, -⟩
      rw [h] at hl
      cases hl
    exact ⟨⟨not_false, False.elim⟩, fun _ => hempty, fun l hl hx => absurd ⟨l, hl, hx⟩ hempty⟩
  | cleared h =>
    have hempty : ¬ C.Has r' x := by
      rintro ⟨l, hl, -⟩
      rw [h] at hl
      cases hl
    exact ⟨⟨hmay, fun _ => hempty⟩, fun _ => hempty, fun l hl hx => absurd ⟨l, hl, hx⟩ hempty⟩
  | @added may y hy h =>
    have hnone : ¬ C.Has r' x := by
      rintro ⟨l, hl, hx⟩
      obtain ⟨l', hl', hitems, -⟩ := h
      obtain rfl := Option.some.inj (hl'.symm.trans hl)
      rcases hitems x hx with rfl | hold
      · exact hmay hy
      · exact hopened trivial hold
    exact ⟨⟨hmay, fun _ => hnone⟩, fun _ => hnone, fun l hl hx => absurd ⟨l, hl, hx⟩ hnone⟩
  | timed h =>
    have hnone : ¬ C.Has r' x := by
      rintro ⟨l, hl, hx⟩
      exact hopened trivial ((h l hl).2 x hx)
    exact ⟨⟨not_false, False.elim⟩, fun _ => hnone, fun l hl hx => absurd ⟨l, hl, hx⟩ hnone⟩

omit [DecidableEq ρ] in
theorem At.not_aside (h : C.At (.opened may) p) : ¬ C.Aside p := by
  intro haside
  cases h with
  | add hx hc hloud hk => exact hloud haside.1
  | expire hc hloud hk => exact hloud haside.1

omit [DecidableEq ρ] in
/-- A fill that is half-way through is not over. -/
theorem At.not_over (h : C.At (.opened may) v.script) (hend : s.finish n v = some s') : False := by
  have hscript := Desk.finish_cases hend
  cases hp : v.script with
  | ret a => rw [hp] at h; cases h
  | raise e => rw [hp] at h; cases h
  | _ => simp [hp] at hscript

section Steps

variable {body : L → Script σ ρ τ ε α} {a : Turn L}

omit [DecidableEq ρ] in
/-- A request that has begun serves, whatever is asked of its stage but that it is away. -/
theorem Serves.begun {l : L} {own : σ → σ} (hbody : C.Aside (body l) ∨ C.At .away (body l))
    (hown : own = id) (hP : P .away) : C.Serves ⟨l, body l, own, [], none⟩ P := by
  subst hown
  exact hbody.imp_right fun hat => ⟨.id, _, hat, hP⟩

/-- What the next step of a request leaves on the line, and for when. -/
theorem Serves.act (h : C.Serves v P) (hdb : C.Fit s.db) (hact : s.act n v = some s') :
    ∃ v', s.ActedTo s' n v' ∧ (C.Serves v' fun _ => True) ∧
      (∀ l e, C.look s'.store = some l → l.expireAt = some e →
        (∃ l₀, C.look s.store = some l₀ ∧ l₀.expireAt = some e) ∨ e = s.clock + C.ttl) ∧
      ∀ l, C.look s'.store = some l → l.expireAt = none →
        C.look s.store = some l ∨ ∃ may, C.At (.opened may) v'.script := by
  rcases h with haside | ⟨hown, stage, hat, -⟩
  · obtain ⟨v', hto, haside', hstill⟩ := haside.act hact
    exact ⟨v', hto, .inl haside', fun l e hl he => .inl ⟨l, hstill.look hl, he⟩,
      fun l hl _ => .inl (hstill.look hl)⟩
  · obtain ⟨v', stage', hto, hown', hat', hmoved⟩ := hat.act hdb hown hact
    refine ⟨v', hto, .inr ⟨hown', stage', hat', trivial⟩, fun l e => hmoved.expireAt, ?_⟩
    intro l hl he
    refine (hmoved.timeless hl he).imp_right ?_
    rintro ⟨may, rfl⟩
    exact ⟨may, hat'⟩

/-- The fill that owes the line its time goes on owing it, unless the line has one. -/
theorem At.act_opened (hv : C.At (.opened may) v.script) (hdb : C.Fit s.db) (hown : C.Unheard v.own)
    (hact : s.act n v = some s') {l : Line κ} (hl : C.look s'.store = some l)
    (he : l.expireAt = none) : ∃ w, s'.visits n = some w ∧ C.At (.opened may) w.script := by
  obtain ⟨w, stage', hto, -, hat, hmoved⟩ := hv.act hdb hown hact
  cases hmoved with
  | added hx hadded => exact ⟨w, hto.self, hat⟩
  | timed htimed =>
    rw [(htimed l hl).1] at he
    cases he

/-- The next step of a request, while the line is about to go. -/
theorem Bounded.act (h : C.Bounded s) (hdb : C.Fit s.db) (hv : s.visits n = some v)
    (hact : s.act n v = some s') : C.Bounded s' := by
  have hn : n < s.next := by
    by_contra hlate
    rw [h.vacant n (Nat.not_lt.mp hlate)] at hv
    cases hv
  obtain ⟨v', hto, hserves, hbound, htimeless⟩ := (h.visits n v hv).act hdb hact
  refine ⟨fun m hm => ?_, fun m w hw => ?_, fun l e hl he => ?_, fun l hl he => ?_⟩
  · rw [hto.next] at hm
    rw [hto.other (by omega)]
    exact h.vacant m hm
  · rcases hto.cases hw with ⟨-, rfl⟩ | ⟨-, hw⟩
    · exact hserves
    · exact h.visits m w hw
  · rw [hto.clock]
    rcases hbound l e hl he with ⟨l₀, hl₀, he₀⟩ | rfl
    · exact h.bound l₀ e hl₀ he₀
    · exact Int.le_refl _
  · rcases htimeless l hl he with hold | ⟨may, hat⟩
    · obtain ⟨m, w, may, hw, hopen⟩ := h.timeless l hold he
      by_cases hm : m = n
      · subst hm
        obtain rfl := Option.some.inj (hw.symm.trans hv)
        rcases h.visits m w hw with haside | ⟨hown, -⟩
        · exact absurd haside hopen.not_aside
        · obtain ⟨w', hw', hopen'⟩ := hopen.act_opened hdb hown hact hl he
          exact ⟨m, w', may, hw', hopen'⟩
      · exact ⟨m, w, may, (hto.other hm).trans hw, hopen⟩
    · exact ⟨n, v', may, hto.self, hat⟩

/-- **A line that is about to go stays so.** -/
theorem Bounded.step (h : C.Bounded s) (hdb : C.Fit s.db)
    (hbody : ∀ l, a = .begin l → C.Aside (body l) ∨ C.At .away (body l))
    (hstep : s.step body a = some s') : C.Bounded s' := by
  rcases Desk.step_cases hstep with ⟨t, rfl, ht, rfl⟩ | ⟨l, rfl, rfl⟩ | ⟨n, v, rfl, hv, hact⟩ |
    ⟨n, v, rfl, hv, hend⟩
  · refine ⟨h.vacant, h.visits, fun l e hl he => ?_, h.timeless⟩
    have := h.bound l e hl he
    show e ≤ t + C.ttl
    omega
  · refine ⟨fun m hm => ?_, fun m w hw => ?_, h.bound, fun l₀ hl he => ?_⟩
    · have hlt : s.next < m := hm
      exact (if_neg (Nat.ne_of_gt hlt)).trans (h.vacant m (Nat.le_of_lt hlt))
    · rcases Desk.put_cases hw with ⟨-, hw⟩ | ⟨-, hw⟩
      · obtain rfl := Option.some.inj hw
        exact .begun (hbody l rfl) rfl trivial
      · exact h.visits m w hw
    · obtain ⟨m, w, may, hw, hat⟩ := h.timeless l₀ hl he
      have hne : m ≠ s.next := by
        rintro rfl
        rw [h.vacant _ (Nat.le_refl _)] at hw
        cases hw
      exact ⟨m, w, may, (if_neg hne).trans hw, hat⟩
  · exact h.act hdb hv hact
  · have hgone : C.Bounded (s.put n none) := by
      refine ⟨fun m hm => ?_, fun m w hw => ?_, h.bound, fun l₀ hl he => ?_⟩
      · show (if m = n then none else s.visits m) = none
        split
        · rfl
        · exact h.vacant m hm
      · rcases Desk.put_cases hw with ⟨-, hw⟩ | ⟨-, hw⟩
        · cases hw
        · exact h.visits m w hw
      · obtain ⟨m, w, may, hw, hopen⟩ := h.timeless l₀ hl he
        refine ⟨m, w, may, (if_neg fun hm => ?_).trans hw, hopen⟩
        subst hm
        obtain rfl := Option.some.inj (hw.symm.trans hv)
        exact hopen.not_over hend
    rcases Desk.finish_cases hend with ⟨g, -, rfl⟩ | ⟨e, -, rfl⟩
    · exact ⟨hgone.vacant, hgone.visits, hgone.bound, hgone.timeless⟩
    · exact hgone

/-- **An item that lapses goes on lapsing**, while it is not granted again. -/
theorem Lapsing.step (h : C.Lapsing x deadline s) (hdb : C.Fit s.db)
    (hnot : ¬ C.grants s.db s.clock x)
    (hbody : ∀ l, a = .begin l → C.Aside (body l) ∨ C.At .away (body l))
    (hstep : s.step body a = some s') : C.Lapsing x deadline s' := by
  rcases Desk.step_cases hstep with ⟨t, rfl, -, rfl⟩ | ⟨l, rfl, rfl⟩ | ⟨n, v, rfl, hv, hact⟩ |
    ⟨n, v, rfl, hv, hend⟩
  · exact ⟨h.visits, h.stored⟩
  · refine ⟨fun m w hw => ?_, h.stored⟩
    rcases Desk.put_cases hw with ⟨-, hw⟩ | ⟨-, hw⟩
    · obtain rfl := Option.some.inj hw
      exact .begun (hbody l rfl) rfl ⟨not_false, False.elim⟩
    · exact h.visits m w hw
  · rcases h.visits n v hv with haside | ⟨hown, stage, hat, hmay, hopened⟩
    · obtain ⟨v', hto, haside', hstill⟩ := haside.act hact
      refine ⟨fun m w hw => ?_, fun l hl hx => h.stored l (hstill.look hl) hx⟩
      rcases hto.cases hw with ⟨-, rfl⟩ | ⟨-, hw⟩
      · exact .inl haside'
      · exact (h.visits m w hw).mono fun stage hstage =>
          ⟨hstage.1, fun ho => hstill.not_has (hstage.2 ho)⟩
    · obtain ⟨v', stage', hto, hown', hat', hmoved⟩ := hat.act hdb hown hact
      obtain ⟨hnew, hkeeps, hold⟩ :=
        hmoved.lapsing hmay hopened fun hg => hnot ((hown _ hdb).2 _ _ hg)
      refine ⟨fun m w hw => ?_, fun l hl hx => h.stored l (hold l hl hx) hx⟩
      rcases hto.cases hw with ⟨-, rfl⟩ | ⟨-, hw⟩
      · exact .inr ⟨hown', stage', hat', hnew⟩
      · exact (h.visits m w hw).mono fun stage hstage =>
          ⟨hstage.1, fun ho => hkeeps (hstage.2 ho)⟩
  · have hgone : C.Lapsing x deadline (s.put n none) := by
      refine ⟨fun m w hw => ?_, h.stored⟩
      rcases Desk.put_cases hw with ⟨-, hw⟩ | ⟨-, hw⟩
      · cases hw
      · exact h.visits m w hw
    rcases Desk.finish_cases hend with ⟨g, -, rfl⟩ | ⟨e, -, rfl⟩
    · exact ⟨hgone.visits, hgone.stored⟩
    · exact hgone

/-! ### 4.1 From the moment on that an item is taken away -/

omit [DecidableEq ρ] in
/-- Where no fill is half-way through, whatever is on the line lapses. -/
theorem Bounded.lapsing [Nonempty τ] (h : C.Bounded s)
    (hmid : ∀ n v, s.visits n = some v → ¬ C.MidFill v.script) (x : κ) :
    C.Lapsing x (s.clock + C.ttl) s := by
  refine ⟨fun n v hv => ?_, fun l hl _ => ?_⟩
  · refine (h.visits n v hv).imp_right fun ⟨hown, stage, hat, _⟩ => ⟨hown, .away, ?_⟩
    exact ⟨hat.away_of_not_midFill (hmid n v hv), not_false, False.elim⟩
  · cases he : l.expireAt with
    | none =>
      obtain ⟨n, v, may, hv, hopen⟩ := h.timeless l hl he
      exact absurd hopen.midFill_opened (hmid n v hv)
    | some e => exact ⟨e, rfl, h.bound l e hl he⟩

variable (C body) in
/-- The database is fit for fills, and who begins is aside or fills as it should. -/
def Regular (s : Desk σ ρ τ ε α L) (a : Turn L) : Prop :=
  C.Fit s.db ∧ ∀ l, a = .begin l → C.Aside (body l) ∨ C.At .away (body l)

variable {s₀ s₁ : Desk σ ρ τ ε α L}

theorem Bounded.run (h : C.Bounded s₀) (hrun : Desk.Run body (C.Regular body) s₀ s) : C.Bounded s :=
  hrun.invariant h fun _ _ _ hs hok hstep => hs.step hok.1 hok.2 hstep

/-- **An item that is granted no longer lapses for good**, while it is not granted again. -/
theorem Lapsing.run (h : C.Lapsing x deadline s₁)
    (hrun : Desk.Run body (fun s a => C.Regular body s a ∧ ¬ C.grants s.db s.clock x) s₁ s) :
    C.Lapsing x deadline s :=
  hrun.invariant h fun _ _ _ hs hok hstep => hs.step hok.1.1 hok.2 hok.1.2 hstep

end Steps

end TimedLine

/-! ## 5. Requests that only look -/

namespace Script

variable {σ ρ τ ε α β : Type} [RowStore σ ρ]

/-- **The request comes to a result that meets `Q`**, whatever it reads, if its commands find stores
that meet `I`. -/
def Foreseen (I : τ → Int → Prop) (Q : Except ε α → Prop) : Script σ ρ τ ε α → Prop
  | .ret a => Q (.ok a)
  | .raise e => Q (.error e)
  | .read _ k => ∀ b, Foreseen I Q (k b)
  | .clock k => ∀ t, Foreseen I Q (k t)
  | .write stmt k => (∀ db e, stmt db = .error e → Q (.error e)) ∧ ∀ n, Foreseen I Q (k n)
  | .command c k => ∀ r t, I r t → Foreseen I Q (k (c r t).2)
  | .commit k => Foreseen I Q k

namespace Foreseen

variable {I : τ → Int → Prop} {Q : Except ε α → Prop} {Q' : Except ε β → Prop}

theorem bind {f : α → Script σ ρ τ ε β} (hok : ∀ a, Q (.ok a) → Foreseen I Q' (f a))
    (herror : ∀ e, Q (.error e) → Q' (.error e)) :
    ∀ {p : Script σ ρ τ ε α}, Foreseen I Q p → Foreseen I Q' (p.bind f)
  | .ret a, hp => hok a hp
  | .raise e, hp => herror e hp
  | .read _ _, hp => fun b => bind hok herror (hp b)
  | .clock _, hp => fun t => bind hok herror (hp t)
  | .write _ _, hp => ⟨fun db e he => herror e (hp.1 db e he), fun n => bind hok herror (hp.2 n)⟩
  | .command _ _, hp => fun r t hI => bind hok herror (hp r t hI)
  | .commit k, hp => bind (p := k) hok herror hp

theorem result {p : Script σ ρ τ ε α} {r : Except ε α} (hp : Foreseen I Q p)
    (hr : p.result = some r) : Q r := by
  cases p with
  | ret a =>
    obtain rfl := Option.some.inj hr
    exact hp
  | raise e =>
    obtain rfl := Option.some.inj hr
    exact hp
  | _ => cases hr

variable {L : Type} [DecidableEq ρ] {s s' : Desk σ ρ τ ε α L} {n : Nat} {v : Visit σ ρ τ ε α L}

theorem act (hv : Foreseen I Q v.script) (hI : I s.store s.clock) (h : s.act n v = some s') :
    ∃ v', s.ActedTo s' n v' ∧ v'.label = v.label ∧ Foreseen I Q v'.script := by
  obtain ⟨label, script, own, rows, saw⟩ := v
  cases script with
  | ret a => cases h
  | raise e => cases h
  | read q k =>
    cases h
    exact ⟨_, ⟨rfl, rfl, rfl⟩, rfl, hv _⟩
  | clock k =>
    cases h
    exact ⟨_, ⟨rfl, rfl, rfl⟩, rfl, hv _⟩
  | write stmt k =>
    simp only [Desk.act] at h
    split at h
    · rename_i e hstmt
      cases h
      exact ⟨_, ⟨rfl, rfl, rfl⟩, rfl, hv.1 _ e hstmt⟩
    · split at h
      · cases h
        exact ⟨_, ⟨rfl, rfl, rfl⟩, rfl, hv.2 _⟩
      · cases h
  | command c k =>
    cases h
    exact ⟨_, ⟨rfl, rfl, rfl⟩, rfl, hv _ _ hI⟩
  | commit k =>
    cases h
    exact ⟨_, ⟨rfl, rfl, rfl⟩, rfl, hv⟩

variable {body : L → Script σ ρ τ ε α} {a : Turn L} {P : L → Prop} {first : Nat}

/-- **Requests that begin while the store meets `I`** come to the result foreseen of them. -/
theorem step (h : ∀ n v, first ≤ n → s.visits n = some v → P v.label → Foreseen I Q v.script)
    (hI : I s.store s.clock) (hbody : ∀ l, P l → Foreseen I Q (body l))
    (hstep : s.step body a = some s') :
    ∀ n v, first ≤ n → s'.visits n = some v → P v.label → Foreseen I Q v.script := by
  intro m w hm hw hP
  rcases Desk.step_cases hstep with ⟨t, -, -, rfl⟩ | ⟨l, -, rfl⟩ | ⟨n, v, -, hv, hact⟩ |
    ⟨n, v, -, hv, hend⟩
  · exact h m w hm hw hP
  · rcases Desk.put_cases hw with ⟨-, hw⟩ | ⟨-, hw⟩
    · obtain rfl := Option.some.inj hw
      exact hbody l hP
    · exact h m w hm hw hP
  · obtain ⟨v', hlabel, hsame⟩ := Desk.act_label hact
    rcases hsame.cases hw with ⟨rfl, rfl⟩ | ⟨-, hw⟩
    · obtain ⟨v₁, hto, -, hv₁⟩ := (h m v hm hv (hlabel ▸ hP)).act hI hact
      rw [Option.some.inj (hto.self.symm.trans hw)] at hv₁
      exact hv₁
    · exact h m w hm hw hP
  · exact h m w hm (Desk.finish_other hend hw).2 hP

/-- **Requests that begin after some moment, the store meeting `I` from then on**, end with the
result foreseen of them. -/
theorem run {ok : Desk σ ρ τ ε α L → Turn L → Prop} {s₁ : Desk σ ρ τ ε α L}
    (hvacant : ∀ n, s₁.next ≤ n → s₁.visits n = none)
    (hI : ∀ s, Desk.Run body ok s₁ s → I s.store s.clock)
    (hbody : ∀ l, P l → Foreseen I Q (body l)) (hrun : Desk.Run body ok s₁ s') :
    ∀ n v, s₁.next ≤ n → s'.visits n = some v → P v.label → Foreseen I Q v.script := by
  induction hrun with
  | refl =>
    intro n v hn hv
    rw [hvacant n hn] at hv
    cases hv
  | tail a hrun _ hstep ih => exact step ih (hI _ hrun) hbody hstep

end Foreseen

end Script

end NewlifeCore.Txn
