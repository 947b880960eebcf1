import NewlifeCore.Database.Requests

/-!
# Services over a session

A method of a repository or of a service, as it runs inside a request: it reads and writes through
the session, publishes events, and returns or raises.  Each of its round trips is told how it ends
and what the other requests have left in the tables by then.
-/

namespace NewlifeCore.Database

/-! ## 1. The methods -/

/-- A round trip to the server. -/
structure Round (T : Type) where
  fate : Fate := .done
  tables : T

/-- What a method works with; the rounds past the last succeed on the tables of the last. -/
structure Work (T W E : Type) where
  tables : T
  rounds : List (Round T) := []
  session : Session W := {}
  written : List W := []
  events : List E := []

/-- A method, over tables `T`, writing `W` and publishing `E`. -/
def Act (T W E α : Type) : Type := Work T W E → Except ExceptionKind α × Work T W E

namespace Act

variable {T W E α β : Type}

protected def pure (a : α) : Act T W E α := fun k => (.ok a, k)

protected def bind (p : Act T W E α) (f : α → Act T W E β) : Act T W E β := fun k =>
  match p k with
  | (.ok a, k') => f a k'
  | (.error kind, k') => (.error kind, k')

instance : Monad (Act T W E) where
  pure := Act.pure
  bind := Act.bind

def raise (kind : ExceptionKind) : Act T W E α := fun k => (.error kind, k)

/-- The fate of the next round trip. -/
def nextRound (k : Work T W E) : Fate × Work T W E :=
  match k.rounds with
  | [] => (.done, k)
  | r :: rs => (r.fate, { k with tables := r.tables, rounds := rs })

/-- A statement, which lets its failure out as it is. -/
def access (x : Fate → Access W) : Act T W E Unit := fun k =>
  match nextRound k with
  | (fate, k) =>
    match (x fate).run k.session with
    | (.returned, s) => (.ok (), { k with session := s, written := k.written ++ (x fate).written })
    | (.raised, s) => (.error .other, { k with session := s })

def execute (w : W) : Act T W E Unit := access fun fate => .statement (.execute w fate)

/-- What a SELECT sees: the tables, and what its own transaction has written. -/
def look (read : T → List W → α) : Act T W E α := fun k => (.ok (read k.tables k.session.pending), k)

def fetch (read : T → List W → α) : Act T W E α := do
  access fun fate => .statement (.fetch fate)
  look read

def fetchvals (read : T → List W → α) : Act T W E α := do
  access fun fate => .fetchvals fate
  look read

/-- `except ApiBaseException: raise`, and any other exception as one. -/
def guarded (p : Act T W E α) : Act T W E α := fun k =>
  match p k with
  | (.ok a, k') => (.ok a, k')
  | (.error _, k') => (.error .apiBaseException, k')

/-- An event for the bus; what goes wrong here is logged. -/
def publish (e : E) : Act T W E Unit := fun k =>
  match nextRound k with
  | (.done, k) => (.ok (), { k with events := k.events ++ [e] })
  | (.fails _ _, k) => (.ok (), k)

/-! ## 2. What a method keeps -/

/-- A method keeps `I`, whether it returns or raises. -/
def Keeps (I : Work T W E → Prop) (p : Act T W E α) : Prop := ∀ k, I k → I (p k).2

variable {I : Work T W E → Prop}

theorem Keeps.pure (a : α) : Keeps I (Pure.pure a : Act T W E α) := fun _ h => h

theorem Keeps.raise (kind : ExceptionKind) : Keeps I (raise kind : Act T W E α) := fun _ h => h

theorem Keeps.look (read : T → List W → α) : Keeps I (look read : Act T W E α) := fun _ h => h

theorem Keeps.bind {p : Act T W E α} {f : α → Act T W E β} (hp : Keeps I p)
    (hf : ∀ a, Keeps I (f a)) : Keeps I (p >>= f) := by
  intro k hk
  have hk' := hp k hk
  change I (Act.bind p f k).2
  unfold Act.bind
  split <;> rename_i hrun <;> rw [hrun] at hk'
  · exact hf _ _ hk'
  · exact hk'

theorem Keeps.guarded {p : Act T W E α} (hp : Keeps I p) : Keeps I (guarded p) := by
  intro k hk
  have hk' := hp k hk
  unfold Act.guarded
  split <;> rename_i hrun <;> rw [hrun] at hk' <;> exact hk'

theorem Keeps.ite {c : Prop} [Decidable c] {p q : Act T W E α} (hp : Keeps I p)
    (hq : Keeps I q) : Keeps I (if c then p else q) := by
  split
  · exact hp
  · exact hq

/-- An invariant of the session and of what was written and published, kept by what touches them. -/
structure Stable (I : Work T W E → Prop) (Writes : W → Prop) (Publishes : E → Prop) : Prop where
  round : ∀ k, I k → I (nextRound k).2
  access : ∀ k (x : Access W) s, I k → (∀ w ∈ x.written, Writes w) → x.run k.session = (.returned, s) →
    I { k with session := s, written := k.written ++ x.written }
  failure : ∀ k (x : Access W) s, I k → x.run k.session = (.raised, s) → I { k with session := s }
  publish : ∀ k e, I k → Publishes e → I { k with events := k.events ++ [e] }

variable {Writes : W → Prop} {Publishes : E → Prop}

theorem Stable.access_keeps (hI : Stable I Writes Publishes) {x : Fate → Access W}
    (hx : ∀ fate, ∀ w ∈ (x fate).written, Writes w) : Keeps I (Act.access x : Act T W E Unit) := by
  intro k hk
  have hk' := hI.round k hk
  unfold Act.access
  simp only
  split <;> rename_i hrun
  · exact hI.access _ _ _ hk' (hx _) hrun
  · exact hI.failure _ _ _ hk' hrun

theorem Stable.execute (hI : Stable I Writes Publishes) {w : W} (hw : Writes w) :
    Keeps I (Act.execute w : Act T W E Unit) :=
  hI.access_keeps fun _ _ h => List.mem_singleton.mp h ▸ hw

theorem Stable.fetch (hI : Stable I Writes Publishes) (read : T → List W → α) :
    Keeps I (Act.fetch read : Act T W E α) :=
  .bind (hI.access_keeps fun _ _ h => absurd h List.not_mem_nil) fun _ => .look read

theorem Stable.fetchvals (hI : Stable I Writes Publishes) (read : T → List W → α) :
    Keeps I (Act.fetchvals read : Act T W E α) :=
  .bind (hI.access_keeps fun _ _ h => absurd h List.not_mem_nil) fun _ => .look read

theorem Stable.publish_keeps (hI : Stable I Writes Publishes) {e : E} (he : Publishes e) :
    Keeps I (Act.publish e : Act T W E Unit) := by
  intro k hk
  have hk' := hI.round k hk
  unfold Act.publish
  split <;> rename_i hround <;> rw [hround] at hk'
  · exact hI.publish _ _ hk' he
  · exact hk'

end Act

end NewlifeCore.Database
