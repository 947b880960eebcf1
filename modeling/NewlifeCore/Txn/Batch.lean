import NewlifeCore.Txn.Faults

/-!
# Batches in one transaction

A loop that gives each item a `try` of its own, in a transaction that is committed after the last
one.  A statement that fails rolls back what the items before it have written, so the items are
isolated from one another exactly when none of them fails while such writes are pending.
-/

namespace NewlifeCore.Txn.Attempt

variable {σ ρ τ ε : Type} [RowStore σ ρ] {ι α β γ : Type}

/-! ## 1. Attempts made of statements -/

/-- No step fails but for its own statement. -/
def noFaults : Faults ε := fun _ => none

/-- What some statements come to, from what the session sees: their value, what they leave and how
many steps they took, or the exception that rolled them back. -/
abbrev Course (σ ε α : Type) := Faults ε → Int → σ → Except (ε × Nat) (α × σ × Nat)

/-- Where a course leaves a request. -/
def land (s : Moment σ τ) : Except (ε × Nat) (α × σ × Nat) → Except ε α × Moment σ τ
  | .ok (a, d, k) => (.ok a, ⟨d, s.db, s.store, s.steps + k⟩)
  | .error (e, k) => (.error e, ⟨s.db, s.db, s.store, s.steps + k⟩)

/-- The course of an attempt; faults that do not stop it make no difference to it. -/
structure Follows (p : Attempt σ τ ε α) (course : Course σ ε α) : Prop where
  run : ∀ F t s, p F t s = land s (course (fun k => F (s.steps + k)) t s.work)
  quiet : ∀ {G t d x}, course G t d = .ok x → course noFaults t d = .ok x

/-- **An attempt made of statements**, none of whose exceptions it catches. -/
def Statements (p : Attempt σ τ ε α) : Prop := ∃ course, Follows p course

theorem Statements.ret (a : α) : Statements (ret a : Attempt σ τ ε α) :=
  ⟨fun _ _ d => .ok (a, d, 0), ⟨fun _ _ _ => rfl, fun h => h⟩⟩

/-- The course of one method: its only step fails, or it runs. -/
def methodCourse (q : Prog σ ρ Empty ε α) : Course σ ε α := fun G t d =>
  match G 0 with
  | some e => .error (e, 1)
  | none =>
    match q.exec d t with
    | .ok (a, d') => .ok (a, d', 1)
    | .error e => .error (e, 1)

theorem Statements.method (q : Prog σ ρ Empty ε α) :
    Statements (method q : Attempt σ τ ε α) := by
  refine ⟨methodCourse q, ⟨fun F t s => ?_, fun {G t d x} h => ?_⟩⟩
  · unfold Attempt.method methodCourse
    simp only [Nat.add_zero]
    cases F s.steps with
    | some e => rfl
    | none =>
      cases q.exec s.work t with
      | error e => rfl
      | ok x => rfl
  · unfold methodCourse at h ⊢
    cases hG : G 0 with
    | some e => rw [hG] at h; cases h
    | none => rw [hG] at h; exact h

/-- One course before another; the steps of the second are counted on from the first's. -/
def Course.before (first : Course σ ε α) (next : α → Course σ ε β) : Course σ ε β := fun G t d =>
  match first G t d with
  | .error x => .error x
  | .ok (a, d', k) =>
    match next a (fun j => G (k + j)) t d' with
    | .error (e, m) => .error (e, k + m)
    | .ok (b, d'', m) => .ok (b, d'', k + m)

theorem Statements.bind {p : Attempt σ τ ε α} {f : α → Attempt σ τ ε β} (hp : Statements p)
    (hf : ∀ a, Statements (f a)) : Statements (p.bind f) := by
  obtain ⟨first, hfirst⟩ := hp
  choose next hnext using hf
  refine ⟨first.before next, ⟨fun F t s => ?_, fun {G t d x} h => ?_⟩⟩
  · unfold Attempt.bind Course.before
    rw [hfirst.run]
    cases first (fun k => F (s.steps + k)) t s.work with
    | error x => rfl
    | ok x =>
      obtain ⟨a, d', k⟩ := x
      simp only [land]
      rw [(hnext a).run]
      simp only [Nat.add_assoc]
      cases next a (fun j => F (s.steps + (k + j))) t d' with
      | error x => simp [land, Nat.add_assoc]
      | ok x => simp [land, Nat.add_assoc]
  · unfold Course.before at h ⊢
    cases hrun : first G t d with
    | error x => rw [hrun] at h; cases h
    | ok y =>
      obtain ⟨a, d', k⟩ := y
      rw [hrun] at h
      rw [hfirst.quiet hrun]
      dsimp only at h ⊢
      cases hrun' : next a (fun j => G (k + j)) t d' with
      | error x => rw [hrun'] at h; cases h
      | ok y =>
        rw [hrun'] at h
        have hquiet : next a (fun j => noFaults (k + j)) t d' = .ok y := (hnext a).quiet hrun'
        rw [hquiet]
        exact h

/-! ## 2. Items and their turns -/

/-- Which steps of an item fail, counted from its own first. -/
structure Item (ι ε : Type) where
  item : ι
  faults : Faults ε

/-- The item with nothing failing. -/
def Item.undisturbed (x : Item ι ε) : Item ι ε := ⟨x.item, noFaults⟩

variable (p : ι → Attempt σ τ ε α) (t : Int) (c : σ) (r : τ)

/-- **The turn of an item**: what it comes to and what it leaves of a session that sees `d`, where
`c` is committed. -/
def turn (d : σ) (x : Item ι ε) : Except ε α × σ :=
  match p x.item x.faults t ⟨d, c, r, 0⟩ with
  | (o, s) => (o, s.work)

/-- What some items leave. -/
def after : σ → List (Item ι ε) → σ
  | d, [] => d
  | d, x :: xs => after (turn p t c r d x).2 xs

/-- What they come to. -/
def outcomes : σ → List (Item ι ε) → List (Except ε α)
  | _, [] => []
  | d, x :: xs => (turn p t c r d x).1 :: outcomes (turn p t c r d x).2 xs

/-- The items that succeed, undisturbed. -/
def succeeded : σ → List (Item ι ε) → List (Item ι ε)
  | _, [] => []
  | d, x :: xs =>
    match turn p t c r d x with
    | (.ok _, d') => x.undisturbed :: succeeded d' xs
    | (.error _, d') => succeeded d' xs

/-- **The items are isolated from one another**: what the batch leaves is what those that succeed
do by themselves, one that fails leaves what it found, and the others come to the same without
it. -/
structure Isolated (xs : List (Item ι ε)) : Prop where
  persisted : after p t c r c (succeeded p t c r c xs) = after p t c r c xs
  reported : outcomes p t c r c (succeeded p t c r c xs) =
    (outcomes p t c r c xs).filter Except.isOk
  failed : ∀ pre x post e, xs = pre ++ x :: post →
    (turn p t c r (after p t c r c pre) x).1 = .error e →
    after p t c r c (pre ++ [x]) = after p t c r c pre
  apart : ∀ pre x post e, xs = pre ++ x :: post →
    (turn p t c r (after p t c r c pre) x).1 = .error e →
    outcomes p t c r c (pre ++ post) = (outcomes p t c r c xs).eraseIdx pre.length

/-- **No item fails while changes of earlier ones are pending.** -/
def Unspoilt : σ → List (Item ι ε) → Prop
  | _, [] => True
  | d, x :: xs =>
    match turn p t c r d x with
    | (.ok _, d') => Unspoilt d' xs
    | (.error _, _) => d = c ∧ Unspoilt c xs

variable {p t c r}

/-- An item that succeeds spoils nothing. -/
theorem Unspoilt.cons_ok {d : σ} {x : Item ι ε} {xs : List (Item ι ε)}
    (h : (turn p t c r d x).1.isOk = true) (hxs : Unspoilt p t c r (turn p t c r d x).2 xs) :
    Unspoilt p t c r d (x :: xs) := by
  unfold Unspoilt
  cases hturn : turn p t c r d x with
  | mk o d' =>
    rw [hturn] at h hxs
    cases o with
    | error e => cases h
    | ok a => exact hxs

/-- An item that fails leaves what is committed. -/
theorem turn_error (hp : ∀ i, Statements (p i)) {d : σ} {x : Item ι ε} {e : ε}
    (h : (turn p t c r d x).1 = .error e) : turn p t c r d x = (.error e, c) := by
  obtain ⟨run, hrun⟩ := hp x.item
  unfold turn at h ⊢
  rw [hrun.run] at h ⊢
  revert h
  cases run (fun k => x.faults ((⟨d, c, r, 0⟩ : Moment σ τ).steps + k)) t d with
  | error y =>
    rintro h
    cases h
    rfl
  | ok y =>
    intro h
    cases h

/-- An item that succeeds does what it does undisturbed. -/
theorem turn_ok (hp : ∀ i, Statements (p i)) {d : σ} {x : Item ι ε} {a : α}
    (h : (turn p t c r d x).1 = .ok a) : turn p t c r d x.undisturbed = turn p t c r d x := by
  obtain ⟨run, hrun⟩ := hp x.item
  unfold turn at h ⊢
  rw [hrun.run] at h ⊢
  have hu := hrun.run noFaults t (⟨d, c, r, 0⟩ : Moment σ τ)
  simp only [Item.undisturbed]
  rw [hu]
  simp only [Nat.zero_add] at h ⊢
  cases hx : run x.faults t d with
  | error y => rw [hx] at h; cases h
  | ok y =>
    have : run (fun _ => noFaults 0) t d = .ok y := hrun.quiet hx
    rw [show (fun k => (noFaults : Faults ε) k) = fun _ => noFaults 0 from rfl, this]

/-- A turn is the same wherever in the request it is taken. -/
theorem turn_eq (hp : ∀ i, Statements (p i)) (F : Faults ε) (s : Moment σ τ) (i : ι) (r : τ) :
    ∃ k, p i F t s = ((turn p t s.db r s.work ⟨i, fun n => F (s.steps + n)⟩).1,
      ⟨(turn p t s.db r s.work ⟨i, fun n => F (s.steps + n)⟩).2, s.db, s.store, s.steps + k⟩) := by
  obtain ⟨run, hrun⟩ := hp i
  unfold turn
  rw [hrun.run, hrun.run]
  simp only [Nat.zero_add]
  cases run (fun k => F (s.steps + k)) t s.work with
  | error x => exact ⟨x.2, rfl⟩
  | ok x => exact ⟨x.2.2, rfl⟩

theorem after_append (ys : List (Item ι ε)) : ∀ (xs : List (Item ι ε)) (d : σ),
    after p t c r d (xs ++ ys) = after p t c r (after p t c r d xs) ys
  | [], _ => rfl
  | x :: xs, d => after_append ys xs (turn p t c r d x).2

theorem outcomes_append (ys : List (Item ι ε)) : ∀ (xs : List (Item ι ε)) (d : σ),
    outcomes p t c r d (xs ++ ys) =
      outcomes p t c r d xs ++ outcomes p t c r (after p t c r d xs) ys
  | [], _ => rfl
  | x :: xs, d => congrArg ((turn p t c r d x).1 :: ·) (outcomes_append ys xs (turn p t c r d x).2)

theorem outcomes_length : ∀ (xs : List (Item ι ε)) (d : σ),
    (outcomes p t c r d xs).length = xs.length
  | [], _ => rfl
  | x :: xs, d => congrArg (· + 1) (outcomes_length xs (turn p t c r d x).2)

/-! ## 3. Isolation -/

/-- What an unspoilt batch says of its first item. -/
theorem unspoilt_cons (hp : ∀ i, Statements (p i)) {d : σ} {x : Item ι ε} {xs : List (Item ι ε)} :
    Unspoilt p t c r d (x :: xs) ↔ (∀ e, (turn p t c r d x).1 = .error e → d = c) ∧
      Unspoilt p t c r (turn p t c r d x).2 xs := by
  rw [Unspoilt]
  cases h : (turn p t c r d x).1 with
  | error e =>
    rw [turn_error hp h]
    exact ⟨fun ⟨hd, hrest⟩ => ⟨fun _ _ => hd, hrest⟩, fun ⟨hd, hrest⟩ => ⟨hd e rfl, hrest⟩⟩
  | ok a =>
    have hturn : turn p t c r d x = (.ok a, (turn p t c r d x).2) := Prod.ext h rfl
    rw [hturn]
    exact ⟨fun hrest => ⟨nofun, hrest⟩, fun ⟨_, hrest⟩ => hrest⟩

/-- In an unspoilt batch an item that fails finds nothing pending. -/
theorem Unspoilt.clean (hp : ∀ i, Statements (p i)) {x : Item ι ε} {pre post : List (Item ι ε)}
    {e : ε} {d : σ} (h : Unspoilt p t c r d (pre ++ x :: post))
    (he : (turn p t c r (after p t c r d pre) x).1 = .error e) : after p t c r d pre = c := by
  induction pre generalizing d with
  | nil => exact ((unspoilt_cons hp).mp h).1 e he
  | cons y pre ih => exact ih ((unspoilt_cons hp).mp h).2 he

/-- What an unspoilt batch leaves and reports is what those that succeed do by themselves. -/
theorem Unspoilt.persists (hp : ∀ i, Statements (p i)) {xs : List (Item ι ε)} {d : σ}
    (h : Unspoilt p t c r d xs) :
    after p t c r d (succeeded p t c r d xs) = after p t c r d xs ∧
      outcomes p t c r d (succeeded p t c r d xs) =
        (outcomes p t c r d xs).filter Except.isOk := by
  induction xs generalizing d with
  | nil => exact ⟨rfl, rfl⟩
  | cons x xs ih =>
    obtain ⟨hclean, hrest⟩ := (unspoilt_cons hp).mp h
    obtain ⟨hafter, houtcomes⟩ := ih hrest
    rw [succeeded, after, outcomes]
    cases ho : (turn p t c r d x).1 with
    | error e =>
      obtain rfl := hclean e ho
      rw [turn_error hp ho] at hafter houtcomes ⊢
      exact ⟨hafter, houtcomes⟩
    | ok a =>
      have hturn : turn p t c r d x = (.ok a, (turn p t c r d x).2) := Prod.ext ho rfl
      have hquiet : turn p t c r d x.undisturbed = (.ok a, (turn p t c r d x).2) :=
        (turn_ok hp ho).trans hturn
      rw [hturn]
      simp only
      rw [after, outcomes, hquiet]
      exact ⟨hafter, congrArg (Except.ok a :: ·) houtcomes⟩

/-- **A batch of statements is isolated exactly when it is unspoilt.** -/
theorem isolated_iff (hp : ∀ i, Statements (p i)) (xs : List (Item ι ε)) :
    Isolated p t c r xs ↔ Unspoilt p t c r c xs := by
  constructor
  · intro h
    -- along the batch, with the items `pre` done
    have hall : ∀ xs' pre, xs = pre ++ xs' → Unspoilt p t c r (after p t c r c pre) xs' := by
      intro xs'
      induction xs' with
      | nil => exact fun _ _ => trivial
      | cons x post ih =>
        intro pre hsplit
        have hlast : after p t c r c (pre ++ [x]) = (turn p t c r (after p t c r c pre) x).2 :=
          after_append [x] pre c
        refine (unspoilt_cons hp).mpr ⟨fun e he => ?_, ?_⟩
        · have hfailed := h.failed pre x post e hsplit he
          rw [hlast, turn_error hp he] at hfailed
          exact hfailed.symm
        · rw [← hlast]
          exact ih (pre ++ [x]) (by simpa using hsplit)
    exact hall xs [] rfl
  · intro h
    obtain ⟨hafter, houtcomes⟩ := h.persists hp
    refine ⟨hafter, houtcomes, ?_, ?_⟩
    · rintro pre x post e rfl he
      rw [after_append, after, after, turn_error hp he, h.clean hp he]
    · rintro pre x post e rfl he
      rw [outcomes_append, outcomes_append, outcomes, turn_error hp he,
        List.eraseIdx_append_of_length_le (Nat.le_of_eq (outcomes_length pre c)), outcomes_length, Nat.sub_self,
        List.eraseIdx_cons_zero, h.clean hp he]

/-! ## 4. The loop -/

/-- The items of a loop with the faults that reach them. -/
def arriving (p : ι → Attempt σ τ ε α) (F : Faults ε) (t : Int) : Moment σ τ → List ι →
    List (Item ι ε)
  | _, [] => []
  | s, i :: is => ⟨i, fun n => F (s.steps + n)⟩ :: arriving p F t (p i F t s).2 is

/-- An accumulator with one more item in it. -/
def tally (good : γ → ι → α → γ) (bad : γ → ι → ε → γ) (acc : γ) :
    List (Item ι ε) → List (Except ε α) → γ
  | x :: xs, .ok a :: os => tally good bad (good acc x.item a) xs os
  | x :: xs, .error e :: os => tally good bad (bad acc x.item e) xs os
  | _, _ => acc

/-- **A loop that catches what each of its turns raises** never raises: it counts what its items
come to and leaves what they leave. -/
theorem foldEach_run (hp : ∀ i, Statements (p i)) {good : γ → ι → α → γ} {bad : γ → ι → ε → γ}
    {body : γ → ι → Attempt σ τ ε γ} (hbody : ∀ acc i, body acc i =
      ((p i).bind fun a => Attempt.ret (good acc i a)).tryCatch fun e => Attempt.ret (bad acc i e))
    {F : Faults ε} (r : τ) (is : List ι) (acc : γ) (s : Moment σ τ) :
    ∃ k, foldEach is acc body F t s =
      (.ok (tally good bad acc (arriving p F t s is)
        (outcomes p t s.db r s.work (arriving p F t s is))),
        ⟨after p t s.db r s.work (arriving p F t s is), s.db, s.store, s.steps + k⟩) := by
  induction is generalizing acc s with
  | nil => exact ⟨0, rfl⟩
  | cons i is ih =>
    obtain ⟨k, hturn⟩ := turn_eq hp F s i r
    have hp₂ : (p i F t s).2 = _ := congrArg Prod.snd hturn
    rw [foldEach, arriving, outcomes, after, hp₂]
    rw [bind, hbody, tryCatch, bind, hturn]
    cases ho : (turn p t s.db r s.work ⟨i, fun n => F (s.steps + n)⟩).1 with
    | ok a =>
      obtain ⟨m, hrest⟩ := ih (good acc i a)
        (⟨(turn p t s.db r s.work ⟨i, fun n => F (s.steps + n)⟩).2, s.db, s.store, s.steps + k⟩)
      exact ⟨k + m, by rw [← Nat.add_assoc]; exact hrest⟩
    | error e =>
      obtain ⟨m, hrest⟩ := ih (bad acc i e)
        (⟨(turn p t s.db r s.work ⟨i, fun n => F (s.steps + n)⟩).2, s.db, s.store, s.steps + k⟩)
      exact ⟨k + m, by rw [← Nat.add_assoc]; exact hrest⟩

/-! ## 5. Undisturbed attempts -/

/-- The items of a loop none of whose steps fails. -/
def undisturbed (is : List ι) : List (Item ι ε) := is.map fun i => ⟨i, noFaults⟩

theorem arriving_noFaults (p : ι → Attempt σ τ ε α) (t : Int) (is : List ι) :
    ∀ s : Moment σ τ, arriving p noFaults t s is = undisturbed is := by
  induction is with
  | nil => exact fun _ => rfl
  | cons i is ih => exact fun s => congrArg (_ :: ·) (ih _)

/-- **What an attempt comes to by itself**: on a session that sees `d`, no step failing but for its
own statement, it returns with `Q` or raises with `E`. -/
def Quietly (t : Int) (d : σ) (p : Attempt σ τ ε α) (Q : α → σ → Prop) (E : ε → Prop) : Prop :=
  ∀ s : Moment σ τ, s.work = d → match p noFaults t s with
    | (.ok a, s') => Q a s'.work
    | (.error e, _) => E e

namespace Quietly

variable {t : Int} {d : σ} {p : Attempt σ τ ε α} {Q Q' : α → σ → Prop} {E E' : ε → Prop}

theorem ret {a : α} (h : Q a d) : Quietly t d (Attempt.ret a : Attempt σ τ ε α) Q E :=
  fun _ hs => by rw [← hs] at h; exact h

theorem conseq (h : Quietly t d p Q E) (hQ : ∀ a d', Q a d' → Q' a d') (hE : ∀ e, E e → E' e) :
    Quietly t d p Q' E' := by
  intro s hs
  have hp := h s hs
  cases hrun : p noFaults t s with
  | mk r s' =>
    rw [hrun] at hp
    cases r with
    | ok a => exact hQ _ _ hp
    | error e => exact hE _ hp

theorem bind {f : α → Attempt σ τ ε β} {R : β → σ → Prop} (hp : Quietly t d p Q E)
    (hf : ∀ a d', Q a d' → Quietly t d' (f a) R E) : Quietly t d (p.bind f) R E := by
  intro s hs
  have h := hp s hs
  unfold Attempt.bind
  cases hrun : p noFaults t s with
  | mk r s' =>
    rw [hrun] at h
    cases r with
    | ok a => exact hf a s'.work h s' rfl
    | error e => exact h

theorem method {q : Prog σ ρ Empty ε α} (hok : ∀ a d', q.exec d t = .ok (a, d') → Q a d')
    (herror : ∀ e, q.exec d t = .error e → E e) :
    Quietly t d (Attempt.method q : Attempt σ τ ε α) Q E := by
  rintro s rfl
  simp only [Attempt.method, noFaults]
  cases hexec : q.exec s.work t with
  | ok x => exact hok _ _ hexec
  | error e => exact herror _ hexec

/-- A SELECT returns what it selects and leaves everything alone. -/
theorem select {f : σ → Int → α} (h : Q (f d t) d) :
    Quietly t d (Attempt.method (Prog.select f : Prog σ ρ Empty ε α) : Attempt σ τ ε α) Q E := by
  refine method (fun a d' hexec => ?_) fun e hexec => ?_
  · cases hexec
    exact h
  · cases hexec

/-- The turn of an undisturbed item. -/
theorem turn {p : ι → Attempt σ τ ε α} {i : ι} (h : Quietly t d (p i) Q E) (c : σ) (r : τ) :
    match turn p t c r d ⟨i, noFaults⟩ with
    | (.ok a, d') => Q a d'
    | (.error e, _) => E e := by
  have h := h ⟨d, c, r, 0⟩ rfl
  unfold Attempt.turn
  cases hrun : p i noFaults t ⟨d, c, r, 0⟩ with
  | mk o s =>
    rw [hrun] at h
    cases o with
    | ok a => exact h
    | error e => exact h

end Quietly

end NewlifeCore.Txn.Attempt
