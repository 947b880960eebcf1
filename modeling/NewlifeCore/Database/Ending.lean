import NewlifeCore.Database.Act

/-!
# Methods that commit once, at their end

A method that lets every exception out, on tables that nobody else changes.  While it runs none of
its writes is durable, and when it raises none ever is: `Runs` follows it up to the commit, `Ends`
beyond.  Why it may raise, other than for a round trip that fails, is a parameter.

Such a method waits for nothing but its session.  A connection that is lost while it runs is lost
while a round trip waits for it, and that round trip fails; the session never replaces one between
two of its statements.
-/

namespace NewlifeCore.Database.Act

variable {T W E α β : Type}

/-- `commit`. -/
def commit : Act T W E Unit := fun k =>
  match nextRound k with
  | (fate, k) =>
    match k.session.commit (fate = .done) with
    | (.returned, s) => (.ok (), { k with session := s })
    | (.raised, s) => (.error .other, { k with session := s })

/-- A statement that the server refuses. -/
def refuse (w : W) : Act T W E Unit :=
  access fun fate =>
    .statement (.execute w (if fate = .done then .fails .statement true else fate))

/-! ## 1. A session under way -/

/-- **A session under way** has the writes `ws` pending, and none of them is durable. -/
structure Pending (ws : List W) (s : Session W) : Prop where
  callbacks : s.afterCommitCallbacks = []
  durable : s.durable = []
  pending : s.pending = ws
  tx : s.tx = none ∧ ws = [] ∨ s.tx = some .started

section

variable {ws : List W} {s : Session W}

theorem Pending.start : Pending [] ({} : Session W) := ⟨rfl, rfl, rfl, .inl ⟨rfl, rfl⟩⟩

theorem Pending.settled (h : Pending ws s) : s.Settled where
  callbacks := h.callbacks
  pending htx := by
    rcases h.tx with ⟨-, hws⟩ | hstarted
    · rw [h.pending, hws]
    · exact absurd hstarted htx

/-- What becomes of a statement is up to its round trip. -/
theorem Pending.fateOf (h : Pending ws s) (fate : Fate) : s.fateOf fate = fate := by
  unfold Session.fateOf
  rcases h.tx with ⟨htx, -⟩ | htx <;> rw [htx]

theorem Pending.execute_done (h : Pending ws s) (w : W) :
    (s.execute w .done).1 = .returned ∧ Pending (ws ++ [w]) (s.execute w .done).2 := by
  unfold Session.execute
  rw [h.fateOf]
  refine ⟨rfl, ?_, ?_, ?_, .inr ?_⟩ <;>
    simp only [Session.ensureTransaction, Session.write] <;>
    rcases h.tx with ⟨htx, -⟩ | htx <;> simp [htx, h.callbacks, h.durable, h.pending]

theorem Pending.execute_fails (h : Pending ws s) (w : W) {fate : Fate} (hf : fate ≠ .done) :
    (s.execute w fate).1 = .raised ∧ (s.execute w fate).2.durable = [] := by
  constructor
  · unfold Session.execute
    rw [h.fateOf]
    cases fate with
    | done => exact absurd rfl hf
    | fails place rollsBack => rfl
  · rw [(h.settled.execute w fate).2, if_neg fun hfailed => hf hfailed.2, h.durable]

theorem Pending.fetch_done (h : Pending ws s) : s.fetch .done = (.returned, s) := by
  unfold Session.fetch
  rw [h.fateOf]

theorem Pending.fetch_fails (h : Pending ws s) {fate : Fate} (hf : fate ≠ .done) :
    (s.fetch fate).1 = .raised ∧ (s.fetch fate).2.durable = [] := by
  unfold Session.fetch
  rw [h.fateOf]
  cases fate with
  | done => exact absurd rfl hf
  | fails place rollsBack => exact ⟨rfl, (h.settled.rollback rollsBack).2.trans h.durable⟩

theorem Pending.fetchvals_done (h : Pending ws s) : s.fetchvals .done = (.returned, s) := by
  unfold Session.fetchvals
  rw [h.fateOf]

theorem Pending.fetchvals_fails (h : Pending ws s) {fate : Fate} (hf : fate ≠ .done) :
    (s.fetchvals fate).1 = .raised ∧ (s.fetchvals fate).2.durable = [] := by
  unfold Session.fetchvals
  rw [h.fateOf]
  cases fate with
  | done => exact absurd rfl hf
  | fails place rollsBack =>
    rcases h.tx with ⟨htx, -⟩ | htx <;> simp [htx, h.durable]

/-- **The commit** makes durable what is pending, or fails and leaves nothing. -/
theorem Pending.commit (h : Pending ws s) (commits : Bool) :
    (s.commit commits).1 = .returned ∧ (s.commit commits).2.durable = ws ∨
      (s.commit commits).1 = .raised ∧ (s.commit commits).2.durable = [] ∧ commits = false := by
  have hdurable := (h.settled.commit commits).2
  rcases h.tx with ⟨htx, rfl⟩ | htx
  · refine .inl ⟨by simp [Session.commit, htx], ?_⟩
    rw [hdurable, if_neg (by simp [htx]), h.durable]
  · cases commits with
    | true =>
      refine .inl ⟨by simp [Session.commit, htx], ?_⟩
      rw [hdurable, if_pos ⟨rfl, htx⟩, h.durable, h.pending, List.nil_append]
    | false =>
      refine .inr ⟨by simp [Session.commit, htx], ?_, rfl⟩
      rw [hdurable, if_neg (by simp), h.durable]

end

/-! ## 2. Methods under way -/

/-- The session of a method is under way, and its tables stay as they are. -/
structure Running (db : T) (ws : List W) (k : Work T W E) : Prop where
  tables : k.tables = db
  rounds : ∀ r ∈ k.rounds, r.tables = db
  session : Pending ws k.session

/-- A round trip to come fails. -/
def Fails (k : Work T W E) : Prop := ∃ r ∈ k.rounds, r.fate ≠ .done

/-- **Up to its commit** a method either returns, with `Q` of its result and its writes, or raises,
because `B` holds or a round trip fails, and then leaves nothing. -/
structure Runs (db : T) (B : Prop) (ws : List W) (p : Act T W E α) (Q : α → List W → Prop) :
    Prop where
  returns : ∀ k, Running db ws k → ∀ a k', p k = (.ok a, k') →
    (∃ ws', Running db ws' k' ∧ Q a ws') ∧ k'.rounds <:+ k.rounds
  raises : ∀ k, Running db ws k → ∀ kind k', p k = (.error kind, k') →
    k'.session.durable = [] ∧ (B ∨ Fails k)

/-- The same of a whole method, with `P` of its result and of what is durable. -/
structure Ends (db : T) (B : Prop) (ws : List W) (p : Act T W E α) (P : α → List W → Prop) :
    Prop where
  returns : ∀ k, Running db ws k → ∀ a k', p k = (.ok a, k') → P a k'.session.durable
  raises : ∀ k, Running db ws k → ∀ kind k', p k = (.error kind, k') →
    k'.session.durable = [] ∧ (B ∨ Fails k)

variable {db : T} {B : Prop} {ws : List W} {k k' : Work T W E}

theorem Fails.mono (h : Fails k') (hs : k'.rounds <:+ k.rounds) : Fails k := by
  obtain ⟨r, hr, hf⟩ := h
  exact ⟨r, hs.subset hr, hf⟩

theorem Running.start (rounds : List (Round T)) (hr : ∀ r ∈ rounds, r.tables = db) :
    Running db [] ({ tables := db, rounds } : Work T W E) :=
  ⟨rfl, hr, .start⟩

/-- The next round trip. -/
theorem Running.nextRound (h : Running db ws k) :
    Running db ws (Act.nextRound k).2 ∧ (Act.nextRound k).2.rounds <:+ k.rounds ∧
      ((Act.nextRound k).1 ≠ .done → Fails k) := by
  unfold Act.nextRound
  cases hr : k.rounds with
  | nil => exact ⟨h, by simp only [hr, List.suffix_rfl], fun hne => absurd rfl hne⟩
  | cons r rs =>
    have hmem : r ∈ k.rounds := by rw [hr]; exact .head _
    exact ⟨⟨h.rounds r hmem, fun r' hr' => h.rounds r' (by rw [hr]; exact .tail _ hr'), h.session⟩,
      List.suffix_cons r rs, fun hne => ⟨r, hmem, hne⟩⟩

theorem bind_ok_iff {p : Act T W E α} {f : α → Act T W E β} {b : β} :
    (p >>= f) k = (.ok b, k') ↔ ∃ a k₁, p k = (.ok a, k₁) ∧ f a k₁ = (.ok b, k') := by
  change Act.bind p f k = _ ↔ _
  unfold Act.bind
  cases hp : p k with
  | mk r k₁ => cases r <;> simp

theorem bind_error_iff {p : Act T W E α} {f : α → Act T W E β} {kind : ExceptionKind} :
    (p >>= f) k = (.error kind, k') ↔
      p k = (.error kind, k') ∨ ∃ a k₁, p k = (.ok a, k₁) ∧ f a k₁ = (.error kind, k') := by
  change Act.bind p f k = _ ↔ _
  unfold Act.bind
  cases hp : p k with
  | mk r k₁ => cases r <;> simp

/-! ## 3. Rules up to the commit -/

variable {Q : α → List W → Prop} {R : β → List W → Prop}

theorem Runs.pure {a : α} (h : Q a ws) : Runs db B ws (Pure.pure a : Act T W E α) Q where
  returns k hk _ _ := by rintro ⟨⟩; exact ⟨⟨ws, hk, h⟩, List.suffix_rfl⟩
  raises _ _ _ _ := by rintro ⟨⟩

theorem Runs.raise (kind : ExceptionKind) (h : B) :
    Runs db B ws (Act.raise kind : Act T W E α) Q where
  returns _ _ _ _ := by rintro ⟨⟩
  raises _ hk _ _ := by rintro ⟨⟩; exact ⟨hk.session.durable, .inl h⟩

theorem Runs.bind {p : Act T W E α} {f : α → Act T W E β} (hp : Runs db B ws p Q)
    (hf : ∀ a ws', Q a ws' → Runs db B ws' (f a) R) : Runs db B ws (p >>= f) R where
  returns k hk b k' hrun := by
    obtain ⟨a, k₁, hpk, hfk⟩ := bind_ok_iff.mp hrun
    obtain ⟨⟨ws', hk₁, hQ⟩, hs⟩ := hp.returns k hk a k₁ hpk
    obtain ⟨hR, hs'⟩ := (hf a ws' hQ).returns k₁ hk₁ b k' hfk
    exact ⟨hR, hs'.trans hs⟩
  raises k hk kind k' hrun := by
    rcases bind_error_iff.mp hrun with hpk | ⟨a, k₁, hpk, hfk⟩
    · exact hp.raises k hk kind k' hpk
    · obtain ⟨⟨ws', hk₁, hQ⟩, hs⟩ := hp.returns k hk a k₁ hpk
      exact ((hf a ws' hQ).raises k₁ hk₁ kind k' hfk).imp_right (·.imp_right (·.mono hs))

theorem Runs.mono {Q' : α → List W → Prop} {p : Act T W E α} (h : Runs db B ws p Q)
    (hQ : ∀ a ws', Q a ws' → Q' a ws') : Runs db B ws p Q' where
  returns k hk a k' hrun := by
    obtain ⟨⟨ws', hk', hq⟩, hs⟩ := h.returns k hk a k' hrun
    exact ⟨⟨ws', hk', hQ a ws' hq⟩, hs⟩
  raises := h.raises

theorem Runs.look (read : T → List W → α) (h : Q (read db ws) ws) :
    Runs db B ws (Act.look read : Act T W E α) Q where
  returns k hk a k' hrun := by
    have hread : read db ws = a := by
      rw [← hk.tables, ← hk.session.pending]
      exact Except.ok.inj (Prod.mk.inj hrun).1
    obtain rfl := (Prod.mk.inj hrun).2
    exact ⟨⟨ws, hk, hread ▸ h⟩, List.suffix_rfl⟩
  raises _ _ _ _ := by rintro ⟨⟩

/-- An access that a succeeding round trip carries out, and a failing one ends. -/
theorem Runs.access {x : Fate → Access W} {ws' : List W} {Q : Unit → List W → Prop} (h : Q () ws')
    (hdone : ∀ s, Pending ws s →
      ((x .done).run s).1 = .returned ∧ Pending ws' ((x .done).run s).2)
    (hfails : ∀ s fate, Pending ws s → fate ≠ .done →
      ((x fate).run s).1 = .raised ∧ ((x fate).run s).2.durable = []) :
    Runs db B ws (Act.access x : Act T W E Unit) Q where
  returns k hk a k' hrun := by
    obtain ⟨hk₁, hs, -⟩ := hk.nextRound
    unfold Act.access at hrun
    simp only at hrun
    by_cases hfate : (Act.nextRound k).1 = .done
    · rw [hfate] at hrun
      obtain ⟨hret, hpending⟩ := hdone _ hk₁.session
      split at hrun
      · rename_i s hx
        cases hrun
        exact ⟨⟨ws', ⟨hk₁.tables, hk₁.rounds, by rwa [hx] at hpending⟩, h⟩, hs⟩
      · cases hrun
    · obtain ⟨hraised, -⟩ := hfails _ _ hk₁.session hfate
      split at hrun
      · rename_i s hx
        rw [hx] at hraised
        cases hraised
      · cases hrun
  raises k hk kind k' hrun := by
    obtain ⟨hk₁, hs, hfail⟩ := hk.nextRound
    unfold Act.access at hrun
    simp only at hrun
    by_cases hfate : (Act.nextRound k).1 = .done
    · rw [hfate] at hrun
      obtain ⟨hret, -⟩ := hdone _ hk₁.session
      split at hrun
      · cases hrun
      · rename_i s hx
        rw [hx] at hret
        cases hret
    · obtain ⟨-, hdurable⟩ := hfails _ _ hk₁.session hfate
      split at hrun
      · cases hrun
      · rename_i s hx
        cases hrun
        exact ⟨by rwa [hx] at hdurable, .inr (hfail hfate)⟩

theorem Runs.execute {w : W} {Q : Unit → List W → Prop} (h : Q () (ws ++ [w])) :
    Runs db B ws (Act.execute w : Act T W E Unit) Q :=
  .access h (fun _ hs => hs.execute_done w) fun _ _ hs hf => hs.execute_fails w hf

/-- A statement is refused for a reason of its own. -/
theorem Runs.refuse {w : W} {Q : Unit → List W → Prop} (h : B) :
    Runs db B ws (Act.refuse w : Act T W E Unit) Q := by
  have hraised : ∀ s fate, Pending ws s →
      (s.execute w (if fate = .done then .fails .statement true else fate)).1 = .raised ∧
      (s.execute w (if fate = .done then .fails .statement true else fate)).2.durable = [] :=
    fun s fate hs => by
      by_cases hf : fate = .done
      · rw [if_pos hf]
        exact hs.execute_fails w nofun
      · rw [if_neg hf]
        exact hs.execute_fails w hf
  constructor
  · intro k hk a k' hrun
    obtain ⟨hret, -⟩ := hraised _ (Act.nextRound k).1 hk.nextRound.1.session
    unfold Act.refuse Act.access at hrun
    simp only at hrun
    split at hrun
    · rename_i s hx
      cases hret.symm.trans (congrArg Prod.fst hx)
    · cases hrun
  · intro k hk kind k' hrun
    obtain ⟨-, hdurable⟩ := hraised _ (Act.nextRound k).1 hk.nextRound.1.session
    unfold Act.refuse Act.access at hrun
    simp only at hrun
    split at hrun
    · cases hrun
    · rename_i s hx
      cases hrun
      exact ⟨(congrArg (·.2.durable) hx).symm.trans hdurable, .inl h⟩

theorem Runs.fetch (read : T → List W → α) (h : Q (read db ws) ws) :
    Runs db B ws (Act.fetch read : Act T W E α) Q := by
  refine .bind (Q := fun _ ws' => ws' = ws) (.access rfl (fun s hs => ?_) fun s fate hs hf => ?_) ?_
  · exact ⟨congrArg Prod.fst hs.fetch_done, (congrArg Prod.snd hs.fetch_done).symm ▸ hs⟩
  · exact hs.fetch_fails hf
  · rintro _ _ rfl
    exact .look read h

theorem Runs.fetchvals (read : T → List W → α) (h : Q (read db ws) ws) :
    Runs db B ws (Act.fetchvals read : Act T W E α) Q := by
  refine .bind (Q := fun _ ws' => ws' = ws) (.access rfl (fun s hs => ?_) fun s fate hs hf => ?_) ?_
  · exact ⟨congrArg Prod.fst hs.fetchvals_done, (congrArg Prod.snd hs.fetchvals_done).symm ▸ hs⟩
  · exact hs.fetchvals_fails hf
  · rintro _ _ rfl
    exact .look read h

/-! ## 4. Rules for the end -/

variable {P : β → List W → Prop}

/-- A method that never commits. -/
theorem Ends.of_runs {p : Act T W E α} {P : α → List W → Prop} (h : Runs db B ws p Q)
    (hP : ∀ a ws', Q a ws' → P a []) : Ends db B ws p P where
  returns k hk a k' hrun := by
    obtain ⟨⟨ws', hk', hQ⟩, -⟩ := h.returns k hk a k' hrun
    exact hk'.session.durable ▸ hP a ws' hQ
  raises := h.raises

theorem Ends.bind {p : Act T W E α} {f : α → Act T W E β} (hp : Runs db B ws p Q)
    (hf : ∀ a ws', Q a ws' → Ends db B ws' (f a) P) : Ends db B ws (p >>= f) P where
  returns k hk b k' hrun := by
    obtain ⟨a, k₁, hpk, hfk⟩ := bind_ok_iff.mp hrun
    obtain ⟨⟨ws', hk₁, hQ⟩, -⟩ := hp.returns k hk a k₁ hpk
    exact (hf a ws' hQ).returns k₁ hk₁ b k' hfk
  raises k hk kind k' hrun := by
    rcases bind_error_iff.mp hrun with hpk | ⟨a, k₁, hpk, hfk⟩
    · exact hp.raises k hk kind k' hpk
    · obtain ⟨⟨ws', hk₁, hQ⟩, hs⟩ := hp.returns k hk a k₁ hpk
      exact ((hf a ws' hQ).raises k₁ hk₁ kind k' hfk).imp_right (·.imp_right (·.mono hs))

/-- **The commit at the end.** -/
theorem Ends.commit {b : β} (h : P b ws) :
    Ends db B ws (do Act.commit; return b : Act T W E β) P where
  returns k hk b' k' hrun := by
    obtain ⟨_, k₁, hcommit, hb⟩ := bind_ok_iff.mp hrun
    cases hb
    obtain ⟨hk₁, -, -⟩ := hk.nextRound
    unfold Act.commit at hcommit
    simp only at hcommit
    rcases hk₁.session.commit ((Act.nextRound k).1 = .done) with ⟨-, hd⟩ | ⟨hraised, -, -⟩
    · split at hcommit
      · rename_i s hs
        cases hcommit
        rw [hs] at hd
        exact hd ▸ h
      · cases hcommit
    · split at hcommit
      · rename_i s hs
        cases hraised.symm.trans (congrArg Prod.fst hs)
      · cases hcommit
  raises k hk kind k' hrun := by
    obtain ⟨hk₁, -, hfail⟩ := hk.nextRound
    rcases bind_error_iff.mp hrun with hcommit | ⟨_, _, _, hb⟩
    · unfold Act.commit at hcommit
      simp only at hcommit
      rcases hk₁.session.commit ((Act.nextRound k).1 = .done) with ⟨hret, -⟩ | ⟨-, hd, hf⟩
      · split at hcommit
        · cases hcommit
        · rename_i s hs
          cases hret.symm.trans (congrArg Prod.fst hs)
      · split at hcommit
        · cases hcommit
        · rename_i s hs
          cases hcommit
          rw [hs] at hd
          exact ⟨hd, .inr (hfail (by simpa using hf))⟩
    · cases hb

end NewlifeCore.Database.Act
