import NewlifeCore.Txn.Script

/-!
# Two runs of one request

A request that is run from two states it cannot tell apart returns, or raises, the same.  `Twin` is
the condition for it, one statement or command after the other: each is answered alike, and what
the two runs end in meets a postcondition of two states, or of two worlds when it raises.
-/

namespace NewlifeCore.Txn.Script

variable {σ ρ τ ε : Type} [RowStore σ ρ] {α β : Type}

/-- **From `s` and `s'` the request goes on alike**, up to `Q` at its end or to `E` where it
raises. -/
def Twin (t : Int) : Script σ ρ τ ε α → Midway σ τ → Midway σ τ →
    (α → Midway σ τ → Midway σ τ → Prop) → (World σ τ → World σ τ → Prop) → Prop
  | ret a, s, s', Q, _ => Q a s s'
  | raise _, s, s', _, E => E ⟨s.db, s.store⟩ ⟨s'.db, s'.store⟩
  | read q k, s, s', Q, E => q s'.work t = q s.work t ∧ Twin t (k (q s.work t)) s s' Q E
  | clock k, s, s', Q, E => Twin t (k t) s s' Q E
  | write stmt k, s, s', Q, E =>
    match stmt s.work, stmt s'.work with
    | .ok c, .ok c' => k c'.rows.length = k c.rows.length ∧ Twin t (k c.rows.length)
        { s with work := c.apply s.work } { s' with work := c'.apply s'.work } Q E
    | .error e, .error e' => e' = e ∧ E ⟨s.db, s.store⟩ ⟨s'.db, s'.store⟩
    | _, _ => False
  | command c k, s, s', Q, E => (c s'.store t).2 = (c s.store t).2 ∧ Twin t (k (c s.store t).2)
      { s with store := (c s.store t).1 } { s' with store := (c s'.store t).1 } Q E
  | commit k, s, s', Q, E => Twin t k { s with db := s.work } { s' with db := s'.work } Q E

namespace Twin

variable {t : Int} {s s' : Midway σ τ} {Q : α → Midway σ τ → Midway σ τ → Prop}
  {E : World σ τ → World σ τ → Prop}

/-! ## 1. Rules -/

/-- What goes on alike after each result goes on alike altogether. -/
theorem bind {f : α → Script σ ρ τ ε β} {Q' : β → Midway σ τ → Midway σ τ → Prop} :
    ∀ {p : Script σ ρ τ ε α} {s s' : Midway σ τ}, Twin t p s s' Q E →
      (∀ a d d', Q a d d' → Twin t (f a) d d' Q' E) → Twin t (p.bind f) s s' Q' E
  | .ret a, s, s', hp, hf => hf a s s' hp
  | .raise _, _, _, hp, _ => hp
  | .read q k, s, s', hp, hf => ⟨hp.1, bind hp.2 hf⟩
  | .clock k, s, s', hp, hf => bind (p := k t) hp hf
  | .write stmt k, s, s', hp, hf => by
    simp only [Twin, Script.bind] at hp ⊢
    cases hs : stmt s.work with
    | error e =>
      cases hs' : stmt s'.work with
      | error e' =>
        rw [hs, hs'] at hp
        exact hp
      | ok c' =>
        rw [hs, hs'] at hp
        exact hp.elim
    | ok c =>
      cases hs' : stmt s'.work with
      | error e' =>
        rw [hs, hs'] at hp
        exact hp.elim
      | ok c' =>
        rw [hs, hs'] at hp
        exact ⟨congrArg (fun p => p.bind f) hp.1, bind hp.2 hf⟩
  | .command c k, s, s', hp, hf => ⟨hp.1, bind hp.2 hf⟩
  | .commit k, s, s', hp, hf => bind (p := k) hp hf

theorem conseq {p : Script σ ρ τ ε α} {Q' : α → Midway σ τ → Midway σ τ → Prop}
    (h : Twin t p s s' Q E) (hQ : ∀ a d d', Q a d d' → Q' a d d') : Twin t p s s' Q' E := by
  rw [← bind_ret p]
  exact h.bind hQ

/-- A handler that raises again. -/
theorem tryCatch {h : ε → Script σ ρ τ ε α} (hh : ∀ e, ∃ e', h e = .raise e') :
    ∀ {p : Script σ ρ τ ε α} {s s' : Midway σ τ}, Twin t p s s' Q E →
      Twin t (p.tryCatch h) s s' Q E
  | .ret a, s, s', hp => hp
  | .raise e, s, s', hp => by
    obtain ⟨e', he⟩ := hh e
    rw [Script.tryCatch, he]
    exact hp
  | .read q k, s, s', hp => ⟨hp.1, tryCatch hh hp.2⟩
  | .clock k, s, s', hp => tryCatch hh (p := k t) hp
  | .write stmt k, s, s', hp => by
    simp only [Twin, Script.tryCatch] at hp ⊢
    cases hs : stmt s.work with
    | error e =>
      cases hs' : stmt s'.work with
      | error e' =>
        rw [hs, hs'] at hp
        exact hp
      | ok c' =>
        rw [hs, hs'] at hp
        exact hp.elim
    | ok c =>
      cases hs' : stmt s'.work with
      | error e' =>
        rw [hs, hs'] at hp
        exact hp.elim
      | ok c' =>
        rw [hs, hs'] at hp
        exact ⟨congrArg (fun p => p.tryCatch h) hp.1, tryCatch hh hp.2⟩
  | .command c k, s, s', hp => ⟨hp.1, tryCatch hh hp.2⟩
  | .commit k, s, s', hp => tryCatch hh (p := k) hp

/-! ## 2. What two runs end in -/

/-- **The answer is the same**, and what is left is related. -/
theorem exec : ∀ {p : Script σ ρ τ ε α} {s s' : Midway σ τ}, Twin t p s s' Q E →
    (p.exec s' t).1 = (p.exec s t).1 ∧
      (∀ a, (p.exec s t).1 = .ok a → Q a (p.exec s t).2 (p.exec s' t).2) ∧
      ∀ e, (p.exec s t).1 = .error e → E ⟨(p.exec s t).2.db, (p.exec s t).2.store⟩
        ⟨(p.exec s' t).2.db, (p.exec s' t).2.store⟩
  | .ret a, s, s', hp => ⟨rfl, fun _ h => (by cases h; exact hp), fun _ h => by cases h⟩
  | .raise e, s, s', hp => ⟨rfl, fun _ h => (by cases h), fun _ _ => hp⟩
  | .read q k, s, s', hp => by
    have hread : (Script.read q k).exec s' t = (k (q s.work t)).exec s' t := by
      rw [Script.exec, hp.1]
    rw [hread]
    exact exec hp.2
  | .clock k, _, _, hp => exec (p := k t) hp
  | .write stmt k, s, s', hp => by
    simp only [Twin] at hp
    cases hs : stmt s.work with
    | error e =>
      cases hs' : stmt s'.work with
      | error e' =>
        rw [hs, hs'] at hp
        obtain ⟨rfl, hE⟩ := hp
        simp only [Script.exec, hs, hs']
        exact ⟨trivial, fun _ h => (by cases h), fun _ _ => hE⟩
      | ok c' =>
        rw [hs, hs'] at hp
        exact hp.elim
    | ok c =>
      cases hs' : stmt s'.work with
      | error e' =>
        rw [hs, hs'] at hp
        exact hp.elim
      | ok c' =>
        rw [hs, hs'] at hp
        simp only [Script.exec, hs, hs']
        rw [hp.1]
        exact exec hp.2
  | .command c k, s, s', hp => by
    have hcommand : (Script.command c k).exec s' t =
        (k (c s.store t).2).exec { s' with store := (c s'.store t).1 } t := by
      rw [Script.exec, hp.1]
    rw [hcommand]
    exact exec hp.2
  | .commit k, _, _, hp => exec (p := k) hp

theorem serve {p : Script σ ρ τ ε α} {w w' : World σ τ} {R : World σ τ → World σ τ → Prop}
    (h : Twin t p ⟨w.db, w.db, w.store⟩ ⟨w'.db, w'.db, w'.store⟩
      (fun _ d d' => R ⟨d.work, d.store⟩ ⟨d'.work, d'.store⟩) R) :
    (p.serve w' t).1 = (p.serve w t).1 ∧ R (p.serve w t).2 (p.serve w' t).2 := by
  obtain ⟨hres, hok, herror⟩ := h.exec
  unfold Script.serve
  cases hw : p.exec ⟨w.db, w.db, w.store⟩ t with
  | mk r d =>
    cases hw' : p.exec ⟨w'.db, w'.db, w'.store⟩ t with
    | mk r' d' =>
      rw [hw, hw'] at hres hok herror
      cases hres
      cases r with
      | ok a => exact ⟨rfl, hok a rfl⟩
      | error e => exact ⟨rfl, herror e rfl⟩

/-! ## 3. Repository methods -/

theorem query_bind (f : α → Prog σ ρ Empty ε β) : ∀ p : Prog σ ρ Empty ε α,
    (Script.query (p.bind f) : Script σ ρ τ ε β) = (Script.query p).bind fun a => Script.query (f a)
  | .ret _ => rfl
  | .raise _ => rfl
  | .read q k => congrArg (Script.read q) (funext fun b => query_bind f (k b))
  | .clock k => congrArg Script.clock (funext fun t => query_bind f (k t))
  | .lock l _ => l.elim
  | .tryLock l _ => l.elim
  | .write stmt k => congrArg (Script.write stmt) (funext fun n => query_bind f (k n))

theorem query {f : α → Prog σ ρ Empty ε β} {p : Prog σ ρ Empty ε α}
    {Q' : β → Midway σ τ → Midway σ τ → Prop}
    (hp : Twin t (Script.query p : Script σ ρ τ ε α) s s' Q E)
    (hf : ∀ a d d', Q a d d' → Twin t (Script.query (f a)) d d' Q' E) :
    Twin t (Script.query (p.bind f) : Script σ ρ τ ε β) s s' Q' E := by
  rw [query_bind]
  exact hp.bind hf

theorem select {q : σ → Int → α} (hq : q s'.work t = q s.work t) (h : Q (q s.work t) s s') :
    Twin t (Script.query (Prog.select q) : Script σ ρ τ ε α) s s' Q E := ⟨hq, h⟩

/-- A write that both make. -/
theorem execute {stmt : σ → Except ε (Change σ ρ)} {Q : Unit → Midway σ τ → Midway σ τ → Prop}
    {c c' : Change σ ρ} (hc : stmt s.work = .ok c) (hc' : stmt s'.work = .ok c')
    (h : Q () { s with work := c.apply s.work } { s' with work := c'.apply s'.work }) :
    Twin t (Script.query (Prog.execute stmt) : Script σ ρ τ ε Unit) s s' Q E := by
  simp only [Prog.execute, Script.query, Twin]
  rw [hc, hc']
  exact ⟨trivial, h⟩

/-- A write that both refuse. -/
theorem refused {stmt : σ → Except ε (Change σ ρ)} {Q : Unit → Midway σ τ → Midway σ τ → Prop}
    {e : ε} (he : stmt s.work = .error e) (he' : stmt s'.work = .error e)
    (h : E ⟨s.db, s.store⟩ ⟨s'.db, s'.store⟩) :
    Twin t (Script.query (Prog.execute stmt) : Script σ ρ τ ε Unit) s s' Q E := by
  simp only [Prog.execute, Script.query, Twin]
  rw [he, he']
  exact ⟨rfl, h⟩

end Twin

end NewlifeCore.Txn.Script
