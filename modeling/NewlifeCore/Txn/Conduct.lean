import NewlifeCore.Txn.Desk
import NewlifeCore.Txn.Twins

/-!
# What a request keeps to

Side by side with others, a request is looked at statement by statement: between two of them anybody
may have committed.  `Conducts I W Q` is what it can be relied on for all the same.  As long as the
databases it sees meet `I`, each of its writes is one of `W`, and what it returns meets `Q`.

* It is a property of the script alone, put together along its binds (`Conducts.bind`,
  `Conducts.tryCatch`, `Conducts.query_bind`).
* One step of a request keeps it, and what its session has written stays one of `W`
  (`Conducts.act`).
* So requests that begin while `I` can be relied on return what meets `Q`, whoever runs beside them
  (`Conducts.run`).
* A request that only looks is never kept waiting: from any moment on it can be served at once, to
  the result it has alone (`Desk.served_at_once`).
-/

namespace NewlifeCore.Txn

variable {σ ρ τ ε α β L : Type} [RowStore σ ρ]

namespace Script

/-! ## 1. Conduct -/

/-- **What a request keeps to**, whatever else is committed between its statements. -/
def Conducts (I : σ → Int → Prop) (W : (σ → σ) → Prop) (Q : α → Prop) : Script σ ρ τ ε α → Prop
  | .ret a => Q a
  | .raise _ => True
  | .read q k => ∀ db t, I db t → Conducts I W Q (k (q db t))
  | .clock k => ∀ db t, I db t → Conducts I W Q (k t)
  | .write stmt k => ∀ db t c, I db t → stmt db = .ok c →
      W c.apply ∧ Conducts I W Q (k c.rows.length)
  | .command c k => ∀ r t, Conducts I W Q (k (c r t).2)
  | .commit k => Conducts I W Q k

/-- The request only looks. -/
def Looks : Script σ ρ τ ε α → Prop
  | .ret _ => True
  | .raise _ => True
  | .read _ k => ∀ b, Looks (k b)
  | .clock k => ∀ t, Looks (k t)
  | .write _ _ => False
  | .command c k => ∀ r t, Looks (k (c r t).2)
  | .commit _ => False

theorem Looks.bind {f : α → Script σ ρ τ ε β} (hf : ∀ a, Looks (f a)) :
    ∀ {p : Script σ ρ τ ε α}, Looks p → Looks (p.bind f)
  | .ret a, _ => hf a
  | .raise _, _ => trivial
  | .read _ _, hp => fun b => bind hf (hp b)
  | .clock _, hp => fun t => bind hf (hp t)
  | .write _ _, hp => hp.elim
  | .command _ _, hp => fun r t => bind hf (hp r t)
  | .commit _, hp => hp.elim

namespace Conducts

variable {I I' : σ → Int → Prop} {W W' : (σ → σ) → Prop} {Q : α → Prop} {Q' : β → Prop}

theorem bind {f : α → Script σ ρ τ ε β} (hf : ∀ a, Q a → Conducts I W Q' (f a)) :
    ∀ {p : Script σ ρ τ ε α}, Conducts I W Q p → Conducts I W Q' (p.bind f)
  | .ret a, hp => hf a hp
  | .raise _, _ => trivial
  | .read _ _, hp => fun db t hI => bind hf (hp db t hI)
  | .clock _, hp => fun db t hI => bind hf (hp db t hI)
  | .write _ _, hp => fun db t c hI hc => (hp db t c hI hc).imp_right (bind hf)
  | .command _ _, hp => fun r t => bind hf (hp r t)
  | .commit k, hp => bind (p := k) hf hp

/-- Exceptions that are turned into exceptions. -/
theorem tryCatch {h : ε → Script σ ρ τ ε α} (hh : ∀ e, Conducts I W Q (h e)) :
    ∀ {p : Script σ ρ τ ε α}, Conducts I W Q p → Conducts I W Q (p.tryCatch h)
  | .ret _, hp => hp
  | .raise e, _ => hh e
  | .read _ _, hp => fun db t hI => tryCatch hh (hp db t hI)
  | .clock _, hp => fun db t hI => tryCatch hh (hp db t hI)
  | .write _ _, hp => fun db t c hI hc => (hp db t c hI hc).imp_right (tryCatch hh)
  | .command _ _, hp => fun r t => tryCatch hh (hp r t)
  | .commit k, hp => tryCatch (p := k) hh hp

theorem mono (hI : ∀ db t, I' db t → I db t) (hW : ∀ f, W f → W' f) :
    ∀ {p : Script σ ρ τ ε α}, Conducts I W Q p → Conducts I' W' Q p
  | .ret _, hp => hp
  | .raise _, _ => trivial
  | .read _ _, hp => fun db t h => mono hI hW (hp db t (hI db t h))
  | .clock _, hp => fun db t h => mono hI hW (hp db t (hI db t h))
  | .write _ _, hp => fun db t c h hc =>
    ⟨hW _ (hp db t c (hI db t h) hc).1, mono hI hW (hp db t c (hI db t h) hc).2⟩
  | .command _ _, hp => fun r t => mono hI hW (hp r t)
  | .commit k, hp => mono (p := k) hI hW hp

theorem query_bind {f : α → Prog σ ρ Empty ε β} {p : Prog σ ρ Empty ε α}
    (hp : Conducts I W Q (query p : Script σ ρ τ ε α))
    (hf : ∀ a, Q a → Conducts I W Q' (query (f a) : Script σ ρ τ ε β)) :
    Conducts I W Q' (query (p.bind f) : Script σ ρ τ ε β) := by
  rw [Twin.query_bind]
  exact bind hf hp

theorem not_ok {p : Script σ ρ τ ε α} (hp : Conducts I W (fun _ => False) p) (a : α) :
    p.result ≠ some (.ok a) := by
  intro h
  rw [Script.result_ok h] at hp
  exact hp

/-! ## 2. One step -/

variable [DecidableEq ρ] {s s' : Desk σ ρ τ ε α L} {n : Nat} {v : Visit σ ρ τ ε α L}

/-- **A step of a request that keeps to `W`**: it goes on keeping to it, and what is committed is
what was, or what its session had written. -/
theorem act (hv : Conducts I W Q v.script) (hown : W v.own) (hid : W id)
    (hcomp : ∀ f g, W f → W g → W (f ∘ g)) (hI : I (v.own s.db) s.clock)
    (h : s.act n v = some s') :
    ∃ v', s.ActedTo s' n v' ∧ v'.label = v.label ∧ Conducts I W Q v'.script ∧ W v'.own ∧
      (s'.db = s.db ∨ s'.db = v.own s.db) := by
  obtain ⟨label, script, own, rows, saw⟩ := v
  cases script with
  | ret a => cases h
  | raise e => cases h
  | read q k =>
    cases h
    exact ⟨_, ⟨rfl, rfl, rfl⟩, rfl, hv _ _ hI, hown, .inl rfl⟩
  | clock k =>
    cases h
    exact ⟨_, ⟨rfl, rfl, rfl⟩, rfl, hv _ _ hI, hown, .inl rfl⟩
  | write stmt k =>
    simp only [Desk.act] at h
    split at h
    · cases h
      exact ⟨_, ⟨rfl, rfl, rfl⟩, rfl, trivial, hown, .inl rfl⟩
    · rename_i c hstmt
      obtain ⟨hchange, hrest⟩ := hv _ _ c hI hstmt
      split at h
      · cases h
        exact ⟨_, ⟨rfl, rfl, rfl⟩, rfl, hrest, hcomp c.apply own hchange hown, .inl rfl⟩
      · cases h
  | command c k =>
    cases h
    exact ⟨_, ⟨rfl, rfl, rfl⟩, rfl, hv _ _, hown, .inl rfl⟩
  | commit k =>
    cases h
    exact ⟨_, ⟨rfl, rfl, rfl⟩, rfl, hv, hid, .inr rfl⟩

/-! ## 3. Requests that begin later -/

variable {body : L → Script σ ρ τ ε α} {a : Turn L} {P : L → Prop} {first : Nat}

theorem step (h : ∀ n v, first ≤ n → s.visits n = some v → P v.label → Conducts I (fun _ => True) Q v.script)
    (hI : ∀ n v, first ≤ n → s.visits n = some v → P v.label → I (v.own s.db) s.clock)
    (hbody : ∀ l, P l → Conducts I (fun _ => True) Q (body l)) (hstep : s.step body a = some s') :
    ∀ n v, first ≤ n → s'.visits n = some v → P v.label → Conducts I (fun _ => True) Q v.script := by
  intro m w hm hw hP
  rcases Desk.step_cases hstep with ⟨t, -, -, rfl⟩ | ⟨l, -, rfl⟩ | ⟨n, v, -, hv, hact⟩ |
    ⟨n, v, -, hv, hend⟩
  · exact h m w hm hw hP
  · rcases Desk.put_cases hw with ⟨-, hw⟩ | ⟨-, hw⟩
    · obtain rfl := Option.some.inj hw
      exact hbody l hP
    · exact h m w hm hw hP
  · obtain ⟨v', hlabel, hsame⟩ := Desk.act_label hact
    rcases hsame.cases hw with ⟨rfl, rfl⟩ | ⟨-, hw⟩
    · obtain ⟨v₁, hto, -, hv₁, -⟩ := (h m v hm hv (hlabel ▸ hP)).act trivial trivial
        (fun _ _ _ _ => trivial) (hI m v hm hv (hlabel ▸ hP)) hact
      rw [Option.some.inj (hto.self.symm.trans hw)] at hv₁
      exact hv₁
    · exact h m w hm hw hP
  · exact h m w hm (Desk.finish_other hend hw).2 hP

/-- **Requests that begin after some moment**, `I` being met by whatever they see from then on. -/
theorem run {ok : Desk σ ρ τ ε α L → Turn L → Prop} {s₁ : Desk σ ρ τ ε α L} (hvacant : s₁.Vacant)
    (hI : ∀ s, Desk.Run body ok s₁ s → ∀ n v, s₁.next ≤ n → s.visits n = some v → P v.label →
      I (v.own s.db) s.clock)
    (hbody : ∀ l, P l → Conducts I (fun _ => True) Q (body l)) (hrun : Desk.Run body ok s₁ s') :
    ∀ n v, s₁.next ≤ n → s'.visits n = some v → P v.label → Conducts I (fun _ => True) Q v.script := by
  induction hrun with
  | refl =>
    intro n v hn hv
    rw [hvacant n hn] at hv
    cases hv
  | tail a hrun _ hstep ih => exact step ih (hI _ hrun) hbody hstep

end Conducts

end Script

/-! ## 4. Served at once -/

variable [DecidableEq ρ] {body : L → Script σ ρ τ ε α} {ok : Desk σ ρ τ ε α L → Turn L → Prop}
  {n : Nat}

theorem Desk.step_act {s s' : Desk σ ρ τ ε α L} {v : Visit σ ρ τ ε α L}
    (hv : s.visits n = some v) (hact : s.act n v = some s') : s.step body (.act n) = some s' := by
  show (s.visits n).bind (s.act n) = some s'
  rw [hv]
  exact hact

theorem Desk.Run.single {s s' : Desk σ ρ τ ε α L} {a : Turn L} (ha : ok s a)
    (h : s.step body a = some s') : Desk.Run body ok s s' := .tail a .refl ha h

/-- **A request that only looks can be served at once**: its steps alone lead to the result that it
has from here. -/
theorem Desk.served_at_once (hok : ∀ s, ok s (.act n)) :
    ∀ (p : Script σ ρ τ ε α) (_ : p.Looks) (s : Desk σ ρ τ ε α L) (v : Visit σ ρ τ ε α L),
      s.visits n = some v → v.script = p → ∃ s' v', Desk.Run body ok s s' ∧
        s'.visits n = some v' ∧ v'.label = v.label ∧
          v'.script.result = some (p.exec (s.midway v) s.clock).1 := by
  intro p
  induction p with
  | ret a =>
    intro _ s v hv hscript
    refine ⟨s, v, .refl, hv, rfl, ?_⟩
    rw [hscript]
    rfl
  | raise e =>
    intro _ s v hv hscript
    refine ⟨s, v, .refl, hv, rfl, ?_⟩
    rw [hscript]
    rfl
  | read q k ih =>
    intro hp s v hv hscript
    let v₁ : Visit σ ρ τ ε α L := { v with script := k (q (v.own s.db) s.clock), saw := s.db }
    have hact : s.act n v = some (s.put n (some v₁)) := by
      unfold Desk.act
      rw [hscript]
    obtain ⟨s', v', hrun, hv', hlabel, hr⟩ := ih _ (hp _) (s.put n (some v₁)) v₁ (if_pos rfl) rfl
    exact ⟨s', v', (Run.single (hok s) (step_act hv hact)).trans hrun, hv', hlabel, hr⟩
  | clock k ih =>
    intro hp s v hv hscript
    let v₁ : Visit σ ρ τ ε α L := { v with script := k s.clock }
    have hact : s.act n v = some (s.put n (some v₁)) := by
      unfold Desk.act
      rw [hscript]
    obtain ⟨s', v', hrun, hv', hlabel, hr⟩ := ih _ (hp _) (s.put n (some v₁)) v₁ (if_pos rfl) rfl
    exact ⟨s', v', (Run.single (hok s) (step_act hv hact)).trans hrun, hv', hlabel, hr⟩
  | write stmt k => exact fun hp => hp.elim
  | command c k ih =>
    intro hp s v hv hscript
    let v₁ : Visit σ ρ τ ε α L := { v with script := k (c s.store s.clock).2 }
    let s₁ : Desk σ ρ τ ε α L := { s.put n (some v₁) with store := (c s.store s.clock).1 }
    have hact : s.act n v = some s₁ := by
      unfold Desk.act
      rw [hscript]
    obtain ⟨s', v', hrun, hv', hlabel, hr⟩ := ih _ (hp _ _) s₁ v₁ (if_pos rfl) rfl
    exact ⟨s', v', (Run.single (hok s) (step_act hv hact)).trans hrun, hv', hlabel, hr⟩
  | commit k => exact fun hp => hp.elim

end NewlifeCore.Txn
