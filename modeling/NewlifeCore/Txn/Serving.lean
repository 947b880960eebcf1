import NewlifeCore.Txn.Interleaving

/-!
# Following one call through a run

Transactions are named by their place in the list of open ones, and places move when others end.
`Serving` is a stretch of a run in which one transaction stays open, with its place at both ends;
what `wp` proves of its body from the state it began in holds when it can commit.
-/

namespace NewlifeCore.Txn

variable {σ ρ κ ε L : Type} [RowStore σ ρ] [DecidableEq ρ] [DecidableEq κ]

/-- The transaction an action ends. -/
def Action.ended : Action L → Option Nat
  | .commit i => some i
  | .rollback i => some i
  | _ => none

/-- Where the transaction at place `i` is after an action that did not end it. -/
def Action.shift (a : Action L) (i : Nat) : Nat :=
  if a.ended.any fun j => j < i then i - 1 else i

/-- **A stretch of a run that leaves a transaction open**: at place `i₀` of `s₀`, at place `i` of
`s`. -/
inductive Serving (body : L → Prog σ ρ κ ε Unit) (ok : Sys σ ρ κ ε L → Action L → Prop)
    (s₀ : Sys σ ρ κ ε L) (i₀ : Nat) : Sys σ ρ κ ε L → Nat → Prop where
  | refl : Serving body ok s₀ i₀ s₀ i₀
  | tail {s s' i} (a : Action L) : Serving body ok s₀ i₀ s i → ok s a → step body s a = some s' →
      a.ended ≠ some i → Serving body ok s₀ i₀ s' (a.shift i)

@[simp] theorem Action.shift_start (i j : Nat) : (Action.start j : Action L).shift i = i := rfl

@[simp] theorem Action.shift_statement (i j : Nat) :
    (Action.statement j : Action L).shift i = i := rfl

variable {body : L → Prog σ ρ κ ε Unit} {ok : Sys σ ρ κ ε L → Action L → Prop}
  {s s' s₀ : Sys σ ρ κ ε L} {i i₀ : Nat}

omit [DecidableEq ρ] [DecidableEq κ] in
theorem focus_length {txs pre post : List (Tx σ ρ κ ε L)} {tx : Tx σ ρ κ ε L}
    (h : focus txs i = some (pre, tx, post)) : pre.length = i := by
  have hs := focus_some h
  unfold focus at h
  split at h
  · cases h
  · rename_i tx' post' hd
    simp only [Option.some.injEq, Prod.mk.injEq] at h
    rw [← h.1, List.length_take]
    have := congrArg List.length hd
    rw [List.length_drop, List.length_cons] at this
    omega

omit [DecidableEq ρ] [DecidableEq κ] in
/-- The transaction at its place. -/
theorem focus_get {txs pre post : List (Tx σ ρ κ ε L)} {tx : Tx σ ρ κ ε L}
    (h : focus txs i = some (pre, tx, post)) : txs[i]? = some tx := by
  rw [focus_some h, ← focus_length h]
  simp

/-- What a commit is. -/
theorem step_commit (h : step body s (.commit i) = some s') :
    ∃ pre tx post u, focus s.txs i = some (pre, tx, post) ∧ tx.prog = .ret u ∧ s' = { s with
      db := tx.own s.db, txs := pre ++ post,
      finished := s.finished ++ [⟨tx.label, tx.began, s.clock⟩] } := by
  rcases step_cases h with ⟨t, ha, -⟩ | ⟨l, ha, -⟩ | ⟨j, pre, tx, post, ha, -⟩ |
    ⟨j, pre, tx, post, tx', ha, -⟩ | ⟨j, pre, tx, post, u, ha, hf, hp, rfl⟩ |
    ⟨j, pre, tx, post, ha, -⟩
  all_goals first | cases ha; done | skip
  cases ha
  exact ⟨pre, tx, post, u, hf, hp, rfl⟩

omit [DecidableEq ρ] [DecidableEq κ] in
/-- The others keep their places when one is replaced. -/
theorem get_replace {pre post : List (Tx σ ρ κ ε L)} {tx tx' o : Tx σ ρ κ ε L} {i : Nat}
    (hi : i ≠ pre.length) (h : (pre ++ tx :: post)[i]? = some o) :
    (pre ++ tx' :: post)[i]? = some o := by
  rcases Nat.lt_or_ge i pre.length with hlt | hge
  · rwa [List.getElem?_append_left hlt] at h ⊢
  · rw [List.getElem?_append_right hge] at h ⊢
    obtain ⟨k, hk⟩ : ∃ k, i - pre.length = k + 1 := ⟨i - pre.length - 1, by omega⟩
    rw [hk] at h ⊢
    exact h

omit [DecidableEq ρ] [DecidableEq κ] in
/-- Those after one that ends move up. -/
theorem get_remove {pre post : List (Tx σ ρ κ ε L)} {tx o : Tx σ ρ κ ε L} {i : Nat}
    (hi : i ≠ pre.length) (h : (pre ++ tx :: post)[i]? = some o) :
    (pre ++ post)[if pre.length < i then i - 1 else i]? = some o := by
  rcases Nat.lt_or_ge i pre.length with hlt | hge
  · rw [if_neg (by omega), List.getElem?_append_left hlt]
    rwa [List.getElem?_append_left hlt] at h
  · rw [if_pos (by omega), List.getElem?_append_right (by omega)]
    rw [List.getElem?_append_right hge] at h
    obtain ⟨k, hk⟩ : ∃ k, i - pre.length = k + 1 := ⟨i - pre.length - 1, by omega⟩
    rw [hk, List.getElem?_cons_succ] at h
    rwa [show i - 1 - pre.length = k by omega]

theorem Serving.run (h : Serving body ok s₀ i₀ s i) : Run body ok s₀ s := by
  induction h with
  | refl => exact .refl
  | tail a _ ha hs _ ih => exact ih.tail a ha hs

namespace Outline

variable (O : Outline body ok)

/-- **What a call was proved to establish, it has established when it can commit**: from any
moment of its transaction on, whatever the postcondition. -/
theorem serving_ready {Φ : Unit → View σ ρ κ → Prop} (hO : O.Holds s₀) {tx₀ : Tx σ ρ κ ε L}
    (h₀ : s₀.txs[i₀]? = some tx₀) (hr : tx₀.Ready (O.rely tx₀.label) Φ s₀.db s₀.clock)
    (h : Serving body ok s₀ i₀ s i) :
    ∃ tx, s.txs[i]? = some tx ∧ tx.label = tx₀.label ∧
      tx.Ready (O.rely tx.label) Φ s.db s.clock := by
  induction h with
  | refl => exact ⟨tx₀, h₀, rfl, hr⟩
  | @tail s s' i a hserve ha hs hend ih =>
    obtain ⟨tx, htx, hlabel, hready⟩ := ih
    have hold := O.holds_run hO hserve.run
    rcases step_cases hs with ⟨t, rfl, ht, rfl⟩ | ⟨l, rfl, rfl⟩ |
      ⟨j, pre, ty, post, rfl, hf, hn, rfl⟩ | ⟨j, pre, ty, post, ty', rfl, hf, ht, rfl⟩ |
      ⟨j, pre, ty, post, u, rfl, hf, hp, rfl⟩ | ⟨j, pre, ty, post, rfl, hf, rfl⟩
    · refine ⟨tx, htx, hlabel, hready.env ?_⟩
      exact ⟨rfl, rfl, rfl, .inl rfl, (O.rely _).tick _ _ ht, ht, fun _ _ => rfl⟩
    · refine ⟨tx, ?_, hlabel, hready⟩
      exact (List.getElem?_append_left (List.getElem?_eq_some_iff.mp htx).1).trans htx
    all_goals
      have hlen := focus_length hf
      have hget := focus_get hf
      rw [focus_some hf] at htx
    · by_cases hij : i = j
      · subst hij
        rw [focus_some hf, htx] at hget
        cases hget
        exact ⟨{ tx with started := some s.clock }, by simp [← hlen], hlabel, hready.start hn⟩
      · rw [Action.shift_start]
        exact ⟨tx, get_replace (by omega) htx, hlabel, hready⟩
    · by_cases hij : i = j
      · subst hij
        rw [focus_some hf, htx] at hget
        cases hget
        obtain ⟨hl, -⟩ := Tx.statement_label ht
        refine ⟨ty', by simp [← hlen], hl.trans hlabel, ?_⟩
        rw [hl]
        exact Tx.statement_ready hready ht
      · rw [Action.shift_statement]
        exact ⟨tx, get_replace (by omega) htx, hlabel, hready⟩
    · have hij : i ≠ j := fun h => hend (by rw [h]; rfl)
      have hmem : tx ∈ pre ++ post := List.mem_of_getElem? (get_remove (by omega) htx)
      have hplace : (Action.commit j : Action L).shift i = if pre.length < i then i - 1 else i := by
        simp [Action.shift, Action.ended, hlen]
      refine ⟨tx, by rw [hplace]; exact get_remove (by omega) htx, hlabel, hready.env ?_⟩
      have hpost : O.post ty.label ty.began (ty.view s.db s.clock) := by
        have hty := (hold.txs ty (focus_some hf ▸ by simp)).wp
        rw [hp] at hty
        exact hty _ (Env.refl _)
      obtain ⟨-, hrel⟩ := O.commit ha hs hf hold.wf hold.inv hpost
      have hap := (pairwise_focus.mp (focus_some hf ▸ hold.wf.apart)).2 tx hmem
      refine ⟨rfl, rfl, rfl, .inl rfl, hrel tx hmem, le_refl _, fun x hx => ?_⟩
      exact hold.wf.framed ty (focus_some hf ▸ by simp) s.db x fun hx' => hap.2 x hx' hx
    · have hij : i ≠ j := fun h => hend (by rw [h]; rfl)
      have hplace : (Action.rollback j : Action L).shift i =
          if pre.length < i then i - 1 else i := by
        simp [Action.shift, Action.ended, hlen]
      exact ⟨tx, by rw [hplace]; exact get_remove (by omega) htx, hlabel, hready⟩

end Outline

/-- **A call served to its commit**: begun in `s₁`, committed from `s₃` to `s₄`, whatever the others
did meanwhile. -/
def Served (body : L → Prog σ ρ κ ε Unit) (ok : Sys σ ρ κ ε L → Action L → Prop) (l : L)
    (s₁ s₃ s₄ : Sys σ ρ κ ε L) : Prop :=
  ∃ s₂ i, ok s₁ (.begin l) ∧ step body s₁ (.begin l) = some s₂ ∧
    Serving body ok s₂ s₁.txs.length s₃ i ∧ ok s₃ (.commit i) ∧ step body s₃ (.commit i) = some s₄

theorem Served.run {l : L} {s₁ s₃ s₄ : Sys σ ρ κ ε L} (h : Served body ok l s₁ s₃ s₄)
    (hr : Run body ok s₀ s₁) : Run body ok s₀ s₃ ∧ Run body ok s₀ s₄ := by
  obtain ⟨s₂, i, hb, hs, hserve, hc, hs'⟩ := h
  have h₂ : Run body ok s₀ s₂ := hr.tail _ hb hs
  have h₃ : Run body ok s₀ s₃ := by
    clear hs' hc
    induction hserve with
    | refl => exact h₂
    | tail a _ ha hs _ ih => exact ih.tail a ha hs
  exact ⟨h₃, h₃.tail _ hc hs'⟩

/-- What a served call establishes at its commit. -/
theorem Outline.served (O : Outline body ok) {l : L} {s₁ s₃ s₄ : Sys σ ρ κ ε L}
    {Φ : Unit → View σ ρ κ → Prop} (hO : O.Holds s₁) (h : Served body ok l s₁ s₃ s₄)
    (hwp : Prog.wp (O.rely l) (body l) Φ (View.fresh s₁.db s₁.clock)) :
    ∃ i pre tx post, ok s₃ (.commit i) ∧ focus s₃.txs i = some (pre, tx, post) ∧ tx.label = l ∧
      Φ () (tx.view s₃.db s₃.clock) ∧ s₄.db = tx.own s₃.db ∧ s₄.clock = s₃.clock := by
  obtain ⟨s₂, i, hb, hs, hserve, hc, hs'⟩ := h
  have h₂ := O.holds_step hO hb hs
  cases hs
  let tx₀ : Tx σ ρ κ ε L := { Session.fresh with label := l, began := s₁.clock, prog := body l }
  have htx₀ : (s₁.txs ++ [tx₀])[s₁.txs.length]? = some tx₀ := by simp
  obtain ⟨tx, htx, hlabel, hready⟩ := O.serving_ready h₂ htx₀ (.of_wp hwp rfl) hserve
  obtain ⟨pre, ty, post, u, hf, hp, rfl⟩ := step_commit hs'
  have hty := focus_get hf
  rw [htx] at hty
  cases hty
  refine ⟨i, pre, tx, post, hc, hf, hlabel, ?_, rfl, rfl⟩
  have := hready.wp
  rw [hp] at this
  exact this _ (Env.refl _)

end NewlifeCore.Txn
