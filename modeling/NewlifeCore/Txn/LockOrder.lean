import Mathlib.Data.Fintype.EquivFin
import Mathlib.Logic.Relation
import Mathlib.Order.WellFounded
import NewlifeCore.Txn.Interleaving

/-!
# Locks taken in one order

A program that takes its advisory locks before its first write, each above those it holds by some
rank, has no row of its own while it waits for a lock.  Whoever waits for it then waits for a lock
too, and for a lower one.  So nobody who waits for an advisory lock is part of a deadlock, however
the transactions are interleaved.
-/

namespace NewlifeCore.Txn

variable {σ ρ κ ε L ι : Type} [RowStore σ ρ] {α β : Type}

/-! ## 1. Programs -/

namespace Prog

/-- The program waits for no advisory lock on any of its paths. -/
def LockFree : Prog σ ρ κ ε α → Prop
  | ret _ => True
  | raise _ => True
  | read _ k => ∀ b, LockFree (k b)
  | clock k => ∀ t, LockFree (k t)
  | lock _ _ => False
  | tryLock _ k => ∀ b, LockFree (k b)
  | write _ k => ∀ n, LockFree (k n)

/-- **Locks come first and in order**: with `held` in hand, every lock the program waits for ranks
above those it holds, and once it wrote it waits for none. -/
def LocksUp [LT ι] (rank : κ → ι) : List κ → Prog σ ρ κ ε α → Prop
  | _, ret _ => True
  | _, raise _ => True
  | held, read _ k => ∀ b, LocksUp rank held (k b)
  | held, clock k => ∀ t, LocksUp rank held (k t)
  | held, lock l k => (∀ h ∈ held, rank h < rank l) ∧ LocksUp rank (l :: held) k
  | held, tryLock l k => LocksUp rank (l :: held) (k true) ∧ LocksUp rank held (k false)
  | _, write _ k => ∀ n, LockFree (k n)

namespace LockFree

theorem ret (a : α) : LockFree (ret a : Prog σ ρ κ ε α) := trivial

theorem execute (s : σ → Except ε (Change σ ρ)) : LockFree (Prog.execute (κ := κ) s) :=
  fun _ => trivial

theorem executeCount (s : σ → Except ε (Change σ ρ)) : LockFree (Prog.executeCount (κ := κ) s) :=
  fun _ => trivial

theorem tryAcquire (l : κ) : LockFree (tryAcquire l : Prog σ ρ κ ε Bool) := fun _ => trivial

theorem readOnly : ∀ {p : Prog σ ρ κ ε α}, ReadOnly p → LockFree p
  | .ret _, _ => trivial
  | .raise _, _ => trivial
  | .read _ _, hp => fun b => readOnly (hp b)
  | .clock _, hp => fun t => readOnly (hp t)

theorem bind {f : α → Prog σ ρ κ ε β} (hf : ∀ a, LockFree (f a)) :
    ∀ {p : Prog σ ρ κ ε α}, LockFree p → LockFree (p.bind f)
  | .ret a, _ => hf a
  | .raise _, _ => trivial
  | .read _ _, hp => fun b => bind hf (hp b)
  | .clock _, hp => fun t => bind hf (hp t)
  | .tryLock _ _, hp => fun b => bind hf (hp b)
  | .write _ _, hp => fun n => bind hf (hp n)

/-- What runs after the checks. -/
theorem checked {p : Prog σ ρ κ ε α} {f : α → Prog σ ρ κ ε β} (hp : ReadOnly p)
    (hf : ∀ a, LockFree (f a)) : LockFree (p.bind f) := bind hf (readOnly hp)

theorem compositional : Compositional fun α (p : Prog σ ρ κ ε α) => LockFree p :=
  ⟨readOnly, fun hf _ hp => bind hf hp⟩

theorem locksUp [LT ι] {rank : κ → ι} : ∀ {p : Prog σ ρ κ ε α} {held : List κ},
    LockFree p → LocksUp rank held p
  | .ret _, _, _ => trivial
  | .raise _, _, _ => trivial
  | .read _ _, _, hp => fun b => locksUp (hp b)
  | .clock _, _, hp => fun t => locksUp (hp t)
  | .tryLock _ _, _, hp => ⟨locksUp (hp true), locksUp (hp false)⟩
  | .write _ _, _, hp => hp

end LockFree

namespace LocksUp

variable [Preorder ι] {rank : κ → ι} {held : List κ}

/-- What runs after the checks. -/
theorem checked {f : α → Prog σ ρ κ ε β} (hf : ∀ a, LocksUp rank held (f a)) :
    ∀ {p : Prog σ ρ κ ε α}, ReadOnly p → LocksUp rank held (p.bind f)
  | .ret a, _ => hf a
  | .raise _, _ => trivial
  | .read _ _, hp => fun b => checked hf (hp b)
  | .clock _, hp => fun t => checked hf (hp t)

/-- Locks taken one after the other, upwards. -/
theorem acquireEach (key : α → κ) {f : Unit → Prog σ ρ κ ε β} (hf : LockFree (f ())) :
    ∀ {xs : List α} {held : List κ}, (xs.Pairwise fun a b => rank (key a) < rank (key b)) →
      (∀ x ∈ xs, ∀ h ∈ held, rank h < rank (key x)) →
      LocksUp rank held ((each xs fun x => acquire (key x)).bind f)
  | [], _, _, _ => hf.locksUp
  | x :: xs, held, hsorted, habove => by
    obtain ⟨hx, hrest⟩ := List.pairwise_cons.mp hsorted
    refine ⟨habove x List.mem_cons_self, acquireEach key hf hrest fun y hy h hh => ?_⟩
    rcases List.mem_cons.mp hh with rfl | hh
    · exact hx y hy
    · exact habove y (List.mem_cons_of_mem _ hy) h hh

end LocksUp

end Prog

open Prog

/-! ## 2. Who waits for whom -/

/-- The advisory lock that a transaction is about to take. -/
def Tx.awaited (tx : Tx σ ρ κ ε L) : Option κ :=
  match tx.prog with
  | .lock l _ => some l
  | _ => none

/-- A lock or a row that `tx` asks for is held by `o`. -/
def Tx.WaitsFor (tx o : Tx σ ρ κ ε L) : Prop :=
  (∃ l, tx.awaited = some l ∧ l ∈ o.locks) ∨ ∃ c, tx.issued = some c ∧ ∃ x ∈ c.rows, x ∈ o.rows

namespace Sys

/-- **The wait-for graph** of the open transactions, by their places. -/
def Waits (s : Sys σ ρ κ ε L) (i j : Nat) : Prop :=
  i ≠ j ∧ ∃ tx o, s.txs[i]? = some tx ∧ s.txs[j]? = some o ∧ tx.WaitsFor o

/-- The advisory lock that the transaction at place `i` is about to take. -/
def awaits (s : Sys σ ρ κ ε L) (i : Nat) : Option κ := s.txs[i]?.bind Tx.awaited

/-- The transaction at place `i` waits for a row. -/
def AwaitsRow (s : Sys σ ρ κ ε L) (i : Nat) : Prop :=
  ∃ tx c, s.txs[i]? = some tx ∧ tx.issued = some c

/-- **The transaction at place `i` can go on**: it is begun, executes its next statement or
commits; or it raised, and is to be rolled back. -/
def GoesOn [DecidableEq ρ] [DecidableEq κ] (body : L → Prog σ ρ κ ε Unit) (s : Sys σ ρ κ ε L)
    (i : Nat) : Prop :=
  (step body s (.start i)).isSome ∨ (step body s (.statement i)).isSome ∨
    (step body s (.commit i)).isSome ∨ ∃ tx e, s.txs[i]? = some tx ∧ tx.prog = .raise e

end Sys

/-- What holds of a transaction whose program takes its locks first and in order. -/
structure Tx.Orderly [LT ι] (rank : κ → ι) (tx : Tx σ ρ κ ε L) : Prop where
  ahead : LocksUp rank tx.locks tx.prog
  written : tx.rows ≠ [] → LockFree tx.prog

/-! ## 3. Every run is orderly -/

section Runs

variable [Preorder ι] {rank : κ → ι} [DecidableEq ρ] [DecidableEq κ]
  {body : L → Prog σ ρ κ ε Unit} {ok : Sys σ ρ κ ε L → Action L → Prop} {s s' : Sys σ ρ κ ε L}

theorem Tx.statement_orderly {tx tx' : Tx σ ρ κ ε L} {db : σ} {clock : Int}
    {others : List (Tx σ ρ κ ε L)} (h : tx.statement db clock others = some tx')
    (ho : tx.Orderly rank) : tx'.Orderly rank := by
  obtain ⟨hahead, hwritten⟩ := ho
  unfold statement at h
  split at h
  · cases h
  · cases h
  · rename_i q k hp
    rw [hp] at hahead hwritten
    cases h
    exact ⟨hahead _, fun hr => hwritten hr _⟩
  · rename_i k hp
    rw [hp] at hahead hwritten
    cases h
    exact ⟨hahead _, fun hr => hwritten hr _⟩
  · rename_i l k hp
    rw [hp] at hahead hwritten
    split at h
    · cases h
      exact ⟨hahead.2, fun hr => (hwritten hr).elim⟩
    · cases h
  · rename_i l k hp
    rw [hp] at hahead hwritten
    split at h
    · cases h
      exact ⟨hahead.1, fun hr => hwritten hr _⟩
    · cases h
      exact ⟨hahead.2, fun hr => hwritten hr _⟩
  · rename_i stmt k hp
    have hfree : ∀ n, LockFree (k n) := by
      rw [hp] at hahead
      exact hahead
    split at h
    · split at h
      · cases h
        exact ⟨trivial, fun _ => trivial⟩
      · dsimp only at h
        split at h
        · cases h
          exact ⟨(hfree _).locksUp, fun _ => hfree _⟩
        · split at h
          · cases h
            exact ⟨hahead, hwritten⟩
          · cases h
    · cases h

theorem orderly_step (hbody : ∀ l, LocksUp rank [] (body l)) {a : Action L}
    (h : step body s a = some s') (ho : ∀ tx ∈ s.txs, tx.Orderly rank) :
    ∀ tx ∈ s'.txs, tx.Orderly rank := by
  rcases step_cases h with ⟨t, -, -, rfl⟩ | ⟨l, -, rfl⟩ | ⟨i, pre, tx, post, -, hf, -, rfl⟩ |
    ⟨i, pre, tx, post, tx', -, hf, ht, rfl⟩ | ⟨i, pre, tx, post, u, -, hf, -, rfl⟩ |
    ⟨i, pre, tx, post, -, hf, rfl⟩
  · exact ho
  · intro tx htx
    rcases List.mem_append.mp htx with htx | htx
    · exact ho tx htx
    · obtain rfl := List.mem_singleton.mp htx
      exact ⟨hbody l, fun hr => absurd rfl hr⟩
  all_goals
    have htxs : ∀ o ∈ pre ++ tx :: post, o.Orderly rank := focus_some hf ▸ ho
    have htx : tx.Orderly rank := htxs tx (by simp)
    intro o hmem
  · rcases List.mem_append.mp hmem with hmem | hmem
    · exact htxs o (by simp [hmem])
    · rcases List.mem_cons.mp hmem with rfl | hmem
      · exact ⟨htx.ahead, htx.written⟩
      · exact htxs o (by simp [hmem])
  · rcases List.mem_append.mp hmem with hmem | hmem
    · exact htxs o (by simp [hmem])
    · rcases List.mem_cons.mp hmem with rfl | hmem
      · exact Tx.statement_orderly ht htx
      · exact htxs o (by simp [hmem])
  all_goals
    rcases List.mem_append.mp hmem with hmem | hmem
    · exact htxs o (by simp [hmem])
    · exact htxs o (by simp [hmem])

theorem orderly_run (hbody : ∀ l, LocksUp rank [] (body l)) {db : σ} {t : Int}
    (h : Run body ok (Sys.idle db t) s) : ∀ tx ∈ s.txs, tx.Orderly rank := by
  induction h with
  | refl => exact fun tx htx => absurd htx List.not_mem_nil
  | tail a _ _ hstep ih => exact orderly_step hbody hstep ih

end Runs

/-! ## 4. No deadlock over locks -/

theorem mem_others {A : Type*} {xs : List A} {i : Nat} {o : A}
    (h : o ∈ xs.take i ++ xs.drop (i + 1)) : ∃ j, i ≠ j ∧ xs[j]? = some o := by
  rcases List.mem_append.mp h with h | h
  · obtain ⟨j, hj, rfl⟩ := List.mem_take_iff_getElem.mp h
    exact ⟨j, by omega, List.getElem?_eq_getElem _⟩
  · obtain ⟨j, hj, rfl⟩ := List.mem_drop_iff_getElem.mp h
    exact ⟨i + 1 + j, by omega, List.getElem?_eq_getElem _⟩

section Deadlock

variable [LinearOrder ι] {rank : κ → ι} {s : Sys σ ρ κ ε L}

/-- Who is about to take a lock has written nothing, and holds only lower locks. -/
theorem Tx.Orderly.awaiting {tx : Tx σ ρ κ ε L} (h : tx.Orderly rank) {l : κ}
    (hl : tx.awaited = some l) : tx.rows = [] ∧ ∀ held ∈ tx.locks, rank held < rank l := by
  unfold awaited at hl
  split at hl
  · rename_i l' k hp
    cases hl
    refine ⟨by_contra fun hr => ?_, ?_⟩
    · have := h.written hr
      rw [hp] at this
      exact this
    · have := h.ahead
      rw [hp] at this
      exact this.1
  · cases hl

namespace Sys

/-- Who waits for one that is about to take a lock is about to take a lower one. -/
theorem Waits.lower (ho : ∀ tx ∈ s.txs, tx.Orderly rank) {i j : Nat} {l : κ} (h : s.Waits j i)
    (hl : s.awaits i = some l) : ∃ l', s.awaits j = some l' ∧ rank l' < rank l := by
  obtain ⟨-, tx, o, htx, hotx, hwaits⟩ := h
  obtain ⟨o', ho', hawaited⟩ := Option.bind_eq_some_iff.mp hl
  obtain rfl := Option.some.inj (hotx.symm.trans ho')
  obtain ⟨hrows, hlocks⟩ := (ho o (List.mem_of_getElem? hotx)).awaiting hawaited
  rcases hwaits with ⟨l', hl', hheld⟩ | ⟨c, -, x, -, hx⟩
  · exact ⟨l', Option.bind_eq_some_iff.mpr ⟨tx, htx, hl'⟩, hlocks l' hheld⟩
  · rw [hrows] at hx
    cases hx

theorem waitsLong_lower (ho : ∀ tx ∈ s.txs, tx.Orderly rank) {i j : Nat} {l : κ}
    (h : Relation.TransGen s.Waits j i) (hl : s.awaits i = some l) :
    ∃ l', s.awaits j = some l' ∧ rank l' < rank l := by
  induction h using Relation.TransGen.head_induction_on with
  | single h => exact h.lower ho hl
  | head h _ ih =>
    obtain ⟨l₁, hl₁, hlt₁⟩ := ih
    obtain ⟨l₂, hl₂, hlt₂⟩ := h.lower ho hl₁
    exact ⟨l₂, hl₂, lt_trans hlt₂ hlt₁⟩

/-- **Nobody who waits for an advisory lock is on a cycle of the wait-for graph.** -/
theorem awaiting_off_cycle (ho : ∀ tx ∈ s.txs, tx.Orderly rank) {i : Nat} {l : κ}
    (hl : s.awaits i = some l) : ¬ Relation.TransGen s.Waits i i := by
  intro h
  obtain ⟨l', hl', hlt⟩ := waitsLong_lower ho h hl
  obtain rfl := Option.some.inj (hl'.symm.trans hl)
  exact lt_irrefl _ hlt

end Sys

/-! ### 4.1 Somebody goes on -/

variable [DecidableEq ρ] [DecidableEq κ] {body : L → Prog σ ρ κ ε Unit}

omit [DecidableEq ρ] [DecidableEq κ] in
theorem focus_getElem? {i : Nat} {tx : Tx σ ρ κ ε L} (h : s.txs[i]? = some tx) :
    focus s.txs i = some (s.txs.take i, tx, s.txs.drop (i + 1)) := by
  obtain ⟨hi, rfl⟩ := List.getElem?_eq_some_iff.mp h
  unfold focus
  rw [List.drop_eq_getElem_cons hi]

namespace Sys

/-- **What keeps a transaction from going on**: a lock that another one holds, or a row. -/
theorem stays_cases {i : Nat} {tx : Tx σ ρ κ ε L} (htx : s.txs[i]? = some tx)
    (h : ¬ s.GoesOn body i) : (∃ l j, s.awaits i = some l ∧ s.Waits i j) ∨ s.AwaitsRow i := by
  have hfocus := focus_getElem? htx
  simp only [GoesOn, not_or] at h
  obtain ⟨hstart, hstatement, hcommit, hraise⟩ := h
  have hstarted : tx.started.isSome := by
    simp only [step, hfocus] at hstart
    cases hs : tx.started with
    | none => simp [hs] at hstart
    | some _ => rfl
  simp only [step, hfocus, Option.isSome_map] at hstatement
  unfold Tx.statement at hstatement
  cases hp : tx.prog with
  | ret a => simp [step, hfocus, hp] at hcommit
  | raise e => exact absurd ⟨tx, e, htx, hp⟩ hraise
  | read q k => simp [hp] at hstatement
  | clock k => simp [hp] at hstatement
  | lock l k =>
    have hbusy : keyFree (s.txs.take i ++ s.txs.drop (i + 1)) l = false := by
      simpa [hp, hstarted] using hstatement
    simp only [keyFree, List.all_eq_false] at hbusy
    obtain ⟨o, ho, hheld⟩ := hbusy
    obtain ⟨j, hij, hj⟩ := mem_others ho
    have hawaited : tx.awaited = some l := by simp [Tx.awaited, hp]
    exact .inl ⟨l, j, Option.bind_eq_some_iff.mpr ⟨tx, htx, hawaited⟩, hij, tx, o, htx, hj,
      .inl ⟨l, hawaited, by simpa using hheld⟩⟩
  | tryLock l k =>
    rw [hp] at hstatement
    dsimp only at hstatement
    split at hstatement <;> simp at hstatement
  | write stmt k =>
    rw [hp] at hstatement
    simp only [hstarted, if_true] at hstatement
    split at hstatement
    · simp at hstatement
    · split at hstatement
      · simp at hstatement
      · cases hiss : tx.issued with
        | none => simp [hiss] at hstatement
        | some c => exact .inr ⟨tx, c, htx, hiss⟩

/-- **While nobody waits for a row, somebody goes on.** -/
theorem someone_goesOn (ho : ∀ tx ∈ s.txs, tx.Orderly rank) (hopen : s.txs ≠ [])
    (hrows : ∀ i, ¬ s.AwaitsRow i) : ∃ i < s.txs.length, s.GoesOn body i := by
  by_contra hstuck
  simp only [not_exists, not_and] at hstuck
  have hwaits : ∀ i < s.txs.length, ∃ l j, s.awaits i = some l ∧ s.Waits i j := fun i hi =>
    (stays_cases (List.getElem?_eq_getElem hi) (hstuck i hi)).resolve_right (hrows i)
  -- everyone waits for a lock, so the wait-for graph has no cycle, yet everyone waits for somebody
  let later : Fin s.txs.length → Fin s.txs.length → Prop := fun j i =>
    Relation.TransGen s.Waits i j
  have htrans : IsTrans _ later := ⟨fun _ _ _ h₁ h₂ => h₂.trans h₁⟩
  have hirrefl : Std.Irrefl later := ⟨fun i h => by
    obtain ⟨l, -, hl, -⟩ := hwaits i i.2
    exact awaiting_off_cycle ho hl h⟩
  have hwf := Finite.wellFounded_of_trans_of_irrefl later
  have hpos : 0 < s.txs.length := List.length_pos_iff.mpr hopen
  obtain ⟨i, -, hmin⟩ := hwf.has_min Set.univ ⟨⟨0, hpos⟩, trivial⟩
  obtain ⟨l, j, -, hij⟩ := hwaits i i.2
  have hj : j < s.txs.length := by
    obtain ⟨-, tx, o, -, ho', -⟩ := hij
    exact (List.getElem?_eq_some_iff.mp ho').1
  exact hmin ⟨j, hj⟩ trivial (.single hij)

end Sys

end Deadlock

end NewlifeCore.Txn
