import NewlifeCore.Txn.Exec

/-!
# Calls served one after the other

`InTurn body ok db₀ db`: from `db₀` a sequence of calls, each run alone as one transaction at some
instant, leads to `db`; a call that raises leaves the database as it was.  `ok` is what is asked
of a call when it is made.
-/

namespace NewlifeCore.Txn

variable {σ ρ κ ε L : Type} [RowStore σ ρ] {body : L → Prog σ ρ κ ε Unit}
  {ok ok' : σ → Int → L → Prop} {db₀ db : σ}

/-- **The states that sequences of calls reach.** -/
inductive InTurn (body : L → Prog σ ρ κ ε Unit) (ok : σ → Int → L → Prop) (db₀ : σ) : σ → Prop
  | refl : InTurn body ok db₀ db₀
  | call {db : σ} (l : L) (t : Int) : InTurn body ok db₀ db → ok db t l →
      InTurn body ok db₀ ((body l).after db t)

namespace Prog

/-- What holds before a call, and after it when it returned, holds after it. -/
theorem after_ind {p : Prog σ ρ κ ε Unit} {t : Int} {I : σ → Prop} (h : I db)
    (hret : ∀ db', p.exec db t = .ok ((), db') → I db') : I (p.after db t) := by
  unfold after
  cases hp : p.exec db t with
  | error e => exact h
  | ok r => exact hret r.2 hp

end Prog

namespace InTurn

/-- **What every returning call keeps, every sequence of calls keeps.** -/
theorem invariant {I : σ → Prop} (h₀ : I db₀)
    (hstep : ∀ l t db db', I db → ok db t l → (body l).exec db t = .ok ((), db') → I db')
    (h : InTurn body ok db₀ db) : I db := by
  induction h with
  | refl => exact h₀
  | call l t _ hok ih => exact Prog.after_ind ih fun db' hret => hstep l t _ db' ih hok hret

theorem mono (himp : ∀ db t l, ok db t l → ok' db t l) (h : InTurn body ok db₀ db) :
    InTurn body ok' db₀ db := by
  induction h with
  | refl => exact .refl
  | call l t _ hok ih => exact .call l t ih (himp _ _ _ hok)

end InTurn

end NewlifeCore.Txn
