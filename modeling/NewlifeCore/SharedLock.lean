import Mathlib.Data.List.Nodup
import NewlifeCore.Coroutine

/-!
# Calls on one object, side by side

Any number of coroutines on one object, step by step.  Its lock is asyncio's: it goes to those who
wait in the order they came, a cancelled wait leaves the line, and giving it back asks no one who
they are.  Calls that keep their promise about the lock give it back themselves, end without it, and
can all come to their end.
-/

namespace NewlifeCore

variable {L F C A ε α : Type}

/-! ## 1. The system -/

/-- A call in progress. -/
structure Task (L F C A ε α : Type) where
  label : L
  co : Co F C A ε α

/-- **The object**: its fields, who has the lock, who waits for it, and the calls in progress.
Calls are numbered in the order they begin. -/
structure Shared (L F C A ε α : Type) where
  fields : F
  holder : Option Nat := none
  waiters : List Nat := []
  tasks : Nat → Option (Task L F C A ε α) := fun _ => none
  next : Nat := 0

/-- What may happen next. -/
inductive Shared.Move (L A : Type)
  | begin (label : L)
  /-- A call goes on by itself, or begins to wait for the lock. -/
  | run (n : Nat)
  /-- What a call waits for is there. -/
  | answer (n : Nat) (a : A)
  /-- A wait for the lock is cancelled. -/
  | cancel (n : Nat)
  /-- A call that has returned or raised is over. -/
  | finish (n : Nat)

namespace Shared

variable (s : Shared L F C A ε α)

def put (n : Nat) (t : Option (Task L F C A ε α)) : Shared L F C A ε α :=
  { s with tasks := fun m => if m = n then t else s.tasks m }

variable {s} in
/-- Who is there after call `n` has become `t`. -/
theorem put_cases {n m : Nat} {t : Option (Task L F C A ε α)} {w : Task L F C A ε α}
    (h : (s.put n t).tasks m = some w) :
    (m = n ∧ t = some w) ∨ (m ≠ n ∧ s.tasks m = some w) := by
  by_cases hm : m = n
  · exact .inl ⟨hm, (if_pos hm).symm.trans h⟩
  · exact .inr ⟨hm, (if_neg hm).symm.trans h⟩

/-- The lock is free, and nobody else is next. -/
def grants (n : Nat) : Bool := s.holder = none && (s.waiters = [] || s.waiters.head? = some n)

/-- Call `n` by itself; `none` while it has to wait, and at its end. -/
def run (n : Nat) (t : Task L F C A ε α) : Option (Shared L F C A ε α) :=
  match t.co with
  | .look k => some (s.put n (some { t with co := k s.fields }))
  | .set f k => some { s.put n (some { t with co := k }) with fields := f s.fields }
  | .acquire k =>
    if s.grants n then
      some { s.put n (some { t with co := k true }) with
        holder := some n, waiters := s.waiters.tail }
    else if n ∈ s.waiters then none
    else some { s with waiters := s.waiters ++ [n] }
  | .release k =>
    some { s.put n (some { t with co := k s.holder.isSome }) with holder := none }
  | _ => none

def answer (n : Nat) (t : Task L F C A ε α) (a : A) : Option (Shared L F C A ε α) :=
  match t.co with
  | .call _ k => some (s.put n (some { t with co := k a }))
  | _ => none

def cancel (n : Nat) (t : Task L F C A ε α) : Option (Shared L F C A ε α) :=
  match t.co with
  | .acquire k =>
    if n ∈ s.waiters then
      some { s.put n (some { t with co := k false }) with waiters := s.waiters.erase n }
    else none
  | _ => none

/-- One step; `none` when the move is not possible. -/
def step (body : L → Co F C A ε α) : Move L A → Option (Shared L F C A ε α)
  | .begin label =>
    some { s.put s.next (some { label, co := body label }) with next := s.next + 1 }
  | .run n => (s.tasks n).bind (s.run n)
  | .answer n a => (s.tasks n).bind fun t => s.answer n t a
  | .cancel n => (s.tasks n).bind (s.cancel n)
  | .finish n => (s.tasks n).bind fun t => if t.co.ended then some (s.put n none) else none

/-- The state after a list of moves, each of them possible. -/
def replay (body : L → Co F C A ε α) : Shared L F C A ε α → List (Move L A) →
    Option (Shared L F C A ε α)
  | s, [] => some s
  | s, a :: as => (s.step body a).bind fun s' => replay body s' as

/-- **The runs whose moves all meet `ok`**, move added at the end. -/
inductive Run (body : L → Co F C A ε α) (ok : Shared L F C A ε α → Move L A → Prop)
    (s₀ : Shared L F C A ε α) : Shared L F C A ε α → Prop
  | refl : Run body ok s₀ s₀
  | tail {s s' : Shared L F C A ε α} (a : Move L A) : Run body ok s₀ s → ok s a →
      s.step body a = some s' → Run body ok s₀ s'

/-- The move gives a call nothing but what it can meet. -/
def Within (limits : L → Co.Limits C A) (s : Shared L F C A ε α) (a : Move L A) : Prop :=
  ∀ n t, s.tasks n = some t →
    (∀ r c k, a = .answer n r → t.co = .call c k → (limits t.label).answers c r) ∧
      (a = .cancel n → (limits t.label).cancels)

/-- **The lock is handled correctly** in the runs whose moves meet `ok`: only the call that has it
gives it back, a call that is at its end has it no more, and no call blocks forever: each can still
come to its end, with no wait cancelled. -/
structure Handled (body : L → Co F C A ε α) (ok : Shared L F C A ε α → Move L A → Prop)
    (s₀ : Shared L F C A ε α) : Prop where
  releases : ∀ s n t, Run body ok s₀ s → s.tasks n = some t → t.co.releasing → s.holder = some n
  ends : ∀ s n t, Run body ok s₀ s → s.tasks n = some t → t.co.ended → s.holder ≠ some n
  finishes : ∀ s n t, Run body ok s₀ s → s.tasks n = some t →
    ∃ s', Run body (fun s a => ok s a ∧ ∀ m, a ≠ .cancel m) s s' ∧ s'.tasks n = none

theorem Run.trans {body : L → Co F C A ε α} {ok : Shared L F C A ε α → Move L A → Prop}
    {s₀ s₁ s₂ : Shared L F C A ε α} (h₁ : Run body ok s₀ s₁) (h₂ : Run body ok s₁ s₂) :
    Run body ok s₀ s₂ := by
  induction h₂ with
  | refl => exact h₁
  | tail a _ hok hs ih => exact ih.tail a hok hs

theorem Run.of_replay {body : L → Co F C A ε α} {ok : Shared L F C A ε α → Move L A → Prop} :
    ∀ {as : List (Move L A)} {s₀ s s' : Shared L F C A ε α},
      (∀ a ∈ as, ∀ s, ok s a) → Run body ok s₀ s → replay body s as = some s' → Run body ok s₀ s'
  | [], _, _, _, _, hr, h => by cases h; exact hr
  | a :: as, s₀, s, s', hok, hr, h => by
    obtain ⟨s₁, h₁, h₂⟩ := Option.bind_eq_some_iff.mp h
    have ha := hok a List.mem_cons_self s
    exact Run.of_replay (fun b hb => hok b (List.mem_cons_of_mem a hb)) (hr.tail a ha h₁) h₂

section

variable (limits : L → Co.Limits C A)

/-- A call in progress can meet the answer. -/
def Meets (a : A) (t : Task L F C A ε α) : Prop :=
  ∀ c k, t.co = .call c k → (limits t.label).answers c a

theorem within_answer_iff {n : Nat} {a : A} :
    Within limits s (.answer n a) ↔ ∀ t ∈ s.tasks n, Meets limits a t := by
  constructor
  · exact fun h t ht c k hco => (h n t ht).1 a c k rfl hco
  · intro h m t ht
    refine ⟨fun r c k hr hco => ?_, fun hr => ?_⟩
    · cases hr
      exact h t ht c k hco
    · cases hr

theorem within_cancel_iff {n : Nat} :
    Within limits s (.cancel n) ↔ ∀ t ∈ s.tasks n, (limits t.label).cancels := by
  constructor
  · exact fun h t ht => (h n t ht).2 rfl
  · intro h m t ht
    refine ⟨fun r c k hr hco => ?_, fun hr => ?_⟩
    · cases hr
    · cases hr
      exact h t ht

variable [∀ l c a, Decidable ((limits l).answers c a)]

instance decidableMeets (a : A) : ∀ t : Task L F C A ε α, Decidable (Meets limits a t)
  | ⟨label, .call c _⟩ => decidable_of_iff ((limits label).answers c a)
      ⟨fun h _ _ hco => by cases hco; exact h, fun h => h c _ rfl⟩
  | ⟨_, .ret _⟩ | ⟨_, .throw _⟩ | ⟨_, .look _⟩ | ⟨_, .set _ _⟩ | ⟨_, .acquire _⟩
  | ⟨_, .release _⟩ => .isTrue fun _ _ hco => by cases hco

/-- The limits can be checked as a run goes on. -/
instance decidableWithin [∀ l, Decidable (limits l).cancels] : ∀ a, Decidable (Within limits s a)
  | .answer _ _ => decidable_of_iff' _ (within_answer_iff s limits)
  | .cancel _ => decidable_of_iff' _ (within_cancel_iff s limits)
  | .begin _ | .run _ | .finish _ => .isTrue fun _ _ _ =>
    ⟨(fun _ _ _ h => by cases h), (fun h => by cases h)⟩

end

/-- The state after a list of moves, each of them possible and meeting `ok`. -/
def checkedReplay (body : L → Co F C A ε α) (ok : Shared L F C A ε α → Move L A → Prop)
    [∀ s a, Decidable (ok s a)] : Shared L F C A ε α → List (Move L A) →
    Option (Shared L F C A ε α)
  | s, [] => some s
  | s, a :: as =>
    if ok s a then (s.step body a).bind fun s' => checkedReplay body ok s' as else none

theorem Run.of_checkedReplay {body : L → Co F C A ε α}
    {ok : Shared L F C A ε α → Move L A → Prop} [∀ s a, Decidable (ok s a)]
    {as : List (Move L A)} {s₀ s s' : Shared L F C A ε α} (hr : Run body ok s₀ s)
    (h : checkedReplay body ok s as = some s') : Run body ok s₀ s' := by
  induction as generalizing s with
  | nil =>
    cases h
    exact hr
  | cons a as ih =>
    obtain ⟨hok, h⟩ := Option.ite_none_right_eq_some.mp h
    obtain ⟨s₁, hstep, h⟩ := Option.bind_eq_some_iff.mp h
    exact ih (hr.tail a hok hstep) h

/-! ## 2. What every step keeps -/

section

variable {body : L → Co F C A ε α} {limits : L → Co.Limits C A}

/-- Call `n` has the lock. -/
def holds (s : Shared L F C A ε α) (n : Nat) : Bool := s.holder = some n

/-- The lock is not held at the end. -/
def Released (_ : Except ε α) (held : Bool) : Prop := held = false

/-- **What holds whatever has happened**: every call keeps its promise from where it is, whoever has
the lock is in progress, and those in line are waiting. -/
structure Inv (limits : L → Co.Limits C A) (s : Shared L F C A ε α) : Prop where
  vacant : ∀ n, s.next ≤ n → s.tasks n = none
  spec : ∀ n t, s.tasks n = some t → Co.Spec (limits t.label) Released t.co (s.holds n)
  held : ∀ n, s.holder = some n → ∃ t, s.tasks n = some t
  waiting : ∀ n ∈ s.waiters, ∃ t k, s.tasks n = some t ∧ t.co = .acquire k
  inLine : s.waiters.Nodup

variable {s s' : Shared L F C A ε α} {n : Nat} {t t' : Task L F C A ε α}

theorem holds_iff : s.holds n = true ↔ s.holder = some n := decide_eq_true_iff

theorem holds_false_iff : s.holds n = false ↔ s.holder ≠ some n := decide_eq_false_iff_not

theorem Inv.lt_next (h : Inv limits s) (ht : s.tasks n = some t) : n < s.next := by
  by_contra hn
  rw [h.vacant n (Nat.not_lt.mp hn)] at ht
  cases ht

/-- One call goes on; the lock changes hands between it and nobody. -/
theorem Inv.goOn (h : Inv limits s) (ht : s.tasks n = some t) {fields : F} {holder : Option Nat}
    {waiters : List Nat}
    (hspec : Co.Spec (limits t'.label) Released t'.co (decide (holder = some n)))
    (hothers : ∀ m, m ≠ n → (holder = some m ↔ s.holder = some m))
    (hsub : ∀ m ∈ waiters, m ∈ s.waiters ∧ m ≠ n) (hnodup : waiters.Nodup) :
    Inv limits { s.put n (some t') with fields, holder, waiters } := by
  refine ⟨fun m hm => ?_, fun m w hw => ?_, fun m hm => ?_, fun m hm => ?_, hnodup⟩
  · have hne : m ≠ n := fun heq => absurd (h.lt_next ht) (Nat.not_lt.mpr (heq ▸ hm))
    exact (if_neg hne).trans (h.vacant m hm)
  · rcases put_cases hw with ⟨hmn, hw⟩ | ⟨hmn, hw⟩
    · obtain rfl := Option.some.inj hw
      rw [hmn]
      exact hspec
    · have hsame : decide (holder = some m) = s.holds m := decide_eq_decide.mpr (hothers m hmn)
      show Co.Spec _ _ _ (decide (holder = some m))
      rw [hsame]
      exact h.spec m w hw
  · by_cases hmn : m = n
    · exact ⟨t', if_pos hmn⟩
    · obtain ⟨w, hw⟩ := h.held m ((hothers m hmn).mp hm)
      exact ⟨w, (if_neg hmn).trans hw⟩
  · obtain ⟨hwaits, hne⟩ := hsub m hm
    obtain ⟨w, k, hw, hco⟩ := h.waiting m hwaits
    exact ⟨w, k, (if_neg hne).trans hw, hco⟩

/-- A call that does not wait is not in line. -/
theorem Inv.not_waiting (h : Inv limits s) (ht : s.tasks n = some t)
    (hco : ∀ k, t.co ≠ .acquire k) : ∀ m ∈ s.waiters, m ∈ s.waiters ∧ m ≠ n := by
  refine fun m hm => ⟨hm, ?_⟩
  rintro rfl
  obtain ⟨w, k, hw, hwait⟩ := h.waiting m hm
  cases ht.symm.trans hw
  exact hco k hwait

/-- Who is next leaves the line, and leaves the others in it. -/
theorem Inv.next_leaves (h : Inv limits s) (hline : s.waiters = [] ∨ s.waiters.head? = some n) :
    ∀ m ∈ s.waiters.tail, m ∈ s.waiters ∧ m ≠ n := by
  intro m hm
  refine ⟨List.mem_of_mem_tail hm, ?_⟩
  rintro rfl
  have hnodup := h.inLine
  cases hw : s.waiters with
  | nil =>
    rw [hw] at hm
    cases hm
  | cons w ws =>
    rw [hw] at hline hm hnodup
    rcases hline with hline | hline
    · cases hline
    · obtain rfl := Option.some.inj hline
      exact (List.nodup_cons.mp hnodup).1 hm

theorem Inv.run (h : Inv limits s) (ht : s.tasks n = some t) (hrun : s.run n t = some s') :
    Inv limits s' := by
  have hspec := h.spec n t ht
  obtain ⟨label, co⟩ := t
  cases co with
  | ret _ => cases hrun
  | throw _ => cases hrun
  | look k =>
    cases hrun
    exact h.goOn ht (hspec _) (fun _ _ => Iff.rfl) (h.not_waiting ht nofun) h.inLine
  | set f k =>
    cases hrun
    exact h.goOn ht hspec (fun _ _ => Iff.rfl) (h.not_waiting ht nofun) h.inLine
  | call _ _ => cases hrun
  | acquire k =>
    obtain ⟨-, htaken, -⟩ := hspec
    simp only [Shared.run] at hrun
    split at hrun
    · rename_i hgrants
      cases hrun
      simp only [grants, Bool.and_eq_true, Bool.or_eq_true, decide_eq_true_eq] at hgrants
      obtain ⟨hfree, hline⟩ := hgrants
      refine h.goOn ht ?_ (fun m hm => ?_) (fun m hm => ?_) ?_
      · rw [decide_eq_true rfl]
        exact htaken
      · simp [hfree, Ne.symm hm]
      · exact h.next_leaves hline m hm
      · exact h.inLine.tail
    · split at hrun
      · cases hrun
      · rename_i hnot
        cases hrun
        refine ⟨h.vacant, h.spec, h.held, fun m hm => ?_, ?_⟩
        · rcases List.mem_append.mp hm with hm | hm
          · exact h.waiting m hm
          · obtain rfl := List.mem_singleton.mp hm
            exact ⟨_, k, ht, rfl⟩
        · exact List.nodup_append.mpr ⟨h.inLine, List.nodup_singleton n, by grind⟩
  | release k =>
    obtain ⟨hheld, hreleased⟩ := hspec
    have hholder := holds_iff.mp hheld
    simp only [Shared.run, hholder] at hrun
    cases hrun
    refine h.goOn ht hreleased (fun m hm => ?_) (h.not_waiting ht nofun) h.inLine
    simp [hholder, Ne.symm hm]

theorem Inv.answer (h : Inv limits s) (ht : s.tasks n = some t) {a : A}
    (ha : ∀ c k, t.co = .call c k → (limits t.label).answers c a)
    (hanswer : s.answer n t a = some s') : Inv limits s' := by
  have hspec := h.spec n t ht
  obtain ⟨label, co⟩ := t
  cases co with
  | call c k =>
    cases hanswer
    exact h.goOn ht (hspec a (ha c k rfl)) (fun _ _ => Iff.rfl) (h.not_waiting ht nofun) h.inLine
  | _ => cases hanswer

theorem Inv.cancel (h : Inv limits s) (ht : s.tasks n = some t)
    (hcancels : (limits t.label).cancels) (hcancel : s.cancel n t = some s') : Inv limits s' := by
  have hspec := h.spec n t ht
  obtain ⟨label, co⟩ := t
  cases co with
  | acquire k =>
    simp only [Shared.cancel] at hcancel
    split at hcancel
    · cases hcancel
      obtain ⟨hfree, -, hcancelled⟩ := hspec
      refine h.goOn ht ?_ (fun _ _ => Iff.rfl) (fun m hm => ?_) (h.inLine.erase n)
      · show Co.Spec _ _ _ (s.holds n)
        rw [hfree]
        exact hcancelled hcancels
      · exact ⟨List.mem_of_mem_erase hm, fun heq => h.inLine.not_mem_erase (heq ▸ hm)⟩
    · cases hcancel
  | _ => cases hcancel

theorem Inv.finish (h : Inv limits s) (ht : s.tasks n = some t) (hended : t.co.ended = true) :
    Inv limits (s.put n none) := by
  have hspec := h.spec n t ht
  have hfree : s.holder ≠ some n := by
    rw [← holds_false_iff]
    obtain ⟨label, co⟩ := t
    cases co with
    | ret _ => exact hspec
    | throw _ => exact hspec
    | _ => cases hended
  have hwaits : ∀ k, t.co ≠ .acquire k := fun k hk => by
    rw [hk] at hended
    cases hended
  refine ⟨fun m hm => ?_, fun m w hw => ?_, fun m hm => ?_, fun m hm => ?_, h.inLine⟩
  · have hne : m ≠ n := fun heq => absurd (h.lt_next ht) (Nat.not_lt.mpr (heq ▸ hm))
    exact (if_neg hne).trans (h.vacant m hm)
  · rcases put_cases hw with ⟨-, hw⟩ | ⟨-, hw⟩
    · cases hw
    · exact h.spec m w hw
  · have hne : m ≠ n := fun heq => hfree (heq ▸ hm)
    obtain ⟨w, hw⟩ := h.held m hm
    exact ⟨w, (if_neg hne).trans hw⟩
  · obtain ⟨hm, hne⟩ := h.not_waiting ht hwaits m hm
    obtain ⟨w, k, hw, hco⟩ := h.waiting m hm
    exact ⟨w, k, (if_neg hne).trans hw, hco⟩

theorem Inv.begin (h : Inv limits s) {label : L}
    (hbody : Co.Spec (limits label) Released (body label) false) :
    Inv limits { s.put s.next (some { label, co := body label }) with next := s.next + 1 } := by
  have hnew : s.tasks s.next = none := h.vacant _ (Nat.le_refl _)
  have hfree : s.holder ≠ some s.next := fun hheld => by
    obtain ⟨w, hw⟩ := h.held _ hheld
    cases hnew.symm.trans hw
  refine ⟨fun m hm => ?_, fun m w hw => ?_, fun m hm => ?_, fun m hm => ?_, h.inLine⟩
  · have hlt : s.next < m := hm
    exact (if_neg (Nat.ne_of_gt hlt)).trans (h.vacant m (Nat.le_of_lt hlt))
  · rcases put_cases hw with ⟨hmn, hw⟩ | ⟨-, hw⟩
    · obtain rfl := Option.some.inj hw
      rw [hmn]
      show Co.Spec _ _ _ (s.holds s.next)
      rw [holds_false_iff.mpr hfree]
      exact hbody
    · exact h.spec m w hw
  · have hne : m ≠ s.next := fun heq => hfree (heq ▸ hm)
    obtain ⟨w, hw⟩ := h.held m hm
    exact ⟨w, (if_neg hne).trans hw⟩
  · obtain ⟨w, k, hw, hco⟩ := h.waiting m hm
    have hne : m ≠ s.next := fun heq => by
      rw [heq, hnew] at hw
      cases hw
    exact ⟨w, k, (if_neg hne).trans hw, hco⟩

/-- **A step within the limits keeps it.** -/
theorem Inv.step (hbody : ∀ l, Co.Spec (limits l) Released (body l) false) (h : Inv limits s)
    {a : Move L A} (hok : Within limits s a) (hstep : s.step body a = some s') :
    Inv limits s' := by
  cases a with
  | begin label =>
    cases hstep
    exact h.begin (hbody label)
  | run n =>
    obtain ⟨t, ht, hrun⟩ := Option.bind_eq_some_iff.mp hstep
    exact h.run ht hrun
  | answer n a =>
    obtain ⟨t, ht, hanswer⟩ := Option.bind_eq_some_iff.mp hstep
    exact h.answer ht (fun c k hco => (hok n t ht).1 a c k rfl hco) hanswer
  | cancel n =>
    obtain ⟨t, ht, hcancel⟩ := Option.bind_eq_some_iff.mp hstep
    exact h.cancel ht ((hok n t ht).2 rfl) hcancel
  | finish n =>
    obtain ⟨t, ht, hfinish⟩ := Option.bind_eq_some_iff.mp hstep
    obtain ⟨hended, heq⟩ := Option.ite_none_right_eq_some.mp hfinish
    cases heq
    exact h.finish ht hended

/-- **Every run within the limits keeps it.** -/
theorem Run.inv (hbody : ∀ l, Co.Spec (limits l) Released (body l) false) {s₀ : Shared L F C A ε α}
    (h₀ : Inv limits s₀) (h : Run body (Within limits) s₀ s) : Inv limits s := by
  induction h with
  | refl => exact h₀
  | tail a _ hok hstep ih => exact ih.step hbody hok hstep

end

/-! ## 3. Nobody blocks forever -/

section

variable {body : L → Co F C A ε α} {limits : L → Co.Limits C A} {s s' : Shared L F C A ε α}
  {n : Nat} {t : Task L F C A ε α}

/-- A move within the limits that cancels no wait. -/
def Calm (limits : L → Co.Limits C A) (s : Shared L F C A ε α) (a : Move L A) : Prop :=
  Within limits s a ∧ ∀ m, a ≠ .cancel m

variable (body)

theorem Inv.calm_run (h : Inv limits s) (ht : s.tasks n = some t) (hrun : s.run n t = some s') :
    Run body (Calm limits) s s' ∧ Inv limits s' := by
  refine ⟨Run.refl.tail (.run n) ⟨fun m w hw => ⟨nofun, nofun⟩, nofun⟩ ?_, h.run ht hrun⟩
  exact Option.bind_eq_some_iff.mpr ⟨t, ht, hrun⟩

theorem Inv.calm_answer (h : Inv limits s) {label : L} {c : C} {k : A → Co F C A ε α}
    (ht : s.tasks n = some ⟨label, .call c k⟩) {a : A} (ha : (limits label).answers c a) :
    Run body (Calm limits) s (s.put n (some ⟨label, k a⟩)) ∧
      Inv limits (s.put n (some ⟨label, k a⟩)) := by
  have hlimits : ∀ c' k', (⟨label, .call c k⟩ : Task L F C A ε α).co = .call c' k' →
      (limits label).answers c' a := by
    intro c' k' hco
    cases hco
    exact ha
  refine ⟨Run.refl.tail (.answer n a) ⟨fun m w hw => ⟨fun r c' k' hr hco => ?_, nofun⟩, nofun⟩ ?_,
    h.answer ht hlimits rfl⟩
  · cases hr
    cases ht.symm.trans hw
    exact hlimits c' k' hco
  · exact Option.bind_eq_some_iff.mpr ⟨_, ht, rfl⟩

variable {body}

/-- **Whoever has the lock can come to give it back**, and nothing else changes for the others. -/
theorem Inv.freed (hanswers : ∀ l c, ∃ a, (limits l).answers c a) {label : L} :
    ∀ (co : Co F C A ε α) {s : Shared L F C A ε α}, Inv limits s →
      s.tasks n = some ⟨label, co⟩ → s.holder = some n →
      ∃ s', Run body (Calm limits) s s' ∧ Inv limits s' ∧ s'.holder = none ∧
        s'.waiters = s.waiters ∧ ∀ m, m ≠ n → s'.tasks m = s.tasks m := by
  intro co
  induction co with
  | ret a =>
    intro s h ht hholder
    have hfree : s.holds n = false := h.spec n _ ht
    rw [holds_iff.mpr hholder] at hfree
    cases hfree
  | throw e =>
    intro s h ht hholder
    have hfree : s.holds n = false := h.spec n _ ht
    rw [holds_iff.mpr hholder] at hfree
    cases hfree
  | look k ih =>
    intro s h ht hholder
    obtain ⟨hrun, hinv⟩ := h.calm_run body ht rfl
    obtain ⟨s', hrun', hinv', hfree, hline, hothers⟩ := ih s.fields hinv (if_pos rfl) hholder
    exact ⟨s', hrun.trans hrun', hinv', hfree, hline, fun m hm => (hothers m hm).trans (if_neg hm)⟩
  | set f k ih =>
    intro s h ht hholder
    obtain ⟨hrun, hinv⟩ := h.calm_run body ht rfl
    obtain ⟨s', hrun', hinv', hfree, hline, hothers⟩ := ih hinv (if_pos rfl) hholder
    exact ⟨s', hrun.trans hrun', hinv', hfree, hline, fun m hm => (hothers m hm).trans (if_neg hm)⟩
  | call c k ih =>
    intro s h ht hholder
    obtain ⟨a, ha⟩ := hanswers label c
    obtain ⟨hrun, hinv⟩ := h.calm_answer body ht ha
    obtain ⟨s', hrun', hinv', hfree, hline, hothers⟩ := ih a hinv (if_pos rfl) hholder
    exact ⟨s', hrun.trans hrun', hinv', hfree, hline, fun m hm => (hothers m hm).trans (if_neg hm)⟩
  | acquire k _ =>
    intro s h ht hholder
    obtain ⟨hfree, -⟩ := h.spec n _ ht
    rw [holds_iff.mpr hholder] at hfree
    cases hfree
  | release k _ =>
    intro s h ht hholder
    obtain ⟨hrun, hinv⟩ := h.calm_run body ht rfl
    exact ⟨_, hrun, hinv, rfl, rfl, fun m hm => if_neg hm⟩

variable (body) in
/-- The lock is free before those who wait for it have done anything. -/
theorem Inv.free_first (hanswers : ∀ l c, ∃ a, (limits l).answers c a) (h : Inv limits s) :
    ∃ s', Run body (Calm limits) s s' ∧ Inv limits s' ∧ s'.holder = none ∧
      s'.waiters = s.waiters ∧ ∀ m t k, s.tasks m = some t → t.co = .acquire k →
        s'.tasks m = some t := by
  cases hholder : s.holder with
  | none => exact ⟨s, .refl, h, hholder, rfl, fun m t k hm _ => hm⟩
  | some w =>
    obtain ⟨⟨label, co⟩, hw⟩ := h.held w hholder
    obtain ⟨s', hrun, hinv, hfree, hline, hothers⟩ := h.freed hanswers co hw hholder
    refine ⟨s', hrun, hinv, hfree, hline, fun m t k hm hco => ?_⟩
    have hne : m ≠ w := by
      rintro rfl
      have hspec := h.spec m t hm
      rw [hco] at hspec
      exact absurd (holds_iff.mpr hholder) (Bool.eq_false_iff.mp hspec.1)
    exact (hothers m hne).trans hm

/-- Who is next takes the lock. -/
theorem Inv.taken (h : Inv limits s) {label : L} {k : Bool → Co F C A ε α} {rest : List Nat}
    (ht : s.tasks n = some ⟨label, .acquire k⟩) (hfree : s.holder = none)
    (hline : s.waiters = n :: rest) :
    ∃ s', Run body (Calm limits) s s' ∧ Inv limits s' ∧ s'.waiters = rest ∧
      s'.tasks n = some ⟨label, k true⟩ ∧ ∀ m, m ≠ n → s'.tasks m = s.tasks m := by
  have hgrants : s.grants n = true := by simp [grants, hfree, hline]
  have hrun : s.run n ⟨label, .acquire k⟩ =
      some { s.put n (some ⟨label, k true⟩) with holder := some n, waiters := s.waiters.tail } :=
    if_pos hgrants
  obtain ⟨hcalm, hinv⟩ := h.calm_run body ht hrun
  exact ⟨_, hcalm, hinv, congrArg List.tail hline, if_pos rfl, fun m hm => if_neg hm⟩

/-- **Those in line get the lock**, one after the other. -/
theorem Inv.granted (hanswers : ∀ l c, ∃ a, (limits l).answers c a) {label : L}
    {k : Bool → Co F C A ε α} {rest : List Nat} :
    ∀ (ahead : List Nat) {s : Shared L F C A ε α}, Inv limits s →
      s.tasks n = some ⟨label, .acquire k⟩ → s.waiters = ahead ++ n :: rest →
      ∃ s', Run body (Calm limits) s s' ∧ Inv limits s' ∧ s'.tasks n = some ⟨label, k true⟩ := by
  intro ahead
  induction ahead with
  | nil =>
    intro s h ht hline
    obtain ⟨s₁, hrun₁, hinv₁, hfree, hline₁, hwaiting⟩ := h.free_first body hanswers
    obtain ⟨s₂, hrun₂, hinv₂, -, ht₂, -⟩ :=
      hinv₁.taken (hwaiting n _ k ht rfl) hfree (hline₁.trans hline)
    exact ⟨s₂, hrun₁.trans hrun₂, hinv₂, ht₂⟩
  | cons w ahead ih =>
    intro s h ht hline
    have hnodup := h.inLine
    rw [hline] at hnodup
    have hne : n ≠ w := by
      rintro rfl
      exact (List.nodup_cons.mp hnodup).1 (by simp)
    obtain ⟨⟨wlabel, wco⟩, wk, hw, rfl⟩ := h.waiting w (by rw [hline]; exact List.mem_cons_self)
    obtain ⟨s₁, hrun₁, hinv₁, hfree, hline₁, hwaiting⟩ := h.free_first body hanswers
    obtain ⟨s₂, hrun₂, hinv₂, hline₂, -, hothers⟩ :=
      hinv₁.taken (hwaiting w _ wk hw rfl) hfree (hline₁.trans hline)
    have ht₂ := (hothers n hne).trans (hwaiting n _ k ht rfl)
    obtain ⟨s₃, hrun₃, hinv₃, ht₃⟩ := ih hinv₂ ht₂ hline₂
    exact ⟨s₃, (hrun₁.trans hrun₂).trans hrun₃, hinv₃, ht₃⟩

/-- **Every call can come to its end.** -/
theorem Inv.finishes (hanswers : ∀ l c, ∃ a, (limits l).answers c a) {label : L} :
    ∀ (co : Co F C A ε α) {s : Shared L F C A ε α}, Inv limits s →
      s.tasks n = some ⟨label, co⟩ → ∃ s', Run body (Calm limits) s s' ∧ s'.tasks n = none := by
  have hend : ∀ {co : Co F C A ε α} {s : Shared L F C A ε α}, s.tasks n = some ⟨label, co⟩ →
      co.ended = true → ∃ s', Run body (Calm limits) s s' ∧ s'.tasks n = none := by
    intro co s ht hended
    refine ⟨s.put n none, Run.refl.tail (.finish n) ⟨fun m w hw => ⟨nofun, nofun⟩, nofun⟩ ?_,
      if_pos rfl⟩
    exact Option.bind_eq_some_iff.mpr ⟨_, ht, if_pos hended⟩
  intro co
  induction co with
  | ret a => exact fun _ ht => hend ht rfl
  | throw e => exact fun _ ht => hend ht rfl
  | look k ih =>
    intro s h ht
    obtain ⟨hrun, hinv⟩ := h.calm_run body ht rfl
    obtain ⟨s', hrun', hgone⟩ := ih s.fields hinv (if_pos rfl)
    exact ⟨s', hrun.trans hrun', hgone⟩
  | set f k ih =>
    intro s h ht
    obtain ⟨hrun, hinv⟩ := h.calm_run body ht rfl
    obtain ⟨s', hrun', hgone⟩ := ih hinv (if_pos rfl)
    exact ⟨s', hrun.trans hrun', hgone⟩
  | call c k ih =>
    intro s h ht
    obtain ⟨a, ha⟩ := hanswers label c
    obtain ⟨hrun, hinv⟩ := h.calm_answer body ht ha
    obtain ⟨s', hrun', hgone⟩ := ih a hinv (if_pos rfl)
    exact ⟨s', hrun.trans hrun', hgone⟩
  | release k ih =>
    intro s h ht
    obtain ⟨hrun, hinv⟩ := h.calm_run body ht rfl
    obtain ⟨s', hrun', hgone⟩ := ih s.holder.isSome hinv (if_pos rfl)
    exact ⟨s', hrun.trans hrun', hgone⟩
  | acquire k ih =>
    intro s h ht
    -- in line it is granted in its turn; a call that is not yet in line takes the lock or joins
    have hwait : ∀ {s : Shared L F C A ε α}, Inv limits s → s.tasks n = some ⟨label, .acquire k⟩ →
        n ∈ s.waiters → ∃ s', Run body (Calm limits) s s' ∧ s'.tasks n = none := by
      intro s h ht hline
      obtain ⟨ahead, rest, hsplit⟩ := List.append_of_mem hline
      obtain ⟨s', hrun, hinv, ht'⟩ := h.granted hanswers ahead ht hsplit
      obtain ⟨s'', hrun', hgone⟩ := ih true hinv ht'
      exact ⟨s'', hrun.trans hrun', hgone⟩
    by_cases hline : n ∈ s.waiters
    · exact hwait h ht hline
    · by_cases hgrants : s.grants n = true
      · obtain ⟨hrun, hinv⟩ := h.calm_run body ht (if_pos hgrants)
        obtain ⟨s', hrun', hgone⟩ := ih true hinv (if_pos rfl)
        exact ⟨s', hrun.trans hrun', hgone⟩
      · have hjoins : s.run n ⟨label, .acquire k⟩ = some { s with waiters := s.waiters ++ [n] } :=
          (if_neg hgrants).trans (if_neg hline)
        obtain ⟨hrun, hinv⟩ := h.calm_run body ht hjoins
        obtain ⟨s', hrun', hgone⟩ := hwait hinv ht (by simp)
        exact ⟨s', hrun.trans hrun', hgone⟩

/-- **Calls that keep their promise handle the lock correctly**, in every run within the limits from
an object that nobody uses. -/
theorem handled (hbody : ∀ l, Co.Spec (limits l) Released (body l) false)
    (hanswers : ∀ l c, ∃ a, (limits l).answers c a) (fields : F) :
    Handled body (Within limits) { fields } := by
  have h₀ : Inv limits ({ fields } : Shared L F C A ε α) :=
    ⟨fun _ _ => rfl, nofun, nofun, nofun, List.nodup_nil⟩
  constructor
  · intro s n t hrun ht hreleasing
    have hspec := (hrun.inv hbody h₀).spec n t ht
    obtain ⟨label, co⟩ := t
    cases co with
    | release k => exact holds_iff.mp hspec.1
    | _ => cases hreleasing
  · intro s n t hrun ht hended
    have hspec := (hrun.inv hbody h₀).spec n t ht
    rw [← holds_false_iff]
    obtain ⟨label, co⟩ := t
    cases co with
    | ret _ => exact hspec
    | throw _ => exact hspec
    | _ => cases hended
  · intro s n t hrun ht
    exact (hrun.inv hbody h₀).finishes hanswers t.co ht

end

end Shared

end NewlifeCore
