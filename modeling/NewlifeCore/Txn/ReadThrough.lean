import Mathlib.Data.List.Induction
import NewlifeCore.Txn.Desk

/-!
# Read-through caches

A reader looks its key up in the store; where nothing is found it makes the value from the committed
database, puts it into the store and returns it.  Nothing else touches the store, so writers leave
stale entries behind.  A cache that no commit ever outdates, because what it changes is neither
stored nor about to be, gives every reader a state of the database that it has lived to see.
-/

namespace NewlifeCore.Txn

variable {σ ρ τ ε π α γ κ L : Type} [RowStore σ ρ]

/-- **A read-through cache** of values `α` under keys `κ`: what the store has under a key at a time
and what that says, what the database has for it, and how a value is stored.  An entry is found as
it was stored, it takes no other key's place, and it may expire. -/
structure ReadThrough (σ τ ε κ π α γ : Type) where
  peek : κ → τ → Int → π
  decode : π → Option (Except ε α)
  view : κ → σ → α
  fill : κ → α → τ → Int → τ
  answer : α → γ
  lookup_fill : ∀ {k a s t t' r}, decode (peek k (fill k a s t) t') = some r → r = .ok a
  lookup_other : ∀ {k k' a s t t'}, k' ≠ k → peek k' (fill k a s t) t' = peek k' s t'
  lookup_later : ∀ {k s t t' r}, t ≤ t' → decode (peek k s t') = some r →
    decode (peek k s t) = some r

namespace ReadThrough

variable (C : ReadThrough σ τ ε κ π α γ) (k : κ)

/-- What is found under a key. -/
def lookup (s : τ) (t : Int) : Option (Except ε α) := C.decode (C.peek k s t)

/-! ## 1. Readers -/

/-- What a reader does with what it found. -/
def found : Except ε α → Script σ ρ τ ε γ
  | .ok a => .ret (C.answer a)
  | .error e => .raise e

/-- The value is stored and returned. -/
def filling (a : α) : Script σ ρ τ ε γ :=
  .command (fun s t => (C.fill k a s t, ())) fun _ => .ret (C.answer a)

/-- The value is made from the database. -/
def missed : Script σ ρ τ ε γ := .read (fun db _ => C.view k db) fun a => C.filling k a

def afterLookup : Option (Except ε α) → Script σ ρ τ ε γ
  | some r => C.found r
  | none => C.missed k

/-- **A reader of a key.** -/
def reader : Script σ ρ τ ε γ :=
  .command (fun s t => (s, C.peek k s t)) fun x => C.afterLookup k (C.decode x)

variable {C k}

/-- Where a reader can be: what it is about to store meets `P`, what it returns `Q`. -/
inductive At (C : ReadThrough σ τ ε κ π α γ) (k : κ) (P Q : α → Prop) : Script σ ρ τ ε γ → Prop
  | start : At C k P Q (C.reader k)
  | missed : At C k P Q (C.missed k)
  | filling {a : α} (ha : P a) : At C k P Q (C.filling k a)
  | ended {a : α} (ha : Q a) : At C k P Q (.ret (C.answer a))

theorem At.mono {P P' Q Q' : α → Prop} {p : Script σ ρ τ ε γ} (hP : ∀ a, P a → P' a)
    (hQ : ∀ a, Q a → Q' a) (h : At C k P Q p) : At C k P' Q' p := by
  cases h with
  | start => exact .start
  | missed => exact .missed
  | filling ha => exact .filling (hP _ ha)
  | ended ha => exact .ended (hQ _ ha)

/-- A reader that is not about to store anything may store what it likes. -/
theorem At.of_not_filling {P P' Q : α → Prop} {p : Script σ ρ τ ε γ} (h : At C k P Q p)
    (hnot : ∀ a, p ≠ C.filling k a) : At C k P' Q p := by
  cases h with
  | start => exact .start
  | missed => exact .missed
  | filling _ => exact absurd rfl (hnot _)
  | ended ha => exact .ended ha

/-! ## 2. Requests that leave the store alone -/

/-- No command of the store, and no commit before the end. -/
def Silent : Script σ ρ τ ε γ → Prop
  | .ret _ => True
  | .raise _ => True
  | .read _ p => ∀ b, Silent (p b)
  | .clock p => ∀ t, Silent (p t)
  | .write _ p => ∀ n, Silent (p n)
  | .command _ _ => False
  | .commit _ => False

/-- Repository methods are silent. -/
theorem silent_query : ∀ p : Prog σ ρ Empty ε γ, Silent (Script.query p : Script σ ρ τ ε γ)
  | .ret _ => trivial
  | .raise _ => trivial
  | .read _ p => fun b => silent_query (p b)
  | .clock p => fun t => silent_query (p t)
  | .lock l _ => l.elim
  | .tryLock l _ => l.elim
  | .write _ p => fun n => silent_query (p n)

/-! ## 3. Requests side by side -/

/-- The calls with a key are readers of it, the others leave the store alone. -/
structure Serves (C : ReadThrough σ τ ε κ π α γ) (body : L → Script σ ρ τ ε γ) (key : L → Option κ) :
    Prop where
  reader : ∀ l k, key l = some k → body l = C.reader k
  silent : ∀ l, key l = none → Silent (body l)

/-- **The cache is fresh**: what is stored, or about to be, is what the database has. -/
structure Fresh (C : ReadThrough σ τ ε κ π α γ) (key : L → Option κ) (s : Desk σ ρ τ ε γ L) :
    Prop where
  vacant : ∀ n, s.next ≤ n → s.visits n = none
  silent : ∀ n v, s.visits n = some v → key v.label = none → Silent v.script
  readers : ∀ n v k, s.visits n = some v → key v.label = some k →
    v.own = id ∧ At C k (fun a => a = C.view k s.db) (fun _ => True) v.script
  stored : ∀ k r, C.lookup k s.store s.clock = some r → r = .ok (C.view k s.db)

/-- What a key has in one of some databases. -/
def Seen (C : ReadThrough σ τ ε κ π α γ) (k : κ) (P : σ → Prop) (a : α) : Prop :=
  ∃ d, P d ∧ a = C.view k d

/-- The readers from some number on have seen one of some databases. -/
def Late (C : ReadThrough σ τ ε κ π α γ) (key : L → Option κ) (P : σ → Prop) (first : Nat)
    (s : Desk σ ρ τ ε γ L) : Prop :=
  ∀ n v k, first ≤ n → s.visits n = some v → key v.label = some k →
    At C k (Seen C k P) (Seen C k P) v.script

/-- **The end of a request outdates nothing**: a key whose value it changes is not stored, and no
reader is about to store it. -/
def OutdatesNothing (C : ReadThrough σ τ ε κ π α γ) (key : L → Option κ) (s : Desk σ ρ τ ε γ L)
    (a : Turn L) : Prop :=
  ∀ n v g, a = .finish n → s.visits n = some v → v.script = .ret g →
    ∀ k, C.view k (v.own s.db) ≠ C.view k s.db →
      C.lookup k s.store s.clock = none ∧
        ∀ m w, s.visits m = some w → key w.label = some k → ∀ b, w.script ≠ C.filling k b

/-- Only the end of a request can outdate anything. -/
theorem OutdatesNothing.of_ne_finish {key : L → Option κ} {a : Turn L} (ha : ∀ n, a ≠ .finish n)
    (s : Desk σ ρ τ ε γ L) : OutdatesNothing C key s a :=
  fun n _ _ hfinish => absurd hfinish (ha n)

section Steps

variable [DecidableEq ρ] {body : L → Script σ ρ τ ε γ} {key : L → Option κ}
  {s s' : Desk σ ρ τ ε γ L} {n : Nat}

/-- A silent request changes nothing but itself. -/
theorem Silent.act {v : Visit σ ρ τ ε γ L} (hv : Silent v.script) (h : s.act n v = some s') :
    ∃ v', s' = s.put n (some v') ∧ v'.label = v.label ∧ Silent v'.script := by
  obtain ⟨label, script, own, rows, saw⟩ := v
  cases script with
  | ret _ => cases h
  | raise _ => cases h
  | read q p =>
    cases h
    exact ⟨_, rfl, rfl, hv _⟩
  | clock p =>
    cases h
    exact ⟨_, rfl, rfl, hv _⟩
  | write stmt p =>
    simp only [Desk.act] at h
    split at h
    · cases h
      exact ⟨_, rfl, rfl, trivial⟩
    · split at h
      · cases h
        exact ⟨_, rfl, rfl, hv _⟩
      · cases h
  | command _ _ => exact hv.elim
  | commit _ => exact hv.elim

/-- **A reader's next command** looks up, reads or stores. -/
theorem At.act {v : Visit σ ρ τ ε γ L} {P Q : α → Prop} (hat : At C k P Q v.script)
    (hPQ : ∀ a, P a → Q a) (hview : P (C.view k s.db))
    (hstored : ∀ r, C.lookup k s.store s.clock = some r → r = .ok (C.view k s.db))
    (hown : v.own = id) (h : s.act n v = some s') :
    ∃ v', (s' = s.put n (some v') ∨ ∃ a, P a ∧ v.script = C.filling k a ∧
        s' = { s.put n (some v') with store := C.fill k a s.store s.clock }) ∧
      v'.label = v.label ∧ v'.own = id ∧ At C k P Q v'.script := by
  obtain ⟨label, script, own, rows, saw⟩ := v
  dsimp only at hown hat
  subst hown
  cases hat with
  | start =>
    cases h
    refine ⟨_, .inl rfl, rfl, rfl, ?_⟩
    show At C k P Q (C.afterLookup k (C.lookup k s.store s.clock))
    cases hfound : C.lookup k s.store s.clock with
    | none => exact .missed
    | some r =>
      rw [hstored r hfound]
      exact .ended (hPQ _ hview)
  | missed =>
    cases h
    exact ⟨_, .inl rfl, rfl, rfl, .filling hview⟩
  | @filling a ha =>
    cases h
    exact ⟨_, .inr ⟨a, ha, rfl, rfl⟩, rfl, rfl, .ended (hPQ a ha)⟩
  | ended _ => cases h

omit [DecidableEq ρ] in
theorem Fresh.put {v : Option (Visit σ ρ τ ε γ L)} (h : Fresh C key s) (hn : n < s.next)
    (hv : ∀ v', v = some v' → key v'.label = none → Silent v'.script)
    (hv' : ∀ v' k, v = some v' → key v'.label = some k →
      v'.own = id ∧ At C k (fun a => a = C.view k s.db) (fun _ => True) v'.script) :
    Fresh C key (s.put n v) := by
  refine ⟨fun m hm => ?_, fun m w hw hkey => ?_, fun m w k hw hkey => ?_, h.stored⟩
  · have hmn : m ≠ n := fun heq => absurd hn (Nat.not_lt.mpr (heq ▸ hm))
    exact (if_neg hmn).trans (h.vacant m hm)
  · rcases Desk.put_cases hw with ⟨-, hw⟩ | ⟨-, hw⟩
    · exact hv w hw hkey
    · exact h.silent m w hw hkey
  · rcases Desk.put_cases hw with ⟨-, hw⟩ | ⟨-, hw⟩
    · exact hv' w k hw hkey
    · exact h.readers m w k hw hkey

omit [DecidableEq ρ] in
theorem Fresh.lt_next (h : Fresh C key s) {v : Visit σ ρ τ ε γ L} (hv : s.visits n = some v) :
    n < s.next := by
  by_contra hn
  rw [h.vacant n (Nat.not_lt.mp hn)] at hv
  cases hv

/-- **A step that outdates nothing keeps the cache fresh.** -/
theorem Fresh.step (hC : C.Serves body key) (h : Fresh C key s) {a : Turn L}
    (hok : OutdatesNothing C key s a) (hstep : s.step body a = some s') : Fresh C key s' := by
  rcases Desk.step_cases hstep with ⟨t, rfl, ht, rfl⟩ | ⟨l, rfl, rfl⟩ | ⟨n, v, rfl, hv, hact⟩ |
    ⟨n, v, rfl, hv, hend⟩
  · exact ⟨h.vacant, h.silent, h.readers, fun k r hr => h.stored k r (C.lookup_later ht hr)⟩
  · refine ⟨fun m hm => ?_, fun m w hw hkey => ?_, fun m w k hw hkey => ?_, h.stored⟩
    · have hlt : s.next < m := hm
      exact (if_neg (Nat.ne_of_gt hlt)).trans (h.vacant m (Nat.le_of_lt hlt))
    · rcases Desk.put_cases hw with ⟨-, hw⟩ | ⟨-, hw⟩
      · obtain rfl := Option.some.inj hw
        show Silent (body l)
        exact hC.silent l hkey
      · exact h.silent m w hw hkey
    · rcases Desk.put_cases hw with ⟨-, hw⟩ | ⟨-, hw⟩
      · obtain rfl := Option.some.inj hw
        refine ⟨rfl, ?_⟩
        show At C k _ _ (body l)
        rw [hC.reader l k hkey]
        exact .start
      · exact h.readers m w k hw hkey
  · cases hkey : key v.label with
    | none =>
      obtain ⟨v', rfl, hlabel, hsilent⟩ := (h.silent n v hv hkey).act hact
      refine h.put (h.lt_next hv) (fun w hw _ => ?_) fun w k hw hk => ?_
      · cases hw
        exact hsilent
      · cases hw
        rw [hlabel, hkey] at hk
        cases hk
    | some k =>
      obtain ⟨hown, hat⟩ := h.readers n v k hv hkey
      obtain ⟨v', hs', hlabel, hown', hat'⟩ :=
        hat.act (fun _ _ => trivial) rfl (h.stored k) hown hact
      have hput : Fresh C key (s.put n (some v')) := by
        refine h.put (h.lt_next hv) (fun w hw hk => ?_) fun w j hw hk => ?_
        · cases hw
          rw [hlabel, hkey] at hk
          cases hk
        · cases hw
          rw [hlabel, hkey] at hk
          cases hk
          exact ⟨hown', hat'⟩
      rcases hs' with rfl | ⟨a, ha, -, rfl⟩
      · exact hput
      · refine ⟨hput.vacant, hput.silent, hput.readers, fun j r hr => ?_⟩
        by_cases hj : j = k
        · subst hj
          exact (C.lookup_fill hr).trans (congrArg Except.ok ha)
        · exact h.stored j r ((congrArg C.decode (C.lookup_other hj)).symm.trans hr)
  · have hgone : Fresh C key (s.put n none) :=
      h.put (h.lt_next hv) (fun _ hw => nomatch hw) fun _ _ hw => nomatch hw
    rcases Desk.finish_cases hend with ⟨g, hg, rfl⟩ | ⟨e, -, rfl⟩
    · refine ⟨hgone.vacant, hgone.silent, fun m w k hw hkey => ?_, fun k r hr => ?_⟩
      · obtain ⟨hown, hat⟩ := hgone.readers m w k hw hkey
        refine ⟨hown, ?_⟩
        by_cases hview : C.view k (v.own s.db) = C.view k s.db
        · exact hat.mono (fun a ha => ha.trans hview.symm) fun _ ha => ha
        · refine hat.of_not_filling fun b => ?_
          rcases Desk.put_cases hw with ⟨-, hw⟩ | ⟨-, hw⟩
          · cases hw
          · exact (hok n v g rfl hv hg k hview).2 m w hw hkey b
      · by_cases hview : C.view k (v.own s.db) = C.view k s.db
        · exact (h.stored k r hr).trans (congrArg Except.ok hview.symm)
        · have hnone : C.lookup k s.store s.clock = none := (hok n v g rfl hv hg k hview).1
          rw [show C.lookup k s.store s.clock = some r from hr] at hnone
          cases hnone
    · exact hgone

omit [DecidableEq ρ] in
theorem Late.mono {P P' : σ → Prop} {first : Nat} (hP : ∀ d, P d → P' d)
    (h : Late C key P first s) : Late C key P' first s := by
  have hseen : ∀ k a, Seen C k P a → Seen C k P' a := fun k a ⟨d, hd, ha⟩ => ⟨d, hP d hd, ha⟩
  exact fun n v k hn hv hkey => (h n v k hn hv hkey).mono (hseen k) (hseen k)

/-- **Readers of a fresh cache see the database of now**, in the store or where it is. -/
theorem Late.step (hC : C.Serves body key) {P : σ → Prop} {first : Nat} (hfresh : Fresh C key s)
    (hP : P s.db) (h : Late C key P first s) {a : Turn L} (hstep : s.step body a = some s') :
    Late C key P first s' := by
  rcases Desk.step_cases hstep with ⟨t, rfl, -, rfl⟩ | ⟨l, rfl, rfl⟩ | ⟨n, v, rfl, hv, hact⟩ |
    ⟨n, v, rfl, hv, hend⟩
  · exact h
  · intro m w k hm hw hkey
    rcases Desk.put_cases hw with ⟨-, hw⟩ | ⟨-, hw⟩
    · obtain rfl := Option.some.inj hw
      show At C k _ _ (body l)
      rw [hC.reader l k hkey]
      exact .start
    · exact h m w k hm hw hkey
  · cases hkey : key v.label with
    | none =>
      obtain ⟨v', rfl, hlabel, -⟩ := (hfresh.silent n v hv hkey).act hact
      intro m w k hm hw hk
      rcases Desk.put_cases hw with ⟨-, hw⟩ | ⟨-, hw⟩
      · obtain rfl := Option.some.inj hw
        rw [hlabel, hkey] at hk
        cases hk
      · exact h m w k hm hw hk
    | some k =>
      intro m w j hm hw hj
      obtain ⟨hown, -⟩ := hfresh.readers n v k hv hkey
      by_cases hmn : m = n
      · subst hmn
        obtain ⟨v', hs', hlabel, -, hat⟩ := (h m v k hm hv hkey).act (fun _ ha => ha)
          ⟨s.db, hP, rfl⟩ (hfresh.stored k) hown hact
        have hvisits : s'.visits m = some v' := by
          rcases hs' with rfl | ⟨a, -, -, rfl⟩ <;> exact if_pos rfl
        obtain rfl := Option.some.inj (hvisits.symm.trans hw)
        rw [hlabel, hkey] at hj
        cases hj
        exact hat
      · obtain ⟨v', hvisits, -⟩ := Desk.act_exec hact
        rw [hvisits] at hw
        exact h m w j hm ((if_neg hmn).symm.trans hw) hj
  · have hgone : ∀ m w, s'.visits m = some w → s.visits m = some w := by
      intro m w hw
      have hput : (s.put n none).visits m = some w := by
        rcases Desk.finish_cases hend with ⟨g, -, rfl⟩ | ⟨e, -, rfl⟩ <;> exact hw
      rcases Desk.put_cases hput with ⟨-, hput⟩ | ⟨-, hput⟩
      · cases hput
      · exact hput
    exact fun m w k hm hw hkey => h m w k hm (hgone m w hw) hkey

/-! ## 4. Runs -/

omit [DecidableEq ρ] in
/-- Nothing stored and nobody there. -/
theorem Fresh.idle (hvisits : ∀ n, s.visits n = none)
    (hstore : ∀ k, C.lookup k s.store s.clock = none) : Fresh C key s := by
  refine ⟨fun n _ => hvisits n, fun n v hv => ?_, fun n v k hv => ?_, fun k r hr => ?_⟩
  · rw [hvisits n] at hv
    cases hv
  · rw [hvisits n] at hv
    cases hv
  · rw [hstore k] at hr
    cases hr

theorem Fresh.run (hC : C.Serves body key) {s₀ : Desk σ ρ τ ε γ L} (h₀ : Fresh C key s₀)
    (h : Desk.Run body (OutdatesNothing C key) s₀ s) : Fresh C key s :=
  h.invariant h₀ fun _ _ _ hs hok hstep => hs.step hC hok hstep

/-- **A reader that begins in a run that outdates nothing returns what its key had in the database
at some point of the run.** -/
theorem reads_follow (hC : C.Serves body key) {s₀ : Desk σ ρ τ ε γ L} (h₀ : Fresh C key s₀)
    {turns : List (Turn L)} (h : Desk.Follows body (OutdatesNothing C key) s₀ turns s) {n : Nat}
    (hn : s₀.next ≤ n) {v : Visit σ ρ τ ε γ L} (hv : s.visits n = some v) {k : κ}
    (hkey : key v.label = some k) {r : Except ε γ} (hr : v.script.result = some r) :
    ∃ before, before <+: turns ∧ ∃ s₁, Desk.Follows body (OutdatesNothing C key) s₀ before s₁ ∧
      r = .ok (C.answer (C.view k s₁.db)) := by
  let Passed (turns : List (Turn L)) (d : σ) : Prop := ∃ before, before <+: turns ∧
    ∃ s₁, Desk.Follows body (OutdatesNothing C key) s₀ before s₁ ∧ s₁.db = d
  have hlate : Fresh C key s ∧ Late C key (Passed turns) s₀.next s := by
    clear hv hr
    induction turns using List.reverseRecOn generalizing s with
    | nil =>
      obtain rfl : s = s₀ := h
      refine ⟨h₀, fun m w k hm hw => ?_⟩
      rw [h₀.vacant m hm] at hw
      cases hw
    | append_singleton turns a ih =>
      obtain ⟨s₁, hturns, hok, s₂, hstep, rfl⟩ := Desk.Follows.append.mp h
      obtain ⟨hfresh, hlate⟩ := ih hturns
      have hpassed : ∀ d, Passed turns d → Passed (turns ++ [a]) d :=
        fun d ⟨before, hprefix, hd⟩ => ⟨before, hprefix.trans (List.prefix_append _ _), hd⟩
      exact ⟨hfresh.step hC hok hstep, (hlate.mono hpassed).step hC hfresh
        (hpassed _ ⟨turns, List.prefix_rfl, s₁, hturns, rfl⟩) hstep⟩
  have hat := hlate.2 n v k hn hv hkey
  obtain ⟨label, script, own, rows, saw⟩ := v
  cases hat with
  | ended ha =>
    obtain ⟨d, ⟨before, hprefix, s₁, hs₁, rfl⟩, rfl⟩ := ha
    exact ⟨before, hprefix, s₁, hs₁, (Option.some.inj hr).symm⟩
  | _ => cases hr

end Steps

end ReadThrough

end NewlifeCore.Txn
