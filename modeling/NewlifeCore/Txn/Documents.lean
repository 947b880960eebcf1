import NewlifeCore.Txn.Guarantee
import NewlifeCore.Txn.Table

/-!
# Documents of a header and its lines

A document is a row of one table, its header, and the rows of another that name it.  Who writes one
writes the header first and so locks it; then the old lines go and the new ones are inserted.  Who
throws documents away deletes lines first and then the headers.

`Documents` has the two tables and how rows name documents; `Acts` is what a transaction makes of
them, document by document, and composes.  §2 says where a request can be between two statements:
a `Stage`, and `At`, which holds of a program if each of its statements is one that the stage allows
and the rest is `At` the next.  The rules of §2.1 are what a client proves its programs with, one
for each kind of statement.
-/

namespace NewlifeCore.Txn

/-- **Documents in two tables.** -/
structure Documents (σ ρ α β δ ω : Type) [RowStore σ ρ] [DecidableEq ρ] where
  headers : Table σ ρ α
  lines : Table σ ρ β
  idOf : α → δ
  /-- What of a header never changes. -/
  tag : α → ω
  parent : β → δ
  name : δ → ρ
  name_idOf : ∀ h, headers.name h = name (idOf h)
  name_inj : ∀ {d e}, name d = name e → d = e
  headers_set : ∀ db l, headers.get (headers.set db l) = l
  lines_set : ∀ db l, lines.get (lines.set db l) = l
  headers_of_lines : ∀ db l, headers.get (lines.set db l) = headers.get db
  lines_of_headers : ∀ db l, lines.get (headers.set db l) = lines.get db

namespace Documents

variable {σ ρ α β δ ω : Type} [RowStore σ ρ] [DecidableEq ρ] [DecidableEq δ]
  (D : Documents σ ρ α β δ ω)

/-! ## 1. What is stored of a document -/

def headersOf (db : σ) (d : δ) : List α := (D.headers.get db).filter fun h => D.idOf h = d

def linesOf (db : σ) (d : δ) : List β := (D.lines.get db).filter fun x => D.parent x = d

/-- A header of the document, and what never changes of it. -/
def Present (db : σ) (d : δ) (w : ω) : Prop := ∃ h ∈ D.headersOf db d, D.tag h = w

/-- **What a transaction makes of every document**, of its headers and of its lines. -/
structure Acts (f : σ → σ) (F : δ → List α → List α) (G : δ → List β → List β) : Prop where
  headers : ∀ db d, D.headersOf (f db) d = F d (D.headersOf db d)
  lines : ∀ db d, D.linesOf (f db) d = G d (D.linesOf db d)

variable {D}

theorem Acts.refl : D.Acts id (fun _ => id) fun _ => id := ⟨fun _ _ => rfl, fun _ _ => rfl⟩

theorem Acts.comp {f g : σ → σ} {F F' : δ → List α → List α} {G G' : δ → List β → List β}
    (hf : D.Acts f F G) (hg : D.Acts g F' G') :
    D.Acts (f ∘ g) (fun d => F d ∘ F' d) fun d => G d ∘ G' d where
  headers db d := (hf.headers _ _).trans (congrArg (F d) (hg.headers db d))
  lines db d := (hf.lines _ _).trans (congrArg (G d) (hg.lines db d))

theorem mem_headersOf {db : σ} {d : δ} {h : α} :
    h ∈ D.headersOf db d ↔ h ∈ D.headers.get db ∧ D.idOf h = d := by
  simp [headersOf]

theorem mem_headersOf_self {db : σ} {h : α} (hh : h ∈ D.headers.get db) :
    h ∈ D.headersOf db (D.idOf h) := mem_headersOf.mpr ⟨hh, rfl⟩

theorem present_self {db : σ} {h : α} (hh : h ∈ D.headers.get db) :
    D.Present db (D.idOf h) (D.tag h) := ⟨h, mem_headersOf_self hh, rfl⟩

theorem Present.ne_nil {db : σ} {d : δ} {w : ω} (h : D.Present db d w) : D.headersOf db d ≠ [] :=
  let ⟨_, hh, _⟩ := h
  List.ne_nil_of_mem hh

/-! ### 1.1 Statements -/

theorem acts_insertHeaders (new : List α) : D.Acts (D.headers.insert new).apply
    (fun d l => l ++ new.filter fun h => D.idOf h = d) fun _ => id where
  headers db d := by
    show List.filter _ (D.headers.get (D.headers.set db _)) = _
    rw [D.headers_set, List.filter_append]
    rfl
  lines db d := by
    show List.filter _ (D.lines.get (D.headers.set db _)) = _
    rw [D.lines_of_headers]
    rfl

/-- An UPDATE of the headers of one document. -/
theorem acts_updateHeaders (p : α → Bool) (f : α → α)
    (hname : ∀ h, D.headers.name (f h) = D.headers.name h) (hid : ∀ h, D.idOf (f h) = D.idOf h)
    (view : σ) : D.Acts (D.headers.update p f hname view).apply (fun d l => l.map fun h =>
      if p h && (D.headers.matching p view).contains (D.name d) then f h else h) fun _ => id where
  headers db d := by
    show List.filter _ (D.headers.get (D.headers.set db _)) = _
    rw [D.headers_set, List.filter_map]
    have hsame : ((D.headers.get db).filter ((fun h => decide (D.idOf h = d)) ∘ fun h =>
        if p h && (D.headers.matching p view).contains (D.headers.name h) then f h else h)) =
          D.headersOf db d := by
      refine List.filter_congr fun h _ => ?_
      rw [Function.comp_apply]
      split
      · rw [hid]
      · rfl
    rw [hsame]
    refine List.map_congr_left fun h hh => ?_
    rw [D.name_idOf, (mem_headersOf.mp hh).2]
  lines db d := by
    show List.filter _ (D.lines.get (D.headers.set db _)) = _
    rw [D.lines_of_headers]
    rfl

/-- A DELETE of the headers that its condition tells by their ids and tags. -/
theorem acts_deleteHeaders (P : δ → ω → Bool) (view : σ) :
    D.Acts (D.headers.delete (fun h => P (D.idOf h) (D.tag h)) view).apply
      (fun d l => l.filter fun h => !(P d (D.tag h) &&
        (D.headers.matching (fun h => P (D.idOf h) (D.tag h)) view).contains (D.name d)))
      fun _ => id where
  headers db d := by
    show List.filter _ (D.headers.get (D.headers.set db _)) = _
    rw [D.headers_set, headersOf, List.filter_filter, List.filter_filter]
    refine List.filter_congr fun h _ => ?_
    by_cases hd : D.idOf h = d
    · subst hd
      rw [D.name_idOf]
      exact Bool.and_comm _ _
    · simp [hd]
  lines db d := by
    show List.filter _ (D.lines.get (D.headers.set db _)) = _
    rw [D.lines_of_headers]
    rfl

theorem acts_insertLines (new : List β) : D.Acts (D.lines.insert new).apply (fun _ => id)
    fun d l => l ++ new.filter fun x => D.parent x = d where
  headers db d := by
    show List.filter _ (D.headers.get (D.lines.set db _)) = _
    rw [D.headers_of_lines]
    rfl
  lines db d := by
    show List.filter _ (D.lines.get (D.lines.set db _)) = _
    rw [D.lines_set, List.filter_append]
    rfl

/-- A DELETE of all the lines of some documents. -/
theorem acts_deleteLines (P : δ → Bool) (view : σ) :
    D.Acts (D.lines.delete (fun x => P (D.parent x)) view).apply (fun _ => id) fun d l =>
      l.filter fun x =>
        !(P d && (D.lines.matching (fun x => P (D.parent x)) view).contains (D.lines.name x)) where
  headers db d := by
    show List.filter _ (D.headers.get (D.lines.set db _)) = _
    rw [D.headers_of_lines]
    rfl
  lines db d := by
    show List.filter _ (D.lines.get (D.lines.set db _)) = _
    rw [D.lines_set, linesOf, List.filter_filter, List.filter_filter]
    refine List.filter_congr fun x _ => ?_
    by_cases hd : D.parent x = d
    · subst hd
      exact Bool.and_comm _ _
    · simp [hd]

/-! ## 2. Where a request can be -/

/-- **Who writes what**: the document that a request adds, the one that it writes, and what it
writes of it. -/
structure Authors (L α β δ ω : Type) where
  makes : L → Option (δ × ω)
  writes : L → Option δ
  head : L → α → Prop
  body : L → List β

/-- Before its first write, with the documents it has seen; with the header written, the old lines
gone, the new ones there; and with the lines of what it throws away gone, and the headers. -/
inductive Stage (δ ω : Type) where
  | away (seen : δ → ω → Prop)
  | amid (d : δ)
  | emptied (d : δ)
  | written (d : δ)
  | scrapping (q : δ → ω → Prop)
  | scrapped

variable {κ ε τ L : Type} (A : Authors L α β δ ω) (l : L)

variable (D) in
/-- **A request that writes documents as it should**, from a stage on. -/
inductive At : Stage δ ω → Prog σ ρ κ ε τ → Prop
  | ret {seen} (a : τ) (hl : A.writes l = none) : At (.away seen) (.ret a)
  | done {d} (a : τ) (hl : A.writes l = some d) : At (.written d) (.ret a)
  | gone (a : τ) (hl : A.writes l = none) : At .scrapped (.ret a)
  | raise {stage} (e : ε) : At stage (.raise e)
  | read {stage} {γ : Type} {q : σ → Int → γ} {k : γ → Prog σ ρ κ ε τ}
      (hk : ∀ b, At stage (k b)) : At stage (.read q k)
  | see {seen} {γ : Type} {q : σ → Int → γ} {k : γ → Prog σ ρ κ ε τ}
      (hk : ∀ db t, At (.away fun d w => seen d w ∨ D.Present db d w) (k (q db t))) :
      At (.away seen) (.read q k)
  | clock {stage} {k : Int → Prog σ ρ κ ε τ} (hk : ∀ t, At stage (k t)) : At stage (.clock k)
  | lock {stage} {x : κ} {k : Prog σ ρ κ ε τ} (hk : At stage k) : At stage (.lock x k)
  | tryLock {stage} {x : κ} {k : Bool → Prog σ ρ κ ε τ} (hk : ∀ b, At stage (k b)) :
      At stage (.tryLock x k)
  | aside {stage} {stmt : σ → Except ε (Change σ ρ)} {k : Nat → Prog σ ρ κ ε τ}
      (hc : ∀ db c, stmt db = .ok c → D.Acts c.apply (fun _ => id) fun _ => id)
      (hk : ∀ n, At stage (k n)) : At stage (.write stmt k)
  | create {seen} {h : α} {stmt : σ → Except ε (Change σ ρ)} {k : Nat → Prog σ ρ κ ε τ}
      (hl : A.makes l = some (D.idOf h, D.tag h)) (hhead : A.head l h)
      (hc : ∀ db c, stmt db = .ok c → D.name (D.idOf h) ∈ c.rows ∧
        D.Acts c.apply (fun d l => l ++ [h].filter fun h => D.idOf h = d) fun _ => id)
      (hk : ∀ n, At (.emptied (D.idOf h)) (k n)) : At (.away seen) (.write stmt k)
  | amend {seen} {d : δ} {w : ω} {stmt : σ → Except ε (Change σ ρ)} {k : Nat → Prog σ ρ κ ε τ}
      (hl : A.makes l = none) (hd : seen d w)
      (hc : ∀ db c, stmt db = .ok c → ∃ F, D.Acts c.apply F (fun _ => id) ∧
        (∀ e, e ≠ d → F e = id) ∧ F d [] = [] ∧ (D.headersOf db d ≠ [] → D.name d ∈ c.rows ∧
          ∀ h, ∃ h', F d [h] = [h'] ∧ D.tag h' = D.tag h ∧
            (D.idOf h = d → D.tag h = w → A.head l h')))
      (hk : ∀ n, At (.amid d) (k n)) : At (.away seen) (.write stmt k)
  | clear {d : δ} {stmt : σ → Except ε (Change σ ρ)} {k : Nat → Prog σ ρ κ ε τ}
      (hc : ∀ db c, stmt db = .ok c → ∃ G, D.Acts c.apply (fun _ => id) G ∧
        (∀ e, e ≠ d → G e = id) ∧ G d (D.linesOf db d) = [])
      (hk : ∀ n, At (.emptied d) (k n)) : At (.amid d) (.write stmt k)
  | fill {d : δ} {stmt : σ → Except ε (Change σ ρ)} {k : Nat → Prog σ ρ κ ε τ}
      (hc : ∀ db c, stmt db = .ok c → D.headersOf db d ≠ [] ∧ ∃ G,
        D.Acts c.apply (fun _ => id) G ∧ (∀ e, e ≠ d → G e = id) ∧ G d [] = A.body l)
      (hk : ∀ n, At (.written d) (k n)) : At (.emptied d) (.write stmt k)
  | scrap {seen q} {stmt : σ → Except ε (Change σ ρ)} {k : Nat → Prog σ ρ κ ε τ}
      (hc : ∀ db c, stmt db = .ok c → ∃ G, D.Acts c.apply (fun _ => id) G ∧
        ∀ d, G d = id ∨ ∃ w, (seen d w ∨ D.Present db d w) ∧ q d w)
      (hk : ∀ n, At (.scrapping q) (k n)) : At (.away seen) (.write stmt k)
  | drop {q} {stmt : σ → Except ε (Change σ ρ)} {k : Nat → Prog σ ρ κ ε τ}
      (hc : ∀ db c, stmt db = .ok c → ∃ F, D.Acts c.apply F (fun _ => id) ∧
        (∀ d, F d [] = []) ∧ ∀ d, (F d = id ∧ ∀ w, D.Present db d w → ¬ q d w) ∨
          (D.name d ∈ c.rows ∧ ∃ w, D.Present db d w ∧
            ∀ l, (∀ h ∈ l, D.tag h = w) → F d l = []))
      (hk : ∀ n, At .scrapped (k n)) : At (.scrapping q) (.write stmt k)

/-! ### 2.1 Rules -/

variable (D) in
/-- Neither the headers nor the lines. -/
def untouched : Guarantee σ ρ where
  rel _ db db' := D.headers.get db' = D.headers.get db ∧ D.lines.get db' = D.lines.get db
  refl _ _ := ⟨rfl, rfl⟩
  trans h h' := ⟨h'.1.trans h.1, h'.2.trans h.2⟩
  mono _ h := h

section Rules

open Prog

variable {A l} {stage : Stage δ ω} {seen q : δ → ω → Prop}

theorem acts_untouched {c : Change σ ρ} (h : ∀ db, D.untouched.rel c.rows db (c.apply db)) :
    D.Acts c.apply (fun _ => id) fun _ => id where
  headers db _ := congrArg (List.filter _) (h db).1
  lines db _ := congrArg (List.filter _) (h db).2

/-- What a request does beside its documents. -/
theorem At.beside {γ : Type} {p : Prog σ ρ κ ε γ} {f : γ → Prog σ ρ κ ε τ}
    (hp : Keeps D.untouched p) (hf : ∀ a, D.At A l stage (f a)) : D.At A l stage (p.bind f) := by
  induction p with
  | ret a => exact hf a
  | raise e => exact .raise e
  | read q k ih => exact .read fun b => ih b (hp b)
  | clock k ih => exact .clock fun t => ih t (hp t)
  | lock x k ih => exact .lock (ih hp)
  | tryLock x k ih => exact .tryLock fun b => ih b (hp b)
  | write stmt k ih =>
    exact .aside (fun db c hc => acts_untouched (hp.1 db c hc)) fun n => ih n (hp.2 n)

theorem At.checked {γ : Type} {p : Prog σ ρ κ ε γ} {f : γ → Prog σ ρ κ ε τ} (hp : ReadOnly p)
    (hf : ∀ a, D.At A l stage (f a)) : D.At A l stage (p.bind f) := .beside (Keeps.readOnly hp) hf

variable {stmt : σ → Except ε (Change σ ρ)} {f : Unit → Prog σ ρ κ ε τ} {d : δ} {w : ω}

theorem At.insertHeader {h : α} (hl : A.makes l = some (D.idOf h, D.tag h)) (hhead : A.head l h)
    (hc : ∀ db c, stmt db = .ok c → c = D.headers.insert [h])
    (hf : D.At A l (.emptied (D.idOf h)) (f ())) :
    D.At A l (.away seen) ((execute stmt).bind f) := by
  refine .create hl hhead (fun db c hok => ?_) fun _ => hf
  rw [hc db c hok]
  exact ⟨D.name_idOf h ▸ List.mem_singleton_self _, acts_insertHeaders [h]⟩

theorem mem_matching_of_headersOf {p : α → Bool} {db : σ} (hp : ∀ h, D.idOf h = d → p h = true)
    (hne : D.headersOf db d ≠ []) : D.name d ∈ D.headers.matching p db := by
  obtain ⟨h, hh⟩ := List.exists_mem_of_ne_nil _ hne
  obtain ⟨hmem, hid⟩ := mem_headersOf.mp hh
  rw [← hid, ← D.name_idOf]
  exact D.headers.mem_matching hmem (hp h hid)

/-- An UPDATE of one header, found by its id. -/
theorem At.updateHeader {g : α → α} (hname : ∀ h, D.headers.name (g h) = D.headers.name h)
    (hid : ∀ h, D.idOf (g h) = D.idOf h) (htag : ∀ h, D.tag (g h) = D.tag h)
    (hl : A.makes l = none) (hd : seen d w)
    (hhead : ∀ h, D.idOf h = d → D.tag h = w → A.head l (g h))
    (hc : ∀ db c, stmt db = .ok c → c = D.headers.update (fun h => D.idOf h = d) g hname db)
    (hf : D.At A l (.amid d) (f ())) : D.At A l (.away seen) ((execute stmt).bind f) := by
  refine .amend hl hd (fun db c hok => ?_) fun _ => hf
  rw [hc db c hok]
  refine ⟨_, acts_updateHeaders _ g hname hid db, fun e he => ?_, rfl, fun hne => ?_⟩
  · have hnot : (D.headers.matching (fun h => D.idOf h = d) db).contains (D.name e) = false := by
      rw [← Bool.not_eq_true, List.contains_iff_mem, Table.matching, List.mem_map]
      rintro ⟨h, hh, hname⟩
      rw [D.name_idOf, of_decide_eq_true (List.mem_filter.mp hh).2] at hname
      exact he (D.name_inj hname).symm
    simp only [hnot, Bool.and_false, Bool.false_eq_true, if_false, List.map_id']
    rfl
  · have hmem := mem_matching_of_headersOf (p := fun h => decide (D.idOf h = d))
      (fun h hh => decide_eq_true hh) hne
    refine ⟨hmem, fun h => ⟨_, rfl, ?_, fun hh hw => ?_⟩⟩
    · dsimp only
      split
      · exact htag h
      · rfl
    · dsimp only
      rw [List.contains_iff_mem.mpr hmem, decide_eq_true hh]
      exact hhead h hh hw

/-- A DELETE of the lines of one document. -/
theorem At.deleteLines
    (hc : ∀ db c, stmt db = .ok c → c = D.lines.delete (fun x => D.parent x = d) db)
    (hf : D.At A l (.emptied d) (f ())) : D.At A l (.amid d) ((execute stmt).bind f) := by
  refine .clear (fun db c hok => ?_) fun _ => hf
  rw [hc db c hok]
  refine ⟨_, acts_deleteLines (fun e => e = d) db, fun e he => ?_, ?_⟩
  · simp only [he, decide_false, Bool.false_and, Bool.not_false, List.filter_true]
    rfl
  · refine List.filter_eq_nil_iff.mpr fun x hx => ?_
    obtain ⟨hx, hparent⟩ := List.mem_filter.mp hx
    have hmem := D.lines.mem_matching (p := fun x => decide (D.parent x = d)) hx hparent
    simp [hmem]

/-- The INSERT of the lines, refused where the document is not there. -/
theorem At.insertLines {new : List β} (hnew : ∀ x ∈ new, D.parent x = d) (hbody : A.body l = new)
    (hc : ∀ db c, stmt db = .ok c → D.headersOf db d ≠ [] ∧ c = D.lines.insert new)
    (hf : D.At A l (.written d) (f ())) : D.At A l (.emptied d) ((execute stmt).bind f) := by
  refine .fill (fun db c hok => ?_) fun _ => hf
  obtain ⟨hne, rfl⟩ := hc db c hok
  refine ⟨hne, _, acts_insertLines new, fun e he => ?_, ?_⟩
  · have hnone : (new.filter fun x => D.parent x = e) = [] := by
      refine List.filter_eq_nil_iff.mpr fun x hx hparent => he ?_
      exact (of_decide_eq_true hparent).symm.trans (hnew x hx)
    rw [hnone]
    exact funext List.append_nil
  · rw [List.nil_append, hbody]
    exact List.filter_eq_self.mpr fun x hx => decide_eq_true (hnew x hx)

/-- A DELETE of the lines of the documents that are to go. -/
theorem At.scrapLines {Q : σ → δ → Bool}
    (hQ : ∀ db d, Q db d = true → ∃ w, (seen d w ∨ D.Present db d w) ∧ q d w)
    (hc : ∀ db c, stmt db = .ok c → c = D.lines.delete (fun x => Q db (D.parent x)) db)
    (hf : D.At A l (.scrapping q) (f ())) : D.At A l (.away seen) ((execute stmt).bind f) := by
  refine .scrap (fun db c hok => ?_) fun _ => hf
  rw [hc db c hok]
  refine ⟨_, acts_deleteLines (Q db) db, fun d => ?_⟩
  cases hd : Q db d with
  | false =>
    left
    simp only [Bool.false_and, Bool.not_false, List.filter_true]
    rfl
  | true => exact .inr (hQ db d hd)

/-- The DELETE of their headers. -/
theorem At.dropHeaders {P : δ → ω → Bool} (hc : ∀ db c, stmt db = .ok c →
      c = D.headers.delete (fun h => P (D.idOf h) (D.tag h)) db)
    (hf : D.At A l .scrapped (f ())) :
    D.At A l (.scrapping fun d w => P d w = true) ((execute stmt).bind f) := by
  refine .drop (fun db c hok => ?_) fun _ => hf
  rw [hc db c hok]
  refine ⟨_, acts_deleteHeaders P db, fun _ => rfl, fun d => ?_⟩
  by_cases hdrop : ∃ w, D.Present db d w ∧ P d w = true
  · obtain ⟨w, ⟨h, hh, rfl⟩, hP⟩ := hdrop
    obtain ⟨hmem, rfl⟩ := mem_headersOf.mp hh
    have hrow := D.headers.mem_matching (p := fun h => P (D.idOf h) (D.tag h)) hmem hP
    rw [D.name_idOf] at hrow
    refine .inr ⟨hrow, _, ⟨h, hh, rfl⟩, fun l hl => List.filter_eq_nil_iff.mpr fun x hx => ?_⟩
    rw [hl x hx, hP, List.contains_iff_mem.mpr hrow]
    simp
  · have hspared : ∀ w, D.Present db d w → ¬ P d w = true := fun w hw hP => hdrop ⟨w, hw, hP⟩
    have hnot : (D.headers.matching (fun h => P (D.idOf h) (D.tag h)) db).contains (D.name d) =
        false := by
      rw [← Bool.not_eq_true, List.contains_iff_mem, Table.matching, List.mem_map]
      rintro ⟨h, hh, hname⟩
      obtain ⟨hmem, hP⟩ := List.mem_filter.mp hh
      rw [D.name_idOf] at hname
      obtain rfl := D.name_inj hname
      exact hspared _ (present_self hmem) hP
    refine .inl ⟨?_, hspared⟩
    simp only [hnot, Bool.and_false, Bool.not_false, List.filter_true]
    rfl

end Rules

end Documents

end NewlifeCore.Txn
