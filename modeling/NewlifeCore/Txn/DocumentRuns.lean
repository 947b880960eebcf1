import Mathlib.Data.List.Nodup
import NewlifeCore.Txn.Documents
import NewlifeCore.Txn.Interleaving

/-!
# Documents under interleaved transactions

Statements of different requests come in any order, and some wait for each other.  Still, what is
committed of a document is always what one request wrote of it, header and lines, and it is the
request that committed last.  Who finds the header locked waits for it, and so writes the lines
after the other's; who finds the header gone writes nothing, or is refused when it adds lines.
-/

namespace NewlifeCore.Txn

namespace Documents

variable {σ ρ α β δ ω κ ε τ L : Type} [RowStore σ ρ] [DecidableEq ρ] [DecidableEq δ]
  {D : Documents σ ρ α β δ ω} (A : Authors L α β δ ω) (l : L)

/-! ## 1. Where a transaction stands -/

section Standing

variable (D) (born : δ → ω → Prop) (db : σ)

/-- A document that was there and is not. -/
def Dead (d : δ) : Prop := (∃ w, born d w) ∧ D.headersOf db d = []

/-- **What holds of the committed documents**, `born` being those that were ever there: a document
has one header at most, and never another tag. -/
structure Sound : Prop where
  present : ∀ {d w}, D.Present db d w → born d w
  tag : ∀ {d w w'}, born d w → born d w' → w = w'
  single : ∀ d, D.headersOf db d = [] ∨ ∃ h, D.headersOf db d = [h]
  lines : ∀ {d}, (∀ w, ¬ born d w) → D.linesOf db d = []

/-- The header as the request writes it. -/
def Headed (d : δ) (hs : List α) : Prop :=
  ∃ h, hs = [h] ∧ A.head l h ∧ (born d (D.tag h) ∨ A.makes l = some (d, D.tag h))

/-- **What a transaction has made of the documents** by a stage, and which of them it holds. -/
def Stands : Stage δ ω → (δ → List α → List α) → (δ → List β → List β) → List ρ → Prop
  | .away seen, F, G, _ => (∀ d, F d = id) ∧ (∀ d, G d = id) ∧ ∀ d w, seen d w → born d w
  | .amid d, F, G, rows => (∀ e, e ≠ d → F e = id) ∧ (∀ e, G e = id) ∧ F d [] = [] ∧
      (¬ D.Dead born db d →
        D.name d ∈ rows ∧ D.Headed A l born d (F d (D.headersOf db d)))
  | .emptied d, F, G, rows => (∀ e, e ≠ d → F e = id ∧ G e = id) ∧
      ((∃ w, A.makes l = some (d, w)) ∨ F d [] = []) ∧
      (¬ D.Dead born db d → D.name d ∈ rows ∧
        D.Headed A l born d (F d (D.headersOf db d)) ∧ G d (D.linesOf db d) = [])
  | .written d, F, G, rows => (∀ e, e ≠ d → F e = id ∧ G e = id) ∧
      ((∃ w, A.makes l = some (d, w)) ∨ F d [] = []) ∧ D.name d ∈ rows ∧
      D.Headed A l born d (F d (D.headersOf db d)) ∧ G d (D.linesOf db d) = A.body l
  | .scrapping q, F, G, _ => (∀ d, F d = id) ∧ ∀ d, G d = id ∨ ∃ w, born d w ∧ q d w
  | .scrapped, F, G, rows => (∀ d, F d [] = []) ∧ ∀ d, (F d = id ∧ G d = id) ∨
      D.Dead born db d ∨
        (D.name d ∈ rows ∧ (∃ w, born d w) ∧ F d (D.headersOf db d) = [])

/-- Documents that were there when the transaction saw them. -/
def Knows : Stage δ ω → (δ → List β → List β) → δ → Prop
  | .away seen, _, d => ∃ w, seen d w
  | .scrapping _, G, d => G d ≠ id
  | _, _, _ => False

/-- What a waiting statement was issued on, as far as it still tells about now. -/
structure Past (stage : Stage δ ω) (F : δ → List α → List α) (G : δ → List β → List β)
    (rows : List ρ) (view : σ) : Prop where
  present : ∀ {d w}, F d = id → D.Present view d w → born d w
  known : ∀ {d}, Knows stage G d → D.headersOf view d = [] → D.Dead born db d
  held : ∀ {d}, D.name d ∈ rows → ¬ D.Dead born db d →
    D.linesOf view d = G d (D.linesOf db d)

end Standing

section Moves

variable {A l} {born born' : δ → ω → Prop} {db db' : σ} {stage : Stage δ ω}
  {F : δ → List α → List α} {G : δ → List β → List β} {rows rows' : List ρ} {view : σ} {own : σ → σ}

theorem Sound.born_of_ne_nil (hs : D.Sound born db) {d : δ} (h : D.headersOf db d ≠ []) :
    ∃ w, born d w := by
  obtain ⟨x, hx⟩ := List.exists_mem_of_ne_nil _ h
  exact ⟨D.tag x, hs.present ⟨x, hx, rfl⟩⟩

/-- A statement that is issued now. -/
theorem Past.now (hs : D.Sound born db) (hacts : D.Acts own F G)
    (h : D.Stands A l born db stage F G rows) : D.Past born db stage F G rows (own db) where
  present {d w} hF hp := by
    obtain ⟨x, hx, hw⟩ := hp
    rw [hacts.headers, hF] at hx
    exact hs.present ⟨x, hx, hw⟩
  known {d} hk hnil := by
    cases stage with
    | away seen =>
      obtain ⟨hF, -, hseen⟩ := h
      obtain ⟨w, hw⟩ := hk
      rw [hacts.headers, hF] at hnil
      exact ⟨⟨w, hseen d w hw⟩, hnil⟩
    | scrapping q =>
      obtain ⟨hF, hG⟩ := h
      obtain ⟨w, hw, -⟩ := (hG d).resolve_left hk
      rw [hacts.headers, hF] at hnil
      exact ⟨⟨w, hw⟩, hnil⟩
    | amid d => exact hk.elim
    | emptied d => exact hk.elim
    | written d => exact hk.elim
    | scrapped => exact hk.elim
  held _ _ := hacts.lines _ _

theorem Stands.mono (hrows : rows ⊆ rows') (h : D.Stands A l born db stage F G rows) :
    D.Stands A l born db stage F G rows' := by
  cases stage with
  | away seen => exact h
  | amid d => exact ⟨h.1, h.2.1, h.2.2.1, fun hd => (h.2.2.2 hd).imp_left (@hrows _)⟩
  | emptied d => exact ⟨h.1, h.2.1, fun hd => (h.2.2 hd).imp_left (@hrows _)⟩
  | written d => exact ⟨h.1, h.2.1, hrows h.2.2.1, h.2.2.2⟩
  | scrapping q => exact h
  | scrapped =>
    exact ⟨h.1, fun d => (h.2 d).imp_right fun h => h.imp_right (And.imp_left (@hrows _))⟩

/-! ### 1.1 The others move -/

variable (D) in
/-- **What becomes of the documents while a transaction holds some rows**: nothing of the headers it
holds, and nothing of their lines, unless the document is dead. -/
structure Later (born born' : δ → ω → Prop) (db db' : σ) (rows : List ρ) : Prop where
  kept : ∀ {d w}, born d w → born' d w
  dead : ∀ {d}, D.Dead born db d → D.Dead born' db' d
  headers : ∀ {d}, D.name d ∈ rows → D.headersOf db' d = D.headersOf db d
  lines : ∀ {d}, D.name d ∈ rows → D.linesOf db' d = D.linesOf db d ∨ D.Dead born' db' d

omit [DecidableEq δ] in
theorem Headed.later (h : ∀ {d w}, born d w → born' d w) {d : δ} {hs : List α}
    (hd : D.Headed A l born d hs) : D.Headed A l born' d hs :=
  let ⟨x, hx, hhead, htag⟩ := hd
  ⟨x, hx, hhead, htag.imp_left h⟩

/-- **The others leave a transaction where it stands.** -/
theorem Stands.later (hmakes : ∀ d w, A.makes l = some (d, w) → ∀ w', ¬ born' d w')
    (hl : D.Later born born' db db' rows) (h : D.Stands A l born db stage F G rows) :
    D.Stands A l born' db' stage F G rows := by
  cases stage with
  | away seen => exact ⟨h.1, h.2.1, fun d w hw => hl.kept (h.2.2 d w hw)⟩
  | amid d =>
    obtain ⟨hF, hG, hnil, hheld⟩ := h
    refine ⟨hF, hG, hnil, fun halive => ?_⟩
    obtain ⟨hrow, hhead⟩ := hheld fun hdead => halive (hl.dead hdead)
    exact ⟨hrow, hl.headers hrow ▸ hhead.later hl.kept⟩
  | emptied d =>
    obtain ⟨hFG, hnil, hheld⟩ := h
    refine ⟨hFG, hnil, fun halive => ?_⟩
    obtain ⟨hrow, hhead, hlines⟩ := hheld fun hdead => halive (hl.dead hdead)
    exact ⟨hrow, hl.headers hrow ▸ hhead.later hl.kept,
      (hl.lines hrow).resolve_right halive ▸ hlines⟩
  | written d =>
    obtain ⟨hFG, hnil, hrow, hhead, hlines⟩ := h
    have halive : ¬ D.Dead born' db' d := by
      rintro ⟨⟨w, hw⟩, hgone⟩
      obtain ⟨x, hx, -⟩ := hhead
      rw [← hl.headers hrow, hgone] at hx
      rcases hnil with ⟨w', hw'⟩ | hnil
      · exact hmakes d w' hw' w hw
      · rw [hnil] at hx
        cases hx
    exact ⟨hFG, hnil, hrow, hl.headers hrow ▸ hhead.later hl.kept,
      (hl.lines hrow).resolve_right halive ▸ hlines⟩
  | scrapping q =>
    exact ⟨h.1, fun d => (h.2 d).imp_right fun ⟨w, hw, hq⟩ => ⟨w, hl.kept hw, hq⟩⟩
  | scrapped =>
    refine ⟨h.1, fun d => ?_⟩
    rcases h.2 d with hid | hdead | ⟨hrow, ⟨w, hw⟩, hgone⟩
    · exact .inl hid
    · exact .inr (.inl (hl.dead hdead))
    · exact .inr (.inr ⟨hrow, ⟨w, hl.kept hw⟩, hl.headers hrow ▸ hgone⟩)

theorem Past.later (hl : D.Later born born' db db' rows)
    (h : D.Past born db stage F G rows view) : D.Past born' db' stage F G rows view where
  present hF hp := hl.kept (h.present hF hp)
  known hk hnil := hl.dead (h.known hk hnil)
  held hrow halive :=
    (h.held hrow fun hdead => halive (hl.dead hdead)).trans
      (congrArg (G _) ((hl.lines hrow).resolve_right halive).symm)

/-! ### 1.2 Its own statements -/

/-- **A read leaves a transaction where it stands**, but for the documents that it has now seen. -/
theorem At.look {γ : Type} {q : σ → Int → γ} {k : γ → Prog σ ρ κ ε τ} {t : Int}
    (hat : D.At A l stage (.read q k)) (hs : D.Sound born db) (hacts : D.Acts own F G)
    (h : D.Stands A l born db stage F G rows) :
    ∃ stage', D.At A l stage' (k (q (own db) t)) ∧ D.Stands A l born db stage' F G rows := by
  cases hat with
  | read hk => exact ⟨stage, hk _, h⟩
  | @see seen _ _ _ hk =>
    obtain ⟨hF, hG, hseen⟩ := h
    refine ⟨_, hk (own db) t, hF, hG, fun d w hw => ?_⟩
    rcases hw with hw | ⟨x, hx, rfl⟩
    · exact hseen d w hw
    · rw [hacts.headers, hF] at hx
      exact hs.present ⟨x, hx, rfl⟩

variable {seen q : δ → ω → Prop} {d : δ} {crows : List ρ}

/-- **A new header**: nobody else has ever had the document, so that it has no other and no line. -/
theorem Stands.create {x : α} (h : D.Stands A l born db (.away seen) F G rows)
    (hs : D.Sound born db) (hmakes : ∀ d w, A.makes l = some (d, w) → ∀ w', ¬ born d w')
    (hl : A.makes l = some (D.idOf x, D.tag x)) (hhead : A.head l x)
    (hrow : D.name (D.idOf x) ∈ crows) :
    D.Stands A l born db (.emptied (D.idOf x))
      (fun d => (fun l => l ++ [x].filter fun h => D.idOf h = d) ∘ F d) (fun d => id ∘ G d)
      (crows ++ rows) := by
  obtain ⟨hF, hG, -⟩ := h
  have hunborn := hmakes _ _ hl
  have hnil : D.headersOf db (D.idOf x) = [] := by
    by_contra hne
    obtain ⟨w, hw⟩ := hs.born_of_ne_nil hne
    exact hunborn w hw
  refine ⟨fun e he => ⟨?_, hG e⟩, .inl ⟨_, hl⟩, fun _ => ?_⟩
  · show (fun l => l ++ [x].filter fun h => D.idOf h = e) ∘ F e = id
    rw [hF, List.filter_singleton, decide_eq_false (Ne.symm he)]
    exact funext List.append_nil
  · refine ⟨List.mem_append_left _ hrow, ⟨x, ?_, hhead, .inr hl⟩, ?_⟩
    · simp [hF, hnil]
    · show G _ _ = []
      rw [hG]
      exact hs.lines hunborn

/-- **A header rewritten**, of a document that the request has seen: unless the document is dead, its
one header is among the rows that the statement found. -/
theorem Stands.amend {w : ω} {F₁ : δ → List α → List α}
    (h : D.Stands A l born db (.away seen) F G rows) (hs : D.Sound born db) (hd : seen d w)
    (hpast : D.Past born db (.away seen) F G rows view) (hother : ∀ e, e ≠ d → F₁ e = id)
    (hnil : F₁ d [] = []) (hheld : D.headersOf view d ≠ [] → D.name d ∈ crows ∧
      ∀ h, ∃ h', F₁ d [h] = [h'] ∧ D.tag h' = D.tag h ∧
        (D.idOf h = d → D.tag h = w → A.head l h')) :
    D.Stands A l born db (.amid d) (fun e => F₁ e ∘ F e) (fun e => id ∘ G e) (crows ++ rows) := by
  obtain ⟨hF, hG, hseen⟩ := h
  refine ⟨fun e he => ?_, hG, ?_, fun halive => ?_⟩
  · show F₁ e ∘ F e = id
    rw [hother e he, hF]
    rfl
  · show F₁ d (F d []) = []
    rw [hF]
    exact hnil
  · have hview : D.headersOf view d ≠ [] := fun hgone => halive (hpast.known ⟨w, hd⟩ hgone)
    obtain ⟨hrow, hwrites⟩ := hheld hview
    obtain ⟨x, hx⟩ := (hs.single d).resolve_left fun hgone => halive ⟨⟨w, hseen d w hd⟩, hgone⟩
    have hmem : x ∈ D.headersOf db d := hx ▸ List.mem_singleton_self x
    obtain ⟨x', hx', htag, hhead⟩ := hwrites x
    have hborn := hs.present ⟨x, hmem, rfl⟩
    have hw := hs.tag hborn (hseen d w hd)
    refine ⟨List.mem_append_left _ hrow, x', ?_, hhead (mem_headersOf.mp hmem).2 hw, .inl ?_⟩
    · show F₁ d (F d _) = [x']
      rw [hx, hF]
      exact hx'
    · rw [htag]
      exact hborn

/-- **The old lines deleted**: they are those that the statement found, since the header is held. -/
theorem Stands.clear {G₁ : δ → List β → List β} (h : D.Stands A l born db (.amid d) F G rows)
    (hpast : D.Past born db (.amid d) F G rows view) (hother : ∀ e, e ≠ d → G₁ e = id)
    (hempty : G₁ d (D.linesOf view d) = []) :
    D.Stands A l born db (.emptied d) (fun e => id ∘ F e) (fun e => G₁ e ∘ G e) (crows ++ rows) := by
  obtain ⟨hF, hG, hnil, hheld⟩ := h
  refine ⟨fun e he => ⟨hF e he, ?_⟩, .inr hnil, fun halive => ?_⟩
  · show G₁ e ∘ G e = id
    rw [hother e he, hG]
    rfl
  · obtain ⟨hrow, hhead⟩ := hheld halive
    refine ⟨List.mem_append_right _ hrow, hhead, ?_⟩
    show G₁ d (G d _) = []
    rw [← hpast.held hrow halive]
    exact hempty

/-- **The new lines inserted**: the header is there now, so the document is not dead. -/
theorem Stands.fill {G₁ : δ → List β → List β} (h : D.Stands A l born db (.emptied d) F G rows)
    (hmakes : ∀ d w, A.makes l = some (d, w) → ∀ w', ¬ born d w') (hacts : D.Acts own F G)
    (hnow : D.headersOf (own db) d ≠ []) (hother : ∀ e, e ≠ d → G₁ e = id)
    (hbody : G₁ d [] = A.body l) :
    D.Stands A l born db (.written d) (fun e => id ∘ F e) (fun e => G₁ e ∘ G e) (crows ++ rows) := by
  obtain ⟨hFG, hnil, hheld⟩ := h
  have halive : ¬ D.Dead born db d := by
    rintro ⟨⟨w, hw⟩, hgone⟩
    refine hnow ?_
    rw [hacts.headers, hgone]
    rcases hnil with ⟨w', hw'⟩ | hnil
    · exact absurd hw (hmakes d w' hw' w)
    · exact hnil
  obtain ⟨hrow, hhead, hempty⟩ := hheld halive
  refine ⟨fun e he => ⟨(hFG e he).1, ?_⟩, hnil, List.mem_append_right _ hrow, hhead, ?_⟩
  · show G₁ e ∘ G e = id
    rw [hother e he]
    exact (hFG e he).2
  · show G₁ d (G d _) = _
    rw [hempty]
    exact hbody

/-- **Lines thrown away**, of documents that the request has seen. -/
theorem Stands.scrap {G₁ : δ → List β → List β} (h : D.Stands A l born db (.away seen) F G rows)
    (hpast : D.Past born db (.away seen) F G rows view)
    (hlines : ∀ d, G₁ d = id ∨ ∃ w, (seen d w ∨ D.Present view d w) ∧ q d w) :
    D.Stands A l born db (.scrapping q) (fun e => id ∘ F e) (fun e => G₁ e ∘ G e)
      (crows ++ rows) := by
  obtain ⟨hF, hG, hseen⟩ := h
  refine ⟨hF, fun d => ?_⟩
  rcases hlines d with hid | ⟨w, hw, hq⟩
  · left
    show G₁ d ∘ G d = id
    rw [hid, hG]
    rfl
  · refine .inr ⟨w, hw.elim (hseen d w) fun hp => hpast.present (hF d) hp, hq⟩

/-- **And the headers**: whose lines are gone goes too, unless it went before. -/
theorem Stands.drop {F₁ : δ → List α → List α} (h : D.Stands A l born db (.scrapping q) F G rows)
    (hs : D.Sound born db) (hpast : D.Past born db (.scrapping q) F G rows view)
    (hnil : ∀ d, F₁ d [] = [])
    (hheaders : ∀ d, (F₁ d = id ∧ ∀ w, D.Present view d w → ¬ q d w) ∨
      (D.name d ∈ crows ∧ ∃ w, D.Present view d w ∧ ∀ l, (∀ h ∈ l, D.tag h = w) → F₁ d l = [])) :
    D.Stands A l born db .scrapped (fun e => F₁ e ∘ F e) (fun e => id ∘ G e) (crows ++ rows) := by
  obtain ⟨hF, hG⟩ := h
  refine ⟨fun d => ?_, fun d => ?_⟩
  · show F₁ d (F d []) = []
    rw [hF]
    exact hnil d
  rcases hheaders d with ⟨hid, hspared⟩ | ⟨hrow, w, hw, hkills⟩
  · by_cases hlines : G d = id
    · refine .inl ⟨?_, hlines⟩
      show F₁ d ∘ F d = id
      rw [hid, hF]
      rfl
    · -- its lines were thrown away, so it was to go: it was not there any more
      obtain ⟨w, hw, hq⟩ := (hG d).resolve_left hlines
      by_cases hview : D.headersOf view d = []
      · exact .inr (.inl (hpast.known hlines hview))
      · obtain ⟨x, hx⟩ := List.exists_mem_of_ne_nil _ hview
        have hpresent : D.Present view d (D.tag x) := ⟨x, hx, rfl⟩
        have hsame := hs.tag (hpast.present (hF d) hpresent) hw
        exact absurd (hsame ▸ hq) (hspared _ hpresent)
  · have hborn := hpast.present (hF d) hw
    refine .inr (.inr ⟨List.mem_append_left _ hrow, ⟨w, hborn⟩, ?_⟩)
    show F₁ d (F d _) = []
    rw [hF]
    exact hkills _ fun x hx => hs.tag (hs.present ⟨x, hx, rfl⟩) hborn

/-- **A statement takes a transaction from where it stands to where its rest stands**: the change
may have been issued on an earlier view. -/
theorem At.write {stmt : σ → Except ε (Change σ ρ)} {k : Nat → Prog σ ρ κ ε τ} {c c' : Change σ ρ}
    (hat : D.At A l stage (.write stmt k)) (hs : D.Sound born db)
    (hmakes : ∀ d w, A.makes l = some (d, w) → ∀ w', ¬ born d w')
    (hacts : D.Acts own F G) (h : D.Stands A l born db stage F G rows)
    (hpast : D.Past born db stage F G rows view) (hc : stmt view = .ok c)
    (hnow : stmt (own db) = .ok c') :
    ∃ stage' F' G', D.Acts (c.apply ∘ own) F' G' ∧ (∀ n, D.At A l stage' (k n)) ∧
      D.Stands A l born db stage' F' G' (c.rows ++ rows) := by
  cases hat with
  | aside haside hk =>
    refine ⟨stage, F, G, (haside view c hc).comp hacts, hk, h.mono ?_⟩
    exact List.subset_append_right _ _
  | create hl hhead hstmt hk =>
    obtain ⟨hrow, hcreate⟩ := hstmt view c hc
    exact ⟨_, _, _, hcreate.comp hacts, hk, h.create hs hmakes hl hhead hrow⟩
  | amend hl hd hstmt hk =>
    obtain ⟨F₁, hamend, hother, hnil, hheld⟩ := hstmt view c hc
    exact ⟨_, _, _, hamend.comp hacts, hk, h.amend hs hd hpast hother hnil hheld⟩
  | clear hstmt hk =>
    obtain ⟨G₁, hclear, hother, hempty⟩ := hstmt view c hc
    exact ⟨_, _, _, hclear.comp hacts, hk, h.clear hpast hother hempty⟩
  | fill hstmt hk =>
    obtain ⟨-, G₁, hfill, hother, hbody⟩ := hstmt view c hc
    have hthere := (hstmt _ c' hnow).1
    exact ⟨_, _, _, hfill.comp hacts, hk, h.fill hmakes hacts hthere hother hbody⟩
  | scrap hstmt hk =>
    obtain ⟨G₁, hscrap, hlines⟩ := hstmt view c hc
    exact ⟨_, _, _, hscrap.comp hacts, hk, h.scrap hpast hlines⟩
  | drop hstmt hk =>
    obtain ⟨F₁, hdrop, hnil, hheaders⟩ := hstmt view c hc
    exact ⟨_, _, _, hdrop.comp hacts, hk, h.drop hs hpast hnil hheaders⟩

/-- **What a commit makes of a document**: what the request writes of it, nothing, or an end. -/
theorem At.outcome {a : τ} (hat : D.At A l stage (.ret a : Prog σ ρ κ ε τ))
    (hmakes : ∀ d w, A.makes l = some (d, w) → ∀ w', ¬ born d w') (hacts : D.Acts own F G)
    (h : D.Stands A l born db stage F G rows) (d : δ) :
    (A.writes l = some d ∧ ¬ D.Dead born db d ∧ D.name d ∈ rows ∧
      D.Headed A l born d (D.headersOf (own db) d) ∧ D.linesOf (own db) d = A.body l) ∨
    (A.writes l ≠ some d ∧
      ((D.headersOf (own db) d = D.headersOf db d ∧ D.linesOf (own db) d = D.linesOf db d) ∨
        (D.headersOf (own db) d = [] ∧
          (D.Dead born db d ∨ (D.name d ∈ rows ∧ ∃ w, born d w))))) := by
  rw [hacts.headers, hacts.lines]
  cases hat with
  | ret a hl =>
    obtain ⟨hF, hG, -⟩ := h
    refine .inr ⟨hl ▸ (Option.some_ne_none d).symm, .inl ?_⟩
    rw [hF, hG]
    exact ⟨rfl, rfl⟩
  | @done e a hl =>
    obtain ⟨hFG, hnil, hrow, hhead, hlines⟩ := h
    by_cases hd : d = e
    · subst hd
      refine .inl ⟨hl, ?_, hrow, hhead, hlines⟩
      rintro ⟨⟨w, hw⟩, hgone⟩
      obtain ⟨x, hx, -⟩ := hhead
      rw [hgone] at hx
      rcases hnil with ⟨w', hw'⟩ | hnil
      · exact hmakes d w' hw' w hw
      · rw [hnil] at hx
        cases hx
    · refine .inr ⟨fun hsame => hd (Option.some.inj (hsame.symm.trans hl)), .inl ?_⟩
      rw [(hFG d hd).1, (hFG d hd).2]
      exact ⟨rfl, rfl⟩
  | gone a hl =>
    refine .inr ⟨hl ▸ (Option.some_ne_none d).symm, ?_⟩
    rcases h.2 d with ⟨hF, hG⟩ | hdead | ⟨hrow, hborn, hgone⟩
    · left
      rw [hF, hG]
      exact ⟨rfl, rfl⟩
    · right
      rw [hdead.2]
      exact ⟨h.1 d, .inl hdead⟩
    · exact .inr ⟨hgone, .inr ⟨hrow, hborn⟩⟩

end Moves

/-! ## 2. Every interleaving -/

section System

variable (D) (db₀ : σ)

/-- The documents that were ever committed, with their tags. -/
def Born (finished : List (Finished L)) (d : δ) (w : ω) : Prop :=
  D.Present db₀ d w ∨ ∃ f ∈ finished, A.makes f.label = some (d, w)

/-- The call that wrote a document last. -/
def lastWriter (finished : List (Finished L)) (d : δ) : Option (Finished L) :=
  (finished.filter fun f => A.writes f.label = some d).getLast?

/-- **The header and the lines are what one call wrote, the last to commit**, or what was there at
the start. -/
def AsWritten (finished : List (Finished L)) (d : δ) (hs : List α) (ls : List β) : Prop :=
  match lastWriter A finished d with
  | some f => ∃ h, hs = [h] ∧ A.head f.label h ∧ ls = A.body f.label
  | none => hs = D.headersOf db₀ d ∧ ls = D.linesOf db₀ d

/-- A transaction that keeps to its stages. -/
def InHand (born : δ → ω → Prop) (db : σ) (tx : Tx σ ρ κ ε L) : Prop :=
  ∃ stage F G, D.Acts tx.own F G ∧ D.At A tx.label stage tx.prog ∧
    D.Stands A tx.label born db stage F G tx.rows ∧
    ∀ c, tx.issued = some c → ∃ stmt k view, tx.prog = .write stmt k ∧ stmt view = .ok c ∧
      D.Past born db stage F G tx.rows view

/-- **What holds in every state of every run.** -/
structure Kept (s : Sys σ ρ κ ε L) : Prop where
  wf : s.WellFormed
  sound : D.Sound (D.Born A db₀ s.finished) s.db
  apart : s.txs.Pairwise fun a b => ∀ d w w', A.makes a.label = some (d, w) →
    A.makes b.label ≠ some (d, w')
  unborn : ∀ tx ∈ s.txs, ∀ d w, A.makes tx.label = some (d, w) →
    ∀ w', ¬ D.Born A db₀ s.finished d w'
  stored : ∀ d, D.headersOf s.db d = [] ∨
    D.AsWritten A db₀ s.finished d (D.headersOf s.db d) (D.linesOf s.db d)
  txs : ∀ tx ∈ s.txs, D.InHand A (D.Born A db₀ s.finished) s.db tx

/-- Whoever adds a document draws an id that was never there and that nobody else has drawn. -/
def DrawsAnew (s : Sys σ ρ κ ε L) (a : Action L) : Prop :=
  ∀ l d w, a = .begin l → A.makes l = some (d, w) →
    (∀ w', ¬ D.Born A db₀ s.finished d w') ∧ ∀ tx ∈ s.txs, ∀ w', A.makes tx.label ≠ some (d, w')

variable {D} {A} {db₀} {s s' : Sys σ ρ κ ε L}
  {born : δ → ω → Prop} {db : σ} {tx tx' : Tx σ ρ κ ε L}

/-! ### 2.1 One statement -/

/-- A write, on the view that it was issued on. -/
theorem InHand.performed (h : D.InHand A born db tx) (hs : D.Sound born db)
    (hmakes : ∀ d w, A.makes tx.label = some (d, w) → ∀ w', ¬ born d w')
    {stmt : σ → Except ε (Change σ ρ)} {k : Nat → Prog σ ρ κ ε Unit} {c : Change σ ρ}
    (hp : tx.prog = .write stmt k) (hc : stmt (tx.own db) = .ok c) (n : Nat) :
    D.InHand A born db { tx with
      prog := k n, issued := none, own := (tx.issued.getD c).apply ∘ tx.own
      rows := (tx.issued.getD c).rows ++ tx.rows } := by
  obtain ⟨stage, F, G, hacts, hat, hstands, hissued⟩ := h
  have hpast : ∃ view, stmt view = .ok (tx.issued.getD c) ∧
      D.Past born db stage F G tx.rows view := by
    cases hiss : tx.issued with
    | none => exact ⟨_, hc, .now hs hacts hstands⟩
    | some c₀ =>
      obtain ⟨stmt', k', view, hp', hc₀, hpast⟩ := hissued c₀ hiss
      rw [hp] at hp'
      cases hp'
      exact ⟨view, hc₀, hpast⟩
  obtain ⟨view, hview, hpast⟩ := hpast
  rw [hp] at hat
  obtain ⟨stage', F', G', hacts', hk, hstands'⟩ :=
    hat.write hs hmakes hacts hstands hpast hview hc
  exact ⟨stage', F', G', hacts', hk n, hstands', fun c hc => by cases hc⟩

variable [DecidableEq κ] in
theorem InHand.statement (h : D.InHand A born db tx) (hs : D.Sound born db)
    (hmakes : ∀ d w, A.makes tx.label = some (d, w) → ∀ w', ¬ born d w') {clock : Int}
    {others : List (Tx σ ρ κ ε L)} (ht : tx.statement db clock others = some tx') :
    D.InHand A born db tx' := by
  have hin := h
  obtain ⟨stage, F, G, hacts, hat, hstands, hissued⟩ := h
  -- only a write waits
  have hidle : ∀ {p}, tx.prog = p → (∀ stmt k, p ≠ .write stmt k) → ∀ c, tx.issued ≠ some c := by
    rintro p rfl hp c hc
    obtain ⟨stmt, k, -, hw, -⟩ := hissued c hc
    exact hp stmt k hw
  unfold Tx.statement at ht
  split at ht
  · cases ht
  · cases ht
  · rename_i q k hp
    have hnone := hidle hp fun _ _ => by rintro ⟨⟩
    rw [hp] at hat
    cases ht
    obtain ⟨stage', hk, hstands'⟩ := hat.look hs hacts hstands
    exact ⟨stage', F, G, hacts, hk, hstands', fun c hc => (hnone c hc).elim⟩
  · rename_i k hp
    have hnone := hidle hp fun _ _ => by rintro ⟨⟩
    rw [hp] at hat
    cases ht
    cases hat with
    | clock hk => exact ⟨stage, F, G, hacts, hk _, hstands, fun c hc => (hnone c hc).elim⟩
  · rename_i x k hp
    have hnone := hidle hp fun _ _ => by rintro ⟨⟩
    rw [hp] at hat
    split at ht
    · cases ht
      cases hat with
      | lock hk => exact ⟨stage, F, G, hacts, hk, hstands, fun c hc => (hnone c hc).elim⟩
    · cases ht
  · rename_i x k hp
    have hnone := hidle hp fun _ _ => by rintro ⟨⟩
    rw [hp] at hat
    cases hat with
    | tryLock hk =>
      split at ht
      all_goals
        cases ht
        exact ⟨stage, F, G, hacts, hk _, hstands, fun c hc => (hnone c hc).elim⟩
  · rename_i stmt k hp
    split at ht
    · split at ht
      · cases ht
        exact ⟨stage, F, G, hacts, .raise _, hstands, fun c hc => by cases hc⟩
      · rename_i c' hc'
        dsimp only at ht
        split at ht
        · cases ht
          exact hin.performed hs hmakes hp hc' _
        · split at ht
          · cases ht
            refine ⟨stage, F, G, hacts, hat, hstands, fun c hc => ?_⟩
            cases hc
            exact ⟨stmt, k, _, hp, hc', .now hs hacts hstands⟩
          · cases ht
    · cases ht

theorem InHand.later {born' : δ → ω → Prop} {db' : σ} (h : D.InHand A born db tx)
    (hmakes : ∀ d w, A.makes tx.label = some (d, w) → ∀ w', ¬ born' d w')
    (hl : D.Later born born' db db' tx.rows) : D.InHand A born' db' tx := by
  obtain ⟨stage, F, G, hacts, hat, hstands, hissued⟩ := h
  refine ⟨stage, F, G, hacts, hat, hstands.later hmakes hl, fun c hc => ?_⟩
  obtain ⟨stmt, k, view, hp, hstmt, hpast⟩ := hissued c hc
  exact ⟨stmt, k, view, hp, hstmt, hpast.later hl⟩

/-! ### 2.2 One commit -/

section Commit

variable {pre post : List (Tx σ ρ κ ε L)} {u : Unit} {fin : List (Finished L)}
  {f : Finished L} {d : δ} {w : ω}

theorem born_append : D.Born A db₀ (fin ++ [f]) d w ↔
    D.Born A db₀ fin d w ∨ A.makes f.label = some (d, w) := by
  simp only [Born, List.mem_append, List.mem_singleton, or_and_right, exists_or, exists_eq_left,
    or_assoc]

theorem lastWriter_same (h : A.writes f.label = some d) :
    lastWriter A (fin ++ [f]) d = some f := by
  simp [lastWriter, List.filter_append, h]

theorem lastWriter_other (h : A.writes f.label ≠ some d) :
    lastWriter A (fin ++ [f]) d = lastWriter A fin d := by
  simp [lastWriter, List.filter_append, h]

theorem writes_of_lastWriter (h : lastWriter A fin d = some f) :
    f ∈ fin ∧ A.writes f.label = some d := by
  obtain ⟨hmem, hwrites⟩ := List.mem_filter.mp (List.mem_of_getLast? h)
  exact ⟨hmem, of_decide_eq_true hwrites⟩

variable (hk : D.Kept A db₀ s) (hf : s.txs = pre ++ tx :: post) (hp : tx.prog = .ret u)
  (hlabel : f.label = tx.label)

include hk hf hp

/-- What the commit makes of a document. -/
theorem Kept.outcome (d : δ) :
    (A.writes tx.label = some d ∧ ¬ D.Dead (D.Born A db₀ s.finished) s.db d ∧ D.name d ∈ tx.rows ∧
      D.Headed A tx.label (D.Born A db₀ s.finished) d (D.headersOf (tx.own s.db) d) ∧
      D.linesOf (tx.own s.db) d = A.body tx.label) ∨
    (A.writes tx.label ≠ some d ∧
      ((D.headersOf (tx.own s.db) d = D.headersOf s.db d ∧
          D.linesOf (tx.own s.db) d = D.linesOf s.db d) ∨
        (D.headersOf (tx.own s.db) d = [] ∧ (D.Dead (D.Born A db₀ s.finished) s.db d ∨
          (D.name d ∈ tx.rows ∧ ∃ w, D.Born A db₀ s.finished d w))))) := by
  have hmem : tx ∈ s.txs := by simp [hf]
  obtain ⟨stage, F, G, hacts, hat, hstands, -⟩ := hk.txs tx hmem
  rw [hp] at hat
  exact hat.outcome (hk.unborn tx hmem) hacts hstands d

include hlabel

theorem Kept.commit_sound :
    D.Sound (D.Born A db₀ (s.finished ++ [f])) (tx.own s.db) where
  present {d w} hpresent := by
    obtain ⟨x, hx, rfl⟩ := hpresent
    rcases hk.outcome hf hp d with ⟨-, -, -, ⟨x', hx', -, htag⟩, -⟩ |
      ⟨-, ⟨hsame, -⟩ | ⟨hgone, -⟩⟩
    · rw [hx', List.mem_singleton] at hx
      subst hx
      exact born_append.mpr (htag.imp_right fun h => hlabel ▸ h)
    · rw [hsame] at hx
      exact born_append.mpr (.inl (hk.sound.present ⟨x, hx, rfl⟩))
    · rw [hgone] at hx
      cases hx
  tag {d w w'} h h' := by
    have hunborn := hk.unborn tx (by simp [hf])
    rw [born_append, hlabel] at h h'
    rcases h with h | h
    · rcases h' with h' | h'
      · exact hk.sound.tag h h'
      · exact absurd h (hunborn d w' h' w)
    · rcases h' with h' | h'
      · exact absurd h' (hunborn d w h w')
      · exact (Prod.mk.inj (Option.some.inj (h.symm.trans h'))).2
  single d := by
    rcases hk.outcome hf hp d with ⟨-, -, -, ⟨x, hx, -⟩, -⟩ | ⟨-, ⟨hsame, -⟩ | ⟨hgone, -⟩⟩
    · exact .inr ⟨x, hx⟩
    · rw [hsame]
      exact hk.sound.single d
    · exact .inl hgone
  lines {d} hnone := by
    have hold : ∀ w, ¬ D.Born A db₀ s.finished d w :=
      fun w hw => hnone w (born_append.mpr (.inl hw))
    rcases hk.outcome hf hp d with ⟨-, -, -, ⟨x, -, -, htag⟩, -⟩ |
      ⟨-, ⟨-, hsame⟩ | ⟨-, ⟨⟨w, hw⟩, -⟩ | ⟨-, w, hw⟩⟩⟩
    · exact absurd (born_append.mpr (htag.imp_right fun h => hlabel ▸ h)) (hnone _)
    · rw [hsame]
      exact hk.sound.lines hold
    · exact absurd hw (hold w)
    · exact absurd hw (hold w)

omit hlabel in
/-- What the commit is to who holds none of its rows. -/
theorem Kept.commit_later {rows : List ρ} (hrows : ∀ x ∈ rows, x ∉ tx.rows) :
    D.Later (D.Born A db₀ s.finished) (D.Born A db₀ (s.finished ++ [f])) s.db (tx.own s.db)
      rows := by
  have hkept : ∀ {d w}, D.Born A db₀ s.finished d w → D.Born A db₀ (s.finished ++ [f]) d w :=
    fun h => born_append.mpr (.inl h)
  have hdead : ∀ {d}, D.Dead (D.Born A db₀ s.finished) s.db d →
      D.Dead (D.Born A db₀ (s.finished ++ [f])) (tx.own s.db) d := by
    rintro d ⟨⟨w, hw⟩, hgone⟩
    refine ⟨⟨w, hkept hw⟩, ?_⟩
    rcases hk.outcome hf hp d with ⟨-, halive, -⟩ | ⟨-, ⟨hsame, -⟩ | ⟨hend, -⟩⟩
    · exact absurd ⟨⟨w, hw⟩, hgone⟩ halive
    · exact hsame.trans hgone
    · exact hend
  refine ⟨hkept, hdead, fun {d} hd => ?_, fun {d} hd => ?_⟩
  · rcases hk.outcome hf hp d with ⟨-, -, hrow, -⟩ | ⟨-, ⟨hsame, -⟩ | ⟨hend, hgone | ⟨hrow, -⟩⟩⟩
    · exact absurd hrow (hrows _ hd)
    · exact hsame
    · exact hend.trans hgone.2.symm
    · exact absurd hrow (hrows _ hd)
  · rcases hk.outcome hf hp d with ⟨-, -, hrow, -⟩ | ⟨-, ⟨-, hsame⟩ | ⟨-, hgone | ⟨hrow, -⟩⟩⟩
    · exact absurd hrow (hrows _ hd)
    · exact .inl hsame
    · exact .inr (hdead hgone)
    · exact absurd hrow (hrows _ hd)

theorem Kept.commit_stored (d : δ) : D.headersOf (tx.own s.db) d = [] ∨
    D.AsWritten A db₀ (s.finished ++ [f]) d (D.headersOf (tx.own s.db) d)
      (D.linesOf (tx.own s.db) d) := by
  unfold AsWritten
  rcases hk.outcome hf hp d with ⟨hwrites, -, -, ⟨x, hx, hhead, -⟩, hlines⟩ |
    ⟨hwrites, ⟨hheaders, hlines⟩ | ⟨hend, -⟩⟩
  · rw [lastWriter_same (hlabel ▸ hwrites)]
    exact .inr ⟨x, hx, hlabel ▸ hhead, hlabel ▸ hlines⟩
  · rw [lastWriter_other (hlabel ▸ hwrites), hheaders, hlines]
    exact hk.stored d
  · exact .inl hend

end Commit

/-! ### 2.3 Every run -/

omit [DecidableEq ρ] [DecidableEq δ] in
theorem apart_symm {a b : Tx σ ρ κ ε L}
    (h : ∀ d w w', A.makes a.label = some (d, w) → A.makes b.label ≠ some (d, w')) :
    ∀ d w w', A.makes b.label = some (d, w) → A.makes a.label ≠ some (d, w') :=
  fun d w w' hb ha => h d w' w ha hb

/-- A transaction has moved, the others have not. -/
theorem Kept.replace {pre post : List (Tx σ ρ κ ε L)} (h : D.Kept A db₀ s)
    (hf : s.txs = pre ++ tx :: post) (hwf : { s with txs := pre ++ tx' :: post }.WellFormed)
    (hlabel : tx'.label = tx.label) (hin : D.InHand A (D.Born A db₀ s.finished) s.db tx') :
    D.Kept A db₀ { s with txs := pre ++ tx' :: post } := by
  have hcases : ∀ {o}, o ∈ pre ++ tx' :: post → o = tx' ∨ o ∈ s.txs := by
    intro o ho
    rw [hf]
    rcases List.mem_append.mp ho with ho | ho
    · exact .inr (List.mem_append_left _ ho)
    · rcases List.mem_cons.mp ho with rfl | ho
      · exact .inl rfl
      · exact .inr (List.mem_append_right _ (List.mem_cons_of_mem _ ho))
  have hapart := List.pairwise_cons.mp ((List.pairwise_middle apart_symm).mp (hf ▸ h.apart))
  refine ⟨hwf, h.sound, (List.pairwise_middle apart_symm).mpr ?_, fun o ho => ?_, h.stored,
    fun o ho => ?_⟩
  · exact List.pairwise_cons.mpr ⟨fun o ho => hlabel ▸ hapart.1 o ho, hapart.2⟩
  · rcases hcases ho with rfl | ho
    · exact hlabel ▸ h.unborn tx (by simp [hf])
    · exact h.unborn o ho
  · rcases hcases ho with rfl | ho
    · exact hin
    · exact h.txs o ho

variable [DecidableEq κ] {body : L → Prog σ ρ κ ε Unit}

theorem Kept.step {a : Action L} (h : D.Kept A db₀ s) (ha : D.DrawsAnew A db₀ s a)
    (hbody : ∀ l, D.At A l (.away fun _ _ => False) (body l)) (hs : step body s a = some s') :
    D.Kept A db₀ s' := by
  have hwf := wellFormed_step hs h.wf
  rcases step_cases hs with ⟨t, -, ht, rfl⟩ | ⟨l, rfl, rfl⟩ | ⟨i, pre, tx, post, -, hf, hn, rfl⟩ |
    ⟨i, pre, tx, post, tx', -, hf, ht, rfl⟩ | ⟨i, pre, tx, post, u, rfl, hf, hp, rfl⟩ |
    ⟨i, pre, tx, post, -, hf, rfl⟩
  · exact ⟨hwf, h.sound, h.apart, h.unborn, h.stored, h.txs⟩
  · refine ⟨hwf, h.sound, ?_, ?_, h.stored, ?_⟩
    · refine List.pairwise_append.mpr ⟨h.apart, List.pairwise_singleton _ _, fun o ho b hb => ?_⟩
      obtain rfl := List.mem_singleton.mp hb
      exact apart_symm fun d w w' hl => (ha l d w rfl hl).2 o ho w'
    · intro tx htx d w hl
      rcases List.mem_append.mp htx with htx | htx
      · exact h.unborn tx htx d w hl
      · obtain rfl := List.mem_singleton.mp htx
        exact (ha l d w rfl hl).1
    · intro tx htx
      rcases List.mem_append.mp htx with htx | htx
      · exact h.txs tx htx
      · obtain rfl := List.mem_singleton.mp htx
        refine ⟨_, _, _, .refl, hbody l, ⟨fun _ => rfl, fun _ => rfl, fun _ _ hw => hw.elim⟩, ?_⟩
        rintro c ⟨⟩
  all_goals
    have hsplit := focus_some hf
    have hmem : ∀ o ∈ pre ++ post, o ∈ s.txs := by
      intro o ho
      rw [hsplit]
      rcases List.mem_append.mp ho with ho | ho
      · simp [ho]
      · simp [ho]
    have hapart := List.pairwise_cons.mp ((List.pairwise_middle apart_symm).mp (hsplit ▸ h.apart))
  · exact h.replace hsplit hwf rfl (h.txs tx (by simp [hsplit]))
  · have hin : tx ∈ s.txs := by simp [hsplit]
    refine h.replace hsplit hwf (Tx.statement_label ht).1 ?_
    exact (h.txs tx hin).statement h.sound (h.unborn tx hin) ht
  · have hunborn : ∀ o ∈ pre ++ post, ∀ d w, A.makes o.label = some (d, w) →
        ∀ w', ¬ D.Born A db₀ (s.finished ++ [⟨tx.label, tx.began, s.clock⟩]) d w' := by
      intro o ho d w hl w' hborn
      rcases born_append.mp hborn with hborn | hmakes
      · exact h.unborn o (hmem o ho) d w hl w' hborn
      · exact hapart.1 o ho d w' w hmakes hl
    refine ⟨hwf, h.commit_sound hsplit hp rfl, hapart.2, hunborn,
      h.commit_stored hsplit hp rfl, fun o ho => ?_⟩
    have hrows := ((pairwise_focus.mp (hsplit ▸ h.wf.apart)).2 o ho).symm.2
    exact (h.txs o (hmem o ho)).later (hunborn o ho) (h.commit_later hsplit hp hrows)
  · exact ⟨hwf, h.sound, hapart.2, fun o ho => h.unborn o (hmem o ho), h.stored,
      fun o ho => h.txs o (hmem o ho)⟩

/-- A step brings no dead document back. -/
theorem Kept.dead_step {a : Action L} (h : D.Kept A db₀ s) (hs : Txn.step body s a = some s')
    {d : δ} (hd : D.Dead (D.Born A db₀ s.finished) s.db d) :
    D.Dead (D.Born A db₀ s'.finished) s'.db d := by
  rcases step_cases hs with ⟨t, -, ht, rfl⟩ | ⟨l, rfl, rfl⟩ | ⟨i, pre, tx, post, -, hf, hn, rfl⟩ |
    ⟨i, pre, tx, post, tx', -, hf, ht, rfl⟩ | ⟨i, pre, tx, post, u, rfl, hf, hp, rfl⟩ |
    ⟨i, pre, tx, post, -, hf, rfl⟩
  · exact hd
  · exact hd
  · exact hd
  · exact hd
  · have hnone : ∀ x ∈ ([] : List ρ), x ∉ tx.rows := fun x hx => absurd hx List.not_mem_nil
    exact (h.commit_later (focus_some hf) hp hnone).dead hd
  · exact hd

/-- The tables have one header for each id, and every line has its header. -/
structure Consistent (D : Documents σ ρ α β δ ω) (db : σ) : Prop where
  ids : ((D.headers.get db).map D.idOf).Nodup
  lines : ∀ x ∈ D.lines.get db, ∃ h ∈ D.headers.get db, D.idOf h = D.parent x

omit [DecidableEq κ] in
theorem Kept.idle (h : D.Consistent db₀) (t : Int) :
    D.Kept A db₀ (Sys.idle db₀ t : Sys σ ρ κ ε L) := by
  have hone : ∀ {d : δ} {x y : α}, x ∈ D.headersOf db₀ d → y ∈ D.headersOf db₀ d → x = y := by
    intro d x y hx hy
    obtain ⟨hx, hxd⟩ := mem_headersOf.mp hx
    obtain ⟨hy, hyd⟩ := mem_headersOf.mp hy
    exact List.inj_on_of_nodup_map h.ids hx hy (hxd.trans hyd.symm)
  have hborn : ∀ {d w}, D.Born A db₀ [] d w → D.Present db₀ d w := by
    rintro d w (hp | ⟨f, hf, -⟩)
    · exact hp
    · cases hf
  refine ⟨wellFormed_idle db₀ t,
    ⟨.inl, fun {d w w'} hw hw' => ?_, fun d => ?_, fun {d} hnone => ?_⟩, .nil, ?_,
    fun d => .inr ⟨rfl, rfl⟩, ?_⟩
  · obtain ⟨x, hx, rfl⟩ := hborn hw
    obtain ⟨y, hy, rfl⟩ := hborn hw'
    rw [hone hx hy]
  · cases hd : D.headersOf db₀ d with
    | nil => exact .inl hd
    | cons x hs =>
      cases hs with
      | nil => exact .inr ⟨x, hd⟩
      | cons y hs =>
        have hnodup : (D.headersOf db₀ d).Nodup := (List.Nodup.of_map _ h.ids).filter _
        have hsame : x = y := hone (hd ▸ List.mem_cons_self) (hd ▸ by simp)
        rw [hd, hsame] at hnodup
        simp at hnodup
  · refine List.filter_eq_nil_iff.mpr fun x hx hparent => ?_
    obtain ⟨y, hy, hid⟩ := h.lines x hx
    refine hnone _ (.inl ⟨y, mem_headersOf.mpr ⟨hy, ?_⟩, rfl⟩)
    exact hid.trans (of_decide_eq_true hparent)
  · rintro tx ⟨⟩
  · rintro tx ⟨⟩

/-- **In every run, what is stored of a document is what the last call to commit has written**,
whatever came between the statements. -/
theorem Kept.run (h : D.Consistent db₀) {t : Int}
    (hbody : ∀ l, D.At A l (.away fun _ _ => False) (body l))
    (hrun : Run body (D.DrawsAnew A db₀) (Sys.idle db₀ t) s) : D.Kept A db₀ s := by
  induction hrun with
  | refl => exact .idle h t
  | tail a _ ha hs ih => exact ih.step ha hbody hs

/-- **A document that was thrown away never comes back**, whatever was under way. -/
theorem Kept.dead_run {s₁ : Sys σ ρ κ ε L} (h : D.Kept A db₀ s₁)
    (hbody : ∀ l, D.At A l (.away fun _ _ => False) (body l)) {d : δ}
    (hd : D.Dead (D.Born A db₀ s₁.finished) s₁.db d)
    (hrun : Run body (D.DrawsAnew A db₀) s₁ s) : D.Dead (D.Born A db₀ s.finished) s.db d := by
  have hboth : D.Kept A db₀ s ∧ D.Dead (D.Born A db₀ s.finished) s.db d := by
    induction hrun with
    | refl => exact ⟨h, hd⟩
    | tail a _ ha hs ih => exact ⟨ih.1.step ha hbody hs, ih.1.dead_step hs ih.2⟩
  exact hboth.2

/-! ### 2.4 Replays -/

variable (D) (A) (db₀) in
/-- `DrawsAnew`, as a replay can check it. -/
def drawsAnew (s : Sys σ ρ κ ε L) (a : Action L) : Bool :=
  match a with
  | .begin l => (A.makes l).all fun m => (D.headersOf db₀ m.1).isEmpty &&
      (s.finished.all fun f => (A.makes f.label).all fun m' => m'.1 ≠ m.1) &&
      s.txs.all fun tx => (A.makes tx.label).all fun m' => m'.1 ≠ m.1
  | _ => true

omit [DecidableEq κ] in
theorem drawsAnew_of_check {a : Action L} (h : D.drawsAnew A db₀ s a = true) :
    D.DrawsAnew A db₀ s a := by
  rintro l d w rfl hl
  simp only [drawsAnew, hl, Option.all_some, Bool.and_eq_true, List.isEmpty_iff,
    List.all_eq_true] at h
  obtain ⟨⟨hnil, hfinished⟩, hopen⟩ := h
  have hother : ∀ {o : Option (δ × ω)} {w'}, (o.all fun m => decide (m.1 ≠ d)) = true →
      o ≠ some (d, w') := by
    rintro o w' ho rfl
    simp at ho
  refine ⟨fun w' hborn => ?_, fun tx htx w' => hother (hopen tx htx)⟩
  rcases hborn with hp | ⟨f, hf, hmakes⟩
  · exact hp.ne_nil hnil
  · exact hother (hfinished f hf) hmakes

end System

end Documents

end NewlifeCore.Txn
