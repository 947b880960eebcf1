import Mathlib.Data.List.Basic

/-!
# JSON trees

Trees over some leaves, the masking of what stands under some keys, and the text of a tree.  Two
masked trees are equal exactly if the trees differ under those keys alone, and different trees have
different texts.
-/

namespace NewlifeCore

/-- A decoded JSON document; `β` has what is no text, array or object. -/
inductive Json (β : Type)
  | leaf (b : β)
  | str (s : String)
  | arr (items : List (Json β))
  | obj (fields : List (String × Json β))

namespace Json

variable {β : Type}

/-! ## 1. Masking -/

section Masking

variable (hidden : String → Bool) (mask : String)

mutual

/-- What stands under a hidden key, at any depth, is replaced. -/
def redact : Json β → Json β
  | .leaf b => .leaf b
  | .str s => .str s
  | .arr items => .arr (redactItems items)
  | .obj fields => .obj (redactFields fields)

def redactItems : List (Json β) → List (Json β)
  | [] => []
  | v :: vs => redact v :: redactItems vs

def redactFields : List (String × Json β) → List (String × Json β)
  | [] => []
  | (k, v) :: fs => (k, if hidden k then .str mask else redact v) :: redactFields fs

end

mutual

/-- **Two trees differ under hidden keys alone.** -/
def SameBut : Json β → Json β → Prop
  | .leaf b, .leaf b' => b = b'
  | .str s, .str s' => s = s'
  | .arr items, .arr items' => SameItems items items'
  | .obj fields, .obj fields' => SameFields fields fields'
  | _, _ => False

def SameItems : List (Json β) → List (Json β) → Prop
  | [], [] => True
  | v :: vs, v' :: vs' => SameBut v v' ∧ SameItems vs vs'
  | _, _ => False

def SameFields : List (String × Json β) → List (String × Json β) → Prop
  | [], [] => True
  | (k, v) :: fs, (k', v') :: fs' => k = k' ∧ (hidden k = false → SameBut v v') ∧ SameFields fs fs'
  | _, _ => False

end

variable {hidden mask}

mutual

/-- **Masking forgets what stands under hidden keys, and nothing else.** -/
theorem redact_eq_iff : ∀ v v' : Json β,
    redact hidden mask v = redact hidden mask v' ↔ SameBut hidden v v'
  | .leaf b, v' => by cases v' <;> simp [redact, SameBut]
  | .str s, v' => by cases v' <;> simp [redact, SameBut]
  | .arr items, v' => by
    cases v' with
    | arr items' => simp [redact, SameBut, redactItems_eq_iff items items']
    | _ => simp [redact, SameBut]
  | .obj fields, v' => by
    cases v' with
    | obj fields' => simp [redact, SameBut, redactFields_eq_iff fields fields']
    | _ => simp [redact, SameBut]

theorem redactItems_eq_iff : ∀ vs vs' : List (Json β),
    redactItems hidden mask vs = redactItems hidden mask vs' ↔ SameItems hidden vs vs'
  | [], vs' => by cases vs' <;> simp [redactItems, SameItems]
  | v :: vs, [] => by simp [redactItems, SameItems]
  | v :: vs, v' :: vs' => by
    simp [redactItems, SameItems, redact_eq_iff v v', redactItems_eq_iff vs vs']

theorem redactFields_eq_iff : ∀ fs fs' : List (String × Json β),
    redactFields hidden mask fs = redactFields hidden mask fs' ↔ SameFields hidden fs fs'
  | [], fs' => by cases fs' <;> simp [redactFields, SameFields]
  | _ :: _, [] => by simp [redactFields, SameFields]
  | (k, v) :: fs, (k', v') :: fs' => by
    simp only [redactFields, SameFields, List.cons.injEq, Prod.mk.injEq, and_assoc,
      redactFields_eq_iff fs fs']
    refine and_congr_right fun hk => and_congr_left' ?_
    obtain rfl := hk
    cases hidden k with
    | true => simp
    | false => simp [redact_eq_iff v v']

end

mutual

theorem SameBut.refl : ∀ v : Json β, SameBut hidden v v
  | .leaf _ => rfl
  | .str _ => rfl
  | .arr items => SameItems.refl items
  | .obj fields => SameFields.refl fields

theorem SameItems.refl : ∀ vs : List (Json β), SameItems hidden vs vs
  | [] => trivial
  | v :: vs => ⟨SameBut.refl v, SameItems.refl vs⟩

theorem SameFields.refl : ∀ fs : List (String × Json β), SameFields hidden fs fs
  | [] => trivial
  | (_, v) :: fs => ⟨rfl, fun _ => SameBut.refl v, SameFields.refl fs⟩

end

end Masking

/-! ## 2. Texts -/

/-- What follows the backslash of a short escape. -/
def shortEscape : Char → Option Char
  | '"' => some '"'
  | '\\' => some '\\'
  | '\n' => some 'n'
  | '\r' => some 'r'
  | '\t' => some 't'
  | '\x08' => some 'b'
  | '\x0c' => some 'f'
  | _ => none

/-- A character in a string; what is not ASCII stands for itself. -/
def escaped (c : Char) : List Char :=
  match shortEscape c with
  | some e => ['\\', e]
  | none =>
    if c.toNat < 32 then ['\\', 'u', '0', '0', (c.toNat / 16).digitChar, (c.toNat % 16).digitChar]
    else [c]

def quoted (s : String) : List Char := '"' :: (s.toList.flatMap escaped ++ ['"'])

/-- The texts of leaves: different ones differ, none is empty, and none has a quote, a bracket or a
comma. -/
structure LeafTexts (β : Type) where
  text : β → List Char
  nonempty : ∀ b, text b ≠ []
  plain : ∀ b, ∀ c ∈ text b, c ∉ ['"', '[', '{', ',', ']', '}']
  text_injective : Function.Injective text

/-- `null` and the booleans. -/
def constants : LeafTexts (Option Bool) where
  text
    | none => "null".toList
    | some true => "true".toList
    | some false => "false".toList
  nonempty b := by rcases b with _ | _ | _ <;> decide
  plain b := by rcases b with _ | _ | _ <;> simp
  text_injective b b' h := by
    rcases b with _ | _ | _ <;> rcases b' with _ | _ | _ <;>
      first | rfl | exact absurd h (by decide)

section Texts

variable (L : LeafTexts β)

mutual

def text : Json β → List Char
  | .leaf b => L.text b
  | .str s => quoted s
  | .arr items => '[' :: itemsText items
  | .obj fields => '{' :: fieldsText fields

def itemsText : List (Json β) → List Char
  | [] => [']']
  | v :: vs => text v ++ moreItems vs

def moreItems : List (Json β) → List Char
  | [] => [']']
  | v :: vs => ',' :: ' ' :: (text v ++ moreItems vs)

def fieldsText : List (String × Json β) → List Char
  | [] => ['}']
  | (k, v) :: fs => quoted k ++ ':' :: ' ' :: (text v ++ moreFields fs)

def moreFields : List (String × Json β) → List Char
  | [] => ['}']
  | (k, v) :: fs => ',' :: ' ' :: (quoted k ++ ':' :: ' ' :: (text v ++ moreFields fs))

end

/-- `json.dumps(value, ensure_ascii=False)`. -/
def dumps (v : Json β) : String := String.ofList (text L v)

end Texts

/-! ### 2.1 Strings -/

theorem shortEscape_inj {c c' e : Char} (h : shortEscape c = some e)
    (h' : shortEscape c' = some e) : c = c' := by
  unfold shortEscape at h h'
  split at h <;> cases h <;> split at h' <;> simp_all

theorem shortEscape_ne_u {c : Char} : shortEscape c ≠ some 'u' := by
  unfold shortEscape
  split <;> simp

theorem shortEscape_plain {c : Char} (h : shortEscape c = none) : c ≠ '\\' ∧ c ≠ '"' := by
  constructor <;> rintro rfl <;> cases h

theorem controls_apart : ∀ m < 32, ∀ n < 32, (m / 16).digitChar = (n / 16).digitChar →
    (m % 16).digitChar = (n % 16).digitChar → m = n := by decide

/-- What is read of a string decides its first character. -/
theorem escaped_append {c c' : Char} {s s' : List Char} (h : escaped c ++ s = escaped c' ++ s') :
    c = c' ∧ s = s' := by
  unfold escaped at h
  cases hc : shortEscape c with
  | some e =>
    cases hc' : shortEscape c' with
    | some e' =>
      rw [hc, hc'] at h
      obtain ⟨rfl, rfl⟩ : e = e' ∧ s = s' := by simpa using h
      exact ⟨shortEscape_inj hc hc', rfl⟩
    | none =>
      rw [hc, hc'] at h
      dsimp only at h
      split at h
      · obtain ⟨rfl, -⟩ : e = 'u' ∧ _ := by simpa using h
        exact absurd hc shortEscape_ne_u
      · obtain ⟨rfl, -⟩ : '\\' = c' ∧ _ := by simpa using h
        exact absurd rfl (shortEscape_plain hc').1
  | none =>
    cases hc' : shortEscape c' with
    | some e' =>
      rw [hc, hc'] at h
      dsimp only at h
      split at h
      · obtain ⟨rfl, -⟩ : 'u' = e' ∧ _ := by simpa using h
        exact absurd hc' shortEscape_ne_u
      · obtain ⟨rfl, -⟩ : c = '\\' ∧ _ := by simpa using h
        exact absurd rfl (shortEscape_plain hc).1
    | none =>
      rw [hc, hc'] at h
      dsimp only at h
      split at h <;> split at h
      · obtain ⟨hhigh, hlow, hs⟩ : (c.toNat / 16).digitChar = (c'.toNat / 16).digitChar ∧
          (c.toNat % 16).digitChar = (c'.toNat % 16).digitChar ∧ s = s' := by simpa using h
        rename_i hlt hlt'
        exact ⟨Char.toNat_inj.mp (controls_apart _ hlt _ hlt' hhigh hlow), hs⟩
      · obtain ⟨rfl, -⟩ : '\\' = c' ∧ _ := by simpa using h
        exact absurd rfl (shortEscape_plain hc').1
      · obtain ⟨rfl, -⟩ : c = '\\' ∧ _ := by simpa using h
        exact absurd rfl (shortEscape_plain hc).1
      · simpa using h

theorem escaped_ne_quote {c : Char} {s r : List Char} : escaped c ++ s ≠ '"' :: r := by
  unfold escaped
  cases hc : shortEscape c with
  | some e => simp
  | none =>
    dsimp only
    split
    · simp
    · have := (shortEscape_plain hc).2
      simp [this]

theorem flatMap_escaped_append : ∀ {l l' s s' : List Char},
    l.flatMap escaped ++ '"' :: s = l'.flatMap escaped ++ '"' :: s' → l = l' ∧ s = s'
  | [], [], _, _, h => ⟨rfl, by simpa using h⟩
  | [], c :: l', s, s', h => by
    rw [List.flatMap_cons, List.append_assoc] at h
    exact absurd h.symm escaped_ne_quote
  | c :: l, [], s, s', h => by
    rw [List.flatMap_cons, List.append_assoc] at h
    exact absurd h escaped_ne_quote
  | c :: l, c' :: l', s, s', h => by
    rw [List.flatMap_cons, List.flatMap_cons, List.append_assoc, List.append_assoc] at h
    obtain ⟨rfl, hrest⟩ := escaped_append h
    obtain ⟨rfl, rfl⟩ := flatMap_escaped_append hrest
    exact ⟨rfl, rfl⟩

theorem quoted_append {k k' : String} {s s' : List Char} (h : quoted k ++ s = quoted k' ++ s') :
    k = k' ∧ s = s' := by
  have h : k.toList.flatMap escaped ++ '"' :: s = k'.toList.flatMap escaped ++ '"' :: s' := by
    simpa [quoted] using h
  obtain ⟨hk, hs⟩ := flatMap_escaped_append h
  exact ⟨String.toList_inj.mp hk, hs⟩

/-! ### 2.2 Trees -/

section Trees

variable {L : LeafTexts β}

/-- The text of a value stops here. -/
def Ends (s : List Char) : Prop := ∀ c ∈ s.head?, c ∈ [',', ']', '}']

theorem Ends.cons {c : Char} {s : List Char} (h : c ∈ [',', ']', '}']) : Ends (c :: s) := by
  intro d hd
  cases hd
  exact h

/-- A leaf is read up to where it stops. -/
theorem plain_append : ∀ {l l' s s' : List Char},
    (∀ c ∈ l, c ∉ ['"', '[', '{', ',', ']', '}']) → (∀ c ∈ l', c ∉ ['"', '[', '{', ',', ']', '}']) →
      Ends s → Ends s' → l ++ s = l' ++ s' → l = l' ∧ s = s'
  | [], [], _, _, _, _, _, _, h => ⟨rfl, h⟩
  | [], c :: l', _, _, _, hl', hs, _, h => by
    have hends := hs c (by rw [List.nil_append] at h; rw [h]; rfl)
    have hplain := hl' c List.mem_cons_self
    grind
  | c :: l, [], _, _, hl, _, _, hs', h => by
    have hends := hs' c (by rw [List.nil_append] at h; rw [← h]; rfl)
    have hplain := hl c List.mem_cons_self
    grind
  | c :: l, c' :: l', _, _, hl, hl', hs, hs', h => by
    obtain ⟨rfl, hrest⟩ := List.cons_eq_cons.mp h
    obtain ⟨rfl, rfl⟩ := plain_append (fun d hd => hl d (List.mem_cons_of_mem _ hd))
      (fun d hd => hl' d (List.mem_cons_of_mem _ hd)) hs hs' hrest
    exact ⟨rfl, rfl⟩

/-- A leaf begins with none of the characters that it lacks. -/
theorem leaf_append_ne {b : β} {s r : List Char} {c : Char}
    (hc : c ∈ ['"', '[', '{', ',', ']', '}']) : L.text b ++ s ≠ c :: r := by
  intro h
  cases hb : L.text b with
  | nil => exact L.nonempty b hb
  | cons d l =>
    rw [hb] at h
    obtain ⟨rfl, -⟩ := List.cons_eq_cons.mp h
    exact L.plain b d (by rw [hb]; exact List.mem_cons_self) hc

/-- No value begins like the end of an array. -/
theorem text_append_ne {v : Json β} {s r : List Char} : text L v ++ s ≠ ']' :: r := by
  cases v with
  | leaf b => exact leaf_append_ne (by simp)
  | str k => exact fun h => by cases h
  | arr items => exact fun h => by cases h
  | obj fields => exact fun h => by cases h

theorem moreItems_ends : ∀ vs : List (Json β), ∀ s, Ends (moreItems L vs ++ s)
  | [], _ => .cons (by simp)
  | _ :: _, _ => .cons (by simp)

theorem moreFields_ends : ∀ fs : List (String × Json β), ∀ s, Ends (moreFields L fs ++ s)
  | [], _ => .cons (by simp)
  | (_, _) :: _, _ => .cons (by simp)

mutual

/-- **A text is read one way**, whatever follows it. -/
theorem text_append : ∀ {v v' : Json β} {s s' : List Char}, Ends s → Ends s' →
    text L v ++ s = text L v' ++ s' → v = v' ∧ s = s'
  | .leaf b, v', s, s', hs, hs', h => by
    cases v' with
    | leaf b' =>
      obtain ⟨hb, hrest⟩ := plain_append (L.plain b) (L.plain b') hs hs' h
      exact ⟨congrArg _ (L.text_injective hb), hrest⟩
    | str k => exact absurd h (leaf_append_ne (by simp))
    | arr items => exact absurd h (leaf_append_ne (by simp))
    | obj fields => exact absurd h (leaf_append_ne (by simp))
  | .str k, v', s, s', hs, hs', h => by
    cases v' with
    | leaf b' => exact absurd h.symm (leaf_append_ne (by simp))
    | str k' =>
      obtain ⟨rfl, hrest⟩ := quoted_append h
      exact ⟨rfl, hrest⟩
    | arr items => cases h
    | obj fields => cases h
  | .arr items, v', s, s', hs, hs', h => by
    cases v' with
    | leaf b' => exact absurd h.symm (leaf_append_ne (by simp))
    | str k' => cases h
    | arr items' =>
      obtain ⟨rfl, hrest⟩ := itemsText_append (List.cons_eq_cons.mp h).2
      exact ⟨rfl, hrest⟩
    | obj fields => cases h
  | .obj fields, v', s, s', hs, hs', h => by
    cases v' with
    | leaf b' => exact absurd h.symm (leaf_append_ne (by simp))
    | str k' => cases h
    | arr items' => cases h
    | obj fields' =>
      obtain ⟨rfl, hrest⟩ := fieldsText_append (List.cons_eq_cons.mp h).2
      exact ⟨rfl, hrest⟩

theorem itemsText_append : ∀ {vs vs' : List (Json β)} {s s' : List Char},
    itemsText L vs ++ s = itemsText L vs' ++ s' → vs = vs' ∧ s = s'
  | [], [], _, _, h => ⟨rfl, (List.cons_eq_cons.mp h).2⟩
  | [], v' :: vs', s, s', h => by
    rw [itemsText, itemsText, List.append_assoc] at h
    exact absurd h.symm text_append_ne
  | v :: vs, [], s, s', h => by
    rw [itemsText, itemsText, List.append_assoc] at h
    exact absurd h text_append_ne
  | v :: vs, v' :: vs', s, s', h => by
    rw [itemsText, itemsText, List.append_assoc, List.append_assoc] at h
    obtain ⟨rfl, hmore⟩ := text_append (moreItems_ends vs s) (moreItems_ends vs' s') h
    obtain ⟨rfl, hrest⟩ := moreItems_append hmore
    exact ⟨rfl, hrest⟩

theorem moreItems_append : ∀ {vs vs' : List (Json β)} {s s' : List Char},
    moreItems L vs ++ s = moreItems L vs' ++ s' → vs = vs' ∧ s = s'
  | [], [], _, _, h => ⟨rfl, (List.cons_eq_cons.mp h).2⟩
  | [], v' :: vs', s, s', h => by cases h
  | v :: vs, [], s, s', h => by cases h
  | v :: vs, v' :: vs', s, s', h => by
    have h : text L v ++ (moreItems L vs ++ s) = text L v' ++ (moreItems L vs' ++ s') := by
      simpa [moreItems] using h
    obtain ⟨rfl, hmore⟩ := text_append (moreItems_ends vs s) (moreItems_ends vs' s') h
    obtain ⟨rfl, hrest⟩ := moreItems_append hmore
    exact ⟨rfl, hrest⟩

theorem fieldsText_append : ∀ {fs fs' : List (String × Json β)} {s s' : List Char},
    fieldsText L fs ++ s = fieldsText L fs' ++ s' → fs = fs' ∧ s = s'
  | [], [], _, _, h => ⟨rfl, (List.cons_eq_cons.mp h).2⟩
  | [], (k', v') :: fs', s, s', h => by cases h
  | (k, v) :: fs, [], s, s', h => by cases h
  | (k, v) :: fs, (k', v') :: fs', s, s', h => by
    rw [fieldsText, fieldsText, List.append_assoc, List.append_assoc] at h
    obtain ⟨rfl, hvalue⟩ := quoted_append h
    have hvalue : text L v ++ (moreFields L fs ++ s) = text L v' ++ (moreFields L fs' ++ s') := by
      simpa using hvalue
    obtain ⟨rfl, hmore⟩ := text_append (moreFields_ends fs s) (moreFields_ends fs' s') hvalue
    obtain ⟨rfl, hrest⟩ := moreFields_append hmore
    exact ⟨rfl, hrest⟩

theorem moreFields_append : ∀ {fs fs' : List (String × Json β)} {s s' : List Char},
    moreFields L fs ++ s = moreFields L fs' ++ s' → fs = fs' ∧ s = s'
  | [], [], _, _, h => ⟨rfl, (List.cons_eq_cons.mp h).2⟩
  | [], (k', v') :: fs', s, s', h => by cases h
  | (k, v) :: fs, [], s, s', h => by cases h
  | (k, v) :: fs, (k', v') :: fs', s, s', h => by
    have h : quoted k ++ (':' :: ' ' :: (text L v ++ (moreFields L fs ++ s))) =
        quoted k' ++ (':' :: ' ' :: (text L v' ++ (moreFields L fs' ++ s'))) := by
      simpa [moreFields] using h
    obtain ⟨rfl, hvalue⟩ := quoted_append h
    have hvalue : text L v ++ (moreFields L fs ++ s) = text L v' ++ (moreFields L fs' ++ s') := by
      simpa using hvalue
    obtain ⟨rfl, hmore⟩ := text_append (moreFields_ends fs s) (moreFields_ends fs' s') hvalue
    obtain ⟨rfl, hrest⟩ := moreFields_append hmore
    exact ⟨rfl, hrest⟩

end

/-- **Different trees have different texts.** -/
theorem dumps_injective : Function.Injective (dumps L : Json β → String) := by
  intro v v' h
  have htext : text L v = text L v' := by
    have := congrArg String.toList h
    rwa [dumps, dumps, String.toList_ofList, String.toList_ofList] at this
  have hnil : Ends [] := fun c hc => by cases hc
  have happended : text L v ++ [] = text L v' ++ [] := by rw [htext]
  exact (text_append hnil hnil happended).1

end Trees

end Json

end NewlifeCore
