import Mathlib.Data.List.DropRight
import Mathlib.Data.List.Infix
import Mathlib.Data.String.Basic

/-!
# `urllib.parse.urlsplit`: scheme, authority and path

A text is split into its scheme and the authority after `//`; an authority with brackets that do not
belong there, or with characters that turn into delimiters, is a `ValueError`.  A scheme and an
authority that were split off and written again are split off as they are; so is a path that has no
delimiter in it.
-/

namespace NewlifeCore

/-- What Python does with text beyond ASCII: `str.lower`, and the checks of an authority. -/
structure UrlText where
  lower : List Char → List Char
  /-- `_check_bracketed_netloc` does not raise. -/
  bracketsOk : List Char → Bool
  /-- Nor does `_checknetloc`, of a text that is not ASCII. -/
  nfkcOk : List Char → Bool
  lower_lower : ∀ s, lower (lower s) = lower s
  lower_ne_nil : ∀ s, s ≠ [] → lower s ≠ []
  lower_ascii : ∀ s, (∀ c ∈ s, c.toNat < 128) → lower s = s.map Char.toLower
  /-- Delimiters have no case, and come from no other character. -/
  mem_lower_iff : ∀ s, ∀ c ∈ ['\t', '\n', '\r', '/', '?', '#', '[', ']'], c ∈ lower s ↔ c ∈ s
  /-- The checks leave case aside. -/
  bracketsOk_lower : ∀ s, bracketsOk s = true → bracketsOk (lower s) = true
  nfkcOk_lower : ∀ s, nfkcOk s = true → nfkcOk (lower s) = true

/-- The `ValueError`s of `urlsplit`. -/
inductive UrlError
  | invalidIpv6Url
  | invalidBrackets
  | invalidCharacters
deriving DecidableEq

namespace Url

/-! ## 1. `urlsplit` -/

/-- `_WHATWG_C0_CONTROL_OR_SPACE` -/
def isControlOrSpace (c : Char) : Bool := c.toNat ≤ 32

/-- `_UNSAFE_URL_BYTES_TO_REMOVE` -/
def isUnsafe (c : Char) : Bool := c = '\t' || c = '\r' || c = '\n'

/-- `scheme_chars` -/
def isSchemeChar (c : Char) : Bool := c.isAlphanum || c = '+' || c = '-' || c = '.'

/-- What ends an authority. -/
def isDelimiter (c : Char) : Bool := c = '/' || c = '?' || c = '#'

def cleaned (url : List Char) : List Char :=
  (url.dropWhile isControlOrSpace).filter fun c => !isUnsafe c

variable (T : UrlText)

/-- The scheme, empty when there is none, and what comes after it. -/
def splitScheme (url : List Char) : List Char × List Char :=
  let scheme := url.takeWhile fun c => c ≠ ':'
  if ':' ∈ url && scheme.head?.any Char.isAlpha && scheme.all isSchemeChar then
    (T.lower scheme, url.drop (scheme.length + 1))
  else ([], url)

/-- `_splitnetloc`, of what begins with `//`. -/
def splitNetloc : List Char → List Char
  | '/' :: '/' :: rest => rest.takeWhile fun c => !isDelimiter c
  | _ => []

/-- The checks of an authority. -/
def checkNetloc (netloc : List Char) : Except UrlError Unit :=
  if decide ('[' ∈ netloc) ≠ decide (']' ∈ netloc) then .error .invalidIpv6Url
  else if '[' ∈ netloc && !T.bracketsOk netloc then .error .invalidBrackets
  else if (netloc.any fun c => 128 ≤ c.toNat) && !T.nfkcOk netloc then .error .invalidCharacters
  else .ok ()

/-- The scheme and the authority, each of them possibly empty. -/
def parts (url : List Char) : List Char × List Char :=
  let split := splitScheme T (cleaned url)
  (split.1, splitNetloc split.2)

def urlsplit (url : List Char) : Except UrlError (List Char × List Char) :=
  (checkNetloc T (parts T url).2).map fun _ => parts T url

/-! ## 2. Characters -/

theorem isAlpha_iff {c : Char} :
    c.isAlpha = true ↔ (65 ≤ c.toNat ∧ c.toNat ≤ 90) ∨ (97 ≤ c.toNat ∧ c.toNat ≤ 122) := by
  have hletters : c.isAlpha = (decide (65 ≤ c.val ∧ c.val ≤ 90) ||
      decide (97 ≤ c.val) && decide (c.val ≤ 122)) := rfl
  simp only [hletters, Bool.or_eq_true, Bool.and_eq_true, decide_eq_true_eq,
    UInt32.le_iff_toNat_le]
  rfl

theorem isSchemeChar_cases {c : Char} (h : isSchemeChar c = true) :
    c.isAlpha = true ∨ (48 ≤ c.toNat ∧ c.toNat ≤ 57) ∨ c = '+' ∨ c = '-' ∨ c = '.' := by
  simp only [isSchemeChar, Char.isAlphanum, Bool.or_eq_true, decide_eq_true_eq] at h
  rcases h with (((h | h) | h) | h) | h
  · exact .inl h
  · simp only [Char.isDigit, Bool.and_eq_true, decide_eq_true_eq, UInt32.le_iff_toNat_le,
      ge_iff_le] at h
    exact .inr (.inl h)
  · exact .inr (.inr (.inl h))
  · exact .inr (.inr (.inr (.inl h)))
  · exact .inr (.inr (.inr (.inr h)))

theorem isSchemeChar_bounds {c : Char} (h : isSchemeChar c = true) :
    43 ≤ c.toNat ∧ c.toNat ≤ 122 ∧ c ≠ ':' := by
  have hcolon : c = ':' → c.toNat = 58 := fun hc => hc ▸ rfl
  have hbounds : 43 ≤ c.toNat ∧ c.toNat ≤ 122 ∧ c.toNat ≠ 58 := by
    rcases isSchemeChar_cases h with h | h | rfl | rfl | rfl
    · have hletter := isAlpha_iff.mp h
      omega
    · omega
    all_goals decide
  exact ⟨hbounds.1, hbounds.2.1, fun hc => hbounds.2.2 (hcolon hc)⟩

theorem isUnsafe_of_schemeChar {c : Char} (h : isSchemeChar c = true) : isUnsafe c = false := by
  have hlow := (isSchemeChar_bounds h).1
  simp only [isUnsafe, Bool.or_eq_false_iff, decide_eq_false_iff_not]
  refine ⟨⟨?_, ?_⟩, ?_⟩
  all_goals
    rintro rfl
    revert hlow
    decide

theorem toLower_cases (c : Char) : c.toLower = c ∨
    (65 ≤ c.toNat ∧ c.toNat ≤ 90) ∧ c.toLower.toNat = c.toNat + 32 := by
  unfold Char.toLower
  split
  · rename_i h
    have hlo : 65 ≤ c.toNat := h.1
    have hhi : c.toNat ≤ 90 := h.2
    refine .inr ⟨⟨hlo, hhi⟩, ?_⟩
    show (c.val + ('a'.val - 'A'.val)).toNat = c.toNat + 32
    have hdiff : 'a'.val - 'A'.val = 32 := rfl
    have hc : c.val.toNat = c.toNat := rfl
    rw [hdiff, UInt32.toNat_add, hc]
    simp
    omega
  · exact .inl rfl

theorem isAlpha_toLower {c : Char} (h : c.isAlpha = true) : c.toLower.isAlpha = true := by
  rcases toLower_cases c with heq | ⟨hc, hlower⟩
  · rw [heq]
    exact h
  · rw [isAlpha_iff, hlower]
    omega

theorem isSchemeChar_toLower {c : Char} (h : isSchemeChar c = true) :
    isSchemeChar c.toLower = true := by
  rcases toLower_cases c with heq | ⟨hc, hlower⟩
  · rw [heq]
    exact h
  · have halpha : c.toLower.isAlpha = true := by
      rw [isAlpha_iff, hlower]
      omega
    simp [isSchemeChar, Char.isAlphanum, halpha]

/-! ## 3. What is split off -/

/-- A scheme begins with a letter. -/
structure IsScheme (s : List Char) : Prop where
  letter : s.head?.any Char.isAlpha = true
  chars : ∀ c ∈ s, isSchemeChar c = true

/-- An authority has no delimiter in it, and nothing that is removed. -/
def Clean (n : List Char) : Prop := ∀ c ∈ n, isUnsafe c = false ∧ isDelimiter c = false

variable {T} {url s n : List Char}

theorem IsScheme.ne_nil (h : IsScheme s) : s ≠ [] := by
  rintro rfl
  cases h.letter

theorem IsScheme.lower_eq (h : IsScheme s) : T.lower s = s.map Char.toLower :=
  T.lower_ascii s fun c hc => by
    have hbounds := isSchemeChar_bounds (h.chars c hc)
    omega

theorem IsScheme.lower (h : IsScheme s) : IsScheme (T.lower s) := by
  rw [h.lower_eq]
  constructor
  · cases s with
    | nil => cases h.letter
    | cons c s => exact isAlpha_toLower h.letter
  · intro c hc
    obtain ⟨d, hd, rfl⟩ := List.mem_map.mp hc
    exact isSchemeChar_toLower (h.chars d hd)

theorem IsScheme.noColon (h : IsScheme s) : ':' ∉ s := fun hc =>
  (isSchemeChar_bounds (h.chars ':' hc)).2.2 rfl

theorem Clean.lower (h : Clean n) : Clean (T.lower n) := by
  intro c hc
  have hn : ∀ d ∈ ['\t', '\n', '\r', '/', '?', '#'], c ≠ d := by
    rintro d hd rfl
    have hmem : c ∈ ['\t', '\n', '\r', '/', '?', '#', '[', ']'] := by
      simp only [List.mem_cons, List.not_mem_nil, or_false] at hd ⊢
      rcases hd with h | h | h | h | h | h <;> simp [h]
    have hclean := h c ((T.mem_lower_iff n c hmem).mp hc)
    simp only [List.mem_cons, List.not_mem_nil, or_false] at hd
    simp only [isUnsafe, isDelimiter, Bool.or_eq_false_iff, decide_eq_false_iff_not] at hclean
    rcases hd with h | h | h | h | h | h <;> simp [h] at hclean
  simp only [isUnsafe, isDelimiter, Bool.or_eq_false_iff, decide_eq_false_iff_not]
  exact ⟨⟨⟨hn _ (by simp), hn _ (by simp)⟩, hn _ (by simp)⟩,
    ⟨hn _ (by simp), hn _ (by simp)⟩, hn _ (by simp)⟩

theorem checkNetloc_eq_ok_iff : checkNetloc T n = .ok () ↔ ('[' ∈ n ↔ ']' ∈ n) ∧
    ('[' ∈ n → T.bracketsOk n = true) ∧ ((∃ c ∈ n, 128 ≤ c.toNat) → T.nfkcOk n = true) := by
  unfold checkNetloc
  by_cases hbalanced : '[' ∈ n ↔ ']' ∈ n
  · rw [if_neg (by simpa using hbalanced)]
    by_cases hbrackets : '[' ∈ n → T.bracketsOk n = true
    · rw [if_neg (by simpa using hbrackets)]
      by_cases hnfkc : (∃ c ∈ n, 128 ≤ c.toNat) → T.nfkcOk n = true
      · rw [if_neg (by simpa using hnfkc)]
        exact ⟨fun _ => ⟨hbalanced, hbrackets, hnfkc⟩, fun _ => rfl⟩
      · obtain ⟨⟨c, hc, hwide⟩, hbad⟩ := Classical.not_imp.mp hnfkc
        have hfails : ((n.any fun c => 128 ≤ c.toNat) && !T.nfkcOk n) = true := by
          simp only [Bool.and_eq_true, List.any_eq_true, decide_eq_true_eq]
          exact ⟨⟨c, hc, hwide⟩, by simpa using hbad⟩
        rw [if_pos hfails]
        exact ⟨nofun, fun h => absurd h.2.2 hnfkc⟩
    · rw [if_pos (by simpa using hbrackets)]
      exact ⟨nofun, fun h => absurd h.2.1 hbrackets⟩
  · rw [if_pos (by simpa using hbalanced)]
    exact ⟨nofun, fun h => absurd h.1 hbalanced⟩

/-- **An authority stays acceptable in lower case.** -/
theorem checkNetloc_lower (h : checkNetloc T n = .ok ()) : checkNetloc T (T.lower n) = .ok () := by
  obtain ⟨hbalanced, hbrackets, hnfkc⟩ := checkNetloc_eq_ok_iff.mp h
  have hopen : '[' ∈ T.lower n ↔ '[' ∈ n := T.mem_lower_iff n '[' (by simp)
  have hclose : ']' ∈ T.lower n ↔ ']' ∈ n := T.mem_lower_iff n ']' (by simp)
  refine checkNetloc_eq_ok_iff.mpr ⟨hopen.trans (hbalanced.trans hclose.symm), fun hmem =>
    T.bracketsOk_lower n (hbrackets (hopen.mp hmem)), fun hwide => T.nfkcOk_lower n (hnfkc ?_)⟩
  by_contra hascii
  obtain ⟨c, hc, hwide⟩ := hwide
  have hnarrow : ∀ d ∈ n, d.toNat < 128 := fun d hd =>
    Nat.lt_of_not_le fun hle => hascii ⟨d, hd, hle⟩
  rw [T.lower_ascii n hnarrow] at hc
  obtain ⟨d, hd, rfl⟩ := List.mem_map.mp hc
  have hbound := hnarrow d hd
  rcases toLower_cases d with heq | ⟨hupper, hlower⟩
  · rw [heq] at hwide
    omega
  · omega

/-- The scheme that is split off is one, in lower case, or there is none. -/
theorem splitScheme_fst : (splitScheme T url).1 = [] ∨
    ∃ s, IsScheme s ∧ (splitScheme T url).1 = T.lower s := by
  unfold splitScheme
  dsimp only
  split
  · rename_i h
    simp only [Bool.and_eq_true, List.all_eq_true] at h
    exact .inr ⟨_, ⟨h.1.2, h.2⟩, rfl⟩
  · exact .inl rfl

theorem splitScheme_snd : (splitScheme T url).2 <:+ url := by
  unfold splitScheme
  dsimp only
  split
  · exact List.drop_suffix _ _
  · exact List.suffix_rfl

theorem splitNetloc_clean (h : ∀ c ∈ url, isUnsafe c = false) : Clean (splitNetloc url) := by
  unfold splitNetloc
  split
  · rename_i rest
    intro c hc
    refine ⟨h c (List.mem_cons_of_mem _ (List.mem_cons_of_mem _ (List.takeWhile_subset _ hc))), ?_⟩
    simpa using List.mem_takeWhile_imp hc
  · exact nofun

theorem parts_scheme : (parts T url).1 = [] ∨ ∃ s, IsScheme s ∧ (parts T url).1 = T.lower s :=
  splitScheme_fst

theorem parts_clean : Clean (parts T url).2 := by
  refine splitNetloc_clean fun c hc => ?_
  have hmem : c ∈ cleaned url := splitScheme_snd.subset hc
  simpa using (List.mem_filter.mp hmem).2

theorem cleaned_written (hs : IsScheme s) {rest : List Char}
    (hrest : ∀ c ∈ rest, isUnsafe c = false) :
    cleaned (s ++ ':' :: rest) = s ++ ':' :: rest := by
  unfold cleaned
  have hstart : (s ++ ':' :: rest).dropWhile isControlOrSpace = s ++ ':' :: rest := by
    cases s with
    | nil => cases hs.letter
    | cons c s =>
      have hc := isAlpha_iff.mp hs.letter
      refine List.dropWhile_cons_of_neg ?_
      simp only [isControlOrSpace, decide_eq_true_eq]
      omega
  rw [hstart, List.filter_eq_self]
  intro c hc
  rcases List.mem_append.mp hc with hc | hc
  · rw [isUnsafe_of_schemeChar (hs.chars c hc)]
    rfl
  · rcases List.mem_cons.mp hc with rfl | hc
    · rfl
    · rw [hrest c hc]
      rfl

theorem splitScheme_written (hs : IsScheme s) (rest : List Char) :
    splitScheme T (s ++ ':' :: rest) = (T.lower s, rest) := by
  have hscheme : (s ++ ':' :: rest).takeWhile (fun c => c ≠ ':') = s := by
    have hnone : ∀ c ∈ s, decide (c ≠ ':') = true := fun c hc =>
      decide_eq_true (isSchemeChar_bounds (hs.chars c hc)).2.2
    rw [List.takeWhile_append_of_pos hnone]
    simp
  unfold splitScheme
  dsimp only
  rw [hscheme, if_pos]
  · simp
  · simp only [Bool.and_eq_true, List.all_eq_true]
    exact ⟨⟨by simp, hs.letter⟩, hs.chars⟩

theorem Clean.notDelimiter (h : Clean n) : ∀ c ∈ n, (!isDelimiter c) = true := by
  intro c hc
  rw [(h c hc).2]
  rfl

/-- **A scheme and an authority that are written are split off again.** -/
theorem parts_written (hs : IsScheme s) (hn : Clean n) :
    parts T (s ++ ':' :: '/' :: '/' :: n) = (T.lower s, n) := by
  have hcleaned : cleaned (s ++ ':' :: '/' :: '/' :: n) = s ++ ':' :: '/' :: '/' :: n := by
    refine cleaned_written hs fun c hc => ?_
    simp only [List.mem_cons] at hc
    rcases hc with rfl | rfl | hc
    · rfl
    · rfl
    · exact (hn c hc).1
  unfold parts
  rw [hcleaned, splitScheme_written hs]
  refine Prod.ext rfl ?_
  show n.takeWhile _ = n
  rw [List.takeWhile_eq_self_iff]
  exact hn.notDelimiter

/-! ## 4. The path -/

/-- What comes after the authority. -/
def afterNetloc : List Char → List Char
  | '/' :: '/' :: rest => rest.dropWhile fun c => !isDelimiter c
  | url => url

/-- `urlsplit(url).path`: up to the query, or the fragment. -/
def path (T : UrlText) (url : List Char) : Except UrlError (List Char) :=
  (checkNetloc T (parts T url).2).map fun _ =>
    ((afterNetloc (splitScheme T (cleaned url)).2).takeWhile fun c => c ≠ '#').takeWhile
      fun c => c ≠ '?'

/-- **A path that is written after an authority is read back**, if nothing in it is removed or ends
it. -/
theorem path_written (hs : IsScheme s) (hn : Clean n) {p : List Char}
    (hp : ∀ c ∈ p, isUnsafe c = false ∧ c ≠ '#' ∧ c ≠ '?') :
    path T (s ++ ':' :: '/' :: '/' :: (n ++ '/' :: p)) =
      (checkNetloc T n).map fun _ => '/' :: p := by
  have hcleaned : cleaned (s ++ ':' :: '/' :: '/' :: (n ++ '/' :: p)) =
      s ++ ':' :: '/' :: '/' :: (n ++ '/' :: p) := by
    refine cleaned_written hs fun c hc => ?_
    simp only [List.mem_cons, List.mem_append] at hc
    rcases hc with rfl | rfl | hc | rfl | hc
    · rfl
    · rfl
    · exact (hn c hc).1
    · rfl
    · exact (hp c hc).1
  have hsplit : splitScheme T (s ++ ':' :: '/' :: '/' :: (n ++ '/' :: p)) =
      (T.lower s, '/' :: '/' :: (n ++ '/' :: p)) := splitScheme_written hs _
  have hnetloc : splitNetloc ('/' :: '/' :: (n ++ '/' :: p)) = n := by
    show (n ++ '/' :: p).takeWhile _ = n
    rw [List.takeWhile_append_of_pos hn.notDelimiter, List.takeWhile_cons_of_neg (by decide),
      List.append_nil]
  have hafter : afterNetloc ('/' :: '/' :: (n ++ '/' :: p)) = '/' :: p := by
    show (n ++ '/' :: p).dropWhile _ = '/' :: p
    rw [List.dropWhile_append_of_pos hn.notDelimiter, List.dropWhile_cons_of_neg (by decide)]
  have hwhole : ∀ c ∈ '/' :: p, c ≠ '#' ∧ c ≠ '?' := by
    intro c hc
    rcases List.mem_cons.mp hc with rfl | hc
    · decide
    · exact (hp c hc).2
  have hfragment : ('/' :: p).takeWhile (fun c => c ≠ '#') = '/' :: p :=
    List.takeWhile_eq_self_iff.mpr fun c hc => decide_eq_true (hwhole c hc).1
  have hquery : ('/' :: p).takeWhile (fun c => c ≠ '?') = '/' :: p :=
    List.takeWhile_eq_self_iff.mpr fun c hc => decide_eq_true (hwhole c hc).2
  unfold path parts
  rw [hcleaned, hsplit]
  dsimp only
  rw [hnetloc, hafter, hfragment, hquery]

end Url

end NewlifeCore
