import NewlifeCore.Facility.Constants
import NewlifeCore.Grouping
import Mathlib.Data.List.Sort
import Mathlib.Data.Prod.Lex
import Mathlib.Tactic.Linarith

/-!
# `core_request.py`: which locale a request is answered in

The ranges of an `Accept-Language` header are sorted by quality and tried in turn: a range takes the
locale of its own code, or the best of its language, or the default for `*`.  A range of quality 0
is tried like the others, only last.
-/

namespace NewlifeCore

/-! ## 1. The snapshot of the locales -/

/-- `Locale`, as the snapshot reads it. -/
structure LocaleColumns where
  id : UUID
  languageCode : String
  scriptCode : Option String := none
  regionCode : Option String := none
  isActive : Bool := true
  isDefault : Bool := false

/-- A locale whose language code is not empty. -/
structure Locale extends LocaleColumns where
  languageCode_ne : languageCode ≠ ""

/-- A float. -/
inductive PyFloat
  | nan
  | infinite (negative : Bool)
  | finite (value : Rat)

/-- `str.lower` and `float`, whose none is a `ValueError`. -/
structure PyText where
  lower : String → String
  float : String → Option PyFloat

/-- `text.split(sep)`. -/
def splitText (sep : Char) (text : String) : List String :=
  (text.toList.splitOn sep).map String.ofList

/-- `LocaleSnapshotResult`; the last pair with a key counts. -/
structure LocaleSnapshot where
  activeLocales : List String
  defaultLocale : Option String
  normalizedMap : List (String × String)
  normalizedIdMap : List (String × UUID)
  languageBuckets : Groups String String

/-- `dict.get`. -/
def lastOf {α : Type} (pairs : List (String × α)) (key : String) : Option α :=
  (pairs.reverse.find? fun p => p.1 = key).map Prod.snd

section

variable (py : PyText)

def normalizeLocaleCode (code : String) : String :=
  py.lower (String.ofList ((strip code).toList.map fun c => if c = '_' then '-' else c))

/-- An optional part counts when it is not empty. -/
def truthy (part : Option String) : Option String := part.filter (· ≠ "")

def buildLocaleCode (l : LocaleColumns) : String :=
  "-".intercalate (l.languageCode :: (truthy l.scriptCode).toList ++ (truthy l.regionCode).toList)

def extractLanguageCode (code : String) : String :=
  ((splitText '-' (normalizeLocaleCode py code)).head?).getD ""

/-- `_build_snapshot_from_locales`, of any rows. -/
def buildSnapshot (locales : List LocaleColumns) : LocaleSnapshot :=
  let active := locales.filter LocaleColumns.isActive
  let codes := active.map buildLocaleCode
  let activeLocales := codes.foldl (fun seen code => Groups.addNew seen code) []
  { activeLocales
    defaultLocale :=
      ((active.find? LocaleColumns.isDefault).map buildLocaleCode).or activeLocales.head?
    normalizedMap := codes.map fun code => (normalizeLocaleCode py code, code)
    normalizedIdMap := active.map fun l => (normalizeLocaleCode py (buildLocaleCode l), l.id)
    languageBuckets := Groups.collect (extractLanguageCode py)
      (fun bucket code => Groups.addNew bucket code) codes [] }

/-- `_build_snapshot_from_locales`. -/
def buildSnapshotFromLocales (locales : List Locale) : LocaleSnapshot :=
  buildSnapshot py (locales.map Locale.toLocaleColumns)

def getLocaleCodesByLanguage (snapshot : LocaleSnapshot) (languageCode : String) : List String :=
  Groups.valuesAt (normalizeLocaleCode py languageCode) snapshot.languageBuckets

/-! ## 2. The header -/

/-- `max(0.0, min(quality, 1.0))`; of nan, `min` and `max` return their first argument. -/
def clampQuality : PyFloat → Rat
  | .nan => 0
  | .infinite negative => if negative then 0 else 1
  | .finite value => max 0 (min value 1)

theorem clampQuality_nonneg (f : PyFloat) : 0 ≤ clampQuality f := by
  cases f with
  | nan => exact le_refl 0
  | infinite negative => cases negative <;> decide
  | finite value => exact le_max_left _ _

/-- A range of the header, with its place in it. -/
structure LanguageRange where
  index : Nat
  code : String
  quality : Rat

/-- The quality after one more parameter. -/
def readParam (quality : PyFloat) (param : String) : PyFloat :=
  if "q=".toList.isPrefixOf param.toList then
    (py.float (String.ofList (param.toList.drop 2))).getD (.finite 0)
  else quality

/-- An item of the header; without a `;` it has no parameters. -/
def parseItem (item : String × Nat) : Option LanguageRange :=
  if strip item.1 = "" then none
  else
    match (splitText ';' (strip item.1)).map strip with
    | [] => none
    | code :: params =>
      if code = "" then none
      else some ⟨item.2, normalizeLocaleCode py code,
        clampQuality (params.foldl (readParam py) (.finite 1))⟩

/-- The highest quality first, and in the header's order. -/
def LanguageRange.rank (r : LanguageRange) : Rat ×ₗ Nat := toLex (-r.quality, r.index)

/-- The weighted items of `_parse_accept_language`. -/
def parseRanges (acceptLanguage : Option String) : List LanguageRange :=
  match acceptLanguage with
  | none => []
  | some header =>
    if header = "" then []
    else ((splitText ',' header).zipIdx.filterMap (parseItem py)).insertionSort
      fun a b => a.rank ≤ b.rank

/-- `_parse_accept_language`. -/
def parseAcceptLanguage (acceptLanguage : Option String) : List String :=
  (parseRanges py acceptLanguage).map LanguageRange.code

/-! ## 3. Matching -/

/-- Language, script and region. -/
def extractLocaleParts (code : String) : String × Option String × Option String :=
  match splitText '-' (normalizeLocaleCode py code) with
  | [] => ("", none, none)
  | [language] => (language, none, none)
  | language :: second :: rest =>
    if second.length = 4 then (language, some second, rest.head?) else (language, none, some second)

def matchLocaleByLanguageScript (codes : List String) (script : String) : Option String :=
  codes.find? fun code =>
    match splitText '-' (normalizeLocaleCode py code) with
    | _ :: second :: _ :: _ => second = script
    | _ => false

def matchLocaleByLanguageRegion (codes : List String) (region : String) : Option String :=
  codes.find? fun code =>
    match splitText '-' (normalizeLocaleCode py code) with
    | _ :: _ :: third :: _ => third = region
    | [_, second] => second = region
    | _ => false

/-- What a language's locales give a range, the region before the script. -/
def bestOfLanguage (codes : List String) (script region : Option String) : Option String :=
  (((truthy region).bind (matchLocaleByLanguageRegion py codes)).or
    ((truthy script).bind (matchLocaleByLanguageScript py codes))).or codes.head?

/-- One turn of the loop: the locale it returns, or none to go on. -/
def resolveCandidate (snapshot : LocaleSnapshot) (candidate : String) : Option String :=
  if candidate = "*" then truthy snapshot.defaultLocale
  else
    match (truthy (lastOf snapshot.normalizedMap candidate)).filter
        (· ∈ snapshot.activeLocales) with
    | some matched => some matched
    | none =>
      let (language, script, region) := extractLocaleParts py candidate
      if language = "" then none
      else bestOfLanguage py (getLocaleCodesByLanguage py snapshot language) script region

/-- `locale_detector`: the locale, its id and the candidates.  The cache of buckets and the stored
snapshot are what a fresh reading gives. -/
def localeDetector (snapshot : LocaleSnapshot) (acceptLanguage : Option String) :
    Option String × Option UUID × List String :=
  let candidates := parseAcceptLanguage py acceptLanguage
  let resolved := ((candidates.findSome? (resolveCandidate py snapshot)).or
    (truthy snapshot.defaultLocale)).or snapshot.activeLocales.head?
  (resolved, resolved.bind fun code =>
    lastOf snapshot.normalizedIdMap (normalizeLocaleCode py code), candidates)

end

/-! ## 4. What a range resolves to -/

section

variable {py : PyText} {locales : List Locale} {code candidate key : String}

theorem intercalate_ne (sep first : String) (rest : List String) (h : first ≠ "") :
    sep.intercalate (first :: rest) ≠ "" := by
  intro heq
  have hlist := congrArg String.toList heq
  rw [String.toList_intercalate] at hlist
  cases rest with
  | nil => exact h (String.toList_injective (by simpa using hlist))
  | cons second rest => 
    simp only [List.intercalate] at hlist
    simp at hlist
    exact h hlist.1

/-- A locale's code is not empty. -/
theorem buildLocaleCode_ne (l : Locale) : buildLocaleCode l.toLocaleColumns ≠ "" :=
  intercalate_ne _ _ _ l.languageCode_ne

/-- The codes of the active locales, in their order. -/
def activeCodes (locales : List Locale) : List String :=
  ((locales.map Locale.toLocaleColumns).filter LocaleColumns.isActive).map buildLocaleCode

theorem mem_activeLocales : code ∈ (buildSnapshotFromLocales py locales).activeLocales ↔
    code ∈ activeCodes locales := by
  have hmem := (Groups.foldl_addNew id (activeCodes locales) List.nodup_nil).2 code
  simp only [List.not_mem_nil, false_or, id, exists_eq_right] at hmem
  exact hmem

theorem ne_of_active (h : code ∈ (buildSnapshotFromLocales py locales).activeLocales) :
    code ≠ "" := by
  obtain ⟨row, hrow, rfl⟩ := List.mem_map.mp (mem_activeLocales.mp h)
  obtain ⟨l, -, rfl⟩ := List.mem_map.mp (List.mem_filter.mp hrow).1
  exact buildLocaleCode_ne l

theorem truthy_some (h : code ≠ "") : truthy (some code) = some code := by
  simp [truthy, h]

/-- The default is active, and there is one as soon as a locale is active. -/
theorem truthy_default : (∀ code, truthy (buildSnapshotFromLocales py locales).defaultLocale =
      some code → code ∈ (buildSnapshotFromLocales py locales).activeLocales) ∧
    ((truthy (buildSnapshotFromLocales py locales).defaultLocale).isSome ↔
      (buildSnapshotFromLocales py locales).activeLocales ≠ []) := by
  have hmem : ∀ code, (buildSnapshotFromLocales py locales).defaultLocale = some code →
      code ∈ (buildSnapshotFromLocales py locales).activeLocales := by
    intro code h
    rcases Option.or_eq_some_iff.mp h with h | ⟨-, h⟩
    · obtain ⟨l, hl, rfl⟩ := Option.map_eq_some_iff.mp h
      exact mem_activeLocales.mpr (List.mem_map_of_mem (List.mem_of_find?_eq_some hl))
    · exact List.mem_of_head? h
  refine ⟨fun code h => hmem code (Option.filter_eq_some_iff.mp h).1, ?_⟩
  constructor
  · intro h
    obtain ⟨code, hcode⟩ := Option.isSome_iff_exists.mp h
    exact List.ne_nil_of_mem (hmem code (Option.filter_eq_some_iff.mp hcode).1)
  · intro h
    cases hd : (buildSnapshotFromLocales py locales).defaultLocale with
    | some code => rw [truthy_some (ne_of_active (hmem code hd))]; rfl
    | none => exact absurd (List.head?_eq_none_iff.mp (Option.or_eq_none_iff.mp hd).2) h

theorem lastOf_mem {α : Type} {pairs : List (String × α)} {value : α}
    (h : lastOf pairs key = some value) : (key, value) ∈ pairs := by
  obtain ⟨pair, hpair, rfl⟩ := Option.map_eq_some_iff.mp h
  have hkey := List.find?_some hpair
  rw [← of_decide_eq_true hkey]
  exact List.mem_reverse.mp (List.mem_of_find?_eq_some hpair)

theorem lastOf_isSome {α : Type} {pairs : List (String × α)} {value : α}
    (h : (key, value) ∈ pairs) : (lastOf pairs key).isSome := by
  rw [lastOf, Option.isSome_map, List.find?_isSome]
  exact ⟨_, List.mem_reverse.mpr h, decide_eq_true rfl⟩

/-- The code of an active locale is found under its normal form, or one that has the same. -/
theorem normalizedMap_iff : ((truthy (lastOf (buildSnapshotFromLocales py locales).normalizedMap
      candidate)).filter (· ∈ (buildSnapshotFromLocales py locales).activeLocales)).isSome ↔
    ∃ code ∈ (buildSnapshotFromLocales py locales).activeLocales,
      normalizeLocaleCode py code = candidate := by
  have hmap : ∀ code, (candidate, code) ∈ (buildSnapshotFromLocales py locales).normalizedMap ↔
      code ∈ (buildSnapshotFromLocales py locales).activeLocales ∧
        normalizeLocaleCode py code = candidate := by
    intro code
    rw [mem_activeLocales]
    show (candidate, code) ∈ (activeCodes locales).map
      (fun code => (normalizeLocaleCode py code, code)) ↔ _
    rw [List.mem_map]
    constructor
    · rintro ⟨c, hc, heq⟩
      obtain ⟨hkey, rfl⟩ := Prod.mk.inj heq
      exact ⟨hc, hkey⟩
    · rintro ⟨hc, hkey⟩
      exact ⟨code, hc, by rw [hkey]⟩
  constructor
  · intro h
    obtain ⟨code, hcode⟩ := Option.isSome_iff_exists.mp h
    obtain ⟨hcode, -⟩ := Option.filter_eq_some_iff.mp hcode
    obtain ⟨hcode, -⟩ := Option.filter_eq_some_iff.mp hcode
    exact ⟨code, (hmap code).mp (lastOf_mem hcode)⟩
  · rintro ⟨code, hcode⟩
    obtain ⟨other, hother⟩ := Option.isSome_iff_exists.mp (lastOf_isSome ((hmap code).mpr hcode))
    have hactive := ((hmap other).mp (lastOf_mem hother)).1
    rw [hother, truthy_some (ne_of_active hactive), Option.filter_some,
      if_pos (decide_eq_true hactive)]
    rfl

/-- A bucket holds the active locales of its language. -/
theorem mem_bucket {language : String} :
    code ∈ getLocaleCodesByLanguage py (buildSnapshotFromLocales py locales) language ↔
      code ∈ (buildSnapshotFromLocales py locales).activeLocales ∧
        extractLanguageCode py code = normalizeLocaleCode py language := by
  rw [mem_activeLocales]
  show code ∈ Groups.valuesAt _ (Groups.collect _ _ (activeCodes locales) []) ↔ _
  rw [Groups.valuesAt_collect]
  have hmem := (Groups.foldl_addNew id
    ((activeCodes locales).filter fun c =>
      extractLanguageCode py c = normalizeLocaleCode py language) List.nodup_nil).2 code
  simpa [Groups.valuesAt] using hmem

theorem bestOfLanguage_mem {codes : List String} {script region : Option String}
    (h : bestOfLanguage py codes script region = some code) : code ∈ codes := by
  rcases Option.or_eq_some_iff.mp h with h | ⟨-, h⟩
  · rcases Option.or_eq_some_iff.mp h with h | ⟨-, h⟩
    · obtain ⟨_, -, h⟩ := Option.bind_eq_some_iff.mp h
      exact List.mem_of_find?_eq_some h
    · obtain ⟨_, -, h⟩ := Option.bind_eq_some_iff.mp h
      exact List.mem_of_find?_eq_some h
  · exact List.mem_of_head? h

theorem bestOfLanguage_isSome {codes : List String} {script region : Option String} :
    (bestOfLanguage py codes script region).isSome ↔ codes ≠ [] := by
  constructor
  · intro h
    obtain ⟨code, hcode⟩ := Option.isSome_iff_exists.mp h
    exact List.ne_nil_of_mem (bestOfLanguage_mem hcode)
  · intro h
    rw [bestOfLanguage, Option.isSome_or, Bool.or_eq_true]
    exact .inr (List.isSome_head?.mpr h)

/-- A locale a range may be answered with: any for `*`, that of its code, those of its language. -/
def Matches (py : PyText) (code range : String) : Prop :=
  range = "*" ∨ normalizeLocaleCode py code = range ∨
    (extractLocaleParts py range).1 ≠ "" ∧
      extractLanguageCode py code = normalizeLocaleCode py (extractLocaleParts py range).1

/-- **A range resolves to an active locale that it matches.** -/
theorem resolveCandidate_some
    (h : resolveCandidate py (buildSnapshotFromLocales py locales) candidate = some code) :
    code ∈ (buildSnapshotFromLocales py locales).activeLocales ∧ Matches py code candidate := by
  unfold resolveCandidate at h
  split at h
  · exact ⟨truthy_default.1 code h, .inl ‹candidate = "*"›⟩
  · split at h
    · rename_i matched hmatched
      cases h
      obtain ⟨hfound, hactive⟩ := Option.filter_eq_some_iff.mp hmatched
      have hpair := lastOf_mem (Option.filter_eq_some_iff.mp hfound).1
      obtain ⟨c, -, heq⟩ := List.mem_map.mp hpair
      obtain ⟨hkey, rfl⟩ := Prod.mk.inj heq
      exact ⟨of_decide_eq_true hactive, .inr (.inl hkey)⟩
    · dsimp only at h
      split at h
      · cases h
      · rename_i hlanguage
        obtain ⟨hactive, hcode⟩ := mem_bucket.mp (bestOfLanguage_mem h)
        exact ⟨hactive, .inr (.inr ⟨hlanguage, hcode⟩)⟩

/-- **A range that matches an active locale resolves.** -/
theorem resolveCandidate_isSome :
    (resolveCandidate py (buildSnapshotFromLocales py locales) candidate).isSome ↔
      ∃ code ∈ (buildSnapshotFromLocales py locales).activeLocales, Matches py code candidate := by
  constructor
  · intro h
    obtain ⟨code, hcode⟩ := Option.isSome_iff_exists.mp h
    exact ⟨code, resolveCandidate_some hcode⟩
  · rintro ⟨code, hactive, hmatches⟩
    unfold resolveCandidate
    by_cases hstar : candidate = "*"
    · rw [if_pos hstar]
      exact truthy_default.2.mpr (List.ne_nil_of_mem hactive)
    rw [if_neg hstar]
    cases hexact : (truthy (lastOf (buildSnapshotFromLocales py locales).normalizedMap
        candidate)).filter (· ∈ (buildSnapshotFromLocales py locales).activeLocales) with
    | some matched => rfl
    | none =>
      have hnone : ¬∃ code ∈ (buildSnapshotFromLocales py locales).activeLocales,
          normalizeLocaleCode py code = candidate := by
        rw [← normalizedMap_iff, hexact]
        exact Bool.false_ne_true
      rcases hmatches with h | h | ⟨hlanguage, hcode⟩
      · exact absurd h hstar
      · exact absurd ⟨code, hactive, h⟩ hnone
      · dsimp only
        rw [if_neg hlanguage, bestOfLanguage_isSome]
        exact List.ne_nil_of_mem (mem_bucket.mpr ⟨hactive, hcode⟩)

end

/-! ## 5. Qualities -/

section

variable {py : PyText} {locales : List Locale} {header : Option String} {r r' : LanguageRange}

/-- The range that the locale is selected for: the first that resolves. -/
def selectingRange (py : PyText) (snapshot : LocaleSnapshot) (header : Option String) :
    Option LanguageRange :=
  (parseRanges py header).find? fun r => (resolveCandidate py snapshot r.code).isSome

/-- The range matches one of the active locales. -/
def MatchesActive (py : PyText) (snapshot : LocaleSnapshot) (range : String) : Prop :=
  ∃ code ∈ snapshot.activeLocales, Matches py code range

/-- **The negotiation honours quality**: the locale is active, it is not selected for a range of
quality 0, and no range of a higher quality than the selecting one, or none at all when the locale
is a fallback, matches an active locale. -/
structure HonoursQuality (py : PyText) (snapshot : LocaleSnapshot) (header : Option String) :
    Prop where
  active : ∀ code, (localeDetector py snapshot header).1 = some code →
    code ∈ snapshot.activeLocales
  acceptable : ∀ r, selectingRange py snapshot header = some r → r.quality ≠ 0
  selected : ∀ r, selectingRange py snapshot header = some r →
    ∃ code, (localeDetector py snapshot header).1 = some code ∧ Matches py code r.code
  best : ∀ r' ∈ parseRanges py header, MatchesActive py snapshot r'.code →
    ∃ r, selectingRange py snapshot header = some r ∧ r'.quality ≤ r.quality

theorem parseRanges_sorted : (parseRanges py header).Pairwise fun a b => b.quality ≤ a.quality := by
  cases header with
  | none => exact List.Pairwise.nil
  | some header =>
    unfold parseRanges
    dsimp only
    split
    · exact List.Pairwise.nil
    · refine (List.pairwise_insertionSort (fun a b : LanguageRange => a.rank ≤ b.rank) _).imp ?_
      intro a b hab
      rcases Prod.Lex.toLex_le_toLex.mp hab with h | ⟨h, -⟩
      · exact le_of_lt (neg_lt_neg_iff.mp h)
      · exact le_of_eq (neg_inj.mp h).symm

theorem quality_nonneg (h : r ∈ parseRanges py header) : 0 ≤ r.quality := by
  cases header with
  | none => cases h
  | some header =>
    unfold parseRanges at h
    dsimp only at h
    split at h
    · cases h
    · obtain ⟨item, -, hitem⟩ := List.mem_filterMap.mp ((List.mem_insertionSort _).mp h)
      unfold parseItem at hitem
      split at hitem
      · cases hitem
      · split at hitem
        · cases hitem
        · split at hitem
          · cases hitem
          · cases hitem
            exact clampQuality_nonneg _

/-- The loop returns what the selecting range resolves to. -/
theorem findSome_candidates (snapshot : LocaleSnapshot) (ranges : List LanguageRange) :
    (ranges.map LanguageRange.code).findSome? (resolveCandidate py snapshot) =
      (ranges.find? fun r => (resolveCandidate py snapshot r.code).isSome).bind fun r =>
        resolveCandidate py snapshot r.code := by
  induction ranges with
  | nil => rfl
  | cons r ranges ih =>
    rw [List.map_cons, List.findSome?_cons, List.find?_cons]
    cases hr : resolveCandidate py snapshot r.code with
    | none => simpa [hr] using ih
    | some code => simp [hr]

/-- The first range that passes a test is of the highest quality among those that do. -/
theorem find_best {ranges : List LanguageRange} {p : LanguageRange → Bool}
    (hsorted : ranges.Pairwise fun a b => b.quality ≤ a.quality) (hr : r' ∈ ranges)
    (hp : p r' = true) : ∃ r, ranges.find? p = some r ∧ r'.quality ≤ r.quality := by
  induction ranges with
  | nil => cases hr
  | cons first rest ih =>
    obtain ⟨hfirst, hrest⟩ := List.pairwise_cons.mp hsorted
    rw [List.find?_cons]
    cases hf : p first with
    | true =>
      refine ⟨first, rfl, ?_⟩
      rcases List.mem_cons.mp hr with rfl | hr
      · exact le_refl _
      · exact hfirst r' hr
    | false =>
      rcases List.mem_cons.mp hr with rfl | hr
      · rw [hf] at hp
        cases hp
      · exact ih hrest hr

theorem exists_selecting (hr : r' ∈ parseRanges py header)
    (hmatches : MatchesActive py (buildSnapshotFromLocales py locales) r'.code) :
    ∃ r, selectingRange py (buildSnapshotFromLocales py locales) header = some r ∧
      r'.quality ≤ r.quality :=
  find_best parseRanges_sorted hr (resolveCandidate_isSome.mpr hmatches)

/-- **The negotiation honours quality exactly when** no range of quality 0 matches an active locale,
or one of positive quality does as well. -/
theorem localeDetector_honours_iff (py : PyText) (locales : List Locale) (header : Option String) :
    HonoursQuality py (buildSnapshotFromLocales py locales) header ↔
      ∀ r ∈ parseRanges py header, r.quality = 0 →
        MatchesActive py (buildSnapshotFromLocales py locales) r.code →
          ∃ r' ∈ parseRanges py header, 0 < r'.quality ∧
            MatchesActive py (buildSnapshotFromLocales py locales) r'.code := by
  set snapshot := buildSnapshotFromLocales py locales with hsnapshot
  have hselecting : ∀ r, selectingRange py snapshot header = some r →
      r ∈ parseRanges py header ∧ MatchesActive py snapshot r.code := by
    intro r hr
    have hresolves := List.find?_some hr
    exact ⟨List.mem_of_find?_eq_some hr, resolveCandidate_isSome.mp hresolves⟩
  constructor
  · intro h r hr hzero hmatches
    obtain ⟨r', hsel, -⟩ := h.best r hr hmatches
    obtain ⟨hmem, hmatches'⟩ := hselecting r' hsel
    exact ⟨r', hmem, lt_of_le_of_ne (quality_nonneg hmem) (Ne.symm (h.acceptable r' hsel)),
      hmatches'⟩
  · intro h
    have hcode : (localeDetector py snapshot header).1 =
        (((selectingRange py snapshot header).bind fun r => resolveCandidate py snapshot r.code).or
          (truthy snapshot.defaultLocale)).or snapshot.activeLocales.head? := by
      unfold localeDetector parseAcceptLanguage selectingRange
      dsimp only
      rw [findSome_candidates]
    refine ⟨fun code hres => ?_, fun r hsel hzero => ?_, fun r hsel => ?_, fun r' hr hmatches => ?_⟩
    · rw [hcode] at hres
      rcases Option.or_eq_some_iff.mp hres with hres | ⟨-, hres⟩
      · rcases Option.or_eq_some_iff.mp hres with hres | ⟨-, hres⟩
        · obtain ⟨r, -, hr⟩ := Option.bind_eq_some_iff.mp hres
          exact (resolveCandidate_some hr).1
        · exact truthy_default.1 code hres
      · exact List.mem_of_head? hres
    · obtain ⟨hmem, hmatches⟩ := hselecting r hsel
      obtain ⟨r', hmem', hpos, hmatches'⟩ := h r hmem hzero hmatches
      obtain ⟨s, hs, hle⟩ := exists_selecting hmem' hmatches'
      rw [← hsnapshot, hsel] at hs
      cases hs
      rw [hzero] at hle
      exact absurd hle (not_le.mpr hpos)
    · have hresolves := List.find?_some hsel
      obtain ⟨code, hres⟩ := Option.isSome_iff_exists.mp hresolves
      refine ⟨code, ?_, (resolveCandidate_some hres).2⟩
      rw [hcode, hsel, Option.bind_some, hres]
      rfl
    · exact exists_selecting hr hmatches

/-! ### 5.1 A language that is not acceptable -/

/-- Lower case in ASCII, and a few decimals. -/
def plainText : PyText where
  lower := String.toLower
  float text := if text = "0" then some (.finite 0) else
    if text = "0.5" then some (.finite (1 / 2)) else none

/-- English and French, French by default. -/
def twoLocales : List Locale :=
  [{ id := 1, languageCode := "en", regionCode := some "US", languageCode_ne := by decide },
    { id := 2, languageCode := "fr", isDefault := true, languageCode_ne := by decide }]

/-- **English is refused, and selected.** -/
theorem localeDetector_not_honours :
    localeDetector plainText (buildSnapshotFromLocales plainText twoLocales) (some "de, en;q=0") =
        (some "en-US", some 1, ["de", "en"]) ∧
      ¬HonoursQuality plainText (buildSnapshotFromLocales plainText twoLocales)
        (some "de, en;q=0") := by
  have hanswer : localeDetector plainText (buildSnapshotFromLocales plainText twoLocales)
      (some "de, en;q=0") = (some "en-US", some 1, ["de", "en"]) := by decide +kernel
  refine ⟨hanswer, fun h => ?_⟩
  have hsel : (selectingRange plainText (buildSnapshotFromLocales plainText twoLocales)
      (some "de, en;q=0")).map LanguageRange.quality = some 0 := by decide +kernel
  obtain ⟨r, hr, hzero⟩ := Option.map_eq_some_iff.mp hsel
  exact h.acceptable r hr hzero

end

end NewlifeCore
