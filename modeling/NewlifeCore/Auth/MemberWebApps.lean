import Mathlib.Data.List.Pairwise
import NewlifeCore.Auth.Accounts
import NewlifeCore.System.LocaleNegotiation
import NewlifeCore.Lists
import NewlifeCore.Text
import NewlifeCore.Url

/-!
# `member_web_app.py`: from an `Origin` to an app

The configuration lists the origins of each member web app.  A request belongs to the app of its
`Origin`, or else of its `Referer`, by scheme and authority without regard to case.  The header is
free text, so it may have an authority that `urlsplit` does not take.

* §2 says what is to come out, without the code: the app that the configuration gives the origin a
  header names, the `Origin` before the `Referer`.
* §3, normal forms.  `normalizeOrigin_ok` is the normal form of a header that names an authority;
  normalizing it again strips blanks and nothing else, so that a normal form lasts unless its
  authority ends in a blank (`written_stays_iff`).
* §4, the registry.  The loops over chunks and parts give each app the normal forms of its chunk
  (`parseChunk_spec`, `parseMemberWebApps_spec`).  With disjoint origins the table of pairs has the
  one app of an origin (`lastOf_originToCode`), and so the lookup is what the configuration names
  (`names_iff`); `answered_iff` says when the request is answered at all.
* §5: the three parts of `ResolvedExactly` are independent, and `resolvedExactly_iff` has the
  condition of each: no malformed authority is looked up, and none that is named ends in a blank.
-/

namespace NewlifeCore.Auth

/-! ## 1. `member_web_app.py` -/

/-- The origins are a set. -/
structure MemberWebApp where
  code : String
  origins : List String
deriving DecidableEq

namespace MemberWebApp

variable (T : UrlText)

/-- The text that is split: `https` is the scheme where none is written. -/
def withScheme (value : String) : List Char :=
  if decide ("://".toList <:+: value.toList) then value.toList else "https://".toList ++ value.toList

/-- `f"{scheme.lower()}://{netloc.lower()}"` -/
def written (key : List Char × List Char) : String :=
  String.ofList (T.lower key.1 ++ ':' :: '/' :: '/' :: T.lower key.2)

def normalizeOrigin (raw : String) : Except UrlError (Option String) :=
  let value := strip raw
  if value = "" then .ok none
  else (Url.urlsplit T (withScheme value)).map fun key =>
    if key.1.isEmpty || key.2.isEmpty then none else some (written T key)

/-- The parts of an app's chunk that are not blank. -/
def chunkParts (chunk : String) : List String :=
  ((splitText '|' (strip chunk)).map strip).filter fun p => p ≠ ""

/-- One turn of the loop over the chunks. -/
def parseChunk (chunk : String) : Except UrlError (Option MemberWebApp) :=
  match chunkParts chunk with
  | code :: origin :: origins =>
    ((origin :: origins).mapM (normalizeOrigin T)).map fun normalized =>
      let origins := (normalized.filterMap id).dedup
      if origins.isEmpty then none else some ⟨code, origins⟩
  | _ => .ok none

def parseMemberWebApps (raw : Option String) : Except UrlError (List MemberWebApp) :=
  match raw with
  | none => .ok []
  | some raw =>
    if strip raw = "" then .ok []
    else ((splitText ',' raw).mapM (parseChunk T)).map fun apps => apps.filterMap id

/-- `_origin_to_code`, pair by pair. -/
def originToCode (apps : List MemberWebApp) : List (String × String) :=
  apps.flatMap fun app => app.origins.map fun origin => (origin, app.code)

/-- One turn of the loop of `resolve_app_code`. -/
def codeOf (apps : List MemberWebApp) (candidate : Option String) :
    Except UrlError (Option String) :=
  match candidate.filter fun text => text ≠ "" with
  | none => .ok none
  | some text => (normalizeOrigin T text).map fun normalized =>
    normalized.bind (lastOf (originToCode apps))

/-- The `Origin` counts before the `Referer`. -/
def resolveAppCode (apps : List MemberWebApp) (origin referer : Option String) :
    Except UrlError (Option String) := do
  match ← codeOf T apps origin with
  | some code => pure (some code)
  | none => codeOf T apps referer

/-! ## 2. What a header names -/

/-- The authority of a header is not one that `urlsplit` takes. -/
def Malformed (header : Option String) : Prop :=
  ∃ text, header = some text ∧ strip text ≠ "" ∧
    Url.checkNetloc T (Url.parts T (withScheme (strip text))).2 ≠ .ok ()

/-- The scheme and the authority that a header names; a malformed one names none. -/
def authorityOf (header : Option String) : Option (List Char × List Char) :=
  header.bind fun text =>
    if strip text = "" then none
    else match Url.urlsplit T (withScheme (strip text)) with
      | .ok key => if key.1 = [] ∨ key.2 = [] then none else some key
      | .error _ => none

/-- The same, without regard to case. -/
def SameOrigin (key key' : List Char × List Char) : Prop :=
  T.lower key.1 = T.lower key'.1 ∧ T.lower key.2 = T.lower key'.2

/-- The configuration gives an app an origin with the scheme and authority that a header names. -/
def Names (raw header : Option String) (code : String) : Prop :=
  ∃ key, authorityOf T header = some key ∧ ∃ chunk ∈ splitText ',' (raw.getD ""), ∃ texts,
    chunkParts chunk = code :: texts ∧
      ∃ text ∈ texts, ∃ key', authorityOf T (some text) = some key' ∧ SameOrigin T key' key

/-- The app of the `Origin`, or else of the `Referer`, or none. -/
def RightApp (raw origin referer answer : Option String) : Prop :=
  (∃ code, Names T raw origin code ∧ answer = some code) ∨
    (¬ ∃ code, Names T raw origin code) ∧
      ((∃ code, Names T raw referer code ∧ answer = some code) ∨
        (¬ ∃ code, Names T raw referer code) ∧ answer = none)

/-- What a header is normalized to stays as it is. -/
def StaysNormal (header : Option String) : Prop :=
  ∀ text normalized, header = some text → normalizeOrigin T text = .ok (some normalized) →
    normalizeOrigin T normalized = .ok (some normalized)

/-- **A request is resolved exactly**: no exception, the right app, and normal forms that last. -/
structure ResolvedExactly (raw : Option String) (apps : List MemberWebApp)
    (origin referer : Option String) : Prop where
  answered : ∃ answer, resolveAppCode T apps origin referer = .ok answer ∧
    RightApp T raw origin referer answer
  originStays : StaysNormal T origin
  refererStays : StaysNormal T referer

/-- The authority that a header names ends in a blank. -/
def EndsInSpace (header : Option String) : Prop :=
  ∃ key, authorityOf T header = some key ∧ key.2.getLast?.any isSpace = true

/-! ## 3. Normal forms -/

section Normal

variable {T} {text : String} {header : Option String} {key key' : List Char × List Char}

theorem malformed_iff : Malformed T (some text) ↔ strip text ≠ "" ∧
    Url.checkNetloc T (Url.parts T (withScheme (strip text))).2 ≠ .ok () := by
  constructor
  · rintro ⟨_, ⟨⟩, h⟩
    exact h
  · exact fun h => ⟨text, rfl, h⟩

theorem normalizeOrigin_error (h : Malformed T (some text)) :
    ∃ e, normalizeOrigin T text = .error e := by
  obtain ⟨hne, hcheck⟩ := malformed_iff.mp h
  unfold normalizeOrigin Url.urlsplit
  rw [if_neg hne]
  cases hc : Url.checkNetloc T (Url.parts T (withScheme (strip text))).2 with
  | ok u => exact absurd hc hcheck
  | error e => exact ⟨e, rfl⟩

theorem authorityOf_malformed (h : Malformed T (some text)) : authorityOf T (some text) = none := by
  obtain ⟨hne, hcheck⟩ := malformed_iff.mp h
  unfold authorityOf Url.urlsplit
  rw [Option.bind_some, if_neg hne]
  cases hc : Url.checkNetloc T (Url.parts T (withScheme (strip text))).2 with
  | ok u => exact absurd hc hcheck
  | error e => rfl

/-- **The normal form is that of the scheme and the authority.** -/
theorem normalizeOrigin_ok (h : ¬ Malformed T (some text)) :
    normalizeOrigin T text = .ok ((authorityOf T (some text)).map (written T)) := by
  unfold normalizeOrigin authorityOf
  by_cases hblank : strip text = ""
  · simp [hblank]
  · have hcheck : Url.checkNetloc T (Url.parts T (withScheme (strip text))).2 = .ok () := by
      by_contra hcheck
      exact h (malformed_iff.mpr ⟨hblank, hcheck⟩)
    simp only [Option.bind_some, if_neg hblank, Url.urlsplit, hcheck, Except.map]
    split
    · rename_i hempty
      rw [if_pos (by simpa using hempty)]
      rfl
    · rename_i hempty
      rw [if_neg (by simpa using hempty)]
      rfl

/-- What is known of a scheme and an authority that were split off. -/
structure SplitOff (T : UrlText) (key : List Char × List Char) : Prop where
  scheme : ∃ s, Url.IsScheme s ∧ key.1 = T.lower s
  clean : Url.Clean key.2
  nonempty : key.2 ≠ []
  accepted : Url.checkNetloc T key.2 = .ok ()

theorem splitOff (h : authorityOf T header = some key) : SplitOff T key := by
  obtain ⟨text, rfl, hkey⟩ := Option.bind_eq_some_iff.mp h
  by_cases hblank : strip text = ""
  · rw [if_pos hblank] at hkey
    cases hkey
  · rw [if_neg hblank] at hkey
    unfold Url.urlsplit at hkey
    cases hcheck : Url.checkNetloc T (Url.parts T (withScheme (strip text))).2 with
    | error e =>
      rw [hcheck] at hkey
      cases hkey
    | ok u =>
      rw [hcheck] at hkey
      simp only [Except.map] at hkey
      split at hkey
      · cases hkey
      · rename_i hne
        obtain rfl := Option.some.inj hkey
        obtain ⟨hscheme, hnetloc⟩ := not_or.mp hne
        exact ⟨Url.parts_scheme.resolve_left hscheme, Url.parts_clean, hnetloc, hcheck⟩

theorem SplitOff.isScheme (h : SplitOff T key) : Url.IsScheme (T.lower key.1) := by
  obtain ⟨s, hs, heq⟩ := h.scheme
  rw [heq, T.lower_lower]
  exact hs.lower

theorem written_eq_iff (h : SplitOff T key) (h' : SplitOff T key') :
    written T key = written T key' ↔ SameOrigin T key key' := by
  constructor
  · intro heq
    have hlist := String.ofList_injective heq
    obtain ⟨hscheme, hrest⟩ := Text.append_cons_inj h.isScheme.noColon h'.isScheme.noColon hlist
    simp only [List.cons.injEq, true_and] at hrest
    exact ⟨hscheme, hrest⟩
  · rintro ⟨hscheme, hnetloc⟩
    rw [written, written, hscheme, hnetloc]

theorem rdropWhile_append_of_last {α : Type} {p : α → Bool} {x : α} (hx : p x = false)
    (xs ys : List α) : (xs ++ x :: ys).rdropWhile p = xs ++ x :: ys.rdropWhile p := by
  induction ys using List.reverseRecOn with
  | nil =>
    have hkept : (xs ++ [x]).rdropWhile p = xs ++ [x] := List.rdropWhile_concat_neg _ _ _ (by simp [hx])
    simpa using hkept
  | append_singleton ys y ih =>
    rw [show xs ++ x :: (ys ++ [y]) = (xs ++ x :: ys) ++ [y] by simp, List.rdropWhile_concat,
      List.rdropWhile_concat]
    split
    · exact ih
    · simp

/-- Nothing is stripped off a normal form but blanks at its end. -/
theorem toList_strip_written (h : SplitOff T key) : (strip (written T key)).toList =
    T.lower key.1 ++ ':' :: '/' :: '/' :: (T.lower key.2).rdropWhile isSpace := by
  have hstart : (T.lower key.1 ++ ':' :: '/' :: '/' :: T.lower key.2).dropWhile isSpace =
      T.lower key.1 ++ ':' :: '/' :: '/' :: T.lower key.2 := by
    have hletter := h.isScheme.letter
    cases hs : T.lower key.1 with
    | nil =>
      rw [hs] at hletter
      cases hletter
    | cons c s =>
      rw [hs] at hletter
      have hc := Url.isAlpha_iff.mp hletter
      refine List.dropWhile_cons_of_neg ?_
      rw [isSpace_letter (by omega) (by omega)]
      exact Bool.false_ne_true
  rw [toList_strip, written, String.toList_ofList, hstart]
  have hslash : isSpace '/' = false := by decide
  have hend := rdropWhile_append_of_last hslash (T.lower key.1 ++ [':', '/']) (T.lower key.2)
  simpa using hend

/-- A text that says what a normal form says, up to blanks at its end, is split as one. -/
theorem normalizeOrigin_of_strip {s n : List Char} (hs : Url.IsScheme s) (hn : Url.Clean n)
    (hstrip : (strip text).toList = s ++ ':' :: '/' :: '/' :: n) :
    normalizeOrigin T text = (Url.checkNetloc T n).map fun _ =>
      if n = [] then none else some (written T (T.lower s, n)) := by
  have hne : strip text ≠ "" := by
    intro hblank
    rw [hblank] at hstrip
    cases s with
    | nil => exact hs.ne_nil rfl
    | cons c s => cases hstrip
  have hscheme : withScheme (strip text) = s ++ ':' :: '/' :: '/' :: n := by
    have hinfix : "://".toList <:+: (strip text).toList := ⟨s, n, by rw [hstrip]; simp⟩
    rw [withScheme, if_pos (decide_eq_true hinfix), hstrip]
  unfold normalizeOrigin Url.urlsplit
  rw [if_neg hne, hscheme, Url.parts_written hs hn]
  cases Url.checkNetloc T n with
  | error e => rfl
  | ok u =>
    have hlower : T.lower s ≠ [] := hs.lower.ne_nil
    simp [Except.map, hlower]

end Normal

/-- `str.lower` leaves blanks at the end of a text alone, and brings none there. -/
structure HeaderText extends UrlText where
  lower_ends : ∀ s, (lower s).getLast?.any isSpace = s.getLast?.any isSpace

section Stable

variable {T : HeaderText} {header : Option String} {key : List Char × List Char}

theorem rdropWhile_eq_self_iff_last {l : List Char} :
    l.rdropWhile isSpace = l ↔ l.getLast?.any isSpace = false := by
  cases hlast : l.getLast? with
  | none => simp [List.getLast?_eq_none_iff.mp hlast]
  | some c =>
    obtain ⟨l, rfl⟩ := List.getLast?_eq_some_iff.mp hlast
    show _ ↔ isSpace c = false
    rw [List.rdropWhile_concat]
    cases hc : isSpace c with
    | false => simp
    | true =>
      refine ⟨fun heq => ?_, nofun⟩
      have hlength := (List.rdropWhile_prefix isSpace l).length_le
      have := congrArg List.length heq
      simp at this
      omega

/-- **A normal form lasts unless the authority ends in a blank.** -/
theorem written_stays_iff (h : SplitOff T.toUrlText key) :
    normalizeOrigin T.toUrlText (written T.toUrlText key) =
      .ok (some (written T.toUrlText key)) ↔ key.2.getLast?.any isSpace = false := by
  have hclean : Url.Clean ((T.lower key.2).rdropWhile isSpace) := fun c hc =>
    h.clean.lower c ((List.rdropWhile_prefix isSpace _).subset hc)
  rw [normalizeOrigin_of_strip h.isScheme hclean (toList_strip_written h), ← T.lower_ends,
    ← rdropWhile_eq_self_iff_last]
  generalize hstripped : (T.lower key.2).rdropWhile isSpace = n
  constructor
  · intro hsame
    cases hcheck : Url.checkNetloc T.toUrlText n with
    | error e =>
      rw [hcheck] at hsame
      cases hsame
    | ok u =>
      rw [hcheck] at hsame
      simp only [Except.map, Except.ok.injEq] at hsame
      by_cases hempty : n = []
      · rw [if_pos hempty] at hsame
        cases hsame
      · rw [if_neg hempty] at hsame
        have hlist := String.ofList_injective (Option.some.inj hsame)
        simp only [T.lower_lower, List.append_cancel_left_eq, List.cons.injEq, true_and] at hlist
        -- the end of what was stripped is no blank, in either case
        have hend : n.getLast?.any isSpace = false := by
          rw [← rdropWhile_eq_self_iff_last, ← hstripped, List.rdropWhile_idempotent]
        rw [← T.lower_ends, hlist, ← rdropWhile_eq_self_iff_last] at hend
        exact hstripped.symm.trans hend
  · intro hn
    have hne : T.lower key.2 ≠ [] := T.lower_ne_nil _ h.nonempty
    rw [hn, Url.checkNetloc_lower h.accepted]
    simp only [Except.map, if_neg hne]
    simp only [written, T.lower_lower]

end Stable

/-! ## 4. The registry -/

section Registry

variable {T : UrlText} {apps : List MemberWebApp} {raw : Option String} {code : String}
  {header : Option String} {key : List Char × List Char}

theorem normalizeOrigin_eq_some_iff {text normalized : String} :
    normalizeOrigin T text = .ok (some normalized) ↔
      ∃ key, authorityOf T (some text) = some key ∧ written T key = normalized := by
  by_cases hbad : Malformed T (some text)
  · obtain ⟨e, he⟩ := normalizeOrigin_error hbad
    rw [he, authorityOf_malformed hbad]
    exact ⟨nofun, nofun⟩
  · rw [normalizeOrigin_ok hbad, Except.ok.injEq, Option.map_eq_some_iff]

/-- The app of a chunk has the code and the normal forms that the chunk gives. -/
theorem parseChunk_spec {chunk origin : String} {result : Option MemberWebApp}
    (h : parseChunk T chunk = .ok result) :
    (∃ app, result = some app ∧ app.code = code ∧ origin ∈ app.origins) ↔
      ∃ texts, chunkParts chunk = code :: texts ∧
        ∃ text ∈ texts, normalizeOrigin T text = .ok (some origin) := by
  unfold parseChunk at h
  split at h
  · rename_i first second rest hparts
    cases hnormalized : (second :: rest).mapM (normalizeOrigin T) with
    | error e =>
      rw [hnormalized] at h
      cases h
    | ok normalized =>
      rw [hnormalized] at h
      have heach := mapM_eq_ok_iff.mp hnormalized
      have hmem : origin ∈ (normalized.filterMap id).dedup ↔
          ∃ text ∈ second :: rest, normalizeOrigin T text = .ok (some origin) := by
        rw [List.mem_dedup, List.mem_filterMap]
        constructor
        · rintro ⟨_, horigin, rfl⟩
          exact exists_related_left heach horigin
        · rintro ⟨text, htext, horigin⟩
          obtain ⟨result, hresult, hsame⟩ := exists_related_right heach htext
          rw [horigin] at hsame
          cases hsame
          exact ⟨_, hresult, rfl⟩
      simp only [Except.map, Except.ok.injEq] at h
      rw [hparts]
      subst h
      constructor
      · rintro ⟨app, happ, rfl, horigin⟩
        split at happ
        · cases happ
        · cases happ
          exact ⟨_, rfl, hmem.mp horigin⟩
      · rintro ⟨texts, ⟨⟩, horigin⟩
        have horigin := hmem.mpr horigin
        rw [if_neg (by simpa using List.ne_nil_of_mem horigin)]
        exact ⟨_, rfl, rfl, horigin⟩
  · rename_i hshort
    cases h
    refine ⟨nofun, ?_⟩
    rintro ⟨texts, hparts, text, htext, -⟩
    cases texts with
    | nil => cases htext
    | cons second rest => exact (hshort _ _ _ hparts).elim

theorem blank_noComma {text : String} (h : strip text = "") : ',' ∉ text.toList := by
  have hnil : (text.toList.dropWhile isSpace).rdropWhile isSpace = [] := by
    rw [← toList_strip, h]
    rfl
  have hall : ∀ c ∈ text.toList, isSpace c = true := by
    rw [← List.dropWhile_eq_nil_iff]
    by_contra hne
    have hhead := List.dropWhile_get_zero_not isSpace text.toList (List.length_pos_iff.mpr hne)
    exact hhead (List.rdropWhile_eq_nil_iff.mp hnil _ (List.get_mem _ _))
  intro hcomma
  exact absurd (hall ',' hcomma) (by decide)

/-- **The apps have the codes and the normal forms that the configuration gives.** -/
theorem parseMemberWebApps_spec (h : parseMemberWebApps T raw = .ok apps) {origin : String} :
    (∃ app ∈ apps, app.code = code ∧ origin ∈ app.origins) ↔
      ∃ chunk ∈ splitText ',' (raw.getD ""), ∃ texts, chunkParts chunk = code :: texts ∧
        ∃ text ∈ texts, normalizeOrigin T text = .ok (some origin) := by
  have hnone : ∀ text, strip text = "" → ¬ ∃ chunk ∈ splitText ',' text, ∃ texts,
      chunkParts chunk = code :: texts := by
    rintro text hblank ⟨chunk, hchunk, texts, hparts⟩
    rw [splitText, List.splitOn_eq_singleton (blank_noComma hblank)] at hchunk
    obtain rfl : chunk = text := by simpa using hchunk
    have hempty : ((splitText '|' "").map strip).filter (fun p => p ≠ "") = [] := by decide
    rw [chunkParts, hblank, hempty] at hparts
    cases hparts
  have hleft : apps = [] → ¬ ∃ app ∈ apps, app.code = code ∧ origin ∈ app.origins := by
    rintro rfl ⟨app, happ, -⟩
    cases happ
  cases raw with
  | none =>
    cases h
    refine iff_of_false (hleft rfl) ?_
    rintro ⟨chunk, hchunk, texts, hparts, -⟩
    exact hnone "" (by decide) ⟨chunk, hchunk, texts, hparts⟩
  | some raw =>
    simp only [parseMemberWebApps] at h
    split at h
    · rename_i hblank
      cases h
      refine iff_of_false (hleft rfl) ?_
      rintro ⟨chunk, hchunk, texts, hparts, -⟩
      exact hnone raw hblank ⟨chunk, hchunk, texts, hparts⟩
    · cases hresults : (splitText ',' raw).mapM (parseChunk T) with
      | error e =>
        rw [hresults] at h
        cases h
      | ok results =>
        rw [hresults] at h
        cases h
        have heach := mapM_eq_ok_iff.mp hresults
        constructor
        · rintro ⟨app, happ, hcode, horigin⟩
          obtain ⟨result, hresult, hsome⟩ := List.mem_filterMap.mp happ
          obtain ⟨chunk, hchunk, hparse⟩ := exists_related_left heach hresult
          exact ⟨chunk, hchunk, (parseChunk_spec hparse).mp ⟨app, hsome, hcode, horigin⟩⟩
        · rintro ⟨chunk, hchunk, hgives⟩
          obtain ⟨result, hresult, hparse⟩ := exists_related_right heach hchunk
          obtain ⟨app, rfl, hcode, horigin⟩ := (parseChunk_spec hparse).mpr hgives
          exact ⟨app, List.mem_filterMap.mpr ⟨_, hresult, rfl⟩, hcode, horigin⟩

/-- No origin is one of two apps. -/
def OriginsDisjoint (apps : List MemberWebApp) : Prop :=
  apps.Pairwise fun app app' => ∀ origin ∈ app.origins, origin ∉ app'.origins

/-- **With disjoint origins, the table has the one app of an origin.** -/
theorem lastOf_originToCode (h : OriginsDisjoint apps) {origin : String} :
    lastOf (originToCode apps) origin = some code ↔
      ∃ app ∈ apps, app.code = code ∧ origin ∈ app.origins := by
  have hmem : ∀ code, (origin, code) ∈ originToCode apps ↔
      ∃ app ∈ apps, app.code = code ∧ origin ∈ app.origins := by
    intro code
    simp only [originToCode, List.mem_flatMap, List.mem_map, Prod.mk.injEq]
    constructor
    · rintro ⟨app, happ, o, ho, rfl, rfl⟩
      exact ⟨app, happ, rfl, ho⟩
    · rintro ⟨app, happ, rfl, ho⟩
      exact ⟨app, happ, origin, ho, rfl, rfl⟩
  constructor
  · exact fun hlast => (hmem code).mp (lastOf_mem hlast)
  · intro hgiven
    obtain ⟨code', hlast⟩ := Option.isSome_iff_exists.mp (lastOf_isSome ((hmem code).mpr hgiven))
    obtain ⟨app, happ, rfl, ho⟩ := hgiven
    obtain ⟨app', happ', rfl, ho'⟩ := (hmem code').mp (lastOf_mem hlast)
    by_cases hsame : app = app'
    · rw [hlast, hsame]
    · have : Std.Symm fun a b : MemberWebApp => ∀ o ∈ a.origins, o ∉ b.origins :=
        ⟨fun a b hab o hb ha => hab o ha hb⟩
      exact absurd ho' (List.Pairwise.forall h happ happ' hsame origin ho)

/-- What the configuration names is what the table has under the normal form. -/
theorem names_iff (hparse : parseMemberWebApps T raw = .ok apps) (h : OriginsDisjoint apps) :
    Names T raw header code ↔ ∃ key, authorityOf T header = some key ∧
      lastOf (originToCode apps) (written T key) = some code := by
  simp only [lastOf_originToCode h, parseMemberWebApps_spec hparse, normalizeOrigin_eq_some_iff]
  constructor
  · rintro ⟨key, hkey, chunk, hchunk, texts, hparts, text, htext, key', hkey', hsame⟩
    exact ⟨key, hkey, chunk, hchunk, texts, hparts, text, htext, key', hkey',
      (written_eq_iff (splitOff hkey') (splitOff hkey)).mpr hsame⟩
  · rintro ⟨key, hkey, chunk, hchunk, texts, hparts, text, htext, key', hkey', hsame⟩
    exact ⟨key, hkey, chunk, hchunk, texts, hparts, text, htext, key', hkey',
      (written_eq_iff (splitOff hkey') (splitOff hkey)).mp hsame⟩

theorem codeOf_error (apps : List MemberWebApp) (h : Malformed T header) :
    ∃ e, codeOf T apps header = .error e := by
  obtain ⟨text, rfl, hne, hcheck⟩ := h
  obtain ⟨e, he⟩ := normalizeOrigin_error (malformed_iff.mpr ⟨hne, hcheck⟩)
  have htext : text ≠ "" := by
    rintro rfl
    exact hne (by decide)
  refine ⟨e, ?_⟩
  simp [codeOf, Option.filter, htext, he, Except.map]

theorem codeOf_ok (hparse : parseMemberWebApps T raw = .ok apps) (h : OriginsDisjoint apps)
    (hgood : ¬ Malformed T header) :
    ∃ answer, codeOf T apps header = .ok answer ∧
      ∀ code, answer = some code ↔ Names T raw header code := by
  simp only [names_iff hparse h]
  cases header with
  | none => exact ⟨none, rfl, fun code => ⟨nofun, nofun⟩⟩
  | some text =>
    by_cases htext : text = ""
    · subst htext
      exact ⟨none, rfl, fun code => ⟨nofun, nofun⟩⟩
    · refine ⟨_, by simp [codeOf, Option.filter, htext, normalizeOrigin_ok hgood, Except.map]; rfl,
        fun code => ?_⟩
      simp [Option.bind_eq_some_iff]

theorem names_unique (hparse : parseMemberWebApps T raw = .ok apps) (h : OriginsDisjoint apps)
    {code' : String} (hn : Names T raw header code) (hn' : Names T raw header code') :
    code = code' := by
  obtain ⟨key, hkey, hlast⟩ := (names_iff hparse h).mp hn
  obtain ⟨key', hkey', hlast'⟩ := (names_iff hparse h).mp hn'
  rw [hkey] at hkey'
  cases hkey'
  rw [hlast] at hlast'
  exact Option.some.inj hlast'

/-- There is one right answer. -/
theorem RightApp.unique (hparse : parseMemberWebApps T raw = .ok apps) (h : OriginsDisjoint apps)
    {origin referer answer answer' : Option String} (hr : RightApp T raw origin referer answer)
    (hr' : RightApp T raw origin referer answer') : answer = answer' := by
  rcases hr with ⟨code, hcode, rfl⟩ | ⟨hnone, ⟨code, hcode, rfl⟩ | ⟨hnone', rfl⟩⟩ <;>
    rcases hr' with ⟨code', hcode', rfl⟩ | ⟨hfirst, ⟨code', hcode', rfl⟩ | ⟨hnone'', rfl⟩⟩
  · rw [names_unique hparse h hcode hcode']
  · exact absurd ⟨code, hcode⟩ hfirst
  · exact absurd ⟨code, hcode⟩ hfirst
  · exact absurd ⟨code', hcode'⟩ hnone
  · rw [names_unique hparse h hcode hcode']
  · exact absurd ⟨code, hcode⟩ hnone''
  · exact absurd ⟨code', hcode'⟩ hnone
  · exact absurd ⟨code', hcode'⟩ hnone'
  · rfl

/-- **The request is answered, with the right app**, as long as no header that is looked up is
malformed. -/
theorem answered_iff (hparse : parseMemberWebApps T raw = .ok apps) (h : OriginsDisjoint apps)
    (origin referer : Option String) :
    (∃ answer, resolveAppCode T apps origin referer = .ok answer ∧
      RightApp T raw origin referer answer) ↔
    ¬ Malformed T origin ∧ ((∃ code, Names T raw origin code) ∨ ¬ Malformed T referer) := by
  unfold resolveAppCode
  by_cases horigin : Malformed T origin
  · obtain ⟨e, he⟩ := codeOf_error apps horigin
    rw [he]
    refine iff_of_false ?_ fun hboth => hboth.1 horigin
    rintro ⟨answer, ⟨⟩, -⟩
  · obtain ⟨first, hfirst, hnames⟩ := codeOf_ok hparse h horigin
    rw [hfirst]
    cases first with
    | some code =>
      have hcode : Names T raw origin code := (hnames code).mp rfl
      exact iff_of_true ⟨some code, rfl, .inl ⟨code, hcode, rfl⟩⟩ ⟨horigin, .inl ⟨code, hcode⟩⟩
    | none =>
      have hnone : ¬ ∃ code, Names T raw origin code := by
        rintro ⟨code, hcode⟩
        cases (hnames code).mpr hcode
      show (∃ answer, codeOf T apps referer = .ok answer ∧ _) ↔ _
      by_cases hreferer : Malformed T referer
      · obtain ⟨e, he⟩ := codeOf_error apps hreferer
        rw [he]
        refine iff_of_false ?_ fun hboth => hboth.2.elim hnone fun hgood => hgood hreferer
        rintro ⟨answer, ⟨⟩, -⟩
      · obtain ⟨second, hsecond, hnames'⟩ := codeOf_ok hparse h hreferer
        refine iff_of_true ⟨second, hsecond, .inr ⟨hnone, ?_⟩⟩ ⟨horigin, .inr hreferer⟩
        cases second with
        | some code => exact .inl ⟨code, (hnames' code).mp rfl, rfl⟩
        | none =>
          refine .inr ⟨?_, rfl⟩
          rintro ⟨code, hcode⟩
          cases (hnames' code).mpr hcode

end Registry

/-! ## 5. Exactness -/

section Exact

variable {T : HeaderText} {raw : Option String} {apps : List MemberWebApp}

theorem staysNormal_iff {header : Option String} :
    StaysNormal T.toUrlText header ↔ ¬ EndsInSpace T.toUrlText header := by
  constructor
  · rintro h ⟨key, hkey, hspace⟩
    obtain ⟨text, rfl, -⟩ := Option.bind_eq_some_iff.mp hkey
    have hstays := h text _ rfl (normalizeOrigin_eq_some_iff.mpr ⟨key, hkey, rfl⟩)
    rw [(written_stays_iff (splitOff hkey)).mp hstays] at hspace
    cases hspace
  · rintro h text normalized rfl hnormalized
    obtain ⟨key, hkey, rfl⟩ := normalizeOrigin_eq_some_iff.mp hnormalized
    refine (written_stays_iff (splitOff hkey)).mpr (Bool.eq_false_iff.mpr fun hspace => ?_)
    exact h ⟨key, hkey, hspace⟩

/-- **A request is resolved exactly** if and only if no authority that is looked up is malformed,
and none that is named ends in a blank. -/
theorem resolvedExactly_iff (hparse : parseMemberWebApps T.toUrlText raw = .ok apps)
    (hdisjoint : OriginsDisjoint apps) (origin referer : Option String) :
    ResolvedExactly T.toUrlText raw apps origin referer ↔
      ¬ Malformed T.toUrlText origin ∧
        ((∃ code, Names T.toUrlText raw origin code) ∨ ¬ Malformed T.toUrlText referer) ∧
        ¬ EndsInSpace T.toUrlText origin ∧ ¬ EndsInSpace T.toUrlText referer := by
  have hanswered := answered_iff hparse hdisjoint origin referer
  constructor
  · rintro ⟨h, horigin, hreferer⟩
    obtain ⟨hgood, hlooked⟩ := hanswered.mp h
    exact ⟨hgood, hlooked, staysNormal_iff.mp horigin, staysNormal_iff.mp hreferer⟩
  · rintro ⟨hgood, hlooked, horigin, hreferer⟩
    exact ⟨hanswered.mpr ⟨hgood, hlooked⟩, staysNormal_iff.mpr horigin,
      staysNormal_iff.mpr hreferer⟩

end Exact

/-! ### 5.1 With ASCII text -/

theorem toLower_mem_iff {c : Char} (hc : c ∈ ['\t', '\n', '\r', '/', '?', '#', '[', ']'])
    (s : List Char) : c ∈ s.map Char.toLower ↔ c ∈ s := by
  have hbound : c.toLower = c ∧ c.toNat < 97 := by
    simp only [List.mem_cons, List.not_mem_nil, or_false] at hc
    rcases hc with rfl | rfl | rfl | rfl | rfl | rfl | rfl | rfl <;> decide
  rw [List.mem_map]
  constructor
  · rintro ⟨d, hd, rfl⟩
    rcases Url.toLower_cases d with heq | ⟨hupper, hlower⟩
    · exact heq.symm ▸ hd
    · omega
  · exact fun hmem => ⟨c, hmem, hbound.1⟩

/-- Text in ASCII; no authority has brackets that belong there. -/
def asciiText : HeaderText where
  lower s := s.map Char.toLower
  bracketsOk _ := false
  nfkcOk _ := true
  lower_lower s := by
    rw [List.map_map]
    exact List.map_congr_left fun c _ => toLower_toLower c
  lower_ne_nil s hs h := hs (List.map_eq_nil_iff.mp h)
  lower_ascii _ _ := rfl
  mem_lower_iff s _ hc := toLower_mem_iff hc s
  bracketsOk_lower _ h := h
  nfkcOk_lower _ h := h
  lower_ends s := by
    rw [List.getLast?_map, Option.any_map]
    exact congrArg (fun p => s.getLast?.any p) (funext isSpace_toLower)

/-- Two apps, the second with two origins. -/
def twoApps : String :=
  "facility-booking|http://localhost:5174,member-portal|http://localhost:5175|https://my.newlife.org"

def bookingApp : MemberWebApp := ⟨"facility-booking", ["http://localhost:5174"]⟩

def memberPortal : MemberWebApp :=
  ⟨"member-portal", ["http://localhost:5175", "https://my.newlife.org"]⟩

theorem parse_twoApps : parseMemberWebApps asciiText.toUrlText (some twoApps) =
    .ok [bookingApp, memberPortal] := by
  decide +kernel

theorem twoApps_disjoint : OriginsDisjoint [bookingApp, memberPortal] :=
  List.pairwise_pair.mpr (by decide)

/-- The `Origin` names the second app, in capitals, and the `Referer` the first: the `Origin`
counts. -/
theorem resolvedExactly_iff_memberPortal : ResolvedExactly asciiText.toUrlText (some twoApps)
    [bookingApp, memberPortal] (some "HTTP://LOCALHOST:5175") (some "http://localhost:5174/book") := by
  have horigin : authorityOf asciiText.toUrlText (some "HTTP://LOCALHOST:5175") =
      some ("http".toList, "LOCALHOST:5175".toList) := by decide +kernel
  have hreferer : authorityOf asciiText.toUrlText (some "http://localhost:5174/book") =
      some ("http".toList, "localhost:5174".toList) := by decide +kernel
  refine (resolvedExactly_iff parse_twoApps twoApps_disjoint _ _).mpr ⟨?_, .inr ?_, ?_, ?_⟩
  · rintro ⟨text, htext, -, hcheck⟩
    cases htext
    exact hcheck (by decide +kernel)
  · rintro ⟨text, htext, -, hcheck⟩
    cases htext
    exact hcheck (by decide +kernel)
  · rintro ⟨key, hkey, hspace⟩
    rw [horigin] at hkey
    cases hkey
    revert hspace
    decide
  · rintro ⟨key, hkey, hspace⟩
    rw [hreferer] at hkey
    cases hkey
    revert hspace
    decide

/-- **`Origin: http://[` is an exception.** -/
theorem not_resolvedExactly : ∃ raw apps, parseMemberWebApps asciiText.toUrlText raw = .ok apps ∧
    OriginsDisjoint apps ∧
      ¬ ResolvedExactly asciiText.toUrlText raw apps (some "http://[") none := by
  refine ⟨some twoApps, [bookingApp, memberPortal], parse_twoApps, twoApps_disjoint, ?_⟩
  rintro ⟨⟨answer, hanswer, -⟩, -, -⟩
  have herror : resolveAppCode asciiText.toUrlText [bookingApp, memberPortal] (some "http://[") none =
      .error .invalidIpv6Url := by decide +kernel
  rw [herror] at hanswer
  cases hanswer

end MemberWebApp

end NewlifeCore.Auth
