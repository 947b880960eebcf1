import Mathlib.Data.List.Infix
import Mathlib.Logic.Function.Basic
import NewlifeCore.Json
import NewlifeCore.System.LocaleCache
import NewlifeCore.Txn.ReadThrough

/-!
# Which snapshots are returned

Reads, fills and clears of the locale snapshot side by side, command by command, while the table
changes.  A snapshot is whole when one fill wrote what a read takes of it; a fill that writes beside
the hashes of another, or under a read that has taken some of them, mixes two tables.

* §1 says where a call can be.  A fill is to write some of its hashes (`FillAt`), a read has got
  some and is to read the others (`reading`), and every other request is `Harmless`: its commands
  bring no hash.
* §2 leaves the scripts behind.  A snapshot is what all the hashes say (`assemble_some`), so that a
  read has a `prospect`: what it has got, and for the rest what is stored now.  Hashes that go, by a
  clear or in the course of time, leave nothing to come of it that was not there before
  (`prospect_shrink`), a hash it reads is the one that it expected (`prospect_read`), and an `HSET`
  changes one hash of it (`prospect_laid`).
* §3 is the invariant, `LocaleInv`: what is stored, and the prospect of every read under way, come
  to a snapshot of the table at some point of the run, or to none.  Only an `HSET` can break it, and
  `FillsApart` asks of each just that it does not: that the hash completes, beside what is stored
  and beside what a read has still to read, no snapshot but its own.  `LocaleInv.step` is one step.
* §4: what a read returns is its prospect at the end, hence `snapshotsWhole_apart`.
* §5 has a run whose fills stay apart, and one in which a read goes across two fills.
-/

namespace NewlifeCore

open Txn LocaleCache

variable (py : PyText) (codec : SnapshotCodec)

/-! ## 1. Where a call can be -/

/-- A fill that is to write some of the hashes. -/
def filling (S : LocaleSnapshot) : List SnapshotHash → LocaleScript LocaleAnswer
  | [] => .ret (.snapshot S.result)
  | h :: hs => (writeHash codec S h).bind fun _ => filling S hs

/-- The fill of a snapshot, from its DELETE on. -/
def fill (S : LocaleSnapshot) : LocaleScript LocaleAnswer :=
  clear.bind fun _ => (writeActive S).bind fun _ => filling codec S [.metadata, .norm, .normId]

/-- What the replies lead to. -/
def answered : Option LocaleSnapshotResult → LocaleScript LocaleAnswer
  | some r => .ret (.snapshot r)
  | none => .read (fun db _ => db.listAll) fun locales => fill codec (buildSnapshot py locales)

/-- A read that has got some of the hashes and is to read the others. -/
def reading (activeRaw : List String) (got : Hashes) : List SnapshotHash →
    LocaleScript LocaleAnswer
  | [] => answered py codec (assemble codec activeRaw got)
  | h :: hs => .command (fun s t => (s, s.hgetall t h.key)) fun reply =>
      reading activeRaw (Function.update got h reply) hs

theorem populate_eq (S : LocaleSnapshot) :
    ((populate codec S).bind fun _ => .ret (.snapshot S.result)) = fill codec S := by
  simp only [populate, fill, filling, Script.bind_eq, Script.bind_bind]

theorem getLocaleSnapshot_eq : LocaleCall.body py codec .getLocaleSnapshot =
    .command (fun s t => (s, s.smembers t .active)) fun activeRaw =>
      reading py codec activeRaw (fun _ => none) [.metadata, .norm, .normId] := by
  refine congrArg (Script.command _) (funext fun activeRaw => ?_)
  refine congrArg (Script.command _) (funext fun metaRaw => ?_)
  refine congrArg (Script.command _) (funext fun normRaw => ?_)
  refine congrArg (Script.command _) (funext fun normIdRaw => ?_)
  have hgot : replies metaRaw normRaw normIdRaw =
      Function.update (Function.update (Function.update (fun _ => none) .metadata metaRaw) .norm
        normRaw) .normId normIdRaw := by
    funext h
    cases h <;> rfl
  show Script.bind (Script.bind (.ret (assemble codec activeRaw _)) _) _ =
    answered py codec (assemble codec activeRaw _)
  rw [← hgot]
  cases assemble codec activeRaw _ with
  | some r => rfl
  | none =>
    refine congrArg (Script.read _) (funext fun locales => ?_)
    rw [← populate_eq]
    exact Script.bind_bind _ _ (populate codec (buildSnapshot py locales))

variable {py codec}

theorem writeHash_some {S : LocaleSnapshot} {h : SnapshotHash} {fields : Fields}
    (hw : written codec S h = some fields) : writeHash codec S h =
      (Script.tell fun s t => s.hset t h.key fields).bind fun _ =>
        Script.tell fun s t => s.expire t h.key week := by
  unfold writeHash
  rw [hw]
  rfl

theorem filling_write {S : LocaleSnapshot} {h : SnapshotHash} {fields : Fields}
    (hw : written codec S h = some fields) (hs : List SnapshotHash) : filling codec S (h :: hs) =
      .command (fun s t => (s.hset t h.key fields, ())) fun _ =>
        .command (fun s t => (s.expire t h.key week, ())) fun _ => filling codec S hs := by
  show (writeHash codec S h).bind _ = _
  rw [writeHash_some hw]
  rfl

theorem filling_skip {S : LocaleSnapshot} {h : SnapshotHash} (hw : written codec S h = none)
    (hs : List SnapshotHash) : filling codec S (h :: hs) = filling codec S hs := by
  show (writeHash codec S h).bind _ = _
  unfold writeHash
  rw [hw]
  rfl

variable (codec)

/-- A fill of a snapshot: what is next brings no hash, or writes one of its own. -/
inductive FillAt (S : LocaleSnapshot) : LocaleScript LocaleAnswer → Prop
  | done : FillAt S (.ret (.snapshot S.result))
  | quiet {β : Type} {c : HashStore LocaleKey → Int → HashStore LocaleKey × β}
      {k : β → LocaleScript LocaleAnswer} (hc : HashStore.Quiet fun s t => (c s t).1)
      (hk : ∀ reply, FillAt S (k reply)) : FillAt S (.command c k)
  | write {h : SnapshotHash} {hs : List SnapshotHash} {fields : Fields}
      (hw : written codec S h = some fields) : FillAt S (filling codec S (h :: hs))

variable {codec}

theorem FillAt.of_filling {S : LocaleSnapshot} : ∀ hs, FillAt codec S (filling codec S hs)
  | [] => .done
  | h :: hs => by
    cases hw : written codec S h with
    | none =>
      rw [filling_skip hw]
      exact FillAt.of_filling hs
    | some fields => exact .write hw

theorem FillAt.of_fill {S : LocaleSnapshot} : FillAt codec S (fill codec S) := by
  refine .quiet .read fun languageKeys => .quiet (.delete _) fun _ => ?_
  show FillAt codec S ((writeActive S).bind _)
  unfold writeActive
  split
  · exact .of_filling _
  · exact .quiet (.sadd _ _) fun _ => .quiet (.expire _ _) fun _ => .of_filling _

/-- A request that brings no hash and returns no snapshot. -/
def Harmless : LocaleScript LocaleAnswer → Prop
  | .ret answer => ∀ r, answer ≠ .snapshot r
  | .raise _ => True
  | .read _ k => ∀ b, Harmless (k b)
  | .clock k => ∀ t, Harmless (k t)
  | .write _ k => ∀ n, Harmless (k n)
  | .command c k => HashStore.Quiet (fun s t => (c s t).1) ∧ ∀ reply, Harmless (k reply)
  | .commit _ => False

/-- The calls but `get_locale_snapshot` are harmless. -/
theorem harmless_body {call : LocaleCall} (h : call ≠ .getLocaleSnapshot) :
    Harmless (call.body py codec) := by
  cases call with
  | getLocaleSnapshot => exact absurd rfl h
  | clearLocaleCache => exact ⟨.read, fun _ => ⟨.delete _, fun _ r hr => by cases hr⟩⟩
  | edit change => exact fun _ r hr => by cases hr

/-! ## 2. What a read comes to -/

/-- What is found of the hashes at a time. -/
def stored (s : HashStore LocaleKey) (t : Int) : Hashes := fun h => s.hgetall t h.key

/-- The hashes of a read that has got some and will find the rest as they are. -/
def prospect (found got : Hashes) (rest : List SnapshotHash) : Hashes :=
  fun h => if h ∈ rest then found h else got h

/-- The hashes after an `HSET`. -/
def laid (found : Hashes) (h : SnapshotHash) (fields : Fields) : Hashes :=
  Function.update found h (some (((found h).map fields.over).getD fields))

/-- What these hashes come to, if to anything, is a snapshot of those in `P`. -/
def Unmixed (codec : SnapshotCodec) (P : LocaleSnapshot → Prop) (found : Hashes) : Prop :=
  ∀ activeRaw r, assemble codec activeRaw found = some r → ∃ S, P S ∧ r = S.result

/-- Nothing is found that was not found before. -/
def Shrinks (found found' : Hashes) : Prop :=
  ∀ h fields, found' h = some fields → found h = some fields

/-- **A snapshot is what all the hashes say.** -/
theorem assemble_some {activeRaw : List String} {found : Hashes} {r : LocaleSnapshotResult}
    (h : assemble codec activeRaw found = some r) : ∃ defaultLocale normalizedMap normalizedIdMap,
      metaField found "default_locale" = some defaultLocale ∧ found .norm = some normalizedMap ∧
        found .normId = some normalizedIdMap ∧
        r = ⟨readActiveLocales codec activeRaw found, some defaultLocale, normalizedMap,
          normalizedIdMap, readLanguageBuckets codec found⟩ := by
  unfold assemble at h
  split at h
  · rename_i defaultLocale normalizedMap normalizedIdMap hdefault hnorm hnormId
    split at h
    · cases h
    · exact ⟨_, _, _, hdefault, hnorm, hnormId, (Option.some.inj h).symm⟩
  · cases h

theorem found_of_assemble {activeRaw : List String} {found : Hashes} {r : LocaleSnapshotResult}
    (h : assemble codec activeRaw found = some r) (q : SnapshotHash) :
    ∃ fields, found q = some fields := by
  obtain ⟨defaultLocale, normalizedMap, normalizedIdMap, hdefault, hnorm, hnormId, -⟩ :=
    assemble_some h
  cases q with
  | metadata =>
    obtain ⟨fields, hfields, -⟩ :=
      Option.bind_eq_some_iff.mp (Option.filter_eq_some_iff.mp hdefault).1
    exact ⟨fields, hfields⟩
  | norm => exact ⟨_, hnorm⟩
  | normId => exact ⟨_, hnormId⟩

theorem truthy_getD {text : Option String} {value : String}
    (h : truthy (some (text.getD "")) = some value) : text = some value := by
  obtain ⟨heq, hne⟩ := Option.filter_eq_some_iff.mp h
  obtain rfl := Option.some.inj heq
  cases text with
  | none => exact absurd hne (by simp)
  | some value => rfl

/-- **The hashes of a fill come to its snapshot.** -/
theorem assemble_written {activeRaw : List String} {S : LocaleSnapshot} {r : LocaleSnapshotResult}
    (h : assemble codec activeRaw (written codec S) = some r) : r = S.result := by
  have hlocales : metaField (written codec S) "active_locales_json" =
      some (codec.dumpLocales S.activeLocales) := truthy_some (codec.dumpLocales_ne _)
  have hbuckets : metaField (written codec S) "language_buckets_json" =
      some (codec.dumpBuckets S.languageBuckets) := truthy_some (codec.dumpBuckets_ne _)
  obtain ⟨defaultLocale, normalizedMap, normalizedIdMap, hdefault, hnorm, hnormId, rfl⟩ :=
    assemble_some h
  have hdefault : S.defaultLocale = some defaultLocale := truthy_getD hdefault
  have hnorm : some S.result.normalizedMap = some normalizedMap :=
    (Option.ite_none_left_eq_some.mp hnorm).2
  have hnormId : some S.result.normalizedIdMap = some normalizedIdMap :=
    (Option.ite_none_left_eq_some.mp hnormId).2
  unfold readActiveLocales readLanguageBuckets
  rw [hlocales, hbuckets, ← hdefault, ← Option.some.inj hnorm, ← Option.some.inj hnormId]
  dsimp only
  rw [codec.load_dumpLocales, codec.load_dumpBuckets]
  rfl

theorem Unmixed.mono {P P' : LocaleSnapshot → Prop} {found : Hashes} (hP : ∀ S, P S → P' S)
    (h : Unmixed codec P found) : Unmixed codec P' found := by
  intro activeRaw r hr
  obtain ⟨S, hS, heq⟩ := h activeRaw r hr
  exact ⟨S, hP S hS, heq⟩

/-- What comes to a snapshot after some hashes have gone has lost none. -/
theorem Unmixed.shrink {P : LocaleSnapshot → Prop} {found found' : Hashes}
    (hshrinks : Shrinks found found') (h : Unmixed codec P found) : Unmixed codec P found' := by
  intro activeRaw r hr
  have hsame : found' = found := by
    funext q
    obtain ⟨fields, hfields⟩ := found_of_assemble hr q
    rw [hfields, hshrinks q fields hfields]
  exact h activeRaw r (hsame ▸ hr)

theorem prospect_shrink {found found' got : Hashes} {rest : List SnapshotHash}
    (h : Shrinks found found') : Shrinks (prospect found got rest) (prospect found' got rest) := by
  intro q fields hq
  unfold prospect at hq ⊢
  split at hq
  · rw [if_pos ‹q ∈ rest›]
    exact h q fields hq
  · rw [if_neg ‹q ∉ rest›]
    exact hq

/-- The hash a read finds is the one it expects. -/
theorem prospect_read {found got : Hashes} {h : SnapshotHash} {rest : List SnapshotHash} :
    prospect found (Function.update got h (found h)) rest = prospect found got (h :: rest) := by
  funext q
  unfold prospect
  by_cases hq : q = h
  · subst hq
    simp
  · simp [hq]

/-- A read that has got nothing expects what is stored. -/
theorem prospect_all (found got : Hashes) :
    prospect found got [.metadata, .norm, .normId] = found := by
  funext q
  cases q <;> rfl

/-- A read that has got everything. -/
theorem prospect_nil (found got : Hashes) : prospect found got [] = got := by
  funext q
  exact if_neg List.not_mem_nil

theorem prospect_laid {found got : Hashes} {h : SnapshotHash} {fields : Fields}
    {rest : List SnapshotHash} (hrest : h ∈ rest) :
    prospect (laid found h fields) got rest = laid (prospect found got rest) h fields := by
  funext q
  unfold prospect laid
  by_cases hq : q = h
  · subst hq
    simp [hrest]
  · simp [hq]

theorem prospect_laid_other {found got : Hashes} {h : SnapshotHash} {fields : Fields}
    {rest : List SnapshotHash} (hrest : h ∉ rest) :
    prospect (laid found h fields) got rest = prospect found got rest := by
  funext q
  unfold prospect laid
  by_cases hq : q = h
  · subst hq
    simp [hrest]
  · simp [hq]

theorem key_injective : Function.Injective SnapshotHash.key := by
  rintro (_ | _ | _) (_ | _ | _) h <;> cases h <;> rfl

theorem stored_hset (s : HashStore LocaleKey) (t : Int) (h : SnapshotHash) (fields : Fields) :
    stored (s.hset t h.key fields) t = laid (stored s t) h fields := by
  funext q
  unfold stored laid
  by_cases hq : q = h
  · subst hq
    rw [HashStore.hgetall_hset_self, Function.update_self]
  · rw [HashStore.hgetall_hset_other fun heq => hq (key_injective heq), Function.update_of_ne hq]

theorem stored_later (s : HashStore LocaleKey) {t t' : Int} (ht : t ≤ t') :
    Shrinks (stored s t) (stored s t') := fun _ _ => HashStore.hgetall_later ht

/-! ## 3. Calls side by side -/

/-- Where a call of `get_locale_snapshot` can be: what its read comes to, or what it fills, is a
snapshot of those in `P`. -/
inductive GetAt (py : PyText) (codec : SnapshotCodec) (P : LocaleSnapshot → Prop) (found : Hashes) :
    LocaleScript LocaleAnswer → Prop
  | begun : GetAt py codec P found (LocaleCall.body py codec .getLocaleSnapshot)
  | reads {activeRaw : List String} {got : Hashes} {rest : List SnapshotHash}
      (h : Unmixed codec P (prospect found got rest)) :
      GetAt py codec P found (reading py codec activeRaw got rest)
  | fills {S : LocaleSnapshot} {p : LocaleScript LocaleAnswer} (hS : P S)
      (hat : FillAt codec S p) : GetAt py codec P found p

/-- What holds of a request: a call for the snapshot has written nothing, the others are
harmless. -/
def LocaleVisitOf (py : PyText) (codec : SnapshotCodec) (P : LocaleSnapshot → Prop) (found : Hashes)
    (v : LocaleVisit) : Prop :=
  match v.label with
  | .getLocaleSnapshot => v.own = id ∧ GetAt py codec P found v.script
  | _ => Harmless v.script

/-- **What holds whatever has happened**: neither the store nor a read under way is mixed. -/
structure LocaleInv (py : PyText) (codec : SnapshotCodec) (P : LocaleSnapshot → Prop)
    (s : LocaleDesk) : Prop where
  unmixed : Unmixed codec P (stored s.store s.clock)
  visits : ∀ n v, s.visits n = some v → LocaleVisitOf py codec P (stored s.store s.clock) v

/-- Where the hash completes a snapshot, all the hashes are those of its own. -/
def CompletesOwn (codec : SnapshotCodec) (S : LocaleSnapshot) (h : SnapshotHash) (fields : Fields)
    (found : Hashes) : Prop :=
  (∃ activeRaw, (assemble codec activeRaw (laid found h fields)).isSome) →
    laid found h fields = written codec S

/-- The script is a read that has yet to read the hash, and expects these hashes. -/
def Expects (py : PyText) (codec : SnapshotCodec) (found : Hashes) (p : LocaleScript LocaleAnswer)
    (h : SnapshotHash) (expected : Hashes) : Prop :=
  ∃ activeRaw got rest, p = reading py codec activeRaw got rest ∧ h ∈ rest ∧
    expected = prospect found got rest

/-- The write of the hash completes no snapshot but its own for a read under way; one account of
what the read expects is enough. -/
def SparesRead (py : PyText) (codec : SnapshotCodec) (S : LocaleSnapshot) (h : SnapshotHash)
    (fields : Fields) (found : Hashes) (p : LocaleScript LocaleAnswer) : Prop :=
  (∃ expected, Expects py codec found p h expected) →
    ∃ expected, Expects py codec found p h expected ∧ CompletesOwn codec S h fields expected

/-- **No fill writes into another's snapshot**: a hash that is about to be written completes, beside
the hashes stored and beside those of a read that has yet to read it, no snapshot but its own. -/
def FillsApart (py : PyText) (codec : SnapshotCodec) (s : LocaleDesk) (a : Turn LocaleCall) :
    Prop :=
  ∀ n v S h hs fields, a = .act n → s.visits n = some v → v.script = filling codec S (h :: hs) →
    written codec S h = some fields →
    CompletesOwn codec S h fields (stored s.store s.clock) ∧
      ∀ m w, s.visits m = some w →
        SparesRead py codec S h fields (stored s.store s.clock) w.script

theorem CompletesOwn.unmixed {P : LocaleSnapshot → Prop} {S : LocaleSnapshot} {h : SnapshotHash}
    {fields : Fields} {found : Hashes} (hown : CompletesOwn codec S h fields found) (hS : P S) :
    Unmixed codec P (laid found h fields) := by
  intro activeRaw r hr
  rw [hown ⟨activeRaw, Option.isSome_of_eq_some hr⟩] at hr
  exact ⟨S, hS, assemble_written hr⟩

variable {P : LocaleSnapshot → Prop}

theorem GetAt.shrink {found found' : Hashes} {p : LocaleScript LocaleAnswer}
    (hshrinks : Shrinks found found') (h : GetAt py codec P found p) :
    GetAt py codec P found' p := by
  cases h with
  | begun => exact .begun
  | reads h => exact .reads (h.shrink (prospect_shrink hshrinks))
  | fills hS hat => exact .fills hS hat

theorem GetAt.mono {P' : LocaleSnapshot → Prop} {found : Hashes} {p : LocaleScript LocaleAnswer}
    (hP : ∀ S, P S → P' S) (h : GetAt py codec P found p) : GetAt py codec P' found p := by
  cases h with
  | begun => exact .begun
  | reads h => exact .reads (h.mono hP)
  | fills hS hat => exact .fills (hP _ hS) hat

theorem LocaleVisitOf.shrink {found found' : Hashes} {v : LocaleVisit}
    (hshrinks : Shrinks found found') (h : LocaleVisitOf py codec P found v) :
    LocaleVisitOf py codec P found' v := by
  unfold LocaleVisitOf at h ⊢
  split at h
  · exact ⟨h.1, h.2.shrink hshrinks⟩
  · exact h

section Steps

variable {s s' : LocaleDesk} {n : Nat} {v : LocaleVisit}

/-- **A harmless request's next step** brings no hash. -/
theorem Harmless.act (h : Harmless v.script) (hact : s.act n v = some s') :
    ∃ v' store, s' = { s.put n (some v') with store } ∧ v'.label = v.label ∧ Harmless v'.script ∧
      Shrinks (stored s.store s.clock) (stored store s.clock) := by
  obtain ⟨label, script, own, rows, saw⟩ := v
  cases script with
  | ret _ => cases hact
  | raise _ => cases hact
  | read q k =>
    cases hact
    exact ⟨_, s.store, rfl, rfl, h _, fun _ _ hq => hq⟩
  | clock k =>
    cases hact
    exact ⟨_, s.store, rfl, rfl, h _, fun _ _ hq => hq⟩
  | write stmt k =>
    simp only [Desk.act] at hact
    split at hact
    · cases hact
      exact ⟨_, s.store, rfl, rfl, trivial, fun _ _ hq => hq⟩
    · split at hact
      · cases hact
        exact ⟨_, s.store, rfl, rfl, h _, fun _ _ hq => hq⟩
      · cases hact
  | command c k =>
    cases hact
    exact ⟨_, _, rfl, rfl, h.2 _, fun q fields hq => h.1 s.store s.clock q.key fields hq⟩
  | commit _ => exact h.elim

/-- **A fill's next step** brings no hash, or writes one of its own. -/
theorem FillAt.act {S : LocaleSnapshot} (hat : FillAt codec S v.script)
    (hact : s.act n v = some s') :
    ∃ v' store, s' = { s.put n (some v') with store } ∧ v'.label = v.label ∧ v'.own = v.own ∧
      FillAt codec S v'.script ∧ (Shrinks (stored s.store s.clock) (stored store s.clock) ∨
        ∃ h hs fields, v.script = filling codec S (h :: hs) ∧ written codec S h = some fields ∧
          stored store s.clock = laid (stored s.store s.clock) h fields) := by
  obtain ⟨label, script, own, rows, saw⟩ := v
  dsimp only at hat
  cases hat with
  | done => cases hact
  | quiet hc hk =>
    cases hact
    exact ⟨_, _, rfl, rfl, rfl, hk _, .inl fun q fields hq => hc s.store s.clock q.key fields hq⟩
  | @write h hs fields hw =>
    simp only [filling_write hw, Desk.act] at hact
    cases hact
    refine ⟨_, _, rfl, rfl, rfl, ?_,
      .inr ⟨h, hs, fields, rfl, hw, stored_hset s.store s.clock h fields⟩⟩
    exact .quiet (.expire _ _) fun _ => .of_filling hs

/-- **The next step of a call for the snapshot** brings no hash, or writes one of a snapshot in
`P`. -/
theorem GetAt.act (hat : GetAt py codec P (stored s.store s.clock) v.script) (hown : v.own = id)
    (hstored : Unmixed codec P (stored s.store s.clock))
    (hdb : P (LocaleService.snapshotOf py s.db)) (hact : s.act n v = some s') :
    ∃ v' store, s' = { s.put n (some v') with store } ∧ v'.label = v.label ∧ v'.own = id ∧
      (Shrinks (stored s.store s.clock) (stored store s.clock) ∧
          GetAt py codec P (stored store s.clock) v'.script ∨
        ∃ S h hs fields, P S ∧ v.script = filling codec S (h :: hs) ∧
          written codec S h = some fields ∧ FillAt codec S v'.script ∧
          stored store s.clock = laid (stored s.store s.clock) h fields) := by
  obtain ⟨label, script, own, rows, saw⟩ := v
  dsimp only at hat hown
  subst hown
  cases hat with
  | begun =>
    simp only [getLocaleSnapshot_eq, Desk.act] at hact
    cases hact
    refine ⟨_, s.store, rfl, rfl, rfl, .inl ⟨fun _ _ hq => hq, .reads ?_⟩⟩
    rw [prospect_all]
    exact hstored
  | @reads activeRaw got rest h =>
    cases rest with
    | nil =>
      simp only [reading] at hact
      cases hread : assemble codec activeRaw got with
      | some r =>
        rw [hread] at hact
        cases hact
      | none =>
        rw [hread] at hact
        cases hact
        exact ⟨_, s.store, rfl, rfl, rfl, .inl ⟨fun _ _ hq => hq, .fills hdb .of_fill⟩⟩
    | cons q rest =>
      cases hact
      refine ⟨_, s.store, rfl, rfl, rfl, .inl ⟨fun _ _ hq => hq, .reads ?_⟩⟩
      rw [← prospect_read] at h
      exact h
  | @fills S _ hS hat =>
    obtain ⟨v', store, rfl, hlabel, hown, hat', hstore⟩ := FillAt.act hat hact
    refine ⟨v', store, rfl, hlabel, hown, ?_⟩
    rcases hstore with hshrinks | ⟨h, hs, fields, hscript, hw, hstore⟩
    · exact .inl ⟨hshrinks, .fills hS hat'⟩
    · exact .inr ⟨S, h, hs, fields, hS, hscript, hw, hat', hstore⟩

theorem LocaleVisitOf.begun (call : LocaleCall) : LocaleVisitOf py codec P
    (stored s.store s.clock) { label := call, script := call.body py codec } := by
  cases call with
  | getLocaleSnapshot => exact ⟨rfl, .begun⟩
  | clearLocaleCache =>
    show Harmless (LocaleCall.clearLocaleCache.body py codec)
    exact harmless_body (by simp)
  | edit change =>
    show Harmless ((LocaleCall.edit change).body py codec)
    exact harmless_body (by simp)

/-- A read under way is as good as the hashes it expects. -/
theorem GetAt.of_laid {found : Hashes} {p : LocaleScript LocaleAnswer} {S : LocaleSnapshot}
    {h : SnapshotHash} {fields : Fields} (hat : GetAt py codec P found p) (hS : P S)
    (hspares : SparesRead py codec S h fields found p) :
    GetAt py codec P (laid found h fields) p := by
  cases hat with
  | begun => exact .begun
  | fills hS hat => exact .fills hS hat
  | @reads activeRaw got rest hunmixed =>
    by_cases hrest : h ∈ rest
    · obtain ⟨expected, ⟨activeRaw', got', rest', hscript, hrest', rfl⟩, hown⟩ :=
        hspares ⟨_, activeRaw, got, rest, rfl, hrest, rfl⟩
      rw [hscript]
      refine .reads ?_
      rw [prospect_laid hrest']
      exact hown.unmixed hS
    · refine .reads ?_
      rw [prospect_laid_other hrest]
      exact hunmixed

theorem LocaleVisitOf.of_laid {found : Hashes} {S : LocaleSnapshot} {h : SnapshotHash}
    {fields : Fields} (hof : LocaleVisitOf py codec P found v) (hS : P S)
    (hspares : SparesRead py codec S h fields found v.script) :
    LocaleVisitOf py codec P (laid found h fields) v := by
  unfold LocaleVisitOf at hof ⊢
  split at hof
  · exact ⟨hof.1, hof.2.of_laid hS hspares⟩
  · exact hof

/-- **A request's next step** brings no hash, or writes one of a snapshot in `P`. -/
theorem LocaleVisitOf.act (hof : LocaleVisitOf py codec P (stored s.store s.clock) v)
    (hstored : Unmixed codec P (stored s.store s.clock))
    (hdb : P (LocaleService.snapshotOf py s.db)) (hact : s.act n v = some s') :
    ∃ v' store, s' = { s.put n (some v') with store } ∧
      LocaleVisitOf py codec P (stored store s.clock) v' ∧
      (Shrinks (stored s.store s.clock) (stored store s.clock) ∨
        ∃ S h hs fields, P S ∧ v.script = filling codec S (h :: hs) ∧
          written codec S h = some fields ∧
          stored store s.clock = laid (stored s.store s.clock) h fields) := by
  unfold LocaleVisitOf at hof
  split at hof
  · rename_i hget
    obtain ⟨v', store, rfl, hlabel, hown, hstore⟩ := hof.2.act hof.1 hstored hdb hact
    have hsame : v'.label = .getLocaleSnapshot := hlabel.trans hget
    refine ⟨v', store, rfl, ?_, ?_⟩
    · unfold LocaleVisitOf
      rw [hsame]
      rcases hstore with ⟨-, hat⟩ | ⟨S, h, hs, fields, hS, -, -, hat, -⟩
      · exact ⟨hown, hat⟩
      · exact ⟨hown, .fills hS hat⟩
    · rcases hstore with ⟨hshrinks, -⟩ | ⟨S, h, hs, fields, hS, hscript, hw, -, hlaid⟩
      · exact .inl hshrinks
      · exact .inr ⟨S, h, hs, fields, hS, hscript, hw, hlaid⟩
  · rename_i hother
    obtain ⟨v', store, rfl, hlabel, hharmless, hshrinks⟩ := Harmless.act hof hact
    refine ⟨v', store, rfl, ?_, .inl hshrinks⟩
    unfold LocaleVisitOf
    rw [hlabel]
    split
    · exact absurd ‹_› hother
    · exact hharmless

/-- **A step in which fills stay apart mixes nothing.** -/
theorem LocaleInv.step (h : LocaleInv py codec P s) (hdb : P (LocaleService.snapshotOf py s.db))
    {a : Turn LocaleCall} (hok : FillsApart py codec s a)
    (hstep : s.step (LocaleCall.body py codec) a = some s') : LocaleInv py codec P s' := by
  rcases Desk.step_cases hstep with ⟨t, rfl, ht, rfl⟩ | ⟨call, rfl, rfl⟩ | ⟨n, v, rfl, hv, hact⟩ |
    ⟨n, v, rfl, hv, hend⟩
  · exact ⟨h.unmixed.shrink (stored_later s.store ht),
      fun m w hw => (h.visits m w hw).shrink (stored_later s.store ht)⟩
  · refine ⟨h.unmixed, fun m w hw => ?_⟩
    rcases Desk.put_cases hw with ⟨-, hw⟩ | ⟨-, hw⟩
    · obtain rfl := Option.some.inj hw
      exact .begun call
    · exact h.visits m w hw
  · obtain ⟨v', store, rfl, hof, hstore⟩ := (h.visits n v hv).act h.unmixed hdb hact
    have hnew : Unmixed codec P (stored store s.clock) ∧ ∀ m w, s.visits m = some w →
        LocaleVisitOf py codec P (stored store s.clock) w := by
      rcases hstore with hshrinks | ⟨S, q, qs, fields, hS, hscript, hw, hlaid⟩
      · exact ⟨h.unmixed.shrink hshrinks, fun m w hw => (h.visits m w hw).shrink hshrinks⟩
      · obtain ⟨hown, hspares⟩ := hok n v S q qs fields rfl hv hscript hw
        rw [hlaid]
        exact ⟨hown.unmixed hS, fun m w hw => (h.visits m w hw).of_laid hS (hspares m w hw)⟩
    refine ⟨hnew.1, fun m w hw => ?_⟩
    rcases Desk.put_cases hw with ⟨-, hw⟩ | ⟨-, hw⟩
    · obtain rfl := Option.some.inj hw
      exact hof
    · exact hnew.2 m w hw
  · have hgone : ∀ m w, (s.put n none).visits m = some w →
        LocaleVisitOf py codec P (stored s.store s.clock) w := by
      intro m w hw
      rcases Desk.put_cases hw with ⟨-, hw⟩ | ⟨-, hw⟩
      · cases hw
      · exact h.visits m w hw
    rcases Desk.finish_cases hend with ⟨answer, -, rfl⟩ | ⟨e, -, rfl⟩
    · exact ⟨h.unmixed, hgone⟩
    · exact ⟨h.unmixed, hgone⟩

end Steps

/-! ## 4. Snapshots -/

/-- **No snapshot is mixed** in the runs whose turns meet `ok`: every one that is returned is that
of the table at some point of the run. -/
def SnapshotsWhole (py : PyText) (codec : SnapshotCodec)
    (ok : LocaleDesk → Turn LocaleCall → Prop) (s₀ : LocaleDesk) : Prop :=
  ∀ turns s n v r, Desk.Follows (LocaleCall.body py codec) ok s₀ turns s → s.visits n = some v →
    v.script = .ret (.snapshot r) →
    ∃ before, before <+: turns ∧ ∃ s₁, Desk.Follows (LocaleCall.body py codec) ok s₀ before s₁ ∧
      r = (LocaleService.snapshotOf py s₁.db).result

/-- Any table, nothing stored and nobody there. -/
def localesOpened (db : LocaleDb) (clock : Int) : LocaleDesk where
  db
  store := .empty
  clock

theorem FillAt.returned {S : LocaleSnapshot} {r : LocaleSnapshotResult}
    {p : LocaleScript LocaleAnswer} (hat : FillAt codec S p) (hret : p = .ret (.snapshot r)) :
    r = S.result := by
  cases hat with
  | done =>
    cases hret
    rfl
  | quiet _ _ => cases hret
  | write hw =>
    rw [filling_write hw] at hret
    cases hret

theorem GetAt.returned {found : Hashes} {r : LocaleSnapshotResult} {p : LocaleScript LocaleAnswer}
    (hat : GetAt py codec P found p) (hret : p = .ret (.snapshot r)) : ∃ S, P S ∧ r = S.result := by
  cases hat with
  | begun =>
    rw [getLocaleSnapshot_eq] at hret
    cases hret
  | @reads activeRaw got rest hunmixed =>
    cases rest with
    | nil =>
      rw [prospect_nil] at hunmixed
      simp only [reading] at hret
      cases hread : assemble codec activeRaw got with
      | some r' =>
        rw [hread] at hret
        cases hret
        exact hunmixed activeRaw r hread
      | none =>
        rw [hread] at hret
        cases hret
    | cons q rest => cases hret
  | fills hS hat => exact ⟨_, hS, hat.returned hret⟩

/-- A request that has returned a snapshot has returned one of those in `P`. -/
theorem LocaleVisitOf.returned {found : Hashes} {v : LocaleVisit} {r : LocaleSnapshotResult}
    (hof : LocaleVisitOf py codec P found v) (hret : v.script = .ret (.snapshot r)) :
    ∃ S, P S ∧ r = S.result := by
  unfold LocaleVisitOf at hof
  split at hof
  · exact hof.2.returned hret
  · rw [hret] at hof
    exact absurd rfl (hof r)

theorem LocaleInv.opened (db : LocaleDb) (clock : Int) :
    LocaleInv py codec P (localesOpened db clock) := by
  refine ⟨fun activeRaw r hr => ?_, fun n v hv => ?_⟩
  · obtain ⟨fields, hfields⟩ := found_of_assemble hr .metadata
    cases hfields
  · cases hv

theorem LocaleInv.mono {P' : LocaleSnapshot → Prop} {s : LocaleDesk} (hP : ∀ S, P S → P' S)
    (h : LocaleInv py codec P s) : LocaleInv py codec P' s := by
  refine ⟨h.unmixed.mono hP, fun n v hv => ?_⟩
  have hof := h.visits n v hv
  unfold LocaleVisitOf at hof ⊢
  split at hof
  · exact ⟨hof.1, hof.2.mono hP⟩
  · exact hof

/-- **No snapshot is mixed as long as fills stay apart.** -/
theorem snapshotsWhole_apart (db : LocaleDb) (clock : Int) :
    SnapshotsWhole py codec (FillsApart py codec) (localesOpened db clock) := by
  let Passed (turns : List (Turn LocaleCall)) (S : LocaleSnapshot) : Prop :=
    ∃ before, before <+: turns ∧ ∃ s₁, Desk.Follows (LocaleCall.body py codec)
      (FillsApart py codec) (localesOpened db clock) before s₁ ∧
        S = LocaleService.snapshotOf py s₁.db
  -- from the last turn, since what has passed grows with the turns
  have hinv : ∀ turns s, Desk.Follows (LocaleCall.body py codec) (FillsApart py codec)
      (localesOpened db clock) turns s → LocaleInv py codec (Passed turns) s := by
    intro turns
    induction turns using List.reverseRecOn with
    | nil =>
      rintro s rfl
      exact .opened db clock
    | append_singleton turns a ih =>
      intro s h
      obtain ⟨s₁, hturns, hok, s₂, hstep, rfl⟩ := Desk.Follows.append.mp h
      have hpassed : ∀ S, Passed turns S → Passed (turns ++ [a]) S :=
        fun S ⟨before, hprefix, hS⟩ => ⟨before, hprefix.trans (List.prefix_append _ _), hS⟩
      exact ((ih s₁ hturns).step ⟨turns, List.prefix_rfl, s₁, hturns, rfl⟩ hok hstep).mono hpassed
  intro turns s n v r hturns hv hret
  obtain ⟨S, ⟨before, hprefix, s₁, hs₁, rfl⟩, rfl⟩ :=
    ((hinv turns s hturns).visits n v hv).returned hret
  exact ⟨before, hprefix, s₁, hs₁, rfl⟩

/-! ### 4.1 Writes that stay apart -/

/-- The script's next command leaves a hash where there was none. -/
def brings : LocaleScript LocaleAnswer → Bool
  | .command c _ =>
    [SnapshotHash.metadata, .norm, .normId].any fun h => (stored (c .empty 0).1 0 h).isSome
  | _ => false

theorem brings_filling {S : LocaleSnapshot} {h : SnapshotHash} {hs : List SnapshotHash}
    {fields : Fields} (hw : written codec S h = some fields) :
    brings (filling codec S (h :: hs)) = true := by
  rw [filling_write hw]
  simp only [brings, stored_hset, List.any_eq_true]
  refine ⟨h, by cases h <;> simp, ?_⟩
  simp [laid]

/-- The turn writes no hash. -/
def silent (s : LocaleDesk) : Turn LocaleCall → Bool
  | .act n => (s.visits n).all fun v => !brings v.script
  | _ => true

theorem FillsApart.of_silent {s : LocaleDesk} {a : Turn LocaleCall} (h : silent s a = true) :
    FillsApart py codec s a := by
  rintro n v S q qs fields rfl hv hscript hw
  rw [silent, hv, Option.all_some, hscript, brings_filling hw] at h
  cases h

/-- What the script returns, whatever it is told. -/
def Gives (answer : LocaleAnswer) : LocaleScript LocaleAnswer → Prop
  | .ret a => a = answer
  | .command _ k => ∀ reply, Gives answer (k reply)
  | _ => False

theorem gives_filling (S : LocaleSnapshot) :
    ∀ hs, Gives (.snapshot S.result) (filling codec S hs)
  | [] => rfl
  | h :: hs => by
    cases hw : written codec S h with
    | none =>
      rw [filling_skip hw]
      exact gives_filling S hs
    | some fields =>
      rw [filling_write hw]
      exact fun _ _ => gives_filling S hs

theorem Gives.eq_of_filling {S : LocaleSnapshot} {answer : LocaleAnswer} :
    ∀ {hs}, Gives answer (filling codec S hs) → answer = .snapshot S.result
  | [], h => h.symm
  | q :: hs, h => by
    cases hw : written codec S q with
    | none =>
      rw [filling_skip hw] at h
      exact h.eq_of_filling
    | some fields =>
      rw [filling_write hw] at h
      exact (h () ()).eq_of_filling

theorem lastOf_none_iff {α : Type} {pairs : List (String × α)} :
    lastOf pairs = (fun _ => none) ↔ pairs = [] := by
  constructor
  · intro h
    by_contra hne
    obtain ⟨p, hp⟩ := List.exists_mem_of_ne_nil pairs hne
    have hnone := congrFun h p.1
    simp only [lastOf, Option.map_eq_none_iff, List.find?_eq_none, List.mem_reverse] at hnone
    exact hnone p hp (by simp)
  · rintro rfl
    rfl

/-- What a fill writes is in its answer. -/
theorem written_congr {S S' : LocaleSnapshot} (h : S.result = S'.result) :
    written codec S = written codec S' := by
  obtain ⟨hactive, hdefault, hnorm, hnormId, hbuckets⟩ := LocaleSnapshotResult.mk.inj h
  have hempty : S.normalizedMap.isEmpty = S'.normalizedMap.isEmpty := by
    rw [Bool.eq_iff_iff, List.isEmpty_iff, List.isEmpty_iff, ← lastOf_none_iff, ← lastOf_none_iff,
      hnorm]
  have hemptyId : S.normalizedIdMap.isEmpty = S'.normalizedIdMap.isEmpty := by
    have hid : ∀ S : LocaleSnapshot, S.normalizedIdMap = [] ↔
        (fun key => (lastOf S.normalizedIdMap key).map uuidText) = fun _ => none := by
      intro S
      rw [← lastOf_none_iff, funext_iff, funext_iff]
      simp
    rw [Bool.eq_iff_iff, List.isEmpty_iff, List.isEmpty_iff, hid, hid, hnormId]
  funext q
  cases q with
  | metadata => simp only [written, hactive, hdefault, hbuckets]
  | norm => simp only [written, hempty, h]
  | normId => simp only [written, hemptyId, h]

/-- **A fill is known by its next write**, but for its name. -/
theorem filling_unique {S S' : LocaleSnapshot} {h h' : SnapshotHash} {hs hs' : List SnapshotHash}
    {fields fields' : Fields} (hw : written codec S h = some fields)
    (hw' : written codec S' h' = some fields')
    (heq : filling codec S (h :: hs) = filling codec S' (h' :: hs')) :
    h' = h ∧ fields' = fields ∧ written codec S' = written codec S := by
  have hgives : Gives (.snapshot S.result) (filling codec S (h :: hs)) := gives_filling S (h :: hs)
  rw [heq] at hgives
  have hwritten : written codec S = written codec S' :=
    written_congr (LocaleAnswer.snapshot.inj hgives.eq_of_filling)
  rw [filling_write hw, filling_write hw'] at heq
  have hcommand : (fun (s : HashStore LocaleKey) (t : Int) => (s.hset t h.key fields, ())) =
      fun s t => (s.hset t h'.key fields', ()) := by
    injection heq
  have hlaid : laid (stored .empty 0) h fields = laid (stored .empty 0) h' fields' := by
    rw [← stored_hset, ← stored_hset]
    exact congrArg (fun c => stored (c .empty 0).1 0) hcommand
  have hsame : h' = h := by
    by_contra hne
    have := congrFun hlaid h'
    simp [laid, hne] at this
    cases this
  subst hsame
  refine ⟨rfl, ?_, hwritten.symm⟩
  exact Option.some.inj (hw'.symm.trans ((congrFun hwritten _).symm.trans hw))

/-- A fill that nobody reads beside writes apart. -/
theorem FillsApart.of_filling {s : LocaleDesk} {n : Nat} {v : LocaleVisit} {S : LocaleSnapshot}
    {h : SnapshotHash} {hs : List SnapshotHash} {fields : Fields} (hv : s.visits n = some v)
    (hscript : v.script = filling codec S (h :: hs)) (hw : written codec S h = some fields)
    (hown : CompletesOwn codec S h fields (stored s.store s.clock))
    (hspares : ∀ m w, s.visits m = some w →
      SparesRead py codec S h fields (stored s.store s.clock) w.script) :
    FillsApart py codec s (.act n) := by
  intro n' v' S' h' hs' fields' hn hv' hscript' hw'
  cases hn
  obtain rfl := Option.some.inj (hv.symm.trans hv')
  obtain ⟨rfl, rfl, hwritten⟩ := filling_unique hw hw' (hscript.symm.trans hscript')
  have hcompletes : ∀ {found}, CompletesOwn codec S h' fields' found →
      CompletesOwn codec S' h' fields' found := fun h hsome => (h hsome).trans hwritten.symm
  refine ⟨hcompletes hown, fun m w hm hexpects => ?_⟩
  obtain ⟨expected, hexpected, hown⟩ := hspares m w hm hexpects
  exact ⟨expected, hexpected, hcompletes hown⟩


theorem CompletesOwn.of_missing {S : LocaleSnapshot} {h q : SnapshotHash} {fields : Fields}
    {found : Hashes} (hq : laid found h fields q = none) : CompletesOwn codec S h fields found := by
  rintro ⟨activeRaw, hsome⟩
  obtain ⟨r, hr⟩ := Option.isSome_iff_exists.mp hsome
  obtain ⟨fields', hfields⟩ := found_of_assemble hr q
  rw [hq] at hfields
  cases hfields

/-- A script that is to write a hash is no read. -/
theorem SparesRead.of_filling {S S' : LocaleSnapshot} {h q : SnapshotHash} {hs : List SnapshotHash}
    {fields fields' : Fields} {found : Hashes} (hw : written codec S' q = some fields') :
    SparesRead py codec S h fields found (filling codec S' (q :: hs)) := by
  rintro ⟨expected, activeRaw, got, rest, hscript, hrest, -⟩
  have hbrings : brings (filling codec S' (q :: hs)) = true := brings_filling hw
  rw [hscript] at hbrings
  cases rest with
  | nil => cases hrest
  | cons _ _ => cases hbrings

theorem FillsApart.silently {body : LocaleCall → LocaleScript LocaleAnswer} {s s' : LocaleDesk}
    {turns : List (Turn LocaleCall)}
    (h : Desk.checkedReplay body (fun s a => silent s a = true) s turns = some s') :
    Desk.Follows body (FillsApart py codec) s turns s' :=
  .of_checkedReplay (fun _ _ => .of_silent) h

/-- A fill writes its next hash, and nobody else is there. -/
theorem FillsApart.write (S : LocaleSnapshot) (h : SnapshotHash) (hs : List SnapshotHash)
    {body : LocaleCall → LocaleScript LocaleAnswer} {s s₁ s' : LocaleDesk} {v : LocaleVisit}
    {fields : Fields} (hv : s.visits 0 = some v) (halone : ∀ m, s.visits (m + 1) = none)
    (hscript : v.script = filling codec S (h :: hs)) (hw : written codec S h = some fields)
    (hown : CompletesOwn codec S h fields (stored s.store s.clock))
    (hwrites : s.step body (.act 0) = some s₁) (hsilent : silent s₁ (.act 0) = true)
    (hexpires : s₁.step body (.act 0) = some s') :
    Desk.Follows body (FillsApart py codec) s [.act 0, .act 0] s' := by
  refine ⟨.of_filling hv hscript hw hown fun m w hm => ?_, s₁, hwrites, .of_silent hsilent, s',
    hexpires, rfl⟩
  cases m with
  | zero =>
    obtain rfl := Option.some.inj (hv.symm.trans hm)
    rw [hscript]
    exact .of_filling hw
  | succ m =>
    rw [halone m] at hm
    cases hm

/-! ## 5. Two tables -/

/-- The body of a call, with its read in stages. -/
def LocaleCall.staged (py : PyText) (codec : SnapshotCodec) : LocaleCall → LocaleScript LocaleAnswer
  | .getLocaleSnapshot => .command (fun s t => (s, s.smembers t .active)) fun activeRaw =>
      reading py codec activeRaw (fun _ => none) [.metadata, .norm, .normId]
  | call => call.body py codec

theorem body_eq_staged (py : PyText) (codec : SnapshotCodec) :
    LocaleCall.body py codec = LocaleCall.staged py codec := by
  funext call
  cases call with
  | getLocaleSnapshot => exact getLocaleSnapshot_eq py codec
  | clearLocaleCache => rfl
  | edit change => rfl

def english : SystemLocale := { id := 1, languageCode := "en", isDefault := true }

def french : SystemLocale := { id := 2, languageCode := "fr", isDefault := true }

def englishDb : LocaleDb := { locales := [english] }

def frenchDb : LocaleDb := { locales := [french] }

/-! ### 5.1 Fills that stay apart -/

/-- A fill of the first table; the table changes before it writes its first hash. -/
def beforeWrites : List (Turn LocaleCall) :=
  [.begin .getLocaleSnapshot] ++ List.replicate 9 (.act 0) ++
    [.begin (.edit fun _ => [french]), .act 1, .finish 1]

/-- The next read, of what the fill has left. -/
def afterWrites : List (Turn LocaleCall) :=
  [.finish 0, .begin .getLocaleSnapshot] ++ List.replicate 4 (.act 2)

/-- The state when the fill has written some of its hashes. -/
def amidWrites (codec : SnapshotCodec) (hashes : Nat) : LocaleDesk :=
  (Desk.replay (LocaleCall.staged plainText codec) (localesOpened englishDb 0)
    (beforeWrites ++ List.replicate (2 * hashes) (.act 0))).getD (localesOpened englishDb 0)

def englishSnapshot : LocaleSnapshot := LocaleService.snapshotOf plainText englishDb

/-- What a read has got that has found these hashes. -/
theorem update_found (got found : Hashes) : Function.update (Function.update (Function.update got
    .metadata (found .metadata)) .norm (found .norm)) .normId (found .normId) = found := by
  funext q
  cases q <;> rfl

theorem english_assembles (codec : SnapshotCodec) :
    assemble codec ["en"] (written codec englishSnapshot) = some englishSnapshot.result := by
  have hdefault : metaField (written codec englishSnapshot) "default_locale" = some "en" := rfl
  have htext : metaField (written codec englishSnapshot) "active_locales_json" =
      some (codec.dumpLocales ["en"]) := truthy_some (codec.dumpLocales_ne _)
  have hlocales : readActiveLocales codec ["en"] (written codec englishSnapshot) = ["en"] := by
    unfold readActiveLocales
    rw [htext]
    dsimp only
    rw [codec.load_dumpLocales]
    rfl
  cases h : assemble codec ["en"] (written codec englishSnapshot) with
  | some r => rw [assemble_written h]
  | none =>
    unfold assemble at h
    rw [hdefault, hlocales] at h
    cases h

/-- What the read has got, and the table at the time. -/
theorem read_after (codec : SnapshotCodec) :
    (Desk.checkedReplay (LocaleCall.staged plainText codec) (fun s a => silent s a = true)
        (amidWrites codec 3) afterWrites).map (fun s => (s.db, (s.visits 2).map Visit.script)) =
      some (frenchDb, some (answered plainText codec
        (assemble codec ["en"] (written codec englishSnapshot)))) := by
  rw [← update_found (fun _ => none) (written codec englishSnapshot)]
  rfl

/-- **A read returns the snapshot of a table that has gone**, and no snapshot is mixed. -/
theorem fillsApart_run (codec : SnapshotCodec) : ∃ turns s,
    Desk.Follows (LocaleCall.body plainText codec) (FillsApart plainText codec)
      (localesOpened englishDb 0) turns s ∧ s.db = frenchDb ∧
      (s.visits 2).map Visit.script = some (.ret (.snapshot englishSnapshot.result)) := by
  rw [body_eq_staged]
  let Apart := Desk.Follows (LocaleCall.staged plainText codec) (FillsApart plainText codec)
  have hbefore : Apart (localesOpened englishDb 0) beforeWrites (amidWrites codec 0) :=
    FillsApart.silently rfl
  have hmetadata : Apart (amidWrites codec 0) [.act 0, .act 0] (amidWrites codec 1) := by
    refine FillsApart.write englishSnapshot .metadata [.norm, .normId] rfl (fun m => ?_) rfl rfl
      (.of_missing (q := .norm) rfl) rfl rfl rfl
    cases m <;> rfl
  have hnorm : Apart (amidWrites codec 1) [.act 0, .act 0] (amidWrites codec 2) := by
    refine FillsApart.write englishSnapshot .norm [.normId] rfl (fun m => ?_) rfl rfl
      (.of_missing (q := .normId) rfl) rfl rfl rfl
    cases m <;> rfl
  have hnormId : Apart (amidWrites codec 2) [.act 0, .act 0] (amidWrites codec 3) := by
    refine FillsApart.write englishSnapshot .normId [] rfl (fun m => ?_) rfl rfl
      (fun _ => ?_) rfl rfl rfl
    · cases m <;> rfl
    · funext q
      cases q <;> rfl
  obtain ⟨s, hs, hfacts⟩ := Option.map_eq_some_iff.mp (read_after codec)
  obtain ⟨hdb, hvisit⟩ := Prod.mk.inj hfacts
  rw [english_assembles] at hvisit
  have hwrites := Desk.Follows.append.mpr
    ⟨_, hmetadata, Desk.Follows.append.mpr ⟨_, hnorm, Desk.Follows.append.mpr ⟨_, hnormId,
      FillsApart.silently hs⟩⟩⟩
  exact ⟨_, s, Desk.Follows.append.mpr ⟨_, hbefore, hwrites⟩, hdb, hvisit⟩

/-! ### 5.2 A snapshot of two tables -/

/-- A fill; then a read takes two of its keys, the table changes, the cache is cleared and filled
again, and the read takes the other two. -/
def readAcrossFills : List (Turn LocaleCall) :=
  [.begin .getLocaleSnapshot] ++ List.replicate 15 (.act 0) ++ [.finish 0,
    .begin .getLocaleSnapshot, .act 1, .act 1,
    .begin (.edit fun _ => [french]), .act 2, .finish 2,
    .begin .clearLocaleCache, .act 3, .act 3, .finish 3,
    .begin .getLocaleSnapshot] ++ List.replicate 15 (.act 4) ++ [.act 1, .act 1]

/-- The metadata of the one table and the maps of the other. -/
def mixedHashes (codec : SnapshotCodec) : Hashes :=
  Function.update (Function.update (Function.update (fun _ => none)
    .metadata (written codec (LocaleService.snapshotOf plainText englishDb) .metadata))
    .norm (written codec (LocaleService.snapshotOf plainText frenchDb) .norm))
    .normId (written codec (LocaleService.snapshotOf plainText frenchDb) .normId)

/-- What the read has got at its end. -/
theorem read_across (codec : SnapshotCodec) :
    ((Desk.replay (LocaleCall.staged plainText codec) (localesOpened englishDb 0)
        readAcrossFills).map fun s => (s.visits 1).map Visit.script) =
      some (some (answered plainText codec (assemble codec ["en"] (mixedHashes codec)))) := rfl

/-- The tables on the way. -/
theorem databases_across (codec : SnapshotCodec) :
    Desk.databases (LocaleCall.staged plainText codec) (localesOpened englishDb 0)
        readAcrossFills = List.replicate 23 englishDb ++ List.replicate 23 frenchDb := rfl

theorem mixed_assembles (codec : SnapshotCodec) :
    ∃ r, assemble codec ["en"] (mixedHashes codec) = some r ∧ r.defaultLocale = some "en" ∧
      r.normalizedMap "en" = none := by
  have hdefault : metaField (mixedHashes codec) "default_locale" = some "en" := rfl
  have htext : metaField (mixedHashes codec) "active_locales_json" =
      some (codec.dumpLocales ["en"]) := truthy_some (codec.dumpLocales_ne _)
  have hlocales : readActiveLocales codec ["en"] (mixedHashes codec) = ["en"] := by
    unfold readActiveLocales
    rw [htext]
    dsimp only
    rw [codec.load_dumpLocales]
    rfl
  refine ⟨⟨["en"], some "en", (LocaleService.snapshotOf plainText frenchDb).result.normalizedMap,
    (LocaleService.snapshotOf plainText frenchDb).result.normalizedIdMap,
    readLanguageBuckets codec (mixedHashes codec)⟩, ?_, rfl, ?_⟩
  · unfold assemble
    rw [hdefault, hlocales]
    rfl
  · show (LocaleService.snapshotOf plainText frenchDb).result.normalizedMap "en" = none
    decide +kernel

/-- **A read across two fills returns the default of one table and the map of another.** -/
theorem snapshot_mixed (codec : SnapshotCodec) :
    ¬ SnapshotsWhole plainText codec (fun _ _ => True) (localesOpened englishDb 0) := by
  intro h
  unfold SnapshotsWhole at h
  rw [body_eq_staged plainText codec] at h
  obtain ⟨s, hs, hvisit⟩ := Option.map_eq_some_iff.mp (read_across codec)
  obtain ⟨v, hv, hscript⟩ := Option.map_eq_some_iff.mp hvisit
  obtain ⟨r, hr, hdefault, hmap⟩ := mixed_assembles codec
  rw [hr] at hscript
  obtain ⟨before, hprefix, s₁, hs₁, rfl⟩ :=
    h readAcrossFills s 1 v r (.of_replay hs) hv hscript
  have hdb := Desk.Follows.db_mem hprefix hs₁
  rw [databases_across] at hdb
  rcases List.mem_append.mp hdb with hdb | hdb
  · rw [(List.mem_replicate.mp hdb).2] at hmap
    exact absurd hmap (by decide +kernel)
  · rw [(List.mem_replicate.mp hdb).2] at hdefault
    exact absurd hdefault (by decide +kernel)

/-! ### 5.3 With a codec -/

def localesJson (codes : List String) : Json (Option Bool) := .arr (codes.map .str)

def bucketsJson (buckets : Groups String String) : Json (Option Bool) :=
  .obj (buckets.map fun bucket => (bucket.1, localesJson bucket.2))

theorem localesJson_injective : Function.Injective localesJson := by
  intro codes codes' h
  have hstr : Function.Injective (Json.str : String → Json (Option Bool)) := fun _ _ => Json.str.inj
  exact hstr.list_map (Json.arr.inj h)

theorem bucketsJson_injective : Function.Injective bucketsJson := by
  intro buckets buckets' h
  refine Function.Injective.list_map (fun bucket bucket' heq => ?_) (Json.obj.inj h)
  obtain ⟨hkey, hcodes⟩ := Prod.mk.inj heq
  exact Prod.ext hkey (localesJson_injective hcodes)

open Classical in
/-- A text read back as what it is the text of. -/
noncomputable def loadsAs {α : Type} (dump : α → String) (text : String) : Option α :=
  if h : ∃ a, dump a = text then some h.choose else none

theorem loadsAs_dump {α : Type} {dump : α → String} (hdump : Function.Injective dump) (a : α) :
    loadsAs dump (dump a) = some a := by
  have h : ∃ b, dump b = dump a := ⟨a, rfl⟩
  unfold loadsAs
  rw [dif_pos h, hdump h.choose_spec]

/-- `json.dumps` and `json.loads`. -/
noncomputable def snapshotJson : SnapshotCodec where
  dumpLocales codes := Json.dumps Json.constants (localesJson codes)
  loadLocales := loadsAs fun codes => Json.dumps Json.constants (localesJson codes)
  dumpBuckets buckets := Json.dumps Json.constants (bucketsJson buckets)
  loadBuckets := loadsAs fun buckets => Json.dumps Json.constants (bucketsJson buckets)
  load_dumpLocales := loadsAs_dump (Json.dumps_injective.comp localesJson_injective)
  load_dumpBuckets := loadsAs_dump (Json.dumps_injective.comp bucketsJson_injective)
  dumpLocales_ne codes h := by
    have hchars := congrArg String.toList h
    simp [Json.dumps, localesJson, Json.text] at hchars
  dumpBuckets_ne buckets h := by
    have hchars := congrArg String.toList h
    simp [Json.dumps, bucketsJson, Json.text] at hchars

theorem not_snapshotsWhole : ¬ SnapshotsWhole plainText snapshotJson (fun _ _ => True)
    (localesOpened englishDb 0) := snapshot_mixed snapshotJson

end NewlifeCore
