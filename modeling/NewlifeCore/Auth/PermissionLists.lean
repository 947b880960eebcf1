import NewlifeCore.Auth.Permissions
import NewlifeCore.Json
import Std.Data.String.ToNat
import NewlifeCore.Txn.ReadThrough

/-!
# The permission list of a locale, beside its writers

The list is a read-through cache that nobody invalidates: a request that changes it leaves what is
stored, and the lists about to be stored, behind.

* `listCache` makes the list of a locale an instance of the library's read-through caches, and
  `listCache_serves` says that of the calls `get_permission_list` reads through it and the others
  leave it alone, step for step.
* `OutdatesNoList` is a condition on single commits: where one changes a list, the list is not in
  Redis and no reader that has selected the old one is about to store it.
* The library's invariant says that what is stored, or about to be, is the list of the committed
  database.  A commit under the condition keeps it, since nothing stored is touched by the change;
  every other step keeps it without a condition.  `permissionLists_current` reads off what a call
  that begins after a commit returns.
* §4 has the two sides: a run whose commits all change a list that is not stored, and a deletion
  that comes after the list was read (`deletion_not_listed`), for every codec of the texts.
-/

namespace NewlifeCore.Auth

open Txn PermissionRepository

variable (codec : ListCodec)

/-! ## 1. The cache -/

namespace Redis

variable {r : Redis} {t t' : Int} {key key' : RedisKey} {seconds : Int} {text text' : String}

theorem get_setex_self (h : (r.setex t key seconds text).get t' key = some text') :
    text' = text := by
  unfold get entry setex at h
  rw [put_self] at h
  simp only [Option.filter] at h
  split at h
  · exact (Option.some.inj h).symm
  · cases h

theorem get_setex_other (h : key' ≠ key) :
    (r.setex t key seconds text).get t' key' = r.get t' key' := by
  unfold get entry setex
  rw [put_other _ h]

/-- An entry that is there later is there now. -/
theorem get_later (ht : t ≤ t') (h : r.get t' key = some text) : r.get t key = some text := by
  unfold get at h ⊢
  obtain ⟨e, he, htext⟩ := Option.bind_eq_some_iff.mp h
  obtain ⟨hkey, halive⟩ := Option.filter_eq_some_iff.mp he
  refine Option.bind_eq_some_iff.mpr ⟨e, Option.filter_eq_some_iff.mpr ⟨hkey, ?_⟩, htext⟩
  cases hx : e.expireAt with
  | none => rfl
  | some x =>
    rw [hx] at halive
    have hlt : t' < x := of_decide_eq_true halive
    exact decide_eq_true (lt_of_le_of_lt ht hlt)

end Redis

/-- What a call of the permission service returns. -/
inductive PermissionAnswer
  | done
  | created (permissionId : UUID)
  | list (items : List PermissionListItem)

/-- What `get_permission_list` makes of what Redis has. -/
def ListCodec.read (cached : Option String) : Option (Except AuthError (List PermissionListItem)) :=
  (cached.filter fun text => text ≠ "").map codec.validate

/-- **The list of a locale, cached**. -/
def listCache : ReadThrough Db Redis AuthError UUID (Option String) (List PermissionListItem)
    PermissionAnswer where
  peek localeId r t := r.get t (.permissionList localeId)
  decode := codec.read
  view localeId db := localeList db localeId
  fill localeId items r t :=
    r.setex t (.permissionList localeId) PermissionCache.month (codec.dump items)
  answer := .list
  lookup_fill {k a s t t' r} h := by
    obtain ⟨text, htext, rfl⟩ := Option.map_eq_some_iff.mp h
    rw [Redis.get_setex_self (Option.filter_eq_some_iff.mp htext).1]
    exact codec.validate_dump a
  lookup_other h := Redis.get_setex_other fun heq => h (RedisKey.permissionList.inj heq)
  lookup_later {k s t t' r} ht h := by
    obtain ⟨text, htext, rfl⟩ := Option.map_eq_some_iff.mp h
    obtain ⟨hget, hne⟩ := Option.filter_eq_some_iff.mp htext
    exact Option.map_eq_some_iff.mpr
      ⟨text, Option.filter_eq_some_iff.mpr ⟨Redis.get_later ht hget, hne⟩, rfl⟩

/-! ## 2. Calls -/

/-- A call of the permission service. -/
inductive PermissionCall
  | create (permissionId : UUID) (command : PermissionCommand)
  | update (permissionId : UUID) (command : PermissionCommand)
  | delete (permissionId : UUID) (command : DeleteCommand)
  | restore (permissionIds : List UUID)
  | list (localeId : Option UUID)

namespace PermissionCall

/-- What runs a call. -/
def body : PermissionCall → AuthScript PermissionAnswer
  | .create permissionId command =>
    Script.query ((PermissionService.createPermission permissionId command).bind fun id =>
      pure (.created id))
  | .update permissionId command =>
    Script.query ((PermissionService.updatePermission permissionId command).bind fun _ => pure .done)
  | .delete permissionId command =>
    Script.query ((PermissionService.deletePermission permissionId command).bind fun _ => pure .done)
  | .restore permissionIds =>
    Script.query ((PermissionService.restorePermission permissionIds).bind fun _ => pure .done)
  | .list localeId =>
    (PermissionService.getPermissionList codec localeId).bind fun items => pure (.list items)

/-- The locale whose list is asked for. -/
def locale : PermissionCall → Option UUID
  | .list localeId => localeId
  | _ => none

/-- The four requests that change permissions. -/
def Writes : PermissionCall → Prop
  | .list _ => False
  | _ => True

end PermissionCall

/-- `get_permission_list` reads through the cache, and the other calls leave it alone. -/
theorem listCache_serves :
    (listCache codec).Serves (PermissionCall.body codec) PermissionCall.locale := by
  constructor
  · intro call localeId h
    cases call with
    | list asked =>
      obtain rfl : asked = some localeId := h
      refine congrArg (Script.command _) (funext fun cached => ?_)
      show _ = (listCache codec).afterLookup localeId (codec.read cached)
      dsimp only [ListCodec.read, Script.bind]
      cases cached.filter fun text => text ≠ "" with
      | none => rfl
      | some text =>
        dsimp only [Option.map, ReadThrough.afterLookup]
        cases codec.validate text <;> rfl
    | _ => cases h
  · intro call h
    cases call with
    | list asked =>
      obtain rfl : asked = none := h
      trivial
    | _ => exact ReadThrough.silent_query _

/-! ## 3. Runs -/

abbrev PermissionDesk := Desk Db RowName Redis AuthError PermissionAnswer PermissionCall

/-- Any database, an empty Redis and nobody there. -/
def opened (db : Db) (clock : Int) : PermissionDesk where
  db
  store := Redis.empty
  clock

/-- One of the four requests commits as it ends. -/
def Commits (s : PermissionDesk) (m : Nat) (s' : PermissionDesk) : Prop :=
  ∃ v answer, s.visits m = some v ∧ v.label.Writes ∧ v.script = .ret answer ∧
    s.step (PermissionCall.body codec) (.finish m) = some s'

/-- **Every list asked for after a commit is that of a state at least as new**, in the runs whose
turns meet `ok`.  Requests are numbered as they begin, so those begun after the commit have the
numbers from `next` on; the state is one that the turns since the commit have passed. -/
def ListsCurrent (ok : PermissionDesk → Turn PermissionCall → Prop) (s₀ : PermissionDesk) : Prop :=
  ∀ s m sc turns s' n v localeId r, Desk.Run (PermissionCall.body codec) ok s₀ s →
    ok s (.finish m) → Commits codec s m sc →
    Desk.Follows (PermissionCall.body codec) ok sc turns s' → sc.next ≤ n →
    s'.visits n = some v → v.label = .list (some localeId) → v.script.result = some r →
    ∃ before, before <+: turns ∧ ∃ s₁, Desk.Follows (PermissionCall.body codec) ok sc before s₁ ∧
      r = .ok (.list (localeList s₁.db localeId))

/-- **A commit outdates no list**: a list that it changes is not in Redis, and no call that has read
the old one is about to put it there. -/
def OutdatesNoList (s : PermissionDesk) (a : Turn PermissionCall) : Prop :=
  ReadThrough.OutdatesNothing (listCache codec) PermissionCall.locale s a

/-- **The lists are current as long as no commit outdates one.** -/
theorem permissionLists_current (db : Db) (clock : Int) :
    ListsCurrent codec (OutdatesNoList codec) (opened db clock) := by
  rintro s m sc turns s' n v localeId r hrun hok ⟨w, answer, hw, -, hret, hstep⟩ hturns hn hv hlabel
    hr
  have hserves := listCache_serves codec
  have hidle : ReadThrough.Fresh (listCache codec) PermissionCall.locale (opened db clock) :=
    .idle (fun _ => rfl) fun _ => rfl
  have hfresh : ReadThrough.Fresh (listCache codec) PermissionCall.locale sc :=
    (hidle.run hserves hrun).step hserves hok hstep
  have hlocale : v.label.locale = some localeId := by rw [hlabel]; rfl
  exact ReadThrough.reads_follow hserves hfresh hturns hn hv hlocale hr

/-! ## 4. A deleted permission in the list -/

/-- One permission, named in one locale. -/
def onePermission : Db where
  permissions := [{ id := 1, code := "files:read", verbId := 1, resourceId := 1 }]
  permissionTranslations := [{ permissionId := 1, localeId := 7, name := "Read files" }]

/-- The list is read and stored; then the permission is deleted. -/
def listedThenDeleted : List (Turn PermissionCall) :=
  [.begin (.list (some 7)), .act 0, .act 0, .act 0, .finish 0,
    .begin (.delete 1 {}), .act 1]

/-- A later call. -/
def listedAgain : List (Turn PermissionCall) := [.begin (.list (some 7)), .act 2]

def listedItem : PermissionListItem where
  id := 1
  name := "Read files"
  code := "files:read"
  resourceId := 1
  verbId := 1

variable {codec}

theorem ListCodec.read_dump (items : List PermissionListItem) :
    codec.read (some (codec.dump items)) = some (.ok items) := by
  simp [ListCodec.read, Option.filter, codec.dump_ne, codec.validate_dump]

/-- The body of a call, as the cache has it. -/
def PermissionCall.served (codec : ListCodec) (call : PermissionCall) :
    AuthScript PermissionAnswer :=
  match call.locale with
  | some localeId => (listCache codec).reader localeId
  | none => call.body codec

theorem body_eq_served (codec : ListCodec) :
    PermissionCall.body codec = PermissionCall.served codec := by
  funext call
  unfold PermissionCall.served
  split
  · exact (listCache_serves codec).reader call _ ‹_›
  · rfl

/-- The deletion as it ends, the list after it and the two turns that follow, and what the second
call returns. -/
theorem listed_twice (codec : ListCodec) :
    ((Desk.replay (PermissionCall.served codec) (opened onePermission 0)
        listedThenDeleted).bind fun s =>
      (s.step (PermissionCall.served codec) (.finish 1)).bind fun sc =>
        (sc.step (PermissionCall.served codec) (.begin (.list (some 7)))).bind fun s₁ =>
          (s₁.step (PermissionCall.served codec) (.act 2)).map fun s' =>
            ((s.visits 1).map fun v => (v.label, v.script), sc.next,
              (localeList sc.db 7, localeList s₁.db 7, localeList s'.db 7),
              (s'.visits 2).map fun v => (v.label, v.script.result))) =
    some (some (.delete 1 {}, .ret .done), 2, ([], [], []), some (.list (some 7),
      ((listCache codec).afterLookup 7 (codec.read (some (codec.dump [listedItem])))).result)) := rfl

/-- **A deleted permission stays in the list**: the list of before is in Redis, and a call after the
deletion returns it. -/
theorem deletion_not_listed (codec : ListCodec) :
    ¬ ListsCurrent codec (fun _ _ => True) (opened onePermission 0) := by
  intro h
  unfold ListsCurrent at h
  rw [body_eq_served codec] at h
  obtain ⟨s, hs, hrest⟩ := Option.bind_eq_some_iff.mp (listed_twice codec)
  obtain ⟨sc, hsc, hrest⟩ := Option.bind_eq_some_iff.mp hrest
  obtain ⟨s₁, hs₁, hrest⟩ := Option.bind_eq_some_iff.mp hrest
  obtain ⟨s', hs', hfacts⟩ := Option.map_eq_some_iff.mp hrest
  simp only [Prod.mk.injEq, codec.read_dump] at hfacts
  obtain ⟨hdeletion, hnext, ⟨hlist, hlist₁, hlist'⟩, hread⟩ := hfacts
  obtain ⟨w, hw, hlabelled⟩ := Option.map_eq_some_iff.mp hdeletion
  obtain ⟨v, hv, hlabel⟩ := Option.map_eq_some_iff.mp hread
  obtain ⟨hwlabel, hwscript⟩ := Prod.mk.inj hlabelled
  obtain ⟨hvlabel, hresult⟩ := Prod.mk.inj hlabel
  have hrun : Desk.Run (PermissionCall.served codec) (fun _ _ => True) (opened onePermission 0) s :=
    .of_replay (fun _ _ _ => trivial) .refl hs
  have hcommits : Commits codec s 1 sc :=
    ⟨w, .done, hw, hwlabel ▸ trivial, hwscript, body_eq_served codec ▸ hsc⟩
  have hturns : Desk.Follows (PermissionCall.served codec) (fun _ _ => True) sc listedAgain s' :=
    ⟨trivial, s₁, hs₁, trivial, s', hs', rfl⟩
  obtain ⟨before, hprefix, s₂, hs₂, hr⟩ := h s 1 sc listedAgain s' 2 v 7 _ hrun trivial hcommits
    hturns (Nat.le_of_eq hnext) hv hvlabel hresult
  -- whatever part of the two turns is taken, the list is empty
  have hempty : localeList s₂.db 7 = [] := by
    obtain ⟨rest, hrest⟩ := hprefix
    rcases before with _ | ⟨a, _ | ⟨b, _ | ⟨c, before⟩⟩⟩
    · exact hs₂ ▸ hlist
    · cases hrest
      obtain ⟨-, s₃, hstep, rfl⟩ := hs₂
      rw [hs₁] at hstep
      cases hstep
      exact hlist₁
    · cases hrest
      obtain ⟨-, s₃, hstep, -, s₄, hstep', rfl⟩ := hs₂
      rw [hs₁] at hstep
      cases hstep
      rw [hs'] at hstep'
      cases hstep'
      exact hlist'
    · cases hrest
  rw [hempty] at hr
  cases hr

/-! ### 4.1 A deletion that outdates nothing -/

/-- The permission is being deleted when a reader looks the list up and finds none. -/
def lookedUp : List (Turn PermissionCall) :=
  [.begin (.delete 1 {}), .act 0, .begin (.list (some 7)), .act 1]

/-- The reader selects, after the commit, and stores what it has found; then another one begins. -/
def listedAfter : List (Turn PermissionCall) :=
  [.act 1, .act 1, .begin (.list (some 7)), .act 2]

/-- Where the deletion ends: nothing is stored, and the reader has still to select. -/
theorem looked_up (codec : ListCodec) :
    (Desk.replay (PermissionCall.served codec) (opened onePermission 0) lookedUp).map (fun s =>
      (s.store, (s.visits 1).map fun v => v.script)) =
        some (Redis.empty, some ((listCache codec).missed 7)) := rfl

/-- Nobody else is there. -/
theorem looked_up_alone (codec : ListCodec) (n : Nat) :
    (Desk.replay (PermissionCall.served codec) (opened onePermission 0) lookedUp).map (fun s =>
      (s.visits (n + 2)).isNone) = some true := rfl

/-- What both readers return in the end, and whether the permission is deleted. -/
theorem listed_after (codec : ListCodec) :
    ((Desk.replay (PermissionCall.served codec) (opened onePermission 0) lookedUp).bind fun s =>
      (s.step (PermissionCall.served codec) (.finish 0)).bind fun sc =>
        (Desk.replay (PermissionCall.served codec) sc listedAfter).map fun s' =>
          (s'.db.permissions.map (·.isDeleted),
            (s'.visits 1).map fun v => v.script.result, (s'.visits 2).map fun v =>
              v.script.result)) =
      some ([true], some (some (.ok (.list []))), some
        ((listCache codec).afterLookup 7 (codec.read (some (codec.dump [])))).result) := rfl

/-- **A run that outdates no list**: a permission is deleted while a reader is at work, and that
reader and the next both return the list without it. -/
theorem outdatesNoList_run (codec : ListCodec) : ∃ s,
    Desk.Run (PermissionCall.body codec) (OutdatesNoList codec) (opened onePermission 0) s ∧
      s.db.permissions.map (·.isDeleted) = [true] ∧
      (s.visits 1).map (fun v => v.script.result) = some (some (.ok (.list []))) ∧
      (s.visits 2).map (fun v => v.script.result) = some (some (.ok (.list []))) := by
  rw [body_eq_served codec]
  obtain ⟨s, hs, hrest⟩ := Option.bind_eq_some_iff.mp (listed_after codec)
  obtain ⟨sc, hsc, hrest⟩ := Option.bind_eq_some_iff.mp hrest
  obtain ⟨s', hs', hfacts⟩ := Option.map_eq_some_iff.mp hrest
  simp only [Prod.mk.injEq, codec.read_dump] at hfacts
  have hlookup := looked_up codec
  rw [hs] at hlookup
  obtain ⟨hstore, hreader⟩ := Prod.mk.inj (Option.some.inj hlookup)
  have hends : OutdatesNoList codec s (.finish 0) := by
    rintro n v g ⟨⟩ hv hg localeId -
    refine ⟨?_, fun m w hw _ b hfilling => ?_⟩
    · unfold ReadThrough.lookup
      rw [hstore]
      rfl
    · rcases m with _ | _ | m
      · -- the deletion is at its end
        cases hv.symm.trans hw
        cases hg.symm.trans hfilling
      · -- the reader has still to select
        rw [hw] at hreader
        cases (Option.some.inj hreader).symm.trans hfilling
      · have halone := looked_up_alone codec m
        rw [hs] at halone
        rw [Option.map_some, hw] at halone
        cases halone
  have hbefore : Desk.Run (PermissionCall.served codec) (OutdatesNoList codec)
      (opened onePermission 0) s :=
    .of_replay (fun a ha => .of_ne_finish (by rintro n rfl; simp [lookedUp] at ha)) .refl hs
  exact ⟨s', .of_replay (fun a ha => .of_ne_finish (by rintro n rfl; simp [listedAfter] at ha))
    (hbefore.tail _ hends hsc) hs', hfacts⟩

/-! ### 4.2 With a codec -/

def optional : Option String → Json (Option Bool)
  | none => .leaf none
  | some s => .str s

def PermissionListItem.json (item : PermissionListItem) : Json (Option Bool) :=
  .obj [("id", .str (Nat.repr item.id)), ("name", .str item.name), ("code", .str item.code),
    ("is_active", .leaf (some item.isActive)), ("description", optional item.description),
    ("remark", optional item.remark), ("resource_id", .str (Nat.repr item.resourceId)),
    ("verb_id", .str (Nat.repr item.verbId))]

def listJson (items : List PermissionListItem) : Json (Option Bool) :=
  .obj [("items", .arr (items.map PermissionListItem.json))]

theorem optional_injective : Function.Injective optional := by
  rintro (_ | s) (_ | s') h <;> cases h <;> rfl

theorem PermissionListItem.json_injective : Function.Injective PermissionListItem.json := by
  rintro ⟨id, name, code, isActive, description, remark, resourceId, verbId⟩
    ⟨id', name', code', isActive', description', remark', resourceId', verbId'⟩ h
  simp only [json, Json.obj.injEq, List.cons.injEq, Prod.mk.injEq, Json.str.injEq, Json.leaf.injEq,
    Option.some.injEq, true_and, and_true] at h
  obtain ⟨hid, rfl, rfl, rfl, hdescription, hremark, hresource, hverb⟩ := h
  rw [Nat.repr_injective hid, optional_injective hdescription, optional_injective hremark,
    Nat.repr_injective hresource, Nat.repr_injective hverb]

theorem listJson_injective : Function.Injective listJson := by
  intro items items' h
  simp only [listJson, Json.obj.injEq, List.cons.injEq, Prod.mk.injEq, Json.arr.injEq, true_and,
    and_true] at h
  exact PermissionListItem.json_injective.list_map h

open Classical in
/-- The texts of `json.dumps`, read back as what they are the text of. -/
noncomputable def jsonCodec : ListCodec where
  dump items := Json.dumps Json.constants (listJson items)
  validate text :=
    if h : ∃ items, Json.dumps Json.constants (listJson items) = text then .ok h.choose
    else .error (.internal "validation error for PermissionListResult")
  validate_dump items := by
    have h : ∃ items', Json.dumps Json.constants (listJson items') =
        Json.dumps Json.constants (listJson items) := ⟨items, rfl⟩
    rw [dif_pos h, listJson_injective (Json.dumps_injective h.choose_spec)]
  dump_ne items h := by
    have hchars := congrArg String.toList h
    simp [Json.dumps, listJson, Json.text] at hchars

theorem permissionLists_not_current :
    ¬ ListsCurrent jsonCodec (fun _ _ => True) (opened onePermission 0) :=
  deletion_not_listed jsonCodec

end NewlifeCore.Auth
