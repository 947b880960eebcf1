import NewlifeCore.Auth.AccountRuns
import NewlifeCore.Auth.PortalSeparation
import NewlifeCore.Auth.SyncIsolation
import NewlifeCore.Exclusive

/-!
# One account per address

The column is unique as it is spelled, and the look-ups compare trimmed lower-case addresses.  An
address identifies an account as long as what is written or restored is found by its own look-up
and no other live account has it in another spelling.

`EmailIdentifies` is the property as the look-up sees it.  The invariant is `AddressesApart`, row by
row: no two live accounts have one address, and every live address is found by its own look-up;
over distinct ids the two say the same.  Section 2 has what each call of an administrator leaves
and, for an update and a restoration that return, the exact condition on the address under which
the accounts stay apart.  A creation needs none: it never returns, as `validate` refuses the empty
`last_name` that it gives.  Section 3 adds the sync, which looks an address up in its normal form
before it takes it for a new account, and sign-ins, which write no address, and concludes by
induction on the run.  The failing run is two colleagues of the directory of whom one is then given
the other's address in capitals.
-/

namespace NewlifeCore.Auth

open Txn Attempt

variable {db db' : Db} {t : Int}

/-! ## 1. Accounts apart -/

namespace AuthUser

def live (u : AuthUser) : Bool := !u.isDeleted

/-- Their addresses are equal but for case and surrounding spaces. -/
def SameAddress (maps : CaseMaps) (a b : AuthUser) : Prop :=
  ∃ e ∈ a.email, ∃ e' ∈ b.email, maps.normalize e = maps.normalize e'

theorem SameAddress.symm {maps : CaseMaps} {a b : AuthUser} (h : a.SameAddress maps b) :
    b.SameAddress maps a := by
  obtain ⟨e, he, e', he', heq⟩ := h
  exact ⟨e', he', e, he, heq.symm⟩

end AuthUser

section Addresses

variable (maps : CaseMaps)

/-- The look-up of an address finds the address itself. -/
def Findable (email : String) : Prop := email ≠ "" ∧ maps.sqlLower email = maps.normalize email

/-- **An address identifies one account**: at most one live account has it, and the look-up of a
live account's address returns that account. -/
def EmailIdentifies (db : Db) : Prop :=
  (∀ address, (db.users.filter fun u => !u.isDeleted &&
    u.email.any fun e => maps.normalize e = maps.normalize address).length ≤ 1) ∧
  ∀ u ∈ db.users, u.isDeleted = false → ∀ e ∈ u.email, ∀ t : Int,
    (UserRepository.getSensitiveByEmailWithoutProfile maps e).eval db t = .ok (some u)

/-- The same, row by row, with distinct ids. -/
structure AddressesApart (db : Db) : Prop where
  apart : Exclusive.Apart AuthUser.id AuthUser.live (AuthUser.SameAddress maps) db.users
  findable : ∀ u ∈ db.users, u.live = true → ∀ e ∈ u.email, Findable maps e

variable {maps}

theorem AddressesApart.same (h : SameAddresses db db') (hdb : AddressesApart maps db) :
    AddressesApart maps db' := by
  obtain ⟨f, hf, hdb'⟩ := h
  have hlive : ∀ u, (f u).live = u.live := fun u => congrArg (!·) (hf u).2.2
  constructor
  · rw [hdb']
    refine hdb.apart.rewrite (fun u => (hf u).1) fun u hu v hv hne hl hl' => ?_
    rw [hlive] at hl hl'
    intro hsame
    unfold AuthUser.SameAddress at hsame
    rw [(hf u).2.1, (hf v).2.1] at hsame
    exact hdb.apart.not_clash AuthUser.SameAddress.symm hu hv (Ne.symm hne) hl hl' hsame
  · intro u hu hl e he
    rw [hdb', List.mem_map] at hu
    obtain ⟨v, hv, rfl⟩ := hu
    rw [hlive] at hl
    exact hdb.findable v hv hl e ((hf v).2.1 ▸ he)

theorem emailMatches_iff {email : String} {u : AuthUser} :
    UserRepository.emailMatches maps email u = true ↔
      u.live = true ∧ ∃ e ∈ u.email, maps.sqlLower e = maps.normalize email := by
  unfold UserRepository.emailMatches AuthUser.live
  rw [Bool.and_eq_true]
  cases u.email <;> simp

theorem eq_of_length_le_one {α : Type} {a b : α} : ∀ {l : List α}, l.length ≤ 1 → a ∈ l → b ∈ l →
    a = b
  | [_], _, ha, hb => (List.mem_singleton.mp ha).trans (List.mem_singleton.mp hb).symm
  | _ :: _ :: _, h, _, _ => absurd h (by simp)

/-- Live rows with one address are one row. -/
theorem AddressesApart.unique (h : AddressesApart maps db) {u v : AuthUser} (hu : u ∈ db.users)
    (hv : v ∈ db.users) (hlu : u.live = true) (hlv : v.live = true) (hsame : u.SameAddress maps v) :
    u = v := by
  by_contra hne
  have hid : u.id ≠ v.id := fun hid => hne (List.inj_on_of_nodup_map h.apart.nodup hu hv hid)
  exact h.apart.not_clash AuthUser.SameAddress.symm hu hv hid hlu hlv hsame

theorem AddressesApart.lookup (h : AddressesApart maps db) {u : AuthUser} (hu : u ∈ db.users)
    (hl : u.live = true) {e : String} (he : e ∈ u.email) :
    UserRepository.sensitiveByEmailWithoutProfile maps db e = some u := by
  obtain ⟨hne, hlower⟩ := h.findable u hu hl e he
  have hmatch : UserRepository.emailMatches maps e u = true :=
    emailMatches_iff.mpr ⟨hl, e, he, hlower⟩
  unfold UserRepository.sensitiveByEmailWithoutProfile
  rw [if_neg hne]
  cases hfind : db.users.find? (UserRepository.emailMatches maps e) with
  | none => exact absurd hmatch (List.find?_eq_none.mp hfind u hu)
  | some v =>
    have hv := List.mem_of_find?_eq_some hfind
    obtain ⟨hlv, f, hf, hflower⟩ := emailMatches_iff.mp (List.find?_some hfind)
    have hfnorm : maps.normalize f = maps.normalize e :=
      (h.findable v hv hlv f hf).2.symm.trans hflower
    rw [h.unique hv hu hlv hl ⟨f, hf, e, he, hfnorm⟩]

theorem AddressesApart.identifies (h : AddressesApart maps db) : EmailIdentifies maps db := by
  constructor
  · intro address
    have hpair := (h.apart.filter fun u => !u.isDeleted &&
      u.email.any fun e => maps.normalize e = maps.normalize address).apart
    generalize hrows : (db.users.filter fun u => !u.isDeleted &&
      u.email.any fun e => maps.normalize e = maps.normalize address) = rows at hpair
    match rows, hrows, hpair with
    | [], _, _ => exact Nat.zero_le _
    | [_], _, _ => exact le_refl _
    | a :: b :: l, hrows, hpair =>
      have haddress : ∀ u ∈ a :: b :: l, u.live = true ∧
          ∃ e ∈ u.email, maps.normalize e = maps.normalize address := by
        intro u hu
        rw [← hrows, List.mem_filter, Bool.and_eq_true, Option.any_eq_true] at hu
        obtain ⟨-, hlive, e, he, heq⟩ := hu
        exact ⟨hlive, e, he, of_decide_eq_true heq⟩
      obtain ⟨hla, e, he, hea⟩ := haddress a List.mem_cons_self
      obtain ⟨hlb, f, hf, hfa⟩ := haddress b (List.mem_cons_of_mem _ List.mem_cons_self)
      have hclash : a.SameAddress maps b := ⟨e, he, f, hf, hea.trans hfa.symm⟩
      exact absurd hclash ((List.pairwise_cons.mp hpair).1 b List.mem_cons_self hla hlb)
  · intro u hu hdel e he t
    exact congrArg Except.ok (h.lookup hu (by simp [AuthUser.live, hdel]) he)

theorem EmailIdentifies.apart (hkeys : (db.users.map AuthUser.id).Nodup)
    (h : EmailIdentifies maps db) : AddressesApart maps db := by
  have hlive : ∀ {u : AuthUser}, u.live = true → u.isDeleted = false := fun h => by
    simpa [AuthUser.live] using h
  refine ⟨⟨hkeys, ?_⟩, fun u hu hl e he => ?_⟩
  · refine (List.Nodup.of_map _ hkeys).pairwise_of_forall_ne fun u hu v hv hne hlu hlv hsame => ?_
    obtain ⟨e, he, f, hf, heq⟩ := hsame
    have hmem : ∀ w ∈ db.users, w.live = true → ∀ g ∈ w.email,
        maps.normalize g = maps.normalize f → w ∈ db.users.filter fun u => !u.isDeleted &&
          u.email.any fun e => maps.normalize e = maps.normalize f := by
      intro w hw hlw g hg hgf
      refine List.mem_filter.mpr ⟨hw, Bool.and_eq_true_iff.mpr ⟨hlw, ?_⟩⟩
      rw [Option.any_eq_true]
      exact ⟨g, hg, decide_eq_true hgf⟩
    exact hne (eq_of_length_le_one (h.1 f) (hmem u hu hlu e he heq) (hmem v hv hlv f hf rfl))
  · have hlook : UserRepository.sensitiveByEmailWithoutProfile maps db e = some u :=
      Except.ok.inj (h.2 u hu (hlive hl) e he 0)
    unfold UserRepository.sensitiveByEmailWithoutProfile at hlook
    split at hlook
    · cases hlook
    · rename_i hne
      obtain ⟨-, f, hf, hlower⟩ := emailMatches_iff.mp (List.find?_some hlook)
      cases hf.symm.trans he
      exact ⟨hne, hlower⟩

/-! ## 2. The calls of an administrator -/

namespace AdminUserService

theorem sameKey_email {a b : AuthUser} {e : String} (hb : b.email = some e)
    (h : UserRepository.sameKey a b = false) : a.email ≠ some e := by
  intro ha
  simp [UserRepository.sameKey, ha, hb] at h

/-- **A creation raises**, if for nothing else then for the last name it gives. -/
theorem createUser_raises (userId : UUID) (command : CreateAdminUserCommand) :
    (discard (createUser userId command)).exec db t ≠ .ok ((), db') := by
  intro h
  obtain ⟨_, db₁, h, -⟩ := Prog.exec_bind_ok h
  obtain ⟨_, -, h⟩ := (Prog.exec_reads_iff (.raiseIf _ _)).mp h
  obtain ⟨_, -, h⟩ := (Prog.exec_reads_iff (.raiseIf _ _)).mp h
  obtain ⟨_, db₂, -, h⟩ := Prog.exec_bind_ok (Prog.exec_mapError_ok.mp h)
  obtain ⟨_, db₃, hprofile, -⟩ := Prog.exec_bind_ok h
  exact UserRepository.insertUserProfile_named hprofile rfl

/-- What an update leaves. -/
theorem updateUser_exec {userId : UUID} {command : UpdateAdminUserCommand}
    (h : (updateUser userId command).exec db t = .ok ((), db')) :
    ((∃ u ∈ db.users, u.id = userId) → command.email ≠ "" → ∀ v ∈ db.users, v.id ≠ userId →
        v.email ≠ some command.email) ∧
      db'.users = db.users.map fun u =>
        if decide (u.id = userId) then UserRepository.updatedUser command u else u := by
  obtain ⟨_, db₁, hrow, h⟩ := Prog.exec_bind_ok (Prog.exec_mapError_ok.mp h)
  obtain ⟨c, hc, rfl⟩ := Prog.exec_executed h
  have hc' : (c.apply db₁).users = db₁.users := by
    split_ifs at hc
    cases hc
    rfl
  obtain ⟨c₁, hc₁, rfl⟩ := Prog.exec_executed hrow
  rw [hc']
  dsimp only at hc₁
  split at hc₁
  · cases hc₁
  · split at hc₁
    · cases hc₁
    · rename_i hunique
      cases hc₁
      refine ⟨?_, congrArg Db.users (Table.update_self userTable)⟩
      rintro ⟨u, hu, hid⟩ hempty v hv hne hemail
      apply hunique
      rw [Bool.and_eq_true, List.any_eq_true, List.any_eq_true]
      refine ⟨⟨u, hu, decide_eq_true hid⟩, v, hv, ?_⟩
      have hsame : UserRepository.sameKey v (UserRepository.updatedUser command { id := userId }) =
          true := by
        simp only [UserRepository.sameKey, UserRepository.updatedUser, hemail,
          UserRepository.emptyAsNull_some hempty, Option.isSome_some, decide_true, Bool.and_self,
          Bool.true_or]
      rw [hsame, Bool.and_true]
      exact decide_eq_true hne

theorem deleteUser_exec {userId : UUID} {command : DeleteCommand}
    (h : (deleteUser userId command).exec db t = .ok ((), db')) :
    db'.users = db.users.map fun u => if decide (u.id = userId) then
      { u with isDeleted := true, deleteReason := command.reason } else u := by
  cases h
  exact congrArg Db.users (Table.update_self userTable)

theorem restoreUser_exec {ids : List UUID} (h : (restoreUser ids).exec db t = .ok ((), db')) :
    db'.users = db.users.map fun u => if decide (u.id ∈ ids) then
      { u with isDeleted := false, deleteReason := none } else u := by
  obtain ⟨_, -, h⟩ := (Prog.exec_reads_iff (.raiseIf _ _)).mp h
  cases h
  exact congrArg Db.users (Table.update_self userTable)

end AdminUserService

variable (maps)

/-- No live account has the address in another spelling. -/
def OtherwiseUnused (db : Db) (p : AuthUser → Prop) (email : String) : Prop :=
  ∀ v ∈ db.users, p v → v.live = true → ∀ e ∈ v.email,
    maps.normalize e = maps.normalize email → e = email

/-- **What a call writes or restores fits**: the look-up finds the address, and no other live
account has it in another spelling.  An empty address is stored as NULL. -/
def AddressFits (w : World Db Redis) (_ : Int) : AccountCall → Prop
  | .updateUser userId command => command.email ≠ "" →
    (∃ u ∈ w.db.users, u.id = userId ∧ u.live = true) →
      Findable maps command.email ∧ OtherwiseUnused maps w.db (fun v => v.id ≠ userId) command.email
  | .restoreUser ids => ∀ u ∈ w.db.users, u.id ∈ ids → (∀ e ∈ u.email, Findable maps e) ∧
    ∀ v ∈ w.db.users, v.id ≠ u.id → v.live = true ∨ v.id ∈ ids → ¬ u.SameAddress maps v
  | _ => True

variable {maps} {w : World Db Redis}

theorem updatedUser_email {command : UpdateAdminUserCommand} {u : AuthUser} {e : String} :
    e ∈ (UserRepository.updatedUser command u).email ↔ command.email ≠ "" ∧ e = command.email := by
  show e ∈ UserRepository.emptyAsNull (some command.email) ↔ _
  rw [UserRepository.mem_emptyAsNull]
  constructor
  · rintro ⟨⟨⟩, hne⟩
    exact ⟨hne, rfl⟩
  · rintro ⟨hne, rfl⟩
    exact ⟨rfl, hne⟩

/-- **An update keeps addresses apart exactly when its address fits.** -/
theorem updateUser_apart_iff {userId : UUID} {command : UpdateAdminUserCommand}
    (h : AddressesApart maps w.db)
    (hexec : (AdminUserService.updateUser userId command).exec w.db t = .ok ((), db')) :
    AddressesApart maps db' ↔ AddressFits maps w t (.updateUser userId command) := by
  obtain ⟨hunique, hdb⟩ := AdminUserService.updateUser_exec hexec
  constructor
  · rintro h' hempty ⟨u, hu, hid, hl⟩
    have hemail := updatedUser_email (u := u).mpr ⟨hempty, rfl⟩
    have hmem : UserRepository.updatedUser command u ∈ db'.users := by
      rw [hdb]
      exact List.mem_map.mpr ⟨u, hu, by simp [hid]⟩
    refine ⟨h'.findable _ hmem hl _ hemail, fun v hv hne hlv e he heq => ?_⟩
    have hv' : v ∈ db'.users := by
      rw [hdb]
      exact List.mem_map.mpr ⟨v, hv, by simp [hne]⟩
    have hsame : v.SameAddress maps (UserRepository.updatedUser command u) :=
      ⟨e, he, command.email, hemail, heq⟩
    have hids : v.id ≠ (UserRepository.updatedUser command u).id := fun h => hne (h.trans hid)
    exact absurd hsame (h'.apart.not_clash AuthUser.SameAddress.symm hv' hmem hids hlv hl)
  · intro hfits
    constructor
    · rw [hdb]
      refine h.apart.rewriteOne AuthUser.SameAddress.symm (k := userId) (by simp) (fun _ => rfl)
        fun u hu hid hl v hv hne hlv hsame => ?_
      have hid : u.id = userId := by simpa using hid
      obtain ⟨e, he, f, hf, heq⟩ := hsame
      obtain ⟨hempty, rfl⟩ := updatedUser_email.mp hf
      have hspelling := (hfits hempty ⟨u, hu, hid, hl⟩).2 v hv hne hlv e he heq
      exact hunique ⟨u, hu, hid⟩ hempty v hv hne (hspelling ▸ he)
    · intro u hu hl e he
      rw [hdb, List.mem_map] at hu
      obtain ⟨v, hv, rfl⟩ := hu
      by_cases hid : v.id = userId
      · simp only [hid, decide_true, if_true] at hl he
        obtain ⟨hempty, rfl⟩ := updatedUser_email.mp he
        exact (hfits hempty ⟨v, hv, hid, hl⟩).1
      · simp only [hid, decide_false, Bool.false_eq_true, if_false] at hl he
        exact h.findable v hv hl e he

theorem deleteUser_apart {userId : UUID} {command : DeleteCommand} (h : AddressesApart maps db)
    (hexec : (AdminUserService.deleteUser userId command).exec db t = .ok ((), db')) :
    AddressesApart maps db' := by
  have hdb := AdminUserService.deleteUser_exec hexec
  constructor
  · rw [hdb]
    exact h.apart.retire AuthUser.SameAddress.symm (k := userId) (by simp) (fun _ => rfl)
      fun _ => rfl
  · intro u hu hl e he
    rw [hdb, List.mem_map] at hu
    obtain ⟨v, hv, rfl⟩ := hu
    by_cases hid : v.id = userId
    · simp only [hid, decide_true, if_true] at hl
      cases hl
    · simp only [hid, decide_false, Bool.false_eq_true, if_false] at hl he
      exact h.findable v hv hl e he

/-- The account as a restoration of `ids` leaves it. -/
def restoredIn (ids : List UUID) (u : AuthUser) : AuthUser :=
  if decide (u.id ∈ ids) then { u with isDeleted := false, deleteReason := none } else u

theorem restoredIn_id (ids : List UUID) (u : AuthUser) : (restoredIn ids u).id = u.id := by
  unfold restoredIn
  split <;> rfl

theorem restoredIn_email (ids : List UUID) (u : AuthUser) : (restoredIn ids u).email = u.email := by
  unfold restoredIn
  split <;> rfl

theorem restoredIn_live {ids : List UUID} {u : AuthUser} :
    (restoredIn ids u).live = true ↔ u.live = true ∨ u.id ∈ ids := by
  by_cases hu : u.id ∈ ids <;> simp [restoredIn, hu, AuthUser.live]

theorem restoredIn_sameAddress {ids : List UUID} {u v : AuthUser} :
    (restoredIn ids u).SameAddress maps (restoredIn ids v) ↔ u.SameAddress maps v := by
  unfold AuthUser.SameAddress
  rw [restoredIn_email, restoredIn_email]

/-- **A restoration keeps addresses apart exactly when what it restores fits.** -/
theorem restoreUser_apart_iff {ids : List UUID} (h : AddressesApart maps w.db)
    (hexec : (AdminUserService.restoreUser ids).exec w.db t = .ok ((), db')) :
    AddressesApart maps db' ↔ AddressFits maps w t (.restoreUser ids) := by
  have hdb : db'.users = w.db.users.map (restoredIn ids) := AdminUserService.restoreUser_exec hexec
  have hmem : ∀ u ∈ w.db.users, restoredIn ids u ∈ db'.users := fun u hu => by
    rw [hdb]
    exact List.mem_map_of_mem hu
  constructor
  · intro h' u hu hid
    have hlive : (restoredIn ids u).live = true := restoredIn_live.mpr (.inr hid)
    refine ⟨fun e he => h'.findable _ (hmem u hu) hlive e ?_, fun v hv hne hlv hsame => ?_⟩
    · rwa [restoredIn_email]
    · have hids : (restoredIn ids u).id ≠ (restoredIn ids v).id := by
        rw [restoredIn_id, restoredIn_id]
        exact Ne.symm hne
      exact h'.apart.not_clash AuthUser.SameAddress.symm (hmem u hu) (hmem v hv) hids hlive
        (restoredIn_live.mpr hlv) (restoredIn_sameAddress.mpr hsame)
  · intro hfits
    have hfits : ∀ u ∈ w.db.users, u.id ∈ ids → (∀ e ∈ u.email, Findable maps e) ∧
      ∀ v ∈ w.db.users, v.id ≠ u.id → v.live = true ∨ v.id ∈ ids → ¬ u.SameAddress maps v := hfits
    constructor
    · rw [hdb]
      refine h.apart.rewrite (restoredIn_id ids) fun u hu v hv hne hl hl' hclash => ?_
      have hclash : u.SameAddress maps v := restoredIn_sameAddress.mp hclash
      rcases restoredIn_live.mp hl with hlu | hiu
      · rcases restoredIn_live.mp hl' with hlv | hiv
        · exact h.apart.not_clash AuthUser.SameAddress.symm hu hv (Ne.symm hne) hlu hlv hclash
        · exact (hfits v hv hiv).2 u hu (Ne.symm hne) (.inl hlu) hclash.symm
      · exact (hfits u hu hiu).2 v hv hne (restoredIn_live.mp hl') hclash
    · intro u hu hl e he
      rw [hdb, List.mem_map] at hu
      obtain ⟨v, hv, rfl⟩ := hu
      rw [restoredIn_email] at he
      rcases restoredIn_live.mp hl with hlv | hiv
      · exact h.findable v hv hlv e he
      · exact (hfits v hv hiv).1 e he

/-! ## 3. Runs -/

theorem AddressesApart.sameIdentities (h : SameIdentities db db') (hdb : AddressesApart maps db) :
    AddressesApart maps db' := hdb.same h.1

/-- Writing a link. -/
theorem upsert_apart (rowId userId : UUID) (provider : ThirdPartyProvider) (providerUid : String)
    (tenantId : UUID) :
    Attempt.Keeps t (Holds (AddressesApart maps)) (method (UserRepository.upsertAuthUserThirdParty
      rowId userId provider providerUid tenantId) : AuthAttempt Unit)
      (fun _ => Holds (AddressesApart maps)) (Holds (AddressesApart maps)) :=
  .frame (R := SameAddresses) (fun _ => .of_eq rfl) SameAddresses.trans AddressesApart.same
    (UserRepository.upsertAuthUserThirdParty_writes _ _ _ _ _)

theorem createDirectoryUser_apart {userId : UUID} {email : String} {verified isActive isAdmin : Bool}
    {firstName lastName : String} {preferredName : Option String} (h : AddressesApart maps db)
    (hne : email ≠ "") (hnorm : maps.normalize email = email)
    (hnone : UserRepository.sensitiveByEmailWithoutProfile maps db email = none)
    (hexec : (UserRepository.createDirectoryUser maps userId email verified isActive isAdmin firstName
      lastName preferredName).exec db t = .ok ((), db')) : AddressesApart maps db' := by
  obtain ⟨_, db₁, hinsert, hprofile⟩ := Prog.exec_bind_ok hexec
  obtain ⟨hfresh, rfl⟩ := UserRepository.insertUser_exec hinsert
  rw [UserRepository.insertUserProfile_exec hprofile]
  have hemail : UserRepository.emptyAsNull (some (maps.normalize email)) = some email := by
    rw [hnorm]
    exact UserRepository.emptyAsNull_some hne
  unfold UserRepository.sensitiveByEmailWithoutProfile at hnone
  rw [if_neg hne, List.find?_eq_none] at hnone
  constructor
  · refine h.apart.insert (fun r hr => (hfresh r hr).1) fun _ r hr hl hsame => ?_
    obtain ⟨e, he, f, hf, heq⟩ := hsame
    cases hemail.symm.trans hf
    refine hnone r hr (emailMatches_iff.mpr ⟨hl, e, he, ?_⟩)
    rw [(h.findable r hr hl e he).2, heq]
  · intro u hu hl e he
    rcases List.mem_append.mp hu with hu | hu
    · exact h.findable u hu hl e he
    · obtain rfl := List.mem_singleton.mp hu
      cases hemail.symm.trans he
      refine ⟨hne, ?_⟩
      rw [← hnorm, maps.sqlLower_normalize, hnorm, hnorm]

/-- The sync creates an account only for an address that no live account has. -/
theorem sync_apart : SyncKeeps maps t (AddressesApart maps) where
  frame := AddressesApart.sameIdentities
  linked _ _ _ _ := .conseq (upsert_apart _ _ _ _ _) (fun _ hs => ⟨hs.1.1, hs.2⟩) (fun _ _ h => h)
    fun _ h => h
  unlinked _ _ _ _ := .conseq (upsert_apart _ _ _ _ _) (fun _ hs => ⟨hs.1.1, hs.2⟩)
    (fun _ _ h => h) fun _ h => h
  created tenantId record draw email hne hnorm := by
    refine .bind (.step (K := fun _ => AddressesApart maps) fun db _ d hdb hexec => ?_)
      fun _ => upsert_apart _ _ _ _ _
    exact createDirectoryUser_apart hdb.1 hne hnorm hdb.2.2 hexec

theorem record_apart {oidc : MicrosoftOidcProvider} {linkId : UUID} {idToken : String}
    (h : AddressesApart maps db) :
    RecordKeeps maps oidc t (AddressesApart maps) db linkId idToken := by
  intro claims upn u _ _ _
  have hweaken : ∀ s : Moment Db Redis, During (SameIdentities db) (AddressesApart maps) s →
      Holds (AddressesApart maps) s := fun s hs => ⟨h.sameIdentities hs.1, hs.2⟩
  unfold MicrosoftAuthService.recordMicrosoftThirdPartyLogin
  split
  · exact .ret hweaken
  · exact .tryCatch (.conseq (upsert_apart _ _ _ _ _) hweaken (fun _ _ h => h) fun _ h => h)
      fun _ => .ret fun _ h => h

variable {oidc : MicrosoftOidcProvider} {settings : AuthSettings} {w₀ : World Db Redis}

/-- A request of several methods that starts from what was committed. -/
theorem serve_keeps {α : Type} {I : Db → Prop} {p : AuthAttempt α} (F : Faults AuthError)
    (h : I w.db) (hp : Attempt.Keeps t (During (fun db => db = w.db) I) p (fun _ => Holds I)
      (Holds I)) : I ((p.bind fun _ => Attempt.ret ()).serve F w t).2.db := by
  have hall := Attempt.Keeps.bind hp fun _ => .ret (Q := fun _ : Unit => Holds I) (a := ())
    fun _ h => h
  exact hall.serve (I := fun w => I w.db) F ⟨rfl, h⟩ (fun _ _ hs => hs.1) (fun _ _ hs => hs.2)
    fun _ hs => hs.2

/-- **One call keeps addresses apart**, whichever of its steps fail. -/
theorem AccountCall.addresses_step (c : AccountCall) (F : Faults AuthError)
    (h : AddressesApart maps w.db) (hfits : AddressFits maps w t c) :
    AddressesApart maps ((c.body maps oidc settings).serve F w t).2.db := by
  cases c with
  | createUser userId command =>
    exact Attempt.Keeps.serveMethod F h fun _ d hexec =>
      absurd hexec (AdminUserService.createUser_raises userId command)
  | updateUser userId command =>
    exact Attempt.Keeps.serveMethod F h fun _ d hexec => (updateUser_apart_iff h hexec).mpr hfits
  | deleteUser userId command =>
    exact Attempt.Keeps.serveMethod F h fun _ d hexec => deleteUser_apart h hexec
  | restoreUser ids =>
    exact Attempt.Keeps.serveMethod F h fun _ d hexec => (restoreUser_apart_iff h hexec).mpr hfits
  | directorySync syncSettings dryRun listing =>
    refine Attempt.Keeps.serveHolds (.bind (run_keeps sync_apart _ _ _) fun _ => ?_) F h
    exact .ret fun _ h => h
  | microsoftLogin ctx draw linkId idToken =>
    exact serve_keeps F h (microsoftLogin_keeps h AddressesApart.sameIdentities (record_apart h))
  | microsoftMemberLogin ctx draw linkId idToken registered =>
    exact serve_keeps F h (microsoftMemberLogin_keeps h AddressesApart.sameIdentities (record_apart h))

/-- **An address identifies one account** in every state that calls whose addresses fit lead to. -/
theorem email_identifies_account (hkeys : (w₀.db.users.map AuthUser.id).Nodup)
    (h₀ : EmailIdentifies maps w₀.db)
    (h : Served (AccountCall.body maps oidc settings) (AddressFits maps) w₀ w) :
    EmailIdentifies maps w.db :=
  (h.invariant (I := fun w => AddressesApart maps w.db) (h₀.apart hkeys)
    fun c F _ _ hI hok => c.addresses_step F hI hok).identifies

end Addresses

/-! ### 3.1 Two colleagues -/

/-- Two tokens of Ann's identity: its `upn` changed between them. -/
def renamedIdentity : MicrosoftOidcProvider where
  verifyIdToken token :=
    let upn := if token = "before" then "ann@efcnewlife.org" else "ben@efcnewlife.org"
    some { upn := some upn, oid := some "a", tid := some "000000000000000000000000000000ff" }

/-- Nothing is stored yet. -/
def emptyWorld : World Db Redis := ⟨{}, Redis.empty⟩

/-- A call none of whose steps fail. -/
def served (c : AccountCall) (w : World Db Redis) : World Db Redis :=
  ((c.body .ascii renamedIdentity plainSettings).serve (fun _ => none) w 0).2

/-- Ann and Ben are synced from the directory. -/
def twoAccounts : World Db Redis :=
  served (.directorySync MicrosoftUserSyncService.configured false
    MicrosoftUserSyncService.twoMembers) emptyWorld

/-- A verified user under an address. -/
def readdressed (email : String) : UpdateAdminUserCommand where
  email := email
  verified := true
  displayName := some "Ben"

theorem emptyWorld_identifies : EmailIdentifies .ascii emptyWorld.db :=
  ⟨fun _ => Nat.zero_le 1, fun _ hu => absurd hu List.not_mem_nil⟩

/-- Ben gets an address that nobody has. -/
theorem email_identifies_account_sample : EmailIdentifies .ascii
    (served (.updateUser 3 (readdressed "benedict@efcnewlife.org")) twoAccounts).db := by
  have hunused : ∀ v ∈ twoAccounts.db.users, v.id ≠ 3 → v.live = true → ∀ e ∈ v.email,
      CaseMaps.ascii.normalize e = CaseMaps.ascii.normalize "benedict@efcnewlife.org" →
        e = "benedict@efcnewlife.org" := by
    decide +kernel
  have hrun : Served (AccountCall.body .ascii renamedIdentity plainSettings) (AddressFits .ascii)
      emptyWorld (served (.updateUser 3 (readdressed "benedict@efcnewlife.org")) twoAccounts) :=
    .request _ _ 0 (.request _ _ 0 .refl trivial) fun _ _ =>
      ⟨⟨by decide, by decide +kernel⟩, hunused⟩
  have hkeys : (emptyWorld.db.users.map AuthUser.id).Nodup := List.nodup_nil
  exact email_identifies_account hkeys emptyWorld_identifies hrun

/-- **Two spellings of one address make two accounts**: Ben is given Ann's address with a capital. -/
theorem email_spellings_make_two_accounts : ¬ ∀ w,
    Served (AccountCall.body .ascii renamedIdentity plainSettings) (fun _ _ _ => True) emptyWorld w →
      EmailIdentifies .ascii w.db := by
  intro h
  have hrun : EmailIdentifies .ascii
      (served (.updateUser 3 (readdressed "Ann@efcnewlife.org")) twoAccounts).db :=
    h _ (.request _ _ 0 (.request _ _ 0 .refl trivial) trivial)
  have htwo := hrun.1 "ann@efcnewlife.org"
  revert htwo
  decide +kernel

end NewlifeCore.Auth
