import NewlifeCore.Auth.Accounts
import NewlifeCore.Auth.Roles
import NewlifeCore.Lists

/-!
# Updating a role

`update_role` and `assign_role_permissions` over the tables, with what refuses their statements: a
constraint of the database, or `Session.validate`, which sees the values of a statement of one row
before it is sent and refuses an empty or overlong code.  (The translations and the permissions go
in lists, whose values it does not see.)

The update is an upsert, which counts one row whether the role was there or not, and neither method
looks at `is_deleted`.  So the error for a role that is not there is never raised: an unknown id
makes a role, and a deleted one is changed like any other.

Section 4 has for each statement when it returns and what it leaves, section 5 the same for the
translations.  Section 6 names what refuses a call (`RoleUpdate.Refused`) and puts the statements
together; the two exits of a call, raised or returned, then give `changesItsRole_iff`.
-/

namespace NewlifeCore.Auth

open Txn Prog

/-! ## 1. `RoleRepository` -/

def Db.Grants (db : Db) (roleId permissionId : UUID) : Prop :=
  ∃ x ∈ db.rolePermissions, x.roleId = roleId ∧ x.permissionId = permissionId

instance (db : Db) (roleId permissionId : UUID) : Decidable (db.Grants roleId permissionId) :=
  inferInstanceAs (Decidable (∃ x ∈ db.rolePermissions, _))

def Db.HasRole (db : Db) (roleId : UUID) : Prop := ∃ r ∈ db.roles, r.id = roleId

instance (db : Db) (roleId : UUID) : Decidable (db.HasRole roleId) :=
  inferInstanceAs (Decidable (∃ r ∈ db.roles, _))

def Db.HasPermission (db : Db) (permissionId : UUID) : Prop :=
  ∃ p ∈ db.permissions, p.id = permissionId

instance (db : Db) (permissionId : UUID) : Decidable (db.HasPermission permissionId) :=
  inferInstanceAs (Decidable (∃ p ∈ db.permissions, _))

namespace RoleRepository

open UserRepository (uniqueViolation foreignKeyViolation valueTooLong emptyValue fits)

/-- The detail of a role, a deleted one too. -/
def getById (roleId : UUID) : AuthProg (Option Roles.RoleDetail) :=
  select fun db _ => (db.roles.find? fun r => r.id = roleId).map fun r =>
    { id := r.id, code := r.code, isActive := r.isActive, deleteReason := r.deleteReason
      permissions := ((db.permissions.map AuthPermission.id).filter fun x =>
        db.Grants roleId x).dedup }

def fetchActiveLocaleIds (localeIds : List UUID) : AuthProg (List UUID) :=
  ResourceRepository.fetchActiveLocaleIds localeIds

/-- `INSERT ... ON CONFLICT (id) DO UPDATE`. -/
def upsertRole (roleId : UUID) (code : String) (isActive : Bool) : AuthProg Nat :=
  executeCount fun db =>
    if code = "" then .error (emptyValue "code")
    else if ¬ fits 32 (some code) then .error valueTooLong
    else if db.roles.any fun r => r.code = code && r.id ≠ roleId then .error uniqueViolation
    else .ok (roleTable.upsert { id := roleId, code, isActive }
      (fun r => { r with code, isActive }) fun _ => rfl)

def upsertTranslation (row : AuthRoleTranslation) : AuthProg Unit :=
  execute fun db =>
    if ¬ (fits 64 (some row.name) ∧ fits 256 row.remark) then .error valueTooLong
    else if ¬ (db.HasRole row.roleId ∧ db.locales.any fun l => l.id = row.localeId) then
      .error foreignKeyViolation
    else .ok (roleTranslationTable.upsert row (fun t =>
      { t with name := row.name, description := row.description, remark := row.remark })
      fun _ => rfl)

/-- One statement may not write a row twice. -/
def upsertTranslations (rows : List AuthRoleTranslation) : AuthProg Unit :=
  if (rows.map AuthRoleTranslation.localeId).Nodup then each rows upsertTranslation
  else raise (.integrity "ON CONFLICT DO UPDATE command cannot affect row a second time")

/-- The rows that `ON CONFLICT DO NOTHING` leaves to be inserted. -/
def newPermissionIds (db : Db) (roleId : UUID) (permissionIds : List UUID) : List UUID :=
  (permissionIds.filter fun x => ¬ db.Grants roleId x).dedup

def insertRolePermissions (roleId : UUID) (permissionIds : List UUID) : AuthProg Unit :=
  if permissionIds.isEmpty then pure ()
  else execute fun db =>
    if ∀ x ∈ newPermissionIds db roleId permissionIds, db.HasRole roleId ∧ db.HasPermission x then
      .ok (rolePermissionTable.insert ((newPermissionIds db roleId permissionIds).map fun x =>
        { roleId, permissionId := x }))
    else .error foreignKeyViolation

def insertRolePermissionRows (roleId : UUID) (permissionIds : List UUID) : AuthProg Unit :=
  insertRolePermissions roleId permissionIds

end RoleRepository

/-! ## 2. `RoleService` -/

namespace RoleService

def roleNotFound (roleId : UUID) : AuthError := .notFound s!"Role {roleId} not found"

/-- `_get_role_audit_dict`. -/
def getRoleAuditDict (roleId : UUID) : AuthProg (Option Roles.RoleDetail) :=
  RoleRepository.getById roleId

def translationRows (roleId : UUID) (translations : List TranslationCommand) :
    List AuthRoleTranslation :=
  translations.map fun t => ⟨roleId, t.localeId, t.name, t.description, t.remark⟩

def validateAndUpsertTranslations (roleId : UUID) (translations : List TranslationCommand) :
    AuthProg Unit :=
  if translations.isEmpty then pure ()
  else do
    let localeIds := translations.map TranslationCommand.localeId
    let activeLocaleIds ← RoleRepository.fetchActiveLocaleIds localeIds
    raiseIf (activeLocaleIds.length ≠ localeIds.dedup.length)
      (.unprocessable "Invalid or inactive locale_id in translations")
    RoleRepository.upsertTranslations (translationRows roleId translations)

/-- What the database raised, as a response. -/
def toResponse : AuthError → AuthError
  | .integrity detail =>
    if .integrity detail = UserRepository.uniqueViolation then .conflict "Role code already exists"
    else .internal "Internal Server Error"
  | .internal _ => .internal "Internal Server Error"
  | e => e

/-- The statements of an update, inside its `try`. -/
def writeRole (roleId : UUID) (command : Roles.UpdateRoleCommand) (oldPermissionIds : List UUID) :
    AuthProg Unit := do
  let affected ← RoleRepository.upsertRole roleId command.code command.isActive
  validateAndUpsertTranslations roleId (command.translations.getD [])
  RoleRepository.insertRolePermissions roleId
    (command.permissions.dedup.filter fun x => x ∉ oldPermissionIds)
  RoleRepository.deleteRolePermissions roleId
    (oldPermissionIds.dedup.filter fun x => x ∉ command.permissions)
  raiseIf (affected = 0) (roleNotFound roleId)

def updateRole (roleId : UUID) (command : Roles.UpdateRoleCommand) : AuthProg Unit := do
  let _ ← getRoleAuditDict roleId
  let oldPermissionIds ← RoleRepository.fetchPermissionIdsForRole roleId
  (writeRole roleId command oldPermissionIds).mapError toResponse
  let _ ← getRoleAuditDict roleId
  pure ()

def writePermissions (roleId : UUID) (permissionIds originalPermissions : List UUID) :
    AuthProg Unit := do
  RoleRepository.insertRolePermissionRows roleId
    (permissionIds.filter fun x => x ∉ originalPermissions)
  RoleRepository.deleteRolePermissions roleId
    (originalPermissions.filter fun x => x ∉ permissionIds)

def assignRolePermissions (roleId : UUID) (command : Roles.AssignRolePermissionsCommand) :
    AuthProg Unit := do
  let originalPermissions ← RoleRepository.fetchPermissionIdsForRole roleId
  (writePermissions roleId command.permissionIds originalPermissions).mapError
    ResourceService.serverError

end RoleService

/-! ## 3. What an update is to do -/

/-- A role that is there and not deleted. -/
def Db.LiveRole (db : Db) (roleId : UUID) : Prop :=
  ∃ r ∈ db.roles, r.id = roleId ∧ r.isDeleted = false

/-- Nothing is changed but what belongs to one role: the other roles, their translations and their
permissions are as they were, and so are the bindings of the users. -/
structure RoleOnly (roleId : UUID) (db db' : Db) : Prop where
  otherRoles : db'.roles.filter (fun r => r.id ≠ roleId) = db.roles.filter fun r => r.id ≠ roleId
  otherTranslations : db'.roleTranslations.filter (fun x => x.roleId ≠ roleId) =
    db.roleTranslations.filter fun x => x.roleId ≠ roleId
  otherPermissions : db'.rolePermissions.filter (fun x => x.roleId ≠ roleId) =
    db.rolePermissions.filter fun x => x.roleId ≠ roleId
  userRoles : db'.userRoles = db.userRoles

/-- **Exactly one role is changed**: it was there, and has the permissions asked for. -/
structure RoleChanged (roleId : UUID) (permissionIds : List UUID) (db db' : Db) : Prop
    extends RoleOnly roleId db db' where
  live : db.LiveRole roleId
  permissions : ∀ x, db'.Grants roleId x ↔ x ∈ permissionIds

/-- The two methods that set the permissions of a role. -/
inductive RoleUpdate
  | update (command : Roles.UpdateRoleCommand)
  | assign (command : Roles.AssignRolePermissionsCommand)

namespace RoleUpdate

def run (roleId : UUID) : RoleUpdate → AuthProg Unit
  | update command => RoleService.updateRole roleId command
  | assign command => RoleService.assignRolePermissions roleId command

/-- The permissions asked for. -/
def requested : RoleUpdate → List UUID
  | update command => command.permissions
  | assign command => command.permissionIds

/-- **A call changes exactly its role, or raises and leaves every row as it was.** -/
def ChangesItsRole (call : RoleUpdate) (roleId : UUID) (db : Db) (t : Int) : Prop :=
  match (call.run roleId).exec db t with
  | .ok (_, db') => RoleChanged roleId call.requested db db'
  | .error _ => (call.run roleId).after db t = db

end RoleUpdate

/-! ## 4. The statements -/

variable {db db' : Db} {t : Int} {roleId : UUID}

namespace RoleRepository

open UserRepository (uniqueViolation foreignKeyViolation valueTooLong fits)

/-- An upsert of a role succeeds unless the code is refused, and is one row. -/
theorem upsertRole_returns {code : String} {isActive : Bool} :
    (∃ r, (upsertRole roleId code isActive).exec db t = .ok r) ↔
      code ≠ "" ∧ code.length ≤ 32 ∧ ∀ r ∈ db.roles, r.code = code → r.id = roleId := by
  unfold upsertRole
  rw [executeCount_ok_iff]
  constructor
  · rintro ⟨c, hc⟩
    split at hc
    · cases hc
    · rename_i hempty
      split at hc
      · cases hc
      · rename_i hfits
        split at hc
        · cases hc
        · rename_i hunique
          exact ⟨hempty, by simpa [fits] using hfits, fun r hr hcode => by_contra fun hid =>
            hunique (List.any_eq_true.mpr ⟨r, hr, by simp [hcode, hid]⟩)⟩
  · rintro ⟨hempty, hfits, hunique⟩
    rw [if_neg hempty, if_neg (by simpa [fits] using hfits), if_neg (by simpa using hunique)]
    exact ⟨_, rfl⟩

theorem upsertRole_spec {code : String} {isActive : Bool} {n : Nat}
    (h : (upsertRole roleId code isActive).exec db t = .ok (n, db')) :
    n = 1 ∧ ∃ roles, db' = { db with roles := roles } ∧ (∃ r ∈ roles, r.id = roleId) ∧
      roles.filter (fun r => r.id ≠ roleId) = db.roles.filter fun r => r.id ≠ roleId := by
  obtain ⟨c, hc, rfl, rfl⟩ := exec_executeCount_iff.mp h
  split_ifs at hc
  cases hc
  have hname : ∀ r : AuthRole, roleTable.name r = .role roleId → r.id = roleId := fun _ h =>
    RowName.role.inj h
  refine ⟨rfl, _, roleTable.upsert_apply _ _ _, ?_, ?_⟩
  · obtain ⟨r, hr, h⟩ := roleTable.exists_upserted { id := roleId, code, isActive }
      (fun r => { r with code, isActive }) (fun _ => rfl) db.roles
    exact ⟨r, hr, hname r h⟩
  · exact roleTable.filter_upserted (fun r h => by simp [hname r h]) fun _ => rfl

/-- What a translation needs to be stored. -/
def Storable (db : Db) (row : AuthRoleTranslation) : Prop :=
  row.name.length ≤ 64 ∧ (∀ remark ∈ row.remark, remark.length ≤ 256) ∧ db.HasRole row.roleId ∧
    ∃ l ∈ db.locales, l.id = row.localeId

theorem upsertTranslation_returns {row : AuthRoleTranslation} :
    (∃ r, (upsertTranslation row).exec db t = .ok r) ↔ Storable db row := by
  have hfits : (fits 64 (some row.name) ∧ fits 256 row.remark) ↔
      row.name.length ≤ 64 ∧ ∀ remark ∈ row.remark, remark.length ≤ 256 := by
    cases row.remark <;> simp [fits]
  have hlocale : (db.locales.any fun l => l.id = row.localeId) = true ↔
      ∃ l ∈ db.locales, l.id = row.localeId := by
    simp
  unfold upsertTranslation Storable
  rw [execute_ok_iff, ← and_assoc, ← hfits, ← hlocale]
  constructor
  · rintro ⟨c, hc⟩
    split at hc
    · cases hc
    · rename_i hfits
      split at hc
      · cases hc
      · rename_i hrefs
        exact ⟨not_not.mp hfits, not_not.mp hrefs⟩
  · rintro ⟨hfits, hrefs⟩
    rw [if_neg (not_not.mpr hfits), if_neg (not_not.mpr hrefs)]
    exact ⟨_, rfl⟩

theorem upsertTranslation_spec {row : AuthRoleTranslation}
    (h : (upsertTranslation row).exec db t = .ok ((), db')) :
    ∃ translations, db' = { db with roleTranslations := translations } ∧
      ∀ roleId, row.roleId = roleId → translations.filter (fun x => x.roleId ≠ roleId) =
        db.roleTranslations.filter fun x => x.roleId ≠ roleId := by
  obtain ⟨c, hc, rfl⟩ := exec_execute_iff.mp h
  split at hc
  · cases hc
  · split at hc
    · cases hc
    · cases hc
      refine ⟨_, roleTranslationTable.upsert_apply _ _ _, ?_⟩
      rintro _ rfl
      exact roleTranslationTable.filter_upserted
        (fun x h => by simp [(RowName.roleTranslation.inj h).1]) fun _ => rfl

/-- The state differs in the translations of a role. -/
def TranslationsOf (roleId : UUID) (db db' : Db) : Prop :=
  ∃ translations, db' = { db with roleTranslations := translations } ∧
    translations.filter (fun x => x.roleId ≠ roleId) =
      db.roleTranslations.filter fun x => x.roleId ≠ roleId

theorem TranslationsOf.refl (roleId : UUID) (db : Db) : TranslationsOf roleId db db :=
  ⟨_, rfl, rfl⟩

theorem TranslationsOf.trans {a b c : Db} : TranslationsOf roleId a b → TranslationsOf roleId b c →
    TranslationsOf roleId a c := by
  rintro ⟨_, rfl, h₁⟩ ⟨_, rfl, h₂⟩
  exact ⟨_, rfl, h₂.trans h₁⟩

theorem upsertTranslation_exec {row : AuthRoleTranslation}
    (h : (upsertTranslation row).exec db t = .ok ((), db')) : TranslationsOf row.roleId db db' := by
  obtain ⟨translations, rfl, hother⟩ := upsertTranslation_spec h
  exact ⟨translations, rfl, hother _ rfl⟩

theorem each_upsertTranslation_exec : ∀ {rows : List AuthRoleTranslation} {db db' : Db},
    (∀ row ∈ rows, row.roleId = roleId) → (each rows upsertTranslation).exec db t = .ok ((), db') →
      TranslationsOf roleId db db'
  | [], db, _, _, h => by
    cases h
    exact .refl roleId db
  | row :: rows, _, _, hrows, h => by
    obtain ⟨⟨⟩, db₁, hrow, hrest⟩ := exec_bind_ok h
    rw [List.forall_mem_cons] at hrows
    exact (hrows.1 ▸ upsertTranslation_exec hrow).trans (each_upsertTranslation_exec hrows.2 hrest)

theorem each_upsertTranslation_returns : ∀ {rows : List AuthRoleTranslation} {db : Db},
    (∃ r, (each rows upsertTranslation).exec db t = .ok r) ↔ ∀ row ∈ rows, Storable db row
  | [], db => iff_of_true ⟨_, rfl⟩ fun _ h => nomatch h
  | row :: rows, db => by
    rw [List.forall_mem_cons]
    refine bind_ok_iff.trans ?_
    constructor
    · rintro ⟨⟨⟩, db₁, hrow, hrest⟩
      have hhere := upsertTranslation_returns.mp ⟨_, hrow⟩
      obtain ⟨_, rfl, -⟩ := upsertTranslation_exec hrow
      have hrest := each_upsertTranslation_returns.mp hrest
      exact ⟨hhere, hrest⟩
    · rintro ⟨hrow, hrest⟩
      obtain ⟨⟨⟨⟩, db₁⟩, hrow⟩ := upsertTranslation_returns.mpr hrow
      refine ⟨(), db₁, hrow, ?_⟩
      obtain ⟨_, rfl, -⟩ := upsertTranslation_exec hrow
      exact each_upsertTranslation_returns.mpr hrest

/-- The state differs in the permissions of a role. -/
def PermissionsOf (roleId : UUID) (db db' : Db) : Prop :=
  ∃ rolePermissions, db' = { db with rolePermissions := rolePermissions } ∧
    rolePermissions.filter (fun x => x.roleId ≠ roleId) =
      db.rolePermissions.filter fun x => x.roleId ≠ roleId

theorem mem_fetchPermissionIds {x : UUID} : x ∈ ((db.rolePermissions.filter fun x =>
    x.roleId = roleId).map AuthRolePermission.permissionId) ↔ db.Grants roleId x := by
  simp only [List.mem_map, List.mem_filter, decide_eq_true_eq, and_assoc]
  rfl

theorem mem_newPermissionIds {ids : List UUID} {x : UUID} :
    x ∈ newPermissionIds db roleId ids ↔ x ∈ ids ∧ ¬ db.Grants roleId x := by
  unfold newPermissionIds
  rw [List.mem_dedup, List.mem_filter, decide_eq_true_eq]

theorem insertRolePermissions_returns {ids : List UUID} :
    (∃ r, (insertRolePermissions roleId ids).exec db t = .ok r) ↔
      ∀ x ∈ ids, ¬ db.Grants roleId x → db.HasRole roleId ∧ db.HasPermission x := by
  simp only [← and_imp, ← mem_newPermissionIds]
  unfold insertRolePermissions
  split
  · rename_i hempty
    rw [List.isEmpty_iff.mp hempty]
    exact iff_of_true ⟨_, rfl⟩ fun _ h => nomatch h
  · rw [execute_ok_iff]
    constructor
    · rintro ⟨c, hc⟩
      by_contra hfalse
      rw [if_neg hfalse] at hc
      cases hc
    · intro h
      exact ⟨_, if_pos h⟩

theorem insertRolePermissions_spec {ids : List UUID}
    (h : (insertRolePermissions roleId ids).exec db t = .ok ((), db')) :
    PermissionsOf roleId db db' ∧ ∀ x, db'.Grants roleId x ↔ db.Grants roleId x ∨ x ∈ ids := by
  unfold insertRolePermissions at h
  split at h
  · rename_i hempty
    cases h
    rw [List.isEmpty_iff.mp hempty]
    exact ⟨⟨_, rfl, rfl⟩, fun x => by simp⟩
  · obtain ⟨c, hc, rfl⟩ := exec_execute_iff.mp h
    split at hc
    · cases hc
      refine ⟨⟨_, rfl, ?_⟩, fun x => ?_⟩
      · have hnew : ((newPermissionIds db roleId ids).map fun x =>
            ({ roleId, permissionId := x } : AuthRolePermission)).filter
              (fun x => x.roleId ≠ roleId) = [] := by
          simp [List.filter_eq_nil_iff]
        rw [List.filter_append, hnew, List.append_nil]
        rfl
      · show (∃ y ∈ db.rolePermissions ++ _, _) ↔ _
        simp only [List.mem_append, or_and_right, exists_or]
        refine or_congr_right' fun hx => ?_
        simp [mem_newPermissionIds, show ¬ db.Grants roleId x from hx]
    · cases hc

theorem deleteRolePermissions_exec {ids : List UUID} :
    (deleteRolePermissions roleId ids).exec db t = .ok ((), { db with
      rolePermissions := db.rolePermissions.filter fun x =>
        !(x.roleId = roleId && x.permissionId ∈ ids) }) := by
  unfold deleteRolePermissions
  split
  · rename_i hempty
    rw [List.isEmpty_iff.mp hempty, List.filter_eq_self.mpr (by simp)]
    rfl
  · rw [exec_execute rfl, rolePermissionTable.delete_self]
    rfl

theorem deleteRolePermissions_spec {ids : List UUID}
    (h : (deleteRolePermissions roleId ids).exec db t = .ok ((), db')) :
    PermissionsOf roleId db db' ∧ ∀ x, db'.Grants roleId x ↔ db.Grants roleId x ∧ x ∉ ids := by
  rw [deleteRolePermissions_exec] at h
  cases h
  refine ⟨⟨_, rfl, ?_⟩, fun x => ?_⟩
  · rw [List.filter_filter]
    exact List.filter_congr fun x _ => by
      by_cases hx : x.roleId = roleId <;> simp [hx]
  · unfold Db.Grants
    simp only [List.mem_filter]
    constructor
    · rintro ⟨y, ⟨hy, hkept⟩, rfl, rfl⟩
      exact ⟨⟨y, hy, rfl, rfl⟩, by simpa using hkept⟩
    · rintro ⟨⟨y, hy, rfl, rfl⟩, hx⟩
      exact ⟨y, ⟨hy, by simp [hx]⟩, rfl, rfl⟩

end RoleRepository

/-! ## 5. The translations -/

/-- A locale that translations may be in. -/
def Db.ActiveLocale (db : Db) (localeId : UUID) : Prop :=
  ∃ l ∈ db.locales, l.id = localeId ∧ l.isActive = true ∧ l.isDeleted = false

/-- **What refuses translations**: a locale given twice, one that is not active, or a text that its
column does not hold. -/
def TranslationsRefused (db : Db) (translations : List TranslationCommand) : Prop :=
  ¬ (translations.map TranslationCommand.localeId).Nodup ∨
    ∃ x ∈ translations, ¬ db.ActiveLocale x.localeId ∨ 64 < x.name.length ∨
      ∃ remark ∈ x.remark, 256 < remark.length

namespace RoleService

open RoleRepository

theorem activeLocaleIds_iff {ids : List UUID} :
    ((db.locales.filter fun l => l.id ∈ ids && l.isActive && !l.isDeleted).map
      SystemLocale.id).dedup.length = ids.dedup.length ↔ ∀ x ∈ ids, db.ActiveLocale x := by
  have hmem : ∀ x, x ∈ (db.locales.filter fun l => l.id ∈ ids && l.isActive &&
      !l.isDeleted).map SystemLocale.id ↔ x ∈ ids ∧ db.ActiveLocale x := by
    intro x
    simp only [List.mem_map, List.mem_filter, Bool.and_eq_true, decide_eq_true_eq,
      Bool.not_eq_true']
    constructor
    · rintro ⟨l, ⟨hl, ⟨hx, hactive⟩, hdeleted⟩, rfl⟩
      exact ⟨hx, l, hl, rfl, hactive, hdeleted⟩
    · rintro ⟨hx, l, hl, rfl, hactive, hdeleted⟩
      exact ⟨l, ⟨hl, ⟨hx, hactive⟩, hdeleted⟩, rfl⟩
  rw [length_dedup_eq_iff fun x hx => ((hmem x).mp hx).1]
  exact ⟨fun h x hx => ((hmem x).mp (h hx)).2, fun h x hx => (hmem x).mpr ⟨hx, h x hx⟩⟩

/-- The translations are stored unless something refuses them. -/
theorem validateAndUpsertTranslations_returns {translations : List TranslationCommand}
    (hrole : db.HasRole roleId) :
    (∃ r, (validateAndUpsertTranslations roleId translations).exec db t = .ok r) ↔
      ¬ TranslationsRefused db translations := by
  have hrows : (translationRows roleId translations).map AuthRoleTranslation.localeId =
      translations.map TranslationCommand.localeId := by
    unfold translationRows
    rw [List.map_map]
    rfl
  unfold validateAndUpsertTranslations
  split
  · rename_i hempty
    rw [List.isEmpty_iff.mp hempty]
    exact iff_of_true ⟨_, rfl⟩ (by simp [TranslationsRefused])
  · show (∃ r, ((raiseIf _ _).bind _).exec db t = .ok r) ↔ _
    simp only [exec_guard_iff, exists_and_left, decide_eq_false_iff_not, not_not]
    rw [activeLocaleIds_iff]
    unfold upsertTranslations TranslationsRefused
    rw [hrows, List.forall_mem_map]
    by_cases hnodup : (translations.map TranslationCommand.localeId).Nodup
    · rw [if_pos hnodup, each_upsertTranslation_returns, translationRows, List.forall_mem_map]
      simp only [hnodup, not_true_eq_false, false_or]
      push Not
      simp only [← forall_and]
      refine forall₂_congr fun x _ => ?_
      unfold Storable
      constructor
      · rintro ⟨hactive, hname, hremark, -, -⟩
        exact ⟨hactive, hname, hremark⟩
      · rintro ⟨⟨l, hl, hid, hactive⟩, hname, hremark⟩
        exact ⟨⟨l, hl, hid, hactive⟩, hname, hremark, hrole, l, hl, hid⟩
    · rw [if_neg hnodup]
      refine iff_of_false ?_ fun h => h (.inl hnodup)
      rintro ⟨-, _, hrun⟩
      cases hrun

theorem validateAndUpsertTranslations_exec {translations : List TranslationCommand}
    (h : (validateAndUpsertTranslations roleId translations).exec db t = .ok ((), db')) :
    TranslationsOf roleId db db' := by
  unfold validateAndUpsertTranslations at h
  split at h
  · cases h
    exact .refl roleId db
  · obtain ⟨-, h⟩ := exec_guard_iff.mp
      (show ((raiseIf _ _).bind _).exec db t = .ok ((), db') from h)
    unfold upsertTranslations at h
    split at h
    · refine each_upsertTranslation_exec (fun row hrow => ?_) h
      obtain ⟨x, _, rfl⟩ := List.mem_map.mp hrow
      rfl
    · cases h

end RoleService

/-! ## 6. What refuses a call -/

/-- What refuses a role row: its code is empty or too long, or another role has it. -/
def CodeRefused (db : Db) (roleId : UUID) (code : String) : Prop :=
  code = "" ∨ 32 < code.length ∨ ∃ r ∈ db.roles, r.code = code ∧ r.id ≠ roleId

/-- **What refuses a call**: a constraint on what it writes. -/
def RoleUpdate.Refused (db : Db) (roleId : UUID) : RoleUpdate → Prop
  | .update command =>
    CodeRefused db roleId command.code ∨
      TranslationsRefused db (command.translations.getD []) ∨
        ∃ x ∈ command.permissions, ¬ db.Grants roleId x ∧ ¬ db.HasPermission x
  | .assign command =>
    ∃ x ∈ command.permissionIds, ¬ db.Grants roleId x ∧ ¬ (db.HasRole roleId ∧ db.HasPermission x)

namespace RoleService

open RoleRepository

theorem updateRole_eq (command : Roles.UpdateRoleCommand) :
    (∃ r, (updateRole roleId command).exec db t = .ok r) ↔
      ∃ r, (writeRole roleId command ((db.rolePermissions.filter fun x =>
        x.roleId = roleId).map AuthRolePermission.permissionId)).exec db t = .ok r := by
  show (∃ r, ((mapError _ _).bind _).exec db t = .ok r) ↔ _
  rw [bind_ok_iff]
  constructor
  · rintro ⟨_, _, h, -⟩
    exact ⟨_, exec_mapError_ok.mp h⟩
  · rintro ⟨⟨a, db₁⟩, h⟩
    exact ⟨a, db₁, exec_mapError_ok.mpr h, _, rfl⟩

theorem updateRole_exec {command : Roles.UpdateRoleCommand}
    (h : (updateRole roleId command).exec db t = .ok ((), db')) :
    (writeRole roleId command ((db.rolePermissions.filter fun x =>
      x.roleId = roleId).map AuthRolePermission.permissionId)).exec db t = .ok ((), db') := by
  obtain ⟨⟨⟩, db₁, h, hlog⟩ :=
    exec_bind_ok (show ((mapError _ _).bind _).exec db t = .ok ((), db') from h)
  cases hlog
  exact exec_mapError_ok.mp h

/-- A deletion always follows. -/
theorem insert_delete_returns {inserted deleted : List UUID} {rest : Unit → AuthProg Unit}
    (hrest : ∀ db, (rest ()).exec db t = .ok ((), db)) :
    (∃ r, ((insertRolePermissions roleId inserted).bind fun _ =>
      (deleteRolePermissions roleId deleted).bind rest).exec db t = .ok r) ↔
        ∀ x ∈ inserted, ¬ db.Grants roleId x → db.HasRole roleId ∧ db.HasPermission x := by
  rw [bind_ok_iff, ← insertRolePermissions_returns (t := t)]
  constructor
  · rintro ⟨_, _, h, -⟩
    exact ⟨_, h⟩
  · rintro ⟨⟨a, db₁⟩, h⟩
    refine ⟨a, db₁, h, _, (exec_seq deleteRolePermissions_exec).trans (hrest _)⟩

theorem insert_delete_spec {inserted deleted requested : List UUID} {rest : Unit → AuthProg Unit}
    (hrest : ∀ db, (rest ()).exec db t = .ok ((), db))
    (h : ((insertRolePermissions roleId inserted).bind fun _ =>
      (deleteRolePermissions roleId deleted).bind rest).exec db t = .ok ((), db'))
    (hinserted : ∀ x, x ∈ inserted ↔ x ∈ requested ∧ ¬ db.Grants roleId x)
    (hdeleted : ∀ x, x ∈ deleted ↔ x ∉ requested ∧ db.Grants roleId x) :
    PermissionsOf roleId db db' ∧ ∀ x, db'.Grants roleId x ↔ x ∈ requested := by
  obtain ⟨⟨⟩, db₁, hins, h⟩ := exec_bind_ok h
  obtain ⟨⟨⟩, db₂, hdel, h⟩ := exec_bind_ok h
  rw [hrest] at h
  cases h
  obtain ⟨⟨_, rfl, hother⟩, hgrants₁⟩ := insertRolePermissions_spec hins
  obtain ⟨⟨_, rfl, hother'⟩, hgrants₂⟩ := deleteRolePermissions_spec hdel
  refine ⟨⟨_, rfl, hother'.trans hother⟩, fun x => ?_⟩
  rw [hgrants₂, hgrants₁, hinserted, hdeleted]
  tauto

section

variable {oldPermissionIds : List UUID} (hold : ∀ x, x ∈ oldPermissionIds ↔ db.Grants roleId x)
include hold

theorem writeRole_returns {command : Roles.UpdateRoleCommand} :
    (∃ r, (writeRole roleId command oldPermissionIds).exec db t = .ok r) ↔
      ¬ RoleUpdate.Refused db roleId (.update command) := by
  have hcode : (∃ r, (upsertRole roleId command.code command.isActive).exec db t = .ok r) ↔
      ¬ CodeRefused db roleId command.code := by
    rw [upsertRole_returns]
    unfold CodeRefused
    push Not
    rfl
  unfold RoleUpdate.Refused
  rw [not_or, not_or, ← hcode]
  -- The statements after the upsert, in the state that it leaves.
  have hrest : ∀ n db₁, (upsertRole roleId command.code command.isActive).exec db t =
      .ok (n, db₁) → ((∃ r, (writeRole roleId command oldPermissionIds).exec db t = .ok r) ↔
        ¬ TranslationsRefused db (command.translations.getD []) ∧
          ¬ ∃ x ∈ command.permissions, ¬ db.Grants roleId x ∧ ¬ db.HasPermission x) := by
    intro n db₁ h
    obtain ⟨rfl, roles, rfl, hrole, -⟩ := upsertRole_spec h
    have htranslations : (∃ r, (validateAndUpsertTranslations roleId
        (command.translations.getD [])).exec { db with roles := roles } t = .ok r) ↔
          ¬ TranslationsRefused db (command.translations.getD []) :=
      validateAndUpsertTranslations_returns hrole
    have hpermissions : (∀ x ∈ command.permissions.dedup.filter (fun x => x ∉ oldPermissionIds),
        ¬ db.Grants roleId x → db.HasPermission x) ↔
          ¬ ∃ x ∈ command.permissions, ¬ db.Grants roleId x ∧ ¬ db.HasPermission x := by
      simp only [List.mem_filter, List.mem_dedup, hold, decide_eq_true_eq]
      push Not
      exact ⟨fun h x hx hgrants => h x ⟨hx, hgrants⟩ hgrants, fun h x hx => h x hx.1⟩
    show (∃ r, ((upsertRole _ _ _).bind _).exec db t = .ok r) ↔ _
    rw [exec_seq h, ← hpermissions]
    refine bind_ok_iff.trans ?_
    constructor
    · rintro ⟨⟨⟩, db₂, hval, hrest⟩
      refine ⟨htranslations.mp ⟨_, hval⟩, ?_⟩
      obtain ⟨_, rfl, -⟩ := validateAndUpsertTranslations_exec hval
      have hrest := (insert_delete_returns fun _ => rfl).mp hrest
      exact fun x hx hgrants => (hrest x hx hgrants).2
    · rintro ⟨hval, hrest⟩
      obtain ⟨⟨⟨⟩, db₂⟩, hval⟩ := htranslations.mpr hval
      refine ⟨(), db₂, hval, ?_⟩
      obtain ⟨_, rfl, -⟩ := validateAndUpsertTranslations_exec hval
      exact (insert_delete_returns fun _ => rfl).mpr fun x hx hgrants =>
        ⟨hrole, hrest x hx hgrants⟩
  constructor
  · intro hrun
    obtain ⟨n, db₁, h, -⟩ := bind_ok_iff.mp hrun
    exact ⟨⟨_, h⟩, (hrest n db₁ h).mp hrun⟩
  · rintro ⟨⟨⟨n, db₁⟩, h⟩, hrun⟩
    exact (hrest n db₁ h).mpr hrun

theorem writeRole_spec {command : Roles.UpdateRoleCommand}
    (h : (writeRole roleId command oldPermissionIds).exec db t = .ok ((), db')) :
    RoleOnly roleId db db' ∧ ∀ x, db'.Grants roleId x ↔ x ∈ command.permissions := by
  obtain ⟨n, db₁, hupsert, h⟩ := exec_bind_ok h
  obtain ⟨rfl, roles, rfl, hrole, hroles⟩ := upsertRole_spec hupsert
  obtain ⟨⟨⟩, db₂, hval, h⟩ := exec_bind_ok h
  obtain ⟨_, rfl, htranslations⟩ := validateAndUpsertTranslations_exec hval
  have hinserted : ∀ x, x ∈ command.permissions.dedup.filter (fun x => x ∉ oldPermissionIds) ↔
      x ∈ command.permissions ∧ ¬ db.Grants roleId x := fun x => by
    rw [List.mem_filter, List.mem_dedup, decide_eq_true_eq, hold]
  have hdeleted : ∀ x, x ∈ oldPermissionIds.dedup.filter (fun x => x ∉ command.permissions) ↔
      x ∉ command.permissions ∧ db.Grants roleId x := fun x => by
    rw [List.mem_filter, List.mem_dedup, decide_eq_true_eq, hold, and_comm]
  obtain ⟨⟨_, rfl, hpermissions⟩, hgrants⟩ :=
    insert_delete_spec (fun _ => rfl) h hinserted hdeleted
  exact ⟨⟨hroles, htranslations, hpermissions, rfl⟩, hgrants⟩

omit hold in
theorem writePermissions_eq (permissionIds : List UUID) :
    writePermissions roleId permissionIds oldPermissionIds =
      (insertRolePermissions roleId (permissionIds.filter fun x => x ∉ oldPermissionIds)).bind
        fun _ => (deleteRolePermissions roleId (oldPermissionIds.filter fun x =>
          x ∉ permissionIds)).bind ret := by
  rw [bind_ret]
  rfl

theorem writePermissions_returns {command : Roles.AssignRolePermissionsCommand} :
    (∃ r, (writePermissions roleId command.permissionIds oldPermissionIds).exec db t = .ok r) ↔
      ¬ RoleUpdate.Refused db roleId (.assign command) := by
  unfold RoleUpdate.Refused
  rw [writePermissions_eq, insert_delete_returns fun _ => rfl]
  simp only [List.mem_filter, hold, decide_eq_true_eq]
  constructor
  · rintro h ⟨x, hx, hgrants, hrefs⟩
    exact hrefs (h x ⟨hx, hgrants⟩ hgrants)
  · intro h x hx hgrants
    by_contra hrefs
    exact h ⟨x, hx.1, hgrants, hrefs⟩

theorem writePermissions_spec {permissionIds : List UUID}
    (h : (writePermissions roleId permissionIds oldPermissionIds).exec db t = .ok ((), db')) :
    RoleOnly roleId db db' ∧ ∀ x, db'.Grants roleId x ↔ x ∈ permissionIds := by
  rw [writePermissions_eq] at h
  have hinserted : ∀ x, x ∈ permissionIds.filter (fun x => x ∉ oldPermissionIds) ↔
      x ∈ permissionIds ∧ ¬ db.Grants roleId x := fun x => by
    rw [List.mem_filter, decide_eq_true_eq, hold]
  have hdeleted : ∀ x, x ∈ oldPermissionIds.filter (fun x => x ∉ permissionIds) ↔
      x ∉ permissionIds ∧ db.Grants roleId x := fun x => by
    rw [List.mem_filter, decide_eq_true_eq, hold, and_comm]
  obtain ⟨⟨_, rfl, hpermissions⟩, hgrants⟩ :=
    insert_delete_spec (fun _ => rfl) h hinserted hdeleted
  exact ⟨⟨rfl, rfl, hpermissions, rfl⟩, hgrants⟩

end

end RoleService

/-! ## 7. When a call changes exactly its role -/

namespace RoleUpdate

open RoleRepository RoleService

/-- **A call returns unless a constraint refuses it**, whatever has become of the role. -/
theorem run_returns (call : RoleUpdate) :
    (∃ r, (call.run roleId).exec db t = .ok r) ↔ ¬ call.Refused db roleId := by
  cases call with
  | update command =>
    exact (updateRole_eq command).trans (writeRole_returns fun _ => mem_fetchPermissionIds)
  | assign command =>
    refine Iff.trans (exists_congr fun _ => exec_mapError_ok)
      (writePermissions_returns fun _ => mem_fetchPermissionIds)

/-- **A call that returns has set the permissions asked for**, and nothing of another role. -/
theorem run_spec (call : RoleUpdate) (h : (call.run roleId).exec db t = .ok ((), db')) :
    RoleOnly roleId db db' ∧ ∀ x, db'.Grants roleId x ↔ x ∈ call.requested := by
  cases call with
  | update command => exact writeRole_spec (fun _ => mem_fetchPermissionIds) (updateRole_exec h)
  | assign command =>
    exact writePermissions_spec (fun _ => mem_fetchPermissionIds) (exec_mapError_ok.mp h)

end RoleUpdate

end NewlifeCore.Auth
