import NewlifeCore.Auth.ResourceForest
import NewlifeCore.Auth.Sessions

/-!
# The menu of a user

`ResourceService.get_user_permission_menus` beside the permissions of the user.  The menu is asked
for with a join of its own: it lets a permission count whatever became of its verb, and it takes the
parent of a resource along, hidden or not, but nothing above the parent.
-/

namespace NewlifeCore.Auth

open Txn Prog

/-! ## 1. The menu -/

namespace ResourceRepository

/-- The resources granted to a user via roles, as of SQL `now()`.  The conditions on the rows make
the outer joins of the source inner ones. -/
def userResources (db : Db) (now : Int) (userId : UUID) : List AuthResource :=
  (db.users.filter fun u => u.id = userId).flatMap fun u =>
  (db.userRoles.filter fun x => x.userId = u.id).flatMap fun x =>
  (db.roles.filter fun r => r.id = x.roleId && r.isActive && !r.isDeleted).flatMap fun role =>
  (db.rolePermissions.filter fun x =>
    x.roleId = role.id && x.expireDate.all fun e => now < e).flatMap fun x =>
  (db.permissions.filter fun p => p.id = x.permissionId && p.isActive && !p.isDeleted).flatMap
    fun p =>
  db.resources.filter fun r => r.id = p.resourceId && !r.isDeleted && r.isVisible

/-- The WHERE clause of a user's menu: granted, or the parent of one that is. -/
def inUserMenu (granted : List AuthResource) (r : AuthResource) : Bool :=
  ((granted.any fun g => g.id = r.id) || granted.any fun g => g.pid = some r.id) && !r.isDeleted

/-- Rows differ in their ids, so `DISTINCT` drops none. -/
def userMenu (db : Db) (now : Int) (userId : UUID) (localeId : Option UUID) : List ResourceItem :=
  ((db.resources.filter (inUserMenu (userResources db now userId))).insertionSort
    fun a b => a.sequence ≤ b.sequence).map (toItem db localeId)

def listByUserId (userId : UUID) (localeId : Option UUID) : AuthProg (List ResourceItem) :=
  select fun db now => userMenu db now userId localeId

end ResourceRepository

namespace ResourceService

open ResourceRepository

/-- The menus of the user of the request; a superuser sees all that is visible. -/
def getUserPermissionMenus (userCtx : Option UserContext) (localeId : Option UUID) :
    AuthProg (List ResourceItem) :=
  match userCtx.filter UserContext.isAdmin with
  | none => raise (.unauthorized "Unauthorized")
  | some user =>
    if user.isSuperuser then listMenus false localeId true
    else listByUserId user.userId localeId

end ResourceService

/-! ## 2. What it is to be -/

section Menus

open ResourceRepository ResourceService PermissionRepository

variable (db : Db) (now : Int) (userId : UUID)

/-- `list_user_role_permissions` gives the user some permission on the resource. -/
def PermittedOn (r : AuthResource) : Prop :=
  ∃ x ∈ userRoleRecords db now userId, x.resourceCode = some r.code

/-- The resource is one of those that the user has a permission on, or above one. -/
def InPermittedTree (r : AuthResource) : Prop :=
  Forest.AllUp AuthResource.id AuthResource.pid db.resources (PermittedOn db now userId) r

/-- **The menu is the permitted part of the tree**, and part of the menu of a superuser. -/
structure PermittedPart (localeId : Option UUID) (items : List ResourceItem) : Prop where
  exact : ∀ item, item ∈ items ↔
    ∃ r ∈ db.resources, InPermittedTree db now userId r ∧ toItem db localeId r = item
  visible : ∀ item ∈ items, item ∈ menu db false localeId true

/-- Granted to the user by the query of the menu, which reads no verb. -/
def Granted (r : AuthResource) : Prop := r ∈ userResources db now userId

/-- A resource above another, not itself. -/
abbrev LiesAbove (a r : AuthResource) : Prop :=
  Forest.Above AuthResource.id AuthResource.pid db.resources a.id r

/-- **When the menu is the permitted part**: whatever is granted has a permission with a live verb,
on itself or on a resource below; above the resources with such a permission nothing is deleted, and
whatever lies higher than their parents is granted or has a granted child; and the parents of what
is granted are deleted or visible. -/
structure MenuFits : Prop where
  verbs : ∀ g ∈ db.resources, Granted db now userId g → InPermittedTree db now userId g
  undeleted : ∀ r ∈ db.resources, PermittedOn db now userId r →
    ∀ a ∈ db.resources, LiesAbove db a r → a.isDeleted = false
  near : ∀ r ∈ db.resources, PermittedOn db now userId r →
    ∀ a ∈ db.resources, LiesAbove db a r → r.pid ≠ some a.id →
      Granted db now userId a ∨ ∃ g ∈ db.resources, Granted db now userId g ∧ g.pid = some a.id
  parents : ∀ g ∈ db.resources, Granted db now userId g →
    ∀ p ∈ db.resources, g.pid = some p.id → p.isDeleted = false → p.isVisible = true

variable {db now userId} {localeId : Option UUID} {r : AuthResource}

/-! ## 3. What is granted -/

theorem userResources_spec (h : Granted db now userId r) :
    r ∈ db.resources ∧ r.isDeleted = false ∧ r.isVisible = true := by
  simp only [Granted, userResources, List.mem_flatMap, List.mem_filter] at h
  obtain ⟨u, -, x, -, role, -, y, -, p, -, hr, hshown⟩ := h
  simp only [Bool.and_eq_true, Bool.not_eq_true'] at hshown
  exact ⟨hr, hshown.1.2, hshown.2⟩

/-- A permission that the user has is one of those that the menu counts. -/
theorem PermittedOn.granted (hcodes : (db.resources.map AuthResource.code).Nodup)
    (hr : r ∈ db.resources) (h : PermittedOn db now userId r) : Granted db now userId r := by
  obtain ⟨x, hx, hcode⟩ := h
  simp only [userRoleRecords, rolePermissionRecords, List.mem_flatMap, List.mem_filter,
    List.mem_map, Bool.and_eq_true, Bool.not_eq_true', decide_eq_true_eq] at hx
  obtain ⟨u, ⟨hu, ⟨⟨hid, -⟩, -⟩, -⟩, y, hy, role, ⟨hrole, ⟨hroleId, hroleThere⟩, hroleActive⟩,
    z, hz, p, ⟨hp, ⟨hpid, hpThere⟩, hpActive⟩, v, -, q, ⟨hq, ⟨hqid, hqThere⟩, hqVisible⟩, rfl⟩ := hx
  obtain rfl : q = r := List.inj_on_of_nodup_map hcodes hq hr (Option.some.inj hcode)
  simp only [Granted, userResources, List.mem_flatMap, List.mem_filter, Bool.and_eq_true,
    Bool.not_eq_true', decide_eq_true_eq]
  exact ⟨u, ⟨hu, hid⟩, y, hy, role, ⟨hrole, ⟨hroleId, hroleActive⟩, hroleThere⟩, z, hz, p,
    ⟨hp, ⟨hpid, hpActive⟩, hpThere⟩, hq, ⟨hqid, hqThere⟩, hqVisible⟩

/-- The rows of the menu: what is granted, and what is right above it. -/
theorem mem_userMenu (hids : (db.resources.map AuthResource.id).Nodup) {item : ResourceItem} :
    item ∈ userMenu db now userId localeId ↔ ∃ r ∈ db.resources,
      (r.isDeleted = false ∧
        Forest.OneUp AuthResource.id AuthResource.pid db.resources (Granted db now userId) r) ∧
      toItem db localeId r = item := by
  have hmenu : ∀ r ∈ db.resources, inUserMenu (userResources db now userId) r = true ↔
      r.isDeleted = false ∧
        Forest.OneUp AuthResource.id AuthResource.pid db.resources (Granted db now userId) r := by
    intro r hr
    simp only [inUserMenu, Bool.and_eq_true, Bool.or_eq_true, List.any_eq_true,
      decide_eq_true_eq, Bool.not_eq_true', and_comm (b := r.isDeleted = false)]
    refine and_congr_right fun _ => or_congr ?_ ?_
    · constructor
      · rintro ⟨g, hg, hid⟩
        obtain rfl := List.inj_on_of_nodup_map hids (userResources_spec hg).1 hr hid
        exact hg
      · exact fun hg => ⟨r, hg, rfl⟩
    · constructor
      · exact fun ⟨g, hg, hup⟩ => ⟨g, (userResources_spec hg).1, hg, hup⟩
      · exact fun ⟨g, _, hg, hup⟩ => ⟨g, hg, hup⟩
  unfold userMenu
  simp only [List.mem_map, List.mem_insertionSort, List.mem_filter]
  constructor
  · rintro ⟨r, ⟨hr, hin⟩, rfl⟩
    exact ⟨r, hr, (hmenu r hr).mp hin, rfl⟩
  · rintro ⟨r, hr, hin, rfl⟩
    exact ⟨r, ⟨hr, (hmenu r hr).mpr hin⟩, rfl⟩

theorem mem_menu_visible {item : ResourceItem} : item ∈ menu db false localeId true ↔
    ∃ r ∈ db.resources, (r.isDeleted = false ∧ r.isVisible = true) ∧
      toItem db localeId r = item := by
  simp [menu, inMenu, and_assoc]

/-- An item is of one resource, so lists of items compare as their resources do. -/
theorem toItem_sets_iff (hids : (db.resources.map AuthResource.id).Nodup)
    {P Q : AuthResource → Prop} :
    (∀ item, (∃ r ∈ db.resources, P r ∧ toItem db localeId r = item) ↔
      ∃ r ∈ db.resources, Q r ∧ toItem db localeId r = item) ↔
    ∀ r ∈ db.resources, P r ↔ Q r := by
  have hone : ∀ {r s : AuthResource}, r ∈ db.resources → s ∈ db.resources →
      toItem db localeId s = toItem db localeId r → s = r := fun hr hs heq =>
    List.inj_on_of_nodup_map hids hs hr (congrArg ResourceItem.id heq)
  constructor
  · intro h r hr
    constructor
    · intro hP
      obtain ⟨s, hs, hQ, heq⟩ := (h _).mp ⟨r, hr, hP, rfl⟩
      exact hone hr hs heq ▸ hQ
    · intro hQ
      obtain ⟨s, hs, hP, heq⟩ := (h _).mpr ⟨r, hr, hQ, rfl⟩
      exact hone hr hs heq ▸ hP
  · intro h item
    exact ⟨fun ⟨r, hr, hP, heq⟩ => ⟨r, hr, (h r hr).mp hP, heq⟩,
      fun ⟨r, hr, hQ, heq⟩ => ⟨r, hr, (h r hr).mpr hQ, heq⟩⟩

/-- The menu is the tree above what is permitted when going up one level is going all the way. -/
theorem exact_iff (hids : (db.resources.map AuthResource.id).Nodup)
    (hcodes : (db.resources.map AuthResource.code).Nodup) :
    (∀ item, item ∈ userMenu db now userId localeId ↔
      ∃ r ∈ db.resources, InPermittedTree db now userId r ∧ toItem db localeId r = item) ↔
    (∀ g ∈ db.resources, Granted db now userId g → InPermittedTree db now userId g) ∧
    (∀ r ∈ db.resources, PermittedOn db now userId r →
      ∀ a ∈ db.resources, LiesAbove db a r → a.isDeleted = false) ∧
    ∀ r ∈ db.resources, PermittedOn db now userId r →
      ∀ a ∈ db.resources, LiesAbove db a r → r.pid ≠ some a.id →
        Granted db now userId a ∨
          ∃ g ∈ db.resources, Granted db now userId g ∧ g.pid = some a.id := by
  simp only [mem_userMenu hids]
  rw [toItem_sets_iff hids]
  exact Forest.oneUp_iff_allUp hids
    (fun r hr (hpermitted : PermittedOn db now userId r) => hpermitted.granted hcodes hr)
    fun r _ hgranted => (userResources_spec hgranted).2.1

/-- The menu is within the one of a superuser when no parent that it takes along is hidden. -/
theorem visible_iff (hids : (db.resources.map AuthResource.id).Nodup) :
    (∀ item ∈ userMenu db now userId localeId, item ∈ menu db false localeId true) ↔
      ∀ g ∈ db.resources, Granted db now userId g →
        ∀ p ∈ db.resources, g.pid = some p.id → p.isDeleted = false → p.isVisible = true := by
  constructor
  · intro h g hg hgranted p hp hup hundeleted
    have hitem := h _ ((mem_userMenu hids).mpr
      ⟨p, hp, ⟨hundeleted, .inr ⟨g, hg, hgranted, hup⟩⟩, rfl⟩)
    obtain ⟨r, hr, ⟨-, hvisible⟩, heq⟩ := mem_menu_visible.mp hitem
    obtain rfl := List.inj_on_of_nodup_map hids hr hp (congrArg ResourceItem.id heq)
    exact hvisible
  · intro h item hitem
    obtain ⟨r, hr, ⟨hundeleted, hgranted | ⟨g, hg, hgranted, hup⟩⟩, rfl⟩ :=
      (mem_userMenu hids).mp hitem
    · exact mem_menu_visible.mpr ⟨r, hr, (userResources_spec hgranted).2, rfl⟩
    · exact mem_menu_visible.mpr ⟨r, hr, ⟨hundeleted, h g hg hgranted r hr hup hundeleted⟩, rfl⟩

/-- A superuser is shown what is visible. -/
theorem getUserPermissionMenus_superuser {user : UserContext} (hadmin : user.isAdmin = true)
    (hsuper : user.isSuperuser = true) :
    (getUserPermissionMenus (some user) localeId).exec db now =
      .ok (menu db false localeId true, db) := by
  simp [getUserPermissionMenus, Option.filter, hadmin, hsuper, listMenus]

theorem getUserPermissionMenus_user {user : UserContext} (hadmin : user.isAdmin = true)
    (hsuper : user.isSuperuser = false) :
    (getUserPermissionMenus (some user) localeId).exec db now =
      .ok (userMenu db now user.userId localeId, db) := by
  simp [getUserPermissionMenus, Option.filter, hadmin, hsuper, listByUserId]

/-- **The menu of a user is the permitted part of the tree exactly when `MenuFits`**. -/
theorem permittedPart_iff {user : UserContext} (hids : (db.resources.map AuthResource.id).Nodup)
    (hcodes : (db.resources.map AuthResource.code).Nodup) (hadmin : user.isAdmin = true)
    (hsuper : user.isSuperuser = false) :
    ∃ items, (getUserPermissionMenus (some user) localeId).exec db now = .ok (items, db) ∧
      (PermittedPart db now user.userId localeId items ↔ MenuFits db now user.userId) := by
  refine ⟨_, getUserPermissionMenus_user hadmin hsuper, ?_⟩
  constructor
  · rintro ⟨hitems, hvisible⟩
    obtain ⟨hverbs, hundeleted, hnear⟩ := (exact_iff hids hcodes).mp hitems
    exact ⟨hverbs, hundeleted, hnear, (visible_iff hids).mp hvisible⟩
  · rintro ⟨hverbs, hundeleted, hnear, hparents⟩
    exact ⟨(exact_iff hids hcodes).mpr ⟨hverbs, hundeleted, hnear⟩,
      (visible_iff hids).mpr hparents⟩

/-! ## 4. Two levels, and three -/

/-- A user with one role and one permission, on resource 3. -/
def editorDb (resources : List AuthResource) : Db where
  users := [{ id := 1, verified := true, isAdmin := true }]
  userRoles := [⟨1, 1⟩]
  roles := [{ id := 1, code := "editor" }]
  rolePermissions := [{ roleId := 1, permissionId := 1 }]
  permissions := [{ id := 1, code := "files:read", verbId := 1, resourceId := 3 }]
  verbs := [{ id := 1, action := "read" }]
  resources := resources

def editor : UserContext where
  userId := 1
  isSuperuser := false
  isAdmin := true
  loginAdmin := true
  payload := ⟨1, 60, "admin", 0, 1, "editor@newlife.org", none, 1, none⟩
  username := "editor"

def twoLevels : Db :=
  editorDb [{ id := 2, code := "content" }, { id := 3, code := "files", pid := some 2 }]

def threeLevels : Db :=
  editorDb [{ id := 1, code := "site" }, { id := 2, code := "content", pid := some 1 },
    { id := 3, code := "files", pid := some 2 }]

theorem permittedOn_files {resources : List AuthResource} {r : AuthResource}
    (hr : r ∈ resources) (h : r.id = 3) (hshown : r.isDeleted = false)
    (hvisible : r.isVisible = true) : PermittedOn (editorDb resources) 0 1 r := by
  refine ⟨⟨"files:read", some "read", some r.code⟩, ?_, rfl⟩
  simp [userRoleRecords, rolePermissionRecords, editorDb]
  exact ⟨r, ⟨hr, ⟨h, hshown⟩, hvisible⟩, rfl⟩

/-- A child with a permission brings its parent along. -/
theorem permittedPart_iff_twoLevels :
    ∃ items, (getUserPermissionMenus (some editor) none).exec twoLevels 0 = .ok (items, twoLevels) ∧
      PermittedPart twoLevels 0 1 none items := by
  obtain ⟨items, hrun, hiff⟩ :=
    @permittedPart_iff twoLevels 0 none editor (by decide) (by decide) rfl rfl
  have hfiles : PermittedOn twoLevels 0 1 { id := 3, code := "files", pid := some 2 } :=
    permittedOn_files (by simp) rfl rfl rfl
  have hmem : ∀ r ∈ twoLevels.resources, r = { id := 2, code := "content" } ∨
      r = { id := 3, code := "files", pid := some 2 } := by simp [twoLevels, editorDb]
  refine ⟨items, hrun, hiff.mpr ⟨?_, ?_, ?_, ?_⟩⟩
  · intro g hg _
    refine ⟨_, .tail _ (.head _), hfiles, ?_⟩
    rcases hmem g hg with rfl | rfl
    · exact .step rfl (.head _) (.self rfl)
    · exact .self rfl
  · intro r _ _ a ha _
    rcases hmem a ha with rfl | rfl <;> rfl
  · rintro r hr - a - ⟨p, hp, hup, hb⟩ hne
    rcases hmem r hr with rfl | rfl
    · cases hup
    · rcases hmem p hp with rfl | rfl
      · rcases hb.above with hk | ⟨q, -, hq, -⟩
        · exact absurd (congrArg some hk) hne
        · cases hq
      · cases hup
  · intro g _ _ p hp _ _
    rcases hmem p hp with rfl | rfl <;> rfl

/-- **What lies above the parent is missing**: the site has a permitted resource two levels below,
and the menu starts at the content. -/
theorem not_permittedPart :
    ∃ items, (getUserPermissionMenus (some editor) none).exec threeLevels 0 =
        .ok (items, threeLevels) ∧
      items.map ResourceItem.id = [2, 3] ∧ ¬ PermittedPart threeLevels 0 1 none items := by
  have hids : (userMenu threeLevels 0 1 none).map ResourceItem.id = [2, 3] := by decide +kernel
  refine ⟨_, getUserPermissionMenus_user rfl rfl, hids, fun h => ?_⟩
  have hfiles : PermittedOn threeLevels 0 1 { id := 3, code := "files", pid := some 2 } :=
    permittedOn_files (by simp) rfl rfl rfl
  have hsite := (h.exact (toItem threeLevels none { id := 1, code := "site" })).mpr
    ⟨_, .head _, ⟨_, .tail _ (.tail _ (.head _)), hfiles,
      .step rfl (.tail _ (.head _)) (.step rfl (.head _) (.self rfl))⟩, rfl⟩
  have hid : (1 : UUID) ∈ (userMenu threeLevels 0 1 none).map ResourceItem.id :=
    List.mem_map_of_mem hsite
  rw [hids] at hid
  exact absurd hid (by decide)

end Menus

end NewlifeCore.Auth
