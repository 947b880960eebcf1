import NewlifeCore.Auth.Resources
import NewlifeCore.Txn.Sequence

/-!
# The resource hierarchy is a forest

A parent is changed one row at a time and nothing looks at the chain above it, so the hierarchy
stays a forest as long as nobody moves a resource below itself.  Then `build_tree` shows every
resource that is not deleted once: under its parent, or at the top when that is deleted.
-/

namespace NewlifeCore.Auth

open Txn Prog

variable {db db₀ db' : Db} {t : Int} {localeId : Option UUID}

/-! ## 1. Requests -/

inductive ResourceCall
  | create (resourceId : UUID) (command : ResourceCommand)
  | update (resourceId : UUID) (command : ResourceCommand)
  | changeParent (resourceId pid : UUID)
  | delete (resourceId : UUID) (command : DeleteCommand)
  | restore (resourceId : UUID)

/-- A call, in the locale of its request. -/
structure ResourceRequest where
  localeId : Option UUID
  call : ResourceCall

def ResourceRequest.body (r : ResourceRequest) : AuthProg Unit :=
  match r.call with
  | .create id command => (ResourceService.createResource id command).bind fun _ => pure ()
  | .update id command => ResourceService.updateResource r.localeId id command
  | .changeParent id pid => ResourceService.changeParent r.localeId id pid
  | .delete id command => ResourceService.deleteResource r.localeId id command
  | .restore id => ResourceService.restoreResource r.localeId id

/-- A resource that is the other one or lies below it. -/
abbrev BelowIn (rows : List AuthResource) (id : UUID) (r : AuthResource) : Prop :=
  Forest.Below AuthResource.id AuthResource.pid rows id r

/-- **The chain of parents ends** at a resource without one. -/
abbrev EndsAtRoot (rows : List AuthResource) (r : AuthResource) : Prop :=
  Forest.Rooted AuthResource.id AuthResource.pid rows r

/-- The parent is not below the resource it is given to. -/
def ParentFits (db : Db) (resourceId : UUID) (pid : Option UUID) : Prop :=
  ∀ p ∈ db.resources, pid = some p.id → ¬ BelowIn db.resources resourceId p

/-- **Nobody moves a resource below itself**, and `uuid4()` draws an id that the command does not
name. -/
def MoveFits (db : Db) (_ : Int) (r : ResourceRequest) : Prop :=
  match r.call with
  | .create id command => command.pid ≠ some id
  | .update id command => ParentFits db id command.pid
  | .changeParent id pid => ParentFits db id (some pid)
  | _ => True

/-- Distinct ids, and every chain of parents ends. -/
structure Hierarchy (rows : List AuthResource) : Prop where
  ids : (rows.map AuthResource.id).Nodup
  rooted : ∀ r ∈ rows, EndsAtRoot rows r

/-! ## 2. What a call leaves -/

/-- The resources are what they were. -/
def SameResources (db db' : Db) : Prop := db'.resources = db.resources

theorem getResourceAuditDict_readOnly (id : UUID) :
    ReadOnly (ResourceService.getResourceAuditDict localeId id) := by
  refine ReadOnly.tryCatch (fun e => by cases e <;> trivial)
    (ReadOnly.bind (fun _ => ReadOnly.ret _) ?_)
  refine ReadOnly.bind (fun item => by cases item <;> trivial)
    (ReadOnly.bind (fun item => ?_) (ReadOnly.select _))
  cases item with
  | none => trivial
  | some item =>
    dsimp only
    split <;> trivial

theorem validateAndUpsertTranslations_sameResources (id : UUID) (l : List TranslationCommand) :
    (ResourceService.validateAndUpsertTranslations id l).Writes SameResources := by
  unfold ResourceService.validateAndUpsertTranslations
  split
  · trivial
  · refine Writes.bind (fun active => ?_) (.readOnly (ReadOnly.select _))
    refine Writes.bind (fun _ => ?_) (.readOnly (ReadOnly.raiseIf _ _))
    unfold ResourceRepository.upsertTranslations
    split
    · refine Writes.each (fun row => ?_) _
      exact .execute fun db c h => by cases h; rfl
    · trivial

theorem validateAndUpsertTranslations_exec {id : UUID} {l : List TranslationCommand}
    (h : (ResourceService.validateAndUpsertTranslations id l).exec db t = .ok ((), db')) :
    db'.resources = db.resources := by
  have htrans : ∀ {a b c : Db}, SameResources a b → SameResources b c → SameResources a c :=
    fun h₁ h₂ => Eq.trans h₂ h₁
  exact Writes.exec (R := SameResources) (fun _ => rfl) htrans
    (validateAndUpsertTranslations_sameResources id l) h

theorem parentThere_spec {id : UUID} {pid : Option UUID}
    (h : ResourceRepository.parentThere db id pid = true) :
    ∀ j, pid = some j → j = id ∨ ∃ p ∈ db.resources, p.id = j := by
  rintro j rfl
  simpa [ResourceRepository.parentThere] using h

/-- What a creation leaves. -/
theorem createResource_exec {id : UUID} {command : ResourceCommand}
    (h : ((ResourceService.createResource id command).bind fun _ => pure ()).exec db t =
      .ok ((), db')) :
    ∃ row : AuthResource, row.id = id ∧ row.pid = command.pid ∧
      (∀ r ∈ db.resources, r.id ≠ id) ∧
      (∀ j, command.pid = some j → j = id ∨ ∃ p ∈ db.resources, p.id = j) ∧
      db'.resources = db.resources ++ [row] := by
  obtain ⟨_, db₁, h, hret⟩ := exec_bind_ok h
  cases hret
  obtain ⟨now, db₂, hnow, h⟩ := exec_bind_ok h
  cases hnow
  obtain ⟨_, db₃, h, hret⟩ := exec_bind_ok h
  cases hret
  obtain ⟨_, db₄, hinsert, h⟩ := exec_bind_ok (exec_mapError_ok.mp h)
  obtain ⟨c, hc, rfl⟩ := exec_executed hinsert
  split at hc
  · cases hc
  · split at hc
    · cases hc
    · rename_i hnew hparent
      cases hc
      simp only [Bool.or_eq_true, not_or, Bool.not_eq_true] at hnew
      have hthere : ResourceRepository.parentThere db (ResourceService.newResource id command t).id
          (ResourceService.newResource id command t).pid = true := by simpa using hparent
      refine ⟨_, rfl, rfl, fun r hr hid => ?_, parentThere_spec hthere,
        validateAndUpsertTranslations_exec h⟩
      exact List.any_eq_false.mp hnew.1 r hr (decide_eq_true hid)

theorem exec_updateResource {id : UUID} {command : ResourceCommand} {n : Nat}
    (h : (ResourceRepository.updateResource id command).exec db t = .ok (n, db')) :
    (∀ r ∈ db.resources, r.id = id → ∀ j, command.pid = some j →
        j = id ∨ ∃ p ∈ db.resources, p.id = j) ∧
      db'.resources = db.resources.map fun r =>
        if decide (r.id = id) then ResourceRepository.setColumns command r else r := by
  have hrows : ∀ c : Change Db RowName, c = resourceTable.update (fun r => decide (r.id = id))
      (ResourceRepository.setColumns command) (fun _ => rfl) db → (c.apply db).resources =
        db.resources.map fun r =>
          if decide (r.id = id) then ResourceRepository.setColumns command r else r := by
    rintro c rfl
    exact congrArg Db.resources (Table.update_self resourceTable)
  unfold ResourceRepository.updateResource executeCount at h
  simp only [exec] at h
  split at h
  · cases h
  · rename_i c hc
    cases h
    split at hc
    · rename_i hnone
      refine ⟨fun r hr hid => ?_, hrows c (by cases hc; rfl)⟩
      simp only [Bool.not_eq_true', List.any_eq_false, decide_eq_true_eq] at hnone
      exact absurd hid (hnone r hr)
    · split at hc
      · cases hc
      · split at hc
        · cases hc
        · rename_i hparent
          refine ⟨fun r hr hid => parentThere_spec (by simpa using hparent), hrows c ?_⟩
          cases hc
          rfl

/-- What an update leaves. -/
theorem updateResource_exec {id : UUID} {command : ResourceCommand}
    (h : (ResourceService.updateResource localeId id command).exec db t = .ok ((), db')) :
    (∀ r ∈ db.resources, r.id = id → ∀ j, command.pid = some j →
        j = id ∨ ∃ p ∈ db.resources, p.id = j) ∧
      db'.resources = db.resources.map fun r =>
        if decide (r.id = id) then ResourceRepository.setColumns command r else r := by
  obtain ⟨_, -, h⟩ := (exec_reads_iff (getResourceAuditDict_readOnly id)).mp h
  obtain ⟨_, db₁, h, hlog⟩ := exec_bind_ok h
  obtain ⟨_, -, hlog⟩ := (exec_reads_iff (getResourceAuditDict_readOnly id)).mp hlog
  cases hlog
  obtain ⟨n, db₂, hupdate, h⟩ := exec_bind_ok (exec_mapError_ok.mp h)
  obtain ⟨_, -, h⟩ := (exec_reads_iff (ReadOnly.raiseIf _ _)).mp h
  obtain ⟨hparent, hrows⟩ := exec_updateResource hupdate
  exact ⟨hparent, (validateAndUpsertTranslations_exec h).trans hrows⟩

/-- What a change of parent leaves. -/
theorem changeParent_exec {id pid : UUID}
    (h : (ResourceService.changeParent localeId id pid).exec db t = .ok ((), db')) :
    (∀ r ∈ db.resources, r.id = id → pid = id ∨ ∃ p ∈ db.resources, p.id = pid) ∧
      db'.resources = db.resources.map fun r =>
        if decide (r.id = id) then { r with pid := some pid } else r := by
  obtain ⟨_, -, h⟩ := (exec_reads_iff (getResourceAuditDict_readOnly id)).mp h
  obtain ⟨_, db₁, h, hlog⟩ := exec_bind_ok h
  obtain ⟨_, -, hlog⟩ := (exec_reads_iff (getResourceAuditDict_readOnly id)).mp hlog
  cases hlog
  obtain ⟨c, hc, rfl⟩ := exec_executed (exec_mapError_ok.mp h)
  split at hc
  · cases hc
  · rename_i hguard
    cases hc
    refine ⟨fun r hr hid => ?_, congrArg Db.resources (Table.update_self resourceTable)⟩
    have hthere : (db.resources.any fun r => decide (r.id = id)) = true :=
      List.any_eq_true.mpr ⟨r, hr, decide_eq_true hid⟩
    rw [hthere, Bool.true_and, Bool.not_eq_true'] at hguard
    exact parentThere_spec (Bool.not_eq_false _ ▸ hguard) pid rfl

/-- What a deletion leaves. -/
theorem deleteResource_exec {id : UUID} {command : DeleteCommand}
    (h : (ResourceService.deleteResource localeId id command).exec db t = .ok ((), db')) :
    (db'.resources = db.resources.filter fun r =>
        (ResourceRepository.remaining db.resources id).any fun x => x.id = r.id) ∨
      db'.resources = db.resources.map fun r => if r.id = id || r.pid = some id then
        { r with isDeleted := true, deleteReason := command.reason } else r := by
  obtain ⟨_, -, h⟩ := (exec_reads_iff (getResourceAuditDict_readOnly id)).mp h
  split at h
  · obtain ⟨c, hc, rfl⟩ := exec_executed (exec_mapError_ok.mp h)
    cases hc
    refine .inl ((congrArg Db.resources (Table.delete_self resourceTable)).trans ?_)
    exact List.filter_congr fun r _ => Bool.not_not _
  · obtain ⟨_, db₁, h, hlog⟩ := exec_bind_ok h
    obtain ⟨_, -, hlog⟩ := (exec_reads_iff (getResourceAuditDict_readOnly id)).mp hlog
    cases hlog
    obtain ⟨c, hc, rfl⟩ := exec_executed (exec_mapError_ok.mp h)
    cases hc
    exact .inr (congrArg Db.resources (Table.update_self resourceTable))

/-- What a restoration leaves. -/
theorem restoreResource_exec {id : UUID}
    (h : (ResourceService.restoreResource localeId id).exec db t = .ok ((), db')) :
    db'.resources = db.resources.map fun r => if r.id = id || r.pid = some id then
      { r with isDeleted := false, deleteReason := none } else r := by
  obtain ⟨_, -, h⟩ := (exec_reads_iff (getResourceAuditDict_readOnly id)).mp h
  obtain ⟨_, db₁, h, hlog⟩ := exec_bind_ok h
  obtain ⟨_, -, hlog⟩ := (exec_reads_iff (getResourceAuditDict_readOnly id)).mp hlog
  cases hlog
  obtain ⟨c, hc, rfl⟩ := exec_executed (exec_mapError_ok.mp h)
  cases hc
  exact congrArg Db.resources (Table.update_self resourceTable)

/-! ## 3. The forest is kept -/

namespace Hierarchy

variable {rows : List AuthResource}

/-- A rewrite of columns other than the parent. -/
theorem rewrite (h : Hierarchy rows) {p : AuthResource → Bool} {f : AuthResource → AuthResource}
    (hid : ∀ r, (f r).id = r.id) (hpid : ∀ r, (f r).pid = r.pid) :
    Hierarchy (rows.map fun r => if p r then f r else r) := by
  have hid' : ∀ r, (if p r then f r else r).id = r.id := fun r => by split <;> simp [hid]
  have hpid' : ∀ r, (if p r then f r else r).pid = r.pid := fun r => by split <;> simp [hpid]
  refine ⟨?_, fun r hr => ?_⟩
  · rw [List.map_map]
    exact (List.map_congr_left fun r _ => hid' r).symm ▸ h.ids
  · have hroot : ∀ r, EndsAtRoot rows r →
        EndsAtRoot (rows.map fun r => if p r then f r else r) (if p r then f r else r) := by
      intro r hr
      induction hr with
      | root hnone => exact .root ((hpid' _).trans hnone)
      | @step r q hq hqmem _ ih =>
        exact .step ((hpid' r).trans (hq.trans (congrArg some (hid' q).symm)))
          (List.mem_map_of_mem hqmem) ih
    obtain ⟨r', hr', rfl⟩ := List.mem_map.mp hr
    exact hroot r' (h.rooted r' hr')

/-- A rewrite of one resource that gives it a parent which is not below it. -/
theorem move (h : Hierarchy rows) {id : UUID} {f : AuthResource → AuthResource}
    {pid : Option UUID} (hid : ∀ r, (f r).id = r.id) (hpid : ∀ r, (f r).pid = pid)
    (hthere : ∀ r ∈ rows, r.id = id → ∀ j, pid = some j → j = id ∨ ∃ p ∈ rows, p.id = j)
    (hfits : ∀ p ∈ rows, pid = some p.id → ¬ BelowIn rows id p) :
    Hierarchy (rows.map fun r => if decide (r.id = id) then f r else r) := by
  have hid' : ∀ r : AuthResource, (if decide (r.id = id) then f r else r).id = r.id :=
    fun r => by split <;> simp [hid]
  refine ⟨?_, Forest.Rooted.reparent (k := id) hid' (fun r hr => by simp [hr]) h.rooted ?_⟩
  · rw [List.map_map]
    exact (List.map_congr_left fun r _ => hid' r).symm ▸ h.ids
  · intro r hr hk j hj
    rw [if_pos (decide_eq_true hk), hpid] at hj
    rcases hthere r hr hk j hj with rfl | ⟨p, hp, rfl⟩
    · exact ⟨r, hr, hk, hfits r hr (hj.trans (congrArg some hk.symm))⟩
    · exact ⟨p, hp, rfl, hfits p hp hj⟩

/-- A deletion with everything below. -/
theorem remaining (h : Hierarchy rows) (id : UUID) :
    Hierarchy (rows.filter fun r =>
      (ResourceRepository.remaining rows id).any fun x => x.id = r.id) := by
  have hsub : (ResourceRepository.remaining rows id).Sublist rows :=
    (Forest.cascade_sublist _ _).trans List.filter_sublist
  have hrooted : ∀ r ∈ ResourceRepository.remaining rows id,
      EndsAtRoot (ResourceRepository.remaining rows id) r :=
    Forest.Rooted.cascade h.ids h.rooted List.filter_sublist
  have hmem : ∀ r ∈ rows, ((ResourceRepository.remaining rows id).any fun x => x.id = r.id) = true →
      r ∈ ResourceRepository.remaining rows id := by
    intro r hr hany
    obtain ⟨x, hx, hid⟩ := List.any_eq_true.mp hany
    obtain rfl := List.inj_on_of_nodup_map h.ids (hsub.subset hx) hr (of_decide_eq_true hid)
    exact hx
  refine ⟨h.ids.sublist (List.filter_sublist.map _), fun r hr => ?_⟩
  obtain ⟨hr, hany⟩ := List.mem_filter.mp hr
  refine (hrooted r (hmem r hr hany)).mono fun x hx => ?_
  exact List.mem_filter.mpr ⟨hsub.subset hx, List.any_eq_true.mpr ⟨x, hx, by simp⟩⟩

end Hierarchy

/-- **One request keeps the hierarchy a forest.** -/
theorem hierarchy_step (r : ResourceRequest) (h : Hierarchy db.resources) (hfits : MoveFits db t r)
    (hr : r.body.exec db t = .ok ((), db')) : Hierarchy db'.resources := by
  obtain ⟨localeId, call⟩ := r
  cases call with
  | create id command =>
    obtain ⟨row, hid, hpid, hfresh, hthere, hdb⟩ := createResource_exec hr
    rw [hdb]
    constructor
    · rw [List.map_append, List.nodup_append]
      refine ⟨h.ids, List.nodup_singleton _, fun x hx y hy hxy => ?_⟩
      obtain ⟨r, hr, rfl⟩ := List.mem_map.mp hx
      rw [List.map_singleton, List.mem_singleton, hid] at hy
      exact hfresh r hr (hxy.trans hy)
    · refine Forest.Rooted.insert h.rooted fun j hj => ?_
      rw [hpid] at hj
      rcases hthere j hj with rfl | hp
      · exact absurd hj hfits
      · exact hp
  | update id command =>
    obtain ⟨hthere, hdb⟩ := updateResource_exec hr
    rw [hdb]
    exact h.move (fun _ => rfl) (fun _ => rfl) hthere hfits
  | changeParent id pid =>
    obtain ⟨hthere, hdb⟩ := changeParent_exec hr
    rw [hdb]
    have hpid : ∀ r : AuthResource, ({ r with pid := some pid } : AuthResource).pid = some pid :=
      fun _ => rfl
    refine h.move (fun _ => rfl) hpid (fun r hr hid j hj => ?_) hfits
    cases hj
    exact hthere r hr hid
  | delete id command =>
    rcases deleteResource_exec hr with hdb | hdb
    · rw [hdb]
      exact h.remaining id
    · rw [hdb]
      exact h.rewrite (fun _ => rfl) fun _ => rfl
  | restore id =>
    rw [restoreResource_exec hr]
    exact h.rewrite (fun _ => rfl) fun _ => rfl

/-! ## 4. The tree shows it whole -/

open ResourceService ResourceRepository

/-- The resources that are not deleted, as `build_tree` is given them. -/
def shownItems (db : Db) (localeId : Option UUID) : List ResourceItem :=
  menu db false localeId false

theorem shownItems_perm (db : Db) (localeId : Option UUID) :
    (shownItems db localeId).Perm
      ((db.resources.filter fun r => !r.isDeleted).map (toItem db localeId)) := by
  have hfilter : inMenu false false = fun r => !r.isDeleted := by
    funext r
    simp [inMenu]
  unfold shownItems menu
  rw [hfilter]
  exact (List.perm_insertionSort _ _).map _

theorem nodesById_of_nodup {items : List ResourceItem} (h : (items.map ResourceItem.id).Nodup) :
    nodesById items = items := by
  have hfold : ∀ (rest done : List ResourceItem), ((done ++ rest).map ResourceItem.id).Nodup →
      rest.foldl (fun nodes item => if nodes.any fun n => n.id = item.id then
        nodes.map fun n => if n.id = item.id then item else n else nodes ++ [item]) done =
          done ++ rest := by
    intro rest
    induction rest with
    | nil => exact fun done _ => (List.append_nil done).symm
    | cons item rest ih =>
      intro done hnodup
      have hnew : (done.any fun n => n.id = item.id) = false := by
        rw [List.any_eq_false]
        intro n hn hid
        rw [List.map_append, List.nodup_append] at hnodup
        refine hnodup.2.2 n.id (List.mem_map_of_mem hn) item.id ?_ (of_decide_eq_true hid)
        exact List.mem_cons_self
      rw [List.foldl_cons, hnew]
      have happ : done ++ item :: rest = (done ++ [item]) ++ rest := by simp
      rw [happ] at hnodup ⊢
      exact ih _ hnodup
  exact hfold items [] h

/-- Under its parent when that is shown, else at the top. -/
def shownUnder (items : List ResourceItem) (i : ResourceItem) : Option UUID × ResourceItem :=
  (parentIn items i, i)

/-- **`build_tree` shows the items whole**: each once, under its parent, when the chains among
them end. -/
theorem buildTree_whole {items : List ResourceItem} (hids : (items.map ResourceItem.id).Nodup)
    (hends : ∀ i ∈ items, Forest.Rooted ResourceItem.id (parentIn items) items i) :
    ((buildTree items).flatMap (Forest.Tree.entries ResourceItem.id none)).Perm
      (items.map (shownUnder items)) := by
  have hsorted : ∀ l : List ResourceItem, (sortNodes l).Perm l :=
    fun l => List.perm_insertionSort _ l
  have hnodup : ∀ p : ResourceItem → Bool, (sortNodes (items.filter p)).Nodup :=
    fun p => (hsorted _).nodup_iff.mpr ((List.Nodup.of_map _ hids).filter p)
  unfold buildTree
  rw [nodesById_of_nodup hids]
  dsimp only
  rw [List.flatMap_map]
  refine Forest.perm_entries hids hends (fun a => ⟨hnodup _, fun c => ?_⟩) ⟨hnodup _, fun r => ?_⟩
    (Nat.le_succ _)
  · rw [childrenOf, (hsorted _).mem_iff, List.mem_filter, decide_eq_true_eq]
  · rw [(hsorted _).mem_iff, List.mem_filter, decide_eq_true_eq]

theorem shownItems_ids (h : (db.resources.map AuthResource.id).Nodup) :
    ((shownItems db localeId).map ResourceItem.id).Nodup := by
  refine ((shownItems_perm db localeId).map _).nodup_iff.mpr ?_
  rw [List.map_map]
  exact h.sublist (List.filter_sublist.map _)

/-- Among the resources that are not deleted the chains end too. -/
theorem shownItems_ends (h : Hierarchy db.resources) : ∀ i ∈ shownItems db localeId,
    Forest.Rooted ResourceItem.id (parentIn (shownItems db localeId)) (shownItems db localeId) i := by
  have hmem : ∀ r ∈ db.resources, r.isDeleted = false → toItem db localeId r ∈ shownItems db localeId :=
    fun r hr hd => (shownItems_perm db localeId).mem_iff.mpr
      (List.mem_map_of_mem (List.mem_filter.mpr ⟨hr, by simp [hd]⟩))
  have hrow : ∀ r, EndsAtRoot db.resources r → Forest.Rooted ResourceItem.id
      (parentIn (shownItems db localeId)) (shownItems db localeId) (toItem db localeId r) := by
    intro r hr
    induction hr with
    | @root r hnone =>
      have hpid : (toItem db localeId r).pid = none := hnone
      refine .root ?_
      simp [parentIn, hpid]
    | @step r p hp hpmem _ ih =>
      have hpid : (toItem db localeId r).pid = some p.id := hp
      by_cases hthere : (shownItems db localeId).any (fun x => decide (x.id = p.id)) = true
      · obtain ⟨x, hx, hxid⟩ := List.any_eq_true.mp hthere
        obtain ⟨q, hq, rfl⟩ := List.mem_map.mp ((shownItems_perm db localeId).mem_iff.mp hx)
        have hqp : q = p := List.inj_on_of_nodup_map h.ids (List.mem_filter.mp hq).1 hpmem
          (of_decide_eq_true hxid)
        subst hqp
        refine .step (p := toItem db localeId q) ?_ hx ih
        rw [parentIn, hpid, Option.filter_some, if_pos hthere]
        rfl
      · refine .root ?_
        rw [parentIn, hpid, Option.filter_some, if_neg hthere]
  intro i hi
  obtain ⟨r, hr, rfl⟩ := List.mem_map.mp ((shownItems_perm db localeId).mem_iff.mp hi)
  exact hrow r (h.rooted r (List.mem_filter.mp hr).1)

/-- The parent of a resource, unless it is deleted. -/
def shownParent (db : Db) (r : AuthResource) : Option UUID :=
  r.pid.filter fun p => db.resources.any fun x => x.id = p && !x.isDeleted

theorem parentIn_shownItems (db : Db) (localeId : Option UUID) (r : AuthResource) :
    parentIn (shownItems db localeId) (toItem db localeId r) = shownParent db r := by
  have hany : ∀ p, ((shownItems db localeId).any fun x => x.id = p) =
      db.resources.any fun x => x.id = p && !x.isDeleted := by
    intro p
    rw [(shownItems_perm db localeId).any_eq, List.any_map, List.any_filter]
    exact List.any_congr rfl fun x => Bool.and_comm _ _
  exact congrArg (fun q => Option.filter q r.pid) (funext hany)

/-- **The hierarchy is shown whole**: the tree of the resources that are not deleted holds each of
them once, under its parent unless that is deleted. -/
def ShownWhole (db : Db) (localeId : Option UUID) : Prop :=
  ((buildTree (shownItems db localeId)).flatMap (Forest.Tree.entries ResourceItem.id none)).Perm
    ((db.resources.filter fun r => !r.isDeleted).map fun r =>
      (shownParent db r, toItem db localeId r))

theorem shownWhole_of_hierarchy (h : Hierarchy db.resources) : ShownWhole db localeId := by
  refine (buildTree_whole (shownItems_ids h.ids) (shownItems_ends h)).trans ?_
  refine ((shownItems_perm db localeId).map _).trans ?_
  rw [List.map_map]
  refine List.Perm.of_eq (List.map_congr_left fun r _ => ?_)
  exact congrArg (·, toItem db localeId r) (parentIn_shownItems db localeId r)

/-- **The resource hierarchy stays a forest and is shown whole** in every sequence of requests that
move nothing below itself. -/
theorem resources_stay_forest (h₀ : db₀.resources = [])
    (h : InTurn ResourceRequest.body MoveFits db₀ db) :
    (∀ r ∈ db.resources, EndsAtRoot db.resources r) ∧
      ∀ localeId, ShownWhole db localeId := by
  have hempty : Hierarchy db₀.resources := by
    rw [h₀]
    exact ⟨List.nodup_nil, nofun⟩
  have hforest : Hierarchy db.resources :=
    h.invariant (I := fun db => Hierarchy db.resources) hempty
      fun r _ _ _ hI hok hr => hierarchy_step r hI hok hr
  exact ⟨hforest.rooted, fun _ => shownWhole_of_hierarchy hforest⟩

/-! ## 5. Samples -/

def sampleResource (name : String) (pid : Option UUID) : ResourceCommand where
  pid
  key := name
  code := name
  icon := "mdi"
  path := "/"
  type := .general

/-- A request without a locale, served at the start of time. -/
def servedOn (db : Db) (call : ResourceCall) : Db := (ResourceRequest.body ⟨none, call⟩).after db 0

theorem servedOn_run {ok : Db → Int → ResourceRequest → Prop} (call : ResourceCall)
    (hok : ok db 0 ⟨none, call⟩) (h : InTurn ResourceRequest.body ok db₀ db) :
    InTurn ResourceRequest.body ok db₀ (servedOn db call) := by
  unfold servedOn
  exact .call ⟨none, call⟩ 0 h hok

/-- A root and two resources under it. -/
def sampleHierarchy : Db :=
  servedOn (servedOn (servedOn {} (.create 1 (sampleResource "SYSTEM" none)))
    (.create 2 (sampleResource "USER" (some 1)))) (.create 3 (sampleResource "ROLE" (some 1)))

theorem sampleHierarchy_run : InTurn ResourceRequest.body MoveFits {} sampleHierarchy := by
  refine servedOn_run _ ?_ (servedOn_run _ ?_ (servedOn_run _ ?_ .refl))
  · simp [MoveFits, sampleResource]
  · simp [MoveFits, sampleResource]
  · simp [MoveFits, sampleResource]

theorem sampleHierarchy_rows : sampleHierarchy.resources.map (fun r => (r.id, r.pid)) =
    [(1, none), (2, some 1), (3, some 1)] := by decide +kernel

theorem resources_stay_forest_sample :
    (∀ r ∈ (servedOn sampleHierarchy (.changeParent 3 2)).resources,
      EndsAtRoot (servedOn sampleHierarchy (.changeParent 3 2)).resources r) ∧
      ∀ localeId, ShownWhole (servedOn sampleHierarchy (.changeParent 3 2)) localeId := by
  have h₀ : ({} : Db).resources = [] := rfl
  refine resources_stay_forest h₀ (servedOn_run _ ?_ sampleHierarchy_run)
  have hrow : ∀ r ∈ sampleHierarchy.resources, (r.id, r.pid) ∈
      [((1 : UUID), (none : Option UUID)), (2, some 1), (3, some 1)] := fun r hr =>
    sampleHierarchy_rows ▸ List.mem_map_of_mem hr
  intro p hp hid hbelow
  have hp := hrow p hp
  have hid := Option.some.inj hid
  cases hbelow with
  | self hk => exact absurd (hid.trans hk) (by decide)
  | @step _ q hq hqmem hbelow =>
    have hqrow := hrow q hqmem
    simp [← hid, hq] at hp
    cases hbelow with
    | self hk => exact absurd (hp.symm.trans hk) (by decide)
    | step hup _ _ => simp [hp, hup] at hqrow

/-- A resource moved below the one under it. -/
def sampleCycle : Db :=
  servedOn (servedOn sampleHierarchy (.changeParent 3 2)) (.changeParent 2 3)

/-- A resource deleted together with its children, but not with theirs. -/
def sampleOrphan : Db :=
  servedOn (servedOn (servedOn sampleHierarchy (.changeParent 3 2))
    (.create 4 (sampleResource "LOCALE" (some 3)))) (.delete 2 {})

/-- **A resource below itself has no root, and one whose parent is deleted is not under it.** -/
theorem hierarchy_breaks :
    (¬ ∀ db, InTurn ResourceRequest.body (fun _ _ _ => True) {} db →
      ∀ r ∈ db.resources, r.isDeleted = false → EndsAtRoot db.resources r) ∧
    ¬ ∀ db, InTurn ResourceRequest.body (fun _ _ _ => True) {} db → ∀ r ∈ db.resources,
      r.isDeleted = false → (r.pid, toItem db none r) ∈
        (buildTree (shownItems db none)).flatMap (Forest.Tree.entries ResourceItem.id none) := by
  have hrun : InTurn ResourceRequest.body (fun _ _ _ => True) {}
      (servedOn sampleHierarchy (.changeParent 3 2)) :=
    servedOn_run _ trivial (sampleHierarchy_run.mono fun _ _ _ _ => trivial)
  constructor
  · intro h
    have hrows : sampleCycle.resources.map (fun r => (r.id, r.pid, r.isDeleted)) =
        [(1, none, false), (2, some 3, false), (3, some 2, false)] := by decide +kernel
    have hrow : ∀ r ∈ sampleCycle.resources, (r.id, r.pid, r.isDeleted) ∈
        [((1 : UUID), (none : Option UUID), false), (2, some 3, false), (3, some 2, false)] :=
      fun r hr => hrows ▸ List.mem_map_of_mem hr
    -- the chain of a resource that ends stays away from both
    have hends : ∀ r, EndsAtRoot sampleCycle.resources r → r ∈ sampleCycle.resources → r.id = 1 := by
      intro r hr
      induction hr with
      | @root r hnone =>
        intro hmem
        have := hrow r hmem
        simp [hnone] at this
        exact this.1
      | @step r p hp hpmem _ ih =>
        intro hmem
        have := hrow r hmem
        simp [hp, ih hpmem] at this
    obtain ⟨r, hr, hr'⟩ := List.mem_map.mp (hrows.symm ▸ List.mem_cons_of_mem _ List.mem_cons_self :
      ((2 : UUID), some (3 : UUID), false) ∈
        sampleCycle.resources.map fun r => (r.id, r.pid, r.isDeleted))
    simp only [Prod.mk.injEq] at hr'
    have hone := hends r (h _ (servedOn_run _ trivial hrun) r hr hr'.2.2) hr
    exact absurd (hr'.1.symm.trans hone) (by decide)
  · intro h
    have hsub : (sampleOrphan.resources.filter fun r => !r.isDeleted).map (fun r => (r.id, r.pid)) =
        [(1, none), (4, some 3)] := by decide +kernel
    have hshown : ((buildTree (shownItems sampleOrphan none)).flatMap
        (Forest.Tree.entries ResourceItem.id none)).map (fun x => (x.1, x.2.id)) =
          [(none, 1), (none, 4)] := by decide +kernel
    obtain ⟨r, hr, hr'⟩ := List.mem_map.mp (hsub.symm ▸ List.mem_cons_of_mem _ List.mem_cons_self :
      ((4 : UUID), some (3 : UUID)) ∈
        (sampleOrphan.resources.filter fun r => !r.isDeleted).map fun r => (r.id, r.pid))
    obtain ⟨hr, hlive⟩ := List.mem_filter.mp hr
    simp only [Prod.mk.injEq] at hr'
    have hmem := h _ (servedOn_run _ trivial (servedOn_run _ trivial hrun)) r hr
      (by simpa using hlive)
    have hpair := hshown ▸ List.mem_map_of_mem (f := fun x : Option UUID × ResourceItem =>
      (x.1, x.2.id)) hmem
    simp [hr'.2] at hpair

end NewlifeCore.Auth
