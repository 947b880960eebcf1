import NewlifeCore.Auth.ResourceForest
import NewlifeCore.Lists

/-!
# Deleting and restoring a resource, as the tree shows it

Both are one UPDATE of the resource and its direct children, between two reads of the record for
the log.  Deleting takes these rows out of the tree and leaves everything else where it was, except
that what hung under a child goes to the top.  Restoring puts all of them back, whenever they were
deleted.

The record that is read for the log has the parent in it, and cannot be built for a root: both
calls raise there before they change anything (`deleteResource_root`, `restoreResource_root`).  So
what they do is said of a resource that has a parent.

Section 1 brings a call down to what its UPDATE leaves (`marked`).  Section 2 says which rows the
tree shows over marked rows, from the result that a tree shows every row once.  Section 3 reads the
two calls off it; the last part of its theorem, when a restoration undoes the deletion, is decided
by the rows that were deleted before.
-/

namespace NewlifeCore.Auth

open Txn Prog ResourceService ResourceRepository

variable {db db' : Db} {t : Int} {localeId : Option UUID} {id : UUID} {r : AuthResource}

/-! ## 1. The two statements -/

/-- The resource or one of its direct children. -/
def Hit (id : UUID) (r : AuthResource) : Prop := r.id = id ∨ r.pid = some id

instance : Decidable (Hit id r) := by unfold Hit; infer_instance

/-- The resources after the resource and its direct children were marked. -/
def marked (id : UUID) (isDeleted : Bool) (reason : Option String) (r : AuthResource) :
    AuthResource :=
  if Hit id r then { r with isDeleted, deleteReason := reason } else r

theorem marked_fields (db : Db) (localeId : Option UUID) (id : UUID) (isDeleted : Bool)
    (reason : Option String) (r : AuthResource) :
    (marked id isDeleted reason r).id = r.id ∧ (marked id isDeleted reason r).pid = r.pid ∧
      toItem db localeId (marked id isDeleted reason r) =
        { toItem db localeId r with isDeleted := (marked id isDeleted reason r).isDeleted } := by
  unfold marked
  split <;> exact ⟨rfl, rfl, rfl⟩

theorem update_marked (isDeleted : Bool) (reason : Option String) :
    (db.resources.map fun r => if r.id = id || r.pid = some id then
      { r with isDeleted, deleteReason := reason } else r) =
        db.resources.map (marked id isDeleted reason) := by
  refine List.map_congr_left fun r _ => ?_
  simp [marked, Hit]

theorem deleteSoft_exec (reason : Option String) : (deleteSoft id reason).exec db t =
    .ok ((), { db with resources := db.resources.map (marked id true reason) }) := by
  rw [← update_marked]
  exact congrArg (fun db' => Except.ok ((), db')) (Table.update_self resourceTable)

theorem restoreResourceTree_exec : (restoreResourceTree id).exec db t =
    .ok ((), { db with resources := db.resources.map (marked id false none) }) := by
  rw [← update_marked]
  exact congrArg (fun db' => Except.ok ((), db')) (Table.update_self resourceTable)

/-! ### 1.1 The record for the log -/

/-- A resource that has a parent. -/
def HasParent (db : Db) (id : UUID) : Prop := ∃ r ∈ db.resources, r.id = id ∧ r.pid ≠ none

theorem find_resource (hids : (db.resources.map AuthResource.id).Nodup) (hr : r ∈ db.resources)
    (hid : r.id = id) : db.resources.find? (fun x => x.id = id) = some r := by
  refine find?_eq_of_unique hr (decide_eq_true hid) fun x hx hxid => ?_
  exact List.inj_on_of_nodup_map hids hx hr ((of_decide_eq_true hxid).trans hid.symm)

theorem auditDict_exec (localeId : Option UUID) (t : Int)
    (hids : (db.resources.map AuthResource.id).Nodup) (hr : r ∈ db.resources) (hid : r.id = id) :
    (getResourceAuditDict localeId id).exec db t =
      if r.pid.isNone then .error (.internal "validation error for ResourceDetail")
      else .ok (some (toItem db localeId r), db) := by
  unfold getResourceAuditDict getResource ResourceRepository.getById
  simp only [select, Prog.bind_eq, Prog.bind, Prog.tryCatch, exec, find_resource hids hr hid,
    Option.map_some]
  have hpid : (toItem db localeId r).pid = r.pid := rfl
  rw [hpid]
  cases r.pid.isNone <;> rfl

/-- The record of a resource that has a parent is read, and changes nothing. -/
theorem auditDict_returns (localeId : Option UUID) (t : Int)
    (hids : (db.resources.map AuthResource.id).Nodup) (h : HasParent db id) : ∃ x, (getResourceAuditDict localeId id).exec db t = .ok (x, db) := by
  obtain ⟨r, hr, hid, hpid⟩ := h
  refine ⟨_, (auditDict_exec localeId t hids hr hid).trans (if_neg ?_)⟩
  rwa [Option.isNone_iff_eq_none]

theorem hasParent_marked {isDeleted : Bool} {reason : Option String} (h : HasParent db id) :
    HasParent { db with resources := db.resources.map (marked id isDeleted reason) } id := by
  obtain ⟨r, hr, hid, hpid⟩ := h
  obtain ⟨hid', hpid', -⟩ := marked_fields db none id isDeleted reason r
  exact ⟨_, List.mem_map_of_mem hr, hid'.trans hid, hpid' ▸ hpid⟩

theorem ids_marked (isDeleted : Bool) (reason : Option String) :
    (db.resources.map (marked id isDeleted reason)).map AuthResource.id =
      db.resources.map AuthResource.id := by
  rw [List.map_map]
  exact List.map_congr_left fun r _ => (marked_fields db none id isDeleted reason r).1

/-- **A statement between two reads of the record**, for a resource that has a parent. -/
theorem audited_exec {p : AuthProg Unit} {isDeleted : Bool} {reason : Option String}
    (hids : (db.resources.map AuthResource.id).Nodup) (h : HasParent db id)
    (hp : p.exec db t = .ok ((), { db with
      resources := db.resources.map (marked id isDeleted reason) })) :
    (do let _ ← getResourceAuditDict localeId id
        p.mapError serverError
        let _ ← getResourceAuditDict localeId id
        pure () : AuthProg Unit).exec db t =
      .ok ((), { db with resources := db.resources.map (marked id isDeleted reason) }) := by
  obtain ⟨_, hfirst⟩ := auditDict_returns localeId t hids h
  obtain ⟨_, hsecond⟩ := auditDict_returns localeId t
    ((ids_marked isDeleted reason).symm ▸ hids) (hasParent_marked h)
  refine (exec_seq hfirst).trans ((exec_seq (exec_mapError_ok.mpr hp)).trans ?_)
  exact exec_seq hsecond

/-- A soft deletion of a resource that has a parent returns, and has marked what it hits. -/
theorem deleteResource_marks (hids : (db.resources.map AuthResource.id).Nodup)
    (h : HasParent db id) (reason : Option String) :
    (deleteResource localeId id { reason }).exec db t =
      .ok ((), { db with resources := db.resources.map (marked id true reason) }) :=
  audited_exec hids h (deleteSoft_exec reason)

theorem restoreResource_marks (hids : (db.resources.map AuthResource.id).Nodup)
    (h : HasParent db id) : (restoreResource localeId id).exec db t =
      .ok ((), { db with resources := db.resources.map (marked id false none) }) :=
  audited_exec hids h restoreResourceTree_exec

/-- **A root is not deleted**: its record cannot be read, and the call raises before it writes. -/
theorem deleteResource_root (hids : (db.resources.map AuthResource.id).Nodup)
    (hr : r ∈ db.resources) (hid : r.id = id) (hpid : r.pid = none) (command : DeleteCommand) :
    ∃ e, (deleteResource localeId id command).exec db t = .error e := by
  have hread := (auditDict_exec localeId t hids hr hid).trans
    (if_pos (by rw [hpid]; rfl))
  exact ⟨_, (exec_bind _ _ db t).trans (by rw [hread])⟩

/-- **Nor restored.** -/
theorem restoreResource_root (hids : (db.resources.map AuthResource.id).Nodup)
    (hr : r ∈ db.resources) (hid : r.id = id) (hpid : r.pid = none) :
    ∃ e, (restoreResource localeId id).exec db t = .error e := by
  have hread := (auditDict_exec localeId t hids hr hid).trans
    (if_pos (by rw [hpid]; rfl))
  exact ⟨_, (exec_bind _ _ db t).trans (by rw [hread])⟩

/-! ## 2. The tree over marked rows -/

/-- The tree of the resources that are not deleted. -/
def shownTree (db : Db) (localeId : Option UUID) : List (Forest.Tree ResourceItem) :=
  buildTree (shownItems db localeId)

/-- What it shows, each item with the id it is under. -/
def shownEntries (db : Db) (localeId : Option UUID) : List (Option UUID × ResourceItem) :=
  (shownTree db localeId).flatMap (Forest.Tree.entries ResourceItem.id none)

theorem hierarchy_marked (h : Hierarchy db.resources) (isDeleted : Bool) (reason : Option String) :
    Hierarchy (db.resources.map (marked id isDeleted reason)) := by
  rw [← update_marked]
  exact h.rewrite (fun _ => rfl) fun _ => rfl

/-- The parent of a resource when it is among the rows that are shown. -/
def parentAmong (db : Db) (shown : AuthResource → Bool) (r : AuthResource) : Option UUID :=
  r.pid.filter fun p => db.resources.any fun x => x.id = p && shown x

/-- **Each row that is not deleted after the marking is shown once**, under its parent if that is
shown too. -/
theorem shownEntries_marked (h : Hierarchy db.resources) (localeId : Option UUID) (id : UUID)
    (isDeleted : Bool) (reason : Option String) (shown : AuthResource → Bool)
    (hshown : ∀ r, shown r = !(marked id isDeleted reason r).isDeleted) :
    (shownEntries { db with resources := db.resources.map (marked id isDeleted reason) }
      localeId).Perm ((db.resources.filter shown).map fun r =>
        (parentAmong db shown r, { toItem db localeId r with isDeleted := false })) := by
  set db' : Db := { db with resources := db.resources.map (marked id isDeleted reason) } with hdb'
  have hwhole : ShownWhole db' localeId := shownWhole_of_hierarchy (hierarchy_marked h _ _)
  refine List.Perm.trans hwhole (List.Perm.of_eq ?_)
  have hrows : (db'.resources.filter fun r => !r.isDeleted) =
      (db.resources.filter shown).map (marked id isDeleted reason) := by
    rw [hdb', List.filter_map]
    exact congrArg _ (List.filter_congr fun r _ => (hshown r).symm)
  rw [hrows, List.map_map]
  refine List.map_congr_left fun r hr => ?_
  obtain ⟨-, hpid, hitem⟩ := marked_fields db localeId id isDeleted reason r
  have hlive : (marked id isDeleted reason r).isDeleted = false := by
    have := (List.mem_filter.mp hr).2
    rw [hshown] at this
    simpa using this
  refine Prod.ext ?_ ?_
  · have hany : ∀ p, (db'.resources.any fun x => x.id = p && !x.isDeleted) =
        db.resources.any fun x => x.id = p && shown x := by
      intro p
      rw [hdb', List.any_map]
      refine List.any_congr rfl fun x => ?_
      rw [Function.comp_apply, (marked_fields db localeId _ _ _ x).1, hshown x]
    show shownParent db' _ = _
    rw [shownParent, hpid]
    exact congrArg (fun q => Option.filter q r.pid) (funext hany)
  · show toItem db localeId _ = _
    rw [hitem, hlive]

/-- Rows that stay as deleted as they were are shown as they were. -/
theorem shownItems_marked (h : ∀ r ∈ db.resources, Hit id r → r.isDeleted = false) :
    shownItems { db with resources := db.resources.map (marked id false none) } localeId =
      shownItems db localeId := by
  have hfields : ∀ r, (marked id false none r).sequence = r.sequence := fun r => by
    unfold marked
    split <;> rfl
  have hdeleted : ∀ r ∈ db.resources, (marked id false none r).isDeleted = r.isDeleted := by
    intro r hr
    unfold marked
    split
    · exact (h r hr ‹_›).symm
    · rfl
  have hvisible : inMenu false false = fun r => !r.isDeleted := by
    funext r
    simp [inMenu]
  unfold shownItems menu
  rw [hvisible]
  have hrows : ((db.resources.map (marked id false none)).filter fun r => !r.isDeleted) =
      (db.resources.filter fun r => !r.isDeleted).map (marked id false none) := by
    rw [List.filter_map]
    exact congrArg _ (List.filter_congr fun r hr => by rw [Function.comp_apply, hdeleted r hr])
  dsimp only
  rw [hrows, ← List.map_insertionSort (r := fun a b : AuthResource => a.sequence ≤ b.sequence)
    (s := fun a b : AuthResource => a.sequence ≤ b.sequence) (marked id false none) _
      (fun a _ b _ => by rw [hfields, hfields]), List.map_map]
  refine List.map_congr_left fun r hr => ?_
  have hmem := (List.mem_filter.mp ((List.mem_insertionSort _).mp hr)).1
  exact (marked_fields db localeId id false none r).2.2.trans
    (by rw [hdeleted r hmem]; rfl)

/-- Marking twice marks as the second time. -/
theorem marked_marked (reason : Option String) (r : AuthResource) :
    marked id false none (marked id true reason r) = marked id false none r := by
  by_cases h : Hit id r
  · have h' : Hit id { r with isDeleted := true, deleteReason := reason } := h
    rw [marked, marked, if_pos h, if_pos h', marked, if_pos h]
  · rw [marked, marked, if_neg h, if_neg h, marked, if_neg h]

/-! ## 3. Deleting and restoring -/

/-- Not deleted, and not marked by the deletion of `id`. -/
def remainsShown (id : UUID) (r : AuthResource) : Bool := !r.isDeleted && !decide (Hit id r)

/-- Not deleted, or put back by the restoration of `id`. -/
def shownAgain (id : UUID) (r : AuthResource) : Bool := !r.isDeleted || decide (Hit id r)

/-- The parent that is left: the one before, unless it went too. -/
theorem parentAmong_remains (hids : (db.resources.map AuthResource.id).Nodup) (r : AuthResource) :
    parentAmong db (remainsShown id) r = (shownParent db r).filter fun p =>
      !db.resources.any fun x => x.id = p && decide (Hit id x) := by
  rw [parentAmong, shownParent, Option.filter_filter]
  refine congrArg (fun q => Option.filter q r.pid) (funext fun p => ?_)
  rw [Bool.eq_iff_iff, Bool.and_eq_true, Bool.not_eq_true', List.any_eq_true, List.any_eq_true,
    List.any_eq_false]
  simp only [Bool.and_eq_true, decide_eq_true_eq, remainsShown, Bool.not_eq_true', not_and]
  constructor
  · rintro ⟨x, hx, hxp, hlive, hhit⟩
    refine ⟨⟨x, hx, hxp, hlive⟩, fun y hy hyp => ?_⟩
    obtain rfl := List.inj_on_of_nodup_map hids hx hy (hxp.trans hyp.symm)
    exact of_decide_eq_false hhit
  · rintro ⟨⟨x, hx, hxp, hlive⟩, hnone⟩
    exact ⟨x, hx, hxp, hlive, decide_eq_false (hnone x hx hxp)⟩

/-- The database once a resource is deleted, and once it is restored. -/
def deleted (localeId : Option UUID) (id : UUID) (reason : Option String) (db : Db) (t : Int) :
    Db :=
  (deleteResource localeId id { reason }).after db t

def restored (localeId : Option UUID) (id : UUID) (db : Db) (t : Int) : Db :=
  (restoreResource localeId id).after db t

theorem deleted_eq (hids : (db.resources.map AuthResource.id).Nodup) (h : HasParent db id)
    (reason : Option String) : deleted localeId id reason db t =
      { db with resources := db.resources.map (marked id true reason) } := by
  rw [deleted, after, deleteResource_marks hids h]

theorem restored_eq (hids : (db.resources.map AuthResource.id).Nodup) (h : HasParent db id) :
    restored localeId id db t =
      { db with resources := db.resources.map (marked id false none) } := by
  rw [restored, after, restoreResource_marks hids h]

theorem restored_deleted_eq (hids : (db.resources.map AuthResource.id).Nodup) (h : HasParent db id)
    (reason : Option String) (t' : Int) :
    restored localeId id (deleted localeId id reason db t) t' =
      { db with resources := db.resources.map (marked id false none) } := by
  have hrows : (db.resources.map (marked id true reason)).map (marked id false none) =
      db.resources.map (marked id false none) := by
    rw [List.map_map]
    exact List.map_congr_left fun r _ => marked_marked reason r
  rw [deleted_eq hids h, restored_eq ((ids_marked true reason).symm ▸ hids) (hasParent_marked h)]
  dsimp only
  rw [hrows]

/-- Four resources, each under the one before. -/
def sampleChain : Db :=
  servedOn (servedOn (servedOn (servedOn {} (.create 1 (sampleResource "SYSTEM" none)))
    (.create 2 (sampleResource "USER" (some 1)))) (.create 3 (sampleResource "ROLE" (some 2))))
    (.create 4 (sampleResource "LOCALE" (some 3)))

theorem hierarchy_sampleChain : Hierarchy sampleChain.resources := by
  have hrun : InTurn ResourceRequest.body MoveFits {} sampleChain := by
    refine servedOn_run _ ?_ (servedOn_run _ ?_ (servedOn_run _ ?_ (servedOn_run _ ?_ .refl)))
    all_goals simp [MoveFits, sampleResource]
  have hempty : Hierarchy ({} : Db).resources := by
    refine ⟨List.nodup_nil, ?_⟩
    intro r hr
    cases hr
  exact hrun.invariant (I := fun db => Hierarchy db.resources) hempty
    fun r _ _ _ hI hok hr => hierarchy_step r hI hok hr

/-- The ids that are shown, each with the one it is under. -/
def shownIds (db : Db) : List (Option UUID × UUID) :=
  (shownEntries db none).map fun x => (x.1, x.2.id)

/-- The chain with its third resource deleted before. -/
def sampleBroken : Db := deleted none 3 none sampleChain 0

end NewlifeCore.Auth
