import NewlifeCore.Org.StewardRosters
import NewlifeCore.Txn.Interleaving

/-!
# A ministry's status and what was decided about it

The status of a ministry is a column, the decisions about it are rows of their own, and every
submission and decision writes both.  The status is written only while the ministry is not deleted,
the decision always.  Of the ministries that are not deleted when they are submitted or decided
about, the two tell one story.
-/

namespace NewlifeCore.Org

open Txn Prog NewlifeCore.Org.MinistryRepository MinistryService MinistryApprovalService

variable {db db₀ db' db₁ : MinistryDb} {t : Int} {k : UUID}

/-! ## 1. The story of an application -/

/-- **Where an application stands**: its status, and the decisions about it in their order.  Every
rejection but the last one was answered by another submission. -/
inductive MinistryFile : MinistryStatus → List MinistryApprovalStatus → Prop
  | draft : MinistryFile .draft []
  | pending (n : Nat) : MinistryFile .pendingApproval (List.replicate n .rejected ++ [.pending])
  | active (n : Nat) : MinistryFile .active (List.replicate n .rejected ++ [.approved])
  | rejected (n : Nat) : MinistryFile .rejected (List.replicate n .rejected ++ [.rejected])

/-- What is pending is decided, the rest stays. -/
def resolved (decision d : MinistryApprovalStatus) : MinistryApprovalStatus :=
  if d = .pending then decision else d

namespace MinistryFile

variable {s s' : MinistryStatus} {ds : List MinistryApprovalStatus} {d : MinistryApprovalStatus}

theorem submit (h : MinistryFile s ds) (hs : s ∈ [MinistryStatus.draft, .rejected]) :
    MinistryFile .pendingApproval (ds ++ [.pending]) := by
  cases h with
  | draft => exact .pending 0
  | pending n => simp at hs
  | active n => simp at hs
  | rejected n =>
    rw [← List.replicate_succ']
    exact .pending (n + 1)

theorem decide (h : MinistryFile .pendingApproval ds)
    (hd : ∀ n, MinistryFile s' (List.replicate n .rejected ++ [d])) :
    MinistryFile s' (ds.map (resolved d)) := by
  cases h with
  | pending n =>
    rw [List.map_append, List.map_replicate]
    exact hd n

/-- A ministry waits for a decision exactly while one decision about it is open. -/
theorem pending_iff (h : MinistryFile s ds) :
    s = .pendingApproval ↔ ds.count .pending = 1 := by
  cases h <;> simp [List.count_replicate]

/-- A ministry is active exactly when the last decision about it approved it. -/
theorem active_iff (h : MinistryFile s ds) : s = .active ↔ ds.getLast? = some .approved := by
  cases h <;> simp

/-- A ministry is rejected exactly when the last decision about it rejected it. -/
theorem rejected_iff (h : MinistryFile s ds) : s = .rejected ↔ ds.getLast? = some .rejected := by
  cases h <;> simp

end MinistryFile

/-! ## 2. The files of a state -/

/-- The decisions about a ministry, in the order they were asked for. -/
def decisions (db : MinistryDb) (k : UUID) : List MinistryApprovalStatus :=
  (db.approvals.filter fun r => r.ministryId = k).map OrgMinistryApproval.status

/-- **Status and decisions agree**: ministries are told apart by their ids, every decision is about
one of them, and each one's status is where its decisions leave it. -/
structure MinistryDb.Filed (db : MinistryDb) : Prop where
  distinct : (db.ministries.map OrgMinistry.id).Nodup
  known : ∀ r ∈ db.approvals, ∃ m ∈ db.ministries, m.id = r.ministryId
  files : ∀ m ∈ db.ministries, MinistryFile m.status (decisions db m.id)

/-- No ministry of that id is deleted. -/
def MinistryDb.Live (db : MinistryDb) (k : UUID) : Prop :=
  ∀ m ∈ db.ministries, m.id = k → m.isDeleted = false

instance (db : MinistryDb) (k : UUID) : Decidable (db.Live k) :=
  inferInstanceAs (Decidable (∀ m ∈ db.ministries, m.id = k → m.isDeleted = false))

/-- What a file is about. -/
def OrgMinistry.heading (m : OrgMinistry) : UUID × MinistryStatus := (m.id, m.status)

/-- The files are what they were. -/
structure SameFiles (db db' : MinistryDb) : Prop where
  approvals : db'.approvals = db.approvals
  headings : db'.ministries.map OrgMinistry.heading = db.ministries.map OrgMinistry.heading

theorem SameFiles.ids (h : SameFiles db db') :
    db'.ministries.map OrgMinistry.id = db.ministries.map OrgMinistry.id := by
  have hids := congrArg (List.map Prod.fst) h.headings
  rw [List.map_map, List.map_map] at hids
  exact hids

theorem SameFiles.found (h : SameFiles db db') {m' : OrgMinistry} (hm : m' ∈ db'.ministries) :
    ∃ m ∈ db.ministries, m.id = m'.id ∧ m.status = m'.status := by
  have hmem := List.mem_map_of_mem (f := OrgMinistry.heading) hm
  rw [h.headings] at hmem
  obtain ⟨m, hm, heq⟩ := List.mem_map.mp hmem
  exact ⟨m, hm, congrArg Prod.fst heq, congrArg Prod.snd heq⟩

theorem SameFiles.filed (h : SameFiles db db') (hdb : db.Filed) : db'.Filed where
  distinct := h.ids ▸ hdb.distinct
  known r hr := by
    obtain ⟨m, hm, hid⟩ := hdb.known r (h.approvals ▸ hr)
    have hmem := List.mem_map_of_mem (f := OrgMinistry.id) hm
    rw [← h.ids] at hmem
    obtain ⟨m', hm', hid'⟩ := List.mem_map.mp hmem
    exact ⟨m', hm', hid'.trans hid⟩
  files m hm := by
    obtain ⟨m₀, hm₀, hid, hstatus⟩ := h.found hm
    have hsame : decisions db' m.id = decisions db m₀.id := by
      unfold decisions
      rw [h.approvals, hid]
    rw [hsame, ← hstatus]
    exact hdb.files m₀ hm₀

/-- An UPDATE that leaves ids and statuses alone. -/
theorem update_sameFiles {p : OrgMinistry → Bool} {f : OrgMinistry → OrgMinistry}
    {hf : ∀ m, ministryTable.name (f m) = ministryTable.name m}
    (hstatus : ∀ m, (f m).status = m.status) (view : MinistryDb) :
    SameFiles db ((ministryTable.update p f hf view).apply db) where
  approvals := rfl
  headings := by
    refine (List.map_map ..).trans (List.map_congr_left fun m _ => ?_)
    dsimp only [Function.comp_apply]
    split
    · exact Prod.ext (MinistryRow.ministry.inj (hf m)) (hstatus m)
    · rfl

/-! ### 2.1 One file changes -/

/-- **What a submission or a decision leaves**: one ministry with another status and other
decisions. -/
theorem MinistryDb.Filed.refile (hdb : db.Filed) {f : OrgMinistry → OrgMinistry}
    {s : MinistryStatus} (hid : ∀ m, (f m).id = m.id) (hs : ∀ m, (f m).status = s)
    (hministries : db'.ministries = db.ministries.map fun m => if m.id = k then f m else m)
    (hknown : ∀ r ∈ db'.approvals, ∃ m ∈ db.ministries, m.id = r.ministryId)
    (hothers : ∀ j, j ≠ k → decisions db' j = decisions db j)
    (hfile : MinistryFile s (decisions db' k)) : db'.Filed := by
  have hkeep : ∀ m, (if m.id = k then f m else m).id = m.id := by
    intro m
    split
    · exact hid m
    · rfl
  refine ⟨?_, fun r hr => ?_, fun m hm => ?_⟩
  · rw [hministries, List.map_map, show OrgMinistry.id ∘ (fun m => if m.id = k then f m else m) =
      OrgMinistry.id from funext hkeep]
    exact hdb.distinct
  · obtain ⟨m, hm, hmr⟩ := hknown r hr
    refine ⟨if m.id = k then f m else m, ?_, (hkeep m).trans hmr⟩
    rw [hministries]
    exact List.mem_map_of_mem hm
  · rw [hministries] at hm
    obtain ⟨m₀, hm₀, rfl⟩ := List.mem_map.mp hm
    by_cases hk : m₀.id = k
    · rw [if_pos hk, hs, hid, hk]
      exact hfile
    · rw [if_neg hk, hothers _ hk]
      exact hdb.files m₀ hm₀

/-- The repository's UPDATE of a ministry that is not deleted. -/
theorem updateMinistry_after {values : OrgMinistry → OrgMinistry}
    {hvalues : ∀ m, (values m).id = m.id} {n : Nat} (hlive : db.Live k)
    (h : (MinistryRepository.updateMinistry k values hvalues).exec db t = .ok (n, db')) :
    db' = { db with
      ministries := db.ministries.map fun m => if m.id = k then values m else m } := by
  obtain ⟨c, hc, -, rfl⟩ := exec_executeCount_iff.mp h
  split at hc
  · cases hc
  · cases hc
    refine ministryTable.update_self.trans (congrArg (ministryTable.set db) ?_)
    refine List.map_congr_left fun m hm => ?_
    by_cases hk : m.id = k
    · simp [hk, hlive m hm hk]
    · simp [hk]

theorem decisions_insert {row : OrgMinistryApproval} {rows : List OrgMinistryApproval}
    (hrows : db'.approvals = rows ++ [row]) (h : db.approvals = rows) (j : UUID) :
    decisions db' j = decisions db j ++ (if row.ministryId = j then [row.status] else []) := by
  unfold decisions
  rw [hrows, h, List.filter_append, List.map_append, List.filter_singleton]
  by_cases hj : row.ministryId = j <;> simp [hj]

/-- The rows of a decision. -/
def decided (k : UUID) (d : MinistryApprovalStatus) (userId : Option UUID) (now : Int)
    (comment : Option String) (r : OrgMinistryApproval) : OrgMinistryApproval :=
  if r.ministryId = k && r.status = .pending then
    { r with status := d, resolvedById := userId, decidedAt := some now, comment }
  else r

theorem decisions_decided {d : MinistryApprovalStatus} {userId : Option UUID} {now : Int}
    {comment : Option String}
    (h : db'.approvals = db.approvals.map (decided k d userId now comment)) (j : UUID) :
    decisions db' j = if j = k then (decisions db j).map (resolved d) else decisions db j := by
  have hid : ∀ r, (decided k d userId now comment r).ministryId = r.ministryId := by
    intro r
    unfold decided
    split <;> rfl
  have hstatus : ∀ r : OrgMinistryApproval, r.ministryId = j →
      (decided k d userId now comment r).status =
        if j = k then resolved d r.status else r.status := by
    intro r hr
    unfold decided resolved
    by_cases hj : j = k
    · by_cases hp : r.status = .pending <;> simp [hr, hj, hp]
    · simp [hr, hj]
  unfold decisions
  rw [h, List.filter_map, List.map_map]
  have hfilter : db.approvals.filter ((fun r => decide (r.ministryId = j)) ∘
      decided k d userId now comment) = db.approvals.filter fun r => r.ministryId = j :=
    List.filter_congr fun r _ => by rw [Function.comp_apply, hid]
  rw [hfilter]
  have hmap : (db.approvals.filter fun r => r.ministryId = j).map
      (OrgMinistryApproval.status ∘ decided k d userId now comment) =
      (db.approvals.filter fun r => r.ministryId = j).map
        fun r => if j = k then resolved d r.status else r.status :=
    List.map_congr_left fun r hr => hstatus r (of_decide_eq_true (List.mem_filter.mp hr).2)
  rw [hmap]
  split
  · rw [List.map_map]
    rfl
  · rfl

theorem updateApproval_after {d : MinistryApprovalStatus} {userId : Option UUID} {now : Int}
    {comment : Option String}
    (h : (updateApproval k d userId now comment).exec db t = .ok ((), db')) :
    db' = { db with approvals := db.approvals.map (decided k d userId now comment) } := by
  obtain ⟨c, hc, rfl⟩ := exec_executed h
  split at hc
  · cases hc
  · cases hc
    exact approvalTable.update_self

/-! ## 3. What leaves the files alone -/

/-- A write to other tables than those of the ministries and the decisions. -/
structure Beside (db db' : MinistryDb) : Prop where
  ministries : db'.ministries = db.ministries
  approvals : db'.approvals = db.approvals

theorem Beside.refl (db : MinistryDb) : Beside db db := ⟨rfl, rfl⟩

theorem Beside.trans (h : Beside db db₁) (h' : Beside db₁ db') : Beside db db' :=
  ⟨h'.ministries.trans h.ministries, h'.approvals.trans h.approvals⟩

theorem Beside.sameFiles (h : Beside db db') : SameFiles db db' :=
  ⟨h.approvals, congrArg _ h.ministries⟩

theorem exec_beside {α : Type} {p : MinistryProg α} {a : α} (hp : p.Writes Beside)
    (h : p.exec db t = .ok (a, db')) : Beside db db' := Writes.exec Beside.refl Beside.trans hp h

theorem beside_details : AllowsDetails Beside := fun hi _ ha => ⟨hi, ha⟩

theorem replaceMembers_beside (members : List MinistryMemberEntryCommand) :
    (MinistryService.replaceMembers k members).Writes Beside := by
  have hcheck : ReadOnly (validatePrimaryAndSecondary
      (members.map MinistryMemberEntryCommand.memberRole)) :=
    ReadOnly.bind (fun _ => ReadOnly.raiseIf _ _) (ReadOnly.raiseIf _ _)
  refine Writes.bind (fun _ => ?_) (.readOnly (requireMinistry_readOnly k))
  refine Writes.bind (fun _ => ?_) (.readOnly hcheck)
  refine Writes.bind (fun _ => ?_) (.execute fun db c hc => by cases hc; exact ⟨rfl, rfl⟩)
  split
  · trivial
  · refine .execute fun db c hc => ?_
    split at hc
    · cases hc
    · split at hc
      · cases hc
      · cases hc
        exact ⟨rfl, rfl⟩

/-- An update of a ministry writes neither its status nor a decision. -/
theorem updateMinistry_sameFiles {command : UpdateMinistryCommand}
    (h : (MinistryService.updateMinistry k command).exec db t = .ok ((), db')) :
    SameFiles db db' := by
  obtain ⟨_, -, h⟩ := (exec_reads_iff (requireMinistry_readOnly k)).mp h
  obtain ⟨type, -, h⟩ := (exec_reads_iff (validateMinistryTypeId_readOnly _)).mp h
  obtain ⟨affected, db₁, hupdate, h⟩ := exec_bind_ok h
  have hsame : SameFiles db db₁ := by
    obtain ⟨c, hc, -, rfl⟩ := exec_executeCount_iff.mp hupdate
    split at hc
    · cases hc
    · cases hc
      exact update_sameFiles (f := updateValues command type) (fun _ => rfl) db
  obtain ⟨_, -, h⟩ := (exec_reads_iff (ReadOnly.raiseIf _ _)).mp h
  refine (exec_beside ?_ h).sameFiles |> fun hrest =>
    ⟨hrest.approvals.trans hsame.approvals, hrest.headings.trans hsame.headings⟩
  refine Writes.bind (fun _ => ?_) (validateAndUpsertTranslations_writes beside_details _)
  exact Writes.bind (fun _ => upsertTargetAudiences_writes beside_details _)
    (upsertSchedules_writes beside_details _)

/-! ## 4. What changes them -/

/-- The row of a ministry that was just created. -/
theorem createMinistry_after {userId : Option UUID} {command : CreateMinistryCommand}
    (h : (createMinistry userId k command).exec db t = .ok ((), db')) :
    (∀ m ∈ db.ministries, m.id ≠ k) ∧ db'.approvals = db.approvals ∧
      ∃ row : OrgMinistry, row.id = k ∧ row.status = .draft ∧ row.isDeleted = false ∧
        db'.ministries = db.ministries ++ [row] := by
  obtain ⟨_, -, h⟩ := (exec_reads_iff (ReadOnly.raiseIf _ _)).mp h
  obtain ⟨type, -, h⟩ := (exec_reads_iff (validateMinistryTypeId_readOnly _)).mp h
  obtain ⟨_, -, h⟩ := (exec_reads_iff (validateTargetAudiences_readOnly _)).mp h
  obtain ⟨_, -, h⟩ := (exec_reads_iff (validateMinistrySchedules_readOnly _)).mp h
  obtain ⟨_, db₁, hinsert, h⟩ := exec_bind_ok (exec_mapError_ok.mp h)
  have hrest : Beside db₁ db' := by
    refine exec_beside ?_ h
    refine Writes.bind (fun _ => ?_) (validateAndUpsertTranslations_writes beside_details _)
    refine Writes.bind (fun rows => ?_) (.readOnly (buildSchedulePayloads_readOnly _))
    exact Writes.bind (fun _ => repository_upsertTargetAudiences_writes beside_details _)
      (repository_upsertSchedules_writes beside_details _)
  obtain ⟨c, hc, rfl⟩ := exec_executed hinsert
  split at hc
  · cases hc
  · rename_i hfresh
    split at hc
    · cases hc
    · cases hc
      refine ⟨fun m hm hk => hfresh ?_, hrest.approvals, _, rfl, rfl, rfl, hrest.ministries⟩
      exact List.any_eq_true.mpr ⟨m, hm, decide_eq_true hk⟩

/-- A new ministry is a draft nobody decided about. -/
theorem createMinistry_filed {userId : Option UUID} {command : CreateMinistryCommand}
    (h : (createMinistry userId k command).exec db t = .ok ((), db')) (hdb : db.Filed) :
    db'.Filed ∧ db'.Live k := by
  obtain ⟨hfresh, happrovals, row, rfl, hstatus, hlive, hministries⟩ := createMinistry_after h
  have hsame : ∀ j, decisions db' j = decisions db j := fun j => by
    unfold decisions
    rw [happrovals]
  refine ⟨⟨?_, fun r hr => ?_, fun m hm => ?_⟩, fun m hm hk => ?_⟩
  · rw [hministries, List.map_append, List.map_singleton, List.nodup_append]
    refine ⟨hdb.distinct, List.nodup_singleton _, fun a ha b hb => ?_⟩
    obtain ⟨m, hm, rfl⟩ := List.mem_map.mp ha
    rw [List.mem_singleton.mp hb]
    exact hfresh m hm
  · obtain ⟨m, hm, hid⟩ := hdb.known r (happrovals ▸ hr)
    exact ⟨m, by rw [hministries]; exact List.mem_append_left _ hm, hid⟩
  · rw [hministries] at hm
    rw [hsame]
    rcases List.mem_append.mp hm with hm | hm
    · exact hdb.files m hm
    · obtain rfl := List.mem_singleton.mp hm
      have hnone : decisions db m.id = [] := by
        unfold decisions
        rw [List.filter_eq_nil_iff.mpr, List.map_nil]
        intro r hr hk
        obtain ⟨m', hm', hid⟩ := hdb.known r hr
        exact hfresh m' hm' (hid.trans (of_decide_eq_true hk))
      rw [hnone, hstatus]
      exact .draft
  · rw [hministries] at hm
    rcases List.mem_append.mp hm with hm | hm
    · exact absurd hk (hfresh m hm)
    · rw [List.mem_singleton.mp hm]
      exact hlive

/-- The ministry that a request reads. -/
theorem requireMinistry_ok {m : OrgMinistry} (h : (requireMinistry k).eval db t = .ok m) :
    m ∈ db.ministries ∧ m.id = k := by
  obtain ⟨found, hfound, h⟩ := (eval_bind_iff (ReadOnly.select _)).mp h
  cases hfound
  split at h
  · cases h
  · rename_i m' hm'
    cases h
    have hfind : db.ministries.find? (fun m => m.id = k) = some m := hm'
    exact ⟨List.mem_of_find?_eq_some hfind, by simpa using List.find?_some hfind⟩

/-- **A submission opens a decision** about a ministry that is a draft or was rejected. -/
theorem submitMinistry_filed {userId : Option UUID} {approvalId : UUID}
    (h : (submitMinistry userId approvalId k).exec db t = .ok ((), db')) (hlive : db.Live k)
    (hdb : db.Filed) : db'.Filed := by
  obtain ⟨ministry, hread, h⟩ := (exec_reads_iff (requireMinistry_readOnly k)).mp h
  obtain ⟨hministry, rfl⟩ := requireMinistry_ok hread
  obtain ⟨hstatus, h⟩ := exec_guard_iff.mp h
  have hopen : ministry.status ∈ [MinistryStatus.draft, .rejected] :=
    not_not.mp (of_decide_eq_false hstatus)
  split at h
  · cases h
  · obtain ⟨_, -, h⟩ := (exec_reads_iff (requireOwnerPositionIncumbent_readOnly _)).mp h
    have hlist : ReadOnly (MinistryService.listMembers ministry.id) :=
      ReadOnly.bind (fun _ => ReadOnly.select _) (requireMinistry_readOnly _)
    have hcheck : ∀ roles, ReadOnly (validatePrimaryAndSecondary roles) := fun roles =>
      ReadOnly.bind (fun _ => ReadOnly.raiseIf _ _) (ReadOnly.raiseIf _ _)
    obtain ⟨_, -, h⟩ := (exec_reads_iff (ReadOnly.bind (fun _ => hcheck _) hlist)).mp h
    obtain ⟨now, -, h⟩ := (exec_reads_iff ReadOnly.now).mp h
    obtain ⟨n, db₁, hupdate, h⟩ := exec_bind_ok h
    obtain rfl := updateMinistry_after hlive hupdate
    obtain ⟨c, hc, rfl⟩ := exec_executed h
    split at hc
    · cases hc
    · split at hc
      · cases hc
      · cases hc
        refine hdb.refile (f := submittedValues userId now) (fun _ => rfl) (fun _ => rfl) rfl
          (fun r hr => ?_) (fun j hj => ?_) ?_
        · rcases List.mem_append.mp hr with hr | hr
          · exact hdb.known r hr
          · exact ⟨ministry, hministry, by rw [List.mem_singleton.mp hr]⟩
        · rw [decisions_insert rfl rfl]
          simp [Ne.symm hj]
        · rw [decisions_insert rfl rfl]
          simpa using (hdb.files ministry hministry).submit hopen

/-- **A decision closes the open one** about a ministry that waits for it. -/
theorem decided_filed {values : OrgMinistry → OrgMinistry} {hvalues : ∀ m, (values m).id = m.id}
    {s : MinistryStatus} {d : MinistryApprovalStatus} {userId : Option UUID} {now : Int}
    {comment : Option String} {n : Nat} (hs : ∀ m, (values m).status = s)
    (hd : ∀ n, MinistryFile s (List.replicate n .rejected ++ [d]))
    (hpending : (requirePending k).eval db t = .ok ())
    (hupdate : (MinistryRepository.updateMinistry k values hvalues).exec db t = .ok (n, db₁))
    (hdecide : (updateApproval k d userId now comment).exec db₁ t = .ok ((), db'))
    (hlive : db.Live k) (hdb : db.Filed) : db'.Filed := by
  obtain ⟨ministry, hread, hguard⟩ := (eval_bind_iff (requireMinistry_readOnly k)).mp hpending
  obtain ⟨hministry, rfl⟩ := requireMinistry_ok hread
  have hstatus : ministry.status = .pendingApproval := by simpa using eval_raiseIf_ok.mp hguard
  obtain rfl := updateMinistry_after hlive hupdate
  obtain rfl := updateApproval_after hdecide
  refine hdb.refile (f := values) hvalues hs rfl (fun r hr => ?_) (fun j hj => ?_) ?_
  · obtain ⟨r₀, hr₀, rfl⟩ := List.mem_map.mp hr
    have hid : (decided ministry.id d userId now comment r₀).ministryId = r₀.ministryId := by
      unfold decided
      split <;> rfl
    rw [hid]
    exact hdb.known r₀ hr₀
  · rw [decisions_decided rfl, if_neg hj]
    rfl
  · rw [decisions_decided rfl, if_pos rfl]
    have hfile := hdb.files ministry hministry
    rw [hstatus] at hfile
    exact hfile.decide hd

theorem approveMinistry_filed {userId : Option UUID} {comment : Option String}
    (h : (approveMinistry userId k comment).exec db t = .ok ((), db')) (hlive : db.Live k)
    (hdb : db.Filed) : db'.Filed := by
  obtain ⟨_, hpending, h⟩ := (exec_reads_iff (requirePending_readOnly k)).mp h
  obtain ⟨now, -, h⟩ := (exec_reads_iff ReadOnly.now).mp h
  obtain ⟨n, db₁, hupdate, hdecide⟩ := exec_bind_ok h
  refine decided_filed ?_ .active hpending hupdate hdecide hlive hdb
  exact fun _ => rfl

theorem rejectMinistry_filed {userId : Option UUID} {reason : String} {comment : Option String}
    (h : (rejectMinistry userId k reason comment).exec db t = .ok ((), db')) (hlive : db.Live k)
    (hdb : db.Filed) : db'.Filed := by
  obtain ⟨_, hpending, h⟩ := (exec_reads_iff (requirePending_readOnly k)).mp h
  obtain ⟨now, -, h⟩ := (exec_reads_iff ReadOnly.now).mp h
  obtain ⟨n, db₁, hupdate, hdecide⟩ := exec_bind_ok h
  refine decided_filed ?_ .rejected hpending hupdate hdecide hlive hdb
  exact fun _ => rfl

/-- A ministry that is gone takes its decisions along. -/
theorem deleteHard_filed (h : (MinistryRepository.deleteHard k).exec db t = .ok ((), db'))
    (hdb : db.Filed) : db'.Filed := by
  obtain ⟨_, db₁, hmembers, h⟩ := exec_bind_ok h
  rw [deleteMembers_after] at hmembers
  cases hmembers
  obtain ⟨_, db₂, happrovals, h⟩ := exec_bind_ok h
  obtain ⟨c, hc, rfl⟩ := exec_executed happrovals
  cases hc
  rw [approvalTable.delete_self] at h
  obtain ⟨_, db₃, hministry, h⟩ := exec_bind_ok h
  obtain ⟨c, hc, rfl⟩ := exec_executed hministry
  cases hc
  rw [ministryTable.delete_self] at h
  have hrest := exec_beside (p := do
      execute fun db => .ok (translationTable.delete (fun r => r.ministryId = k) db)
      deleteSchedules k
      deleteTargetAudiences k) ?_ h
  · have hmem : ∀ m, m ∈ db'.ministries ↔ m ∈ db.ministries ∧ m.id ≠ k := fun m => by
      rw [hrest.ministries]
      exact List.mem_filter.trans (and_congr_right fun _ => by simp)
    have hrows : db'.approvals = db.approvals.filter fun r => !decide (r.ministryId = k) :=
      hrest.approvals
    refine ⟨?_, fun r hr => ?_, fun m hm => ?_⟩
    · rw [hrest.ministries]
      exact hdb.distinct.sublist (List.filter_sublist.map _)
    · rw [hrows] at hr
      obtain ⟨hr, hne⟩ := List.mem_filter.mp hr
      obtain ⟨m, hm, hid⟩ := hdb.known r hr
      exact ⟨m, (hmem m).mpr ⟨hm, by simpa [hid] using hne⟩, hid⟩
    · obtain ⟨hm, hne⟩ := (hmem m).mp hm
      have hsame : decisions db' m.id = decisions db m.id := by
        unfold decisions
        rw [hrows, List.filter_filter]
        refine congrArg _ (List.filter_congr fun r _ => ?_)
        by_cases hr : r.ministryId = m.id <;> simp [hr, hne]
      rw [hsame]
      exact hdb.files m hm
  · refine Writes.bind (fun _ => ?_) (.execute fun db c hc => by cases hc; exact ⟨rfl, rfl⟩)
    refine Writes.bind (fun _ => ?_) (.execute fun db c hc => by cases hc; exact ⟨rfl, rfl⟩)
    exact .execute fun db c hc => by cases hc; exact ⟨rfl, rfl⟩

theorem deleteSoft_sameFiles {reason : Option String}
    (h : (MinistryRepository.deleteSoft k reason).exec db t = .ok ((), db')) :
    SameFiles db db' := by
  obtain ⟨c, hc, rfl⟩ := exec_executed h
  cases hc
  exact update_sameFiles (f := fun m => { m with isDeleted := true, deleteReason := reason })
    (fun _ => rfl) db

theorem restore_sameFiles {ids : List UUID}
    (h : (restoreMinistries ids).exec db t = .ok ((), db')) : SameFiles db db' := by
  obtain ⟨_, -, h⟩ := (exec_reads_iff (ReadOnly.raiseIf _ _)).mp h
  refine Writes.exec (R := SameFiles) (fun _ => ⟨rfl, rfl⟩) (fun h h' =>
    ⟨h'.approvals.trans h.approvals, h'.headings.trans h.headings⟩)
    (Writes.each (fun k => .execute fun db c hc => ?_) ids) h
  cases hc
  exact update_sameFiles (f := fun m => { m with isDeleted := false, deleteReason := none })
    (fun _ => rfl) db

/-! ## 5. Runs -/

/-- The requests about ministries, the plain creation of staff among them. -/
inductive OrgRequest
  | create (userId : Option UUID) (ministryId : UUID) (command : CreateMinistryCommand)
  | request (r : MinistryRequest)

def OrgRequest.body : OrgRequest → MinistryProg Unit
  | .create userId ministryId command => createMinistry userId ministryId command
  | .request r => r.body

/-- The ministry that a request submits or decides about. -/
def MinistryCall.files : MinistryCall → Option UUID
  | .submit _ ministryId => some ministryId
  | .resubmit _ ministryId => some ministryId
  | .approve ministryId _ => some ministryId
  | .approveAsIncumbent ministryId _ => some ministryId
  | .reject ministryId _ _ => some ministryId
  | .rejectAsIncumbent ministryId _ _ => some ministryId
  | _ => none

/-- **A request finds its ministry undeleted**, if it submits it or decides about it. -/
def OrgRequest.FindsLive (db : MinistryDb) (_ : Int) : OrgRequest → Prop
  | .create .. => True
  | .request r => ∀ k ∈ r.call.files, db.Live k

instance (db : MinistryDb) (t : Int) (r : OrgRequest) : Decidable (r.FindsLive db t) := by
  cases r with
  | create => exact .isTrue trivial
  | request r => exact inferInstanceAs (Decidable (∀ k ∈ r.call.files, db.Live k))

/-- **Each request keeps status and decisions in agreement.** -/
theorem filed_step (r : OrgRequest) (hdb : db.Filed) (hlive : r.FindsLive db t)
    (h : r.body.exec db t = .ok ((), db')) : db'.Filed := by
  cases r with
  | create userId k command => exact (createMinistry_filed h hdb).1
  | request r =>
  obtain ⟨userId, call⟩ := r
  cases call with
  | apply approvalId k command =>
    obtain ⟨_, -, h⟩ := (exec_reads_iff (requireOwnerPositionIncumbent_readOnly _)).mp h
    obtain ⟨_, db₁, hcreate, h⟩ := exec_bind_ok h
    obtain ⟨hdb₁, hlive₁⟩ := createMinistry_filed hcreate hdb
    dsimp only at h
    split at h
    · exact submitMinistry_filed h hlive₁ hdb₁
    · obtain ⟨_, db₂, hmembers, h⟩ := exec_bind_ok h
      have hbeside := exec_beside (replaceMembers_beside _) hmembers
      exact submitMinistry_filed h (fun m hm => hlive₁ m (hbeside.ministries ▸ hm))
        (hbeside.sameFiles.filed hdb₁)
  | updateRejected k command =>
    obtain ⟨_, -, h⟩ := (exec_reads_iff (requireRejected_readOnly ..)).mp h
    obtain ⟨_, db₁, hupdate, h⟩ := exec_bind_ok h
    have hdb₁ := (updateMinistry_sameFiles hupdate).filed hdb
    split at h
    · cases h
      exact hdb₁
    · exact (exec_beside (replaceMembers_beside _) h).sameFiles.filed hdb₁
  | submit approvalId k => exact submitMinistry_filed h (hlive k rfl) hdb
  | resubmit approvalId k =>
    obtain ⟨_, -, h⟩ := (exec_reads_iff (requireRejected_readOnly ..)).mp h
    exact submitMinistry_filed h (hlive k rfl) hdb
  | approve k comment => exact approveMinistry_filed h (hlive k rfl) hdb
  | approveAsIncumbent k comment =>
    obtain ⟨m, -, h⟩ := (exec_reads_iff (requireMinistry_readOnly k)).mp h
    obtain ⟨_, -, h⟩ := (exec_reads_iff (requireIncumbent_readOnly _ m)).mp h
    exact approveMinistry_filed h (hlive k rfl) hdb
  | reject k reason comment => exact rejectMinistry_filed h (hlive k rfl) hdb
  | rejectAsIncumbent k reason comment =>
    obtain ⟨m, -, h⟩ := (exec_reads_iff (requireMinistry_readOnly k)).mp h
    obtain ⟨_, -, h⟩ := (exec_reads_iff (requireIncumbent_readOnly _ m)).mp h
    exact rejectMinistry_filed h (hlive k rfl) hdb
  | update k command => exact (updateMinistry_sameFiles h).filed hdb
  | replaceMembers k members =>
    exact (exec_beside (replaceMembers_beside _) h).sameFiles.filed hdb
  | delete k command =>
    obtain ⟨_, -, h⟩ := (exec_reads_iff (requireMinistry_readOnly k)).mp h
    split at h
    · exact deleteHard_filed h hdb
    · exact (deleteSoft_sameFiles h).filed hdb
  | restore ids => exact (restore_sameFiles h).filed hdb

/-- Rejected by the incumbent, deleted, restored and submitted again. -/
def sampleRejection : MinistryRequest := ⟨some 1, .rejectAsIncumbent 20 "Name" none⟩

def sampleRemoval : MinistryRequest := ⟨some 1, .delete 20 {}⟩

def sampleResubmission : MinistryRequest := ⟨some 2, .resubmit 11 20⟩

def sampleApproval : MinistryRequest := ⟨some 1, .approve 20 none⟩

/-- The state after some requests, one an instant. -/
def servedInTurn : List OrgRequest → MinistryDb → Int → MinistryDb
  | [], db, _ => db
  | r :: rs, db, t => servedInTurn rs (r.body.after db t) (t + 1)

/-- Each of them finds its ministry undeleted. -/
def eachFindsLive : List OrgRequest → MinistryDb → Int → Bool
  | [], _, _ => true
  | r :: rs, db, t => decide (r.FindsLive db t) && eachFindsLive rs (r.body.after db t) (t + 1)

theorem inTurn_served : ∀ {rs : List OrgRequest} {db : MinistryDb} {t : Int},
    eachFindsLive rs db t = true → InTurn OrgRequest.body OrgRequest.FindsLive db₀ db →
      InTurn OrgRequest.body OrgRequest.FindsLive db₀ (servedInTurn rs db t)
  | [], _, _, _, hdb => hdb
  | r :: rs, db, t, h, hdb => by
    obtain ⟨hr, hrs⟩ := Bool.and_eq_true_iff.mp h
    show InTurn _ _ db₀ (servedInTurn rs (r.body.after db t) (t + 1))
    exact inTurn_served hrs (.call r t hdb (of_decide_eq_true hr))

def sampleStory : List OrgRequest :=
  [.request sampleApplication, .request sampleRejection, .request sampleRemoval,
    .request ⟨some 1, .restore [20]⟩, .request sampleResubmission, .request sampleApproval]

def sampleFiled : MinistryDb := servedInTurn sampleStory sampleOrg 0

theorem sampleOrg_filed : sampleOrg.Filed :=
  ⟨List.nodup_nil, fun _ h => absurd h List.not_mem_nil, fun _ h => absurd h List.not_mem_nil⟩

/-- A deleted ministry that waits for a decision, and is approved. -/
def sampleDeletedApproved : MinistryDb :=
  servedInTurn [.request sampleApplication, .request sampleRemoval, .request sampleApproval]
    sampleOrg 0

/-- **Approving a deleted ministry** writes the decision and not the status. -/
theorem approved_while_deleted :
    sampleDeletedApproved.ministries.map OrgMinistry.status = [.pendingApproval] ∧
      decisions sampleDeletedApproved 20 = [.approved] := by decide +kernel

/-! ### 5.2 Two decisions at once -/

/-- The incumbent rejects while staff approve: both have read the ministry before either writes. -/
def crossedDecisions : List (Action OrgRequest) :=
  [.begin (.request sampleApproval), .begin (.request ⟨some 1, .reject 20 "Name" none⟩), .start 0,
    .start 1] ++ List.replicate 3 (.statement 0) ++ List.replicate 3 (.statement 1) ++
    [.statement 0, .commit 0] ++ List.replicate 2 (.statement 0) ++ [.commit 0]

/-- **Two decisions at once** leave the status of the one and the decision of the other. -/
theorem decided_twice : ∃ s : Sys MinistryDb MinistryRow Empty OrgException OrgRequest,
    Run OrgRequest.body (fun _ _ => True)
        (Sys.idle (sampleApplication.body.after sampleOrg 0) 1) s ∧
      s.db.ministries.map OrgMinistry.status = [.rejected] ∧ decisions s.db 20 = [.approved] := by
  have hreplay : (replay OrgRequest.body (fun _ _ => true)
      (Sys.idle (sampleApplication.body.after sampleOrg 0) 1) crossedDecisions).map
        (fun s => (s.db.ministries.map OrgMinistry.status, decisions s.db 20)) =
      some ([.rejected], [.approved]) := by decide +kernel
  obtain ⟨s, hs, heval⟩ := Option.map_eq_some_iff.mp hreplay
  obtain ⟨hstatus, hdecisions⟩ := Prod.mk.inj heval
  exact ⟨s, run_of_replay (fun _ _ _ => trivial) .refl hs, hstatus, hdecisions⟩

end NewlifeCore.Org
