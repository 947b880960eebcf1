import NewlifeCore.Org.MinistryApprovals

/-!
# Every ministry keeps its stewards

A ministry gets its members from an application, which submits it in the same request, and they
change only in `replace_members`.  The one reads the stored members and the other the new ones, and
both ask for one primary and a secondary member; that no user is there twice is the constraint of
the table.
-/

namespace NewlifeCore.Org

open Txn Prog NewlifeCore.Org.MinistryRepository MinistryService MinistryApprovalService

variable {db db₀ db' db₁ : MinistryDb} {t : Int} {k : UUID} {new : List UUID}

/-! ## 1. Rosters -/

/-- One primary member and a secondary one. -/
structure HasStewards (rows : List OrgMinistryMember) : Prop where
  primary : (rows.map OrgMinistryMember.memberRole).count .primary = 1
  secondary : 1 ≤ (rows.map OrgMinistryMember.memberRole).count .secondary

/-- **A valid roster**: the stewards are there and no user is there twice. -/
structure ValidRoster (rows : List OrgMinistryMember) : Prop extends HasStewards rows where
  distinct : (rows.map OrgMinistryMember.userId).Nodup

/-- **The rosters of a state**: the members are unique and each ministry, deleted or not, has its
stewards. -/
structure MinistryDb.Rostered (db : MinistryDb) : Prop where
  unique : (db.members.map memberTable.name).Nodup
  stewards : ∀ m ∈ db.ministries, HasStewards (roster db m.id)

theorem roster_distinct (h : (db.members.map memberTable.name).Nodup) (k : UUID) :
    ((roster db k).map OrgMinistryMember.userId).Nodup := by
  have hsub : ((roster db k).map memberTable.name).Nodup :=
    h.sublist (List.filter_sublist.map _)
  refine List.Nodup.map_on ?_ hsub.of_map
  intro r hr r' hr' hu
  have hk : r.ministryId = k := by simpa using (List.mem_filter.mp hr).2
  have hk' : r'.ministryId = k := by simpa using (List.mem_filter.mp hr').2
  refine List.inj_on_of_nodup_map hsub hr hr' ?_
  show MinistryRow.member r.ministryId r.userId = .member r'.ministryId r'.userId
  rw [hk, hk', hu]

theorem MinistryDb.Rostered.valid (h : db.Rostered) {m : OrgMinistry} (hm : m ∈ db.ministries) :
    ValidRoster (roster db m.id) :=
  ⟨h.stewards m hm, roster_distinct h.unique m.id⟩

/-! ## 2. What keeps the members -/

/-- The members are what they were, and no ministry is there but those of before and `new`. -/
structure SameMembers (new : List UUID) (db db' : MinistryDb) : Prop where
  members : db'.members = db.members
  ids : ∀ m ∈ db'.ministries, m.id ∈ new ∨ ∃ m₀ ∈ db.ministries, m₀.id = m.id

theorem SameMembers.refl (db : MinistryDb) : SameMembers new db db :=
  ⟨rfl, fun m hm => .inr ⟨m, hm, rfl⟩⟩

theorem SameMembers.trans (h : SameMembers new db db₁) (h' : SameMembers new db₁ db') :
    SameMembers new db db' := by
  refine ⟨h'.members.trans h.members, fun m hm => ?_⟩
  rcases h'.ids m hm with hnew | ⟨m₁, hm₁, hid⟩
  · exact .inl hnew
  · rw [← hid]
    exact h.ids m₁ hm₁

/-- A change of another table. -/
theorem SameMembers.of_eq (hm : db'.members = db.members) (hi : db'.ministries = db.ministries) :
    SameMembers new db db' := ⟨hm, fun m h => .inr ⟨m, hi ▸ h, rfl⟩⟩

theorem SameMembers.roster (h : SameMembers new db db') (k : UUID) :
    roster db' k = roster db k := by
  unfold MinistryRepository.roster
  rw [h.members]

theorem SameMembers.rostered (h : SameMembers [] db db') (hdb : db.Rostered) : db'.Rostered := by
  refine ⟨h.members ▸ hdb.unique, fun m hm => ?_⟩
  obtain hnone | ⟨m₀, hm₀, hid⟩ := h.ids m hm
  · cases hnone
  · rw [h.roster, ← hid]
    exact hdb.stewards m₀ hm₀

theorem exec_sameMembers {α : Type} {p : MinistryProg α} {a : α} (hp : p.Writes (SameMembers new))
    (h : p.exec db t = .ok (a, db')) : SameMembers new db db' :=
  Writes.exec SameMembers.refl SameMembers.trans hp h

/-- An UPDATE of the ministries rewrites rows that are there. -/
theorem update_sameMembers (db : MinistryDb) {p : OrgMinistry → Bool}
    {f : OrgMinistry → OrgMinistry} {hf : ∀ m, ministryTable.name (f m) = ministryTable.name m}
    {view : MinistryDb} : SameMembers new db ((ministryTable.update p f hf view).apply db) := by
  refine ⟨rfl, fun m hm => .inr ?_⟩
  obtain ⟨m₀, hm₀, rfl⟩ := List.mem_map.mp hm
  refine ⟨m₀, hm₀, ?_⟩
  split
  · exact (MinistryRow.ministry.inj (hf m₀)).symm
  · rfl

theorem updateMinistry_writes {values : OrgMinistry → OrgMinistry}
    {hvalues : ∀ m, (values m).id = m.id} :
    (MinistryRepository.updateMinistry k values hvalues).Writes (SameMembers new) := by
  refine ⟨fun db c hc => ?_, fun n => trivial⟩
  dsimp only at hc
  split at hc
  · cases hc
  · cases hc
    exact update_sameMembers db

theorem buildSchedulePayloads_readOnly (schedules : List MinistryScheduleCommand) :
    ReadOnly (buildSchedulePayloads k schedules) := by
  refine ReadOnly.mapEach (fun x => ?_) _
  refine ReadOnly.bind (fun _ => ReadOnly.ret _) ?_
  unfold encodeScheduleDaysMask
  split
  · trivial
  · split <;> trivial

theorem validateMinistrySchedules_readOnly (schedules : List MinistryScheduleCommand) :
    ReadOnly (validateMinistrySchedules schedules) := by
  refine ReadOnly.each (fun x => ?_) _
  dsimp only
  split <;> trivial

theorem validateTargetAudiences_readOnly (audienceIds : List UUID) :
    ReadOnly (validateTargetAudiences audienceIds) := by
  unfold validateTargetAudiences
  split
  · trivial
  · refine ReadOnly.bind (fun active => ?_) (ReadOnly.select _)
    exact ReadOnly.bind (fun _ => ReadOnly.raiseIf _ _) (ReadOnly.raiseIf _ _)

theorem validateMinistryTypeId_readOnly (ministryTypeId : Option UUID) :
    ReadOnly (validateMinistryTypeId ministryTypeId) := by
  cases ministryTypeId with
  | none => trivial
  | some id =>
    exact ReadOnly.bind (fun _ => ReadOnly.bind (fun _ => ReadOnly.ret _) (ReadOnly.raiseIf _ _))
      (ReadOnly.select _)

/-- What is done to the texts, schedules and audiences of ministries is within the relation. -/
def AllowsDetails (R : MinistryDb → MinistryDb → Prop) : Prop :=
  ∀ {db db' : MinistryDb}, db'.ministries = db.ministries → db'.members = db.members →
    db'.approvals = db.approvals → R db db'

section Details

variable {R : MinistryDb → MinistryDb → Prop} (hR : AllowsDetails R)
include hR

theorem upsertTranslations_writes (rows : List OrgMinistryTranslation) :
    (upsertTranslations rows).Writes R := by
  unfold upsertTranslations
  split
  · exact .each (fun row => .execute fun db c hc => by cases hc; exact hR rfl rfl rfl) _
  · trivial

theorem validateAndUpsertTranslations_writes (rows : List OrgMinistryTranslation) :
    (validateAndUpsertTranslations rows).Writes R := by
  unfold validateAndUpsertTranslations
  split
  · trivial
  · refine Writes.bind (fun active => ?_) (.readOnly (ReadOnly.select _))
    exact Writes.bind (fun _ => upsertTranslations_writes hR rows) (.readOnly (ReadOnly.raiseIf _ _))

theorem deleteSchedules_writes : (deleteSchedules k).Writes R :=
  .execute fun db c hc => by cases hc; exact hR rfl rfl rfl

theorem deleteTargetAudiences_writes : (deleteTargetAudiences k).Writes R :=
  .execute fun db c hc => by cases hc; exact hR rfl rfl rfl

theorem repository_upsertSchedules_writes (rows : List OrgMinistrySchedule) :
    (MinistryRepository.upsertSchedules k rows).Writes R := by
  refine Writes.bind (fun _ => ?_) (deleteSchedules_writes hR)
  split
  · trivial
  · exact .execute fun db c hc => by cases hc; exact hR rfl rfl rfl

theorem repository_upsertTargetAudiences_writes (audienceIds : List UUID) :
    (MinistryRepository.upsertTargetAudiences k audienceIds).Writes R := by
  refine Writes.bind (fun _ => ?_) (deleteTargetAudiences_writes hR)
  split
  · trivial
  · refine .execute fun db c hc => ?_
    split at hc
    · cases hc
    · cases hc
      exact hR rfl rfl rfl

theorem upsertSchedules_writes (schedules : Option (List MinistryScheduleCommand)) :
    (MinistryService.upsertSchedules k schedules).Writes R := by
  cases schedules with
  | none => trivial
  | some schedules =>
    refine Writes.bind (fun _ => ?_) (.readOnly (validateMinistrySchedules_readOnly _))
    exact Writes.bind (fun rows => repository_upsertSchedules_writes hR rows)
      (.readOnly (buildSchedulePayloads_readOnly _))

theorem upsertTargetAudiences_writes (audienceIds : Option (List UUID)) :
    (MinistryService.upsertTargetAudiences k audienceIds).Writes R := by
  cases audienceIds with
  | none => trivial
  | some audienceIds =>
    exact Writes.bind (fun _ => repository_upsertTargetAudiences_writes hR _)
      (.readOnly (validateTargetAudiences_readOnly _))

end Details

theorem sameMembers_details : AllowsDetails (SameMembers new) := fun hi hm _ => .of_eq hm hi

theorem requireMinistry_readOnly (k : UUID) : ReadOnly (requireMinistry k) := by
  refine ReadOnly.bind (fun m => ?_) (ReadOnly.select _)
  cases m <;> trivial

theorem updateMinistry_sameMembers (command : UpdateMinistryCommand) :
    (MinistryService.updateMinistry k command).Writes (SameMembers new) := by
  refine Writes.bind (fun _ => ?_) (.readOnly (requireMinistry_readOnly k))
  refine Writes.bind (fun type => ?_) (.readOnly (validateMinistryTypeId_readOnly _))
  refine Writes.bind (fun affected => ?_) updateMinistry_writes
  refine Writes.bind (fun _ => ?_) (.readOnly (ReadOnly.raiseIf _ _))
  refine Writes.bind (fun _ => ?_) (validateAndUpsertTranslations_writes sameMembers_details _)
  exact Writes.bind (fun _ => upsertTargetAudiences_writes sameMembers_details _)
    (upsertSchedules_writes sameMembers_details _)

/-! ## 3. What the requests leave -/

/-- A creation adds its ministry and no member. -/
theorem createMinistry_exec {userId : Option UUID} {command : CreateMinistryCommand}
    (h : (createMinistry userId k command).exec db t = .ok ((), db')) : SameMembers [k] db db' := by
  obtain ⟨_, -, h⟩ := (exec_reads_iff (ReadOnly.raiseIf _ _)).mp h
  obtain ⟨type, -, h⟩ := (exec_reads_iff (validateMinistryTypeId_readOnly _)).mp h
  obtain ⟨_, -, h⟩ := (exec_reads_iff (validateTargetAudiences_readOnly _)).mp h
  obtain ⟨_, -, h⟩ := (exec_reads_iff (validateMinistrySchedules_readOnly _)).mp h
  refine exec_sameMembers (p := insertAll _ command) ?_ (exec_mapError_ok.mp h)
  refine Writes.bind (fun _ => ?_) (.execute fun db c hc => ?_)
  · refine Writes.bind (fun _ => ?_) (validateAndUpsertTranslations_writes sameMembers_details _)
    refine Writes.bind (fun rows => ?_) (.readOnly (buildSchedulePayloads_readOnly _))
    exact Writes.bind (fun _ => repository_upsertTargetAudiences_writes sameMembers_details _)
      (repository_upsertSchedules_writes sameMembers_details _)
  · split at hc
    · cases hc
    · split at hc
      · cases hc
      · cases hc
        refine ⟨rfl, fun m hm => ?_⟩
        rcases List.mem_append.mp hm with hm | hm
        · exact .inr ⟨m, hm, rfl⟩
        · obtain rfl := List.mem_singleton.mp hm
          exact .inl (List.mem_singleton_self _)

/-- What the check of the roles asks. -/
theorem validatePrimaryAndSecondary_ok {roles : List MinistryMemberRole} {x : Unit}
    (h : (validatePrimaryAndSecondary roles).eval db t = .ok x) :
    roles.count .primary = 1 ∧ 1 ≤ roles.count .secondary := by
  obtain ⟨_, hone, hsome⟩ := (eval_bind_iff (ReadOnly.raiseIf _ _)).mp h
  have hone := eval_raiseIf_ok.mp hone
  have hsome := eval_raiseIf_ok.mp hsome
  simp only [ne_eq, decide_not, Bool.not_eq_false', decide_eq_true_eq] at hone
  simp only [decide_eq_false_iff_not, not_lt] at hsome
  exact ⟨hone, hsome⟩

/-- The members of a ministry after a replacement, and those of the others. -/
structure Replaced (k : UUID) (rows : List OrgMinistryMember) (db db' : MinistryDb) : Prop where
  ministries : db'.ministries = db.ministries
  members : db'.members = (db.members.filter fun r => r.ministryId ≠ k) ++ rows
  unique : (db'.members.map memberTable.name).Nodup

theorem deleteMembers_after (db : MinistryDb) (t : Int) :
    (deleteMembers k).exec db t =
      .ok ((), { db with members := db.members.filter fun r => r.ministryId ≠ k }) := by
  have hrows : (db.members.filter fun r => !decide (r.ministryId = k)) =
      db.members.filter fun r => decide (r.ministryId ≠ k) :=
    List.filter_congr fun r _ => by simp
  rw [← hrows]
  exact (exec_execute rfl).trans (congrArg (fun x => Except.ok ((), x)) memberTable.delete_self)

theorem replaceMembers_exec {members : List MinistryMemberEntryCommand}
    (h : (MinistryService.replaceMembers k members).exec db t = .ok ((), db')) :
    Replaced k (memberRows k members) db db' ∧ HasStewards (memberRows k members) := by
  obtain ⟨_, -, h⟩ := (exec_reads_iff (requireMinistry_readOnly k)).mp h
  have hcheck : ReadOnly (validatePrimaryAndSecondary
      (members.map MinistryMemberEntryCommand.memberRole)) :=
    ReadOnly.bind (fun _ => ReadOnly.raiseIf _ _) (ReadOnly.raiseIf _ _)
  obtain ⟨_, hroles, h⟩ := (exec_reads_iff hcheck).mp h
  obtain ⟨hone, hsome⟩ := validatePrimaryAndSecondary_ok hroles
  have hmap : (memberRows k members).map OrgMinistryMember.memberRole =
      members.map MinistryMemberEntryCommand.memberRole := by
    rw [memberRows, List.map_map]
    rfl
  have hstewards : HasStewards (memberRows k members) := ⟨by rw [hmap, hone], by rw [hmap]; exact hsome⟩
  refine ⟨?_, hstewards⟩
  obtain ⟨_, db₁, hdelete, h⟩ := exec_bind_ok h
  rw [deleteMembers_after] at hdelete
  cases hdelete
  have hne : (memberRows k members).isEmpty = false := by
    cases hrows : memberRows k members with
    | nil =>
      have := hstewards.primary
      rw [hrows] at this
      cases this
    | cons _ _ => rfl
  rw [hne, if_neg Bool.false_ne_true] at h
  obtain ⟨c, hc, rfl⟩ := exec_executed h
  split at hc
  · cases hc
  · rename_i hunique
    split at hc
    · cases hc
    · cases hc
      exact ⟨rfl, rfl, not_not.mp hunique⟩

/-- The new members are the roster, and the other ones stay. -/
theorem Replaced.roster {rows : List OrgMinistryMember} (h : Replaced k rows db db')
    (hrows : ∀ r ∈ rows, r.ministryId = k) (j : UUID) :
    roster db' j = if j = k then rows else roster db j := by
  unfold MinistryRepository.roster
  rw [h.members, List.filter_append, List.filter_filter]
  split
  next hj =>
    subst hj
    rw [List.filter_eq_nil_iff.mpr fun r _ => by simp, List.nil_append, List.filter_eq_self]
    exact fun r hr => decide_eq_true (hrows r hr)
  next hj =>
    have hnone : rows.filter (fun r => decide (r.ministryId = j)) = [] :=
      List.filter_eq_nil_iff.mpr fun r hr => by simp [hrows r hr, Ne.symm hj]
    rw [hnone, List.append_nil]
    refine List.filter_congr fun r _ => ?_
    by_cases hr : r.ministryId = j <;> simp [hr, hj]

theorem Replaced.rostered {rows : List OrgMinistryMember} (h : Replaced k rows db db')
    (hrows : ∀ r ∈ rows, r.ministryId = k) (hstewards : HasStewards rows) (hdb : db.Rostered) :
    db'.Rostered := by
  refine ⟨h.unique, fun m hm => ?_⟩
  rw [h.roster hrows]
  split
  · exact hstewards
  · exact hdb.stewards m (h.ministries ▸ hm)

theorem mem_memberRows {members : List MinistryMemberEntryCommand} :
    ∀ r ∈ memberRows k members, r.ministryId = k := by
  intro r hr
  obtain ⟨m, -, rfl⟩ := List.mem_map.mp hr
  rfl

theorem requireOwnerPositionIncumbent_readOnly (positionId : UUID) :
    ReadOnly (requireOwnerPositionIncumbent positionId) :=
  ReadOnly.bind (fun _ => ReadOnly.raiseIf _ _) (ReadOnly.select _)

theorem insertApproval_writes (row : OrgMinistryApproval) :
    (insertApproval row).Writes (SameMembers new) := by
  refine .execute fun db c hc => ?_
  split at hc
  · cases hc
  · split at hc
    · cases hc
    · cases hc
      exact .of_eq rfl rfl

theorem updateApproval_writes {status : MinistryApprovalStatus} {userId : Option UUID} {now : Int}
    {comment : Option String} :
    (updateApproval k status userId now comment).Writes (SameMembers new) := by
  refine .execute fun db c hc => ?_
  split at hc
  · cases hc
  · cases hc
    exact .of_eq rfl rfl

/-- **A submission finds the stewards** and keeps the members. -/
theorem submitMinistry_exec {userId : Option UUID} {approvalId : UUID}
    (h : (submitMinistry userId approvalId k).exec db t = .ok ((), db')) :
    SameMembers [] db db' ∧ HasStewards (roster db k) := by
  obtain ⟨ministry, -, h⟩ := (exec_reads_iff (requireMinistry_readOnly k)).mp h
  obtain ⟨_, -, h⟩ := (exec_reads_iff (ReadOnly.raiseIf _ _)).mp h
  split at h
  · cases h
  · rename_i positionId _
    obtain ⟨_, -, h⟩ := (exec_reads_iff (requireOwnerPositionIncumbent_readOnly _)).mp h
    have hlist : ReadOnly (MinistryService.listMembers k) :=
      ReadOnly.bind (fun _ => ReadOnly.select _) (requireMinistry_readOnly k)
    have hcheck : ∀ roles, ReadOnly (validatePrimaryAndSecondary roles) := fun roles =>
      ReadOnly.bind (fun _ => ReadOnly.raiseIf _ _) (ReadOnly.raiseIf _ _)
    obtain ⟨_, hvalid, h⟩ := (exec_reads_iff (ReadOnly.bind (fun _ => hcheck _) hlist)).mp h
    obtain ⟨members, hmembers, hroles⟩ := (eval_bind_iff hlist).mp hvalid
    obtain ⟨_, -, hread⟩ := (eval_bind_iff (requireMinistry_readOnly k)).mp hmembers
    cases hread
    refine ⟨?_, ⟨(validatePrimaryAndSecondary_ok hroles).1, (validatePrimaryAndSecondary_ok hroles).2⟩⟩
    refine exec_sameMembers ?_ h
    intro now
    exact Writes.bind (fun _ => insertApproval_writes _) updateMinistry_writes

/-- An application gives its ministry stewards, whatever it says about members. -/
theorem createApplication_exec {userId : Option UUID} {approvalId : UUID}
    {command : MinistryApplicationCommand}
    (h : (createApplication userId approvalId k command).exec db t = .ok ((), db'))
    (hdb : db.Rostered) : db'.Rostered := by
  obtain ⟨_, -, h⟩ := (exec_reads_iff (requireOwnerPositionIncumbent_readOnly _)).mp h
  obtain ⟨_, db₁, hcreate, h⟩ := exec_bind_ok h
  have hcreated := createMinistry_exec hcreate
  have hothers : ∀ m ∈ db₁.ministries, m.id ≠ k → HasStewards (roster db₁ m.id) := by
    intro m hm hne
    rcases hcreated.ids m hm with hk | ⟨m₀, hm₀, hid⟩
    · exact absurd (List.mem_singleton.mp hk) hne
    · rw [hcreated.roster, ← hid]
      exact hdb.stewards m₀ hm₀
  -- the submission reads the members that the creation or the replacement left
  dsimp only at h
  split at h
  · obtain ⟨hsame, hstewards⟩ := submitMinistry_exec h
    refine hsame.rostered ⟨hcreated.members ▸ hdb.unique, fun m hm => ?_⟩
    by_cases hk : m.id = k
    · rw [hk]
      exact hstewards
    · exact hothers m hm hk
  · obtain ⟨_, db₂, hmembers, hsubmit⟩ := exec_bind_ok h
    obtain ⟨hsame, hstewards⟩ := submitMinistry_exec hsubmit
    have hreplaced := (replaceMembers_exec hmembers).1
    refine hsame.rostered ⟨hreplaced.unique, fun m hm => ?_⟩
    by_cases hk : m.id = k
    · rw [hk]
      exact hstewards
    · rw [hreplaced.roster mem_memberRows, if_neg hk]
      exact hothers m (hreplaced.ministries ▸ hm) hk

theorem requirePending_readOnly (k : UUID) : ReadOnly (requirePending k) :=
  ReadOnly.bind (fun _ => ReadOnly.raiseIf _ _) (requireMinistry_readOnly k)

theorem approveMinistry_writes (userId : Option UUID) (comment : Option String) :
    (approveMinistry userId k comment).Writes (SameMembers new) := by
  refine Writes.bind (fun _ => ?_) (.readOnly (requirePending_readOnly k))
  intro now
  exact Writes.bind (fun _ => updateApproval_writes) updateMinistry_writes

theorem rejectMinistry_writes (userId : Option UUID) (reason : String) (comment : Option String) :
    (rejectMinistry userId k reason comment).Writes (SameMembers new) := by
  refine Writes.bind (fun _ => ?_) (.readOnly (requirePending_readOnly k))
  intro now
  exact Writes.bind (fun _ => updateApproval_writes) updateMinistry_writes

theorem requireAuthenticatedUser_readOnly (userId : Option UUID) :
    ReadOnly (requireAuthenticatedUser userId) := by
  cases userId <;> trivial

theorem requireIncumbent_readOnly (userId : Option UUID) (ministry : OrgMinistry) :
    ReadOnly (requireIncumbent userId ministry) := by
  refine ReadOnly.bind (fun user => ?_) (requireAuthenticatedUser_readOnly userId)
  refine ReadOnly.bind (fun _ => ReadOnly.bind (fun _ => ReadOnly.ret _) (ReadOnly.raiseIf _ _)) ?_
  unfold isIncumbentOfMinistry
  split
  · trivial
  · exact ReadOnly.bind (fun _ => ReadOnly.ret _) (ReadOnly.select _)

theorem requireApplicantOrSteward_readOnly (userId : Option UUID) (ministry : OrgMinistry) :
    ReadOnly (requireApplicantOrSteward userId ministry) := by
  refine ReadOnly.bind (fun user => ?_) (requireAuthenticatedUser_readOnly userId)
  split
  · trivial
  · exact ReadOnly.bind (fun _ => ReadOnly.bind (fun _ => ReadOnly.ret _) (ReadOnly.raiseIf _ _))
      (ReadOnly.select _)

theorem requireRejected_readOnly (userId : Option UUID) (k : UUID) (detail : String)
    (errorCode : OrgErrorCode) : ReadOnly (requireRejected userId k detail errorCode) := by
  refine ReadOnly.bind (fun ministry => ?_) (requireMinistry_readOnly k)
  exact ReadOnly.bind (fun _ => ReadOnly.bind (fun _ => ReadOnly.ret _)
    (requireApplicantOrSteward_readOnly userId ministry)) (ReadOnly.raiseIf _ _)

theorem deleteSoft_writes (reason : Option String) :
    (MinistryRepository.deleteSoft k reason).Writes (SameMembers new) :=
  .execute fun db _ hc => by cases hc; exact update_sameMembers db

theorem restoreMinistry_writes (k : UUID) : (restoreMinistry k).Writes (SameMembers new) :=
  .execute fun db _ hc => by cases hc; exact update_sameMembers db

/-- A ministry that is gone leaves the other ones and their members. -/
theorem deleteHard_exec (h : (MinistryRepository.deleteHard k).exec db t = .ok ((), db')) :
    db'.members = (db.members.filter fun r => r.ministryId ≠ k) ∧
      ∀ m ∈ db'.ministries, m.id ≠ k ∧ ∃ m₀ ∈ db.ministries, m₀.id = m.id := by
  obtain ⟨_, db₁, hdelete, h⟩ := exec_bind_ok h
  rw [deleteMembers_after] at hdelete
  cases hdelete
  obtain ⟨_, db₂, happrovals, h⟩ := exec_bind_ok h
  cases happrovals
  obtain ⟨_, db₃, hministry, h⟩ := exec_bind_ok h
  obtain ⟨c, hc, rfl⟩ := exec_executed hministry
  cases hc
  rw [ministryTable.delete_self] at h
  have hwrites : Writes (SameMembers []) (do
      execute fun db => .ok (translationTable.delete (fun r => r.ministryId = k) db)
      deleteSchedules k
      deleteTargetAudiences k : MinistryProg Unit) := by
    refine Writes.bind (fun _ => ?_) (.execute fun _ _ hc => by cases hc; exact .of_eq rfl rfl)
    exact Writes.bind (fun _ => deleteTargetAudiences_writes sameMembers_details)
      (deleteSchedules_writes sameMembers_details)
  have hrest := exec_sameMembers hwrites h
  refine ⟨hrest.members, fun m hm => ?_⟩
  obtain hnone | ⟨m₀, hm₀, hid⟩ := hrest.ids m hm
  · cases hnone
  · obtain ⟨hm₀, hne⟩ := List.mem_filter.mp hm₀
    rw [← hid]
    exact ⟨by simpa using hne, m₀, hm₀, rfl⟩

theorem deleteHard_rostered (h : (MinistryRepository.deleteHard k).exec db t = .ok ((), db'))
    (hdb : db.Rostered) : db'.Rostered := by
  obtain ⟨hmembers, hministries⟩ := deleteHard_exec h
  refine ⟨?_, fun m hm => ?_⟩
  · rw [hmembers]
    exact hdb.unique.sublist (List.filter_sublist.map _)
  · obtain ⟨hne, m₀, hm₀, hid⟩ := hministries m hm
    have hroster : roster db' m.id = roster db m.id := by
      unfold MinistryRepository.roster
      rw [hmembers, List.filter_filter]
      refine List.filter_congr fun r _ => ?_
      by_cases hr : r.ministryId = m.id
      · simpa [hr] using hne
      · simp [hr]
    rw [hroster, ← hid]
    exact hdb.stewards m₀ hm₀

/-! ## 4. Runs -/

/-- **Each request keeps the rosters.** -/
theorem rostered_step (r : MinistryRequest) (hdb : db.Rostered)
    (h : r.body.exec db t = .ok ((), db')) : db'.Rostered := by
  obtain ⟨userId, call⟩ := r
  cases call with
  | apply approvalId k command => exact createApplication_exec h hdb
  | updateRejected k command =>
    obtain ⟨_, -, h⟩ := (exec_reads_iff (requireRejected_readOnly ..)).mp h
    obtain ⟨_, db₁, hupdate, h⟩ := exec_bind_ok h
    have hdb₁ := (exec_sameMembers (updateMinistry_sameMembers _) hupdate).rostered hdb
    split at h
    · cases h
      exact hdb₁
    · obtain ⟨hreplaced, hstewards⟩ := replaceMembers_exec h
      exact hreplaced.rostered mem_memberRows hstewards hdb₁
  | submit approvalId k => exact (submitMinistry_exec h).1.rostered hdb
  | resubmit approvalId k =>
    obtain ⟨_, -, h⟩ := (exec_reads_iff (requireRejected_readOnly ..)).mp h
    exact (submitMinistry_exec h).1.rostered hdb
  | approve k comment => exact (exec_sameMembers (approveMinistry_writes _ _) h).rostered hdb
  | approveAsIncumbent k comment =>
    obtain ⟨m, -, h⟩ := (exec_reads_iff (requireMinistry_readOnly k)).mp h
    obtain ⟨_, -, h⟩ := (exec_reads_iff (requireIncumbent_readOnly _ m)).mp h
    exact (exec_sameMembers (approveMinistry_writes _ _) h).rostered hdb
  | reject k reason comment =>
    exact (exec_sameMembers (rejectMinistry_writes _ _ _) h).rostered hdb
  | rejectAsIncumbent k reason comment =>
    obtain ⟨m, -, h⟩ := (exec_reads_iff (requireMinistry_readOnly k)).mp h
    obtain ⟨_, -, h⟩ := (exec_reads_iff (requireIncumbent_readOnly _ m)).mp h
    exact (exec_sameMembers (rejectMinistry_writes _ _ _) h).rostered hdb
  | update k command => exact (exec_sameMembers (updateMinistry_sameMembers _) h).rostered hdb
  | replaceMembers k members =>
    obtain ⟨hreplaced, hstewards⟩ := replaceMembers_exec h
    exact hreplaced.rostered mem_memberRows hstewards hdb
  | delete k command =>
    obtain ⟨_, -, h⟩ := (exec_reads_iff (requireMinistry_readOnly k)).mp h
    split at h
    · exact deleteHard_rostered h hdb
    · exact (exec_sameMembers (deleteSoft_writes _) h).rostered hdb
  | restore ids =>
    obtain ⟨_, -, h⟩ := (exec_reads_iff (ReadOnly.raiseIf _ _)).mp h
    exact (exec_sameMembers (Writes.each restoreMinistry_writes ids) h).rostered hdb

/-- **Every live ministry keeps a valid roster**: in every state that requests reach, each ministry
that is not deleted has one primary and a secondary member, and no user twice. -/
theorem ministries_keep_rosters (hministries : db₀.ministries = []) (hmembers : db₀.members = [])
    (h : InTurn MinistryRequest.body (fun _ _ _ => True) db₀ db) :
    ∀ m ∈ db.ministries, m.isDeleted = false → ValidRoster (roster db m.id) := by
  have hempty : db₀.Rostered := by
    refine ⟨?_, ?_⟩
    · rw [hmembers]
      exact List.nodup_nil
    · rw [hministries]
      exact fun m hm => absurd hm List.not_mem_nil
  have hrostered : db.Rostered :=
    h.invariant (I := MinistryDb.Rostered) hempty fun r _ _ _ hI _ hr => rostered_step r hI hr
  exact fun m hm _ => hrostered.valid hm

/-- A position with an incumbent, and the users who are to be stewards. -/
def sampleOrg : MinistryDb where
  positions := [{ id := 1 }]
  userIds := [1, 2, 3]
  assignments := [{ id := 1, positionId := 1, userId := 1, startAt := 0 }]
  locales := [{ id := 1 }]

def sampleApplication : MinistryRequest :=
  ⟨some 2, .apply 10 20
    { ownerPositionId := 1
      translations := [{ localeId := 1, name := "Choir" }]
      members := [⟨2, .primary, none, none⟩, ⟨3, .secondary, none, none⟩] }⟩

/-- The incumbent rejects it, and a steward hands the first place to the other. -/
def sampleChange : MinistryRequest :=
  ⟨some 3, .updateRejected 20
    { members := some [⟨3, .primary, none, none⟩, ⟨2, .secondary, none, none⟩] }⟩

def sampleRoster : MinistryDb :=
  sampleChange.body.after ((MinistryRequest.mk (some 1) (.rejectAsIncumbent 20 "Name" none)).body.after
    (sampleApplication.body.after sampleOrg 0) 1) 2

theorem ministries_keep_rosters_changed :
    (sampleRoster.ministries.map OrgMinistry.id = [20] ∧ (roster sampleRoster 20).map
      (fun r => (r.userId, r.memberRole)) = [(3, .primary), (2, .secondary)]) ∧
    ∀ m ∈ sampleRoster.ministries, m.isDeleted = false → ValidRoster (roster sampleRoster m.id) :=
  ⟨by decide +kernel, @ministries_keep_rosters sampleRoster sampleOrg rfl rfl
    (.call _ 2 (.call _ 1 (.call _ 0 .refl trivial) trivial) trivial)⟩

end NewlifeCore.Org
