import NewlifeCore.Facility.PersonalViews
import NewlifeCore.Lists

/-!
# The conflicts that a member is shown

The conflict list of a Personal schedule, in two states that differ in who occupies: what closes
rooms and what exceeds the quota is the same, so only the groups of occupied rooms decide.  They can
be read back from the list, date by date.
-/

namespace NewlifeCore

open Txn Prog RecurringBookingService

variable {viewer : UUID} {db db' : Db} {t : Int} {app : App} {r : Request}
  {command : CreateRecurringBookingSeriesCommand} {prepared : PreparedSeries}

/-! ## 1. What a Personal proposal is prepared to -/

/-- A proposal that is prepared for the viewer, without priority. -/
structure PreparedFor (viewer : UUID) (p : PreparedSeries) : Prop where
  booker : p.bookerId = viewer
  priority : p.isPriority = false
  nonempty : p.occurrences ≠ []
  dates : (p.occurrences.map PreparedOccurrence.occurrenceDate).Nodup

theorem prepareSeries_booker (app : App) (r : Request) (hpersonal : command.ministryId = none)
    (hviewer : ∀ u, r.operatorId = some u → command.userId.getD u = viewer) :
    Returns (fun p => p.bookerId = viewer ∧ p.isPriority = false)
      (prepareSeries app r command) := by
  have hoperator : Returns (fun u => r.operatorId = some u) (authenticatedUser r) := by
    unfold authenticatedUser
    split
    · trivial
    · rename_i u hu
      exact hu
  have hpriority : ∀ bookerId, Returns (fun b => b = false)
      (seriesPriority command.ministryId bookerId) := by
    intro bookerId
    rw [hpersonal]
    rfl
  refine Returns.bind (fun operatorId hu => ?_) hoperator
  refine Returns.seq _ fun _ => Returns.seq _ fun _ => Returns.seq _ fun _ => ?_
  refine Returns.seq _ fun _ => Returns.seq _ fun _ => Returns.seq _ fun _ => ?_
  refine Returns.seq _ fun _ => Returns.seq _ fun _ => Returns.seq _ fun _ => ?_
  refine Returns.seq _ fun _ => Returns.seq _ fun _ => Returns.seq _ fun _ => ?_
  refine Returns.seq _ fun _ => Returns.seq _ fun _ => ?_
  refine Returns.bind (fun _ hb => ?_) (hpriority _)
  exact ⟨hviewer operatorId hu, hb⟩

theorem prepareSeries_for (hpersonal : command.ministryId = none)
    (hviewer : ∀ u, r.operatorId = some u → command.userId.getD u = viewer)
    (h : (prepareSeries app r command).eval db t = .ok prepared) : PreparedFor viewer prepared := by
  have hexec := eval_ok (prepareSeries_readOnly app r command) h
  have haccepted := exec_returns (prepareSeries_returns app r command) hexec
  obtain ⟨hbooker, hpriority⟩ := exec_returns (prepareSeries_booker app r hpersonal hviewer) hexec
  refine ⟨hbooker, hpriority, fun hnil => ?_, ?_⟩
  · have hfirst := haccepted.first
    rw [hnil] at hfirst
    cases hfirst
  · rw [haccepted.on.1]
    exact (weeklyOccurrenceDates_pairwise _ _).imp fun {a b} hab => by omega

/-! ## 2. The list -/

/-- The conflict that a group of occupied rooms shows as. -/
def shownTaken (o : PreparedOccurrence) (ids : List UUID) : MemberConflict where
  occurrenceDate := o.occurrenceDate
  kind := .occupancy
  facilityIds := ids
  isOverridable := false
  ministryId := none
  ministryStewardDisplayName := none
  ministryStewardEmail := none
  bookerDisplayName := none
  bookerEmail := none

/-- The occurrences' conflicts, by what closes their rooms. -/
def metConflicts (db : Db) (t : Int) (rooms : List BookingRoomLineCommand)
    (closed : PreparedOccurrence → List SeriesConflict) (occurrences : List PreparedOccurrence) :
    List SeriesConflict :=
  occurrences.flatMap fun o => (occupantGroups db t rooms o).map (takenConflict o) ++ closed o

theorem metConflicts_shown (rooms : List BookingRoomLineCommand)
    (closed : PreparedOccurrence → List SeriesConflict) (occurrences : List PreparedOccurrence) :
    memberSafeConflicts (metConflicts db t rooms closed occurrences) =
      occurrences.flatMap fun o => (roomGroups db t rooms o).map (shownTaken o) ++
        memberSafeConflicts (closed o) := by
  rw [memberSafeConflicts, metConflicts, List.map_flatMap]
  refine List.flatMap_congr fun o _ => ?_
  rw [List.map_append, List.map_map, roomGroups, List.map_map]
  rfl

/-- The order of the sort, on what is shown. -/
def memberLe (a b : MemberConflict) : Prop :=
  a.occurrenceDate < b.occurrenceDate ∨ a.occurrenceDate = b.occurrenceDate ∧
    (kindOrder a.kind < kindOrder b.kind ∨ kindOrder a.kind = kindOrder b.kind ∧
      (a.isOverridable ∨ ¬b.isOverridable))

instance (a b : MemberConflict) : Decidable (memberLe a b) := by
  unfold memberLe; infer_instance

theorem memberSafeConflicts_sorted (conflicts : List SeriesConflict) :
    memberSafeConflicts (conflicts.insertionSort conflictLe) =
      (memberSafeConflicts conflicts).insertionSort memberLe :=
  List.map_insertionSort conflictLe memberLe SeriesConflict.toMember conflicts
    fun _ _ _ _ => Iff.rfl

/-- **The two conflict lists of a Personal proposal**: the occupants apart, they are made of the
same. -/
theorem collectConflicts_disguised (h : Disguised viewer db db')
    (hpersonal : command.ministryId = none) (hp : PreparedFor viewer prepared) :
    ∃ quota closed, (∀ c ∈ quota, c.kind = .weeklyQuota ∧ c.isOverridable = false) ∧
      (∀ o, ∀ c ∈ closed o, c.occurrenceDate = o.occurrenceDate ∧ c.kind ≠ .occupancy ∧
        c.isOverridable = false) ∧
      (collectConflicts command prepared).eval db t = .ok ((quota ++
        metConflicts db t command.rooms closed prepared.occurrences).insertionSort conflictLe) ∧
      (collectConflicts command prepared).eval db' t = .ok ((quota ++
        metConflicts db' t command.rooms closed prepared.occurrences).insertionSort conflictLe) := by
  obtain ⟨quota, hquota, hquota', hkind⟩ :=
    quotaConflicts_disguised (t := t) h hp.booker hp.nonempty hpersonal
  choose closed hclosed hclosed' hnot using closings_eval (t := t) h command prepared
  have hturns : ∀ {db : Db}, (∀ o, (closings command prepared o).eval db t = .ok (closed o)) →
      (mapEach prepared.occurrences (occurrenceConflicts command prepared)).eval db t =
        .ok (prepared.occurrences.map fun o =>
          (occupantGroups db t command.rooms o).map (takenConflict o) ++ closed o) := by
    intro db hclosed
    refine (eval_mapEach_ok (occurrenceConflicts_readOnly command prepared)).mpr ?_
    exact List.forall₂_map_right_iff.mpr (List.forall₂_same.mpr fun o _ =>
      occurrenceConflicts_personal hpersonal hp.priority (hclosed o))
  have hall : ∀ {db : Db}, (quotaConflicts command prepared).eval db t = .ok quota →
      (∀ o, (closings command prepared o).eval db t = .ok (closed o)) →
      (collectConflicts command prepared).eval db t = .ok ((quota ++
        metConflicts db t command.rooms closed prepared.occurrences).insertionSort conflictLe) := by
    intro db hquota hclosed
    refine (eval_bind_iff (quotaConflicts_readOnly _ _)).mpr ⟨quota, hquota, ?_⟩
    refine (eval_bind_iff (ReadOnly.mapEach (occurrenceConflicts_readOnly _ _) _)).mpr
      ⟨_, hturns hclosed, ?_⟩
    rw [metConflicts, List.flatMap_def]
    rfl
  exact ⟨quota, closed, hkind, hnot, hall hquota hclosed, hall hquota' hclosed'⟩

/-! ## 3. The groups, read back -/

/-- The occupancy that is shown on a date is the groups of that occurrence. -/
theorem shown_occupancy {quota : List SeriesConflict}
    {closed : PreparedOccurrence → List SeriesConflict} {o : PreparedOccurrence}
    (hquota : ∀ c ∈ quota, c.kind = .weeklyQuota ∧ c.isOverridable = false)
    (hclosed : ∀ o, ∀ c ∈ closed o, c.occurrenceDate = o.occurrenceDate ∧ c.kind ≠ .occupancy ∧
      c.isOverridable = false)
    (hp : PreparedFor viewer prepared) (ho : o ∈ prepared.occurrences)
    (rooms : List BookingRoomLineCommand) :
    (memberSafeConflicts ((quota ++ metConflicts db t rooms closed
        prepared.occurrences).insertionSort conflictLe)).filter
          (fun c => decide (c.occurrenceDate = o.occurrenceDate) && decide (c.kind = .occupancy)) =
      (roomGroups db t rooms o).map (shownTaken o) := by
  set p : MemberConflict → Bool := fun c =>
    decide (c.occurrenceDate = o.occurrenceDate) && decide (c.kind = .occupancy) with hpdef
  have hmine : ((roomGroups db t rooms o).map (shownTaken o)).filter p =
      (roomGroups db t rooms o).map (shownTaken o) := by
    refine List.filter_eq_self.mpr fun c hc => ?_
    obtain ⟨ids, -, rfl⟩ := List.mem_map.mp hc
    simp [hpdef, shownTaken]
  have hnone : ∀ cs : List SeriesConflict, (∀ c ∈ cs, c.kind ≠ .occupancy) →
      (memberSafeConflicts cs).filter p = [] := by
    intro cs hcs
    refine List.filter_eq_nil_iff.mpr fun c hc => ?_
    obtain ⟨c', hc', rfl⟩ := List.mem_map.mp hc
    simp [hpdef, SeriesConflict.toMember, hcs c' hc']
  have hunsorted : (memberSafeConflicts (quota ++ metConflicts db t rooms closed
      prepared.occurrences)).filter p = (roomGroups db t rooms o).map (shownTaken o) := by
    rw [memberSafeConflicts, List.map_append, List.filter_append]
    refine (congrArg (· ++ _) (hnone quota fun c hc => by rw [(hquota c hc).1]; nofun)).trans ?_
    have hshown : (metConflicts db t rooms closed prepared.occurrences).map
        SeriesConflict.toMember = _ := metConflicts_shown rooms closed prepared.occurrences
    rw [List.nil_append, hshown, List.filter_flatMap]
    refine (flatMap_eq_of_mem ho (List.Nodup.of_map _ hp.dates) fun o' ho' hne => ?_).trans ?_
    · have hdate : o'.occurrenceDate ≠ o.occurrenceDate := fun heq =>
        hne (List.inj_on_of_nodup_map hp.dates ho' ho heq)
      refine List.filter_eq_nil_iff.mpr fun c hc => ?_
      rcases List.mem_append.mp hc with hc | hc
      · obtain ⟨ids, -, rfl⟩ := List.mem_map.mp hc
        simp [hpdef, shownTaken, hdate]
      · obtain ⟨c', hc', rfl⟩ := List.mem_map.mp hc
        simp [hpdef, SeriesConflict.toMember, (hclosed o' c' hc').2.1]
    · rw [List.filter_append, hmine, hnone _ fun c hc => (hclosed o c hc).2.1, List.append_nil]
  rw [memberSafeConflicts_sorted, filter_insertionSort]
  · exact hunsorted
  · rw [hunsorted]
    refine List.pairwise_of_forall_mem_list fun a ha b hb => ?_
    obtain ⟨_, -, rfl⟩ := List.mem_map.mp ha
    obtain ⟨_, -, rfl⟩ := List.mem_map.mp hb
    exact .inr ⟨rfl, .inr ⟨rfl, .inr Bool.false_ne_true⟩⟩

end NewlifeCore
