import NewlifeCore.Facility.Disguises
import NewlifeCore.Facility.SeriesDates
import NewlifeCore.Txn.Alone

/-!
# What a Personal proposal is told of a schedule

`_collect_conflicts` makes a conflict of an occurrence's Rentals and another of its Ministry
Bookings.  To a Personal caller both read as plain occupancy, but they stay two: how the rooms fall
apart is what shows.
-/

namespace NewlifeCore

open Txn Prog RecurringBookingService

/-! ## 1. The views -/

/-- `MemberRecurringBookingConflict`, made from the dump of a conflict. -/
structure MemberConflict where
  occurrenceDate : Int
  kind : RecurringConflictKind
  facilityIds : List UUID
  isOverridable : Bool
  ministryId : Option UUID
  ministryStewardDisplayName : Option String
  ministryStewardEmail : Option String
  bookerDisplayName : Option String
  bookerEmail : Option String
deriving DecidableEq

/-- The dump without its `occupying_bookings`. -/
def SeriesConflict.toMember (c : SeriesConflict) : MemberConflict where
  occurrenceDate := c.occurrenceDate
  kind := c.kind
  facilityIds := c.facilityIds
  isOverridable := c.isOverridable
  ministryId := c.ministryId
  ministryStewardDisplayName := c.ministryStewardDisplayName
  ministryStewardEmail := c.ministryStewardEmail
  bookerDisplayName := c.bookerDisplayName
  bookerEmail := c.bookerEmail

/-- `member_safe_conflicts`; a field that is None is left out of the dict. -/
def memberSafeConflicts (conflicts : List SeriesConflict) : List MemberConflict :=
  conflicts.map SeriesConflict.toMember

/-- `MemberRecurringBookingPreview`. -/
structure MemberRecurringBookingPreview where
  conflicts : List MemberConflict
  quotedAmount : Decimal
  currency : String
  isFreeMinistry : Bool
  overrideImpacts : List OverrideImpact
  overrideReviewToken : Option String

def recurringBookingPreviewToMemberApi (result : SeriesPreview) : MemberRecurringBookingPreview where
  conflicts := result.conflicts.map SeriesConflict.toMember
  quotedAmount := result.quotedAmount
  currency := result.currency
  isFreeMinistry := result.isFreeMinistry
  overrideImpacts := result.overrideImpacts
  overrideReviewToken := result.overrideReviewToken

/-- The context of `_raise_remaining_conflict`'s error. -/
structure RemainingConflictContext where
  facilityId : Option UUID := none
  ministryId : Option UUID := none
  ministryStewardDisplayName : Option String := none
  ministryStewardEmail : Option String := none
  conflicts : Option (List MemberConflict) := none

def remainingConflictContext (blocking : List SeriesConflict) : Option RemainingConflictContext :=
  match blocking with
  | [] => none
  | conflict :: _ =>
    let facilityId := conflict.facilityIds.head?
    match conflict.kind with
    | .ministry => some {
        facilityId
        ministryId := conflict.ministryId
        ministryStewardDisplayName := conflict.ministryStewardDisplayName
        ministryStewardEmail := conflict.ministryStewardEmail
        conflicts := some (memberSafeConflicts blocking) }
    | .occupancy => some { facilityId, conflicts := some (memberSafeConflicts blocking) }
    | .blackout | .openingHours => facilityId.map fun id => { facilityId := some id }
    | .weeklyQuota => none

/-- The conflicts of a schedule as they are shown. -/
def shownConflicts (app : App) (r : Request) (command : CreateRecurringBookingSeriesCommand) :
    Portal (List MemberConflict) := do
  let prepared ← prepareSeries app r command
  let conflicts ← collectConflicts command prepared
  pure (memberSafeConflicts conflicts)

/-- `POST /booking-series/preview`. -/
def previewBookingSeries (app : App) (r : Request) (command : CreateRecurringBookingSeriesCommand) :
    Portal MemberRecurringBookingPreview := do
  let result ← previewConflicts app r command
  pure (recurringBookingPreviewToMemberApi result)

/-- The error that `create_series` raises for a conflict that is left, and its context. -/
def remainingConflictRaised (app : App) (r : Request)
    (command : CreateRecurringBookingSeriesCommand) :
    Portal (Option (ApiError × Option RemainingConflictContext)) := do
  let prepared ← prepareSeries app r command
  let conflicts ← collectConflicts command prepared
  raiseIf (invalidExclusion command prepared conflicts) invalidExclusionError
  let minWeeks ← SettingService.getMinRecurringBookingWeeks
  raiseIf ((remainingOccurrences command prepared).length < minWeeks) (tooFewOccurrences minWeeks)
  let blocking := (remainingConflicts command conflicts).filter fun c => !c.isOverridable
  pure (blocking.head?.map fun c => (remainingConflictError c, remainingConflictContext blocking))

/-- What a Draft shows of its evaluation, and `confirm_draft` puts into its error. -/
structure MemberEvaluation where
  isConfirmable : Bool
  conflicts : List MemberConflict
  invalidityCode : Option ErrorCode
  invalidityDetail : Option String

def shownEvaluation (app : App) (r : Request) (command : CreateRecurringBookingSeriesCommand) :
    Portal MemberEvaluation := do
  let evaluation ← evaluateProposal app r command
  pure {
    isConfirmable := evaluation.isConfirmable
    conflicts := memberSafeConflicts evaluation.conflicts
    invalidityCode := evaluation.invalidityCode
    invalidityDetail := evaluation.invalidityDetail }

variable {viewer : UUID} {db db' : Db} {t : Int} {app : App} {r : Request}
  {command : CreateRecurringBookingSeriesCommand} {prepared : PreparedSeries}
  {o : PreparedOccurrence}

/-! ## 2. The viewer's own week -/

/-- A Booking of the viewer's is the same in both, so its start is found in both. -/
theorem rentalStarts_eq (hseries : List.Forall₂ SameHold db.series db'.series) {p : Booking → Bool}
    {bookings bookings' : List Booking} (h : List.Forall₂ (fun b b' => SameOccupancy b b' ∧
      (b' = b ∨ b.userId ≠ viewer ∧ b'.userId ≠ viewer)) bookings bookings') :
    (bookings'.filter fun b => b.userId = viewer && activeOccupancy db' t b && p b).map
        Booking.startAt =
      (bookings.filter fun b => b.userId = viewer && activeOccupancy db t b && p b).map
        Booking.startAt := by
  induction h with
  | nil => rfl
  | @cons b b' _ _ hb _ ih =>
    obtain ⟨hsame, heq | ⟨hother, hother'⟩⟩ := hb
    · have hactive := activeOccupancy_eq (t := t) hseries hsame
      rw [heq] at hactive ⊢
      rw [List.filter_cons, List.filter_cons, hactive]
      split
      · rw [List.map_cons, List.map_cons, ih]
      · exact ih
    · rw [List.filter_cons_of_neg (by simp [hother']), List.filter_cons_of_neg (by simp [hother])]
      exact ih

theorem listRentalOccurrenceStarts_disguised (h : Disguised viewer db db')
    (rangeStart rangeEnd : Int) :
    Alike db db' t (BookingRepository.listRentalOccurrenceStarts viewer rangeStart rangeEnd) := by
  refine Alike.select ?_
  have hstarts := rentalStarts_eq (t := t) h.series (p := fun b => b.ministryId.isNone &&
    !b.isDeleted && decide (rangeStart ≤ b.startAt) && decide (b.startAt < rangeEnd)) h.bookings
  have hclause : ∀ (db : Db) (b : Booking),
      (decide (b.userId = viewer) && b.ministryId.isNone && !b.isDeleted &&
        activeOccupancy db t b && decide (rangeStart ≤ b.startAt) && decide (b.startAt < rangeEnd)) =
      (decide (b.userId = viewer) && activeOccupancy db t b && (b.ministryId.isNone &&
        !b.isDeleted && decide (rangeStart ≤ b.startAt) && decide (b.startAt < rangeEnd))) := by
    intro db b
    grind
  simp only [hclause]
  exact hstarts.symm

theorem weeklyQuotaConflictDates_disguised (h : Disguised viewer db db')
    {occurrences : List PreparedOccurrence} (hsome : occurrences ≠ []) (tz : Zone) : ∃ dates,
      (weeklyQuotaConflictDates viewer occurrences tz).eval db t = .ok dates ∧
      (weeklyQuotaConflictDates viewer occurrences tz).eval db' t = .ok dates := by
  unfold weeklyQuotaConflictDates
  cases hdates : occurrences.map (startDate tz) with
  | nil => exact absurd (List.map_eq_nil_iff.mp hdates) hsome
  | cons d ds =>
    exact ⟨_, (eval_bind_iff (ReadOnly.select _)).mpr ⟨_, rfl, rfl⟩,
      (eval_bind_iff (ReadOnly.select _)).mpr
        ⟨_, (listRentalOccurrenceStarts_disguised h _ _).symm, rfl⟩⟩

/-- The quota part is the same list in both. -/
theorem quotaConflicts_disguised (h : Disguised viewer db db')
    (hbooker : prepared.bookerId = viewer) (hsome : prepared.occurrences ≠ [])
    (hpersonal : command.ministryId = none) : ∃ quota,
      (quotaConflicts command prepared).eval db t = .ok quota ∧
      (quotaConflicts command prepared).eval db' t = .ok quota ∧
      ∀ c ∈ quota, c.kind = .weeklyQuota ∧ c.isOverridable = false := by
  obtain ⟨dates, hread, hread'⟩ := weeklyQuotaConflictDates_disguised (t := t) h hsome
    prepared.localTz
  have hreads := weeklyQuotaConflictDates_readOnly viewer prepared.occurrences prepared.localTz
  unfold quotaConflicts
  rw [hpersonal, hbooker]
  refine ⟨_, (eval_bind_iff hreads).mpr ⟨dates, hread, rfl⟩,
    (eval_bind_iff hreads).mpr ⟨dates, hread', rfl⟩, fun c hc => ?_⟩
  obtain ⟨d, -, rfl⟩ := List.mem_map.mp hc
  exact ⟨rfl, rfl⟩

/-! ## 3. The conflicts of one occurrence -/

/-- The Blackouts and opening hours that close an occurrence's rooms. -/
def closings (command : CreateRecurringBookingSeriesCommand) (prepared : PreparedSeries)
    (o : PreparedOccurrence) : Portal (List SeriesConflict) := do
  let blackoutIds ← foldEach command.rooms [] (blackoutRoom prepared.localTz o)
  let openingHoursIds ← openingHoursRooms command prepared.localTz o blackoutIds
  pure (closedConflict o .blackout blackoutIds ++ closedConflict o .openingHours openingHoursIds)

theorem blackoutRooms_readOnly (tz : Zone) (o : PreparedOccurrence)
    (rooms : List BookingRoomLineCommand) : ReadOnly (foldEach rooms [] (blackoutRoom tz o)) :=
  ReadOnly.foldEach (fun _ _ => ReadOnly.bind (fun _ => ReadOnly.ret _)
    (hasBlackoutOverlap_readOnly _ _ _ _)) _ _

theorem anyDayOverlaps_alike (h : Disguised viewer db db') (facilityId : UUID)
    (localStart localEnd : Int) (days : List Int) :
    Alike db db' t (RoomBlackoutRepository.anyDayOverlaps facilityId localStart localEnd days) := by
  induction days with
  | nil => exact Alike.ret _
  | cons day days ih =>
    refine Alike.bind (ReadOnly.select _) (h.select fun _ _ _ _ => rfl) fun blackouts _ => ?_
    split
    · exact Alike.ret _
    · exact ih

theorem closings_disguised (h : Disguised viewer db db') :
    Alike db db' t (closings command prepared o) := by
  refine Alike.bind (blackoutRooms_readOnly _ _ _) ?_ fun blackoutIds _ => ?_
  · exact Alike.foldEach (fun _ _ => ReadOnly.bind (fun _ => ReadOnly.ret _)
      (hasBlackoutOverlap_readOnly _ _ _ _)) (fun ids room => Alike.bind
        (hasBlackoutOverlap_readOnly _ _ _ _) (anyDayOverlaps_alike h _ _ _ _) fun _ _ =>
          Alike.ret _) _ _
  · refine Alike.bind (openingHoursRooms_readOnly _ _ _ _) ?_ fun _ _ => Alike.ret _
    unfold openingHoursRooms
    split
    · refine Alike.foldEach (fun ids room => ?_) (fun ids room => ?_) _ _
      · unfold openingHoursRoom
        split
        · trivial
        · exact ReadOnly.bind (fun _ => ReadOnly.ret _) (ReadOnly.select _)
      · unfold openingHoursRoom
        split
        · exact Alike.ret _
        · exact Alike.bind (ReadOnly.select _) (h.select fun _ _ _ _ => rfl) fun _ _ => Alike.ret _
    · exact Alike.ret _

theorem closings_readOnly : ReadOnly (closings command prepared o) :=
  ReadOnly.bind (fun _ => ReadOnly.bind (fun _ => ReadOnly.ret _)
    (openingHoursRooms_readOnly _ _ _ _)) (blackoutRooms_readOnly _ _ _)

theorem anyDayOverlaps_raiseless (facilityId : UUID) (localStart localEnd : Int) (days : List Int) :
    Raiseless (RoomBlackoutRepository.anyDayOverlaps facilityId localStart localEnd days) := by
  induction days with
  | nil => trivial
  | cons day days ih =>
    refine Raiseless.bind (fun blackouts => ?_) fun _ => trivial
    split
    · trivial
    · exact ih

theorem closings_raiseless : Raiseless (closings command prepared o) := by
  refine Raiseless.bind (fun _ => Raiseless.bind (fun _ => Raiseless.ret _) ?_) ?_
  · unfold openingHoursRooms
    split
    · refine Raiseless.foldEach (fun ids room => ?_) _ _
      unfold openingHoursRoom
      split
      · trivial
      · exact fun _ => trivial
    · trivial
  · exact Raiseless.foldEach (fun _ _ => Raiseless.bind (fun _ => Raiseless.ret _)
      (anyDayOverlaps_raiseless _ _ _ _)) _ _

theorem mem_closedConflict_kind {kind : RecurringConflictKind} {ids : List UUID}
    {c : SeriesConflict} (h : c ∈ closedConflict o kind ids) : c.kind = kind := by
  unfold closedConflict at h
  split at h
  · cases h
  · rw [List.mem_singleton.mp h]

theorem closings_returns : Returns (fun closed => ∀ c ∈ closed,
    c.occurrenceDate = o.occurrenceDate ∧ c.kind ≠ .occupancy ∧ c.isOverridable = false)
      (closings command prepared o) := by
  refine Returns.seq _ fun blackoutIds => Returns.seq _ fun hoursIds c hc => ?_
  have hnot : ∀ {kind ids}, c ∈ closedConflict o kind ids → kind ≠ .occupancy →
      c.occurrenceDate = o.occurrenceDate ∧ c.kind ≠ .occupancy ∧ c.isOverridable = false :=
    fun hmem hkind => ⟨(mem_closedConflict hmem).1, (mem_closedConflict_kind hmem).trans_ne hkind,
      (mem_closedConflict hmem).2⟩
  rcases List.mem_append.mp hc with hc | hc
  · exact hnot hc nofun
  · exact hnot hc nofun

/-- **What closes an occurrence is the same in both.** -/
theorem closings_eval (h : Disguised viewer db db') (command : CreateRecurringBookingSeriesCommand)
    (prepared : PreparedSeries) (o : PreparedOccurrence) : ∃ closed,
      (closings command prepared o).eval db t = .ok closed ∧
      (closings command prepared o).eval db' t = .ok closed ∧
      ∀ c ∈ closed, c.occurrenceDate = o.occurrenceDate ∧ c.kind ≠ .occupancy ∧
        c.isOverridable = false := by
  obtain ⟨closed, _, hexec⟩ := Raiseless.exec (p := closings command prepared o)
    closings_raiseless db t
  obtain ⟨-, hread⟩ := (eval_readOnly closings_readOnly).mp hexec
  exact ⟨closed, hread, (closings_disguised h).symm.trans hread,
    exec_returns closings_returns hexec⟩

/-- The occupants of an occurrence, Rentals and Ministry Bookings apart. -/
def occupantGroups (db : Db) (t : Int) (rooms : List BookingRoomLineCommand)
    (o : PreparedOccurrence) : List (List OccupyingBooking) :=
  [(occurrenceOccupants db t rooms o).filter fun item => item.ministryId.isNone,
    (occurrenceOccupants db t rooms o).filter fun item => item.ministryId.isSome].filter
      fun items => !items.isEmpty

/-- **The rooms that Rentals hold and the rooms that Ministry Bookings hold**, where there are
any. -/
def roomGroups (db : Db) (t : Int) (rooms : List BookingRoomLineCommand)
    (o : PreparedOccurrence) : List (List UUID) :=
  (occupantGroups db t rooms o).map uniqueFacilityIds

/-- The conflict of a group of occupants. -/
def takenConflict (o : PreparedOccurrence) (items : List OccupyingBooking) : SeriesConflict where
  occurrenceDate := o.occurrenceDate
  kind := .occupancy
  facilityIds := uniqueFacilityIds items
  occupyingBookings := items

/-- A Personal proposal meets each group, and what closes the rooms. -/
theorem occurrenceConflicts_personal (hpersonal : command.ministryId = none)
    (hpriority : prepared.isPriority = false) {closed : List SeriesConflict}
    (hclosed : (closings command prepared o).eval db t = .ok closed) :
    (occurrenceConflicts command prepared o).eval db t =
      .ok ((occupantGroups db t command.rooms o).map (takenConflict o) ++ closed) := by
  obtain ⟨blackoutIds, hblackout, hclosed⟩ := (eval_bind_iff (blackoutRooms_readOnly _ _ _)).mp
    hclosed
  obtain ⟨hoursIds, hhours, hclosed⟩ := (eval_bind_iff (openingHoursRooms_readOnly _ _ _ _)).mp
    hclosed
  cases hclosed
  have hnone : ∀ items : List OccupyingBooking, items.filter (overridable prepared) = [] :=
    fun items => List.filter_eq_nil_iff.mpr fun item _ => by simp [overridable, hpriority]
  have hall : ∀ items : List OccupyingBooking,
      items.filter (fun item => !overridable prepared item) = items :=
    fun items => List.filter_eq_self.mpr fun item _ => by simp [overridable, hpriority]
  have hministry : ∀ items : List OccupyingBooking, (ministryConflict command o items).eval db t =
      .ok (if items.isEmpty then [] else [takenConflict o items]) := by
    intro items
    cases items with
    | nil => rfl
    | cons first rest =>
      rw [ministryConflict, hpersonal]
      rfl
  have hblocked : ∀ items : List OccupyingBooking, blockedConflict command prepared o items =
      if items.isEmpty then [] else [takenConflict o items] := by
    intro items
    cases items with
    | nil => rfl
    | cons first rest =>
      rw [blockedConflict, hpersonal]
      rfl
  refine (eval_bind_iff (occupyingBookingsForOccurrence_readOnly _ _)).mpr
    ⟨_, occupyingBookingsForOccurrence_eval command o, ?_⟩
  refine (eval_bind_iff (ministryConflict_readOnly _ _ _)).mpr ⟨_, hministry _, ?_⟩
  refine (eval_bind_iff (blackoutRooms_readOnly _ _ _)).mpr ⟨_, hblackout, ?_⟩
  refine (eval_bind_iff (openingHoursRooms_readOnly _ _ _ _)).mpr ⟨_, hhours, ?_⟩
  refine congrArg Except.ok ?_
  rw [hnone, hall, hblocked, overridableConflict, List.isEmpty_nil, if_pos rfl, List.nil_append,
    List.append_assoc _ (closedConflict _ _ _)]
  refine congrArg (· ++ _) ?_
  rw [occupantGroups, List.filter_cons, List.filter_cons, List.filter_nil]
  cases ((occurrenceOccupants db t command.rooms o).filter fun item =>
      item.ministryId.isNone).isEmpty <;>
    cases ((occurrenceOccupants db t command.rooms o).filter fun item =>
      item.ministryId.isSome).isEmpty <;> rfl

end NewlifeCore
