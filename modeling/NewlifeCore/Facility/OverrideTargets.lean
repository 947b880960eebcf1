import NewlifeCore.Facility.ReviewTokens
import NewlifeCore.Facility.SeriesReads
import NewlifeCore.Lists

/-!
# What a creation displaces, exactly

Both creations collect the occupants of the lines they are about to take, merge them by Booking,
and split them into those a Priority Ministry may displace and those that block.  At one instant,
and when nothing blocks, the targets are the occupants: every one of them, each with the rooms it
is met in.
-/

namespace NewlifeCore

open Txn Prog RecurringBookingService

variable {db : Db} {t : Int}

/-! ## 1. One-time proposals -/

/-- The rows a room interval collides with, as the query returns them. -/
def occupyingResults (db : Db) (n : Int) (facilityId : UUID) (startAt endAt : Int) :
    List OccupyingBooking :=
  (occupyingRows db n facilityId startAt endAt).map fun r => toOccupying db r.1 r.2

/-- A Booking is among the targets with this room. -/
def TargetedIn (targets : List (OccupyingBooking × List UUID)) (id room : UUID) : Prop :=
  ∃ p ∈ targets, p.1.bookingId = id ∧ room ∈ p.2

theorem targetedIn_cons {p : OccupyingBooking × List UUID}
    {targets : List (OccupyingBooking × List UUID)} {id room : UUID} :
    TargetedIn (p :: targets) id room ↔
      p.1.bookingId = id ∧ room ∈ p.2 ∨ TargetedIn targets id room := by
  simp [TargetedIn]

/-- Adding a row puts down its Booking with the room of the line, and nothing else. -/
theorem addTarget_targetedIn {row : OccupyingBooking} {facilityId id room : UUID} :
    ∀ {targets : List (OccupyingBooking × List UUID)},
      TargetedIn (addTarget row facilityId targets) id room ↔
        TargetedIn targets id room ∨ row.bookingId = id ∧ facilityId = room
  | [] => by simp [addTarget, TargetedIn, eq_comm]
  | (r, rooms) :: rest => by
    unfold addTarget
    split
    · rename_i hr
      have hrooms : (room ∈ if facilityId ∈ rooms then rooms else rooms ++ [facilityId]) ↔
          room ∈ rooms ∨ facilityId = room := by
        split
        · exact ⟨.inl, fun h => h.elim (fun h => h) fun h => h ▸ ‹_›⟩
        · simp [eq_comm]
      rw [targetedIn_cons, targetedIn_cons, hrooms, hr]
      tauto
    · rw [targetedIn_cons, targetedIn_cons, addTarget_targetedIn, or_assoc]

/-- The rooms of each target are listed once, and there is one. -/
def RoomsListed (targets : List (OccupyingBooking × List UUID)) : Prop :=
  ∀ p ∈ targets, p.2.Nodup ∧ p.2 ≠ []

theorem addTarget_rooms {row : OccupyingBooking} {facilityId : UUID} :
    ∀ {targets : List (OccupyingBooking × List UUID)}, RoomsListed targets →
      RoomsListed (addTarget row facilityId targets)
  | [], _ => by simp [addTarget, RoomsListed]
  | (r, rooms) :: rest, h => by
    have hhead := h _ List.mem_cons_self
    have hrest : RoomsListed rest := fun p hp => h p (List.mem_cons_of_mem _ hp)
    unfold addTarget
    split
    · refine fun p hp => (List.mem_cons.mp hp).elim (fun he => ?_) (hrest p)
      rw [he]
      dsimp only
      split
      · exact hhead
      · rename_i hnot
        exact ⟨hhead.1.append (List.nodup_singleton _) (by simpa using hnot), by simp⟩
    · exact fun p hp => (List.mem_cons.mp hp).elim (fun he => he ▸ hhead)
        (addTarget_rooms hrest p)

/-- A Priority Ministry may displace the row. -/
def RowOverridable (canOverride : Bool) (nowUtc : Int) (row : OccupyingBooking) : Prop :=
  canOverride = true ∧ row.ministryId = none ∧ nowUtc < row.startAt

/-- **The scan so far met only rows that may be displaced**, and put each down with its room. -/
structure ScanExact (canOverride : Bool) (nowUtc : Int) (done : List (UUID × OccupyingBooking))
    (s : OccupancyScan) : Prop where
  overridable : ∀ p ∈ done, RowOverridable canOverride nowUtc p.2
  targets : ∀ id room, TargetedIn s.targetRows id room ↔ ∃ p ∈ done, p.2.bookingId = id ∧ p.1 = room
  rooms : RoomsListed s.targetRows

theorem scanRow_exact (context : Option MinistryProposalContext) (canOverride : Bool)
    (nowUtc : Int) (line : ResolvedBookingLine) (done : List (UUID × OccupyingBooking))
    (s : LineScan) (row : OccupyingBooking)
    (h : s.conflicts = [] → s.blockedOnLine = false →
      s.seenOnLine = [] ∧ ScanExact canOverride nowUtc done s.toOccupancyScan) :
    Returns (fun s' => s'.conflicts = [] → s'.blockedOnLine = false → s'.seenOnLine = [] ∧
        ScanExact canOverride nowUtc (done ++ [(line.facilityId, row)]) s'.toOccupancyScan)
      (scanRow context canOverride nowUtc line s row) := by
  unfold scanRow
  split
  · -- the row becomes a target
    rename_i hguard
    simp only [Bool.and_eq_true, Option.isNone_iff_eq_none, decide_eq_true_eq, gt_iff_lt] at hguard
    intro hc hb
    obtain ⟨hseen, hexact⟩ := h hc hb
    refine ⟨hseen, fun p hp => ?_, fun id room => ?_, addTarget_rooms hexact.rooms⟩
    · rcases List.mem_append.mp hp with hp | hp
      · exact hexact.overridable p hp
      · rw [List.mem_singleton.mp hp]
        exact ⟨hguard.1.2, hguard.1.1, hguard.2⟩
    · rw [addTarget_targetedIn, hexact.targets]
      simp [or_and_right, exists_or]
  · cases context with
    | none => exact fun _ hb => nomatch hb
    | some context =>
      dsimp only
      split
      · -- seen before on this line, so it left a conflict then
        rename_i hmem
        intro hc hb
        rw [(h hc hb).1] at hmem
        exact absurd hmem (by simp)
      · cases row.ministryId with
        | some m => exact Returns.seq _ fun contact hc => by simp at hc
        | none => exact fun hc => by simp at hc

theorem scanLine_exact (context : Option MinistryProposalContext) (canOverride : Bool)
    (nowUtc : Int) (s s' : OccupancyScan) (line : ResolvedBookingLine)
    (done : List (UUID × OccupyingBooking))
    (h : s.conflicts = [] → ScanExact canOverride nowUtc done s)
    (hs' : (scanLine context canOverride nowUtc s line).eval db t = .ok s') :
    s'.conflicts = [] → ScanExact canOverride nowUtc
      (done ++ (occupyingResults db t line.facilityId line.startAt line.endAt).map
        fun row => (line.facilityId, row)) s' := by
  obtain ⟨rows, hrows, hrest⟩ := (eval_bind_iff (ReadOnly.select _)).mp hs'
  cases hrows
  obtain ⟨scan, hscan, hend⟩ := (eval_bind_iff
    (ReadOnly.foldEach (scanRow_readOnly context canOverride nowUtc line) _ _)).mp hrest
  have hall := exec_returns (Returns.foldEach
    (fun rows (s : LineScan) => s.conflicts = [] → s.blockedOnLine = false → s.seenOnLine = [] ∧
      ScanExact canOverride nowUtc (done ++ rows.map fun row => (line.facilityId, row))
        s.toOccupancyScan)
    (fun rows s row hs => by
      rw [List.map_append, ← List.append_assoc]
      exact scanRow_exact context canOverride nowUtc line _ s row hs)
    _ [] { toOccupancyScan := s } fun hc _ => ⟨rfl, by simpa using h hc⟩)
    (eval_ok (ReadOnly.foldEach (scanRow_readOnly _ _ _ _) _ _) hscan)
  rw [List.nil_append] at hall
  split at hend
  · cases hend
    exact fun hc => by simp at hc
  · rename_i hb
    cases hend
    exact fun hc => (hall hc (by simpa using hb)).2

/-- The rows every line collides with, each with the line's room. -/
def lineOccupants (db : Db) (n : Int) (lines : List ResolvedBookingLine) :
    List (UUID × OccupyingBooking) :=
  lines.flatMap fun line =>
    (occupyingResults db n line.facilityId line.startAt line.endAt).map
      fun row => (line.facilityId, row)

/-- **The evaluation of a one-time proposal that nothing blocks**: every occupant may be displaced,
and the targets are the occupants, each with the rooms it is met in. -/
structure EvaluationExact (db : Db) (n nowUtc : Int) (lines : List ResolvedBookingLine)
    (e : OneTimeOccupancyEvaluation) : Prop where
  overridable : ∀ p ∈ lineOccupants db n lines, p.2.ministryId = none ∧ nowUtc < p.2.startAt
  targets : ∀ id room, (∃ target ∈ e.targets, target.impact.bookingId = id ∧
    room ∈ target.overlappingFacilityIds) ↔
      ∃ p ∈ lineOccupants db n lines, p.2.bookingId = id ∧ p.1 = room
  rooms : ∀ target ∈ e.targets, target.overlappingFacilityIds.Nodup ∧
    target.overlappingFacilityIds ≠ []
  ids : (e.targets.map fun target => target.impact.bookingId).Nodup

theorem evaluateOneTimeOccupancy_exact {lines : List ResolvedBookingLine}
    {context : Option MinistryProposalContext} {nowUtc : Int} {localTz : Zone}
    {allowOverride : Bool} {e : OneTimeOccupancyEvaluation}
    (h : (evaluateOneTimeOccupancy lines context nowUtc localTz allowOverride).eval db t = .ok e)
    (hc : e.conflicts = []) :
    EvaluationExact db t nowUtc lines e ∧ (e.targets ≠ [] → context.isSome) := by
  have hids := exec_returns (evaluateOneTimeOccupancy_nodup lines context nowUtc localTz
    allowOverride) (eval_ok (evaluateOneTimeOccupancy_readOnly _ _ _ _ _) h)
  obtain ⟨s, hs, hrest⟩ := (eval_bind_iff (ReadOnly.foldEach (scanLine_readOnly _ _ _) _ _)).mp h
  obtain ⟨released, -, hend⟩ := (eval_bind_iff (by
    unfold releasedByTarget; split <;> first | trivial | exact ReadOnly.select _)).mp hrest
  cases hend
  set canOverride := allowOverride && context.any MinistryProposalContext.isPriority with hcan
  have hexact := eval_foldEach (scanLine_readOnly _ _ _)
    (fun done s => s.conflicts = [] → ScanExact canOverride nowUtc (lineOccupants db t done) s)
    lines [] (fun _ => ⟨by simp [lineOccupants], fun _ _ => by simp [TargetedIn, lineOccupants],
      by simp [RoomsListed]⟩)
    (fun done s line s' _ hI hs' => by
      have := scanLine_exact context canOverride nowUtc s s' line _ hI hs'
      simpa [lineOccupants] using this) hs hc
  rw [List.nil_append] at hexact
  refine ⟨⟨fun p hp => (hexact.overridable p hp).2, fun id room => ?_, ?_, ?_⟩, fun hne => ?_⟩
  · rw [← hexact.targets, TargetedIn]
    simp [toTarget]
  · intro target htarget
    obtain ⟨p, hp, rfl⟩ := List.mem_map.mp htarget
    exact hexact.rooms p hp
  · simpa [OneTimeOccupancyEvaluation.impacts, toTarget, Function.comp_def] using hids
  · -- a target is an occupant that a context allowed to displace
    obtain ⟨p, hp⟩ := List.exists_mem_of_ne_nil s.targetRows fun h => hne (by simp [h])
    obtain ⟨room, hroom⟩ := List.exists_mem_of_ne_nil _ (hexact.rooms p hp).2
    obtain ⟨q, hq, -⟩ := (hexact.targets _ _).mp ⟨p, hp, rfl, hroom⟩
    have hover := (hexact.overridable q hq).1
    rw [hcan, Bool.and_eq_true] at hover
    cases context with
    | none => exact absurd hover.2 (by simp)
    | some _ => rfl

/-! ## 2. Series proposals -/

/-- A Booking is among the merged rows with this room. -/
def MergedIn (merged : List OccupyingBooking) (id room : UUID) : Prop :=
  ∃ m ∈ merged, m.bookingId = id ∧ room ∈ m.facilityIds

theorem mergedIn_cons {m : OccupyingBooking} {merged : List OccupyingBooking} {id room : UUID} :
    MergedIn (m :: merged) id room ↔
      m.bookingId = id ∧ room ∈ m.facilityIds ∨ MergedIn merged id room := by
  simp [MergedIn]

theorem mergeOccupying_mergedIn {facilityId id room : UUID} {item : OccupyingBooking}
    (hitem : item.facilityIds = [facilityId]) : ∀ {merged : List OccupyingBooking},
      MergedIn (mergeOccupying facilityId item merged) id room ↔
        MergedIn merged id room ∨ item.bookingId = id ∧ facilityId = room
  | [] => by simp [mergeOccupying, MergedIn, hitem, List.mem_eraseDups, eq_comm]
  | m :: merged => by
    unfold mergeOccupying
    split
    · rename_i hm
      rw [mergedIn_cons, mergedIn_cons]
      simp only [List.mem_eraseDups, List.mem_append, hitem, List.mem_singleton, or_self, hm,
        eq_comm (a := room)]
      tauto
    · rw [mergedIn_cons, mergedIn_cons, mergeOccupying_mergedIn hitem, or_assoc]

theorem mergeOccupying_ids (facilityId : UUID) (item : OccupyingBooking) :
    ∀ merged : List OccupyingBooking,
      (mergeOccupying facilityId item merged).map OccupyingBooking.bookingId =
        if item.bookingId ∈ merged.map OccupyingBooking.bookingId then
          merged.map OccupyingBooking.bookingId
        else merged.map OccupyingBooking.bookingId ++ [item.bookingId]
  | [] => rfl
  | m :: merged => by
    unfold mergeOccupying
    split
    · rename_i h
      simp [h]
    · rename_i h
      rw [List.map_cons, mergeOccupying_ids facilityId item merged]
      simp only [List.map_cons, List.mem_cons, Ne.symm h, false_or]
      split <;> rfl

theorem eraseDups_ne_nil {l : List UUID} {x : UUID} (h : x ∈ l) : l.eraseDups ≠ [] :=
  List.ne_nil_of_mem (List.mem_eraseDups.mpr h)

theorem mergeOccupying_rooms {facilityId : UUID} {item : OccupyingBooking} :
    ∀ {merged : List OccupyingBooking}, (∀ m ∈ merged, m.facilityIds.Nodup ∧ m.facilityIds ≠ []) →
      ∀ m ∈ mergeOccupying facilityId item merged, m.facilityIds.Nodup ∧ m.facilityIds ≠ []
  | [], _, m, hm => by
    rw [List.mem_singleton.mp hm]
    exact ⟨eraseDups_nodup _, eraseDups_ne_nil (List.mem_append_right _ List.mem_cons_self)⟩
  | m₀ :: merged, h, m, hm => by
    unfold mergeOccupying at hm
    have hrest := fun m hm => h m (List.mem_cons_of_mem m₀ hm)
    split at hm
    · rcases List.mem_cons.mp hm with rfl | hm
      · exact ⟨eraseDups_nodup _, eraseDups_ne_nil (List.mem_append_right _
          (List.mem_eraseDups.mpr (List.mem_append_right _ List.mem_cons_self)))⟩
      · exact hrest m hm
    · rcases List.mem_cons.mp hm with rfl | hm
      · exact h m List.mem_cons_self
      · exact mergeOccupying_rooms hrest m hm

/-- **The merged rows are the occupants met so far**, each with the rooms it was met in. -/
structure MergedExact (done : List (UUID × OccupyingBooking)) (merged : List OccupyingBooking) :
    Prop where
  rows : ∀ id room, MergedIn merged id room ↔ ∃ p ∈ done, p.2.bookingId = id ∧ p.1 = room
  same : ∀ m ∈ merged, ∃ p ∈ done, SameOccupant m p.2
  rooms : ∀ m ∈ merged, m.facilityIds.Nodup ∧ m.facilityIds ≠ []
  ids : (merged.map OccupyingBooking.bookingId).Nodup

theorem MergedExact.nil : MergedExact [] [] := by
  constructor <;> simp [MergedIn]

theorem MergedExact.merge {done : List (UUID × OccupyingBooking)}
    {merged : List OccupyingBooking} (h : MergedExact done merged) {facilityId : UUID}
    {item : OccupyingBooking} (hitem : item.facilityIds = [facilityId]) :
    MergedExact (done ++ [(facilityId, item)]) (mergeOccupying facilityId item merged) where
  rows id room := by
    rw [mergeOccupying_mergedIn hitem, h.rows]
    simp [or_and_right, exists_or]
  same m hm := by
    rcases mergeOccupying_mem m hm with hm | ⟨m', hm', he⟩
    · exact ⟨_, List.mem_append_right _ List.mem_cons_self, hm⟩
    · obtain ⟨p, hp, hs⟩ := h.same m' hm'
      exact ⟨p, List.mem_append_left _ hp, he.1.trans hs.1, he.2.1.trans hs.2.1,
        he.2.2.trans hs.2.2⟩
  rooms := mergeOccupying_rooms h.rooms
  ids := by
    rw [mergeOccupying_ids]
    split
    · exact h.ids
    · rename_i hnot
      exact h.ids.append (List.nodup_singleton _) (by simpa using hnot)

theorem MergedExact.mergeAll {facilityId : UUID} : ∀ {rows : List OccupyingBooking}
    {done : List (UUID × OccupyingBooking)} {merged : List OccupyingBooking},
    MergedExact done merged → (∀ r ∈ rows, r.facilityIds = [facilityId]) →
    MergedExact (done ++ rows.map fun row => (facilityId, row))
      (rows.foldl (fun merged item => mergeOccupying facilityId item merged) merged)
  | [], _, _, h, _ => by simpa using h
  | row :: rows, done, merged, h, hrows => by
    have := (h.merge (hrows row List.mem_cons_self)).mergeAll
      fun r hr => hrows r (List.mem_cons_of_mem _ hr)
    simpa using this

theorem occupyingResults_rooms {n : Int} {facilityId : UUID} {startAt endAt : Int} :
    ∀ r ∈ occupyingResults db n facilityId startAt endAt, r.facilityIds = [facilityId] := by
  intro r hr
  obtain ⟨x, hx, rfl⟩ := List.mem_map.mp hr
  rw [toOccupying, (mem_occupyingRows.mp hx).2.2.2.1]

/-- The Bookings that occupy an occurrence's rooms. -/
def occurrenceOccupants (db : Db) (n : Int) (rooms : List BookingRoomLineCommand)
    (o : PreparedOccurrence) : List OccupyingBooking :=
  rooms.foldl (fun merged room => (occupyingResults db n room.facilityId o.startAt o.endAt).foldl
    (fun merged item => mergeOccupying room.facilityId item merged) merged) []

theorem occupyingBookingsForOccurrence_readOnly (command : CreateRecurringBookingSeriesCommand)
    (o : PreparedOccurrence) : ReadOnly (occupyingBookingsForOccurrence command o) :=
  ReadOnly.foldEach (fun _ _ => ReadOnly.bind (fun _ => ReadOnly.ret _) (ReadOnly.select _)) _ _

theorem occupyingBookingsForOccurrence_eval (command : CreateRecurringBookingSeriesCommand)
    (o : PreparedOccurrence) : (occupyingBookingsForOccurrence command o).eval db t =
      .ok (occurrenceOccupants db t command.rooms o) :=
  eval_foldEach_eq (fun _ _ => ReadOnly.bind (fun _ => ReadOnly.ret _) (ReadOnly.select _))
    (fun _ _ => rfl) _ _

theorem occurrenceOccupants_exact (rooms : List BookingRoomLineCommand) (o : PreparedOccurrence) :
    MergedExact (lineOccupants db t (occurrenceLines rooms o))
      (occurrenceOccupants db t rooms o) := by
  suffices h : ∀ (rest done : List BookingRoomLineCommand) (merged : List OccupyingBooking),
      MergedExact (lineOccupants db t (occurrenceLines done o)) merged →
      MergedExact (lineOccupants db t (occurrenceLines (done ++ rest) o))
        (rest.foldl (fun merged room =>
          (occupyingResults db t room.facilityId o.startAt o.endAt).foldl
            (fun merged item => mergeOccupying room.facilityId item merged) merged) merged) from
    h rooms [] [] .nil
  intro rest
  induction rest with
  | nil => intro done merged h; simpa using h
  | cons room rest ih =>
    intro done merged h
    have hstep := ih (done ++ [room]) _ (by
      simpa [lineOccupants, occurrenceLines] using h.mergeAll
        occupyingResults_rooms)
    simpa using hstep

/-! ### 2.1 The conflicts of one occurrence -/

theorem mem_occurrenceConflicts_date (command : CreateRecurringBookingSeriesCommand)
    (prepared : PreparedSeries) (o : PreparedOccurrence) :
    Returns (fun cs => ∀ c ∈ cs, c.occurrenceDate = o.occurrenceDate)
      (occurrenceConflicts command prepared o) := by
  refine Returns.seq _ fun occupying => Returns.bind (fun ministry hm => ?_)
    (ministryConflict_returns command o _)
  refine Returns.seq _ fun blackoutIds => Returns.seq _ fun openingIds c hc => ?_
  simp only [List.mem_append] at hc
  rcases hc with (((hc | hc) | hc) | hc) | hc
  · exact (mem_overridableConflict hc).2.1
  · exact (mem_blockedConflict hc).1
  · exact (hm.1 c hc).1
  · exact (mem_closedConflict hc).1
  · exact (mem_closedConflict hc).1

/-- A room of the occurrence is not closed by a Blackout. -/
def NoBlackout (db : Db) (n : Int) (tz : Zone) (facilityId : UUID) (startAt endAt : Int) : Prop :=
  (RoomBlackoutRepository.hasBlackoutOverlap facilityId startAt endAt tz).eval db n = .ok false

theorem blackoutRooms_nil {tz : Zone} {o : PreparedOccurrence}
    {rooms : List BookingRoomLineCommand}
    (h : (foldEach rooms [] (blackoutRoom tz o)).eval db t = .ok []) :
    ∀ room ∈ rooms, NoBlackout db t tz room.facilityId o.startAt o.endAt := by
  have := eval_foldEach
    (fun ids room => ReadOnly.bind (fun _ => ReadOnly.ret _) (hasBlackoutOverlap_readOnly _ _ _ _))
    (fun done ids => ids = [] → ∀ room ∈ done,
      NoBlackout db t tz room.facilityId o.startAt o.endAt)
    rooms [] (fun _ => by simp) (fun done ids room ids' _ hI hids' hnil => by
      obtain ⟨closed, hclosed, hret⟩ :=
        (eval_bind_iff (hasBlackoutOverlap_readOnly _ _ _ _)).mp hids'
      cases hret
      cases closed with
      | true => simp at hnil
      | false =>
        simp only [Bool.false_eq_true, if_false] at hnil
        intro r hr
        rcases List.mem_append.mp hr with hr | hr
        · exact hI hnil r hr
        · exact List.mem_singleton.mp hr ▸ hclosed) h rfl
  simpa using this

/-- **When every conflict of an occurrence can be displaced**, its occupants are what is
displaced, and none of its rooms is closed. -/
theorem occurrenceConflicts_exact {command : CreateRecurringBookingSeriesCommand}
    {prepared : PreparedSeries} {o : PreparedOccurrence} {cs : List SeriesConflict}
    (h : (occurrenceConflicts command prepared o).eval db t = .ok cs)
    (hall : ∀ c ∈ cs, c.isOverridable = true) :
    cs = overridableConflict o (occurrenceOccupants db t command.rooms o) ∧
    (∀ m ∈ occurrenceOccupants db t command.rooms o,
      m.ministryId = none ∧ overridable prepared m = true) ∧
    ∀ room ∈ command.rooms, NoBlackout db t prepared.localTz room.facilityId o.startAt o.endAt := by
  obtain ⟨occupying, hocc, h⟩ :=
    (eval_bind_iff (occupyingBookingsForOccurrence_readOnly command o)).mp h
  rw [occupyingBookingsForOccurrence_eval] at hocc
  cases hocc
  obtain ⟨ministry, hministry, h⟩ := (eval_bind_iff (ministryConflict_readOnly _ _ _)).mp h
  obtain ⟨blackoutIds, hblackout, h⟩ := (eval_bind_iff (ReadOnly.foldEach
    (fun _ _ => ReadOnly.bind (fun _ => ReadOnly.ret _) (hasBlackoutOverlap_readOnly _ _ _ _))
    _ _)).mp h
  obtain ⟨openingIds, -, h⟩ := (eval_bind_iff (openingHoursRooms_readOnly _ _ _ _)).mp h
  cases h
  obtain ⟨hmdates, hmnil⟩ := exec_returns (ministryConflict_returns command o _)
    (eval_ok (ministryConflict_readOnly _ _ _) hministry)
  obtain ⟨hblocked, hmin, hb, hop⟩ := parts_of_overridable (fun c hc => (hmdates c hc).2) hall
  have hrentals := occupants_of_overridable (hmnil hmin) hblocked
  rw [hb] at hblackout
  refine ⟨?_, hrentals, blackoutRooms_nil hblackout⟩
  rw [hblocked, hmin, hb, hop, List.filter_filter, List.filter_eq_self.mpr fun m hm => by
    rw [(hrentals m hm).1, (hrentals m hm).2]
    rfl]
  simp [blockedConflict, closedConflict]

/-! ### 2.2 The whole schedule -/

/-- The conflicts of the dates that are kept, occurrence by occurrence. -/
theorem flatten_filter (keep : Int → Bool) {g : PreparedOccurrence → List SeriesConflict}
    {os : List PreparedOccurrence} {found : List (List SeriesConflict)}
    (h : List.Forall₂ (fun o cs => (∀ c ∈ cs, c.occurrenceDate = o.occurrenceDate) ∧
      (keep o.occurrenceDate = true → cs = g o)) os found) :
    found.flatten.filter (fun c => keep c.occurrenceDate) =
      (os.filter fun o => keep o.occurrenceDate).flatMap g := by
  induction h with
  | nil => rfl
  | @cons o cs os found ho _ ih =>
    rw [List.flatten_cons, List.filter_append, ih, List.filter_cons]
    cases hk : keep o.occurrenceDate with
    | true =>
      have hall : cs.filter (fun c => keep c.occurrenceDate) = cs :=
        List.filter_eq_self.mpr fun c hc => by rw [ho.1 c hc, hk]
      rw [hall, ho.2 hk]
      rfl
    | false =>
      have hnone : cs.filter (fun c => keep c.occurrenceDate) = [] :=
        List.filter_eq_nil_iff.mpr fun c hc => by rw [ho.1 c hc, hk]; exact Bool.false_ne_true
      rw [hnone]
      rfl

theorem quotaConflicts_blocking (command : CreateRecurringBookingSeriesCommand)
    (prepared : PreparedSeries) :
    Returns (fun cs => ∀ c ∈ cs, c.isOverridable = false) (quotaConflicts command prepared) := by
  unfold quotaConflicts
  split
  · exact fun c hc => absurd hc (by simp)
  · refine Returns.seq _ fun dates c hc => ?_
    obtain ⟨d, -, rfl⟩ := List.mem_map.mp hc
    rfl

/-- **The occurrences that are kept, and their conflicts**: one for each that is occupied, with all
its occupants, and none else. -/
structure KeptExact (db : Db) (n : Int) (command : CreateRecurringBookingSeriesCommand)
    (prepared : PreparedSeries) (kept : List PreparedOccurrence × List SeriesConflict) : Prop where
  remaining : kept.1 = remainingOccurrences command prepared
  conflicts : kept.2.Perm
    (kept.1.flatMap fun o => overridableConflict o (occurrenceOccupants db n command.rooms o))
  overridable : ∀ o ∈ kept.1, ∀ m ∈ occurrenceOccupants db n command.rooms o,
    m.ministryId = none ∧ overridable prepared m = true
  opened : ∀ o ∈ kept.1, ∀ room ∈ command.rooms,
    NoBlackout db n prepared.localTz room.facilityId o.startAt o.endAt

theorem unexcludedOccurrences_exact {command : CreateRecurringBookingSeriesCommand}
    {prepared : PreparedSeries} {kept : List PreparedOccurrence × List SeriesConflict}
    (h : (unexcludedOccurrences command prepared).eval db t = .ok kept) :
    KeptExact db t command prepared kept := by
  obtain ⟨conflicts, hcollect, h⟩ := (eval_bind_iff (collectConflicts_readOnly _ _)).mp h
  obtain ⟨-, -, h⟩ := (eval_bind_iff (ReadOnly.raiseIf _ _)).mp h
  obtain ⟨minWeeks, -, h⟩ :=
    (eval_bind_iff SettingService.getMinRecurringBookingWeeks_readOnly).mp h
  obtain ⟨-, -, h⟩ := (eval_bind_iff (ReadOnly.raiseIf _ _)).mp h
  obtain ⟨u, hblocking, h⟩ := (eval_bind_iff (raiseRemainingConflict_readOnly _)).mp h
  cases h
  obtain ⟨quota, hquota, hcollect⟩ :=
    (eval_bind_iff (quotaConflicts_readOnly command prepared)).mp hcollect
  obtain ⟨found, hfound, hcollect⟩ := (eval_bind_iff
    (ReadOnly.mapEach (occurrenceConflicts_readOnly command prepared) _)).mp hcollect
  cases hcollect
  rw [eval_mapEach_ok (occurrenceConflicts_readOnly command prepared)] at hfound
  set keep : Int → Bool := fun d => !command.excludedDates.contains d with hkeep
  set left := remainingConflicts command ((quota ++ found.flatten).insertionSort conflictLe)
    with hleft
  have hnone : left.filter (fun c => !c.isOverridable) = [] := by
    cases hb : left.filter fun c => !c.isOverridable with
    | nil => rfl
    | cons c rest => rw [hb] at hblocking; cases hblocking
  have hall : ∀ c ∈ left, c.isOverridable = true := fun c hc => by
    have := List.filter_eq_nil_iff.mp hnone c hc
    simpa using this
  have hmem : ∀ c, c ∈ quota ∨ (∃ cs ∈ found, c ∈ cs) → keep c.occurrenceDate = true →
      c ∈ left := fun c hc hk => List.mem_filter.mpr
    ⟨(List.mem_insertionSort _).mpr (List.mem_append.mpr (hc.imp id List.mem_flatten.mpr)), hk⟩
  have hquotaNil : quota.filter (fun c => keep c.occurrenceDate) = [] :=
    List.filter_eq_nil_iff.mpr fun c hc hk => by
      have hover := hall c (hmem c (.inl hc) hk)
      rw [exec_returns (quotaConflicts_blocking command prepared)
        (eval_ok (quotaConflicts_readOnly _ _) hquota) c hc] at hover
      cases hover
  have hturn : ∀ o cs, cs ∈ found → (occurrenceConflicts command prepared o).eval db t = .ok cs →
      keep o.occurrenceDate = true → ∀ c ∈ cs, c.isOverridable = true :=
    fun o cs hcs hturn hk c hc => by
      have hdate := exec_returns (mem_occurrenceConflicts_date command prepared o)
        (eval_ok (occurrenceConflicts_readOnly _ _ _) hturn) c hc
      exact hall c (hmem c (.inr ⟨cs, hcs, hc⟩) (hdate ▸ hk))
  have hkept : ∀ o ∈ remainingOccurrences command prepared, ∃ cs,
      (occurrenceConflicts command prepared o).eval db t = .ok cs ∧
        ∀ c ∈ cs, c.isOverridable = true := fun o ho => by
    obtain ⟨ho, hk⟩ := List.mem_filter.mp ho
    obtain ⟨i, hi, rfl⟩ := List.getElem_of_mem ho
    have hcs := hfound.get hi (hfound.length_eq ▸ hi)
    exact ⟨_, hcs, hturn _ _ (List.get_mem _ _) hcs hk⟩
  refine ⟨rfl, ?_, fun o ho => ?_, fun o ho => ?_⟩
  · rw [List.filter_eq_self.mpr hall]
    refine ((List.perm_insertionSort conflictLe _).filter _).trans ?_
    rw [List.filter_append, hquotaNil, List.nil_append]
    refine List.Perm.of_eq (flatten_filter keep ?_)
    obtain ⟨hlen, hzip⟩ := List.forall₂_iff_zip.mp hfound
    refine List.forall₂_iff_zip.mpr ⟨hlen, fun {o cs} hoc => ?_⟩
    have hcs := hzip hoc
    exact ⟨exec_returns (mem_occurrenceConflicts_date command prepared o)
      (eval_ok (occurrenceConflicts_readOnly _ _ _) hcs),
      fun hk => (occurrenceConflicts_exact hcs (hturn o cs (List.of_mem_zip hoc).2 hcs hk)).1⟩
  · obtain ⟨cs, hcs, hover⟩ := hkept o ho
    exact (occurrenceConflicts_exact hcs hover).2.1
  · obtain ⟨cs, hcs, hover⟩ := hkept o ho
    exact (occurrenceConflicts_exact hcs hover).2.2

/-! ### 2.3 The targets -/

theorem overrideTargets_eval {conflicts : List SeriesConflict} {tz : Zone}
    {targets : List (Int × OverrideTarget)}
    (h : (overrideTargets conflicts tz).eval db t = .ok targets) :
    ∃ released, targets = (occupyingPairs conflicts).map (toSeriesTarget tz released) := by
  unfold overrideTargets at h
  dsimp only at h
  split at h
  · rename_i hnil
    cases h
    exact ⟨fun _ => [], by rw [List.isEmpty_iff.mp hnil]; rfl⟩
  · obtain ⟨released, -, h⟩ := (eval_bind_iff (ReadOnly.select _)).mp h
    cases h
    exact ⟨released, rfl⟩

/-- The occupants of each occurrence, with its date. -/
def datedOccupants (db : Db) (n : Int) (rooms : List BookingRoomLineCommand)
    (os : List PreparedOccurrence) : List (Int × OccupyingBooking) :=
  os.flatMap fun o => (occurrenceOccupants db n rooms o).map fun m => (o.occurrenceDate, m)

theorem occupyingPairs_overridable (o : PreparedOccurrence) (items : List OccupyingBooking) :
    occupyingPairs (overridableConflict o items) = items.map fun m => (o.occurrenceDate, m) := by
  unfold overridableConflict
  split
  · rename_i h
    rw [List.isEmpty_iff.mp h]
    rfl
  · simp [occupyingPairs]

theorem KeptExact.pairs {command : CreateRecurringBookingSeriesCommand}
    {prepared : PreparedSeries} {kept : List PreparedOccurrence × List SeriesConflict}
    (h : KeptExact db t command prepared kept) :
    (occupyingPairs kept.2).Perm (datedOccupants db t command.rooms kept.1) := by
  refine (h.conflicts.flatMap_right _).trans (List.Perm.of_eq ?_)
  rw [List.flatMap_assoc]
  exact List.flatMap_congr fun o _ => occupyingPairs_overridable o _

theorem mem_datedOccupants {rooms : List BookingRoomLineCommand} {os : List PreparedOccurrence}
    {d : Int} {m : OccupyingBooking} : (d, m) ∈ datedOccupants db t rooms os ↔
      ∃ o ∈ os, o.occurrenceDate = d ∧ m ∈ occurrenceOccupants db t rooms o := by
  simp only [datedOccupants, List.mem_flatMap, List.mem_map, Prod.mk.injEq]
  constructor
  · rintro ⟨o, ho, m', hm', hd, rfl⟩
    exact ⟨o, ho, hd, hm'⟩
  · rintro ⟨o, ho, hd, hm⟩
    exact ⟨o, ho, m, hm, hd, rfl⟩

theorem datedOccupants_nodup {rooms : List BookingRoomLineCommand}
    {os : List PreparedOccurrence} (hd : (os.map PreparedOccurrence.occurrenceDate).Nodup) :
    ((datedOccupants db t rooms os).map fun p => (p.1, p.2.bookingId)).Nodup := by
  rw [datedOccupants, List.map_flatMap, List.nodup_flatMap]
  refine ⟨fun o _ => ?_, (List.pairwise_map.mp hd).imp fun {o o'} hne => ?_⟩
  · have hids := (occurrenceOccupants_exact (t := t) rooms o : MergedExact (lineOccupants db t _) _).ids
    rw [List.map_map]
    exact List.Nodup.of_map Prod.snd (by simpa [Function.comp_def] using hids)
  · intro x hx hx'
    simp only [List.mem_map, exists_exists_and_eq_and] at hx hx'
    obtain ⟨m, -, rfl⟩ := hx
    obtain ⟨m', -, he⟩ := hx'
    exact hne (Prod.mk.inj he).1.symm

/-- **The targets of a Series proposal that nothing blocks** are the occupants of the occurrences
that are kept, each with the rooms it is met in. -/
structure SeriesTargetsExact (db : Db) (n : Int) (rooms : List BookingRoomLineCommand)
    (os : List PreparedOccurrence) (targets : List (Int × OverrideTarget)) : Prop where
  occupants : ∀ d id room, (∃ target ∈ targets, target.1 = d ∧ target.2.impact.bookingId = id ∧
    room ∈ target.2.overlappingFacilityIds) ↔
      ∃ o ∈ os, o.occurrenceDate = d ∧
        ∃ p ∈ lineOccupants db n (occurrenceLines rooms o), p.2.bookingId = id ∧ p.1 = room
  rooms : ∀ target ∈ targets, target.2.overlappingFacilityIds.Nodup ∧
    target.2.overlappingFacilityIds ≠ []
  ids : (os.map PreparedOccurrence.occurrenceDate).Nodup →
    (targets.map fun target => (target.1, target.2.impact.bookingId)).Nodup

theorem KeptExact.targets {command : CreateRecurringBookingSeriesCommand}
    {prepared : PreparedSeries} {kept : List PreparedOccurrence × List SeriesConflict}
    (h : KeptExact db t command prepared kept) {tz : Zone} {targets : List (Int × OverrideTarget)}
    (htargets : (overrideTargets kept.2 tz).eval db t = .ok targets) :
    SeriesTargetsExact db t command.rooms kept.1 targets := by
  obtain ⟨released, rfl⟩ := overrideTargets_eval htargets
  have hmem : ∀ {d m}, (d, m) ∈ occupyingPairs kept.2 ↔
      ∃ o ∈ kept.1, o.occurrenceDate = d ∧ m ∈ occurrenceOccupants db t command.rooms o :=
    fun {d m} => h.pairs.mem_iff.trans mem_datedOccupants
  refine ⟨fun d id room => ?_, fun target htarget => ?_, fun hd => ?_⟩
  · constructor
    · rintro ⟨target, htarget, rfl, hid, hroom⟩
      obtain ⟨⟨d, m⟩, hp, rfl⟩ := List.mem_map.mp htarget
      obtain ⟨o, ho, hdate, hm⟩ := hmem.mp hp
      exact ⟨o, ho, hdate,
        ((occurrenceOccupants_exact command.rooms o).rows id room).mp ⟨m, hm, hid, hroom⟩⟩
    · rintro ⟨o, ho, hdate, hp⟩
      obtain ⟨m, hm, hid, hroom⟩ :=
        ((occurrenceOccupants_exact command.rooms o).rows id room).mpr hp
      exact ⟨_, List.mem_map_of_mem (hmem.mpr ⟨o, ho, hdate, hm⟩), rfl, hid, hroom⟩
  · obtain ⟨⟨d, m⟩, hp, rfl⟩ := List.mem_map.mp htarget
    obtain ⟨o, -, -, hm⟩ := hmem.mp hp
    exact (occurrenceOccupants_exact command.rooms o).rooms m hm
  · have hmap : ((occupyingPairs kept.2).map (toSeriesTarget tz released)).map
        (fun target => (target.1, target.2.impact.bookingId)) =
        (occupyingPairs kept.2).map fun p => (p.1, p.2.bookingId) := by
      simp [toSeriesTarget, toTarget, Function.comp_def]
    rw [hmap, (h.pairs.map _).nodup_iff]
    exact datedOccupants_nodup hd

end NewlifeCore
