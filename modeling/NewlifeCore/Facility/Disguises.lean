import NewlifeCore.Facility.OverrideTargets
import NewlifeCore.Facility.RateOrder
import NewlifeCore.Facility.TimetableOccupancy

/-!
# States that differ in who occupies

Two states of the tables with the same Bookings at the same times, under other users, Ministries
and titles.  The timetable and the one-time conflict list that a Personal request is given are the
same in both: each asks only whether a room is taken.
-/

namespace NewlifeCore

open Txn Prog AvailabilityService

/-! ## 1. The states -/

/-- The Booking with another user, Ministry and title. -/
def SameOccupancy (b b' : Booking) : Prop :=
  b' = { b with userId := b'.userId, ministryId := b'.ministryId, title := b'.title }

def SameHold (s s' : BookingSeries) : Prop :=
  s' = { s with userId := s'.userId, ministryId := s'.ministryId, title := s'.title }

/-- **The states differ in who occupies**, and the viewer is not among those: his own Bookings and
his own user row are the same, and any other Booking is another's in both. -/
structure Disguised (viewer : UUID) (db db' : Db) : Prop where
  tables : ∃ bookings series users ministries, db' = { db with bookings, series, users, ministries }
  bookings : List.Forall₂ (fun b b' => SameOccupancy b b' ∧
    (b' = b ∨ b.userId ≠ viewer ∧ b'.userId ≠ viewer)) db.bookings db'.bookings
  series : List.Forall₂ SameHold db.series db'.series
  user : (db'.users.find? fun u => u.id = viewer) = db.users.find? fun u => u.id = viewer

variable {viewer : UUID} {db db' : Db} {t : Int}

/-- A query of the other tables returns the same. -/
theorem Disguised.select (h : Disguised viewer db db') {α : Type} {q : Db → Int → α}
    (hq : ∀ bookings series users ministries,
      q { db with bookings, series, users, ministries } t = q db t) :
    Alike db db' t (select q : Portal α) := by
  obtain ⟨bookings, series, users, ministries, rfl⟩ := h.tables
  exact Alike.select (hq _ _ _ _).symm

/-! ## 2. Slots -/

/-- A Series is found under an id in both, with the same hold. -/
theorem hold_eq {sid : Option UUID} {series series' : List BookingSeries}
    (h : List.Forall₂ SameHold series series') :
    (series'.find? fun s => sid = some s.id).bind BookingSeries.paymentHoldExpiresAt =
      (series.find? fun s => sid = some s.id).bind BookingSeries.paymentHoldExpiresAt := by
  induction h with
  | nil => rfl
  | @cons s s' _ _ hs _ ih =>
    have hid : s'.id = s.id := by rw [hs]
    rw [List.find?_cons, List.find?_cons, hid]
    split
    · rw [hs]
      rfl
    · exact ih

theorem activeOccupancy_eq {b b' : Booking} (hseries : List.Forall₂ SameHold db.series db'.series)
    (h : SameOccupancy b b') : activeOccupancy db' t b' = activeOccupancy db t b := by
  have hsid : b'.seriesId = b.seriesId := by rw [h]
  have hstatus : b'.status = b.status := by rw [h]
  unfold activeOccupancy paymentHold
  rw [hstatus, hsid, hold_eq hseries]

/-- The same slots meet an interval, with Bookings at the same times. -/
theorem occupyingRows_disguised (h : Disguised viewer db db') (facilityId : UUID)
    (startAt endAt : Int) : List.Forall₂ (fun r r' => r'.1 = r.1 ∧ SameOccupancy r.2 r'.2)
      (occupyingRows db t facilityId startAt endAt)
      (occupyingRows db' t facilityId startAt endAt) := by
  have hslots : db'.bookingSlots = db.bookingSlots := by
    obtain ⟨_, _, _, _, rfl⟩ := h.tables
    rfl
  unfold occupyingRows
  rw [hslots]
  refine List.rel_flatMap (R := Eq) (List.forall₂_refl _) ?_
  rintro slot _ rfl
  refine List.rel_map (R := fun b b' => SameOccupancy b b') (fun b b' hb => ⟨rfl, hb⟩) ?_
  refine List.rel_filter ?_ (h.bookings.imp fun _ _ hb => hb.1)
  intro b b' hb
  dsimp only
  have hid : b'.id = b.id := by rw [hb]
  have hdeleted : b'.isDeleted = b.isDeleted := by rw [hb]
  rw [hid, hdeleted, activeOccupancy_eq h.series hb]

/-! ## 3. The timetable -/

/-- The times an item occupies. -/
def OccupancyInterval.span (o : OccupancyInterval) : Interval := (o.startAt, o.endAt)

/-- For who has no priority a cell is free or taken, and only the times tell. -/
theorem classifyCell_personal (cell : Interval) (windows : List Interval)
    (occupancies : List OccupancyInterval) (nowUtc : Int) :
    classifyCell cell windows occupancies false nowUtc =
      if (clipInterval cell windows).isEmpty then .closed
      else if (occupancies.map OccupancyInterval.span).any fun span =>
        (clipInterval cell windows).any fun part => intervalsOverlap part span then .unavailable
      else .available := by
  have hnone : ∀ items : List OccupancyInterval,
      items.filter (isOverridable false nowUtc) = [] := fun items =>
    List.filter_eq_nil_iff.mpr fun item _ => by simp [isOverridable]
  unfold classifyCell
  dsimp only
  rw [hnone]
  split
  · rfl
  · by_cases htaken : (occupancies.map OccupancyInterval.span).any fun span =>
        (clipInterval cell windows).any fun part => intervalsOverlap part span
    · rw [if_pos htaken, if_neg]
      · rfl
      · simpa [OccupancyInterval.span] using htaken
    · rw [if_neg htaken, if_pos]
      simpa [OccupancyInterval.span] using htaken

theorem cellStates_personal {d : DayView} (hd : d.isPriority = false) {windows : List Interval}
    {occupancies occupancies' : List OccupancyInterval}
    (h : occupancies'.map OccupancyInterval.span = occupancies.map OccupancyInterval.span) :
    d.cellStates windows occupancies' = d.cellStates windows occupancies := by
  unfold DayView.cellStates
  rw [hd]
  refine List.map_congr_left fun cell _ => ?_
  rw [classifyCell_personal, classifyCell_personal, h]

/-- The occupancy of a day that a Personal request reads: the times of the slots. -/
theorem occupancyForRoomDay_personal (db : Db) (t : Int) (facilityId : UUID) (day : Int)
    (tz : Zone) : ∃ occupancies,
      (occupancyForRoomDay facilityId day tz false false).eval db t = .ok occupancies ∧
      occupancies.map OccupancyInterval.span =
        (daySlots db t facilityId day tz).map ownInterval := by
  obtain ⟨occupancies, hread⟩ : ∃ occupancies,
      (occupancyForRoomDay facilityId day tz false false).eval db t = .ok occupancies := by
    exact ⟨_, (eval_bind_iff (ReadOnly.select _)).mpr ⟨_, rfl, (eval_bind_iff
      (ReadOnly.foldEach (addOccupancy_readOnly _ _) _ _)).mpr ⟨_, eval_foldEach_eq
        (addOccupancy_readOnly false false) (fun s row => rfl) _ _, rfl⟩⟩⟩
  have hshape := congrArg (List.map Prod.fst) (occupancyForRoomDay_shape hread)
  rw [List.map_map, List.map_map] at hshape
  exact ⟨occupancies, hread, hshape⟩

theorem daySlots_disguised (h : Disguised viewer db db') (facilityId : UUID) (day : Int)
    (tz : Zone) : (daySlots db' t facilityId day tz).map ownInterval =
      (daySlots db t facilityId day tz).map ownInterval := by
  have hrows := occupyingRows_disguised (t := t) h facilityId (tz.startOfDay day)
    (tz.startOfDay day + dayMicros)
  rw [occupyingRows_eq, occupyingRows_eq] at hrows
  have hspan : ∀ r r' : BookingSlot × Booking, r'.1 = r.1 ∧ SameOccupancy r.2 r'.2 →
      ownInterval r = ownInterval r' := by
    rintro r r' ⟨-, hr⟩
    have hstart : r'.2.startAt = r.2.startAt := by rw [hr]
    have hend : r'.2.endAt = r.2.endAt := by rw [hr]
    rw [ownInterval, ownInterval, hstart, hend]
  have hspans := List.rel_map (P := Eq) (fun r r' hr => hspan r r' hr) hrows
  rw [List.forall₂_eq_eq_eq] at hspans
  exact hspans.symm

theorem roomAvailability_disguised (h : Disguised viewer db db') {d : DayView}
    (hministry : d.isMinistryContext = false) (hpriority : d.isPriority = false)
    (room : FacilityRoom) : Alike db db' t (roomAvailability d room) := by
  refine Alike.bind (ReadOnly.select _) (h.select fun _ _ _ _ => rfl) fun active _ => ?_
  refine Alike.bind (ReadOnly.select _) (h.select fun _ _ _ _ => rfl) fun blackouts _ => ?_
  rw [hministry, hpriority]
  obtain ⟨occupancies, hread, hspans⟩ := occupancyForRoomDay_personal db t room.id d.day d.tz
  obtain ⟨occupancies', hread', hspans'⟩ := occupancyForRoomDay_personal db' t room.id d.day d.tz
  have hsame : occupancies'.map OccupancyInterval.span =
      occupancies.map OccupancyInterval.span := by
    rw [hspans', daySlots_disguised h, hspans]
  refine Alike.bind_ok (occupancyForRoomDay_readOnly _ _ _ _ _) hread hread' ?_
  have hitem : ∀ (templates : List RoomSlotTemplate) (windows : List Interval),
      d.roomItem room templates windows occupancies' =
        d.roomItem room templates windows occupancies := by
    intro templates windows
    unfold DayView.roomItem
    rw [hministry, cellStates_personal hpriority hsame]
    rfl
  rw [cellStates_personal hpriority hsame, hitem]
  split <;> rfl

theorem readFacilitySetting_disguised (h : Disguised viewer db db') (key type : String) :
    Alike db db' t (SettingService.readFacilitySetting key type) := by
  refine Alike.bind (ReadOnly.select _) (h.select fun _ _ _ _ => rfl) fun row _ => ?_
  cases row with
  | none => exact Alike.raise _
  | some row => exact Alike.bind (ReadOnly.raiseIf _ _) (Alike.raiseIf _ _) fun _ _ => Alike.ret _

/-- A setting that is parsed is the same in both. -/
theorem setting_disguised (h : Disguised viewer db db') {α : Type} (key type : String)
    (parse : JsonValue → Except ApiError α) :
    Alike db db' t ((SettingService.readFacilitySetting key type).bind fun value =>
      ofExcept (parse value)) :=
  Alike.bind (SettingService.readFacilitySetting_readOnly _ _) (readFacilitySetting_disguised h _ _)
    fun _ _ => Alike.ofExcept _

/-- **The timetable of a Personal request.** -/
theorem timetable_disguised (h : Disguised viewer db db') (app : App) (r : Request) (day : Int) :
    Alike db db' t (getRoomsAvailability app r { targetDate := day }) := by
  refine Alike.bind (SettingService.getFacilityTimezone_readOnly _) (setting_disguised h _ _ _)
    fun tz _ => Alike.bind ReadOnly.now Alike.now fun now _ => ?_
  refine Alike.bind (ReadOnly.raiseIf _ _) (Alike.raiseIf _ _) fun _ _ => ?_
  refine Alike.bind (resolveMinistryContext_readOnly r none) (Alike.ret _) fun context hcontext => ?_
  cases hcontext
  refine Alike.bind SettingService.getMaxBookingLines_readOnly (setting_disguised h _ _ _)
    fun lines _ => ?_
  refine Alike.bind (ReadOnly.select _) (h.select fun _ _ _ _ => rfl) fun rooms _ => ?_
  refine Alike.bind (ReadOnly.mapEach (roomAvailability_readOnly _) _) ?_ fun _ _ => Alike.ret _
  exact Alike.mapEach (roomAvailability_readOnly _) fun room _ =>
    roomAvailability_disguised h rfl rfl room

/-! ## 4. The one-time conflict list -/

/-- What a Personal proposal is told of its lines. -/
def oneTimeConflicts (lines : List ResolvedBookingLine) (nowUtc : Int) (localTz : Zone)
    (allowOverride : Bool) : Portal (List BookingConflict) := do
  let evaluation ← evaluateOneTimeOccupancy lines none nowUtc localTz allowOverride
  pure evaluation.conflicts

/-- Without a Ministry a row only blocks its line. -/
theorem scanRows_personal (line : ResolvedBookingLine) (nowUtc : Int) (rows : List OccupyingBooking)
    (s : LineScan) : (foldEach rows s (scanRow none false nowUtc line)).eval db t =
      .ok { s with blockedOnLine := s.blockedOnLine || !rows.isEmpty } := by
  have hrow : ∀ (s : LineScan) (row : OccupyingBooking),
      (scanRow none false nowUtc line s row).eval db t = .ok { s with blockedOnLine := true } := by
    intro s row
    unfold scanRow
    rw [Bool.and_false, Bool.false_and, if_neg Bool.false_ne_true]
    rfl
  rw [eval_foldEach_eq (scanRow_readOnly none false nowUtc line) hrow]
  refine congrArg Except.ok ?_
  induction rows generalizing s with
  | nil => simp
  | cons row rows ih =>
    rw [List.foldl_cons, ih]
    simp

/-- The conflict of a line whose room is taken. -/
def takenLine (line : ResolvedBookingLine) : BookingConflict where
  facilityId := line.facilityId
  startAt := line.startAt
  endAt := line.endAt
  kind := .occupancy

theorem scanLine_personal (nowUtc : Int) (s : OccupancyScan) (line : ResolvedBookingLine) :
    (scanLine none false nowUtc s line).eval db t =
      .ok (if (occupyingRows db t line.facilityId line.startAt line.endAt).isEmpty then s
        else { s with conflicts := s.conflicts ++ [takenLine line] }) := by
  refine (eval_bind_iff (ReadOnly.select _)).mpr
    ⟨occupyingResults db t line.facilityId line.startAt line.endAt, rfl, ?_⟩
  refine (eval_bind_iff (ReadOnly.foldEach (scanRow_readOnly _ _ _ _) _ _)).mpr
    ⟨_, scanRows_personal line nowUtc _ _, ?_⟩
  unfold occupyingResults
  cases occupyingRows db t line.facilityId line.startAt line.endAt with
  | nil => rfl
  | cons row rows => rfl

theorem scanLine_disguised (h : Disguised viewer db db') (nowUtc : Int) (s : OccupancyScan)
    (line : ResolvedBookingLine) : Alike db db' t (scanLine none false nowUtc s line) := by
  have htaken : (occupyingRows db' t line.facilityId line.startAt line.endAt).isEmpty =
      (occupyingRows db t line.facilityId line.startAt line.endAt).isEmpty := by
    rw [Bool.eq_iff_iff, List.isEmpty_iff_length_eq_zero, List.isEmpty_iff_length_eq_zero,
      (occupyingRows_disguised h _ _ _).length_eq]
  rw [Alike, scanLine_personal, scanLine_personal, htaken]

theorem releasedByTarget_disguised (h : Disguised viewer db db')
    (targetRows : List (OccupyingBooking × List UUID)) :
    Alike db db' t (releasedByTarget targetRows) := by
  unfold releasedByTarget
  split
  · exact Alike.ret _
  · exact h.select fun _ _ _ _ => rfl

/-- **The conflict list of a Personal one-time proposal.** -/
theorem oneTimeConflicts_disguised (h : Disguised viewer db db') (lines : List ResolvedBookingLine)
    (nowUtc : Int) (localTz : Zone) (allowOverride : Bool) :
    Alike db db' t (oneTimeConflicts lines nowUtc localTz allowOverride) := by
  refine Alike.bind (evaluateOneTimeOccupancy_readOnly _ _ _ _ _) ?_ fun evaluation _ =>
    Alike.ret _
  have hoverride : (allowOverride && (none : Option MinistryProposalContext).any
      MinistryProposalContext.isPriority) = false := Bool.and_false _
  unfold evaluateOneTimeOccupancy
  rw [hoverride]
  refine Alike.bind (ReadOnly.foldEach (scanLine_readOnly _ _ _) _ _)
    (Alike.foldEach (scanLine_readOnly _ _ _) (scanLine_disguised h nowUtc) _ _) fun s _ => ?_
  refine Alike.bind ?_ (releasedByTarget_disguised h _) fun _ _ => Alike.ret _
  unfold releasedByTarget
  split
  · trivial
  · exact ReadOnly.select _

/-! ## 5. The checks of a recurring proposal -/

section

open RecurringBookingService

/-- The viewer's church account is the same in both. -/
theorem raiseIfIneligibleBooker_disguised (h : Disguised viewer db db') (app : App) (r : Request) :
    Alike db db' t (raiseIfIneligibleBooker app r viewer) := by
  have hstored : Alike db db' t (UserReadService.emailById viewer) :=
    Alike.select (congrArg (Option.map AuthUser.email) h.user.symm)
  refine Alike.bind ?_ ?_ fun email _ => ?_
  · unfold raiseIfIneligibleBooker.bookerEmail
    split
    · split
      · exact ReadOnly.select _
      · trivial
    · exact ReadOnly.select _
  · unfold raiseIfIneligibleBooker.bookerEmail
    split
    · split
      · exact hstored
      · exact Alike.ret _
    · exact hstored
  · split
    · exact Alike.ret _
    · split
      · exact Alike.raise _
      · refine Alike.bind SettingService.getRecurringBookingTestBookerAllowlist_readOnly ?_
          fun _ _ => Alike.raiseIf _ _
        refine Alike.bind (ReadOnly.select _) (h.select fun _ _ _ _ => rfl) fun value _ => ?_
        cases value with
        | none => exact Alike.ret _
        | some value =>
          dsimp only
          split <;> exact Alike.ret _

theorem effectiveTestWindowOverride_disguised (h : Disguised viewer db db') (app : App) :
    Alike db db' t (effectiveTestWindowOverride app) := by
  unfold effectiveTestWindowOverride
  split
  · exact Alike.ret _
  · refine Alike.bind (ReadOnly.select _) (h.select fun _ _ _ _ => rfl) fun value _ => ?_
    split <;> exact Alike.ret _

theorem checkSchedule_alike (command : CreateRecurringBookingSeriesCommand) :
    Alike db db' t (checkSchedule command) :=
  Alike.bind (ReadOnly.raiseIf _ _) (Alike.raiseIf _ _) fun _ _ =>
    Alike.bind (ReadOnly.raiseIf _ _) (Alike.raiseIf _ _) fun _ _ => Alike.raiseIf _ _

/-- **A Personal proposal of the viewer's is prepared alike.** -/
theorem prepareSeries_disguised (h : Disguised viewer db db') (app : App) (r : Request)
    {command : CreateRecurringBookingSeriesCommand} (hpersonal : command.ministryId = none)
    (hviewer : ∀ u, r.operatorId = some u → command.userId.getD u = viewer) :
    Alike db db' t (prepareSeries app r command) := by
  refine Alike.bind (BookingService.authenticatedUser_readOnly _) ?_ fun operatorId hoperator => ?_
  · unfold authenticatedUser
    split
    · exact Alike.raise _
    · exact Alike.ret _
  have hbooker : command.userId.getD operatorId = viewer := by
    refine hviewer operatorId ?_
    unfold authenticatedUser at hoperator
    split at hoperator
    · cases hoperator
    · rename_i u hu
      cases hoperator
      exact hu
  dsimp only
  rw [hbooker, hpersonal]
  refine Alike.bind (raiseIfIneligibleBooker_readOnly _ _ _)
    (raiseIfIneligibleBooker_disguised h _ _) fun _ _ => ?_
  refine Alike.bind (ReadOnly.raiseIf _ _) (Alike.raiseIf _ _) fun _ _ => ?_
  refine Alike.bind (ReadOnly.raiseIf _ _) (Alike.raiseIf _ _) fun _ _ => ?_
  refine Alike.bind (BookingService.raiseIfTooManyBookingLines_readOnly _) ?_ fun _ _ => ?_
  · exact Alike.bind SettingService.getMaxBookingLines_readOnly (setting_disguised h _ _ _)
      fun _ _ => Alike.raiseIf _ _
  refine Alike.bind (checkSchedule_readOnly _) (checkSchedule_alike _) fun _ _ => ?_
  refine Alike.bind (SettingService.getFacilityTimezone_readOnly _) (setting_disguised h _ _ _)
    fun tz _ => Alike.bind ReadOnly.now Alike.now fun nowUtc _ => ?_
  refine Alike.bind SettingService.getRecurringBookingAvailabilityWindow_readOnly
    (setting_disguised h _ _ _) fun window _ => ?_
  refine Alike.bind (effectiveTestWindowOverride_readOnly _)
    (effectiveTestWindowOverride_disguised h _) fun overrideOpen _ => ?_
  refine Alike.bind (ReadOnly.raiseIf _ _) (Alike.raiseIf _ _) fun _ _ => ?_
  refine Alike.bind SettingService.getMinRecurringBookingWeeks_readOnly (setting_disguised h _ _ _)
    fun minWeeks _ => ?_
  refine Alike.bind (ReadOnly.raiseIf _ _) (Alike.raiseIf _ _) fun _ _ => ?_
  refine Alike.bind (ReadOnly.ofExcept _) (Alike.ofExcept _) fun occurrences _ => ?_
  exact Alike.bind (ReadOnly.ofExcept _) (Alike.ofExcept _) fun _ _ => Alike.ret _

end

/-! ## 6. The quote and the payment hold -/

section

open PricingService

theorem resolveRateForRoom_disguised (h : Disguised viewer db db') (facilityId : UUID)
    (hours : Decimal) (asOf : Option Int) :
    Alike db db' t (resolveRateForRoom facilityId hours asOf) := by
  refine Alike.bind (ReadOnly.select _) (h.select fun _ _ _ _ => rfl) fun rates _ => ?_
  split
  · exact Alike.ret _
  · exact Alike.bind (ReadOnly.select _) (h.select fun _ _ _ _ => rfl) fun _ _ => Alike.ret _

theorem pricingEligibility_disguised (h : Disguised viewer db db') {command : PreviewQuoteCommand}
    (hpersonal : command.ministryId = none) : Alike db db' t (pricingEligibility command) := by
  refine Alike.bind (ReadOnly.raiseIf _ _) (Alike.raiseIf _ _) fun _ _ => ?_
  refine Alike.bind (ReadOnly.each checkLine_readOnly _) ?_ fun _ _ => ?_
  · exact Alike.each checkLine_readOnly fun line _ => Alike.bind (ReadOnly.select _)
      (h.select fun _ _ _ _ => rfl) fun _ _ => Alike.bind (ReadOnly.raiseIf _ _)
        (Alike.raiseIf _ _) fun _ _ => Alike.raiseIf _ _
  · rw [hpersonal]
    refine Alike.bind (isQualifying_readOnly _ _) (Alike.ret _) fun qualifying _ => ?_
    split
    · exact Alike.ret _
    · split
      · refine Alike.bind (ReadOnly.select _) (h.select fun _ _ _ _ => rfl) fun rules _ => ?_
        split <;> exact Alike.ret _
      · exact Alike.ret _

/-- **A Personal proposal is priced alike.** -/
theorem previewQuote_disguised (h : Disguised viewer db db') {command : PreviewQuoteCommand}
    (hpersonal : command.ministryId = none) : Alike db db' t (previewQuote command) := by
  rw [previewQuote_eq]
  refine Alike.bind (pricingEligibility_readOnly _) (pricingEligibility_disguised h hpersonal)
    fun eligibility _ => pricedQuote_alike (fun _ line _ => ?_) (h.select fun _ _ _ _ => rfl)
  exact resolveRateForRoom_disguised h _ _ _

theorem quoteOccurrences_disguised (h : Disguised viewer db db')
    {command : CreateRecurringBookingSeriesCommand} (hpersonal : command.ministryId = none)
    (occurrences : List PreparedOccurrence) (bookerId : UUID) :
    Alike db db' t (RecurringBookingService.quoteOccurrences command occurrences bookerId) := by
  refine Alike.bind (ReadOnly.mapEach (RecurringBookingService.quoteOccurrence_readOnly _ _) _) ?_
    fun _ _ => Alike.ret _
  exact Alike.mapEach (RecurringBookingService.quoteOccurrence_readOnly _ _) fun o _ =>
    previewQuote_disguised h hpersonal

theorem getPendingPaymentHoldDays_disguised (h : Disguised viewer db db') :
    Alike db db' t SettingService.getPendingPaymentHoldDays := by
  refine Alike.bind (ReadOnly.tryCatch (fun e => ?_) (ReadOnly.bind (fun _ => ReadOnly.ret _)
    (SettingService.readFacilitySetting_readOnly _ _))) ?_ fun value _ => ?_
  · split <;> trivial
  · refine Alike.tryCatch (ReadOnly.bind (fun _ => ReadOnly.ret _)
      (SettingService.readFacilitySetting_readOnly _ _)) ?_ fun e => ?_
    · exact Alike.bind (SettingService.readFacilitySetting_readOnly _ _)
        (readFacilitySetting_disguised h _ _) fun _ _ => Alike.ret _
    · split
      · exact Alike.ret _
      · exact Alike.raise _
  · cases value with
    | some value => exact Alike.ofExcept _
    | none =>
      refine Alike.bind (ReadOnly.tryCatch (fun e => ?_)
        (SettingService.readFacilitySetting_readOnly _ _)) ?_ fun value _ => ?_
      · split <;> trivial
      · refine Alike.tryCatch (SettingService.readFacilitySetting_readOnly _ _)
          (readFacilitySetting_disguised h _ _) fun e => ?_
        split
        · exact Alike.raise _
        · exact Alike.raise _
      · exact Alike.bind (ReadOnly.ofExcept _) (Alike.ofExcept _) fun _ _ =>
          Alike.bind (ReadOnly.raiseIf _ _) (Alike.raiseIf _ _) fun _ _ => Alike.ret _

theorem proposalPaymentHold_disguised (h : Disguised viewer db db') (app : App)
    (command : CreateRecurringBookingSeriesCommand) (nowUtc : Int) :
    Alike db db' t (RecurringBookingService.proposalPaymentHold app command nowUtc) := by
  unfold RecurringBookingService.proposalPaymentHold
  split
  · exact Alike.ret _
  · refine Alike.bind (RecurringBookingService.pendingPaymentHold_readOnly _ _) ?_ fun _ _ =>
      Alike.ret _
    refine Alike.bind SettingService.getPendingPaymentHoldDays_readOnly
      (getPendingPaymentHoldDays_disguised h) fun days _ => ?_
    refine Alike.bind (SettingService.getFacilityTimezone_readOnly _) (setting_disguised h _ _ _)
      fun tz _ => ?_
    split
    · exact Alike.raise _
    · exact Alike.raise _
    · exact Alike.ret _

end

end NewlifeCore
