import NewlifeCore.Facility.SeriesReads

/-!
# What a proposal has established

The two creations and the Blackout impact, up to their first write: what each method has read and
checked by then, among any other transactions.
-/

namespace NewlifeCore

open Txn Prog

variable {R : Rely Db LockKey}

/-! ## 1. The facility zone -/

/-- The configured facility zone, where the setting can be read. -/
def zoneOf (app : App) (db : Db) : Option Zone :=
  match SettingService.activeRow db "timezone" with
  | none => none
  | some row =>
    if row.valueType = "string" then (SettingService.parseTimezone app row.value).toOption else none

theorem readFacilitySetting_wp (key type : String) (v : PortalView) :
    wp R (SettingService.readFacilitySetting key type) (fun value w => Env R v w ∧
      Read R v (fun db _ => ∃ row, SettingService.activeRow db key = some row ∧
        row.valueType = type ∧ row.value = value) w) v := by
  refine wp_seq (wp_select_once _ v) fun row w₁ hw₁ h₁ => ?_
  cases row with
  | none => exact wp_raise
  | some row =>
    refine wp_seq (wp_check (ReadOnly.raiseIf _ _) (Returns.raiseIf _ _) w₁) fun _ w₂ hw₂ h₂ => ?_
    refine wp_ret fun w hw => ⟨h₁.1.trans (h₂.1.trans hw), ?_⟩
    refine (h₁.2.later (hw₂.trans (.of_env hw))).mono fun db _ hrow => ⟨row, hrow.symm, ?_, rfl⟩
    simpa using h₂.2

/-- The zone a method works in is the configured one. -/
theorem getFacilityTimezone_wp (app : App) (v : PortalView) :
    wp R (SettingService.getFacilityTimezone app) (fun tz w => Env R v w ∧
      Read R v (fun db _ => zoneOf app db = some tz) w) v := by
  refine wp_seq (readFacilitySetting_wp _ _ v) fun value w₁ hw₁ h₁ => ?_
  refine wp_ofExcept fun tz htz w hw => ⟨h₁.1.trans hw, ?_⟩
  refine (h₁.2.later (.of_env hw)).mono fun db _ hrow => ?_
  obtain ⟨row, hact, htype, hvalue⟩ := hrow
  simp only [zoneOf, hact, htype, hvalue, htz, if_true]
  rfl

/-! ## 2. A one-time proposal -/

theorem authenticatedUser_returns (r : Request) :
    Returns (fun id => r.operatorId = some id) (authenticatedUser r) := by
  unfold authenticatedUser
  split
  · trivial
  · assumption

/-- What `create_booking` knows when it asks for the room locks. -/
structure BookingPrepared (R : Rely Db LockKey) (app : App) (r : Request)
    (command : CreateBookingCommand) (v : PortalView) (p : BookingService.Proposal)
    (w : PortalView) : Prop where
  env : Env R v w
  operator : r.operatorId = some p.operatorId
  booker : p.bookerId = command.userId.getD p.operatorId
  rooms : command.rooms ≠ []
  lines : p.lines = resolveBookingLines command.rooms command.startAt command.endAt
  valid : validateBookingLines p.lines p.localTz = .ok ()
  zone : Read R v (fun db _ => zoneOf app db = some p.localTz) w

theorem prepareBooking_wp (app : App) (r : Request) (command : CreateBookingCommand)
    (v : PortalView) : wp R (BookingService.prepareBooking app r command)
      (fun p w => BookingPrepared R app r command v p w) v := by
  refine wp_seq (wp_check (ReadOnly.raiseIf _ _) (Returns.raiseIf _ _) v) fun _ w₁ hw₁ h₁ => ?_
  refine wp_seq (wp_check (BookingService.authenticatedUser_readOnly r)
    (authenticatedUser_returns r) w₁) fun operatorId w₂ hw₂ h₂ => ?_
  refine wp_seq (wp_quiet (BookingService.validateMinistryBookingGate_readOnly _ _) w₂)
    fun _ w₃ hw₃ h₃ => ?_
  refine wp_seq (wp_quiet (BookingService.draftOf_readOnly _) w₃) fun draft w₄ hw₄ h₄ => ?_
  refine wp_seq (wp_quiet (BookingService.requireTitle_readOnly _ _ _) w₄)
    fun title w₅ hw₅ h₅ => ?_
  refine wp_seq (wp_quiet (BookingService.raiseIfTooManyBookingLines_readOnly _) w₅)
    fun _ w₆ hw₆ h₆ => ?_
  refine wp_seq (getFacilityTimezone_wp app w₆) fun tz w₇ hw₇ h₇ => ?_
  refine wp_seq (wp_check (ReadOnly.ofExcept _) (Returns.ofExcept _) w₇) fun _ w₈ hw₈ h₈ => ?_
  refine wp_ret fun w hw => ?_
  have henv₆ : Env R v w₆ := h₁.1.trans (h₂.1.trans (h₃.trans (h₄.trans (h₅.trans h₆))))
  exact {
    env := henv₆.trans (h₇.1.trans (h₈.1.trans hw))
    operator := h₂.2
    booker := rfl
    rooms := by simpa using h₁.2
    lines := rfl
    valid := h₈.2
    zone := (h₇.2.later (hw₈.trans (.of_env hw))).since henv₆ }

/-- What `create_booking` knows when it starts to write. -/
structure BookingChecked (R : Rely Db LockKey) (v : PortalView) (p : BookingService.Proposal)
    (review : BookingService.Review) (w : PortalView) : Prop where
  env : Env R v w
  displaces : ∃ nowUtc, v.clock ≤ nowUtc ∧ nowUtc ≤ w.clock ∧
    ∀ id ∈ review.evaluation.targetIds, review.context.isSome = true ∧
      Read R v (fun db _ => Displaceable db nowUtc id) w
  free : ∀ line ∈ p.lines, Read R v (fun db n => ∀ o,
    Occupant db n line.facilityId line.startAt line.endAt o →
      o.2.id ∈ review.evaluation.targetIds) w

theorem raiseSchedulingConflict_returns (conflicts : List BookingConflict) :
    Returns (fun _ => conflicts = []) (BookingService.raiseSchedulingConflict conflicts) := by
  cases conflicts with
  | nil => exact rfl
  | cons _ _ => trivial

theorem reviewBooking_wp (app : App) (command : CreateBookingCommand)
    (p : BookingService.Proposal) (v : PortalView) :
    wp R (BookingService.reviewBooking app command p) (fun review w =>
      BookingChecked R v p review w) v := by
  refine wp_seq (wp_now_once v) fun nowUtc w₁ hw₁ h₁ => ?_
  refine wp_seq (wp_quiet (proposalContext_readOnly _ _) w₁) fun context w₂ hw₂ h₂ => ?_
  refine wp_seq (evaluateOneTimeOccupancy_wp p.lines context nowUtc p.localTz _ w₂)
    fun evaluation w₃ hw₃ h₃ => ?_
  refine wp_seq (wp_check (BookingService.raiseSchedulingConflict_readOnly _)
    (raiseSchedulingConflict_returns _) w₃) fun _ w₄ hw₄ h₄ => ?_
  refine wp_seq (wp_quiet (ReadOnly.each (fun _ => raiseIfRoomClosed_readOnly _ _ _ _ _) _) w₄)
    fun _ w₅ hw₅ h₅ => ?_
  refine wp_seq (wp_quiet (ReadOnly.ofExcept _) w₅) fun _ w₆ hw₆ h₆ => ?_
  refine wp_seq (wp_quiet (PricingService.previewQuote_readOnly _) w₆) fun quote w₇ hw₇ h₇ =>
    wp_ret fun w hw => ?_
  have hstart : Env R v w₂ := h₁.1.trans h₂
  have hlast : Env R w₃ w := h₄.1.trans (h₅.trans (h₆.trans (h₇.trans hw)))
  obtain ⟨henv₃, hsound, hall⟩ := h₃
  refine ⟨hstart.trans (henv₃.trans hlast), ⟨nowUtc, h₁.2.1, ?_, fun id hid => ?_⟩,
    fun line hl => ?_⟩
  · exact le_trans h₁.2.2 (le_trans h₂.clock (le_trans henv₃.clock hlast.clock))
  · exact ⟨(hsound id hid).1, ((hsound id hid).2.later (.of_env hlast)).since hstart⟩
  · exact ((hall h₄.2 line hl).later (.of_env hlast)).since hstart

/-! ## 3. A recurring proposal -/

open RecurringBookingService

/-- The wall times of one date, in UTC. -/
def OccurrenceOn (localStart localEnd : TimeOfDay) (tz : Zone) (o : PreparedOccurrence) : Prop :=
  localizeWallTime o.occurrenceDate localStart tz = some o.startAt ∧
    localizeWallTime o.occurrenceDate localEnd tz = some o.endAt

theorem prepareOccurrences_ok {localStart localEnd : TimeOfDay} {tz : Zone} :
    ∀ {dates : List Int} {os : List PreparedOccurrence},
      prepareOccurrences localStart localEnd tz dates = .ok os →
      os.map PreparedOccurrence.occurrenceDate = dates ∧
        ∀ o ∈ os, OccurrenceOn localStart localEnd tz o
  | [], os, h => by
    cases h
    exact ⟨rfl, fun o ho => absurd ho (by simp)⟩
  | d :: dates, os, h => by
    unfold prepareOccurrences at h
    split at h
    · rename_i startAt endAt hs he
      split at h
      · rename_i rest hrest
        cases h
        obtain ⟨hdates, hall⟩ := prepareOccurrences_ok hrest
        refine ⟨by rw [List.map_cons, hdates], fun o ho => ?_⟩
        rcases List.mem_cons.mp ho with rfl | ho
        · exact ⟨hs, he⟩
        · exact hall o ho
      · cases h
    · cases h

/-- What `_prepare_series` has established. -/
structure SeriesPrepared (R : Rely Db LockKey) (app : App) (r : Request)
    (command : CreateRecurringBookingSeriesCommand) (v : PortalView) (p : PreparedSeries)
    (w : PortalView) : Prop where
  env : Env R v w
  operator : r.operatorId = some p.operatorId
  booker : p.bookerId = command.userId.getD p.operatorId
  rooms : command.rooms ≠ []
  since : v.clock ≤ p.nowUtc
  until_ : p.nowUtc ≤ w.clock
  zone : Read R v (fun db _ => zoneOf app db = some p.localTz) w
  occurrences : prepareOccurrences command.localStartTime command.localEndTime p.localTz
    (weeklyOccurrenceDates command.firstOccurrenceDate command.lastOccurrenceDate) =
      .ok p.occurrences
  priority : p.isPriority = true → command.ministryId.isSome = true

theorem seriesPriority_returns (ministryId : Option UUID) (bookerId : UUID) :
    Returns (fun priority => priority = true → ministryId.isSome = true)
      (seriesPriority ministryId bookerId) := by
  cases ministryId with
  | none => exact fun h => absurd h (by simp)
  | some m => exact Returns.mono (fun _ _ _ => rfl) (Returns.any _)

theorem prepareSeries_wp (app : App) (r : Request) (command : CreateRecurringBookingSeriesCommand)
    (v : PortalView) : wp R (prepareSeries app r command)
      (fun p w => SeriesPrepared R app r command v p w) v := by
  refine wp_seq (wp_check (BookingService.authenticatedUser_readOnly r)
    (authenticatedUser_returns r) v) fun operatorId w₁ hw₁ h₁ => ?_
  refine wp_seq (wp_quiet (raiseIfIneligibleBooker_readOnly _ _ _) w₁) fun _ w₂ hw₂ h₂ => ?_
  refine wp_seq (wp_check (ReadOnly.raiseIf _ _) (Returns.raiseIf _ _) w₂) fun _ w₃ hw₃ h₃ => ?_
  refine wp_seq (wp_quiet (ReadOnly.raiseIf _ _) w₃) fun _ w₄ hw₄ h₄ => ?_
  refine wp_seq (wp_quiet (BookingService.raiseIfTooManyBookingLines_readOnly _) w₄)
    fun _ w₅ hw₅ h₅ => ?_
  refine wp_seq (wp_quiet (checkSchedule_readOnly _) w₅) fun _ w₆ hw₆ h₆ => ?_
  refine wp_seq (getFacilityTimezone_wp app w₆) fun tz w₇ hw₇ h₇ => ?_
  refine wp_seq (wp_now_once w₇) fun nowUtc w₈ hw₈ h₈ => ?_
  refine wp_seq (wp_quiet SettingService.getRecurringBookingAvailabilityWindow_readOnly w₈)
    fun window w₉ hw₉ h₉ => ?_
  refine wp_seq (wp_quiet (effectiveTestWindowOverride_readOnly _) w₉)
    fun overrideOpen w₁₀ hw₁₀ h₁₀ => ?_
  refine wp_seq (wp_quiet (ReadOnly.raiseIf _ _) w₁₀) fun _ w₁₁ hw₁₁ h₁₁ => ?_
  refine wp_seq (wp_quiet SettingService.getMinRecurringBookingWeeks_readOnly w₁₁)
    fun minWeeks w₁₂ hw₁₂ h₁₂ => ?_
  refine wp_seq (wp_quiet (ReadOnly.raiseIf _ _) w₁₂) fun _ w₁₃ hw₁₃ h₁₃ => ?_
  refine wp_seq (wp_check (ReadOnly.ofExcept _) (Returns.ofExcept _) w₁₃)
    fun occurrences w₁₄ hw₁₄ h₁₄ => ?_
  refine wp_seq (wp_quiet (ReadOnly.ofExcept _) w₁₄) fun _ w₁₅ hw₁₅ h₁₅ => ?_
  refine wp_seq (wp_check (seriesPriority_readOnly _ _) (seriesPriority_returns _ _) w₁₅)
    fun isPriority w₁₆ hw₁₆ h₁₆ => wp_ret fun w hw => ?_
  have henv₆ : Env R v w₆ := h₁.1.trans (h₂.trans (h₃.1.trans (h₄.trans (h₅.trans h₆))))
  have hrest : Env R w₈ w := h₉.trans (h₁₀.trans (h₁₁.trans (h₁₂.trans (h₁₃.trans
    (h₁₄.1.trans (h₁₅.trans (h₁₆.1.trans hw)))))))
  have henv₇ : Env R v w₇ := henv₆.trans h₇.1
  exact {
    env := henv₇.trans (h₈.1.trans hrest)
    operator := h₁.2
    booker := rfl
    rooms := by simpa using h₃.2
    since := le_trans henv₇.clock h₈.2.1
    until_ := le_trans h₈.2.2 hrest.clock
    zone := (h₇.2.later (hw₈.trans (.of_env hrest))).since henv₆
    occurrences := h₁₄.2
    priority := h₁₆.2 }

/-- The Bookings a Series displaces, by id. -/
def RecurringBookingService.SeriesReview.targetIds (review : SeriesReview) : List UUID :=
  review.targets.map fun t => t.2.impact.bookingId

theorem overrideTargets_returns (conflicts : List SeriesConflict) (tz : Zone) :
    Returns (fun ts : List (Int × OverrideTarget) =>
      ts.map (fun t => (t.1, t.2.impact.bookingId)) =
        (occupyingPairs conflicts).map fun p => (p.1, p.2.bookingId))
      (overrideTargets conflicts tz) := by
  unfold overrideTargets
  dsimp only
  split
  · rename_i h
    rw [List.isEmpty_iff.mp h]
    rfl
  · refine Returns.seq _ fun released => ?_
    show List.map _ (List.map _ _) = _
    rw [List.map_map]
    rfl

/-- What the targets of a Series come from. -/
def TargetsOf (conflicts : List SeriesConflict) (targets : List (Int × OverrideTarget)) : Prop :=
  targets.map (fun t => (t.1, t.2.impact.bookingId)) =
    (occupyingPairs conflicts).map fun p => (p.1, p.2.bookingId)

theorem TargetsOf.mem {conflicts : List SeriesConflict} {targets : List (Int × OverrideTarget)}
    (h : TargetsOf conflicts targets) (d : Int) (id : UUID) :
    (∃ t ∈ targets, t.1 = d ∧ t.2.impact.bookingId = id) ↔
      ∃ c ∈ conflicts, c.occurrenceDate = d ∧ ∃ m ∈ c.occupyingBookings, m.bookingId = id := by
  have h₁ : (d, id) ∈ targets.map (fun t => (t.1, t.2.impact.bookingId)) ↔
      ∃ t ∈ targets, t.1 = d ∧ t.2.impact.bookingId = id := by simp
  have h₂ : (d, id) ∈ (occupyingPairs conflicts).map (fun p => (p.1, p.2.bookingId)) ↔
      ∃ c ∈ conflicts, c.occurrenceDate = d ∧ ∃ m ∈ c.occupyingBookings, m.bookingId = id := by
    simp only [occupyingPairs, List.mem_map, List.mem_flatMap, Prod.mk.injEq]
    constructor
    · rintro ⟨p, ⟨c, hc, m, hm, rfl⟩, rfl, rfl⟩
      exact ⟨c, hc, rfl, m, hm, rfl⟩
    · rintro ⟨c, hc, rfl, m, hm, rfl⟩
      exact ⟨_, ⟨c, hc, m, hm, rfl⟩, rfl, rfl⟩
  rw [← h₁, ← h₂, h]

/-- What `create_series` knows when it starts to write. -/
structure SeriesChecked (R : Rely Db LockKey) (v : PortalView)
    (command : CreateRecurringBookingSeriesCommand) (p : PreparedSeries) (review : SeriesReview)
    (w : PortalView) : Prop where
  env : Env R v w
  remaining : review.remaining = remainingOccurrences command p
  quotes : review.quotes.length = review.remaining.length
  hold : review.paymentHoldExpiresAt = none ↔ review.quotes.all Quote.isFreeMinistry = true
  priority : review.targets ≠ [] → p.isPriority = true
  displaces : ∀ id ∈ review.targetIds, Read R v (fun db _ => Displaceable db p.nowUtc id) w
  free : ∀ o ∈ review.remaining, ∀ room ∈ command.rooms,
    Read R v (fun db n => ∀ r, Occupant db n room.facilityId o.startAt o.endAt r →
      r.2.id ∈ review.targetIds) w ∧
    OpenThroughout R v p.localTz room.facilityId o w
  quota : command.ministryId = none → p.localTz.DaysInOrder → ∀ o ∈ review.remaining,
    Read R v (QuotaFree p.localTz p.bookerId o.startAt) w

theorem seriesPaymentHold_returns (app : App) (nowUtc : Int) (quotes : List Quote) :
    Returns (fun hold => hold = none ↔ quotes.all Quote.isFreeMinistry = true)
      (seriesPaymentHold app nowUtc quotes) := by
  unfold seriesPaymentHold
  split
  · rename_i h
    exact ⟨fun _ => h, fun _ => rfl⟩
  · rename_i h
    exact Returns.seq _ fun x => ⟨fun hn => absurd hn (by simp), fun hq => absurd hq h⟩

theorem reviewSeries_wp (app : App) (command : CreateRecurringBookingSeriesCommand)
    (p : PreparedSeries) (v : PortalView) :
    wp R (reviewSeries app command p) (fun review w => SeriesChecked R v command p review w) v := by
  refine wp_seq (unexcludedOccurrences_wp command p v) fun kept w₁ hw₁ h₁ => ?_
  obtain ⟨remaining, conflicts⟩ := kept
  refine wp_seq (wp_check (overrideTargets_readOnly _ _) (overrideTargets_returns _ _) w₁)
    fun targets w₂ hw₂ h₂ => ?_
  refine wp_seq (wp_quiet (ReadOnly.ofExcept _) w₂) fun _ w₃ hw₃ h₃ => ?_
  refine wp_seq (wp_check (ReadOnly.mapEach (quoteOccurrence_readOnly _ _) _)
    (Returns.mapEach_length remaining) w₃) fun quotes w₄ hw₄ h₄ => ?_
  refine wp_seq (wp_check (seriesPaymentHold_readOnly _ _ _) (seriesPaymentHold_returns _ _ _) w₄)
    fun hold w₅ hw₅ h₅ => wp_ret fun w hw => ?_
  have hlast : Env R w₁ w := h₂.1.trans (h₃.trans (h₄.1.trans (h₅.1.trans hw)))
  have hlater : Later R w₁ w := .of_env hlast
  have htargets : TargetsOf conflicts targets := h₂.2
  have hids : ∀ id, id ∈ targets.map (fun t => t.2.impact.bookingId) ↔
      ∃ c ∈ conflicts, ∃ m ∈ c.occupyingBookings, m.bookingId = id := by
    intro id
    constructor
    · intro h
      obtain ⟨t, ht, rfl⟩ := List.mem_map.mp h
      obtain ⟨c, hc, -, hm⟩ := (htargets.mem _ _).mp ⟨t, ht, rfl, rfl⟩
      exact ⟨c, hc, hm⟩
    · rintro ⟨c, hc, hm⟩
      obtain ⟨t, ht, -, rfl⟩ := (htargets.mem _ _).mpr ⟨c, hc, rfl, hm⟩
      exact List.mem_map.mpr ⟨t, ht, rfl⟩
  exact {
    env := h₁.env.trans hlast
    remaining := h₁.remaining
    quotes := h₄.2
    hold := h₅.2
    priority := fun hne => h₁.priority fun hc => hne (by
      have := htargets
      simp only at hc
      subst hc
      simpa [TargetsOf, occupyingPairs] using this)
    displaces := fun id hid => by
      obtain ⟨c, hc, m, hm, rfl⟩ := (hids id).mp hid
      exact (h₁.displaces c hc m hm).later hlater
    free := fun o ho room hr => by
      obtain ⟨hread, hopen⟩ := h₁.free o ho room hr
      refine ⟨(hread.later hlater).mono fun db n h x hx => ?_,
        fun day hd => (hopen day hd).later hlater⟩
      obtain ⟨c, hc, -, hm⟩ := h x hx
      exact (hids _).mpr ⟨c, hc, hm⟩
    quota := fun hm htz o ho => (h₁.quota hm htz o ho).later hlater }

/-! ## 4. The impact of a Blackout -/

/-- A live occurrence of some Series that starts after a time. -/
def FutureOccurrence (db : Db) (nowUtc : Int) (b : Booking) : Prop :=
  b ∈ db.bookings ∧ b.seriesId.isSome = true ∧ b.isDeleted = false ∧ nowUtc < b.startAt

/-- What the preview of an impact found: what starts later, by the stored start, and meets the
Blackout, by the shown interval. -/
structure ImpactReview (R : Rely Db LockKey) (app : App) (v : PortalView) (blackout : RoomBlackout)
    (items : List BlackoutImpactOccurrence) (w : PortalView) : Prop where
  env : Env R v w
  sound : ∃ nowUtc, v.clock ≤ nowUtc ∧ nowUtc ≤ w.clock ∧
    ∀ item ∈ items, Read R v (fun db _ => ∃ b, FutureOccurrence db nowUtc b ∧ b.id = item.id ∧
      b.seriesId = some item.seriesId ∧ isLive b.status = true) w
  complete : blackout.isActive = true → ∃ nowUtc tz, v.clock ≤ nowUtc ∧ nowUtc ≤ w.clock ∧
    Read R v (fun db _ => zoneOf app db = some tz) w ∧
    Read R v (fun db n => ∀ b, FutureOccurrence db nowUtc b → activeOccupancy db n b = true →
      ∀ slot ∈ db.bookingSlots, slot.facilityBookingId = b.id → slot.status = .confirmed →
      RoomBlackoutRepository.intervalOverlapsBlackout blackout slot.facilityId b.shownStart
        b.shownEnd tz = true → b.id ∈ items.map BlackoutImpactOccurrence.id) w

theorem activeOccupancy_live {db : Db} {n : Int} {b : Booking} (h : activeOccupancy db n b = true) :
    isLive b.status = true := by
  simp only [activeOccupancy, Bool.or_eq_true, Bool.and_eq_true, decide_eq_true_eq] at h
  simp only [isLive, Bool.or_eq_true, decide_eq_true_eq]
  exact h.elim .inr fun h => .inl h.1

theorem impactRow_some {db : Db} {b : Booking} {item : BlackoutImpactOccurrence}
    (h : impactRow db b = some item) : item.id = b.id ∧ b.seriesId = some item.seriesId := by
  unfold impactRow at h
  split at h
  · cases h
    exact ⟨rfl, ‹_›⟩
  · cases h

theorem impactRow_of_slot {db : Db} {b : Booking} {slot : BookingSlot} (hs : b.seriesId.isSome)
    (hslot : slot ∈ db.bookingSlots) (hb : slot.facilityBookingId = b.id)
    (hst : slot.status = .confirmed) : ∃ item, impactRow db b = some item ∧ item.id = b.id ∧
      item.startAt = b.shownStart ∧ item.endAt = b.shownEnd ∧ slot.facilityId ∈ item.facilityIds := by
  obtain ⟨sid, hsid⟩ := Option.isSome_iff_exists.mp hs
  have hmem : slot.facilityId ∈ (db.bookingSlots.filter fun slot =>
      slot.facilityBookingId = b.id && slot.status = .confirmed).map BookingSlot.facilityId :=
    List.mem_map.mpr ⟨slot, List.mem_filter.mpr ⟨hslot, by simp [hb, hst]⟩, rfl⟩
  unfold impactRow
  rw [hsid]
  split
  · rename_i sid' r rs h₁ h₂
    exact ⟨_, rfl, rfl, rfl, rfl, by rw [List.mem_eraseDups, ← h₂]; exact hmem⟩
  · rename_i hno
    cases hl : (db.bookingSlots.filter fun slot => slot.facilityBookingId = b.id &&
        slot.status = .confirmed).map BookingSlot.facilityId with
    | nil => rw [hl] at hmem; cases hmem
    | cons r rs => exact absurd hl (hno sid r rs rfl)

theorem previewBlackoutImpact_wp (app : App) (blackout : RoomBlackout) (v : PortalView) :
    wp R (previewBlackoutImpact app blackout) (fun impact w =>
      ImpactReview R app v blackout impact.items w) v := by
  unfold previewBlackoutImpact
  split
  · rename_i hoff
    refine wp_ret fun w hw => ⟨hw, ⟨v.clock, le_refl _, hw.clock, fun _ h => absurd h (by simp)⟩,
      fun hact => ?_⟩
    rw [hact] at hoff
    cases hoff
  · refine wp_seq (wp_now_once v) fun nowUtc w₁ hw₁ h₁ => ?_
    refine wp_seq (getFacilityTimezone_wp app w₁) fun tz w₂ hw₂ h₂ => ?_
    refine wp_seq (wp_select_once _ w₂) fun candidates w₃ hw₃ h₃ => wp_ret fun w hw => ?_
    have henv : Env R v w₂ := h₁.1.trans h₂.1
    have hread := (h₃.2.later (.of_env hw)).since henv
    have hlast : Env R w₁ w := h₂.1.trans (h₃.1.trans hw)
    have hclock : nowUtc ≤ w.clock := le_trans h₁.2.2 hlast.clock
    refine ⟨henv.trans (h₃.1.trans hw), ⟨nowUtc, h₁.2.1, hclock, fun item hitem => ?_⟩,
      fun _ => ⟨nowUtc, tz, h₁.2.1, hclock, (h₂.2.later (hw₃.trans (.of_env hw))).since h₁.1, ?_⟩⟩
    · refine hread.mono fun db n hc => ?_
      have hmem : item ∈ candidates := (List.mem_filter.mp hitem).1
      rw [hc] at hmem
      obtain ⟨b, hb, hrow⟩ := List.mem_filterMap.mp hmem
      rw [List.mem_insertionSort, List.mem_filter] at hb
      simp only [Bool.and_eq_true, Bool.not_eq_true', decide_eq_true_eq] at hb
      obtain ⟨hid, hsid⟩ := impactRow_some hrow
      exact ⟨b, ⟨hb.1, hb.2.1.1.1, hb.2.1.1.2, hb.2.1.2⟩, hid.symm, hsid,
        activeOccupancy_live hb.2.2⟩
    · refine hread.mono fun db n hc b hb hact slot hslot hbid hst hover => ?_
      obtain ⟨item, hrow, hid, hstart, hend, hroom⟩ := impactRow_of_slot hb.2.1 hslot hbid hst
      refine List.mem_map.mpr ⟨item, List.mem_filter.mpr ⟨?_, ?_⟩, hid⟩
      · rw [hc]
        refine List.mem_filterMap.mpr ⟨b, ?_, hrow⟩
        rw [List.mem_insertionSort, List.mem_filter]
        simp [hb.1, hb.2.1, hb.2.2.1, hb.2.2.2, hact]
      · refine List.any_eq_true.mpr ⟨slot.facilityId, hroom, ?_⟩
        rw [hstart, hend]
        exact hover

end NewlifeCore
