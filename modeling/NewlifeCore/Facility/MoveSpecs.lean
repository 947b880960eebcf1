import NewlifeCore.Facility.Moves

/-!
# What each service method makes of the Bookings

The methods run alone: whatever one commits is a sequence of moves, and a cancellation that takes
the last coming occurrence of a Series closes it.  One lemma a method, assembled in
`Call.body_moves`.
-/

namespace NewlifeCore

open Txn Prog RecurringBookingService

variable {c : Call} {db : Db} {t : Int}

/-! ## 1. Writes -/

theorem lockRooms_solo (ids : List UUID) :
    solo (BookingRepository.lockRooms ids) (fun _ db' _ => db' = db) db t := by
  refine solo_each (fun _ db' _ => db' = db) (fun _ _ _ _ _ h => h) _ [] db t ?_ rfl
  rintro done id db' t' - rfl
  exact solo_acquire (LockKey.room id)

/-- What an INSERT of rows, left out when there are none, makes of its table. -/
theorem insertSome_solo {α : Type} (T : Table Db RowName α) (valid : α → Bool) (rows : List α)
    (hset : ∀ db, T.set db (T.get db) = db) :
    solo (if rows.isEmpty then pure () else insertInto T valid rows)
      (fun _ db' _ => db' = T.set db (T.get db ++ rows)) db t := by
  split
  · rename_i h
    rw [List.isEmpty_iff.mp h]
    exact solo_ret fun _ _ => by rw [List.append_nil, hset]
  · exact solo_conseq (insertInto_solo T valid rows db t) fun _ _ _ _ h => h.1

/-- A Booking with its rooms and slots: the header is new, and the slots it had are replaced. -/
theorem insertWithLines_solo (b : Booking) (rooms : List BookingRoom) (slots : List BookingSlot) :
    solo (insertWithLines b rooms slots) (fun _ db' _ =>
      (∀ b' ∈ db.bookings, b'.id ≠ b.id) ∧ b.startAt < b.endAt ∧ db' = { db with
        bookings := db.bookings ++ [b]
        bookingRooms :=
          (db.bookingRooms.filter fun r => !decide (r.facilityBookingId = b.id)) ++ rooms
        bookingSlots :=
          (db.bookingSlots.filter fun s => !decide (s.facilityBookingId = b.id)) ++ slots }) db t := by
  refine solo_seq (insertInto_solo bookingTable _ [b] db t) fun _ db₁ t₁ _ h₁ => ?_
  obtain ⟨rfl, -, hfresh, hvalid⟩ := h₁
  refine solo_seq (Φ := fun _ db' _ => (∀ b' ∈ db.bookings, b'.id ≠ b.id) ∧
    b.startAt < b.endAt ∧ db' = _) (Ψ := fun _ db' _ => db' = { db with
      bookings := db.bookings ++ [b]
      bookingRooms :=
        (db.bookingRooms.filter fun r => !decide (r.facilityBookingId = b.id)) ++ rooms }) ?_
    fun _ db₂ t₂ _ h₂ => ?_
  · refine solo_seq (deleteFrom_solo bookingRoomTable _ _ t₁) fun _ db' t' _ h => ?_
    subst h
    exact insertSome_solo bookingRoomTable _ rooms fun _ => rfl
  · subst h₂
    refine solo_seq (deleteFrom_solo bookingSlotTable _ _ t₂) fun _ db' t' _ h => ?_
    subst h
    refine solo_conseq (insertSome_solo bookingSlotTable _ slots fun _ => rfl)
      fun _ db'' _ _ h => ⟨fun b' hb' hid => ?_, ?_, h⟩
    · exact hfresh b (by simp) b' hb' (congrArg RowName.booking hid)
    · simpa using hvalid b (by simp)

/-- Each target once, with its slots. -/
theorem overrideEach_solo (operatorId : UUID) : ∀ (rs : List (UUID × OverrideTarget))
    (seen : List UUID) (db : Db) (t : Int),
    solo (overrideEach operatorId seen rs) (fun _ db' _ => ∃ cs : List Closing,
      (∀ k ∈ cs, k.Ends ∧ k.id ∈ rs.map fun r => r.2.impact.bookingId) ∧
      db' = closeDb cs (cs.map Closing.id) db) db t
  | [], _, db, t => solo_ret fun _ _ => ⟨[], by simp, (closeDb_nil db).symm⟩
  | (x, target) :: rs, seen, db, t => by
    unfold overrideEach
    split
    · refine solo_conseq (overrideEach_solo operatorId rs seen db t) fun _ db' _ _ h => ?_
      obtain ⟨cs, hcs, rfl⟩ := h
      exact ⟨cs, fun k hk => ⟨(hcs k hk).1, List.mem_cons_of_mem _ (hcs k hk).2⟩, rfl⟩
    · refine solo_seq (overrideBooking_solo _ _ _ db t) fun _ db₁ t₁ _ h₁ => ?_
      obtain ⟨now, -, -, rfl⟩ := h₁
      refine solo_conseq (overrideEach_solo operatorId rs _ _ t₁) fun _ db' _ _ h => ?_
      obtain ⟨cs, hcs, rfl⟩ := h
      refine ⟨_ :: cs, fun k hk => ?_, closeDb_closeDb _ _ _ _ _⟩
      rcases List.mem_cons.mp hk with rfl | hk
      · exact ⟨rfl, List.mem_cons_self⟩
      · exact ⟨(hcs k hk).1, List.mem_cons_of_mem _ (hcs k hk).2⟩

/-- The displacement of some Bookings closes live ones that have not started. -/
theorem applyWholeBookingOverrides_solo (rs : List (UUID × OverrideTarget)) (operatorId : UUID)
    (logId : Nat → UUID) {t₀ : Int}
    (hlive : ∀ b ∈ db.bookings, b.id ∈ rs.map (fun r => r.2.impact.bookingId) →
      isLive b.status = true ∧ t₀ < b.startAt) :
    solo (applyWholeBookingOverrides rs operatorId logId)
      (fun _ db' t' => Moves c t₀ t' db db') db t := by
  refine solo_seq (overrideEach_solo operatorId rs [] db t) fun _ db₁ t₁ _ h₁ => ?_
  obtain ⟨cs, hcs, rfl⟩ := h₁
  have hclose : ∀ t', Moves c t₀ t' db (closeDb cs (cs.map Closing.id) db) := fun t' =>
    .single (.close cs (fun k hk => (hcs k hk).1) fun b hb hid => hlive b hb (by
      obtain ⟨k, hk, he⟩ := List.mem_map.mp hid
      exact he ▸ (hcs k hk).2))
  dsimp only
  split
  · exact solo_ret fun t' _ => hclose t'
  · unfold OverrideLogRepository.insertLogs
    refine solo_conseq (insertSome_solo overrideLogTable _ _ fun _ => rfl) fun _ db' t' _ h => ?_
    subst h
    exact (hclose t').tail (.frame rfl rfl rfl)

/-! ## 2. `create_booking` -/

theorem bookingSlotRows_spec (id : Nat → UUID) (bookingId : UUID)
    (lines : List ResolvedBookingLine) :
    (∀ s ∈ bookingSlotRows id bookingId lines,
      s.facilityBookingId = bookingId ∧ s.status = .confirmed) ∧
    (bookingSlotRows id bookingId lines).map BookingSlot.key =
      lines.map ResolvedBookingLine.key := by
  constructor
  · intro s hs
    obtain ⟨i, hi, rfl⟩ := List.mem_mapIdx.mp hs
    exact ⟨rfl, rfl⟩
  · refine List.ext_getElem (by simp [bookingSlotRows]) fun i h₁ h₂ => ?_
    simp [bookingSlotRows, BookingSlot.key, ResolvedBookingLine.key]

theorem createBooking_moves (app : App) (r : Request) (command : CreateBookingCommand)
    (hc : c.request = r ∧ c.operation = .createBooking command) (hv : db.Valid) :
    solo (BookingService.createBooking app r command)
      (fun _ db' t' => Moves c t t' db db') db t := by
  refine solo_seq (solo_reads (Φ := fun p _ _ =>
      p.lines = resolveBookingLines command.rooms command.startAt command.endAt)
    (BookingService.prepareBooking_readOnly app r command) fun v _ _ _ =>
      wp_mono (fun p w h => h.lines) (prepareBooking_wp app r command v)) fun p db₁ t₁ ht₁ h₁ => ?_
  obtain ⟨rfl, hlines⟩ := h₁
  refine solo_seq (lockRooms_solo _) fun _ db₂ t₂ ht₂ h₂ => ?_
  subst h₂
  -- what is displaced was live and had not started when it was read
  refine solo_seq (solo_reads (Φ := fun review _ _ => ∀ id ∈ review.evaluation.targetIds,
      ∃ nowUtc, t ≤ nowUtc ∧ Displaceable db₂ nowUtc id)
    (BookingService.reviewBooking_readOnly app command p) fun v hseen ht hn =>
      wp_mono (fun review w h id hid => ?_) (reviewBooking_wp app command p v))
    fun review db₃ t₃ ht₃ h₃ => ?_
  · obtain ⟨nowUtc, hlo, -, hall⟩ := h.displaces
    obtain ⟨n, -, hd⟩ := (hall id hid).2.alone hseen hn
    exact ⟨nowUtc, le_trans (le_trans ht₁ ht₂) (ht ▸ hlo), hd⟩
  obtain ⟨rfl, htargets⟩ := h₃
  refine solo_seq (insertWithLines_solo _ _ _) fun _ db₄ t₄ ht₄ h₄ => ?_
  obtain ⟨hfresh, -, hdb₄⟩ := h₄
  obtain ⟨hslots, hkeys⟩ := bookingSlotRows_spec (r.ids.bookingSlot 0) (r.ids.booking 0) p.lines
  have hadd : ∀ t', Moves c t t' db₃ db₄ := fun t' => by
    rw [hdb₄]
    refine .single (.addBooking _ p.lines _ _ hfresh rfl ?_ (fun _ h => by cases h) hslots hkeys)
    simp only [Call.Creates, hc.2]
    exact ⟨hc.1 ▸ rfl, hlines⟩
  refine solo_seq (Ψ := fun _ db' t' => Moves c t t' db₃ db') ?_ fun _ db₅ t₅ ht₅ h₅ => ?_
  · unfold BookingService.displaceTargets
    split
    · refine solo_conseq (applyWholeBookingOverrides_solo (c := c) _ _ _
        fun b hb hid => ?_) fun _ db' t' _ h => (hadd t').trans h
      -- the new Booking is none of them
      have hmem : b.id ∈ review.evaluation.targetIds := by
        simpa [OneTimeOccupancyEvaluation.targetIds] using hid
      obtain ⟨nowUtc, hnow, b₀, hb₀, hid₀, -, hstart, -, hlive⟩ := htargets _ hmem
      have hb₀' : b₀ ∈ db₄.bookings := by rw [hdb₄]; exact List.mem_append_left _ hb₀
      have := ((hadd t₄).valid hv).booking_eq hb hb₀' hid₀.symm
      subst this
      exact ⟨hlive, by omega⟩
    · exact solo_ret fun t' _ => hadd t'
  · refine solo_seq (Ψ := fun _ db' t' => Moves c t t' db₃ db') ?_
      fun _ db₆ t₆ _ h₆ => solo_ret fun t' ht' => h₆.later ht'
    unfold BookingService.deleteOwnedDraft
    split
    · exact solo_ret fun t' ht' => h₅.later ht'
    · split
      · refine solo_seq (deleteFrom_solo draftLineTable _ _ t₅) fun _ db₆ t₆ ht₆ h₆ => ?_
        refine solo_conseq (deleteFrom_solo draftTable _ _ t₆) fun _ db' t' ht' h => ?_
        subst h₆
        subst h
        exact (h₅.later (le_trans ht₆ ht')).tail (.frame rfl rfl rfl)
      · exact solo_ret fun t' ht' => h₅.later ht'

/-! ## 3. `create_series` -/

/-- A date that a Series' command asks for, with its interval. -/
def AskedFor (command : CreateRecurringBookingSeriesCommand) (o : PreparedOccurrence) : Prop :=
  ∃ tz, o.occurrenceDate ∈
      weeklyOccurrenceDates command.firstOccurrenceDate command.lastOccurrenceDate ∧
    o.occurrenceDate ∉ command.excludedDates ∧
    OccurrenceOn command.localStartTime command.localEndTime tz o

theorem SeriesPrepared.asked {R : Rely Db LockKey} {app : App} {r : Request}
    {command : CreateRecurringBookingSeriesCommand} {v w : PortalView} {p : PreparedSeries}
    (h : SeriesPrepared R app r command v p w) :
    ∀ o ∈ remainingOccurrences command p, AskedFor command o := by
  intro o ho
  obtain ⟨hdates, hall⟩ := prepareOccurrences_ok h.occurrences
  obtain ⟨hmem, hkeep⟩ := List.mem_filter.mp ho
  exact ⟨p.localTz, hdates ▸ List.mem_map_of_mem hmem, by simpa using hkeep, hall o hmem⟩

theorem mem_numbered {remaining : List PreparedOccurrence} {quotes : List Quote}
    {x : Nat × PreparedOccurrence × Quote} (h : x ∈ numbered remaining quotes) :
    x.2.1 ∈ remaining := by
  obtain ⟨i, hi, rfl⟩ := List.mem_mapIdx.mp h
  have hz : i < (remaining.zip quotes).length := hi
  rw [List.length_zip] at hz
  simp

/-- What the loop over the occurrences keeps. -/
structure SeriesUnderway (c : Call) (t₀ : Int) (db₀ : Db) (sid : UUID) (status : BookingStatus)
    (db : Db) (t : Int) : Prop where
  moves : Moves c t₀ t db₀ db
  kept : ∀ b ∈ db₀.bookings, b ∈ db.bookings
  series : ∃ s ∈ db.series, s.id = sid ∧ s.status = status

theorem insertOccurrence_moves {command : CreateRecurringBookingSeriesCommand}
    (hc : c.operation = .createSeries command) (title : BookingTitle) (bookerId : UUID)
    (status : BookingStatus) (hstatus : isLive status = true)
    (x : Nat × PreparedOccurrence × Quote) (hx : AskedFor command x.2.1) {t₀ : Int} {db₀ : Db}
    (h : SeriesUnderway c t₀ db₀ c.request.ids.series status db t) :
    solo (insertOccurrence c.request.ids command title bookerId status x)
      (fun _ db' t' => SeriesUnderway c t₀ db₀ c.request.ids.series status db' t') db t := by
  refine solo_seq (insertWithLines_solo _ _ _) fun _ db₁ t₁ ht₁ h₁ => solo_ret fun t' ht' => ?_
  obtain ⟨hfresh, -, rfl⟩ := h₁
  obtain ⟨hslots, hkeys⟩ := bookingSlotRows_spec (c.request.ids.bookingSlot x.1)
    (occurrenceRow c.request.ids command title bookerId status x.1 x.2.1 x.2.2).id
    (occurrenceLines command.rooms x.2.1)
  refine ⟨(h.moves.later (le_trans ht₁ ht')).tail (.addBooking _ _ _ _ hfresh hstatus ?_ ?_ hslots
    hkeys), fun b hb => List.mem_append_left _ (h.kept b hb), h.series⟩
  · simp only [Call.Creates, hc]
    obtain ⟨tz, hd, hex, hstart, hend⟩ := hx
    exact ⟨rfl, ⟨_, tz, hd, hex, hstart, hend⟩, rfl⟩
  · intro sid hsid
    cases hsid
    exact h.series

theorem replacements_ids {ids : Uuids} {remaining : List PreparedOccurrence} :
    ∀ {targets : List (Int × OverrideTarget)} {pairs : List (UUID × OverrideTarget)},
      replacements ids remaining targets = .ok pairs →
      pairs.map (fun p => p.2.impact.bookingId) = targets.map fun t => t.2.impact.bookingId
  | [], _, h => by cases h; rfl
  | (d, target) :: rest, pairs, h => by
    unfold replacements at h
    split at h
    · rename_i id pairs' _ hrest
      cases h
      simp only [List.map_cons, replacements_ids hrest]
    · cases h
    · cases h

theorem createSeries_moves (app : App) (command : CreateRecurringBookingSeriesCommand)
    (hc : c.operation = .createSeries command) (hv : db.Valid) :
    solo (createSeries app c.request command) (fun _ db' t' => Moves c t t' db db') db t := by
  refine solo_seq (Ψ := fun _ db' _ => db' = db) ?_ fun title db₀ t₀ ht₀ h₀ => ?_
  · unfold requireTitle
    split
    · exact solo_raise
    · exact solo_ret fun _ _ => rfl
  subst h₀
  refine solo_seq (solo_reads (Φ := fun p _ _ => t ≤ p.nowUtc ∧
      ∀ o ∈ remainingOccurrences command p, AskedFor command o)
    (prepareSeries_readOnly app c.request command) fun v hseen ht hn =>
      wp_mono (fun p w h => ⟨le_trans ht₀ (ht ▸ h.since), h.asked⟩)
        (prepareSeries_wp app c.request command v)) fun p db₁ t₁ ht₁ h₁ => ?_
  obtain ⟨rfl, hnow, hasked⟩ := h₁
  refine solo_seq (lockRooms_solo _) fun _ db₂ t₂ ht₂ h₂ => ?_
  subst h₂
  refine solo_seq (solo_reads (Φ := fun review _ _ =>
      review.remaining = remainingOccurrences command p ∧
      ∀ id ∈ review.targetIds, Displaceable db₂ p.nowUtc id)
    (reviewSeries_readOnly app command p) fun v hseen ht hn =>
      wp_mono (fun review w h => ⟨h.remaining, fun id hid => by
        obtain ⟨_, _, hd⟩ := (h.displaces id hid).alone hseen hn
        exact hd⟩) (reviewSeries_wp app command p v))
    fun review db₃ t₃ ht₃ h₃ => ?_
  obtain ⟨rfl, hremaining, htargets⟩ := h₃
  have hstatus : isLive (seriesStatus review.quotes) = true := by
    unfold seriesStatus
    split <;> rfl
  refine solo_seq (insertInto_solo seriesTable _ _ db₃ t₃) fun _ db₄ t₄ ht₄ h₄ => ?_
  obtain ⟨rfl, -, hfresh, -⟩ := h₄
  refine solo_seq (solo_mapEach (fun _ _ db' t' => SeriesUnderway c t db₃ c.request.ids.series
      (seriesStatus review.quotes) db' t') ?_ _ [] [] _ t₄ ?_ ?_) fun out db₅ t₅ ht₅ h₅ => ?_
  · exact fun _ _ db' u u' hu h => ⟨h.moves.later hu, h.kept, h.series⟩
  · rintro - - x db' t' hx h
    exact insertOccurrence_moves hc title _ _ hstatus x
      (hasked _ (hremaining ▸ mem_numbered hx)) h
  · refine ⟨.single (.addSeries _ fun s' hs' hid => ?_), fun b hb => hb,
      ⟨_, List.mem_append_right _ (List.mem_singleton_self _), rfl, rfl⟩⟩
    exact hfresh _ (by simp) s' hs' (congrArg RowName.series hid)
  refine solo_seq (Ψ := fun _ db' t' => Moves c t t' db₃ db') ?_
    fun _ db₆ t₆ ht₆ h₆ => solo_ret fun t' ht' => h₆.later ht'
  unfold displaceSeriesTargets
  split
  · refine solo_seq (solo_ofExcept _) fun pairs db₆ t₆ ht₆ h₆ => ?_
    obtain ⟨rfl, hpairs⟩ := h₆
    refine solo_conseq (applyWholeBookingOverrides_solo (c := c) _ _ _
      fun b hb hid => ?_) fun _ db' t' ht' h => (h₅.moves.later (le_trans ht₆ ht')).trans h
    rw [replacements_ids hpairs] at hid
    obtain ⟨b₀, hb₀, hid₀, -, hstart, -, hlive⟩ := htargets _ hid
    have := (h₅.moves.valid hv).booking_eq hb (h₅.kept b₀ hb₀) hid₀.symm
    subst this
    exact ⟨hlive, by omega⟩
  · exact solo_ret fun t' ht' => h₅.moves.later ht'

/-! ## 4. Reading a Series, alone -/

theorem requireSeries_solo (sid : UUID) : solo (requireSeries sid)
    (fun s db' _ => db' = db ∧ SeriesRead db sid s) db t :=
  solo_reads (requireSeries_readOnly sid) (Φ := fun s _ _ => SeriesRead db sid s)
    fun v hseen _ hn => wp_mono (fun _ _ h =>
      let ⟨_, _, hs⟩ := h.2.alone hseen hn
      hs) (requireSeries_wp sid v)

theorem listSeriesOccurrences_solo (sid : UUID) :
    solo (BookingRepository.listSeriesOccurrences sid)
      (fun occs db' _ => db' = db ∧ Lists db sid occs) db t :=
  solo_reads (listSeriesOccurrences_readOnly sid) (Φ := fun occs _ _ => Lists db sid occs)
    fun v hseen _ hn => wp_mono (fun _ _ h =>
      let ⟨_, _, hs⟩ := h.2.alone hseen hn
      hs) (listSeriesOccurrences_wp sid v)

/-- The Series a result shows, and its occurrences. -/
def Shows (db : Db) (sid : UUID) (result : SeriesResult) : Prop :=
  SeriesRead db sid result.series ∧ Lists db sid result.occurrences

theorem seriesWithOccurrences_solo (sid : UUID) : solo (seriesWithOccurrences sid)
    (fun r db' _ => db' = db ∧ Shows db sid r) db t :=
  solo_reads (seriesWithOccurrences_readOnly sid) (Φ := fun r _ _ => Shows db sid r)
    fun v hseen _ hn => wp_mono (fun _ _ h =>
      let ⟨_, _, hs⟩ := h.2.1.alone hseen hn
      let ⟨_, _, hl⟩ := h.2.2.alone hseen hn
      ⟨hs, hl⟩) (seriesWithOccurrences_wp sid v)

theorem authenticatedUser_solo (r : Request) :
    solo (authenticatedUser r) (fun _ db' _ => db' = db) db t :=
  solo_readOnly (BookingService.authenticatedUser_readOnly r)

/-- A Series row written. -/
theorem updateSeries_solo (sid : UUID) (values : BookingSeries → BookingSeries)
    (hid : ∀ s, (values s).id = s.id) :
    solo (RecurringBookingRepository.updateSeries sid values hid)
      (fun _ db' _ => db' = setSeries sid values db) db t :=
  updateTable_solo seriesTable _ values _ db t

/-! ## 5. `confirm_payment` -/

theorem confirmPendingSeriesBookings_solo (sid : UUID) (operatorId : Option UUID) :
    solo (BookingRepository.confirmPendingSeriesBookings sid operatorId)
      (fun _ db' _ => db' = confirmBookings sid operatorId db) db t :=
  updateTable_solo bookingTable _ _ _ db t

theorem confirmPayment_moves (sid : UUID) (hc : c.operation = .confirmPayment sid) :
    solo (confirmPayment c.request sid) (fun _ db' t' => Moves c t t' db db') db t := by
  refine solo_seq (authenticatedUser_solo _) fun operatorId db₁ t₁ _ h₁ => ?_
  subst h₁
  refine solo_seq (requireSeries_solo sid) fun s db₂ t₂ _ h₂ => ?_
  obtain ⟨rfl, row, hrow, rfl⟩ := h₂
  refine solo_seq (listSeriesOccurrences_solo sid) fun occs db₃ t₃ _ h₃ => ?_
  obtain ⟨rfl, -⟩ := h₃
  split
  · exact solo_ret fun t' _ => Moves.refl db₃
  · refine solo_seq solo_now fun now db₄ t₄ _ h₄ => ?_
    obtain ⟨rfl, -⟩ := h₄
    refine solo_seq (solo_raiseIf _ _) fun _ db₅ t₅ _ h₅ => ?_
    obtain ⟨rfl, hpending⟩ := h₅
    have hstatus : row.status = .pendingPayment := by
      simp only [notPendingPayment, Bool.or_eq_false_iff, decide_eq_false_iff_not, not_not] at hpending
      exact hpending.1
    refine solo_seq (updateSeries_solo sid _ _) fun _ db₆ t₆ _ h₆ => ?_
    refine solo_seq (confirmPendingSeriesBookings_solo sid _) fun _ db₇ t₇ _ h₇ => ?_
    subst h₆
    subst h₇
    refine solo_seq (listSeriesOccurrences_solo sid) fun _ db₈ t₈ _ h₈ => solo_ret fun t' _ => ?_
    rw [h₈.1]
    exact .single (.confirm sid _ _ hc ⟨fun _ => rfl, fun _ => rfl, fun _ => rfl⟩
      ⟨row, hrow, hstatus⟩)

/-! ## 6. The cancellation of one Booking -/

theorem cancelBooking_moves (id : UUID) (command : CancelBookingCommand) (t₀ : Int)
    (hc : c.Cancels id (decide (command.scope ≠ "series"))) :
    solo (BookingService.cancelBooking c.request id command)
      (fun _ db' t' => Moves c t₀ t' db db') db t := by
  refine solo_seq (solo_select _) fun known db₁ t₁ _ h₁ => ?_
  obtain ⟨rfl, -⟩ := h₁
  refine solo_seq (solo_raiseIf _ _) fun _ db₂ t₂ _ h₂ => ?_
  obtain ⟨rfl, -⟩ := h₂
  refine solo_conseq (cancelBooking_solo id _ _ _ db₂ t₂) fun _ db' t' _ h => ?_
  obtain ⟨now, -, -, rfl⟩ := h
  exact .single (.cancel _ _ rfl hc)

theorem cancelMyBooking_moves (id : UUID) (command : CancelBookingCommand)
    (hc : c.operation = .cancelMyBooking id command) :
    solo (BookingService.cancelMyBooking c.request id command)
      (fun _ db' t' => Moves c t t' db db') db t := by
  refine solo_seq (authenticatedUser_solo _) fun userId db₁ t₁ ht₁ h₁ => ?_
  subst h₁
  refine solo_seq (solo_readOnly (BookingService.requireParticipantBooking_readOnly id userId))
    fun row db₂ t₂ ht₂ h₂ => ?_
  subst h₂
  refine solo_seq (solo_raiseIf _ _) fun _ db₃ t₃ ht₃ h₃ => ?_
  obtain ⟨rfl, -⟩ := h₃
  generalize normalizeMemberCancellationReason (command.cancelReason.getD "") = normalized
  refine solo_seq (solo_ofExcept normalized) fun reason db₄ t₄ ht₄ h₄ => ?_
  obtain ⟨rfl, -⟩ := h₄
  refine cancelBooking_moves id _ t ?_
  simp only [Call.Cancels, hc, true_and]

/-! ## 7. The cancellation of a Series -/

/-- Where nothing of a Series is still to come, the Series is closed. -/
def Emptied (t₀ : Int) (sid : UUID) (db : Db) : Prop :=
  (∀ b ∈ db.bookings, OccurrenceOf sid b → isLive b.status = true → b.startAt ≤ t₀) →
    ∀ s, SeriesRow db sid s → s.status = .cancelled

/-- Some live occurrence of a Series that was still to come is not live any more. -/
def Removes (t₀ : Int) (sid : UUID) (db db' : Db) : Prop :=
  ∃ b ∈ db.bookings, OccurrenceOf sid b ∧ isLive b.status = true ∧ t₀ < b.startAt ∧
    ∀ b' ∈ db'.bookings, b'.id = b.id → isLive b'.status = false

/-- A cancellation is a sequence of moves, and closes each Series it leaves nothing of. -/
structure Cancellation (c : Call) (t₀ : Int) (db db' : Db) (t' : Int) : Prop where
  moves : Moves c t₀ t' db db'
  emptied : ∀ sid, Removes t₀ sid db db' → Emptied t₀ sid db'

theorem requireOccurrence_mem {occs : List OccurrenceResult} {id : Option UUID}
    {o : OccurrenceResult} (h : requireOccurrence occs id = .ok o) : o ∈ occs := by
  unfold requireOccurrence at h
  split at h
  · cases h
  · split at h
    · cases h
    · rename_i hf
      cases h
      exact List.mem_of_find?_eq_some hf

/-- **What is cancelled is cancellable**, and in the widest scope everything that is. -/
theorem cancellationTargets_ok {occs targets : List OccurrenceResult}
    {command : CancelRecurringBookingSeriesCommand} {now : Int}
    (h : cancellationTargets occs command now = .ok targets) :
    (∀ o ∈ targets, o ∈ occs ∧ isCancellable o now = true) ∧
    (command.scope = "entire_series" → ∀ o ∈ occs, isCancellable o now = true → o ∈ targets) := by
  unfold cancellationTargets at h
  split at h
  · rename_i hscope
    refine ⟨fun o ho => ?_, fun he => by rw [hscope] at he; exact absurd he (by decide)⟩
    split at h
    · cases h
    · rename_i occurrence hocc
      split at h
      · cases h
      · cases h
        split at ho
        · rw [List.mem_singleton.mp ho]
          exact ⟨requireOccurrence_mem hocc, ‹_›⟩
        · cases ho
  · split at h
    · rename_i hscope
      refine ⟨fun o ho => ?_, fun he => by rw [hscope] at he; exact absurd he (by decide)⟩
      split at h
      · cases h
      · cases h
        have ho := List.mem_filter.mp ho
        simp only [Bool.and_eq_true] at ho
        exact ⟨ho.1, ho.2.2⟩
    · cases h
      exact ⟨fun o ho => List.mem_filter.mp ho, fun _ o ho hc => List.mem_filter.mpr ⟨ho, hc⟩⟩

theorem isCancellable_iff {o : OccurrenceResult} {b : Booking} {now : Int}
    (hs : o.startAt = b.shownStart) (hst : o.status = b.status) :
    isCancellable o now = true ↔ isLive b.status = true ∧ now < b.shownStart := by
  simp [isCancellable, hs, hst]

theorem markCancelled_solo (sid operatorId : UUID) (operatorName : String) :
    solo (markCancelled sid operatorId operatorName) (fun _ db' _ => ∃ values,
      SetsStatus values .cancelled ∧ db' = setSeries sid values db) db t := by
  refine solo_conseq (updateSeries_solo sid _ _) fun _ db' _ _ h => ⟨_, ?_, h⟩
  exact ⟨fun _ => rfl, fun _ => rfl, fun _ => rfl⟩

/-- A Series row after its status was set. -/
theorem seriesRow_setSeries {sid sid' : UUID} {values : BookingSeries → BookingSeries}
    {status : BookingStatus} (hset : SetsStatus values status) {s : BookingSeries}
    (h : SeriesRow (setSeries sid values db) sid' s) :
    (sid' = sid ∧ s.status = status) ∨ SeriesRow db sid' s := by
  obtain ⟨hmem, hid, hdel⟩ := h
  obtain ⟨s₀, hs₀, rfl⟩ := List.mem_map.mp hmem
  by_cases hc : (s₀.id = sid && !s₀.isDeleted) = true
  · simp only [hc, if_true, hset.id, hset.status] at hid ⊢
    simp only [Bool.and_eq_true, decide_eq_true_eq] at hc
    exact .inl ⟨hid.symm.trans hc.1, trivial⟩
  · simp only [hc, Bool.false_eq_true, if_false] at hid hdel ⊢
    exact .inr ⟨hs₀, hid, hdel⟩

/-- The Series is closed at the end of a cancellation, where it has to be. -/
theorem closeSeriesIf_moves (t₀ now : Int) (sid operatorId : UUID) (operatorName : String)
    (close : Bool) (s : BookingSeries) (hnow : now ≤ t) (ht₀ : t₀ ≤ now) (hv : db.Valid)
    (hs : ∃ s', SeriesRow db sid s' ∧ s'.status = s.status)
    (hclose : close = true → ∀ b ∈ db.bookings, OccurrenceOf sid b → isLive b.status = true →
      b.shownStart ≤ now)
    (hopen : close = false → ∃ b ∈ db.bookings, OccurrenceOf sid b ∧ isLive b.status = true ∧
      now < b.shownStart) :
    solo (closeSeriesIf sid operatorId operatorName close s.status)
      (fun _ db' t' => Moves c t₀ t' db db' ∧ db'.bookings = db.bookings ∧
        Emptied t₀ sid db' ∧ ∀ sid', Emptied t₀ sid' db → Emptied t₀ sid' db') db t := by
  unfold closeSeriesIf
  split
  · rename_i hc
    simp only [Bool.and_eq_true] at hc
    refine solo_conseq (markCancelled_solo sid _ _) fun _ db' t' ht' h => ?_
    obtain ⟨values, hset, rfl⟩ := h
    refine ⟨.single (.closeSeries sid values now hset (le_trans hnow ht') (hclose hc.1)), rfl,
      fun _ s' hs' => ?_, fun sid' hold hidle s' hs' => ?_⟩
    · obtain ⟨hmem, hid, hdel⟩ := hs'
      obtain ⟨s₀, hs₀, rfl⟩ := List.mem_map.mp hmem
      by_cases hc : (s₀.id = sid && !s₀.isDeleted) = true
      · simp only [hc, if_true, hset.status]
      · simp only [hc, Bool.false_eq_true, if_false] at hid hdel
        simp [hid, hdel] at hc
    · rcases seriesRow_setSeries hset hs' with ⟨-, h⟩ | h
      · exact h
      · exact hold hidle s' h
  · rename_i hc
    refine solo_ret fun t' _ => ⟨Moves.refl db, rfl, fun hidle s' hs' => ?_, fun _ h => h⟩
    obtain ⟨s₀, hs₀, hst⟩ := hs
    have heq : s' = s₀ := hv.series_eq hs'.1 hs₀.1 (hs'.2.1.trans hs₀.2.1.symm)
    rw [heq, hst]
    cases hcl : close with
    | true => simpa [hcl] using hc
    | false =>
      obtain ⟨b, hb, hocc, hlive, hstart⟩ := hopen hcl
      have hidle := hidle b hb hocc hlive
      have hshown := b.shownStart_le
      omega

theorem isTerminal_of_live {s : BookingStatus} (h : isLive s = true) : s.isTerminal = false := by
  cases s <;> first | rfl | cases h

theorem closeAll_live {cs : List Closing} (hcs : ∀ k ∈ cs, k.Ends) {b : Booking}
    (h : isLive (closeAll cs b).status = true) : closeAll cs b = b ∧ b.id ∉ cs.map Closing.id := by
  by_cases hmem : b.id ∈ cs.map Closing.id
  · obtain ⟨k, hk, hst⟩ := closeAll_status_of_mem hmem
    have hends := hcs k hk
    rw [hst] at h
    rw [Closing.Ends, isTerminal_of_live h] at hends
    cases hends
  · exact ⟨closeAll_of_not_mem hmem, hmem⟩

theorem applyCancellation_spec (sid : UUID) (result : SeriesResult) {t₀ : Int} (ht₀ : t₀ ≤ t)
    (command : CancelRecurringBookingSeriesCommand) (hv : db.Valid) (hshow : Shows db sid result) :
    solo (applyCancellation c.request result command)
      (fun _ db' t' => Cancellation c t₀ db db' t') db t := by
  have hsid : result.series.id = sid := hshow.1.id
  refine solo_seq (solo_raiseIf _ _) fun _ db₁ t₁ ht₁ h₁ => ?_
  obtain ⟨rfl, -⟩ := h₁
  refine solo_seq solo_now fun now db₂ t₂ ht₂ h₂ => ?_
  obtain ⟨rfl, hlo, hhi⟩ := h₂
  generalize hts : cancellationTargets result.occurrences command now = found
  refine solo_seq (solo_ofExcept found) fun targets db₃ t₃ ht₃ h₃ => ?_
  obtain ⟨rfl, rfl⟩ := h₃
  obtain ⟨hsound, hentire⟩ := cancellationTargets_ok hts
  refine solo_seq (authenticatedUser_solo _) fun operatorId db₄ t₄ ht₄ h₄ => ?_
  subst h₄
  refine solo_seq (cancelOccurrences_solo _ _ _ db₄ t₄) fun _ db₅ t₅ ht₅ h₅ => ?_
  obtain ⟨cs, hids, hmade, hdb₅⟩ := h₅
  have hends : ∀ k ∈ cs, k.Ends := fun k hk => by rw [Closing.Ends, (hmade k hk).status]; rfl
  -- the cancelled Bookings are occurrences of this Series, live and still to come
  have htarget : ∀ b ∈ db₄.bookings, b.id ∈ cs.map Closing.id →
      OccurrenceOf sid b ∧ isLive b.status = true ∧ now < b.shownStart := by
    intro b hb hid
    rw [hids] at hid
    obtain ⟨o, ho, hoid⟩ := List.mem_map.mp hid
    obtain ⟨hocc, hcan⟩ := hsound o ho
    obtain ⟨b₀, hb₀, hof, hid₀, hstart, hstatus⟩ := hshow.2.sound o hocc
    obtain rfl := hv.booking_eq hb hb₀ (hoid.symm.trans hid₀)
    exact ⟨hof, (isCancellable_iff hstart hstatus).mp hcan⟩
  have hclosed : Moves c t₀ t₅ db₄ db₅ := by
    rw [hdb₅, ← hids]
    refine .single (.close cs hends fun b hb hid => ?_)
    obtain ⟨-, hlive, hfuture⟩ := htarget b hb hid
    have hshown := b.shownStart_le
    exact ⟨hlive, by omega⟩
  have hv₅ := hclosed.valid hv
  have hseries : db₅.series = db₄.series := by rw [hdb₅]; rfl
  refine solo_seq (listSeriesOccurrences_solo result.series.id) fun refreshed db₆ t₆ ht₆ h₆ => ?_
  obtain ⟨rfl, hlist⟩ := h₆
  rw [hsid] at hlist ⊢
  -- what is still to come after the cancellation
  have hany : (refreshed.any fun o => isCancellable o now) = true ↔ ∃ b ∈ db₆.bookings,
      OccurrenceOf sid b ∧ isLive b.status = true ∧ now < b.shownStart := by
    rw [List.any_eq_true]
    constructor
    · rintro ⟨o, ho, hcan⟩
      obtain ⟨b, hb, hof, -, hstart, hstatus⟩ := hlist.sound o ho
      exact ⟨b, hb, hof, (isCancellable_iff hstart hstatus).mp hcan⟩
    · rintro ⟨b, hb, hof, hcan⟩
      obtain ⟨o, ho, -, hstart, hstatus⟩ := hlist.complete b hb hof
      exact ⟨o, ho, (isCancellable_iff hstart hstatus).mpr hcan⟩
  have hnone : command.scope = "entire_series" → ¬ ∃ b ∈ db₆.bookings, OccurrenceOf sid b ∧
      isLive b.status = true ∧ now < b.shownStart := by
    rintro hscope ⟨b, hb, hof, hlive, hstart⟩
    rw [hdb₅] at hb
    obtain ⟨b₀, hb₀, rfl⟩ := List.mem_map.mp hb
    obtain ⟨hsame, hnot⟩ := closeAll_live hends hlive
    rw [hsame] at hof hlive hstart
    obtain ⟨o, ho, hoid, ho₁, ho₂⟩ := hshow.2.complete b₀ hb₀ hof
    have hmem := hentire hscope o ho ((isCancellable_iff ho₁ ho₂).mpr ⟨hlive, hstart⟩)
    exact hnot (by rw [hids]; exact List.mem_map.mpr ⟨o, hmem, hoid⟩)
  refine solo_seq (closeSeriesIf_moves (c := c) t₀ now sid operatorId _ _ result.series
    (by omega) (by omega) hv₅ ?_ ?_ ?_)
    fun _ db₇ t₇ ht₇ h₇ => ?_
  · obtain ⟨row, hrow, hstatus⟩ := hshow.1.status
    exact ⟨row, ⟨hseries ▸ hrow.1, hrow.2⟩, hstatus⟩
  · intro hc b hb hof hlive
    simp only [Bool.or_eq_true, decide_eq_true_eq, Bool.not_eq_true', ← Bool.not_eq_true, hany] at hc
    by_contra hlt
    have hex : ∃ b ∈ db₆.bookings, OccurrenceOf sid b ∧ isLive b.status = true ∧
        now < b.shownStart := ⟨b, hb, hof, hlive, by omega⟩
    rcases hc with hc | hc
    · exact hnone hc hex
    · exact hc hex
  · intro hc
    simp only [Bool.or_eq_false_iff, Bool.not_eq_false', hany] at hc
    exact hc.2
  · obtain ⟨hm₇, hbookings, hempty, -⟩ := h₇
    refine solo_conseq (seriesWithOccurrences_solo sid) fun _ db' t' ht' h => ?_
    rw [h.1]
    refine ⟨((hclosed.later (by omega)).trans hm₇).later ht', fun sid' hrem => ?_⟩
    -- only occurrences of this Series were taken
    obtain ⟨b, hb, hof, hlive, hstart, hgone⟩ := hrem
    have hb' : closeAll cs b ∈ db₇.bookings := by
      rw [hbookings, hdb₅]
      exact List.mem_map_of_mem hb
    have hdead := hgone _ hb' (closeAll_id cs b)
    have hmem : b.id ∈ cs.map Closing.id := by
      by_contra hno
      rw [closeAll_of_not_mem hno, hlive] at hdead
      cases hdead
    have hof' := (htarget b hb hmem).1
    have : sid' = sid := by
      have := hof.1.symm.trans hof'.1
      simpa using this
    exact this ▸ hempty

theorem cancelSeries_spec (sid : UUID) (command : CancelRecurringBookingSeriesCommand)
    (hv : db.Valid) : solo (cancelSeries c.request sid command)
      (fun _ db' t' => Cancellation c t db db' t') db t := by
  refine solo_seq (authenticatedUser_solo _) fun _ db₁ t₁ ht₁ h₁ => ?_
  subst h₁
  refine solo_seq (seriesWithOccurrences_solo sid) fun result db₂ t₂ ht₂ h₂ => ?_
  obtain ⟨rfl, hshow⟩ := h₂
  exact applyCancellation_spec sid result (le_trans ht₁ ht₂) command hv hshow

theorem getMySeries_solo (r : Request) (sid : UUID) : solo (getMySeries r sid)
    (fun result db' _ => db' = db ∧ Shows db sid result) db t := by
  refine solo_seq (authenticatedUser_solo _) fun viewerId db₁ t₁ _ h₁ => ?_
  subst h₁
  refine solo_seq (seriesWithOccurrences_solo sid) fun result db₂ t₂ _ h₂ => ?_
  obtain ⟨rfl, hshow⟩ := h₂
  refine solo_seq (solo_readOnly (raiseIfNotParticipant_readOnly _ _)) fun _ db₃ t₃ _ h₃ => ?_
  subst h₃
  exact solo_ret fun _ _ => ⟨rfl, hshow⟩

theorem cancelMySeries_spec (sid : UUID) (command : CancelRecurringBookingSeriesCommand)
    (hv : db.Valid) : solo (cancelMySeries c.request sid command)
      (fun _ db' t' => Cancellation c t db db' t') db t := by
  refine solo_seq (getMySeries_solo _ sid) fun result db₁ t₁ ht₁ h₁ => ?_
  obtain ⟨rfl, hshow⟩ := h₁
  refine solo_seq (authenticatedUser_solo _) fun viewerId db₂ t₂ ht₂ h₂ => ?_
  subst h₂
  refine solo_seq (solo_raiseIf _ _) fun _ db₃ t₃ ht₃ h₃ => ?_
  obtain ⟨rfl, -⟩ := h₃
  generalize normalizeMemberCancellationReason (command.cancelReason.getD "") = normalized
  refine solo_seq (solo_ofExcept normalized) fun reason db₄ t₄ ht₄ h₄ => ?_
  obtain ⟨rfl, -⟩ := h₄
  exact applyCancellation_spec sid result (by omega) _ hv hshow

/-! ## 8. Blackouts -/

theorem closeEmptiedSeries_moves (t₀ : Int) (operatorId : UUID) (operatorName : String) {now : Int}
    (hnow : now ≤ t) (ht₀ : t₀ ≤ now) (sid : UUID) (hv : db.Valid) :
    solo (closeEmptiedSeries operatorId operatorName now sid)
      (fun _ db' t' => Moves c t₀ t' db db' ∧ db'.bookings = db.bookings ∧
        Emptied t₀ sid db' ∧ ∀ sid', Emptied t₀ sid' db → Emptied t₀ sid' db') db t := by
  refine solo_seq (seriesWithOccurrences_solo sid) fun result db₁ t₁ ht₁ h₁ => ?_
  obtain ⟨rfl, hread, hlist⟩ := h₁
  rw [hread.id]
  refine closeSeriesIf_moves t₀ _ sid _ _ _ _ (le_trans hnow ht₁) ht₀ hv hread.status
    (fun hc b hb hof hlive => ?_) fun hc => ?_
  · rw [Bool.not_eq_true', List.any_eq_false] at hc
    obtain ⟨o, ho, -, hstart, hstatus⟩ := hlist.complete b hb hof
    by_contra hlt
    exact hc o ho ((isCancellable_iff hstart hstatus).mpr ⟨hlive, by omega⟩)
  · rw [Bool.not_eq_false', List.any_eq_true] at hc
    obtain ⟨o, ho, hcan⟩ := hc
    obtain ⟨b, hb, hof, -, hstart, hstatus⟩ := hlist.sound o ho
    exact ⟨b, hb, hof, (isCancellable_iff hstart hstatus).mp hcan⟩

/-- The impacted occurrences, as the preview found them. -/
def ImpactOf (t₀ : Int) (db : Db) (items : List BlackoutImpactOccurrence) : Prop :=
  ∀ item ∈ items, ∃ b ∈ db.bookings, b.id = item.id ∧ b.seriesId = some item.seriesId ∧
    isLive b.status = true ∧ t₀ < b.startAt

theorem applyBlackoutImpact_spec (items : List BlackoutImpactOccurrence) (reason : String)
    {t₀ : Int} (ht₀ : t₀ ≤ t) (hv : db.Valid) (himpact : ImpactOf t₀ db items) :
    solo (applyBlackoutImpact c.request items reason)
      (fun _ db' t' => Cancellation c t₀ db db' t') db t := by
  refine solo_seq (authenticatedUser_solo _) fun operatorId db₁ t₁ ht₁ h₁ => ?_
  subst h₁
  refine solo_seq (cancelOccurrences_solo _ _ _ db₁ t₁) fun _ db₂ t₂ ht₂ h₂ => ?_
  obtain ⟨cs, hids, hmade, hdb₂⟩ := h₂
  have hends : ∀ k ∈ cs, k.Ends := fun k hk => by rw [Closing.Ends, (hmade k hk).status]; rfl
  have htarget : ∀ b ∈ db₁.bookings, b.id ∈ cs.map Closing.id → ∃ item ∈ items,
      b.seriesId = some item.seriesId ∧ isLive b.status = true ∧ t₀ < b.startAt := by
    intro b hb hid
    rw [hids] at hid
    obtain ⟨item, hitem, hiid⟩ := List.mem_map.mp hid
    obtain ⟨b₀, hb₀, hid₀, hrest⟩ := himpact item hitem
    obtain rfl := hv.booking_eq hb hb₀ (hiid.symm.trans hid₀.symm)
    exact ⟨item, hitem, hrest⟩
  have hclosed : Moves c t₀ t₂ db₁ db₂ := by
    rw [hdb₂, ← hids]
    refine .single (.close cs hends fun b hb hid => ?_)
    obtain ⟨-, -, -, hlive, hstart⟩ := htarget b hb hid
    exact ⟨hlive, hstart⟩
  refine solo_seq solo_now fun now db₃ t₃ ht₃ h₃ => ?_
  obtain ⟨rfl, hlo, hhi⟩ := h₃
  refine solo_seq (solo_each (fun done db' t' => now ≤ t' ∧ Moves c t₀ t' db₁ db' ∧
      db'.bookings = db₃.bookings ∧ ∀ sid ∈ done, Emptied t₀ sid db') ?_ _ [] db₃ t₃ ?_
    ⟨hhi, hclosed.later ht₃, rfl, fun sid h => absurd h (by simp)⟩)
    fun _ db₄ t₄ ht₄ h₄ => solo_ret fun t' ht' => ?_
  · rintro done db' u u' hu ⟨hn, hm, hb, he⟩
    exact ⟨le_trans hn hu, hm.later hu, hb, he⟩
  · rintro done sid db' u - ⟨hn, hm, hb, he⟩
    refine solo_conseq (closeEmptiedSeries_moves (c := c) t₀ _ _ hn (by omega) sid
      (hm.valid hv)) fun _ db'' u' hu h => ?_
    obtain ⟨hm', hb', hempty, hkeep⟩ := h
    refine ⟨le_trans hn hu, (hm.later hu).trans hm', hb'.trans hb, fun sid' hsid' => ?_⟩
    rcases List.mem_append.mp hsid' with hsid' | hsid'
    · exact hkeep sid' (he sid' hsid')
    · exact List.mem_singleton.mp hsid' ▸ hempty
  · obtain ⟨-, hm, hbookings, hempty⟩ := h₄
    refine ⟨hm.later ht', fun sid hrem => ?_⟩
    -- what was removed was impacted, so its Series was looked at
    obtain ⟨b, hb, hof, hlive, -, hgone⟩ := hrem
    have hb' : closeAll cs b ∈ db₄.bookings := by
      rw [hbookings, hdb₂]
      exact List.mem_map_of_mem hb
    have hdead := hgone _ hb' (closeAll_id cs b)
    have hmem : b.id ∈ cs.map Closing.id := by
      by_contra hno
      rw [closeAll_of_not_mem hno, hlive] at hdead
      cases hdead
    obtain ⟨item, hitem, hsid, -⟩ := htarget b hb hmem
    have heq : sid = item.seriesId := by
      have := hof.1.symm.trans hsid
      simpa using this
    refine hempty sid ?_
    rw [List.nil_append, List.mem_eraseDups, heq]
    exact List.mem_map_of_mem hitem

/-- A Blackout written, and nothing else. -/
theorem blackouts_frame {t₀ t' : Int} (blackouts : List RoomBlackout) :
    Moves c t₀ t' db { db with blackouts } := .single (.frame rfl rfl rfl)

/-- A call that leaves Bookings, slots and Series alone cancels nothing. -/
theorem Cancellation.of_frame {t₀ t' : Int} {db' : Db} (hb : db'.bookings = db.bookings)
    (hs : db'.bookingSlots = db.bookingSlots) (hr : db'.series = db.series) :
    Cancellation c t₀ db db' t' where
  moves := .single (.frame hb hs hr)
  emptied sid hrem := by
    obtain ⟨b, hmem, -, hlive, -, hgone⟩ := hrem
    have := hgone b (hb ▸ hmem) rfl
    rw [hlive] at this
    cases this

theorem createBlackout_spec (app : App) (command : CreateRoomBlackoutCommand) (hv : db.Valid) :
    solo (RoomBlackoutService.createBlackout app c.request command)
      (fun _ db' t' => Cancellation c t db db' t') db t := by
  refine solo_seq (solo_readOnly (RoomBlackoutService.assertRoomExists_readOnly _))
    fun _ db₁ t₁ ht₁ h₁ => ?_
  subst h₁
  generalize RoomBlackoutService.validateCommand command.toUpdateRoomBlackoutCommand = validated
  refine solo_seq (solo_ofExcept validated) fun kindMask db₂ t₂ ht₂ h₂ => ?_
  obtain ⟨rfl, -⟩ := h₂
  obtain ⟨kind, mask⟩ := kindMask
  refine solo_seq (solo_readOnly (RoomBlackoutService.assertNoOverlap_readOnly _ _ _ _))
    fun _ db₃ t₃ ht₃ h₃ => ?_
  subst h₃
  refine solo_seq (solo_reads (Φ := fun items _ _ => ImpactOf t db₃ items)
    (RoomBlackoutService.confirmedImpact_readOnly _ _ _) fun v hseen ht hn => ?_)
    fun items db₄ t₄ ht₄ h₄ => ?_
  · refine wp_seq (previewBlackoutImpact_wp app _ v) fun impact w _ h => ?_
    refine wp_seq (wp_quiet (ReadOnly.ofExcept _) w) fun _ w' _ _ => wp_ret fun w'' _ => ?_
    intro item hitem
    obtain ⟨nowUtc, hlo, -, hsound⟩ := h.sound
    obtain ⟨n, -, b, hb, hid, hsid, hlive⟩ := (hsound item hitem).alone hseen hn
    exact ⟨b, hb.1, hid, hsid, hlive, by have := hb.2.2.2; omega⟩
  obtain ⟨rfl, himpact⟩ := h₄
  refine solo_seq (insertInto_solo blackoutTable _ _ db₄ t₄) fun _ db₅ t₅ ht₅ h₅ => ?_
  obtain ⟨hdb₅, -⟩ := h₅
  have hframe : ∀ t', Cancellation c t db₄ db₅ t' := fun t' => by
    rw [hdb₅]
    exact .of_frame rfl rfl rfl
  refine solo_seq (Ψ := fun _ db' t' => Cancellation c t db₄ db' t') ?_
    fun _ db₆ t₆ ht₆ h₆ => solo_ret fun t' ht' => ⟨h₆.moves.later ht', h₆.emptied⟩
  unfold RoomBlackoutService.applyImpact
  split
  · exact solo_ret fun t' _ => hframe t'
  · have hbookings : db₅.bookings = db₄.bookings := by rw [hdb₅]; rfl
    refine solo_seq (applyBlackoutImpact_spec (c := c) items _ (by omega)
      ((hframe t₅).moves.valid hv) fun item hitem => ?_) fun _ db₆ t₆ ht₆ h₆ =>
        solo_ret fun t' ht' => ⟨(((hframe t₆).moves).trans h₆.moves).later ht', fun sid hrem => ?_⟩
    · rw [hbookings]
      exact himpact item hitem
    · refine h₆.emptied sid ?_
      unfold Removes at hrem ⊢
      rwa [hbookings]

theorem updateBlackout_moves (id : UUID) (command : UpdateRoomBlackoutCommand) :
    solo (RoomBlackoutService.updateBlackout id command)
      (fun _ db' t' => Moves c t t' db db') db t := by
  refine solo_seq (solo_select _) fun existing db₁ t₁ ht₁ h₁ => ?_
  obtain ⟨rfl, -⟩ := h₁
  refine solo_seq (solo_raiseIf _ _) fun _ db₂ t₂ ht₂ h₂ => ?_
  obtain ⟨rfl, -⟩ := h₂
  refine solo_seq (solo_readOnly (RoomBlackoutService.assertRoomExists_readOnly _))
    fun _ db₃ t₃ ht₃ h₃ => ?_
  subst h₃
  generalize RoomBlackoutService.validateCommand command = validated
  refine solo_seq (solo_ofExcept validated) fun kindMask db₄ t₄ ht₄ h₄ => ?_
  obtain ⟨rfl, -⟩ := h₄
  obtain ⟨kind, mask⟩ := kindMask
  refine solo_seq (solo_readOnly (RoomBlackoutService.assertNoOverlap_readOnly _ _ _ _))
    fun _ db₅ t₅ ht₅ h₅ => ?_
  subst h₅
  refine solo_seq (updateTableCount_solo blackoutTable _ _ _ db₅ t₅) fun n db₆ t₆ ht₆ h₆ => ?_
  subst h₆
  refine solo_conseq (solo_raiseIf _ _) fun _ db' t' _ h => ?_
  rw [h.1]
  exact blackouts_frame _

theorem deleteBlackout_moves (id : UUID) (command : DeleteCommand) :
    solo (RoomBlackoutService.deleteBlackout id command)
      (fun _ db' t' => Moves c t t' db db') db t := by
  refine solo_seq (solo_select _) fun existing db₁ t₁ ht₁ h₁ => ?_
  obtain ⟨rfl, -⟩ := h₁
  refine solo_seq (solo_raiseIf _ _) fun _ db₂ t₂ ht₂ h₂ => ?_
  obtain ⟨rfl, -⟩ := h₂
  split
  · refine solo_conseq (deleteFrom_solo blackoutTable _ db₂ t₂) fun _ db' t' _ h => ?_
    subst h
    exact blackouts_frame _
  · refine solo_conseq (updateTable_solo blackoutTable _ _ _ db₂ t₂) fun _ db' t' _ h => ?_
    subst h
    exact blackouts_frame _

theorem restoreBlackout_moves (id : UUID) : solo (RoomBlackoutService.restoreBlackout id)
    (fun _ db' t' => Moves c t t' db db') db t := by
  refine solo_conseq (updateTable_solo blackoutTable _ _ _ db t) fun _ db' t' _ h => ?_
  subst h
  exact blackouts_frame _

/-! ## 9. The expiry sweep -/

theorem expireSeries_moves (hc : c.operation = .expirePendingHolds) (t₀ : Int)
    (s : BookingSeries) (hv : db.Valid) (hs : SeriesRow db s.id s) (hpending : s.status = .pendingPayment) :
    solo (expireSeries (RecurringBookingRepository.formatRow s))
      (fun _ db' t' => Moves c t₀ t' db db' ∧
        ∀ x, x.id ≠ s.id → SeriesRow db x.id x → SeriesRow db' x.id x) db t := by
  refine solo_seq (listSeriesOccurrences_solo s.id) fun occs db₁ t₁ ht₁ h₁ => ?_
  obtain ⟨rfl, hlist⟩ := h₁
  refine solo_seq (updateSeries_solo s.id _ _) fun _ db₂ t₂ ht₂ h₂ => ?_
  refine solo_conseq (cancelOccurrences_solo _ _ _ db₂ t₂) fun _ db' t' ht' h => ?_
  obtain ⟨cs, hids, hmade, rfl⟩ := h
  subst h₂
  rw [← hids]
  refine ⟨.single (.expire s.id _ cs hc ⟨fun _ => rfl, fun _ => rfl, fun _ => rfl⟩ (fun k hk => ?_)
    ⟨s, hs, hpending⟩ (fun b hb hid => ?_) fun b hb hof hp => ?_), fun x hx hrow => ?_⟩
  · rw [Closing.Ends, (hmade k hk).status]
    rfl
  · rw [hids] at hid
    obtain ⟨o, ho, hoid⟩ := List.mem_map.mp hid
    obtain ⟨hocc, hst⟩ := List.mem_filter.mp ho
    obtain ⟨b₀, hb₀, -, hid₀, -, hstatus⟩ := hlist.sound o hocc
    obtain rfl := hv.booking_eq hb hb₀ (hoid.symm.trans hid₀)
    rw [← hstatus]
    simpa using hst
  · obtain ⟨o, ho, hoid, -, hstatus⟩ := hlist.complete b hb hof
    rw [hids]
    refine List.mem_map.mpr ⟨o, List.mem_filter.mpr ⟨ho, ?_⟩, hoid⟩
    rw [hstatus, hp]
    rfl
  · refine ⟨List.mem_map.mpr ⟨x, hrow.1, ?_⟩, rfl, hrow.2.2⟩
    rw [if_neg (by simp [hx])]

theorem expireEach_moves (hc : c.operation = .expirePendingHolds) (t₀ : Int) :
    ∀ (expired : List BookingSeries) (db : Db) (t : Int), db.Valid →
      (expired.map BookingSeries.id).Nodup →
      (∀ s ∈ expired, SeriesRow db s.id s ∧ s.status = .pendingPayment) →
      solo (each (expired.map RecurringBookingRepository.formatRow) expireSeries)
        (fun _ db' t' => Moves c t₀ t' db db') db t
  | [], db, t, _, _, _ => solo_ret fun _ _ => Moves.refl db
  | s :: rest, db, t, hv, hnodup, hall => by
    rw [List.map_cons, List.nodup_cons] at hnodup
    obtain ⟨hs, hpending⟩ := hall s List.mem_cons_self
    refine solo_seq (expireSeries_moves hc t₀ s hv hs hpending) fun _ db₁ t₁ ht₁ h₁ => ?_
    obtain ⟨hmoves, hkeep⟩ := h₁
    refine solo_conseq (expireEach_moves hc t₀ rest db₁ t₁ (hmoves.valid hv) hnodup.2
      fun x hx => ⟨hkeep x ?_ (hall x (List.mem_cons_of_mem _ hx)).1,
        (hall x (List.mem_cons_of_mem _ hx)).2⟩)
      fun _ db' t' ht' h => (hmoves.later ht').trans h
    rintro he
    exact hnodup.1 (he ▸ List.mem_map_of_mem hx)

theorem expirePendingHolds_moves (hc : c.operation = .expirePendingHolds) (hv : db.Valid) :
    solo expirePendingHolds (fun _ db' t' => Moves c t t' db db') db t := by
  refine solo_seq (solo_tryAcquire _) fun acquired db₁ t₁ ht₁ h₁ => ?_
  subst h₁
  split
  · exact solo_ret fun _ _ => Moves.refl db₁
  · refine solo_seq solo_now fun now db₂ t₂ ht₂ h₂ => ?_
    obtain ⟨rfl, -⟩ := h₂
    refine solo_seq (solo_select _) fun expired db₃ t₃ ht₃ h₃ => ?_
    obtain ⟨rfl, n, -, rfl⟩ := h₃
    set rows := (db₃.series.filter fun s => !s.isDeleted && s.status = .pendingPayment &&
      s.paymentHoldExpiresAt.any (· ≤ now)).insertionSort
        fun a b => a.paymentHoldExpiresAt.getD 0 ≤ b.paymentHoldExpiresAt.getD 0 with hrows
    have hmem : ∀ s ∈ rows, SeriesRow db₃ s.id s ∧ s.status = .pendingPayment := by
      intro s hs
      rw [hrows, List.mem_insertionSort, List.mem_filter] at hs
      simp only [Bool.and_eq_true, Bool.not_eq_true', decide_eq_true_eq] at hs
      exact ⟨⟨hs.1, rfl, hs.2.1.1⟩, hs.2.1.2⟩
    have hnodup : (rows.map BookingSeries.id).Nodup := by
      rw [hrows]
      refine ((List.perm_insertionSort _ _).map _).nodup_iff.mpr ?_
      exact hv.seriesIds.sublist (List.filter_sublist.map _)
    refine solo_seq (expireEach_moves hc t rows db₃ t₃ hv hnodup hmem)
      fun _ db₄ t₄ ht₄ h₄ => solo_ret fun t' ht' => h₄.later ht'

/-! ## 10. All calls -/

theorem discard_solo {α : Type} {p : Portal α} {Φ : Db → Int → Prop}
    (htime : ∀ db t t', t ≤ t' → Φ db t → Φ db t') (h : solo p (fun _ db' t' => Φ db' t') db t) :
    solo (discard p) (fun _ db' t' => Φ db' t') db t :=
  solo_seq h fun _ _ _ _ h' => solo_ret fun _ ht => htime _ _ _ ht h'

/-- **Whatever a call commits, alone in the database, is a sequence of moves.** -/
theorem Call.body_moves (app : App) (c : Call) (hv : db.Valid) :
    solo (c.body app) (fun _ db' t' => Moves c t t' db db') db t := by
  have htime : ∀ db' t₁ t₂, t₁ ≤ t₂ → Moves c t t₁ db db' → Moves c t t₂ db db' :=
    fun _ _ _ ht h => h.later ht
  have hcancel : ∀ {α : Type} {p : Portal α},
      solo p (fun _ db' t' => Cancellation c t db db' t') db t →
      solo (discard p) (fun _ db' t' => Moves c t t' db db') db t := fun h =>
    discard_solo htime (solo_conseq h fun _ _ _ _ h' => h'.moves)
  unfold Call.body
  split
  all_goals rename_i hop
  · exact discard_solo htime (createBooking_moves app _ _ ⟨rfl, hop⟩ hv)
  · exact discard_solo htime (createSeries_moves app _ hop hv)
  · exact discard_solo htime (confirmPayment_moves _ hop)
  · exact cancelBooking_moves _ _ t (by simp only [Call.Cancels, hop, true_and])
  · exact cancelMyBooking_moves _ _ hop
  · exact hcancel (cancelSeries_spec _ _ hv)
  · exact hcancel (cancelMySeries_spec _ _ hv)
  · exact discard_solo htime (expirePendingHolds_moves hop hv)
  · exact hcancel (createBlackout_spec app _ hv)
  · exact updateBlackout_moves _ _
  · exact deleteBlackout_moves _ _
  · exact restoreBlackout_moves _

end NewlifeCore
