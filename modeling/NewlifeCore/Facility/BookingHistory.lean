import NewlifeCore.Facility.RoomExclusivity

/-!
# The history of the Bookings

What becomes of the Bookings in any interleaving of the calls that write them, without any condition
on clocks or order.

* A creation that is underway adds rows and reworks the others (`Underway`); at its end the rows it
  adds are what it was asked for, Booking by Booking and slot by slot (`Call.body_answers`): the
  checks before its first write have fixed the lines, and nothing that it does afterwards deletes a
  slot of its own.
* So a commit appends the Bookings of one call to those that are there, and neither loses nor moves
  one of them (`Accounted.commit`): in every state the Bookings are, in order, those of the start and
  those of the committed calls (`bookings_accounted`).
* And what a commit makes of a Booking is little: it closes it, or confirms it with its Series
  (`Underway.bookingsBecome`, `bookings_become`).

The invariant carries the keys of the tables along, since a name that is free is what makes a new
Booking a new one.  A Series is localized in the facility's zone, which no call changes
(`settingsRely`).
-/

namespace NewlifeCore

open Txn Prog RecurringBookingService

/-! ## 1. What a call asks for -/

/-- The Booking has a slot there. -/
def SlotAt (slots : List BookingSlot) (id : UUID) (k : UUID × Int × Int) : Prop :=
  ∃ s ∈ slots, s.facilityBookingId = id ∧ s.key = k

/-- **The Booking is one that was asked for**: booked for the caller or for whom the caller names,
for the Ministry, and with a slot for every room line and for nothing else. -/
structure Call.Books (c : Call) (userId ministryId : Option UUID)
    (lines : List ResolvedBookingLine) (slots : List BookingSlot) (b : Booking) : Prop where
  booker : ∃ operatorId, c.request.operatorId = some operatorId ∧ b.userId = userId.getD operatorId
  ministryId : b.ministryId = ministryId
  facilityId : b.facilityId = primaryFacilityId lines
  slots : ∀ k, SlotAt slots b.id k ↔ ∃ line ∈ lines, line.key = k

/-- The occurrence of one date: at the wall times of the command, in the facility's zone. -/
structure Call.BooksOn (c : Call) (command : CreateRecurringBookingSeriesCommand) (tz : Zone)
    (slots : List BookingSlot) (d : Int) (b : Booking) : Prop where
  seriesId : b.seriesId = some c.request.ids.series
  startAt : localizeWallTime d command.localStartTime tz = some b.startAt
  endAt : localizeWallTime d command.localEndTime tz = some b.endAt
  books : c.Books command.userId command.ministryId
    (command.rooms.map fun room => ⟨room.facilityId, b.startAt, b.endAt, room.sequence⟩) slots b

/-- **The Bookings, among the slots, are what the call asks for**: the one Booking of
`create_booking`, over its lines' envelope; of `create_series` one for each date not excluded, in
order; and of any other call none. -/
def Call.Answered (c : Call) (zone : Option Zone) (slots : List BookingSlot)
    (bookings : List Booking) : Prop :=
  match c.operation with
  | .createBooking command => ∃ b, bookings = [b] ∧ b.id = c.request.ids.booking 0 ∧
      (b.startAt, b.endAt) =
        envelopeInterval (resolveBookingLines command.rooms command.startAt command.endAt) ∧
      c.Books command.userId command.ministryId
        (resolveBookingLines command.rooms command.startAt command.endAt) slots b
  | .createSeries command => ∃ tz, zone = some tz ∧ List.Forall₂ (c.BooksOn command tz slots)
      ((weeklyOccurrenceDates command.firstOccurrenceDate command.lastOccurrenceDate).filter
        fun d => !command.excludedDates.contains d) bookings
  | _ => bookings = []

/-- A call that is no creation asks for nothing. -/
theorem Call.answered_nothing {c : Call} (hc : c.isCreation = false) (zone : Option Zone) :
    c.Answered zone [] [] := by
  obtain ⟨r, operation⟩ := c
  cases operation with
  | createBooking command => cases hc
  | createSeries command => cases hc
  | _ => rfl

section Slots

variable {c : Call} {slots slots' : List BookingSlot}

theorem Call.Books.congr {userId ministryId : Option UUID} {lines : List ResolvedBookingLine}
    {b : Booking} (h : c.Books userId ministryId lines slots b)
    (hb : ∀ k, SlotAt slots' b.id k ↔ SlotAt slots b.id k) :
    c.Books userId ministryId lines slots' b :=
  { h with slots := fun k => (hb k).trans (h.slots k) }

/-- Only the slots of its own Bookings matter. -/
theorem Call.Answered.congr {zone : Option Zone} {bs : List Booking} (h : c.Answered zone slots bs)
    (hbs : ∀ b ∈ bs, ∀ k, SlotAt slots' b.id k ↔ SlotAt slots b.id k) :
    c.Answered zone slots' bs := by
  unfold Call.Answered at h ⊢
  split
  · rename_i hop
    simp only [hop] at h
    obtain ⟨b, rfl, hid, henvelope, hbooks⟩ := h
    exact ⟨b, rfl, hid, henvelope, hbooks.congr (hbs b (List.mem_singleton_self b))⟩
  · rename_i hop
    simp only [hop] at h
    obtain ⟨tz, hzone, hall⟩ := h
    refine ⟨tz, hzone, forall₂_imp_mem hall fun d b _ hb hon => ?_⟩
    exact { hon with books := hon.books.congr (hbs b hb) }
  · rename_i hseries hbooking
    revert h
    cases hop : c.operation with
    | createBooking command => exact absurd hop (hseries command)
    | createSeries command => exact absurd hop (hbooking command)
    | _ => exact fun h => h

/-- The slots of some lines are at the lines. -/
theorem slotAt_bookingSlotRows (id : Nat → UUID) (bookingId : UUID)
    {lines : List ResolvedBookingLine} {k : UUID × Int × Int} :
    SlotAt (bookingSlotRows id bookingId lines) bookingId k ↔ ∃ line ∈ lines, line.key = k := by
  obtain ⟨hrows, hkeys⟩ := bookingSlotRows_spec id bookingId lines
  have hmem : k ∈ (bookingSlotRows id bookingId lines).map BookingSlot.key ↔
      k ∈ lines.map ResolvedBookingLine.key := by rw [hkeys]
  rw [List.mem_map, List.mem_map] at hmem
  rw [← hmem]
  exact ⟨fun ⟨s, hs, _, hk⟩ => ⟨s, hs, hk⟩, fun ⟨s, hs, hk⟩ => ⟨s, hs, (hrows s hs).1, hk⟩⟩

/-- And those of one occurrence are at its own lines, since the occurrences have names of their
own. -/
theorem slotAt_seriesSlots {ids : Uuids} {rooms : List BookingRoomLineCommand}
    {xs : List (Nat × PreparedOccurrence × Quote)} (hids : (xs.map fun x => ids.booking x.1).Nodup)
    {x : Nat × PreparedOccurrence × Quote} (hx : x ∈ xs) {k : UUID × Int × Int} :
    SlotAt (seriesSlots ids rooms xs) (ids.booking x.1) k ↔
      ∃ line ∈ occurrenceLines rooms x.2.1, line.key = k := by
  rw [← slotAt_bookingSlotRows (ids.bookingSlot x.1) (ids.booking x.1)]
  constructor
  · rintro ⟨s, hs, hid, hk⟩
    obtain ⟨y, hy, hsy⟩ := mem_seriesSlots.mp hs
    have hyid := ((bookingSlotRows_spec _ _ _).1 s hsy).1
    obtain rfl : y = x := List.inj_on_of_nodup_map hids hy hx (hyid.symm.trans hid)
    exact ⟨s, hsy, hid, hk⟩
  · rintro ⟨s, hs, hid, hk⟩
    exact ⟨s, mem_seriesSlots.mpr ⟨x, hx, hs⟩, hid, hk⟩

end Slots

/-- The occurrences with their quotes are the occurrences. -/
theorem numbered_occurrences {remaining : List PreparedOccurrence} {quotes : List Quote}
    (hlen : quotes.length = remaining.length) :
    (numbered remaining quotes).map (fun x => x.2.1) = remaining := by
  refine List.ext_getElem ?_ fun i h₁ h₂ => ?_
  · simp [numbered, hlen]
  · simp [numbered]

/-- A Series keeps the dates that are not excluded. -/
theorem remaining_dates {command : CreateRecurringBookingSeriesCommand} {prepared : PreparedSeries}
    {dates : List Int} (h : prepared.occurrences.map PreparedOccurrence.occurrenceDate = dates) :
    (remainingOccurrences command prepared).map PreparedOccurrence.occurrenceDate =
      dates.filter fun d => !command.excludedDates.contains d := by
  rw [← h, List.filter_map]
  rfl

/-! ### 1.1 The creations answer -/

/-- **What the history relies on**: the settings stay. -/
def settingsRely : Rely Db LockKey where
  rel _ db t db' t' := t ≤ t' ∧ db'.settings = db.settings
  refl _ _ _ := ⟨le_refl _, rfl⟩
  trans h₁ h₂ := ⟨le_trans h₁.1 h₂.1, h₂.2.trans h₁.2⟩
  tick _ _ _ _ ht := ⟨ht, rfl⟩
  mono _ h := h

theorem zoneOf_congr (app : App) {db db' : Db} (h : db'.settings = db.settings) :
    zoneOf app db' = zoneOf app db := by
  unfold zoneOf SettingService.activeRow
  rw [h]

/-- The zone that a call without a write has read is the zone. -/
theorem zone_read {app : App} {tz : Zone} {v w : PortalView} (hown : v.own = id)
    (h : Read settingsRely v (fun db _ => zoneOf app db = some tz) w) :
    zoneOf app w.db = some tz := by
  obtain ⟨u, ⟨hu, hzone⟩, hw⟩ := h
  rw [View.seen, hu.own, hown] at hzone
  exact (zoneOf_congr app hw.rel.2).trans hzone

section Creations

variable {v : PortalView}

theorem displaceTargets_keeps {c : Call} (ids : Uuids) (p : BookingService.Proposal)
    (review : BookingService.Review) :
    Keeps (reworking c) (BookingService.displaceTargets ids p review) := by
  unfold BookingService.displaceTargets
  split
  · exact (statements_keep _).applyWholeBookingOverrides _ _ _
  · trivial

theorem createBooking_answers (app : App) {c : Call} {command : CreateBookingCommand}
    (hc : c.operation = .createBooking command) (hown : v.own = id) :
    wp settingsRely (BookingService.createBooking app c.request command) (fun _ w =>
      ∃ e, Underway c e w ∧ c.Answered (zoneOf app w.db) e.slots e.bookings) v := by
  refine wp_seq (prepareBooking_wp app c.request command v) fun p w₁ _ h₁ => ?_
  refine wp_seq (lockRooms_wp _ w₁) fun _ w₂ _ h₂ => ?_
  refine wp_seq (wp_quiet (BookingService.reviewBooking_readOnly app command p) w₂)
    fun review w₃ _ h₃ => ?_
  have hstart : Underway c {} w₃ := .nothing (by rw [h₃.own, h₂.1, h₁.env.own, hown])
  obtain ⟨hrows, -⟩ := bookingSlotRows_spec (c.request.ids.bookingSlot 0)
    (c.request.ids.booking 0) p.lines
  refine wp_seq (insertWithLines_wp _ _ _ hstart (fun sid hsid => by cases hsid)
    fun s hs => (hrows s hs).1) fun _ w₄ _ h₄ => ?_
  refine wp_seq (h₄.keeps (displaceTargets_keeps _ _ _)) fun _ w₅ _ h₅ => ?_
  refine wp_seq (h₅.keeps (deleteOwnedDraft_keeps _ _)) fun _ w₆ _ h₆ => wp_ret fun w hw =>
    ⟨_, h₆.env hw, ?_⟩
  simp only [Call.Answered, hc, Addition.and, List.nil_append]
  rw [← h₁.lines]
  exact ⟨_, rfl, rfl, rfl, ⟨p.operatorId, h₁.operator, h₁.booker⟩, rfl, rfl,
    fun k => slotAt_bookingSlotRows _ _⟩

theorem displaceSeriesTargets_keeps {c : Call} (ids : Uuids)
    (command : CreateRecurringBookingSeriesCommand) (prepared : PreparedSeries)
    (review : SeriesReview) :
    Keeps (reworking c) (displaceSeriesTargets ids command prepared review) := by
  unfold displaceSeriesTargets
  split
  · exact Keeps.checked (ReadOnly.ofExcept _) fun _ => (statements_keep _).applyWholeBookingOverrides _ _ _
  · trivial

theorem createSeries_answers (app : App) {c : Call} {command : CreateRecurringBookingSeriesCommand}
    (hc : c.operation = .createSeries command) (hown : v.own = id) :
    wp settingsRely (createSeries app c.request command) (fun _ w =>
      ∃ e, Underway c e w ∧ c.Answered (zoneOf app w.db) e.slots e.bookings) v := by
  have htitle : ReadOnly (requireTitle command) := by
    unfold requireTitle
    split <;> trivial
  refine wp_seq (wp_quiet htitle v) fun title w₀ _ h₀ => ?_
  refine wp_seq (prepareSeries_wp app c.request command w₀) fun prepared w₁ _ h₁ => ?_
  refine wp_seq (lockRooms_wp _ w₁) fun _ w₂ hw₂ h₂ => ?_
  refine wp_seq (reviewSeries_wp app command prepared w₂) fun review w₃ hw₃ h₃ => ?_
  have hstart : Underway c {} w₃ :=
    .nothing (by rw [h₃.env.own, h₂.1, h₁.env.own, h₀.own, hown])
  refine wp_seq (insertSeries_wp _ hstart) fun _ w₄ hw₄ h₄ => ?_
  set xs := numbered review.remaining review.quotes with hxs
  set series := seriesRow c.request.ids command title prepared review
  refine wp_seq (wp_mapEach (fun done _ w => Underway c
      ⟨seriesBookings c.request.ids command title prepared.bookerId series.status done,
        seriesSlots c.request.ids command.rooms done, [series]⟩ w)
    (fun _ _ _ _ h hw => h.env hw) xs [] [] w₄
    (fun done _ x w _ h => insertOccurrence_wp rfl x h) ?_) fun _ w₅ hw₅ h₅ => ?_
  · simpa [Addition.and, seriesBookings, seriesSlots] using h₄
  rw [List.nil_append] at h₅
  refine wp_seq (h₅.keeps (displaceSeriesTargets_keeps _ _ _ _)) fun _ w₆ hw₆ h₆ =>
    wp_ret fun w hw => ⟨_, h₆.env hw, ?_⟩
  simp only [Call.Answered, hc]
  refine ⟨prepared.localTz, zone_read (h₀.own.trans hown) (h₁.zone.later ?_), ?_⟩
  · exact hw₂.trans (hw₃.trans (hw₄.trans (hw₅.trans (hw₆.trans (.of_env hw)))))
  obtain ⟨hdates, hon⟩ := prepareOccurrences_ok h₁.occurrences
  have hids : (xs.map fun x => c.request.ids.booking x.1).Nodup := by
    have hnodup := h₆.fits.bookingIds
    rwa [seriesBookings, List.map_map] at hnodup
  -- date by date, the occurrences are those that were prepared
  rw [← remaining_dates hdates, ← h₃.remaining, ← numbered_occurrences h₃.quotes, List.map_map,
    seriesBookings, List.forall₂_map_left_iff, List.forall₂_map_right_iff]
  refine List.forall₂_same.mpr fun x hx => ?_
  have ho : x.2.1 ∈ prepared.occurrences := by
    have hmem := mem_numbered hx
    rw [h₃.remaining] at hmem
    exact (List.mem_filter.mp hmem).1
  exact ⟨rfl, (hon _ ho).1, (hon _ ho).2, ⟨prepared.operatorId, h₁.operator, h₁.booker⟩, rfl, rfl,
    fun k => slotAt_seriesSlots hids hx⟩

/-- **Whatever a call is, it reworks what is there and adds what it was asked for.** -/
theorem Call.body_answers (app : App) (c : Call) (hown : v.own = id) :
    wp settingsRely (c.body app) (fun _ w =>
      ∃ e, Underway c e w ∧ c.Answered (zoneOf app w.db) e.slots e.bookings) v := by
  cases hcreation : c.isCreation with
  | false =>
    exact wp_mono (fun _ w hw => ⟨{}, hw, c.answered_nothing hcreation _⟩)
      (Underway.keeps (c.body_keeps app hcreation) (.nothing hown))
  | true =>
    obtain ⟨r, operation⟩ := c
    cases operation with
    | createBooking command =>
      exact wp_seq (createBooking_answers app rfl hown) fun _ _ _ h =>
        wp_ret fun w hw => h.imp fun e he => ⟨he.1.env hw, zoneOf_congr app hw.rel.2 ▸ he.2⟩
    | createSeries command =>
      exact wp_seq (createSeries_answers app rfl hown) fun _ _ _ h =>
        wp_ret fun w hw => h.imp fun e he => ⟨he.1.env hw, zoneOf_congr app hw.rel.2 ▸ he.2⟩
    | _ => cases hcreation

end Creations

/-! ## 2. One commit -/

/-- What becomes of a status: it is kept, a Booking is closed, or a pending one confirmed, by the
confirmation of its Series. -/
def StatusBecomes (fin : List (Finished Call)) (b b' : Booking) : Prop :=
  b'.status = b.status ∨ isLive b'.status = false ∨
    b.status = .pendingPayment ∧ b'.status = .confirmed ∧ ∃ sid, b.seriesId = some sid ∧
      ∃ f ∈ fin, f.label.operation = .confirmPayment sid

/-- **What the Bookings of a database become**: none is lost or moved, and none is opened again. -/
def BookingsBecome (fin : List (Finished Call)) (db db' : Db) : Prop :=
  ∀ b ∈ db.bookings, ∃ b' ∈ db'.bookings, SameBooking b b' ∧ StatusBecomes fin b b' ∧
    (isLive b.status = false → isLive b'.status = false)

theorem BookingsBecome.refl (fin : List (Finished Call)) (db : Db) : BookingsBecome fin db db :=
  fun b hb => ⟨b, hb, .refl b, .inl rfl, fun h => h⟩

theorem BookingsBecome.trans {fin fin' : List (Finished Call)} {db₁ db₂ db₃ : Db}
    (hfin : fin ⊆ fin') (h₁ : BookingsBecome fin db₁ db₂) (h₂ : BookingsBecome fin' db₂ db₃) :
    BookingsBecome fin' db₁ db₃ := by
  intro b₁ hb₁
  obtain ⟨b₂, hb₂, hsame, hst, hclosed⟩ := h₁ b₁ hb₁
  obtain ⟨b₃, hb₃, hsame', hst', hclosed'⟩ := h₂ b₂ hb₂
  refine ⟨b₃, hb₃, hsame.trans hsame', ?_, fun h => hclosed' (hclosed h)⟩
  rcases hst' with h | h | ⟨hp, hconf, sid, hsid, hf⟩
  · rcases hst with h₀ | h₀ | ⟨hp, hconf, sid, hsid, f, hf, hop⟩
    · exact .inl (h.trans h₀)
    · exact .inr (.inl (h ▸ h₀))
    · exact .inr (.inr ⟨hp, h.trans hconf, sid, hsid, f, hfin hf, hop⟩)
  · exact .inr (.inl h)
  · rcases hst with h₀ | h₀ | ⟨-, hconf₀, -⟩
    · exact .inr (.inr ⟨h₀ ▸ hp, hconf, sid, hsame.seriesId ▸ hsid, hf⟩)
    · rw [hp] at h₀
      cases h₀
    · rw [hp] at hconf₀
      cases hconf₀

theorem Underway.bookingsBecome {c : Call} {e : Addition} {w : PortalView} (h : Underway c e w)
    (hv : w.db.Valid) {f : Finished Call} (hf : f.label = c) {fin : List (Finished Call)}
    (hmem : f ∈ fin) : BookingsBecome fin w.db (w.own w.db) := by
  intro b hb
  have hadd : b ∈ (w.db.add e).bookings := List.mem_append_left _ hb
  have hid := List.mem_map_of_mem (f := Booking.id) hadd
  rw [← (h.own w.db).bookingIds] at hid
  obtain ⟨b', hb', hid⟩ := List.mem_map.mp hid
  obtain ⟨b₀, hb₀, hre⟩ := (h.own w.db).bookings b' hb'
  obtain rfl : b₀ = b :=
    (h.fits.valid hv).booking_eq hb₀ hadd (hre.same.id.symm.trans hid)
  refine ⟨b', hb', hre.same, ?_, hre.closed⟩
  rcases hre.status with h | h | ⟨hp, hconf, sid, hsid, hop⟩
  · exact .inl h
  · exact .inr (.inl h)
  · exact .inr (.inr ⟨hp, hconf, sid, hsid, f, hmem, hf ▸ hop⟩)

/-! ## 3. Every run -/

/-- **There are exactly the Bookings that were there and those that committed calls asked for**, in
this order and each with the slots that its call asked for. -/
def Accounted (zone : Option Zone) (db₀ db : Db) (fin : List (Finished Call)) : Prop :=
  ∃ asked : List (List Booking),
    List.Forall₂ SameBooking (db₀.bookings ++ asked.flatten) db.bookings ∧
      List.Forall₂ (fun f bs => f.label.Answered zone db.bookingSlots bs) fin asked

theorem Accounted.start (zone : Option Zone) (db : Db) : Accounted zone db db [] :=
  ⟨[], by simpa using List.forall₂_same.mpr fun b _ => SameBooking.refl b, .nil⟩

section Commit

variable {c : Call} {e : Addition} {w : PortalView} (h : Underway c e w) {b : Booking}
  {k : UUID × Int × Int}
include h

/-- A commit leaves the slots of an old Booking where they are. -/
theorem Underway.slotAt_old (hb : ∃ b' ∈ w.db.bookings, b'.id = b.id) :
    SlotAt (w.own w.db).bookingSlots b.id k ↔ SlotAt w.db.bookingSlots b.id k := by
  obtain ⟨b', hb', hid⟩ := hb
  constructor
  · rintro ⟨s', hs', hsid, hk⟩
    obtain ⟨s, hs, hsame, hkey, -⟩ := (h.own w.db).slots s' hs'
    rcases List.mem_append.mp hs with hs | hs
    · exact ⟨s, hs, hsame.symm.trans hsid, hkey.symm.trans hk⟩
    · obtain ⟨b₁, hb₁, howner⟩ := h.fits.owned s hs
      refine absurd ?_ (h.fits.fresh b₁ hb₁ b' hb')
      exact hid.trans (hsid.symm.trans (hsame.trans howner.symm))
  · rintro ⟨s, hs, hsid, hk⟩
    obtain ⟨s', hs', hsame, hkey⟩ := h.stays w.db s
      (.inr ⟨hs, fun b₁ hb₁ heq => h.fits.fresh b₁ hb₁ b' hb' (hid.trans (hsid.symm.trans heq.symm))⟩)
    exact ⟨s', hs', hsame.trans hsid, hkey.trans hk⟩

/-- And publishes those of a new one. -/
theorem Underway.slotAt_new (howned : w.db.SlotsOwned) (hb : b ∈ e.bookings) :
    SlotAt (w.own w.db).bookingSlots b.id k ↔ SlotAt e.slots b.id k := by
  constructor
  · rintro ⟨s', hs', hsid, hk⟩
    obtain ⟨s, hs, hsame, hkey, -⟩ := (h.own w.db).slots s' hs'
    rcases List.mem_append.mp hs with hs | hs
    · obtain ⟨b', hb', howner⟩ := howned s hs
      exact absurd (howner.trans (hsame.symm.trans hsid)) (h.fits.fresh b hb b' hb')
    · exact ⟨s, hs, hsame.symm.trans hsid, hkey.symm.trans hk⟩
  · rintro ⟨s, hs, hsid, hk⟩
    obtain ⟨s', hs', hsame, hkey⟩ := h.stays w.db s (.inl hs)
    exact ⟨s', hs', hsame.trans hsid, hkey.trans hk⟩

end Commit

/-- **A commit keeps the account**: its Bookings are the last. -/
theorem Accounted.commit {zone : Option Zone} {db₀ : Db} {fin : List (Finished Call)}
    {e : Addition} {w : PortalView} {f : Finished Call} (hacc : Accounted zone db₀ w.db fin)
    (howned : w.db.SlotsOwned) (h : Underway f.label e w)
    (ha : f.label.Answered zone e.slots e.bookings) :
    Accounted zone db₀ (w.own w.db) (fin ++ [f]) := by
  obtain ⟨asked, hsame, hall⟩ := hacc
  refine ⟨asked ++ [e.bookings], ?_, List.rel_append ?_ (.cons ?_ .nil)⟩
  · have hadd : List.Forall₂ SameBooking (db₀.bookings ++ (asked ++ [e.bookings]).flatten)
        (w.db.add e).bookings := by
      rw [List.flatten_append, List.flatten_singleton, ← List.append_assoc]
      exact List.rel_append hsame (List.forall₂_same.mpr fun b _ => .refl b)
    exact forall₂_trans (fun _ _ _ h₁ h₂ => h₁.trans h₂.same) hadd (h.own w.db).each
  · refine forall₂_imp_mem hall fun g bs _ hbs hg => hg.congr fun b hb k => h.slotAt_old ?_
    obtain ⟨b', hb', hre⟩ := exists_related_right hsame
      (List.mem_append_right _ (List.mem_flatten.mpr ⟨bs, hbs, hb⟩))
    exact ⟨b', hb', hre.id⟩
  · exact ha.congr fun b hb k => h.slotAt_new howned hb

/-- The outline of the booking calls, without any condition on their order. -/
def historyOutline (app : App) (db₀ : Db) : Outline (Call.body app) fun _ _ => True where
  inv db _ fin := db.Valid ∧ db.SlotsOwned ∧ db.settings = db₀.settings ∧
    Accounted (zoneOf app db₀) db₀ db fin
  rely _ := settingsRely
  post c _ w := ∃ e, Underway c e w ∧ c.Answered (zoneOf app w.db) e.slots e.bookings
  tick h _ := h
  runs _ _ := Call.body_answers app _ rfl
  commit := by
    rintro s i pre tx post s' - hstep hfocus hwf ⟨hv, hs, hset, hacc⟩ ⟨e, h, ha⟩
    obtain rfl : s' = { s with
        db := tx.own s.db, txs := pre ++ post,
        finished := s.finished ++ [⟨tx.label, tx.began, s.clock⟩] } := by
      simp only [step, hfocus] at hstep
      split at hstep
      · exact (Option.some.inj hstep).symm
      · cases hstep
    have hsame : (tx.own s.db).settings = s.db.settings := (h.own s.db).settings
    have hzone : zoneOf app s.db = zoneOf app db₀ := zoneOf_congr app hset
    exact ⟨⟨(h.own s.db).valid (h.fits.valid hv), (h.own s.db).slotsOwned (h.fits.slotsOwned hs),
      hsame.trans hset, hacc.commit (w := tx.view s.db s.clock) hs h (hzone ▸ ha)⟩,
      fun _ _ => ⟨le_refl _, hsame⟩⟩

section Runs

variable (app : App) {db : Db} {t : Int} (hv : db.Valid) (hs : db.SlotsOwned)
include hv hs

theorem history_holds {s : PortalSys}
    (hrun : Run (Call.body app) (fun _ _ => True) (.idle db t) s) :
    (historyOutline app db).Holds s :=
  (historyOutline app db).holds_run
    ((historyOutline app db).holds_idle ⟨hv, hs, rfl, .start _ db⟩) hrun

/-- **No Booking is lost, doubled or invented** by any interleaving. -/
theorem bookings_accounted {s : PortalSys}
    (hrun : Run (Call.body app) (fun _ _ => True) (.idle db t) s) :
    Accounted (zoneOf app db) db s.db s.finished := (history_holds app hv hs hrun).inv.2.2.2

/-- **A Booking's history**: from any moment of any interleaving on, a Booking keeps its interval,
its booker, its Ministry and its Series, is confirmed only with its Series, and once cancelled or
overridden is never open again. -/
theorem bookings_become {s s' : PortalSys}
    (hrun : Run (Call.body app) (fun _ _ => True) (.idle db t) s)
    (hrun' : Run (Call.body app) (fun _ _ => True) s s') :
    BookingsBecome s'.finished s.db s'.db := by
  induction hrun' with
  | refl => exact .refl _ _
  | @tail s₁ s₂ a hr _ hstep ih =>
    have hholds := (historyOutline app db).holds_run (history_holds app hv hs hrun) hr
    cases a with
    | commit i =>
      obtain ⟨pre, tx, post, -, ⟨e, h, -⟩, rfl⟩ := (historyOutline app db).holds_commit hholds hstep
      exact ih.trans (List.subset_append_left _ _) (h.bookingsBecome hholds.inv.1 rfl
        (List.mem_append_right _ (List.mem_singleton_self _)))
    | _ =>
      rcases step_cases hstep with ⟨t, ha, -, rfl⟩ | ⟨l, ha, rfl⟩ |
        ⟨i, pre, tx, post, ha, -, -, rfl⟩ | ⟨i, pre, tx, post, tx', ha, -, -, rfl⟩ |
        ⟨i, pre, tx, post, u, ha, -⟩ | ⟨i, pre, tx, post, ha, -, rfl⟩
      all_goals first | exact ih | cases ha

end Runs

/-! ### 3.1 The late confirmation again -/

theorem confirmedLate_run : ∃ s : PortalSys,
    Run (Call.body .utc) (fun _ _ => True) (.idle Db.heldAtNoon 0) s ∧
      (s.db.bookings.map fun b => (b.id, b.status)) = [(51, .confirmed), (200, .confirmed)] := by
  have hreplay : (replay (Call.body .utc) (fun _ _ => true) (Sys.idle Db.heldAtNoon 0)
      confirmedLate).map (fun s => s.db.bookings.map fun b => (b.id, b.status)) =
        some [(51, .confirmed), (200, .confirmed)] := by decide +kernel
  obtain ⟨s, hs, hbookings⟩ := Option.map_eq_some_iff.mp hreplay
  exact ⟨s, run_of_replay (fun _ _ _ => trivial) .refl hs, hbookings⟩

theorem bookings_accounted_late : ∃ s : PortalSys,
    (s.db.bookings.map fun b => (b.id, b.status)) = [(51, .confirmed), (200, .confirmed)] ∧
      Accounted (zoneOf .utc Db.heldAtNoon) Db.heldAtNoon s.db s.finished := by
  obtain ⟨s, hrun, hbookings⟩ := confirmedLate_run
  exact ⟨s, hbookings, bookings_accounted .utc Db.heldAtNoon_valid Db.heldAtNoon_owned hrun⟩

theorem bookings_become_late : ∃ s : PortalSys,
    (s.db.bookings.map fun b => (b.id, b.status)) = [(51, .confirmed), (200, .confirmed)] ∧
      BookingsBecome s.finished Db.heldAtNoon s.db := by
  obtain ⟨s, hrun, hbookings⟩ := confirmedLate_run
  exact ⟨s, hbookings, bookings_become .utc Db.heldAtNoon_valid Db.heldAtNoon_owned
    (s := .idle Db.heldAtNoon 0) .refl hrun⟩

end NewlifeCore
