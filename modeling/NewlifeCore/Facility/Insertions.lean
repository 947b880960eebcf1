import NewlifeCore.Facility.PriorityCreations
import NewlifeCore.Facility.Reworkings

/-!
# What a creation adds, among other transactions

`create_booking` and `create_series` hold the locks of their rooms from before the occupancy checks
to the end.  Whatever the others commit meanwhile, nobody new occupies those rooms; so what the
checks found is all there is to displace when the creation commits.
-/

namespace NewlifeCore

open Txn Prog RecurringBookingService

/-! ## 1. What the room locks keep -/

/-- **What a transaction relies on**: Bookings keep their names, and nobody newly occupies a room
whose lock it holds. -/
def portalRely : Rely Db LockKey where
  rel L db t db' t' := t ≤ t' ∧
    (∀ b ∈ db.bookings, ∃ b' ∈ db'.bookings, b'.id = b.id) ∧
    ∀ room, .room room ∈ L → ∀ id k, k.1 = room → Occupies db' t' id k → Occupies db t id k
  refl _ _ t := ⟨le_refl t, fun b hb => ⟨b, hb, rfl⟩, fun _ _ _ _ _ h => h⟩
  trans h₁ h₂ := ⟨le_trans h₁.1 h₂.1,
    fun b hb =>
      let ⟨b', hb', hid⟩ := h₁.2.1 b hb
      let ⟨b'', hb'', hid'⟩ := h₂.2.1 b' hb'
      ⟨b'', hb'', hid'.trans hid⟩,
    fun room hroom id k hk h => h₁.2.2 room hroom id k hk (h₂.2.2 room hroom id k hk h)⟩
  tick _ _ _ _ ht := ⟨ht, fun b hb => ⟨b, hb, rfl⟩, fun _ _ _ _ _ h => h.earlier ht⟩
  mono hsub h := ⟨h.1, h.2.1, fun room hroom => h.2.2 room (hsub hroom)⟩

variable {c : Call} {e : Addition} {v w : PortalView}

/-- What occupied a locked room at some moment is all that occupies it later. -/
theorem Txn.Later.occupies (h : Later portalRely v w) {room id : UUID} {k : UUID × Int × Int}
    (hroom : .room room ∈ v.locks) (hk : k.1 = room) (hocc : Occupies w.db w.clock id k) :
    Occupies v.db v.clock id k := h.rel.2.2 room hroom id k hk hocc

theorem lockRooms_wp {R : Rely Db LockKey} (ids : List UUID) (v : PortalView) :
    wp R (BookingRepository.lockRooms ids) (fun _ w => w.own = v.own ∧ w.rows = v.rows ∧
      ∀ id ∈ ids, .room id ∈ w.locks) v := by
  have hlock : ∀ (xs : List UUID) (u : PortalView), wp R
      (each xs fun id => acquire (.room id) : Portal Unit) (fun _ w => w.own = u.own ∧
        w.rows = u.rows ∧ (∀ l ∈ u.locks, l ∈ w.locks) ∧ ∀ id ∈ xs, .room id ∈ w.locks) u := by
    intro xs
    induction xs with
    | nil => exact fun u w hw => ⟨hw.own, hw.rows, fun l hl => hw.locks ▸ hl, by simp⟩
    | cons x xs ih =>
      intro u
      refine wp_seq (Ψ := fun _ w => w.own = u.own ∧ w.rows = u.rows ∧
        w.locks = .room x :: u.locks) (wp_acquire fun u' hu _ w hw => ?_) fun _ w _ h => ?_
      · exact ⟨hw.own.trans hu.own, hw.rows.trans hu.rows,
          hw.locks.trans (congrArg (LockKey.room x :: ·) hu.locks)⟩
      · obtain ⟨hown, hrows, hlocks⟩ := h
        refine wp_mono (fun _ w' h' => ?_) (ih w)
        obtain ⟨hown', hrows', hkeep, hall⟩ := h'
        refine ⟨hown'.trans hown, hrows'.trans hrows, fun l hl => hkeep l ?_, fun id hid => ?_⟩
        · rw [hlocks]
          exact List.mem_cons_of_mem _ hl
        · rcases List.mem_cons.mp hid with rfl | hid
          · exact hkeep _ (hlocks ▸ List.mem_cons_self)
          · exact hall id hid
  refine wp_mono (fun _ w h => ⟨h.1, h.2.1, fun id hid => h.2.2.2 id ?_⟩) (hlock _ v)
  rw [List.mem_insertionSort, List.mem_eraseDups]
  exact hid

/-! ## 2. A creation underway -/

/-- A creation that added some rows, and only reworked the others.  Of the slots that are there it
deletes those of a Booking that it adds, which there are none of. -/
structure Underway (c : Call) (e : Addition) (v : PortalView) : Prop where
  own : ∀ db, Reworked c v.rows (db.add e) (v.own db)
  stays : ∀ db s, s ∈ e.slots ∨ s ∈ db.bookingSlots ∧
    (∀ b ∈ e.bookings, b.id ≠ s.facilityBookingId) → SlotStays (v.own db) s
  fits : e.Fits v.db
  bookings : ∀ b ∈ e.bookings, .booking b.id ∈ v.rows
  series : ∀ r ∈ e.series, .series r.id ∈ v.rows

/-- Before the first write. -/
theorem Underway.nothing (h : v.own = id) : Underway c {} v where
  own db := by rw [Db.add_nothing, h]; exact .refl _ _
  stays db s hs := by
    rcases hs with hs | ⟨hs, -⟩
    · cases hs
    · rw [h]; exact ⟨s, hs, rfl, rfl⟩
  fits := ⟨.nil, by simp, .nil, by simp, by simp, by simp⟩
  bookings := by simp
  series := by simp

theorem booking_absent {db db' : Db} {id : UUID}
    (h : RowStore.row db' (RowName.booking id) = RowStore.row db (RowName.booking id))
    (habsent : ∀ b ∈ db.bookings, b.id ≠ id) : ∀ b ∈ db'.bookings, b.id ≠ id := by
  have hrows : (db'.bookings.filter fun b => b.id = id) =
      db.bookings.filter fun b => b.id = id := by
    simpa only [RowName.booking.injEq] using RowContent.bookings.inj h
  have hnil : (db.bookings.filter fun b => b.id = id) = [] :=
    List.filter_eq_nil_iff.mpr fun b hb => by simpa using habsent b hb
  exact fun b hb => by simpa using List.filter_eq_nil_iff.mp (hrows.trans hnil) b hb

theorem series_absent {db db' : Db} {id : UUID}
    (h : RowStore.row db' (RowName.series id) = RowStore.row db (RowName.series id))
    (habsent : ∀ r ∈ db.series, r.id ≠ id) : ∀ r ∈ db'.series, r.id ≠ id := by
  have hrows : (db'.series.filter fun r => r.id = id) =
      db.series.filter fun r => r.id = id := by
    simpa only [RowName.series.injEq] using RowContent.series.inj h
  have hnil : (db.series.filter fun r => r.id = id) = [] :=
    List.filter_eq_nil_iff.mpr fun r hr => by simpa using habsent r hr
  exact fun r hr => by simpa using List.filter_eq_nil_iff.mp (hrows.trans hnil) r hr

/-- The names of new rows are taken: they are locked. -/
theorem Underway.later {R : Rely Db LockKey} (h : Underway c e v) (hw : Later R v w)
    (hown : ∀ db, Reworked c w.rows (db.add e) (w.own db))
    (hstays : ∀ db s, SlotStays (v.own db) s → SlotStays (w.own db) s) : Underway c e w where
  own := hown
  stays db s hs := hstays db s (h.stays db s hs)
  fits := { h.fits with
    fresh := fun b hb => booking_absent (hw.locked _ (h.bookings b hb)) (h.fits.fresh b hb)
    freshSeries := fun r hr =>
      series_absent (hw.locked _ (h.series r hr)) (h.fits.freshSeries r hr) }
  bookings b hb := hw.rows (h.bookings b hb)
  series r hr := hw.rows (h.series r hr)

theorem Underway.env {R : Rely Db LockKey} (h : Underway c e v) (hw : Env R v w) :
    Underway c e w :=
  h.later (.of_env hw) (fun db => by rw [hw.own, hw.rows]; exact h.own db)
    fun db s hs => by rwa [hw.own]

/-- Rework leaves it underway. -/
theorem Underway.keeps {R : Rely Db LockKey} {α : Type} {p : Portal α}
    (hp : Keeps (reworking c) p) (h : Underway c e v) : wp R p (fun _ w => Underway c e w) v :=
  wp_conseq (wp_keeps hp v) fun _ _ hw hown => h.later hw
    (fun db => ((h.own db).mono hw.rows).trans (hown db).toReworked)
    fun db _ ⟨s', hs', hid, hk⟩ => ((hown db).stays s' hs').trans hid hk

/-- A name that a transaction does not see is free. -/
theorem Underway.absent (h : Underway c e v) {id : UUID} (hid : ∀ b ∈ v.seen.bookings, b.id ≠ id) :
    ∀ b ∈ (v.db.add e).bookings, b.id ≠ id := by
  intro b hb
  have hmem := List.mem_map_of_mem (f := Booking.id) hb
  rw [← (h.own v.db).bookingIds] at hmem
  obtain ⟨b', hb', he⟩ := List.mem_map.mp hmem
  exact he ▸ hid b' hb'

theorem Underway.absentSeries (h : Underway c e v) {id : UUID}
    (hid : ∀ r ∈ v.seen.series, r.id ≠ id) : ∀ r ∈ (v.db.add e).series, r.id ≠ id := by
  intro r hr
  have hmem := List.mem_map_of_mem (f := BookingSeries.id) hr
  rw [← (h.own v.db).seriesIds] at hmem
  obtain ⟨r', hr', he⟩ := List.mem_map.mp hmem
  exact he ▸ hid r' hr'

/-! ### 2.1 Inserting -/

/-- An INSERT, issued and applied: no row it sees has one of the new names. -/
theorem insertInto_wp {R : Rely Db LockKey} {α : Type} (T : Table Db RowName α) (valid : α → Bool)
    (rows : List α) (v : PortalView) : wp R (insertInto T valid rows) (fun _ w => ∃ u, Env R v u ∧
      (rows.map T.name).Nodup ∧ (∀ r ∈ rows, ∀ r' ∈ T.get u.seen, T.name r' ≠ T.name r) ∧
      Env R (u.change (T.insert rows)) w) v := by
  refine wp_mono (fun _ w h => ?_) (wp_execute_once _ v)
  obtain ⟨v', ch, u, ch', hv, hch, hu, hch', hw⟩ := h
  have hinserts : ∀ {view : Db} {ch : Change Db RowName}, (if !decide (rows.map T.name).Nodup ||
        (rows.any fun r => (T.get view).any fun r' => T.name r' = T.name r) then
      (.error ⟨.integrity, "duplicate key value violates unique constraint", none, []⟩ :
        Except ApiError (Change Db RowName))
    else if rows.all valid then .ok (T.insert rows)
    else .error ⟨.integrity, "new row violates check constraint", none, []⟩) = .ok ch →
      ch = T.insert rows ∧ (rows.map T.name).Nodup ∧
        ∀ r ∈ rows, ∀ r' ∈ T.get view, T.name r' ≠ T.name r := by
    intro view ch h
    split at h
    · cases h
    · rename_i hfresh
      split at h
      · cases h
        simp only [Bool.or_eq_true, Bool.not_eq_true', decide_eq_false_iff_not, not_or, not_not,
          Bool.not_eq_true, List.any_eq_false, decide_eq_true_eq] at hfresh
        exact ⟨rfl, hfresh.1, fun r hr r' hr' => hfresh.2 r hr r' hr'⟩
      · cases h
  obtain ⟨rfl, -, -⟩ := hinserts hch
  obtain ⟨-, hnodup, hfresh⟩ := hinserts hch'
  exact ⟨u, hv.trans hu, hnodup, hfresh, hw⟩

/-- More rows that are new, and refer to rows that are there or come with them. -/
theorem Addition.Fits.and {db : Db} {e' : Addition} (h : e.Fits db)
    (hids : (e'.bookings.map Booking.id).Nodup)
    (hfresh : ∀ b ∈ e'.bookings, ∀ b' ∈ (db.add e).bookings, b'.id ≠ b.id)
    (hseries : (e'.series.map BookingSeries.id).Nodup)
    (hfreshSeries : ∀ r ∈ e'.series, ∀ r' ∈ (db.add e).series, r'.id ≠ r.id)
    (hof : ∀ b ∈ e'.bookings, ∀ sid, b.seriesId = some sid → ∃ r ∈ (e.and e').series, r.id = sid)
    (howned : ∀ s ∈ e'.slots, ∃ b ∈ (e.and e').bookings, b.id = s.facilityBookingId) :
    (e.and e').Fits db where
  bookingIds := by
    rw [Addition.and, List.map_append, List.nodup_append]
    refine ⟨h.bookingIds, hids, fun x hx y hy hxy => ?_⟩
    obtain ⟨b', hb', rfl⟩ := List.mem_map.mp hx
    obtain ⟨b, hb, rfl⟩ := List.mem_map.mp hy
    exact hfresh b hb b' (List.mem_append_right _ hb') hxy
  fresh b hb b' hb' := by
    rcases List.mem_append.mp hb with hb | hb
    · exact h.fresh b hb b' hb'
    · exact hfresh b hb b' (List.mem_append_left _ hb')
  seriesIds := by
    rw [Addition.and, List.map_append, List.nodup_append]
    refine ⟨h.seriesIds, hseries, fun x hx y hy hxy => ?_⟩
    obtain ⟨r', hr', rfl⟩ := List.mem_map.mp hx
    obtain ⟨r, hr, rfl⟩ := List.mem_map.mp hy
    exact hfreshSeries r hr r' (List.mem_append_right _ hr') hxy
  freshSeries r hr r' hr' := by
    rcases List.mem_append.mp hr with hr | hr
    · exact h.freshSeries r hr r' hr'
    · exact hfreshSeries r hr r' (List.mem_append_left _ hr')
  seriesOf b hb sid hsid := by
    rcases List.mem_append.mp hb with hb | hb
    · obtain ⟨r, hr, hid⟩ := h.seriesOf b hb sid hsid
      exact ⟨r, List.mem_append_left _ hr, hid⟩
    · exact hof b hb sid hsid
  owned s hs := by
    rcases List.mem_append.mp hs with hs | hs
    · obtain ⟨b, hb, hid⟩ := h.owned s hs
      exact ⟨b, List.mem_append_left _ hb, hid⟩
    · exact howned s hs

/-- Rows that fit are added. -/
theorem Underway.insert {e' : Addition} {ch : Change Db RowName} (h : Underway c e v)
    (hfits : (e.and e').Fits v.db) (happly : ∀ db, ch.apply db = db.add e')
    (hbookings : ∀ b ∈ e'.bookings, .booking b.id ∈ ch.rows)
    (hseries : ∀ r ∈ e'.series, .series r.id ∈ ch.rows) : Underway c (e.and e') (v.change ch) where
  own db := by
    rw [Db.add_and]
    show Reworked c (ch.rows ++ v.rows) _ (ch.apply (v.own db))
    rw [happly]
    exact ((h.own db).add e').mono (List.subset_append_right _ _)
  stays db s hs := by
    show SlotStays (ch.apply (v.own db)) s
    rw [happly]
    have hold : SlotStays (v.own db) s → SlotStays ((v.own db).add e') s :=
      fun ⟨s', hs', hsame⟩ => ⟨s', List.mem_append_left _ hs', hsame⟩
    rcases hs with hs | ⟨hs, hother⟩
    · rcases List.mem_append.mp hs with hs | hs
      · exact hold (h.stays db s (.inl hs))
      · exact ⟨s, List.mem_append_right _ hs, rfl, rfl⟩
    · exact hold (h.stays db s (.inr ⟨hs, fun b hb => hother b (List.mem_append_left _ hb)⟩))
  fits := hfits
  bookings b hb := by
    rcases List.mem_append.mp hb with hb | hb
    · exact List.mem_append_right _ (h.bookings b hb)
    · exact List.mem_append_left _ (hbookings b hb)
  series r hr := by
    rcases List.mem_append.mp hr with hr | hr
    · exact List.mem_append_right _ (h.series r hr)
    · exact List.mem_append_left _ (hseries r hr)

variable {R : Rely Db LockKey}

theorem insertSeries_wp (s : BookingSeries) (h : Underway c e v) :
    wp R (RecurringBookingRepository.insertSeries s)
      (fun _ w => Underway c (e.and { series := [s] }) w) v := by
  refine wp_mono (fun _ w hw => ?_) (insertInto_wp seriesTable _ [s] v)
  obtain ⟨u, hu, -, hfresh, hw⟩ := hw
  have h := h.env hu
  have hnew : ∀ r ∈ (u.db.add e).series, r.id ≠ s.id := h.absentSeries fun r hr heq =>
    hfresh s (List.mem_singleton_self s) r hr (congrArg RowName.series heq)
  have hfits : (e.and { series := [s] }).Fits u.db :=
    h.fits.and .nil (by simp) (List.nodup_singleton _)
      (fun r hr r' hr' => List.mem_singleton.mp hr ▸ hnew r' hr') (by simp) (by simp)
  refine (h.insert hfits (fun db => ?_) (by simp) ?_).env hw
  · simp [Db.add, Table.insert, seriesTable]
  · exact fun r hr => List.mem_singleton.mp hr ▸ List.mem_singleton_self _

theorem insertBooking_wp (b : Booking) (h : Underway c e v)
    (hof : ∀ sid, b.seriesId = some sid → ∃ r ∈ e.series, r.id = sid) :
    wp R (BookingRepository.insertBooking b)
      (fun _ w => Underway c (e.and { bookings := [b] }) w) v := by
  refine wp_mono (fun _ w hw => ?_) (insertInto_wp bookingTable _ [b] v)
  obtain ⟨u, hu, -, hfresh, hw⟩ := hw
  have h := h.env hu
  have hnew : ∀ b' ∈ (u.db.add e).bookings, b'.id ≠ b.id := h.absent fun b' hb' heq =>
    hfresh b (List.mem_singleton_self b) b' hb' (congrArg RowName.booking heq)
  have hfits : (e.and { bookings := [b] }).Fits u.db := by
    refine h.fits.and (List.nodup_singleton _)
      (fun b' hb' b'' hb'' => List.mem_singleton.mp hb' ▸ hnew b'' hb'') .nil (by simp) ?_ (by simp)
    intro b' hb' sid hsid
    obtain ⟨r, hr, hid⟩ := hof sid (List.mem_singleton.mp hb' ▸ hsid)
    exact ⟨r, List.mem_append_left _ hr, hid⟩
  refine (h.insert hfits (fun db => ?_) ?_ (by simp)).env hw
  · simp [Db.add, Table.insert, bookingTable]
  · exact fun b' hb' => List.mem_singleton.mp hb' ▸ List.mem_singleton_self _

theorem replaceBookingRooms_keeps (bookingId : UUID) (rooms : List BookingRoom) :
    Keeps (reworking c) (BookingRepository.replaceBookingRooms bookingId rooms) := by
  have hrooms : ∀ db l, Rewritten c [] db (bookingRoomTable.set db l) := fun _ _ =>
    .of_frame rfl rfl rfl rfl
  refine Keeps.bind (fun _ => ?_) (keeps_deleteFrom bookingRoomTable _ hrooms)
  split
  · trivial
  · exact keeps_insertInto bookingRoomTable _ _ hrooms

/-- A new Booking's slots are deleted before it has any. -/
theorem deleteSlots_wp {bookingId : UUID} (h : Underway c e v)
    (hnew : ∃ b ∈ e.bookings, b.id = bookingId)
    (hnone : ∀ s ∈ e.slots, s.facilityBookingId ≠ bookingId) :
    wp R (deleteFrom bookingSlotTable fun s => s.facilityBookingId = bookingId)
      (fun _ w => Underway c e w) v := by
  refine wp_mono (fun _ w hw => ?_) (wp_execute_once _ v)
  obtain ⟨v', ch, u, ch', hv, hch, hu, -, hw⟩ := hw
  cases hch
  have h := h.env (hv.trans hu)
  set ch := bookingSlotTable.delete (fun s => decide (s.facilityBookingId = bookingId)) v'.seen
  refine Underway.env (v := u.change ch) ⟨fun db => ?_, fun db s hs => ?_, h.fits,
    fun b hb => List.mem_append_right _ (h.bookings b hb),
    fun r hr => List.mem_append_right _ (h.series r hr)⟩ hw
  · have hfewer : Reworked c (ch.rows ++ u.rows) (u.own db) (ch.apply (u.own db)) :=
      { Reworked.refl (ch.rows ++ u.rows) (u.own db) with
        slots := fun s hs => ⟨s, (List.mem_filter.mp hs).1, rfl, rfl, id⟩ }
    exact ((h.own db).mono (List.subset_append_right _ _)).trans hfewer
  · -- a slot of another Booking is not among those deleted
    have hother : s.facilityBookingId ≠ bookingId := by
      rcases hs with hs | ⟨-, hs⟩
      · exact hnone s hs
      · obtain ⟨b, hb, rfl⟩ := hnew
        exact (hs b hb).symm
    obtain ⟨s', hs', hid, hk⟩ := h.stays db s hs
    refine ⟨s', List.mem_filter.mpr ⟨hs', ?_⟩, hid, hk⟩
    simp [hid, hother]

theorem replaceBookingSlots_wp {bookingId : UUID} (slots : List BookingSlot) (h : Underway c e v)
    (hnew : ∃ b ∈ e.bookings, b.id = bookingId)
    (hnone : ∀ s ∈ e.slots, s.facilityBookingId ≠ bookingId)
    (howned : ∀ s ∈ slots, s.facilityBookingId = bookingId) :
    wp R (BookingRepository.replaceBookingSlots bookingId slots)
      (fun _ w => Underway c (e.and { slots }) w) v := by
  refine wp_seq (deleteSlots_wp h hnew hnone) fun _ w₁ _ h₁ => ?_
  split
  · rename_i hnil
    refine wp_ret fun w hw => ?_
    rw [List.isEmpty_iff.mp hnil]
    simpa [Addition.and] using h₁.env hw
  · refine wp_mono (fun _ w hw => ?_) (insertInto_wp bookingSlotTable _ slots w₁)
    obtain ⟨u, hu, -, -, hw⟩ := hw
    have h := h₁.env hu
    have hfits : (e.and { slots }).Fits u.db :=
      h.fits.and .nil (by simp) .nil (by simp) (by simp) fun s hs => by
        obtain ⟨b, hb, hid⟩ := hnew
        exact ⟨b, List.mem_append_left _ hb, hid.trans (howned s hs).symm⟩
    refine (h.insert hfits (fun db => ?_) (by simp) (by simp)).env hw
    simp [Db.add, Table.insert, bookingSlotTable]

/-- A Booking with its slots is added. -/
theorem insertWithLines_wp (b : Booking) (rooms : List BookingRoom) (slots : List BookingSlot)
    (h : Underway c e v) (hof : ∀ sid, b.seriesId = some sid → ∃ r ∈ e.series, r.id = sid)
    (hslots : ∀ s ∈ slots, s.facilityBookingId = b.id) :
    wp R (insertWithLines b rooms slots)
      (fun _ w => Underway c (e.and { bookings := [b], slots }) w) v := by
  refine wp_seq (insertBooking_wp b h hof) fun _ w₁ _ h₁ => ?_
  refine wp_seq (h₁.keeps (replaceBookingRooms_keeps _ _)) fun _ w₂ _ h₂ => ?_
  have hb : b ∈ (e.and { bookings := [b] }).bookings :=
    List.mem_append_right _ (List.mem_singleton_self b)
  -- the slots that are there are of the Bookings before
  have hnone : ∀ s ∈ (e.and { bookings := [b] }).slots, s.facilityBookingId ≠ b.id := by
    intro s hs hid
    obtain ⟨b', hb', hid'⟩ := h.fits.owned s (by simpa [Addition.and] using hs)
    have hnodup := h₂.fits.bookingIds
    rw [Addition.and, List.map_append, List.nodup_append] at hnodup
    exact hnodup.2.2 _ (List.mem_map_of_mem hb') _ (List.mem_singleton_self _) (hid'.trans hid)
  refine wp_mono (fun _ w hw => ?_) (replaceBookingSlots_wp slots h₂ ⟨b, hb, rfl⟩ hnone hslots)
  simpa [Addition.and] using hw

/-! ## 3. Displacing -/

/-- No Booking of that name is left open, whatever database the transaction commits to. -/
def ClosedIn (own : Db → Db) (id : UUID) : Prop :=
  ∀ db, ∀ b ∈ (own db).bookings, b.id = id → isLive b.status = false

theorem ClosedIn.rework {own own' : Db → Db} {rows : List RowName} {id : UUID}
    (h : ClosedIn own id) (hre : ∀ db, Reworked c rows (own db) (own' db)) : ClosedIn own' id := by
  intro db b' hb' hid
  obtain ⟨b, hb, hrb⟩ := (hre db).bookings b' hb'
  exact hrb.closed (h db b hb (hrb.same.id.symm.trans hid))

/-- What rework leaves of a creation underway, with what it has closed. -/
theorem Underway.keeps_closed {α : Type} {p : Portal α} (hp : Keeps (reworking c) p)
    (h : Underway c e v) :
    wp R p (fun _ w => Underway c e w ∧ ∀ id, ClosedIn v.own id → ClosedIn w.own id) v :=
  wp_mono (fun _ _ hw => ⟨hw.1, fun _ hid => hid.rework fun db => (hw.2 db).toReworked⟩)
    (wp_and (h.keeps hp) (wp_keeps hp v))

/-- **The override of a Booking that is there closes it**, in every database. -/
theorem overrideBooking_wp {id : UUID} (byId : Option UUID) (reason : Option String)
    (h : Underway c e v) (hid : ∃ b ∈ v.db.bookings, b.id = id) :
    wp portalRely (BookingRepository.overrideBooking id byId reason) (fun _ w => Underway c e w ∧
      ClosedIn w.own id ∧ ∀ id', ClosedIn v.own id' → ClosedIn w.own id') v := by
  refine wp_seq (wp_quiet ReadOnly.now v) fun now w₁ _ h₁ => ?_
  refine wp_seq (Ψ := fun _ w => Underway c e w ∧ ClosedIn w.own id ∧
    ∀ id', ClosedIn w₁.own id' → ClosedIn w.own id') ?_ fun _ w₂ _ h₂ => ?_
  · refine wp_mono (fun _ w hw => ⟨hw.2.1, ?_, hw.2.2⟩) (wp_and (wp_execute_once _ w₁)
      ((h.env h₁).keeps_closed (closeHeader_keeps rfl id now byId reason)))
    obtain ⟨⟨v', ch, u, ch', hv', hch, hu, -, hw⟩, -⟩ := hw
    cases hch
    -- the row was there when the UPDATE was issued, so it is among those it changes
    have hmatch : RowName.booking id ∈
        bookingTable.matching (fun b => decide (b.id = id)) v'.seen := by
      obtain ⟨b, hb, rfl⟩ := hid
      obtain ⟨b', hb', hid'⟩ := (h₁.trans hv').rel.2.1 b hb
      have hmem : b'.id ∈ (v'.db.add e).bookings.map Booking.id :=
        List.mem_map_of_mem (List.mem_append_left _ hb')
      rw [← ((h.env (h₁.trans hv')).own v'.db).bookingIds] at hmem
      obtain ⟨b'', hb'', hid''⟩ := List.mem_map.mp hmem
      have hname : bookingTable.name b'' = RowName.booking b.id :=
        congrArg RowName.booking (hid''.trans hid')
      rw [← hname]
      exact bookingTable.mem_matching hb'' (by simp [hid'', hid'])
    intro db b hb hbid
    rw [hw.own] at hb
    obtain ⟨b₀, hb₀, rfl⟩ := List.mem_map.mp hb
    split at hbid
    · rename_i hclosed
      rw [if_pos hclosed]
      rfl
    · rename_i hopen
      refine absurd ?_ hopen
      have hb₀id : b₀.id = id := hbid
      simp only [Bool.and_eq_true, decide_eq_true_eq]
      exact ⟨hb₀id, List.contains_iff_mem.mpr (by
        rw [show bookingTable.name b₀ = RowName.booking id from congrArg RowName.booking hb₀id]
        exact hmatch)⟩
  · obtain ⟨hunder, hclosed, hkeep⟩ := h₂
    refine wp_mono (fun _ w hw => ⟨hw.1, hw.2 id hclosed, fun id' h' => hw.2 id' (hkeep id' ?_)⟩)
      (hunder.keeps_closed (cancelSlots_keeps id))
    rw [h₁.own]
    exact h'

/-- Each target once. -/
theorem overrideEach_wp (operatorId : UUID) : ∀ (rs : List (UUID × OverrideTarget))
    (seen : List UUID) (v : PortalView), Underway c e v → (∀ id ∈ seen, ClosedIn v.own id) →
    (∀ r ∈ rs, ∃ b ∈ v.db.bookings, b.id = r.2.impact.bookingId) →
    wp portalRely (overrideEach operatorId seen rs) (fun _ w => Underway c e w ∧
      (∀ id ∈ seen, ClosedIn w.own id) ∧ ∀ r ∈ rs, ClosedIn w.own r.2.impact.bookingId) v
  | [], _, _, h, hseen, _ => wp_ret fun _ hw => ⟨h.env hw, hw.own ▸ hseen, by simp⟩
  | (x, target) :: rs, seen, v, h, hseen, hthere => by
    have hrest : ∀ r ∈ rs, ∃ b ∈ v.db.bookings, b.id = r.2.impact.bookingId :=
      fun r hr => hthere r (List.mem_cons_of_mem _ hr)
    unfold overrideEach
    split
    · rename_i hdone
      refine wp_mono (fun _ w hw => ⟨hw.1, hw.2.1, fun r hr => ?_⟩)
        (overrideEach_wp operatorId rs seen v h hseen hrest)
      rcases List.mem_cons.mp hr with rfl | hr
      · exact hw.2.1 _ hdone
      · exact hw.2.2 r hr
    · refine wp_seq (overrideBooking_wp _ _ h (hthere (x, target) List.mem_cons_self))
        fun _ w₁ hw₁ h₁ => ?_
      obtain ⟨hunder, hclosed, hkeep⟩ := h₁
      have hseen₁ : ∀ id ∈ target.impact.bookingId :: seen, ClosedIn w₁.own id := by
        intro id hid
        rcases List.mem_cons.mp hid with rfl | hid
        · exact hclosed
        · exact hkeep id (hseen id hid)
      have hthere₁ : ∀ r ∈ rs, ∃ b ∈ w₁.db.bookings, b.id = r.2.impact.bookingId := by
        intro r hr
        obtain ⟨b, hb, hid⟩ := hrest r hr
        obtain ⟨b', hb', hid'⟩ := hw₁.rel.2.1 b hb
        exact ⟨b', hb', hid'.trans hid⟩
      refine wp_mono (fun _ w hw => ⟨hw.1, fun id hid => hw.2.1 id (List.mem_cons_of_mem _ hid),
        fun r hr => ?_⟩) (overrideEach_wp operatorId rs _ w₁ hunder hseen₁ hthere₁)
      rcases List.mem_cons.mp hr with rfl | hr
      · exact hw.2.1 _ List.mem_cons_self
      · exact hw.2.2 r hr

theorem overrideLogs_keeps (operatorId : UUID) (logId : Nat → UUID)
    (rs : List (UUID × OverrideTarget)) : Keeps (reworking c)
      (if (overrideLogRows operatorId logId rs).isEmpty then pure ()
        else OverrideLogRepository.insertLogs (overrideLogRows operatorId logId rs)) := by
  split
  · trivial
  · exact insertLogs_keeps _

/-- **Displacement closes what it is given**, in every database. -/
theorem applyWholeBookingOverrides_wp (rs : List (UUID × OverrideTarget)) (operatorId : UUID)
    (logId : Nat → UUID) (h : Underway c e v)
    (hthere : ∀ r ∈ rs, ∃ b ∈ v.db.bookings, b.id = r.2.impact.bookingId) :
    wp portalRely (applyWholeBookingOverrides rs operatorId logId) (fun _ w => Underway c e w ∧
      ∀ r ∈ rs, ClosedIn w.own r.2.impact.bookingId) v := by
  refine wp_seq (overrideEach_wp operatorId rs [] v h (by simp) hthere) fun _ w₁ _ h₁ => ?_
  exact wp_mono (fun _ w hw => ⟨hw.1, fun r hr => hw.2 _ (h₁.2.2 r hr)⟩)
    (h₁.1.keeps_closed (overrideLogs_keeps _ _ _))

/-! ## 4. The creations -/

/-- **What a transaction has established when it can commit**: what it adds is locked and apart,
and whoever occupies a new slot is closed. -/
structure Establishes (c : Call) (e : Addition) (w : PortalView) : Prop where
  underway : Underway c e w
  holds : c.clearsHolds = true → e.series = []
  locked : ∀ s ∈ e.slots, .room s.facilityId ∈ w.locks
  apart : SlotsApart e.slots
  displaced : ∀ s ∈ e.slots, ∀ id k, Occupies w.db w.clock id k → Coincide k s.key →
    ClosedIn w.own id

/-- The others' moves leave that so. -/
theorem Establishes.env (h : Establishes c e v) (hw : Env portalRely v w) : Establishes c e w where
  underway := h.underway.env hw
  holds := h.holds
  locked s hs := hw.locks ▸ h.locked s hs
  apart := h.apart
  displaced s hs id k hocc hc := by
    rw [hw.own]
    exact h.displaced s hs id k ((Later.of_env hw).occupies (h.locked s hs) hc.1 hocc) hc

/-- Whoever occupies an interval of a locked room was found by the check, before any write. -/
theorem occupant_found {room : UUID} {startAt endAt : Int} {ids : List UUID}
    (hown : ∀ db, v.own db = db) (hn : v.sqlNow ≤ v.clock) (hroom : .room room ∈ v.locks)
    (hread : Read portalRely v
      (fun db n => ∀ o, Occupant db n room startAt endAt o → o.2.id ∈ ids) w) {id : UUID}
    {k : UUID × Int × Int} (hocc : Occupies w.db w.clock id k)
    (hc : Coincide k (room, startAt, endAt)) : id ∈ ids := by
  obtain ⟨u, ⟨hu, hall⟩, huw⟩ := hread
  have hseen : u.seen = u.db := by rw [View.seen, hu.own, hown]
  rw [hseen] at hall
  have hocc := huw.occupies (hu.locks ▸ hroom) hc.1 hocc
  obtain ⟨o, ho, rfl⟩ := (hocc.earlier ((Later.of_env hu).timely hn)).occupant hc
  exact hall o ho

/-- A target that was found is there. -/
theorem target_there {id : UUID} {nowUtc : Int} (hown : ∀ db, v.own db = db)
    (hread : Read portalRely v (fun db _ => Displaceable db nowUtc id) w) :
    ∃ b ∈ w.db.bookings, b.id = id := by
  obtain ⟨u, ⟨hu, b, hb, hid, -⟩, huw⟩ := hread
  rw [View.seen, hu.own, hown] at hb
  obtain ⟨b', hb', hid'⟩ := huw.rel.2.1 b hb
  exact ⟨b', hb', hid'.trans hid⟩

theorem deleteOwnedDraft_keeps (bookingDraftId : Option UUID) (p : BookingService.Proposal) :
    Keeps (reworking c) (BookingService.deleteOwnedDraft bookingDraftId p) := by
  unfold BookingService.deleteOwnedDraft
  split
  · trivial
  · split
    · exact Keeps.bind
        (fun _ => keeps_deleteFrom draftTable _ fun _ _ => .of_frame rfl rfl rfl rfl)
        (keeps_deleteFrom draftLineTable _ fun _ _ => .of_frame rfl rfl rfl rfl)
    · trivial

theorem createBooking_establishes (app : App) (r : Request) (command : CreateBookingCommand)
    (hc : c.clearsHolds = false) (hown : ∀ db, v.own db = db) (hn : v.sqlNow ≤ v.clock) :
    wp portalRely (BookingService.createBooking app r command)
      (fun _ w => ∃ e, Establishes c e w) v := by
  refine wp_seq (wp_quiet (BookingService.prepareBooking_readOnly app r command) v)
    fun p w₁ hw₁ h₁ => ?_
  refine wp_seq (lockRooms_wp _ w₁) fun _ w₂ hw₂ h₂ => ?_
  have hown₂ : ∀ db, w₂.own db = db := by rw [h₂.1, h₁.own]; exact hown
  have hn₂ : w₂.sqlNow ≤ w₂.clock := (hw₁.trans hw₂).timely hn
  refine wp_seq (reviewBooking_wp app command p w₂) fun review w₃ hw₃ h₃ => ?_
  obtain ⟨hrows, hkeys⟩ := bookingSlotRows_spec (r.ids.bookingSlot 0) (r.ids.booking 0) p.lines
  have hstart : Underway c {} w₃ := .nothing (funext fun db => by rw [h₃.env.own, hown₂]; rfl)
  refine wp_seq (insertWithLines_wp _ _ _ hstart (fun sid hsid => by cases hsid)
    fun s hs => (hrows s hs).1) fun _ w₄ hw₄ h₄ => ?_
  set slots := bookingSlotRows (r.ids.bookingSlot 0) (r.ids.booking 0) p.lines
  set added := ({} : Addition).and
    { bookings := [BookingService.bookingRow r.ids command p review.quote], slots } with hadded
  have hslots : added.slots = slots := List.nil_append _
  obtain ⟨nowUtc, -, -, htargets⟩ := h₃.displaces
  refine wp_seq (Ψ := fun _ w => Underway c added w ∧
    ∀ id ∈ review.evaluation.targetIds, ClosedIn w.own id) ?_ fun _ w₅ hw₅ h₅ => ?_
  · unfold BookingService.displaceTargets
    split
    · refine wp_mono (fun _ w hw => ⟨hw.1, fun id hid => ?_⟩)
        (applyWholeBookingOverrides_wp _ _ _ h₄ fun x hx => ?_)
      · obtain ⟨target, htarget, rfl⟩ := List.mem_map.mp hx
        exact target_there hown₂
          ((htargets _ (List.mem_map_of_mem htarget)).2.later hw₄)
      · obtain ⟨target, htarget, rfl⟩ := List.mem_map.mp hid
        exact hw.2 _ (List.mem_map_of_mem htarget)
    · rename_i hskip
      refine wp_ret fun w hw => ⟨h₄.env hw, fun id hid => absurd ?_ hskip⟩
      rw [Bool.and_eq_true, Bool.not_eq_true', List.isEmpty_eq_false_iff]
      refine ⟨fun hnil => ?_, (htargets id hid).1⟩
      rw [OneTimeOccupancyEvaluation.targetIds, hnil] at hid
      cases hid
  · refine wp_seq (h₅.1.keeps_closed (deleteOwnedDraft_keeps _ p)) fun _ w₆ hw₆ h₆ =>
      wp_ret fun w hw => ⟨added, h₆.1.env hw, by simp [hc], fun s hs => ?_, ?_,
        fun s hs id k hocc hclash => ?_⟩
    · obtain ⟨line, hline, hf, -, -⟩ := bookingSlotRows_line (hslots ▸ hs)
      refine (((hw₃.trans hw₄).trans hw₅).trans (hw₆.trans (.of_env hw))).locks (h₂.2.2 _ ?_)
      exact hf ▸ List.mem_map_of_mem hline
    · exact slotsApart_of_one fun s hs => (hrows s (hslots ▸ hs)).1
    · obtain ⟨line, hline, hf, hst, hen⟩ := bookingSlotRows_line (hslots ▸ hs)
      rw [BookingSlot.key, ← hf, ← hst, ← hen] at hclash
      have hid := occupant_found hown₂ hn₂ (h₂.2.2 _ (List.mem_map_of_mem hline))
        ((h₃.free line hline).later ((hw₄.trans hw₅).trans (hw₆.trans (.of_env hw)))) hocc hclash
      rw [hw.own]
      exact h₆.2 id (h₅.2 id hid)

/-- One turn of the loop that inserts the occurrences. -/
theorem insertOccurrence_wp {R : Rely Db LockKey} {ids : Uuids}
    {command : CreateRecurringBookingSeriesCommand} {title : BookingTitle} {bookerId : UUID}
    {status : BookingStatus} {s : BookingSeries} (hs : s.id = ids.series)
    {done : List (Nat × PreparedOccurrence × Quote)} (x : Nat × PreparedOccurrence × Quote)
    (h : Underway c ⟨seriesBookings ids command title bookerId status done,
      seriesSlots ids command.rooms done, [s]⟩ v) :
    wp R (insertOccurrence ids command title bookerId status x) (fun _ w =>
      Underway c ⟨seriesBookings ids command title bookerId status (done ++ [x]),
        seriesSlots ids command.rooms (done ++ [x]), [s]⟩ w) v := by
  refine wp_seq (insertWithLines_wp _ _ _ h (fun sid hsid => ?_) fun slot hslot => ?_)
    fun _ w₁ _ h₁ => wp_ret fun w hw => ?_
  · exact ⟨s, List.mem_singleton_self s, hs.trans (Option.some.inj hsid)⟩
  · exact ((bookingSlotRows_spec _ _ _).1 slot hslot).1
  · have h₁ := h₁.env hw
    simpa [Addition.and, seriesBookings, seriesSlots, occurrenceRow] using h₁

theorem createSeries_establishes (app : App) (r : Request)
    (command : CreateRecurringBookingSeriesCommand) (hc : c.clearsHolds = false)
    (hown : ∀ db, v.own db = db) (hn : v.sqlNow ≤ v.clock) :
    wp portalRely (createSeries app r command) (fun _ w => ∃ e, Establishes c e w) v := by
  have htitle : ReadOnly (requireTitle command) := by
    unfold requireTitle
    split <;> trivial
  refine wp_seq (wp_quiet htitle v) fun title w₀ hw₀ h₀ => ?_
  refine wp_seq (prepareSeries_wp app r command w₀) fun prepared w₁ hw₁ h₁ => ?_
  refine wp_seq (lockRooms_wp _ w₁) fun _ w₂ hw₂ h₂ => ?_
  have hown₂ : ∀ db, w₂.own db = db := by rw [h₂.1, h₁.env.own, h₀.own]; exact hown
  have hn₂ : w₂.sqlNow ≤ w₂.clock := ((hw₀.trans hw₁).trans hw₂).timely hn
  refine wp_seq (reviewSeries_wp app command prepared w₂) fun review w₃ hw₃ h₃ => ?_
  obtain ⟨hdates, hapart⟩ := remaining_apart h₁.occurrences
  rw [← h₃.remaining] at hdates hapart
  have hstart : Underway c {} w₃ := .nothing (funext fun db => by rw [h₃.env.own, hown₂]; rfl)
  refine wp_seq (insertSeries_wp _ hstart) fun _ w₄ hw₄ h₄ => ?_
  set xs := numbered review.remaining review.quotes with hxs
  set series := seriesRow r.ids command title prepared review
  set added : Addition := ⟨seriesBookings r.ids command title prepared.bookerId series.status xs,
    seriesSlots r.ids command.rooms xs, [series]⟩ with hadded
  refine wp_seq (wp_mapEach (fun done _ w => Underway c ⟨seriesBookings r.ids command title
      prepared.bookerId series.status done, seriesSlots r.ids command.rooms done, [series]⟩ w)
    (fun _ _ _ _ h hw => h.env hw) xs [] [] w₄
    (fun done _ x w _ h => insertOccurrence_wp rfl x h) ?_) fun _ w₅ hw₅ h₅ => ?_
  · simpa [Addition.and, seriesBookings, seriesSlots] using h₄
  rw [List.nil_append] at h₅
  refine wp_seq (Ψ := fun _ w => Underway c added w ∧
    ∀ id ∈ review.targetIds, ClosedIn w.own id) ?_ fun _ w₆ hw₆ h₆ =>
      wp_ret fun w hw => ⟨added, h₆.1.env hw, by simp [hc], fun s hs => ?_, ?_,
        fun s hs id k hocc hclash => ?_⟩
  · unfold displaceSeriesTargets
    split
    · refine wp_seq (wp_check (ReadOnly.ofExcept _) (Returns.ofExcept _) w₅)
        fun pairs w₆ hw₆ h₆ => ?_
      have hids := replacements_ids h₆.2
      refine wp_mono (fun _ w hw => ⟨hw.1, fun id hid => ?_⟩)
        (applyWholeBookingOverrides_wp _ _ _ (h₅.env h₆.1) fun x hx => ?_)
      · have hmem : x.2.impact.bookingId ∈ review.targetIds := by
          rw [SeriesReview.targetIds, ← hids]
          exact List.mem_map_of_mem hx
        exact target_there hown₂ ((h₃.displaces _ hmem).later ((hw₄.trans hw₅).trans hw₆))
      · rw [SeriesReview.targetIds, ← hids] at hid
        obtain ⟨x, hx, rfl⟩ := List.mem_map.mp hid
        exact hw.2 x hx
    · rename_i hskip
      refine wp_ret fun w hw => ⟨h₅.env hw, fun id hid => absurd ?_ hskip⟩
      have hne : review.targets ≠ [] := by
        rintro hnil
        rw [SeriesReview.targetIds, hnil] at hid
        cases hid
      rw [Bool.and_eq_true, Bool.not_eq_true', List.isEmpty_eq_false_iff]
      exact ⟨hne, h₁.priority (h₃.priority hne)⟩
  · obtain ⟨x, hx, hsx⟩ := mem_seriesSlots.mp hs
    obtain ⟨line, hline, hf, -, -⟩ := bookingSlotRows_line hsx
    obtain ⟨room, hroom, rfl⟩ := List.mem_map.mp hline
    refine ((((hw₃.trans hw₄).trans hw₅).trans hw₆).trans (.of_env hw)).locks (h₂.2.2 _ ?_)
    exact hf ▸ List.mem_map_of_mem hroom
  · exact seriesSlots_apart hdates hapart
  · obtain ⟨x, hx, hsx⟩ := mem_seriesSlots.mp hs
    obtain ⟨line, hline, hf, hst, hen⟩ := bookingSlotRows_line hsx
    obtain ⟨room, hroom, rfl⟩ := List.mem_map.mp hline
    rw [BookingSlot.key, ← hf, ← hst, ← hen] at hclash
    have hid := occupant_found hown₂ hn₂ (h₂.2.2 _ (List.mem_map_of_mem hroom))
      ((h₃.free x.2.1 (mem_numbered hx) room hroom).1.later
        (((hw₄.trans hw₅).trans hw₆).trans (.of_env hw))) hocc hclash
    rw [hw.own]
    exact h₆.2 id hid

/-- **Whatever a call is, its transaction establishes this before it commits.** -/
theorem Call.body_establishes (app : App) (c : Call) (db : Db) (t : Int) :
    wp portalRely (c.body app) (fun _ w => ∃ e, Establishes c e w) (View.fresh db t) := by
  have hown : ∀ db', (View.fresh db t : PortalView).own db' = db' := fun _ => rfl
  cases hc : c.isCreation with
  | false =>
    refine wp_mono (fun _ w hw => ⟨{}, hw, fun _ => rfl, by simp, by simp [SlotsApart], by simp⟩)
      (Underway.keeps (c.body_keeps app hc) (.nothing rfl))
  | true =>
    obtain ⟨r, operation⟩ := c
    cases operation with
    | createBooking command =>
      exact wp_seq (createBooking_establishes app r command rfl hown (le_refl t)) fun _ _ _ h =>
        wp_ret fun w hw => h.imp fun e he => he.env hw
    | createSeries command =>
      exact wp_seq (createSeries_establishes app r command rfl hown (le_refl t)) fun _ _ _ h =>
        wp_ret fun w hw => h.imp fun e he => he.env hw
    | _ => cases hc

end NewlifeCore
