import Mathlib.Logic.Relation
import NewlifeCore.Facility.Closings
import NewlifeCore.Facility.Proposals
import NewlifeCore.Lists

/-!
# What a call can make of the Bookings

The life of Bookings, slots and Series as a small set of moves: a Series or a Booking is added,
Bookings are closed, a Series is closed, confirmed or expired.  A `Move` says what is written and
under which guard; it says nothing about how.  `Facility.MoveSpecs` shows that whatever a service
method commits, alone in the database, is a sequence of moves.
-/

namespace NewlifeCore

open Txn Prog RecurringBookingService

/-! ## 1. Databases -/

/-- The keys that the tables' constraints keep. -/
structure Db.Valid (db : Db) : Prop where
  bookingIds : (db.bookings.map Booking.id).Nodup
  seriesIds : (db.series.map BookingSeries.id).Nodup
  seriesOf : ∀ b ∈ db.bookings, ∀ sid, b.seriesId = some sid → ∃ s ∈ db.series, s.id = sid

theorem Db.Valid.empty {db : Db} (hb : db.bookings = []) (hs : db.series = []) : db.Valid where
  bookingIds := by rw [hb]; exact List.nodup_nil
  seriesIds := by rw [hs]; exact List.nodup_nil
  seriesOf := by rw [hb]; exact fun _ h => nomatch h

/-- Two rows of one Booking are the same row. -/
theorem Db.Valid.booking_eq {db : Db} (h : db.Valid) {a b : Booking} (ha : a ∈ db.bookings)
    (hb : b ∈ db.bookings) (hid : a.id = b.id) : a = b := List.inj_on_of_nodup_map h.bookingIds ha hb hid

theorem Db.Valid.series_eq {db : Db} (h : db.Valid) {a b : BookingSeries} (ha : a ∈ db.series)
    (hb : b ∈ db.series) (hid : a.id = b.id) : a = b := List.inj_on_of_nodup_map h.seriesIds ha hb hid

/-- A Series' columns rewritten, as `update_series` does. -/
def setSeries (sid : UUID) (values : BookingSeries → BookingSeries) (db : Db) : Db :=
  { db with series := db.series.map fun s => if s.id = sid && !s.isDeleted then values s else s }

/-- A rewriting of a Series row that sets its status. -/
structure SetsStatus (values : BookingSeries → BookingSeries) (status : BookingStatus) : Prop where
  id : ∀ s, (values s).id = s.id
  status : ∀ s, (values s).status = status
  isDeleted : ∀ s, (values s).isDeleted = s.isDeleted

/-- One Booking after its Series was confirmed. -/
def confirmBooking (sid : UUID) (operatorId : Option UUID) (b : Booking) : Booking :=
  if b.seriesId = some sid && b.status = .pendingPayment && !b.isDeleted then
    { b with status := .confirmed, updatedById := operatorId.orElse fun _ => b.updatedById }
  else b

/-- The Bookings after their Series was confirmed. -/
def confirmBookings (sid : UUID) (operatorId : Option UUID) (db : Db) : Db :=
  { db with bookings := db.bookings.map (confirmBooking sid operatorId) }

/-! ## 2. What a call asks for -/

/-- The key a slot and a room line share. -/
def BookingSlot.key (s : BookingSlot) : UUID × Int × Int := (s.facilityId, s.startAt, s.endAt)

def ResolvedBookingLine.key (line : ResolvedBookingLine) : UUID × Int × Int :=
  (line.facilityId, line.startAt, line.endAt)

/-- The room lines a call asks for a Booking it creates: those of its command, and for a Series
those of one of its dates. -/
def Call.Creates (c : Call) (b : Booking) (lines : List ResolvedBookingLine) : Prop :=
  match c.operation with
  | .createBooking command => b.id = c.request.ids.booking 0 ∧
      lines = resolveBookingLines command.rooms command.startAt command.endAt
  | .createSeries command => b.seriesId = some c.request.ids.series ∧
      (∃ d tz, d ∈ weeklyOccurrenceDates command.firstOccurrenceDate command.lastOccurrenceDate ∧
        d ∉ command.excludedDates ∧
        localizeWallTime d command.localStartTime tz = some b.startAt ∧
        localizeWallTime d command.localEndTime tz = some b.endAt) ∧
      lines = command.rooms.map fun room => ⟨room.facilityId, b.startAt, b.endAt, room.sequence⟩
  | _ => False

/-- The call cancels one Booking by its id, whatever its state, and its slots or not. -/
def Call.Cancels (c : Call) (id : UUID) (withSlots : Bool) : Prop :=
  match c.operation with
  | .cancelBooking bookingId command =>
    bookingId = id ∧ withSlots = decide (command.scope ≠ "series")
  | .cancelMyBooking bookingId command =>
    bookingId = id ∧ withSlots = decide (command.scope ≠ "series")
  | _ => False

/-! ## 3. Moves -/

/-- **One move of a call that began at `t`**, made by `t'`. -/
inductive Move (c : Call) (t t' : Int) : Db → Db → Prop where
  /-- Bookings, slots and Series are left alone. -/
  | frame {db db' : Db} (bookings : db'.bookings = db.bookings)
      (slots : db'.bookingSlots = db.bookingSlots) (series : db'.series = db.series) :
      Move c t t' db db'
  | addSeries {db : Db} (s : BookingSeries) (fresh : ∀ s' ∈ db.series, s'.id ≠ s.id) :
      Move c t t' db { db with series := db.series ++ [s] }
  | addBooking {db : Db} (b : Booking) (lines : List ResolvedBookingLine)
      (slots : List BookingSlot) (rooms : List BookingRoom)
      (fresh : ∀ b' ∈ db.bookings, b'.id ≠ b.id) (live : isLive b.status = true)
      (creates : c.Creates b lines)
      (series : ∀ sid, b.seriesId = some sid →
        ∃ s ∈ db.series, s.id = sid ∧ s.status = b.status)
      (booking : ∀ s ∈ slots, s.facilityBookingId = b.id ∧ s.status = .confirmed)
      (keys : slots.map BookingSlot.key = lines.map ResolvedBookingLine.key) :
      Move c t t' db { db with
        bookings := db.bookings ++ [b]
        bookingRooms := rooms
        bookingSlots := (db.bookingSlots.filter fun s => !decide (s.facilityBookingId = b.id)) ++
          slots }
  /-- Live Bookings that have not started are closed, with their slots. -/
  | close {db : Db} (cs : List Closing) (ends : ∀ k ∈ cs, k.Ends)
      (live : ∀ b ∈ db.bookings, b.id ∈ cs.map Closing.id →
        isLive b.status = true ∧ t < b.startAt) :
      Move c t t' db (closeDb cs (cs.map Closing.id) db)
  /-- The one cancellation that looks at nothing. -/
  | cancel {db : Db} (k : Closing) (withSlots : Bool) (ends : k.Ends)
      (asked : c.Cancels k.id withSlots) :
      Move c t t' db (closeDb [k] (if withSlots then [k.id] else []) db)
  /-- A Series is closed when nothing of it is still shown to come. -/
  | closeSeries {db : Db} (sid : UUID) (values : BookingSeries → BookingSeries) (τ : Int)
      (sets : SetsStatus values .cancelled) (time : τ ≤ t')
      (idle : ∀ b ∈ db.bookings, OccurrenceOf sid b → isLive b.status = true → b.shownStart ≤ τ) :
      Move c t t' db (setSeries sid values db)
  | confirm {db : Db} (sid : UUID) (values : BookingSeries → BookingSeries)
      (operatorId : Option UUID) (asked : c.operation = .confirmPayment sid)
      (sets : SetsStatus values .confirmed)
      (pending : ∃ s, SeriesRow db sid s ∧ s.status = .pendingPayment) :
      Move c t t' db (confirmBookings sid operatorId (setSeries sid values db))
  | expire {db : Db} (sid : UUID) (values : BookingSeries → BookingSeries) (cs : List Closing)
      (asked : c.operation = .expirePendingHolds) (sets : SetsStatus values .cancelled)
      (ends : ∀ k ∈ cs, k.Ends)
      (pending : ∃ s, SeriesRow db sid s ∧ s.status = .pendingPayment)
      (only : ∀ b ∈ db.bookings, b.id ∈ cs.map Closing.id → b.status = .pendingPayment)
      (all : ∀ b ∈ db.bookings, OccurrenceOf sid b → b.status = .pendingPayment →
        b.id ∈ cs.map Closing.id) :
      Move c t t' db (closeDb cs (cs.map Closing.id) (setSeries sid values db))

/-- What a call makes of the database: moves, one after another. -/
def Moves (c : Call) (t t' : Int) : Db → Db → Prop := Relation.ReflTransGen (Move c t t')

theorem Move.later {c : Call} {t t₁ t₂ : Int} {db db' : Db} (h : Move c t t₁ db db')
    (ht : t₁ ≤ t₂) : Move c t t₂ db db' := by
  cases h with
  | frame hb hs hr => exact .frame hb hs hr
  | addSeries s fresh => exact .addSeries s fresh
  | addBooking b lines slots rooms fresh live creates series booking keys =>
    exact .addBooking b lines slots rooms fresh live creates series booking keys
  | close cs ends live => exact .close cs ends live
  | cancel k withSlots ends asked => exact .cancel k withSlots ends asked
  | closeSeries sid values τ sets time idle =>
    exact .closeSeries sid values τ sets (le_trans time ht) idle
  | confirm sid values operatorId asked sets pending =>
    exact .confirm sid values operatorId asked sets pending
  | expire sid values cs asked sets ends pending only all =>
    exact .expire sid values cs asked sets ends pending only all

theorem Moves.later {c : Call} {t t₁ t₂ : Int} {db db' : Db} (h : Moves c t t₁ db db')
    (ht : t₁ ≤ t₂) : Moves c t t₂ db db' := Relation.ReflTransGen.mono (fun _ _ h => h.later ht) _ _ h

theorem Moves.refl {c : Call} {t t' : Int} (db : Db) : Moves c t t' db db :=
  Relation.ReflTransGen.refl

theorem Moves.trans {c : Call} {t t' : Int} {db₁ db₂ db₃ : Db} (h₁ : Moves c t t' db₁ db₂)
    (h₂ : Moves c t t' db₂ db₃) : Moves c t t' db₁ db₃ := Relation.ReflTransGen.trans h₁ h₂

theorem Moves.tail {c : Call} {t t' : Int} {db₁ db₂ db₃ : Db} (h₁ : Moves c t t' db₁ db₂)
    (h₂ : Move c t t' db₂ db₃) : Moves c t t' db₁ db₃ := Relation.ReflTransGen.tail h₁ h₂

theorem Moves.single {c : Call} {t t' : Int} {db₁ db₂ : Db} (h : Move c t t' db₁ db₂) :
    Moves c t t' db₁ db₂ := Relation.ReflTransGen.single h

/-! ## 4. Moves keep the keys -/

theorem confirmBooking_same (sid : UUID) (operatorId : Option UUID) (b : Booking) :
    SameBooking b (confirmBooking sid operatorId b) := by
  unfold confirmBooking
  split <;> rfl

/-- Rewriting rows in their header columns keeps the keys. -/
theorem Db.Valid.rewrite {db db' : Db} (h : db.Valid) {f : Booking → Booking}
    {g : BookingSeries → BookingSeries} (hb : db'.bookings = db.bookings.map f)
    (hs : db'.series = db.series.map g) (hf : ∀ b, SameBooking b (f b))
    (hg : ∀ s, (g s).id = s.id) : db'.Valid where
  bookingIds := by
    have hid : Booking.id ∘ f = Booking.id := funext fun b => (hf b).id
    rw [hb, List.map_map, hid]
    exact h.bookingIds
  seriesIds := by
    have hid : BookingSeries.id ∘ g = BookingSeries.id := funext hg
    rw [hs, List.map_map, hid]
    exact h.seriesIds
  seriesOf := by
    intro b hmem sid hsid
    rw [hb] at hmem
    obtain ⟨b₀, hb₀, rfl⟩ := List.mem_map.mp hmem
    obtain ⟨s, hs₀, rfl⟩ := h.seriesOf b₀ hb₀ sid ((hf b₀).seriesId ▸ hsid)
    exact ⟨g s, hs ▸ List.mem_map_of_mem hs₀, hg s⟩

/-- The rewriting of one Series row. -/
def setSeriesRow (sid : UUID) (values : BookingSeries → BookingSeries) (s : BookingSeries) :
    BookingSeries := if s.id = sid && !s.isDeleted then values s else s

theorem setSeriesRow_id {values : BookingSeries → BookingSeries} {status : BookingStatus}
    (h : SetsStatus values status) (sid : UUID) (s : BookingSeries) :
    (setSeriesRow sid values s).id = s.id := by
  unfold setSeriesRow
  split
  · exact h.id s
  · rfl

/-- **A move keeps the keys.** -/
theorem Move.valid {c : Call} {t t' : Int} {db db' : Db} (h : Move c t t' db db')
    (hv : db.Valid) : db'.Valid := by
  cases h with
  | frame hb hs hr =>
    constructor
    · rw [hb]; exact hv.bookingIds
    · rw [hr]; exact hv.seriesIds
    · rw [hb, hr]; exact hv.seriesOf
  | addSeries s fresh =>
    refine ⟨hv.bookingIds, nodup_snoc hv.seriesIds fresh, fun b hb sid hsid => ?_⟩
    obtain ⟨s', hs', hid⟩ := hv.seriesOf b hb sid hsid
    exact ⟨s', List.mem_append_left _ hs', hid⟩
  | addBooking b lines slots rooms fresh live creates series booking keys =>
    refine ⟨nodup_snoc hv.bookingIds fresh, hv.seriesIds, fun b' hb' sid hsid => ?_⟩
    rcases List.mem_append.mp hb' with hb' | hb'
    · exact hv.seriesOf b' hb' sid hsid
    · rw [List.mem_singleton.mp hb'] at hsid
      obtain ⟨s, hs, hid, -⟩ := series sid hsid
      exact ⟨s, hs, hid⟩
  | close cs ends live =>
    exact hv.rewrite (f := closeAll cs) (g := id) rfl (List.map_id _).symm (closeAll_same cs)
      fun _ => rfl
  | cancel k withSlots ends asked =>
    exact hv.rewrite (f := closeAll [k]) (g := id) rfl (List.map_id _).symm (closeAll_same [k])
      fun _ => rfl
  | closeSeries sid values τ sets time idle =>
    exact hv.rewrite (f := id) (g := setSeriesRow sid values) (List.map_id _).symm rfl
      SameBooking.refl (setSeriesRow_id sets sid)
  | confirm sid values operatorId asked sets pending =>
    exact hv.rewrite (f := confirmBooking sid operatorId) (g := setSeriesRow sid values) rfl rfl
      (confirmBooking_same sid operatorId) (setSeriesRow_id sets sid)
  | expire sid values cs asked sets ends pending only all =>
    exact hv.rewrite (f := closeAll cs) (g := setSeriesRow sid values) rfl rfl (closeAll_same cs)
      (setSeriesRow_id sets sid)

theorem Moves.valid {c : Call} {t t' : Int} {db db' : Db} (h : Moves c t t' db db')
    (hv : db.Valid) : db'.Valid := by
  induction h with
  | refl => exact hv
  | tail _ hm ih => exact hm.valid ih

/-- What every move keeps, a call keeps. -/
theorem Moves.keeps {c : Call} {t t' : Int} {I : Db → Prop}
    (hstep : ∀ {db db'}, db.Valid → I db → Move c t t' db db' → I db') {db db' : Db}
    (h : Moves c t t' db db') (hv : db.Valid) (hI : I db) : I db' := by
  suffices db'.Valid ∧ I db' from this.2
  induction h with
  | refl => exact ⟨hv, hI⟩
  | tail _ hm ih => exact ⟨hm.valid ih.1, hstep ih.1 ih.2 hm⟩

end NewlifeCore
