import NewlifeCore.Facility.OverrideEffect
import NewlifeCore.Txn.Guarantee

/-!
# Who occupies the rooms

Occupancy as one relation between a Booking and a room interval, and what the writes of a call may
make of it in any database they are applied to.  A call reworks the Bookings, slots and Series that
are there, which takes occupancy away but for the two statements that give a Series' unpaid
Bookings a new lease; and a creation adds rows of its own.
-/

namespace NewlifeCore

open Txn Prog RecurringBookingService

/-! ## 1. Occupancy -/

/-- A Booking occupies a room interval: a confirmed slot of an active Booking. -/
def Occupies (db : Db) (n : Int) (id : UUID) (k : UUID × Int × Int) : Prop :=
  ∃ s ∈ db.bookingSlots, ∃ b ∈ db.bookings, s.facilityBookingId = b.id ∧ b.id = id ∧ s.key = k ∧
    s.status = .confirmed ∧ b.isDeleted = false ∧ activeOccupancy db n b = true

/-- Two room intervals share a moment of one room. -/
def Coincide (k k' : UUID × Int × Int) : Prop :=
  k.1 = k'.1 ∧ overlaps k.2.1 k.2.2 k'.2.1 k'.2.2 = true

theorem Coincide.symm {k k' : UUID × Int × Int} (h : Coincide k k') : Coincide k' k := by
  refine ⟨h.1.symm, ?_⟩
  have := h.2
  simp only [overlaps, Bool.and_eq_true, decide_eq_true_eq] at this ⊢
  omega

/-- **No two Bookings occupy one room at overlapping times.** -/
def RoomsExclusive (db : Db) (n : Int) : Prop :=
  ∀ id id' k k', Occupies db n id k → Occupies db n id' k' → Coincide k k' → id = id'

theorem holdRunning_earlier {hold : Option Int} {n n' : Int} (hn : n ≤ n')
    (h : holdRunning hold n' = true) : holdRunning hold n = true := by
  cases hold with
  | none => rfl
  | some x =>
    simp only [holdRunning, decide_eq_true_eq] at h ⊢
    omega

/-- Occupancy only lapses with time. -/
theorem Occupies.earlier {db : Db} {n n' : Int} {id : UUID} {k : UUID × Int × Int} (hn : n ≤ n')
    (h : Occupies db n' id k) : Occupies db n id k := by
  obtain ⟨s, hs, b, hb, hsb, hid, hk, hst, hdel, hact⟩ := h
  refine ⟨s, hs, b, hb, hsb, hid, hk, hst, hdel, ?_⟩
  simp only [activeOccupancy, Bool.or_eq_true, Bool.and_eq_true] at hact ⊢
  exact hact.imp (fun h => h) fun h => ⟨h.1, holdRunning_earlier hn h.2⟩

theorem RoomsExclusive.later {db : Db} {n n' : Int} (hn : n ≤ n') (h : RoomsExclusive db n) :
    RoomsExclusive db n' := fun id id' k k' h₁ h₂ hc =>
  h id id' k k' (h₁.earlier hn) (h₂.earlier hn) hc

/-- Who occupies an interval that clashes with a line is an occupant of the line. -/
theorem Occupies.occupant {db : Db} {n : Int} {id facilityId : UUID} {startAt endAt : Int}
    {k : UUID × Int × Int} (h : Occupies db n id k) (hc : Coincide k (facilityId, startAt, endAt)) :
    ∃ r, Occupant db n facilityId startAt endAt r ∧ r.2.id = id := by
  obtain ⟨s, hs, b, hb, hsb, hid, rfl, hst, hdel, hact⟩ := h
  exact ⟨(s, b), mem_occupyingRows.mpr ⟨hs, hb, hsb, hc.1, hst, hc.2, hdel, hact⟩, hid⟩

/-! ## 2. Reworking what is there -/

/-- The calls that clear the payment hold of a Series. -/
def Call.clearsHolds (c : Call) : Bool :=
  match c.operation with
  | .confirmPayment _ => true
  | .cancelSeries _ _ => true
  | .cancelMySeries _ _ => true
  | .createBlackout _ => true
  | _ => false

/-- What a call makes of a Booking: it is closed, or confirmed with its Series. -/
structure ReworkedFrom (c : Call) (b b' : Booking) : Prop where
  same : SameBooking b b'
  status : b'.status = b.status ∨ isLive b'.status = false ∨
    b.status = .pendingPayment ∧ b'.status = .confirmed ∧
      ∃ sid, b.seriesId = some sid ∧ c.operation = .confirmPayment sid

/-- **What a call that adds no row makes of a database**, with the rows it locked. -/
structure Reworked (c : Call) (rows : List RowName) (db db' : Db) : Prop where
  each : List.Forall₂ (ReworkedFrom c) db.bookings db'.bookings
  slots : ∀ s' ∈ db'.bookingSlots, ∃ s ∈ db.bookingSlots,
    s'.facilityBookingId = s.facilityBookingId ∧ s'.key = s.key ∧
      (s'.status = .confirmed → s.status = .confirmed)
  seriesIds : db'.series.map BookingSeries.id = db.series.map BookingSeries.id
  series : ∀ r' ∈ db'.series, ∃ r ∈ db.series, r'.id = r.id ∧
    (r'.paymentHoldExpiresAt = r.paymentHoldExpiresAt ∨
      c.clearsHolds = true ∧ .series r.id ∈ rows)
  settings : db'.settings = db.settings

/-- A slot of the same Booking, room and interval is there. -/
def SlotStays (db : Db) (s : BookingSlot) : Prop :=
  ∃ s' ∈ db.bookingSlots, s'.facilityBookingId = s.facilityBookingId ∧ s'.key = s.key

/-- **Rows rewritten in place**: no slot goes, either. -/
structure Rewritten (c : Call) (rows : List RowName) (db db' : Db) : Prop
    extends Reworked c rows db db' where
  stays : ∀ s ∈ db.bookingSlots, SlotStays db' s

variable {c : Call} {rows rows' : List RowName} {db db₁ db₂ db₃ db' : Db} {n : Int}

theorem ReworkedFrom.refl (b : Booking) : ReworkedFrom c b b := ⟨.refl b, .inl rfl⟩

theorem ReworkedFrom.trans {b₁ b₂ b₃ : Booking} (h₁ : ReworkedFrom c b₁ b₂)
    (h₂ : ReworkedFrom c b₂ b₃) : ReworkedFrom c b₁ b₃ where
  same := h₁.same.trans h₂.same
  status := by
    rcases h₂.status with h | h | ⟨hp, hc, sid, hsid, hop⟩
    · rw [h]; exact h₁.status
    · exact .inr (.inl h)
    · rcases h₁.status with h | h | ⟨-, hc', -⟩
      · exact .inr (.inr ⟨h ▸ hp, hc, sid, h₁.same.seriesId ▸ hsid, hop⟩)
      · rw [hp] at h; cases h
      · rw [hp] at hc'; cases hc'

/-- A closed Booking stays closed. -/
theorem ReworkedFrom.closed {b b' : Booking} (h : ReworkedFrom c b b')
    (hb : isLive b.status = false) : isLive b'.status = false := by
  rcases h.status with h | h | ⟨hp, -⟩
  · rw [h]; exact hb
  · exact h
  · rw [hp] at hb; cases hb

namespace Reworked

theorem bookingIds (h : Reworked c rows db db') :
    db'.bookings.map Booking.id = db.bookings.map Booking.id :=
  map_eq_map_of_forall₂ h.each fun _ _ hre => hre.same.id

theorem bookings (h : Reworked c rows db db') :
    ∀ b' ∈ db'.bookings, ∃ b ∈ db.bookings, ReworkedFrom c b b' :=
  fun _ hb' => exists_related_left h.each hb'

theorem refl (rows : List RowName) (db : Db) : Reworked c rows db db where
  each := List.forall₂_same.mpr fun b _ => .refl b
  slots s hs := ⟨s, hs, rfl, rfl, id⟩
  seriesIds := rfl
  series r hr := ⟨r, hr, rfl, .inl rfl⟩
  settings := rfl

theorem trans (h₁ : Reworked c rows db₁ db₂) (h₂ : Reworked c rows db₂ db₃) :
    Reworked c rows db₁ db₃ where
  each := forall₂_trans (fun _ _ _ h h' => h.trans h') h₁.each h₂.each
  slots s₃ hs₃ := by
    obtain ⟨s₂, hs₂, hid, hk, hst⟩ := h₂.slots s₃ hs₃
    obtain ⟨s₁, hs₁, hid', hk', hst'⟩ := h₁.slots s₂ hs₂
    exact ⟨s₁, hs₁, hid.trans hid', hk.trans hk', fun h => hst' (hst h)⟩
  seriesIds := h₂.seriesIds.trans h₁.seriesIds
  series r₃ hr₃ := by
    obtain ⟨r₂, hr₂, hid, hhold⟩ := h₂.series r₃ hr₃
    obtain ⟨r₁, hr₁, hid', hhold'⟩ := h₁.series r₂ hr₂
    refine ⟨r₁, hr₁, hid.trans hid', ?_⟩
    rcases hhold with h | h
    · rw [h]; exact hhold'
    · exact .inr (hid' ▸ h)
  settings := h₂.settings.trans h₁.settings

theorem mono (hsub : rows ⊆ rows') (h : Reworked c rows db db') : Reworked c rows' db db' :=
  { h with
    series := fun r' hr' =>
      let ⟨r, hr, hid, hhold⟩ := h.series r' hr'
      ⟨r, hr, hid, hhold.imp id fun ⟨hc, hl⟩ => ⟨hc, hsub hl⟩⟩ }

end Reworked

theorem SlotStays.trans {s s' : BookingSlot} (hs' : s'.facilityBookingId = s.facilityBookingId)
    (hk : s'.key = s.key) (h : SlotStays db s') : SlotStays db s := by
  obtain ⟨s'', hs'', hid, hk'⟩ := h
  exact ⟨s'', hs'', hid.trans hs', hk'.trans hk⟩

/-- Bookings rewritten, one row for one. -/
theorem Rewritten.of_map {f : Booking → Booking} {g : BookingSlot → BookingSlot}
    {h : BookingSeries → BookingSeries} (hb : db'.bookings = db.bookings.map f)
    (hs : db'.bookingSlots = db.bookingSlots.map g) (hr : db'.series = db.series.map h)
    (hset : db'.settings = db.settings) (hf : ∀ b, ReworkedFrom c b (f b))
    (hg : ∀ s, g s = s ∨ g s = { s with status := .cancelled })
    (hh : ∀ r, (h r).id = r.id ∧ ((h r).paymentHoldExpiresAt = r.paymentHoldExpiresAt ∨
      c.clearsHolds = true ∧ .series r.id ∈ rows)) : Rewritten c rows db db' where
  each := by
    rw [hb, List.forall₂_map_right_iff]
    exact List.forall₂_same.mpr fun b _ => hf b
  slots s' hs' := by
    rw [hs] at hs'
    obtain ⟨s, hmem, rfl⟩ := List.mem_map.mp hs'
    refine ⟨s, hmem, ?_⟩
    rcases hg s with he | he <;> rw [he]
    · exact ⟨rfl, rfl, id⟩
    · exact ⟨rfl, rfl, fun h => by cases h⟩
  seriesIds := by
    rw [hr, List.map_map]
    exact List.map_congr_left fun r _ => (hh r).1
  series r' hr' := by
    rw [hr] at hr'
    obtain ⟨r, hmem, rfl⟩ := List.mem_map.mp hr'
    exact ⟨r, hmem, hh r⟩
  settings := hset
  stays s hs' := by
    refine ⟨g s, hs ▸ List.mem_map_of_mem hs', ?_⟩
    rcases hg s with he | he <;> rw [he]
    · exact ⟨rfl, rfl⟩
    · exact ⟨rfl, rfl⟩

/-- Bookings, slots and Series left alone. -/
theorem Rewritten.of_frame (hb : db'.bookings = db.bookings)
    (hs : db'.bookingSlots = db.bookingSlots) (hr : db'.series = db.series)
    (hset : db'.settings = db.settings) : Rewritten c rows db db' :=
  .of_map (f := id) (g := id) (h := id) (hb.trans (List.map_id _).symm)
    (hs.trans (List.map_id _).symm) (hr.trans (List.map_id _).symm) hset .refl
    (fun _ => .inl rfl) fun _ => ⟨rfl, .inl rfl⟩

/-- **Rewriting, as what a transaction leaves to the others.** -/
def reworking (c : Call) : Guarantee Db RowName where
  rel := Rewritten c
  refl _ _ := .of_frame rfl rfl rfl rfl
  trans h₁ h₂ := {
    toReworked := h₁.toReworked.trans h₂.toReworked
    stays := fun s hs =>
      let ⟨s₁, hs₁, hid, hk⟩ := h₁.stays s hs
      (h₂.stays s₁ hs₁).trans hid hk }
  mono hsub h := ⟨h.toReworked.mono hsub, h.stays⟩

/-! ## 3. Rework frees rooms -/

/-- The payment holds that a call may have cleared are running. -/
def HoldsRunning (c : Call) (rows : List RowName) (db : Db) (n : Int) : Prop :=
  c.clearsHolds = true → ∀ r ∈ db.series,
    .series r.id ∈ rows ∨ c.operation = .confirmPayment r.id →
      holdRunning r.paymentHoldExpiresAt n = true

theorem paymentHold_alone {b : Booking} (hb : b.seriesId = none) : paymentHold db b = none := by
  have : (db.series.find? fun s => b.seriesId = some s.id) = none := by
    rw [List.find?_eq_none]
    exact fun s _ => by simp [hb]
  rw [paymentHold, this]
  rfl

theorem paymentHold_of_mem (hv : (db.series.map BookingSeries.id).Nodup) {b : Booking}
    {r : BookingSeries} (hr : r ∈ db.series) (hb : b.seriesId = some r.id) :
    paymentHold db b = r.paymentHoldExpiresAt := by
  unfold paymentHold
  cases hf : db.series.find? fun s => b.seriesId = some s.id with
  | none =>
    have := List.find?_eq_none.mp hf r hr
    simp [hb] at this
  | some r' =>
    have hid : b.seriesId = some r'.id := by simpa using List.find?_some hf
    rw [hb] at hid
    have : r' = r := List.inj_on_of_nodup_map hv (List.mem_of_find?_eq_some hf) hr
      (Option.some.inj hid).symm
    rw [this]
    rfl

/-- **Reworking occupies nothing new**, as long as the holds it cleared were running. -/
theorem Reworked.occupies (h : Reworked c rows db db') (hv : db.Valid)
    (hruns : HoldsRunning c rows db n) {id : UUID} {k : UUID × Int × Int}
    (hocc : Occupies db' n id k) : Occupies db n id k := by
  obtain ⟨s', hs', b', hb', hsb, hid, hk, hst, hdel, hact⟩ := hocc
  obtain ⟨s, hs, hfb, hkey, hconf⟩ := h.slots s' hs'
  obtain ⟨b, hb, hre⟩ := h.bookings b' hb'
  refine ⟨s, hs, b, hb, ?_, hre.same.id ▸ hid, hkey ▸ hk, hconf hst, hre.same.isDeleted ▸ hdel, ?_⟩
  · rw [← hfb, hsb, hre.same.id]
  -- the Booking's hold runs whenever the reworked Booking's does
  have hrunning : holdRunning (paymentHold db' b') n = true →
      holdRunning (paymentHold db b) n = true := by
    intro hrun
    cases hsid : b.seriesId with
    | none => rw [paymentHold_alone hsid]; rfl
    | some sid =>
      obtain ⟨r, hr, rfl⟩ := hv.seriesOf b hb sid hsid
      rw [paymentHold_of_mem hv.seriesIds hr hsid]
      have hmem : r.id ∈ db'.series.map BookingSeries.id := by
        rw [h.seriesIds]
        exact List.mem_map_of_mem hr
      obtain ⟨r', hr', hrid'⟩ := List.mem_map.mp hmem
      have hv' : (db'.series.map BookingSeries.id).Nodup := h.seriesIds ▸ hv.seriesIds
      rw [paymentHold_of_mem hv' hr' (by rw [hre.same.seriesId, hsid, hrid'])] at hrun
      obtain ⟨r₀, hr₀, hid₀, hhold⟩ := h.series r' hr'
      obtain rfl : r₀ = r := hv.series_eq hr₀ hr (hid₀.symm.trans hrid')
      rcases hhold with he | ⟨hclears, hlocked⟩
      · rwa [he] at hrun
      · exact hruns hclears _ hr (.inl hlocked)
  simp only [activeOccupancy, Bool.or_eq_true, Bool.and_eq_true, decide_eq_true_eq] at hact ⊢
  rcases hre.status with he | hdead | ⟨hpending, -, sid, hsid, hop⟩
  · rw [he] at hact
    exact hact.imp (fun h => h) fun h => ⟨h.1, hrunning h.2⟩
  · rcases hact with hc | ⟨hp, -⟩
    · rw [hc] at hdead; cases hdead
    · rw [hp] at hdead; cases hdead
  · obtain ⟨r, hr, rfl⟩ := hv.seriesOf b hb sid hsid
    rw [paymentHold_of_mem hv.seriesIds hr hsid]
    have hclears : c.clearsHolds = true := by simp [Call.clearsHolds, hop]
    exact .inr ⟨hpending, hruns hclears r hr (.inr hop)⟩

theorem Reworked.valid (h : Reworked c rows db db') (hv : db.Valid) : db'.Valid where
  bookingIds := h.bookingIds ▸ hv.bookingIds
  seriesIds := h.seriesIds ▸ hv.seriesIds
  seriesOf b' hb' sid hsid := by
    obtain ⟨b, hb, hre⟩ := h.bookings b' hb'
    obtain ⟨r, hr, hid⟩ := hv.seriesOf b hb sid (hre.same.seriesId ▸ hsid)
    have hmem : sid ∈ db'.series.map BookingSeries.id := by
      rw [h.seriesIds]
      exact List.mem_map.mpr ⟨r, hr, hid⟩
    exact List.mem_map.mp hmem

theorem Reworked.slotsOwned (h : Reworked c rows db db') (hdb : db.SlotsOwned) :
    db'.SlotsOwned := by
  intro s' hs'
  obtain ⟨s, hs, hfb, -, -⟩ := h.slots s' hs'
  obtain ⟨b, hb, hid⟩ := hdb s hs
  have hmem : s'.facilityBookingId ∈ db'.bookings.map Booking.id := by
    rw [h.bookingIds, hfb]
    exact List.mem_map.mpr ⟨b, hb, hid⟩
  exact List.mem_map.mp hmem

/-! ## 4. Adding rows -/

/-- The Bookings, slots and Series that a creation adds. -/
structure Addition where
  bookings : List Booking := []
  slots : List BookingSlot := []
  series : List BookingSeries := []

/-- A database with some rows more. -/
def Db.add (db : Db) (e : Addition) : Db :=
  { db with
    bookings := db.bookings ++ e.bookings
    bookingSlots := db.bookingSlots ++ e.slots
    series := db.series ++ e.series }

def Addition.and (e e' : Addition) : Addition :=
  ⟨e.bookings ++ e'.bookings, e.slots ++ e'.slots, e.series ++ e'.series⟩

theorem Db.add_and (db : Db) (e e' : Addition) : db.add (e.and e') = (db.add e).add e' := by
  simp [Db.add, Addition.and]

theorem Db.add_nothing (db : Db) : db.add {} = db := by simp [Db.add]

/-- Rows added after a rework could have been added before it. -/
theorem Reworked.add (h : Reworked c rows db db') (e : Addition) :
    Reworked c rows (db.add e) (db'.add e) where
  each := List.rel_append h.each (List.forall₂_same.mpr fun b _ => .refl b)
  slots s' hs' := by
    rcases List.mem_append.mp hs' with hs' | hs'
    · obtain ⟨s, hs, hre⟩ := h.slots s' hs'
      exact ⟨s, List.mem_append_left _ hs, hre⟩
    · exact ⟨s', List.mem_append_right _ hs', rfl, rfl, id⟩
  seriesIds := by simp only [Db.add, List.map_append, h.seriesIds]
  series r' hr' := by
    rcases List.mem_append.mp hr' with hr' | hr'
    · obtain ⟨r, hr, hre⟩ := h.series r' hr'
      exact ⟨r, List.mem_append_left _ hr, hre⟩
    · exact ⟨r', List.mem_append_right _ hr', rfl, .inl rfl⟩
  settings := h.settings

/-- The rows of an addition are new, and refer to rows that are there. -/
structure Addition.Fits (e : Addition) (db : Db) : Prop where
  bookingIds : (e.bookings.map Booking.id).Nodup
  fresh : ∀ b ∈ e.bookings, ∀ b' ∈ db.bookings, b'.id ≠ b.id
  seriesIds : (e.series.map BookingSeries.id).Nodup
  freshSeries : ∀ r ∈ e.series, ∀ r' ∈ db.series, r'.id ≠ r.id
  seriesOf : ∀ b ∈ e.bookings, ∀ sid, b.seriesId = some sid → ∃ r ∈ e.series, r.id = sid
  owned : ∀ s ∈ e.slots, ∃ b ∈ e.bookings, b.id = s.facilityBookingId

namespace Addition.Fits

variable {e : Addition} (h : e.Fits db)
include h

theorem valid (hv : db.Valid) : (db.add e).Valid where
  bookingIds := by
    rw [Db.add, List.map_append, List.nodup_append]
    refine ⟨hv.bookingIds, h.bookingIds, fun x hx y hy hxy => ?_⟩
    obtain ⟨b', hb', rfl⟩ := List.mem_map.mp hx
    obtain ⟨b, hb, rfl⟩ := List.mem_map.mp hy
    exact h.fresh b hb b' hb' hxy
  seriesIds := by
    rw [Db.add, List.map_append, List.nodup_append]
    refine ⟨hv.seriesIds, h.seriesIds, fun x hx y hy hxy => ?_⟩
    obtain ⟨r', hr', rfl⟩ := List.mem_map.mp hx
    obtain ⟨r, hr, rfl⟩ := List.mem_map.mp hy
    exact h.freshSeries r hr r' hr' hxy
  seriesOf b hb sid hsid := by
    rcases List.mem_append.mp hb with hb | hb
    · obtain ⟨r, hr, hid⟩ := hv.seriesOf b hb sid hsid
      exact ⟨r, List.mem_append_left _ hr, hid⟩
    · obtain ⟨r, hr, hid⟩ := h.seriesOf b hb sid hsid
      exact ⟨r, List.mem_append_right _ hr, hid⟩

theorem slotsOwned (hdb : db.SlotsOwned) : (db.add e).SlotsOwned := by
  intro s hs
  rcases List.mem_append.mp hs with hs | hs
  · obtain ⟨b, hb, hid⟩ := hdb s hs
    exact ⟨b, List.mem_append_left _ hb, hid⟩
  · obtain ⟨b, hb, hid⟩ := h.owned s hs
    exact ⟨b, List.mem_append_right _ hb, hid⟩

/-- **Who occupies a room after the addition** did so before, or does it by one of the new slots. -/
theorem occupies (hv : db.Valid) (hdb : db.SlotsOwned) {id : UUID} {k : UUID × Int × Int}
    (hocc : Occupies (db.add e) n id k) : Occupies db n id k ∨
      ∃ s ∈ e.slots, s.key = k ∧ s.facilityBookingId = id ∧ ∀ b' ∈ db.bookings, b'.id ≠ id := by
  obtain ⟨s, hs, b, hb, hsb, rfl, rfl, hst, hdel, hact⟩ := hocc
  rcases List.mem_append.mp hs with hs | hs
  · obtain ⟨b₀, hb₀, hid⟩ := hdb s hs
    obtain rfl : b₀ = b := (h.valid hv).booking_eq (List.mem_append_left _ hb₀) hb (hid.trans hsb)
    refine .inl ⟨s, hs, b₀, hb₀, hsb, rfl, rfl, hst, hdel, ?_⟩
    -- an old Booking's Series is old
    have hhold : paymentHold (db.add e) b₀ = paymentHold db b₀ := by
      cases hsid : b₀.seriesId with
      | none => rw [paymentHold_alone hsid, paymentHold_alone hsid]
      | some sid =>
        obtain ⟨r, hr, rfl⟩ := hv.seriesOf b₀ hb₀ sid hsid
        rw [paymentHold_of_mem hv.seriesIds hr hsid,
          paymentHold_of_mem (h.valid hv).seriesIds (List.mem_append_left _ hr) hsid]
    rwa [activeOccupancy, hhold] at hact
  · obtain ⟨b₀, hb₀, hid⟩ := h.owned s hs
    exact .inr ⟨s, hs, rfl, hsb, fun b' hb' => hsb ▸ hid ▸ h.fresh b₀ hb₀ b' hb'⟩

end Addition.Fits

end NewlifeCore
