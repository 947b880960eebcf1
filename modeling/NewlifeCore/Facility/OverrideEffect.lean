import NewlifeCore.Facility.Moves
import NewlifeCore.Facility.OverrideTargets
import NewlifeCore.Facility.Serial

/-!
# What a creation does to the Bookings that were there

A creation inserts Bookings with their slots and displaces the Rental Bookings it collides with.
The effect is stated table by table: what the rows that were there become, and what is added.
-/

namespace NewlifeCore

open Txn Prog RecurringBookingService

/-! ## 1. The effect -/

/-- Every slot belongs to a Booking: the foreign key of `booking_slot`. -/
def Db.SlotsOwned (db : Db) : Prop :=
  ∀ s ∈ db.bookingSlots, ∃ b ∈ db.bookings, b.id = s.facilityBookingId

/-- The slots displace the Booking: a Rental Booking that has not started, and occupies a room
during one of them. -/
def displacedBy (db : Db) (n : Int) (slots : List BookingSlot) (b : Booking) : Bool :=
  b.ministryId.isNone && decide (n < b.startAt) && slots.any fun s =>
    (occupyingRows db n s.facilityId s.startAt s.endAt).any fun r => r.2.id = b.id

theorem displacedBy_iff {db : Db} {n : Int} {slots : List BookingSlot} {b : Booking} :
    displacedBy db n slots b = true ↔ b.ministryId = none ∧ n < b.startAt ∧
      ∃ s ∈ slots, ∃ r, Occupant db n s.facilityId s.startAt s.endAt r ∧ r.2.id = b.id := by
  simp only [displacedBy, Bool.and_eq_true, Option.isNone_iff_eq_none, decide_eq_true_eq,
    List.any_eq_true, and_assoc]

/-- A Booking displaced by an operator. -/
def overriddenBy (operatorId : UUID) (n : Int) (b : Booking) : Booking :=
  { b with status := .overridden, cancelledAt := some n, cancelledById := some operatorId,
           cancelReason := some priorityOverrideReason }

/-- What an audit row is about: the replacement, the displaced Booking and the room. -/
def BookingOverrideLog.triple (l : BookingOverrideLog) : UUID × UUID × UUID :=
  (l.facilityBookingId, l.overriddenBookingId, l.facilityId)

/-- **The effect of new Bookings on a database**: exactly the Bookings their slots displace are
overridden, with all their slots; one audit row a replacement, displaced Booking and room; and
afterwards the new slots are free of other Bookings. -/
structure PriorityEffect (db : Db) (n : Int) (operatorId : UUID) (new : List Booking)
    (slots : List BookingSlot) (logs : List BookingOverrideLog) (db' : Db) : Prop where
  bookings : db'.bookings = db.bookings.map (fun b =>
    if displacedBy db n slots b then overriddenBy operatorId n b else b) ++ new
  bookingSlots : db'.bookingSlots = db.bookingSlots.map (fun s =>
    if db.bookings.any fun b => s.facilityBookingId = b.id && displacedBy db n slots b then
      { s with status := .cancelled } else s) ++ slots
  overrideLogs : db'.overrideLogs = db.overrideLogs ++ logs
  logged : ∀ x id room, (x, id, room) ∈ logs.map BookingOverrideLog.triple ↔
    ∃ s ∈ slots, s.facilityBookingId = x ∧ s.facilityId = room ∧
      ∃ r, Occupant db n s.facilityId s.startAt s.endAt r ∧ r.2.id = id ∧
        displacedBy db n slots r.2 = true
  loggedOnce : (logs.map BookingOverrideLog.triple).Nodup
  clear : ∀ s ∈ slots, ∀ r, Occupant db' n s.facilityId s.startAt s.endAt r →
    r.2.id = s.facilityBookingId
  blackouts : db'.blackouts = db.blackouts

/-! ## 2. Insertion -/

/-- Bookings were added, each with slots for the lines asked for, and nothing that was there
changed. -/
structure Inserted (asks : Booking → List ResolvedBookingLine → Prop) (db : Db)
    (new : List Booking) (slots : List BookingSlot) (db' : Db) : Prop where
  bookings : db'.bookings = db.bookings ++ new
  bookingSlots : db'.bookingSlots = db.bookingSlots ++ slots
  overrideLogs : db'.overrideLogs = db.overrideLogs
  blackouts : db'.blackouts = db.blackouts
  series : ∃ added, db'.series = db.series ++ added
  fresh : ∀ b ∈ new, ∀ b' ∈ db.bookings, b'.id ≠ b.id
  ids : (new.map Booking.id).Nodup
  owned : ∀ s ∈ slots, ∃ b ∈ new, b.id = s.facilityBookingId
  asked : ∀ b ∈ new, ∃ lines, asks b lines ∧
    (slots.filter fun s => s.facilityBookingId = b.id).map BookingSlot.key =
      lines.map ResolvedBookingLine.key

section Inserted

variable {asks : Booking → List ResolvedBookingLine → Prop}

theorem Inserted.nothing {db db' : Db} (hb : db'.bookings = db.bookings)
    (hs : db'.bookingSlots = db.bookingSlots) (hl : db'.overrideLogs = db.overrideLogs)
    (hbl : db'.blackouts = db.blackouts) {added : List BookingSeries}
    (hse : db'.series = db.series ++ added) : Inserted asks db [] [] db' where
  bookings := by rw [hb, List.append_nil]
  bookingSlots := by rw [hs, List.append_nil]
  overrideLogs := hl
  blackouts := hbl
  series := ⟨added, hse⟩
  fresh := by simp
  ids := List.nodup_nil
  owned := by simp
  asked := by simp

theorem Inserted.step {db db₁ : Db} {new : List Booking} {slots slots' : List BookingSlot}
    {b : Booking} {rooms : List BookingRoom} {lines : List ResolvedBookingLine}
    (h : Inserted asks db new slots db₁) (hdb : db.SlotsOwned)
    (hb : BookingInsertable b rooms slots' db₁)
    (hslots : ∀ s ∈ slots', s.facilityBookingId = b.id) (hasks : asks b lines)
    (hkeys : slots'.map BookingSlot.key = lines.map ResolvedBookingLine.key) :
    Inserted asks db (new ++ [b]) (slots ++ slots') (withBooking b rooms slots' db₁) := by
  have hfresh := hb.fresh
  rw [h.bookings] at hfresh
  -- no slot was there under the new name
  have hnone : (db₁.bookingSlots.filter fun s => !decide (s.facilityBookingId = b.id)) =
      db₁.bookingSlots := by
    refine List.filter_eq_self.mpr fun s hs => ?_
    rw [h.bookingSlots, List.mem_append] at hs
    have howner : ∃ b' ∈ db.bookings ++ new, b'.id = s.facilityBookingId := by
      rcases hs with hs | hs
      · obtain ⟨b', hb', he⟩ := hdb s hs
        exact ⟨b', List.mem_append_left _ hb', he⟩
      · obtain ⟨b', hb', he⟩ := h.owned s hs
        exact ⟨b', List.mem_append_right _ hb', he⟩
    obtain ⟨b', hb', he⟩ := howner
    simpa using he ▸ hfresh b' hb'
  have hother : ∀ b' ∈ new, b'.id ≠ b.id := fun b' hb' => hfresh b' (List.mem_append_right _ hb')
  refine ⟨?_, ?_, h.overrideLogs, h.blackouts, h.series, fun b₁ hb₁ b' hb' => ?_, ?_,
    fun s hs => ?_, fun b₁ hb₁ => ?_⟩
  · exact (congrArg (· ++ [b]) h.bookings).trans (List.append_assoc _ _ _)
  · refine (congrArg (· ++ slots') (hnone.trans h.bookingSlots)).trans (List.append_assoc _ _ _)
  · rcases List.mem_append.mp hb₁ with hb₁ | hb₁
    · exact h.fresh b₁ hb₁ b' hb'
    · rw [List.mem_singleton.mp hb₁]
      exact hfresh b' (List.mem_append_left _ hb')
  · rw [List.map_append]
    refine h.ids.append (List.nodup_singleton _) fun x hx hx' => ?_
    obtain ⟨b', hb', rfl⟩ := List.mem_map.mp hx
    exact hother b' hb' (List.mem_singleton.mp hx')
  · rcases List.mem_append.mp hs with hs | hs
    · obtain ⟨b', hb', he⟩ := h.owned s hs
      exact ⟨b', List.mem_append_left _ hb', he⟩
    · exact ⟨b, by simp, (hslots s hs).symm⟩
  · rw [List.filter_append]
    rcases List.mem_append.mp hb₁ with hb₁ | hb₁
    · obtain ⟨ls, hls, hk⟩ := h.asked b₁ hb₁
      have hnil : slots'.filter (fun s => s.facilityBookingId = b₁.id) = [] :=
        List.filter_eq_nil_iff.mpr fun s hs => by
          simpa [hslots s hs] using Ne.symm (hother b₁ hb₁)
      exact ⟨ls, hls, by rw [hnil, List.append_nil, hk]⟩
    · rw [List.mem_singleton.mp hb₁]
      have hnil : slots.filter (fun s => s.facilityBookingId = b.id) = [] :=
        List.filter_eq_nil_iff.mpr fun s hs => by
          obtain ⟨b', hb', he⟩ := h.owned s hs
          simpa [← he] using hother b' hb'
      have hall : slots'.filter (fun s => s.facilityBookingId = b.id) = slots' :=
        List.filter_eq_self.mpr fun s hs => by simp [hslots s hs]
      exact ⟨lines, hasks, by rw [hnil, List.nil_append, hall, hkeys]⟩

/-- What occupies a room afterwards occupied it before, unless it is new. -/
theorem Inserted.active {db db' : Db} {new : List Booking} {slots : List BookingSlot}
    (h : Inserted asks db new slots db') (hv : db.Valid) {n : Int} {b : Booking}
    (hb : b ∈ db.bookings) :
    activeOccupancy db' n b = activeOccupancy db n b := by
  have hhold : paymentHold db' b = paymentHold db b := by
    obtain ⟨added, hadded⟩ := h.series
    unfold paymentHold
    rw [hadded, List.find?_append]
    cases hsid : b.seriesId with
    | none =>
      have hnone : ∀ l : List BookingSeries, l.find? (fun s => decide (none = some s.id)) = none :=
        fun l => List.find?_eq_none.mpr (by simp)
      rw [hnone, hnone]
      rfl
    | some sid =>
      obtain ⟨s, hs, hid⟩ := hv.seriesOf b hb sid hsid
      have hfound : (db.series.find? fun s => decide (some sid = some s.id)).isSome = true :=
        List.find?_isSome.mpr ⟨s, hs, by simp [hid]⟩
      rw [Option.or_of_isSome hfound]
  unfold activeOccupancy
  rw [hhold]

end Inserted

/-! ## 3. Displacement -/

/-- The audit rows' triples. -/
def overrideTriples (rs : List (UUID × OverrideTarget)) : List (UUID × UUID × UUID) :=
  rs.flatMap fun r => r.2.overlappingFacilityIds.map fun room => (r.1, r.2.impact.bookingId, room)

theorem overrideLogRows_triples (operatorId : UUID) (logId : Nat → UUID)
    (rs : List (UUID × OverrideTarget)) :
    (overrideLogRows operatorId logId rs).map BookingOverrideLog.triple = overrideTriples rs := by
  refine List.ext_getElem (by simp [overrideLogRows, overrideTriples]) fun i h₁ h₂ => ?_
  simp [overrideLogRows, overrideTriples, BookingOverrideLog.triple]

/-- **The replacements are what the new slots displace**: everything they meet may be displaced,
and each pair carries the rooms it meets in. -/
structure Displaces (db : Db) (n : Int) (slots : List BookingSlot)
    (rs : List (UUID × OverrideTarget)) : Prop where
  overridable : ∀ s ∈ slots, ∀ r, Occupant db n s.facilityId s.startAt s.endAt r →
    r.2.ministryId = none ∧ n < r.2.startAt
  pairs : ∀ x id room, (∃ p ∈ rs, p.1 = x ∧ p.2.impact.bookingId = id ∧
    room ∈ p.2.overlappingFacilityIds) ↔
      ∃ s ∈ slots, s.facilityBookingId = x ∧ s.facilityId = room ∧
        ∃ r, Occupant db n s.facilityId s.startAt s.endAt r ∧ r.2.id = id
  rooms : ∀ p ∈ rs, p.2.overlappingFacilityIds.Nodup ∧ p.2.overlappingFacilityIds ≠ []
  once : (rs.map fun p => (p.1, p.2.impact.bookingId)).Nodup

section Displaces

variable {db : Db} {n : Int} {slots : List BookingSlot} {rs : List (UUID × OverrideTarget)}
  (h : Displaces db n slots rs)
include h

/-- An occupant of a new slot is displaced. -/
theorem Displaces.displaced {s : BookingSlot} (hs : s ∈ slots) {r : BookingSlot × Booking}
    (hr : Occupant db n s.facilityId s.startAt s.endAt r) : displacedBy db n slots r.2 = true :=
  displacedBy_iff.mpr ⟨(h.overridable s hs r hr).1, (h.overridable s hs r hr).2, s, hs, r, hr, rfl⟩

theorem Displaces.mem_triples {x id room : UUID} : (x, id, room) ∈ overrideTriples rs ↔
    ∃ s ∈ slots, s.facilityBookingId = x ∧ s.facilityId = room ∧
      ∃ r, Occupant db n s.facilityId s.startAt s.endAt r ∧ r.2.id = id ∧
        displacedBy db n slots r.2 = true := by
  have hmem : (x, id, room) ∈ overrideTriples rs ↔ ∃ p ∈ rs, p.1 = x ∧ p.2.impact.bookingId = id ∧
      room ∈ p.2.overlappingFacilityIds := by
    simp only [overrideTriples, List.mem_flatMap, List.mem_map, Prod.mk.injEq]
    constructor
    · rintro ⟨p, hp, room', hroom, hx, hid, rfl⟩
      exact ⟨p, hp, hx, hid, hroom⟩
    · rintro ⟨p, hp, hx, hid, hroom⟩
      exact ⟨p, hp, room, hroom, hx, hid, rfl⟩
  rw [hmem, h.pairs]
  constructor
  · rintro ⟨s, hs, hx, hroom, r, hr, hid⟩
    exact ⟨s, hs, hx, hroom, r, hr, hid, h.displaced hs hr⟩
  · rintro ⟨s, hs, hx, hroom, r, hr, hid, -⟩
    exact ⟨s, hs, hx, hroom, r, hr, hid⟩

theorem Displaces.triples_nodup : (overrideTriples rs).Nodup := by
  refine List.nodup_flatMap.mpr ⟨fun p hp => ?_, (List.pairwise_map.mp h.once).imp ?_⟩
  · exact (h.rooms p hp).1.map fun a b hab => (Prod.mk.inj (Prod.mk.inj hab).2).2
  · intro p q hne x hx hx'
    obtain ⟨room, -, rfl⟩ := List.mem_map.mp hx
    obtain ⟨room', -, he⟩ := List.mem_map.mp hx'
    refine hne ?_
    rw [(Prod.mk.inj he).1, (Prod.mk.inj (Prod.mk.inj he).2).1]

/-- The Bookings that are closed are the displaced ones. -/
theorem Displaces.closed (hv : db.Valid) {b : Booking} (hb : b ∈ db.bookings) :
    b.id ∈ rs.map (fun r => r.2.impact.bookingId) ↔ displacedBy db n slots b = true := by
  rw [List.mem_map]
  constructor
  · rintro ⟨p, hp, hid⟩
    obtain ⟨room, hroom⟩ := List.exists_mem_of_ne_nil _ (h.rooms p hp).2
    obtain ⟨s, hs, -, -, r, hr, hrid⟩ := (h.pairs p.1 b.id room).mp ⟨p, hp, rfl, hid, hroom⟩
    have heq := hv.booking_eq (mem_occupyingRows.mp hr).2.1 hb hrid
    exact heq ▸ h.displaced hs hr
  · intro hd
    obtain ⟨-, -, s, hs, r, hr, hid⟩ := displacedBy_iff.mp hd
    obtain ⟨p, hp, -, hpid, -⟩ := (h.pairs s.facilityBookingId b.id s.facilityId).mpr
      ⟨s, hs, rfl, rfl, r, hr, hid⟩
    exact ⟨p, hp, hpid⟩

end Displaces

theorem closeAll_overrideClosings (operatorId : UUID) (n : Int) (ids : List UUID) (b : Booking) :
    closeAll (overrideClosings operatorId n [] ids) b =
      if b.id ∈ ids then overriddenBy operatorId n b else b := by
  split
  · rename_i hmem
    obtain ⟨c, hc, hid, heq⟩ := closeAll_of_mem (overrideClosings_ids.mpr hmem)
    rw [heq, Closing.close, if_pos hid.symm, (mem_overrideClosings.mp hc).1]
    rfl
  · rename_i hnot
    exact closeAll_of_not_mem fun hmem => hnot (overrideClosings_ids.mp hmem)

theorem cancelSlotOf_overrideClosings (operatorId : UUID) (n : Int) (ids : List UUID)
    (s : BookingSlot) :
    cancelSlotOf ((overrideClosings operatorId n [] ids).map Closing.id) s =
      if s.facilityBookingId ∈ ids then { s with status := .cancelled } else s := by
  unfold cancelSlotOf
  exact if_congr overrideClosings_ids rfl rfl

/-- Slots of different new Bookings do not share a room at a moment. -/
def SlotsApart (slots : List BookingSlot) : Prop :=
  ∀ s ∈ slots, ∀ s' ∈ slots, s'.facilityId = s.facilityId →
    overlaps s'.startAt s'.endAt s.startAt s.endAt = true →
    s'.facilityBookingId = s.facilityBookingId

section Effect

variable {db db₁ db' : Db} {n : Int} {new : List Booking} {slots : List BookingSlot}
  {rs : List (UUID × OverrideTarget)} {operatorId : UUID} {logId : Nat → UUID}
  {asks : Booking → List ResolvedBookingLine → Prop}

/-- **Displacing what the new slots displace has the effect that is asked for.** -/
theorem Displaces.effect (h : Displaces db n slots rs) (hv : db.Valid) (hdb : db.SlotsOwned)
    (hins : Inserted asks db new slots db₁) (hapart : SlotsApart slots)
    (happly : (applyWholeBookingOverrides rs operatorId logId).exec db₁ n = .ok ((), db')) :
    PriorityEffect db n operatorId new slots (overrideLogRows operatorId logId rs) db' := by
  obtain ⟨-, rfl⟩ := (exec_applyWholeBookingOverrides rs operatorId logId).mp happly
  set ids := rs.map fun r => r.2.impact.bookingId with hids
  -- only Bookings that were there are closed
  have hold : ∀ id ∈ ids, ∃ b ∈ db.bookings, b.id = id := by
    intro id hid
    obtain ⟨p, hp, rfl⟩ := List.mem_map.mp hid
    obtain ⟨room, hroom⟩ := List.exists_mem_of_ne_nil _ (h.rooms p hp).2
    obtain ⟨s, hs, -, -, r, hr, hrid⟩ := (h.pairs p.1 _ room).mp ⟨p, hp, rfl, rfl, hroom⟩
    exact ⟨r.2, (mem_occupyingRows.mp hr).2.1, hrid⟩
  have hnew : ∀ b ∈ new, b.id ∉ ids := fun b hb hid => by
    obtain ⟨b', hb', he⟩ := hold b.id hid
    exact hins.fresh b hb b' hb' he
  have hslot : ∀ s ∈ db.bookingSlots, (s.facilityBookingId ∈ ids ↔
      (db.bookings.any fun b => s.facilityBookingId = b.id && displacedBy db n slots b) = true) := by
    intro s hs
    obtain ⟨b, hb, hid⟩ := hdb s hs
    rw [← hid, h.closed hv hb, List.any_eq_true]
    constructor
    · exact fun hd => ⟨b, hb, by simp [hd]⟩
    · rintro ⟨b', hb', hand⟩
      rw [Bool.and_eq_true, decide_eq_true_eq] at hand
      exact hv.booking_eq hb' hb hand.1.symm ▸ hand.2
  have hbookings : (closeDb (overrideClosings operatorId n [] ids)
      ((overrideClosings operatorId n [] ids).map Closing.id) db₁).bookings =
      db.bookings.map (fun b =>
        if displacedBy db n slots b then overriddenBy operatorId n b else b) ++ new := by
    change db₁.bookings.map _ = _
    rw [hins.bookings, List.map_append]
    congr 1
    · refine List.map_congr_left fun b hb => ?_
      rw [closeAll_overrideClosings]
      exact if_congr (h.closed hv hb) rfl rfl
    · refine (List.map_congr_left fun b hb => ?_).trans (List.map_id _)
      rw [closeAll_overrideClosings, if_neg (hnew b hb)]
      rfl
  have hslots : (closeDb (overrideClosings operatorId n [] ids)
      ((overrideClosings operatorId n [] ids).map Closing.id) db₁).bookingSlots =
      db.bookingSlots.map (fun s =>
        if db.bookings.any fun b => s.facilityBookingId = b.id && displacedBy db n slots b then
          { s with status := .cancelled } else s) ++ slots := by
    change db₁.bookingSlots.map _ = _
    rw [hins.bookingSlots, List.map_append]
    congr 1
    · refine List.map_congr_left fun s hs => ?_
      rw [cancelSlotOf_overrideClosings]
      exact if_congr (hslot s hs) rfl rfl
    · refine (List.map_congr_left fun s hs => ?_).trans (List.map_id _)
      obtain ⟨b, hb, hid⟩ := hins.owned s hs
      rw [cancelSlotOf_overrideClosings, if_neg (hid ▸ hnew b hb)]
      rfl
  refine ⟨hbookings, hslots, congrArg (· ++ _) hins.overrideLogs, fun x id room => ?_, ?_, ?_,
    hins.blackouts⟩
  · rw [overrideLogRows_triples]
    exact h.mem_triples
  · rw [overrideLogRows_triples]
    exact h.triples_nodup
  · -- an occupant of a new slot afterwards is new too: what was there is displaced
    intro s hs r hr
    obtain ⟨hslotr, hbr, hidr, hroom, hst, hover, hdel, hact⟩ := mem_occupyingRows.mp hr
    replace hslotr := hslots ▸ hslotr
    replace hbr := hbookings ▸ hbr
    have hfresh : ∀ b ∈ new, ∀ s₀ ∈ db.bookingSlots, s₀.facilityBookingId ≠ b.id := by
      intro b hb s₀ hs₀ he
      obtain ⟨b', hb', hid'⟩ := hdb s₀ hs₀
      exact hins.fresh b hb b' hb' (hid'.trans he)
    rcases List.mem_append.mp hbr with hbr | hbr
    · exfalso
      obtain ⟨b, hb, hbeq⟩ := List.mem_map.mp hbr
      split at hbeq
      · rw [← hbeq] at hact
        simp [activeOccupancy, overriddenBy] at hact
      · rename_i hnot
        rcases List.mem_append.mp hslotr with hs₁ | hs₁
        · obtain ⟨s₀, hs₀, hseq⟩ := List.mem_map.mp hs₁
          split at hseq
          · rw [← hseq] at hst
            cases hst
          · refine hnot (h.displaced hs (r := (r.1, b)) (mem_occupyingRows.mpr
              ⟨hseq ▸ hs₀, hb, hbeq ▸ hidr, hroom, hst, hover, hbeq ▸ hdel, ?_⟩))
            rw [← hins.active hv hb, hbeq]
            exact hact
        · obtain ⟨b', hb', hid'⟩ := hins.owned r.1 hs₁
          exact hins.fresh b' hb' b hb (by rw [hbeq, ← hidr, hid'])
    · rcases List.mem_append.mp hslotr with hs₁ | hs₁
      · obtain ⟨s₀, hs₀, hseq⟩ := List.mem_map.mp hs₁
        refine absurd ?_ (hfresh r.2 hbr s₀ hs₀)
        rw [← hidr, ← hseq]
        split <;> rfl
      · rw [← hidr]
        exact hapart s hs r.1 hs₁ hroom hover

end Effect

end NewlifeCore
