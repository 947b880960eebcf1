import NewlifeCore.Facility.Calls

/-!
# Closings

Every method that ends Bookings does so through `override_booking` and `cancel_booking`: a header
update by id, and mostly the cancellation of the Booking's slots.  A `Closing` is one such header
update as data; `closeAll` replays any number of them on a row.  The specifications of the
methods name the closings they made.
-/

namespace NewlifeCore

open Txn Prog

/-! ## 1. Headers -/

/-- One header update: the Booking closed, and what was written into it. -/
structure Closing where
  id : UUID
  status : BookingStatus
  closedAt : Int
  byId : Option UUID
  reason : Option String

/-- A status a closing leaves. -/
def BookingStatus.isTerminal (s : BookingStatus) : Bool := s = .cancelled || s = .overridden

/-- The closings the portal makes end a Booking. -/
def Closing.Ends (c : Closing) : Prop := c.status.isTerminal = true

def Closing.close (c : Closing) (b : Booking) : Booking :=
  if b.id = c.id then
    { b with status := c.status, cancelledAt := some c.closedAt, cancelledById := c.byId,
             cancelReason := c.reason }
  else b

/-- The closings in turn. -/
def closeAll (cs : List Closing) (b : Booking) : Booking := cs.foldl (fun b c => c.close b) b

/-- A row after some closings differs from what it was in its header columns only. -/
def SameBooking (b b' : Booking) : Prop :=
  b' = { b with status := b'.status, cancelledAt := b'.cancelledAt,
                cancelledById := b'.cancelledById, cancelReason := b'.cancelReason,
                updatedById := b'.updatedById }

theorem SameBooking.refl (b : Booking) : SameBooking b b := rfl

theorem SameBooking.trans {a b c : Booking} (h₁ : SameBooking a b) (h₂ : SameBooking b c) :
    SameBooking a c := by
  unfold SameBooking at *
  rw [h₂, h₁]

namespace SameBooking

variable {b b' : Booking} (h : SameBooking b b')
include h

theorem id : b'.id = b.id := by rw [h]
theorem seriesId : b'.seriesId = b.seriesId := by rw [h]
theorem userId : b'.userId = b.userId := by rw [h]
theorem ministryId : b'.ministryId = b.ministryId := by rw [h]
theorem startAt : b'.startAt = b.startAt := by rw [h]
theorem endAt : b'.endAt = b.endAt := by rw [h]
theorem isDeleted : b'.isDeleted = b.isDeleted := by rw [h]

end SameBooking

theorem close_same (c : Closing) (b : Booking) : SameBooking b (c.close b) := by
  unfold Closing.close
  split <;> rfl

theorem closeAll_cons (c : Closing) (cs : List Closing) (b : Booking) :
    closeAll (c :: cs) b = closeAll cs (c.close b) := rfl

theorem closeAll_append (cs ds : List Closing) (b : Booking) :
    closeAll (cs ++ ds) b = closeAll ds (closeAll cs b) := by
  simp [closeAll, List.foldl_append]

theorem closeAll_same : ∀ (cs : List Closing) (b : Booking), SameBooking b (closeAll cs b)
  | [], _ => rfl
  | c :: cs, b => (close_same c b).trans (closeAll_same cs (c.close b))

@[simp] theorem closeAll_id (cs : List Closing) (b : Booking) : (closeAll cs b).id = b.id :=
  (closeAll_same cs b).id

/-- A Booking that no closing names stays as it is. -/
theorem closeAll_of_not_mem : ∀ {cs : List Closing} {b : Booking}, b.id ∉ cs.map Closing.id →
    closeAll cs b = b
  | [], _, _ => rfl
  | c :: cs, b, h => by
    simp only [List.map_cons, List.mem_cons, not_or] at h
    have hc : c.close b = b := if_neg h.1
    rw [closeAll_cons, hc]
    exact closeAll_of_not_mem h.2

/-- A Booking that a closing names ends as one of them leaves it. -/
theorem closeAll_of_mem : ∀ {cs : List Closing} {b : Booking}, b.id ∈ cs.map Closing.id →
    ∃ c ∈ cs, c.id = b.id ∧ closeAll cs b = c.close b
  | [], _, h => by simp at h
  | c :: cs, b, h => by
    by_cases hcs : b.id ∈ cs.map Closing.id
    · have hid : (c.close b).id = b.id := (close_same c b).id
      obtain ⟨d, hd, hdid, heq⟩ := closeAll_of_mem (b := c.close b) (hid.symm ▸ hcs)
      refine ⟨d, List.mem_cons_of_mem _ hd, hdid.trans hid, ?_⟩
      rw [closeAll_cons, heq]
      -- the later closing overwrites all the earlier one wrote
      unfold Closing.close
      rw [hid] at hdid
      split <;> simp [hdid]
    · have hc : c.id = b.id := by
        simp only [List.map_cons, List.mem_cons] at h
        exact (h.resolve_right hcs).symm
      refine ⟨c, List.mem_cons_self, hc, ?_⟩
      rw [closeAll_cons]
      exact closeAll_of_not_mem (by rwa [(close_same c b).id])

theorem closeAll_status_of_mem {cs : List Closing} {b : Booking}
    (h : b.id ∈ cs.map Closing.id) : ∃ c ∈ cs, (closeAll cs b).status = c.status := by
  obtain ⟨c, hc, hid, heq⟩ := closeAll_of_mem h
  refine ⟨c, hc, ?_⟩
  rw [heq, Closing.close, if_pos hid.symm]

/-! ## 2. Slots -/

/-- The slots of some Bookings, cancelled. -/
def cancelSlotOf (ids : List UUID) (s : BookingSlot) : BookingSlot :=
  if s.facilityBookingId ∈ ids then { s with status := .cancelled } else s

theorem cancelSlotOf_append (ids ids' : List UUID) (s : BookingSlot) :
    cancelSlotOf (ids ++ ids') s = cancelSlotOf ids' (cancelSlotOf ids s) := by
  unfold cancelSlotOf
  by_cases h : s.facilityBookingId ∈ ids <;> by_cases h' : s.facilityBookingId ∈ ids' <;>
    simp [h, h']

@[simp] theorem cancelSlotOf_booking (ids : List UUID) (s : BookingSlot) :
    (cancelSlotOf ids s).facilityBookingId = s.facilityBookingId := by
  unfold cancelSlotOf; split <;> rfl

/-! ## 3. The database after closings -/

/-- The headers closed and the slots of some Bookings cancelled. -/
def closeDb (cs : List Closing) (ids : List UUID) (db : Db) : Db :=
  { db with
    bookings := db.bookings.map (closeAll cs)
    bookingSlots := db.bookingSlots.map (cancelSlotOf ids) }

@[simp] theorem closeDb_nil (db : Db) : closeDb [] [] db = db := by
  have hb : db.bookings.map (closeAll []) = db.bookings := List.map_id' _
  have hs : db.bookingSlots.map (cancelSlotOf []) = db.bookingSlots := List.map_id' _
  rw [closeDb, hb, hs]

theorem closeDb_closeDb (cs ds : List Closing) (ids ids' : List UUID) (db : Db) :
    closeDb ds ids' (closeDb cs ids db) = closeDb (cs ++ ds) (ids ++ ids') db := by
  simp only [closeDb, List.map_map]
  congr 1
  · exact List.map_congr_left fun b _ => (closeAll_append cs ds b).symm
  · exact List.map_congr_left fun s _ => (cancelSlotOf_append ids ids' s).symm

/-! ## 4. The statements, run alone -/

theorem updateTable_solo {α : Type} (T : Table Db RowName α) (p : α → Bool) (f : α → α)
    (hf : ∀ r, T.name (f r) = T.name r) (db : Db) (t : Int) :
    solo (updateTable T p f hf) (fun _ db' _ =>
      db' = T.set db ((T.get db).map fun r => if p r then f r else r)) db t := by
  refine solo_conseq (solo_execute _) fun _ db' t' _ h => ?_
  obtain ⟨c, hc, rfl⟩ := h
  cases hc
  exact T.update_self

theorem updateTableCount_solo {α : Type} (T : Table Db RowName α) (p : α → Bool) (f : α → α)
    (hf : ∀ r, T.name (f r) = T.name r) (db : Db) (t : Int) :
    solo (updateTableCount T p f hf) (fun _ db' _ =>
      db' = T.set db ((T.get db).map fun r => if p r then f r else r)) db t := by
  refine solo_conseq (solo_executeCount _) fun _ db' t' _ h => ?_
  obtain ⟨c, hc, -, rfl⟩ := h
  cases hc
  exact T.update_self

theorem deleteFrom_solo {α : Type} (T : Table Db RowName α) (p : α → Bool) (db : Db) (t : Int) :
    solo (deleteFrom T p) (fun _ db' _ =>
      db' = T.set db ((T.get db).filter fun r => !p r)) db t := by
  refine solo_conseq (solo_execute _) fun _ db' t' _ h => ?_
  obtain ⟨c, hc, rfl⟩ := h
  cases hc
  exact T.delete_self

theorem insertInto_solo {α : Type} (T : Table Db RowName α) (valid : α → Bool) (rows : List α)
    (db : Db) (t : Int) :
    solo (insertInto T valid rows) (fun _ db' _ => db' = T.set db (T.get db ++ rows) ∧
      (rows.map T.name).Nodup ∧ (∀ r ∈ rows, ∀ r' ∈ T.get db, T.name r' ≠ T.name r) ∧
      ∀ r ∈ rows, valid r = true) db t := by
  refine solo_conseq (solo_execute _) fun _ db' t' _ h => ?_
  obtain ⟨c, hc, rfl⟩ := h
  split at hc
  · cases hc
  · rename_i hfresh
    split at hc
    · rename_i hvalid
      cases hc
      simp only [Bool.or_eq_true, Bool.not_eq_true', decide_eq_false_iff_not, not_or, not_not,
        Bool.not_eq_true, List.any_eq_false, decide_eq_true_eq] at hfresh
      exact ⟨rfl, hfresh.1, fun r hr r' hr' => hfresh.2 r hr r' hr', List.all_eq_true.mp hvalid⟩
    · cases hc

theorem closeHeader_solo (id : UUID) (status : BookingStatus) (now : Int) (byId : Option UUID)
    (reason : Option String) (db : Db) (t : Int) :
    solo (BookingRepository.closeHeader id status now byId reason) (fun _ db' _ =>
      db' = closeDb [⟨id, status, now, byId, reason⟩] [] db) db t := by
  refine solo_conseq (updateTable_solo _ _ _ _ db t) fun _ db' _ _ h => ?_
  subst h
  have hs : db.bookingSlots.map (cancelSlotOf []) = db.bookingSlots := List.map_id' _
  simp only [closeDb, hs, bookingTable, decide_eq_true_eq]
  rfl

theorem cancelSlots_solo (id : UUID) (db : Db) (t : Int) :
    solo (BookingRepository.cancelSlots id) (fun _ db' _ => db' = closeDb [] [id] db) db t := by
  refine solo_conseq (updateTable_solo _ _ _ _ db t) fun _ db' _ _ h => ?_
  subst h
  have hb : db.bookings.map (closeAll []) = db.bookings := List.map_id' _
  have hs : cancelSlotOf [id] = fun s : BookingSlot =>
      if s.facilityBookingId = id then { s with status := .cancelled } else s := by
    funext s
    simp [cancelSlotOf]
  simp only [closeDb, hb, hs, bookingSlotTable, decide_eq_true_eq]

/-- `cancel_booking` closes one header, and the slots unless told not to. -/
theorem cancelBooking_solo (id : UUID) (byId : Option UUID) (reason : Option String)
    (withSlots : Bool) (db : Db) (t : Int) :
    solo (BookingRepository.cancelBooking id byId reason withSlots) (fun _ db' t' =>
      ∃ now, t ≤ now ∧ now ≤ t' ∧
        db' = closeDb [⟨id, .cancelled, now, byId, reason⟩] (if withSlots then [id] else []) db)
      db t := by
  refine solo_seq solo_now fun now db₁ t₁ ht₁ h₁ => ?_
  obtain ⟨rfl, hlo, hhi⟩ := h₁
  refine solo_seq (closeHeader_solo _ _ _ _ _ db₁ t₁) fun _ db₂ t₂ ht₂ h₂ => ?_
  subst h₂
  cases withSlots with
  | false => exact solo_ret fun t' ht' => ⟨now, hlo, le_trans hhi (le_trans ht₂ ht'), rfl⟩
  | true =>
    refine solo_conseq (cancelSlots_solo id _ t₂) fun _ db₃ t₃ ht₃ h₃ => ?_
    subst h₃
    exact ⟨now, hlo, le_trans hhi (le_trans ht₂ ht₃), closeDb_closeDb _ _ _ _ _⟩

theorem overrideBooking_solo (id : UUID) (byId : Option UUID) (reason : Option String) (db : Db)
    (t : Int) :
    solo (BookingRepository.overrideBooking id byId reason) (fun _ db' t' =>
      ∃ now, t ≤ now ∧ now ≤ t' ∧
        db' = closeDb [⟨id, .overridden, now, byId, reason⟩] [id] db) db t := by
  refine solo_seq solo_now fun now db₁ t₁ ht₁ h₁ => ?_
  obtain ⟨rfl, hlo, hhi⟩ := h₁
  refine solo_seq (closeHeader_solo _ _ _ _ _ db₁ t₁) fun _ db₂ t₂ ht₂ h₂ => ?_
  subst h₂
  refine solo_conseq (cancelSlots_solo id _ t₂) fun _ db₃ t₃ ht₃ h₃ => ?_
  subst h₃
  exact ⟨now, hlo, le_trans hhi (le_trans ht₂ ht₃), closeDb_closeDb _ _ _ _ _⟩

/-- A closing made by one call since `t`. -/
structure Closing.Made (c : Closing) (status : BookingStatus) (byId : Option UUID)
    (reason : Option String) (t t' : Int) : Prop where
  status : c.status = status
  byId : c.byId = byId
  reason : c.reason = reason
  since : t ≤ c.closedAt
  until_ : c.closedAt ≤ t'

theorem Closing.Made.later {c : Closing} {status : BookingStatus} {byId : Option UUID}
    {reason : Option String} {t t' t'' : Int} (h : c.Made status byId reason t t')
    (ht : t' ≤ t'') : c.Made status byId reason t t'' :=
  ⟨h.status, h.byId, h.reason, h.since, le_trans h.until_ ht⟩

/-- `cancel_booking` on each of some ids: one closing each, with its slots. -/
theorem cancelOccurrences_solo (ids : List UUID) (byId : Option UUID) (reason : Option String)
    (db : Db) (t : Int) :
    solo (RecurringBookingService.cancelOccurrences ids byId reason) (fun _ db' t' =>
      ∃ cs, cs.map Closing.id = ids ∧ (∀ c ∈ cs, c.Made .cancelled byId reason t t') ∧
        db' = closeDb cs ids db) db t := by
  refine solo_each (fun done db' t' => t ≤ t' ∧ ∃ cs, cs.map Closing.id = done ∧
      (∀ c ∈ cs, c.Made .cancelled byId reason t t') ∧ db' = closeDb cs done db)
    ?_ ids [] db t ?_ ⟨le_refl t, [], rfl, by simp, (closeDb_nil db).symm⟩ |> fun h =>
      solo_conseq h fun _ _ _ _ h => h.2
  · rintro done db' t₁ t₂ ht ⟨ht₁, cs, hcs, hmade, rfl⟩
    exact ⟨le_trans ht₁ ht, cs, hcs, fun c hc => (hmade c hc).later ht, rfl⟩
  · rintro done id db' t₁ - ⟨ht₁, cs, hcs, hmade, rfl⟩
    refine solo_conseq (cancelBooking_solo id byId reason true _ t₁) fun _ db₂ t₂ ht₂ h => ?_
    obtain ⟨now, hlo, hhi, rfl⟩ := h
    refine ⟨le_trans ht₁ ht₂, cs ++ [⟨id, .cancelled, now, byId, reason⟩], by simp [hcs], ?_,
      closeDb_closeDb _ _ _ _ _⟩
    intro c hc
    rcases List.mem_append.mp hc with hc | hc
    · exact (hmade c hc).later ht₂
    · rw [List.mem_singleton.mp hc]
      exact ⟨rfl, rfl, rfl, le_trans ht₁ hlo, hhi⟩

end NewlifeCore
