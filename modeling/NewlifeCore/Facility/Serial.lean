import NewlifeCore.Facility.Closings

/-!
# The writes of the creations, at one instant

What the statements that `create_booking` and `create_series` write with make of the database when
the call runs alone and the clock stands still: the rows they insert, and the Bookings they
displace.
-/

namespace NewlifeCore

open Txn Prog

variable {db db' : Db} {t : Int}

/-! ## 1. Inserts -/

/-- An INSERT beside the rows `old` goes through: new names, and every CHECK holds. -/
structure Insertable {α : Type} (T : Table Db RowName α) (valid : α → Bool) (rows old : List α) :
    Prop where
  nodup : (rows.map T.name).Nodup
  fresh : ∀ r ∈ rows, ∀ r' ∈ old, T.name r' ≠ T.name r
  valid : ∀ r ∈ rows, valid r = true

theorem Insertable.nil {α : Type} {T : Table Db RowName α} {valid : α → Bool} {old : List α} :
    Insertable T valid [] old :=
  ⟨List.nodup_nil, fun _ h => absurd h (by simp), fun _ h => absurd h (by simp)⟩

theorem exec_insertInto {α : Type} (T : Table Db RowName α) (valid : α → Bool) (rows : List α) :
    (insertInto T valid rows).exec db t = .ok ((), db') ↔
      Insertable T valid rows (T.get db) ∧ db' = T.set db (T.get db ++ rows) := by
  have hguard : (!decide (rows.map T.name).Nodup ||
      rows.any fun r => (T.get db).any fun r' => T.name r' = T.name r) = false ↔
      (rows.map T.name).Nodup ∧ ∀ r ∈ rows, ∀ r' ∈ T.get db, T.name r' ≠ T.name r := by
    simp
  unfold insertInto execute
  simp only [exec]
  cases hg : (!decide (rows.map T.name).Nodup ||
      rows.any fun r => (T.get db).any fun r' => T.name r' = T.name r) with
  | true =>
    refine iff_of_false (fun h => by cases h) fun h => ?_
    rw [hguard.mpr ⟨h.1.nodup, h.1.fresh⟩] at hg
    cases hg
  | false =>
    obtain ⟨hnodup, hfresh⟩ := hguard.mp hg
    simp only [Bool.false_eq_true, if_false]
    cases hv : rows.all valid with
    | false =>
      refine iff_of_false (fun h => by cases h) fun h => ?_
      rw [List.all_eq_true.mpr h.1.valid] at hv
      cases hv
    | true =>
      simp only [if_true, Except.ok.injEq, Prod.mk.injEq, true_and]
      exact ⟨fun h => ⟨⟨hnodup, hfresh, List.all_eq_true.mp hv⟩, h.symm⟩, fun h => h.2.symm⟩

/-- Rows inserted only when there are some. -/
theorem exec_insertSome {α : Type} (T : Table Db RowName α) (valid : α → Bool) (rows : List α)
    (hset : ∀ db, T.set db (T.get db) = db) :
    (if rows.isEmpty then pure () else insertInto T valid rows).exec db t = .ok ((), db') ↔
      Insertable T valid rows (T.get db) ∧ db' = T.set db (T.get db ++ rows) := by
  split
  · rename_i h
    rw [List.isEmpty_iff.mp h, List.append_nil, hset]
    constructor
    · intro hx
      cases hx
      exact ⟨.nil, rfl⟩
    · rintro ⟨-, rfl⟩
      rfl
  · exact exec_insertInto T valid rows

theorem exec_deleteFrom {α : Type} (T : Table Db RowName α) (p : α → Bool) :
    (deleteFrom T p).exec db t = .ok ((), T.set db ((T.get db).filter fun r => !p r)) := by
  rw [← T.delete_self]
  rfl

/-- The Booking's own rooms and slots set aside. -/
def withoutLines (id : UUID) (db : Db) : Db := { db with
  bookingRooms := db.bookingRooms.filter fun r => !decide (r.facilityBookingId = id)
  bookingSlots := db.bookingSlots.filter fun s => !decide (s.facilityBookingId = id) }

/-- The database with a Booking, its rooms and its slots inserted. -/
def withBooking (b : Booking) (rooms : List BookingRoom) (slots : List BookingSlot) (db : Db) :
    Db := { withoutLines b.id db with
  bookings := db.bookings ++ [b]
  bookingRooms := (withoutLines b.id db).bookingRooms ++ rooms
  bookingSlots := (withoutLines b.id db).bookingSlots ++ slots }

/-- The three INSERTs of a Booking go through. -/
structure BookingInsertable (b : Booking) (rooms : List BookingRoom) (slots : List BookingSlot)
    (db : Db) : Prop where
  fresh : ∀ b' ∈ db.bookings, b'.id ≠ b.id
  ordered : b.startAt < b.endAt
  rooms : Insertable bookingRoomTable (fun r => r.startAt < r.endAt) rooms
    (withoutLines b.id db).bookingRooms
  slots : Insertable bookingSlotTable (fun r => r.startAt < r.endAt) slots
    (withoutLines b.id db).bookingSlots

theorem exec_insertBooking (b : Booking) :
    (BookingRepository.insertBooking b).exec db t = .ok ((), db') ↔
      (∀ b' ∈ db.bookings, b'.id ≠ b.id) ∧ b.startAt < b.endAt ∧
        db' = { db with bookings := db.bookings ++ [b] } := by
  refine (exec_insertInto bookingTable _ [b]).trans ⟨fun ⟨h, hdb⟩ => ⟨?_, ?_, hdb⟩,
    fun ⟨hf, hv, hdb⟩ => ⟨⟨List.nodup_singleton _, ?_, ?_⟩, hdb⟩⟩
  · exact fun b' hb' hid => h.fresh b (List.mem_singleton_self b) b' hb' (congrArg RowName.booking hid)
  · exact of_decide_eq_true (h.valid b (List.mem_singleton_self b))
  · rintro r hr b' hb' hid
    rw [List.mem_singleton.mp hr] at hid
    exact hf b' hb' (RowName.booking.inj hid)
  · rintro r hr
    rw [List.mem_singleton.mp hr]
    exact decide_eq_true hv

/-- **A Booking inserted with its lines.** -/
theorem exec_insertWithLines (b : Booking) (rooms : List BookingRoom) (slots : List BookingSlot) :
    (insertWithLines b rooms slots).exec db t = .ok ((), db') ↔
      BookingInsertable b rooms slots db ∧ db' = withBooking b rooms slots db := by
  unfold insertWithLines BookingRepository.replaceBookingRooms BookingRepository.replaceBookingSlots
  constructor
  · intro h
    obtain ⟨⟨⟩, db₁, h₁, h⟩ := exec_bind_ok h
    obtain ⟨⟨⟩, db₃, h₃, h⟩ := exec_bind_ok h
    obtain ⟨⟨⟩, db₂, h₂, h₃⟩ := exec_bind_ok h₃
    obtain ⟨⟨⟩, db₄, h₄, h₅⟩ := exec_bind_ok h
    obtain ⟨hfresh, hordered, rfl⟩ := (exec_insertBooking b).mp h₁
    rw [exec_deleteFrom] at h₂
    cases h₂
    obtain ⟨hrooms, rfl⟩ := (exec_insertSome bookingRoomTable _ rooms fun _ => rfl).mp h₃
    rw [exec_deleteFrom] at h₄
    cases h₄
    obtain ⟨hslots, rfl⟩ := (exec_insertSome bookingSlotTable _ slots fun _ => rfl).mp h₅
    exact ⟨⟨hfresh, hordered, hrooms, hslots⟩, rfl⟩
  · rintro ⟨⟨hfresh, hordered, hrooms, hslots⟩, rfl⟩
    refine (exec_seq ((exec_insertBooking b).mpr ⟨hfresh, hordered, rfl⟩)).trans ?_
    refine (exec_seq ((exec_seq (exec_deleteFrom bookingRoomTable _)).trans
      ((exec_insertSome bookingRoomTable _ rooms fun _ => rfl).mpr ⟨hrooms, rfl⟩))).trans ?_
    exact (exec_seq (exec_deleteFrom bookingSlotTable _)).trans
      ((exec_insertSome bookingSlotTable _ slots fun _ => rfl).mpr ⟨hslots, rfl⟩)

theorem exec_lockRooms (ids : List UUID) :
    (BookingRepository.lockRooms ids).exec db t = .ok ((), db) := by
  unfold BookingRepository.lockRooms
  induction ids.eraseDups.insertionSort (· ≤ ·) with
  | nil => rfl
  | cons id rest ih => exact ih

/-! ## 2. Displacement -/

/-- The closings of `override_booking`, one for each Booking not seen before. -/
def overrideClosings (operatorId : UUID) (now : Int) : List UUID → List UUID → List Closing
  | _, [] => []
  | seen, id :: ids =>
    if id ∈ seen then overrideClosings operatorId now seen ids
    else ⟨id, .overridden, now, some operatorId, some priorityOverrideReason⟩ ::
      overrideClosings operatorId now (id :: seen) ids

theorem mem_overrideClosings {operatorId : UUID} {now : Int} : ∀ {ids seen : List UUID} {k : Closing},
    k ∈ overrideClosings operatorId now seen ids ↔
      k = ⟨k.id, .overridden, now, some operatorId, some priorityOverrideReason⟩ ∧
        k.id ∈ ids ∧ k.id ∉ seen
  | [], seen, k => by simp [overrideClosings]
  | id :: ids, seen, k => by
    unfold overrideClosings
    split
    · rename_i hseen
      rw [mem_overrideClosings, List.mem_cons]
      refine and_congr_right fun _ => ⟨fun h => ⟨.inr h.1, h.2⟩, fun h => ⟨h.1.resolve_left ?_, h.2⟩⟩
      rintro rfl
      exact h.2 hseen
    · rename_i hseen
      rw [List.mem_cons, mem_overrideClosings, List.mem_cons, List.mem_cons]
      constructor
      · rintro (rfl | ⟨hk, hmem, hnot⟩)
        · exact ⟨rfl, .inl rfl, hseen⟩
        · exact ⟨hk, .inr hmem, fun h => hnot (.inr h)⟩
      · rintro ⟨hk, hmem, hnot⟩
        by_cases hid : k.id = id
        · exact .inl (hid ▸ hk)
        · exact .inr ⟨hk, hmem.resolve_left hid, fun h => h.elim hid hnot⟩

theorem overrideClosings_ids {operatorId : UUID} {now : Int} {ids : List UUID} {id : UUID} :
    id ∈ (overrideClosings operatorId now [] ids).map Closing.id ↔ id ∈ ids := by
  rw [List.mem_map]
  constructor
  · rintro ⟨k, hk, rfl⟩
    exact (mem_overrideClosings.mp hk).2.1
  · intro h
    exact ⟨⟨id, .overridden, now, some operatorId, some priorityOverrideReason⟩,
      mem_overrideClosings.mpr ⟨rfl, h, by simp⟩, rfl⟩

theorem exec_updateTable {α : Type} (T : Table Db RowName α) (p : α → Bool) (f : α → α)
    (hf : ∀ r, T.name (f r) = T.name r) : (updateTable T p f hf).exec db t =
      .ok ((), T.set db ((T.get db).map fun r => if p r then f r else r)) :=
  congrArg (fun db' => Except.ok ((), db')) T.update_self

theorem exec_closeHeader (id : UUID) (status : BookingStatus) (now : Int) (byId : Option UUID)
    (reason : Option String) : (BookingRepository.closeHeader id status now byId reason).exec db t =
      .ok ((), closeDb [⟨id, status, now, byId, reason⟩] [] db) := by
  have hs : db.bookingSlots.map (cancelSlotOf []) = db.bookingSlots := List.map_id' _
  refine (exec_updateTable bookingTable _ _ _).trans ?_
  simp only [closeDb, hs, bookingTable, decide_eq_true_eq]
  rfl

theorem exec_cancelSlots (id : UUID) :
    (BookingRepository.cancelSlots id).exec db t = .ok ((), closeDb [] [id] db) := by
  have hb : db.bookings.map (closeAll []) = db.bookings := List.map_id' _
  have hc : cancelSlotOf [id] = fun s : BookingSlot =>
      if s.facilityBookingId = id then { s with status := .cancelled } else s := by
    funext s
    simp [cancelSlotOf]
  refine (exec_updateTable bookingSlotTable _ _ _).trans ?_
  simp only [closeDb, hb, hc, bookingSlotTable, decide_eq_true_eq]

theorem exec_overrideBooking (id : UUID) (byId : Option UUID) (reason : Option String) :
    (BookingRepository.overrideBooking id byId reason).exec db t =
      .ok ((), closeDb [⟨id, .overridden, t, byId, reason⟩] [id] db) := by
  refine (exec_seq exec_now).trans ((exec_seq (exec_closeHeader _ _ _ _ _)).trans ?_)
  rw [exec_cancelSlots, closeDb_closeDb]
  rfl

theorem exec_overrideEach (operatorId : UUID) : ∀ (rs : List (UUID × OverrideTarget))
    (seen : List UUID) (db : Db), (overrideEach operatorId seen rs).exec db t = .ok ((),
      closeDb (overrideClosings operatorId t seen (rs.map fun r => r.2.impact.bookingId))
        ((overrideClosings operatorId t seen
          (rs.map fun r => r.2.impact.bookingId)).map Closing.id) db)
  | [], _, db => by
    rw [overrideEach, List.map_nil, overrideClosings, List.map_nil, closeDb_nil]
    rfl
  | (x, target) :: rs, seen, db => by
    unfold overrideEach
    rw [List.map_cons, overrideClosings]
    split
    · exact exec_overrideEach operatorId rs seen db
    · refine (exec_seq (exec_overrideBooking _ _ _)).trans ?_
      rw [exec_overrideEach operatorId rs _ _, closeDb_closeDb]
      rfl

/-- **The displacement of some Bookings**, with its audit rows. -/
theorem exec_applyWholeBookingOverrides (rs : List (UUID × OverrideTarget)) (operatorId : UUID)
    (logId : Nat → UUID) :
    (applyWholeBookingOverrides rs operatorId logId).exec db t = .ok ((), db') ↔
      Insertable overrideLogTable (fun _ => true) (overrideLogRows operatorId logId rs)
        db.overrideLogs ∧
      db' = { closeDb (overrideClosings operatorId t [] (rs.map fun r => r.2.impact.bookingId))
        ((overrideClosings operatorId t [] (rs.map fun r => r.2.impact.bookingId)).map Closing.id)
          db with
        overrideLogs := db.overrideLogs ++ overrideLogRows operatorId logId rs } := by
  -- `insertLogs` tests for an empty list a second time
  have htwice : (if (overrideLogRows operatorId logId rs).isEmpty then pure ()
      else OverrideLogRepository.insertLogs (overrideLogRows operatorId logId rs)) =
      OverrideLogRepository.insertLogs (overrideLogRows operatorId logId rs) := by
    unfold OverrideLogRepository.insertLogs
    split <;> rfl
  have hexec : (applyWholeBookingOverrides rs operatorId logId).exec db t =
      (OverrideLogRepository.insertLogs (overrideLogRows operatorId logId rs)).exec
        (closeDb (overrideClosings operatorId t [] (rs.map fun r => r.2.impact.bookingId))
          ((overrideClosings operatorId t []
            (rs.map fun r => r.2.impact.bookingId)).map Closing.id) db) t := by
    rw [← htwice]
    exact exec_seq (exec_overrideEach operatorId rs [] db)
  rw [hexec]
  exact exec_insertSome overrideLogTable (fun _ => true) (overrideLogRows operatorId logId rs)
    fun _ => rfl

end NewlifeCore
