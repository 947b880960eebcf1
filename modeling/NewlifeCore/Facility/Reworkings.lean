import NewlifeCore.Facility.CallStatements

/-!
# The calls that add no Booking

Payment confirmation, every cancellation, the expiry sweep and the Blackout methods only rework the
Bookings, slots and Series that are there, whichever moment each of their statements was issued at.
-/

namespace NewlifeCore

open Txn Prog RecurringBookingService

variable {c : Call}

/-! ## 1. Statements -/

theorem keeps_updateTable {α : Type} {G : Guarantee Db RowName} (T : Table Db RowName α)
    (p : α → Bool) (f : α → α) (hf : ∀ r, T.name (f r) = T.name r)
    (h : ∀ view db, G.rel (T.matching p view) db ((T.update p f hf view).apply db)) :
    Keeps G (updateTable T p f hf) :=
  Keeps.execute fun view _ hc db => by cases hc; exact h view db

/-- A statement about tables that hold no Booking, slot or Series. -/
theorem keeps_insertInto {α : Type} (T : Table Db RowName α) (valid : α → Bool) (rows : List α)
    (h : ∀ db l, Rewritten c [] db (T.set db l)) :
    Keeps (reworking c) (insertInto T valid rows) := by
  refine Keeps.execute fun view _ hc db => ?_
  split at hc
  · cases hc
  · split at hc
    · cases hc
      exact (reworking c).mono (List.nil_subset _) (h db _)
    · cases hc

theorem keeps_deleteFrom {α : Type} (T : Table Db RowName α) (p : α → Bool)
    (h : ∀ db l, Rewritten c [] db (T.set db l)) : Keeps (reworking c) (deleteFrom T p) :=
  Keeps.execute fun view _ hc db => by
    cases hc
    exact (reworking c).mono (List.nil_subset _) (h db _)

theorem keeps_updateOther {α : Type} (T : Table Db RowName α) (p : α → Bool) (f : α → α)
    (hf : ∀ r, T.name (f r) = T.name r) (h : ∀ db l, Rewritten c [] db (T.set db l)) :
    Keeps (reworking c) (updateTable T p f hf) :=
  keeps_updateTable T p f hf fun _ db => (reworking c).mono (List.nil_subset _) (h db _)

/-! ### 1.1 Headers and slots -/

theorem closeHeader_keeps {status : BookingStatus} (hstatus : isLive status = false)
    (bookingId : UUID) (now : Int) (byId : Option UUID) (reason : Option String) :
    Keeps (reworking c) (BookingRepository.closeHeader bookingId status now byId reason) := by
  refine keeps_updateTable bookingTable _ _ _ fun view db => ?_
  refine .of_map (g := id) (h := id) rfl (List.map_id _).symm (List.map_id _).symm rfl
    (fun b => ?_) (fun _ => .inl rfl) fun _ => ⟨rfl, .inl rfl⟩
  split
  · exact ⟨rfl, .inr (.inl hstatus)⟩
  · exact .refl b

theorem cancelSlots_keeps (bookingId : UUID) :
    Keeps (reworking c) (BookingRepository.cancelSlots bookingId) := by
  refine keeps_updateTable bookingSlotTable _ _ _ fun view db => ?_
  refine .of_map (f := id) (h := id) (List.map_id _).symm rfl (List.map_id _).symm rfl .refl
    (fun s => ?_) fun _ => ⟨rfl, .inl rfl⟩
  split
  · exact .inr rfl
  · exact .inl rfl

/-! ### 1.2 Series -/

theorem updateSeries_keeps (seriesId : UUID) (values : BookingSeries → BookingSeries)
    (hid : ∀ s, (values s).id = s.id)
    (hhold : c.clearsHolds = true ∨
      ∀ s, (values s).paymentHoldExpiresAt = s.paymentHoldExpiresAt) :
    Keeps (reworking c) (RecurringBookingRepository.updateSeries seriesId values hid) := by
  refine keeps_updateTable seriesTable _ _ _ fun view db => ?_
  refine .of_map (f := id) (g := id) (List.map_id _).symm (List.map_id _).symm rfl rfl .refl
    (fun _ => .inl rfl) fun r => ?_
  split
  · rename_i hmatch
    rw [Bool.and_eq_true] at hmatch
    refine ⟨hid r, ?_⟩
    rcases hhold with hclears | hkeep
    · exact .inr ⟨hclears, List.contains_iff_mem.mp hmatch.2⟩
    · exact .inl (hkeep r)
  · exact ⟨rfl, .inl rfl⟩

theorem confirmPendingSeriesBookings_keeps {seriesId : UUID}
    (hc : c.operation = .confirmPayment seriesId) (operatorId : Option UUID) :
    Keeps (reworking c)
      (BookingRepository.confirmPendingSeriesBookings seriesId operatorId) := by
  refine keeps_updateTable bookingTable _ _ _ fun view db => ?_
  refine .of_map (g := id) (h := id) rfl (List.map_id _).symm (List.map_id _).symm rfl
    (fun b => ?_) (fun _ => .inl rfl) fun _ => ⟨rfl, .inl rfl⟩
  split
  · rename_i hmatch
    simp only [Bool.and_eq_true, decide_eq_true_eq] at hmatch
    exact ⟨rfl, .inr (.inr ⟨hmatch.1.1.2, rfl, seriesId, hmatch.1.1.1, hc⟩)⟩
  · exact .refl b

theorem insertLogs_keeps (rows : List BookingOverrideLog) :
    Keeps (reworking c) (OverrideLogRepository.insertLogs rows) := by
  unfold OverrideLogRepository.insertLogs
  split
  · trivial
  · exact keeps_insertInto overrideLogTable _ _ fun _ _ => .of_frame rfl rfl rfl rfl

theorem blackouts_reworked (db : Db) (l : List RoomBlackout) :
    Rewritten c [] db (blackoutTable.set db l) := .of_frame rfl rfl rfl rfl

/-! ## 2. Calls -/

theorem statements_keep (c : Call) : OfStatements c fun _ p => Keeps (reworking c) p where
  toCompositional := Keeps.compositional
  closeHeader hstatus _ _ _ _ := closeHeader_keeps hstatus _ _ _ _
  cancelSlots _ := cancelSlots_keeps _
  updateSeries _ _ _ hhold := updateSeries_keeps _ _ _ hhold
  confirmPendingSeriesBookings hc _ := confirmPendingSeriesBookings_keeps hc _
  tryAcquireSweepLock _ := trivial
  insertLogs _ := insertLogs_keeps _
  insertBlackout _ := keeps_insertInto blackoutTable _ _ blackouts_reworked
  updateBlackout _ _ _ := Keeps.executeCount fun view _ hc db => by
    cases hc
    exact (reworking c).mono (List.nil_subset _) (blackouts_reworked db _)
  deleteHard _ := keeps_deleteFrom blackoutTable _ blackouts_reworked
  deleteSoft _ _ := keeps_updateOther blackoutTable _ _ _ blackouts_reworked
  restoreBlackout _ := keeps_updateOther blackoutTable _ _ _ blackouts_reworked

/-- **Every call but the creations reworks what is there.** -/
theorem Call.body_keeps (app : App) (c : Call) (hc : c.isCreation = false) :
    Keeps (reworking c) (c.body app) := (statements_keep c).body app hc

end NewlifeCore
