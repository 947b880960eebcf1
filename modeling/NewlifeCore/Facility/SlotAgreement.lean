import NewlifeCore.Facility.SettledBookings

/-!
# Bookings and their slots

A Booking's header and its slots are written by separate statements.  Along sequential runs from a
database without Bookings they agree: a live Booking has the slots its request asked for, and a
terminal one has none, unless a cancellation by id was told to leave them.

The invariant is `SlotsAgree`, with the calls so far as a parameter: what was asked for is found
among them (`SlotsAgree.mono`).  A move falls under one of four kinds (`slotsAgree_move`):

* it writes neither Bookings nor slots (`SlotsAgree.frame`);
* it inserts Bookings with their slots, and the other Bookings' slots are what they were
  (`confirmedSlots_insert_self`, `confirmedSlots_insert_other`);
* it closes Bookings and cancels the slots of some of them; those left out were cancelled by id in a
  scope that leaves them (`SlotsAgree.close`);
* it confirms live Bookings, which stay live (`confirmBooking_live`).
-/

namespace NewlifeCore

open Txn Prog RecurringBookingService

/-! ## 1. Agreement -/

/-- The confirmed slots of a Booking. -/
def confirmedSlots (db : Db) (id : UUID) : List BookingSlot :=
  db.bookingSlots.filter fun s => s.facilityBookingId = id && s.status = .confirmed

/-- One of the calls asked for this Booking, and its confirmed slots are the lines it asked for. -/
def SlotsAsAsked (calls : List Call) (db : Db) (b : Booking) : Prop :=
  ∃ c ∈ calls, ∃ lines, c.Creates b lines ∧
    ((confirmedSlots db b.id).map BookingSlot.key).Perm (lines.map ResolvedBookingLine.key)

/-- **Slots and Bookings agree**, `calls` being what was called so far. -/
structure SlotsAgree (calls : List Call) (db : Db) : Prop where
  live : ∀ b ∈ db.bookings, isLive b.status = true → SlotsAsAsked calls db b
  terminal : ∀ b ∈ db.bookings, b.status.isTerminal = true → confirmedSlots db b.id ≠ [] →
    ∃ c ∈ calls, c.Cancels b.id false

theorem SlotsAgree.empty {db : Db} (h : db.bookings = []) : SlotsAgree [] db := by
  constructor <;> rw [h] <;> exact fun _ hb => nomatch hb

theorem SlotsAgree.mono {calls calls' : List Call} {db : Db} (h : SlotsAgree calls db)
    (hsub : ∀ c ∈ calls, c ∈ calls') : SlotsAgree calls' db := by
  refine ⟨fun b hb hlive => ?_, fun b hb hterm hslots => ?_⟩
  · obtain ⟨c, hc, rest⟩ := h.live b hb hlive
    exact ⟨c, hsub c hc, rest⟩
  · obtain ⟨c, hc, hasked⟩ := h.terminal b hb hterm hslots
    exact ⟨c, hsub c hc, hasked⟩

/-! ## 2. What a move does to the slots of a Booking -/

theorem confirmedSlots_congr {db db' : Db} (h : db'.bookingSlots = db.bookingSlots) (id : UUID) :
    confirmedSlots db' id = confirmedSlots db id := by rw [confirmedSlots, h, confirmedSlots]

theorem confirmedSlots_closeDb_of_mem {cs : List Closing} {ids : List UUID} {db : Db} {id : UUID}
    (h : id ∈ ids) : confirmedSlots (closeDb cs ids db) id = [] := by
  refine List.filter_eq_nil_iff.mpr fun s hs => ?_
  obtain ⟨s₀, -, rfl⟩ := List.mem_map.mp hs
  simp only [cancelSlotOf_booking, Bool.and_eq_true, decide_eq_true_eq, not_and]
  rintro rfl
  rw [cancelSlotOf, if_pos h]
  intro hlive
  cases hlive

theorem confirmedSlots_closeDb_of_not_mem {cs : List Closing} {ids : List UUID} {db : Db}
    {id : UUID} (h : id ∉ ids) : confirmedSlots (closeDb cs ids db) id = confirmedSlots db id := by
  have hkeep : ∀ s : BookingSlot, s.facilityBookingId = id → cancelSlotOf ids s = s := by
    rintro s rfl
    exact if_neg h
  have hmap : ∀ slots : List BookingSlot,
      (slots.map (cancelSlotOf ids)).filter
        (fun s => s.facilityBookingId = id && s.status = .confirmed) =
      slots.filter fun s => s.facilityBookingId = id && s.status = .confirmed := by
    intro slots
    induction slots with
    | nil => rfl
    | cons s rest ih =>
      rw [List.map_cons, List.filter_cons, List.filter_cons, ih]
      by_cases hs : s.facilityBookingId = id
      · rw [hkeep s hs]
      · simp [hs]
  exact hmap db.bookingSlots

section Insert

variable {db db' : Db} {new : List BookingSlot} {id : UUID}
  (hnew : ∀ s ∈ new, s.facilityBookingId = id ∧ s.status = .confirmed)
  (hdb' : db'.bookingSlots =
    (db.bookingSlots.filter fun s => !decide (s.facilityBookingId = id)) ++ new)
include hnew hdb'

theorem confirmedSlots_insert_self : confirmedSlots db' id = new := by
  have hold : (db.bookingSlots.filter fun s => !decide (s.facilityBookingId = id)).filter
      (fun s => s.facilityBookingId = id && s.status = .confirmed) = [] := by
    refine List.filter_eq_nil_iff.mpr fun s hs => ?_
    have hne := List.of_mem_filter hs
    simp_all
  rw [confirmedSlots, hdb', List.filter_append, hold, List.nil_append, List.filter_eq_self]
  intro s hs
  simp [hnew s hs]

theorem confirmedSlots_insert_other {id' : UUID} (hne : id' ≠ id) :
    confirmedSlots db' id' = confirmedSlots db id' := by
  have hnone : new.filter (fun s => s.facilityBookingId = id' && s.status = .confirmed) = [] := by
    refine List.filter_eq_nil_iff.mpr fun s hs => ?_
    simp [(hnew s hs).1, Ne.symm hne]
  rw [confirmedSlots, hdb', List.filter_append, hnone, List.append_nil, List.filter_filter,
    confirmedSlots]
  refine List.filter_congr fun s _ => ?_
  by_cases hs : s.facilityBookingId = id'
  · simp [hs, hne]
  · simp [hs]

end Insert

/-- Nothing is written to Bookings or slots. -/
theorem SlotsAgree.frame {calls : List Call} {db db' : Db} (h : SlotsAgree calls db)
    (hb : db'.bookings = db.bookings) (hs : db'.bookingSlots = db.bookingSlots) :
    SlotsAgree calls db' := by
  constructor <;> rw [hb]
  · intro b hmem hlive
    obtain ⟨c, hc, lines, hcreates, hperm⟩ := h.live b hmem hlive
    exact ⟨c, hc, lines, hcreates, confirmedSlots_congr hs b.id ▸ hperm⟩
  · intro b hmem hterm hslots
    exact h.terminal b hmem hterm (confirmedSlots_congr hs b.id ▸ hslots)

/-- Closings keep the agreement when all the Bookings whose slots they leave were cancelled by
id. -/
theorem SlotsAgree.close {calls : List Call} {db : Db} {cs : List Closing} {ids : List UUID}
    (h : SlotsAgree calls db) (hcs : ∀ k ∈ cs, k.Ends) (hids : ∀ id ∈ ids, id ∈ cs.map Closing.id)
    (hleft : ∀ id ∈ cs.map Closing.id, id ∉ ids → ∃ c ∈ calls, c.Cancels id false) :
    SlotsAgree calls (closeDb cs ids db) := by
  refine ⟨fun b' hb' hlive => ?_, fun b' hb' hterm hslots => ?_⟩
  all_goals obtain ⟨b, hb, rfl⟩ := List.mem_map.mp hb'
  · obtain ⟨hsame, hnot⟩ := closeAll_live hcs hlive
    rw [hsame] at hlive ⊢
    obtain ⟨c, hc, lines, hcreates, hperm⟩ := h.live b hb hlive
    refine ⟨c, hc, lines, hcreates, ?_⟩
    rwa [confirmedSlots_closeDb_of_not_mem fun hmem => hnot (hids _ hmem)]
  · rw [closeAll_id] at hslots ⊢
    by_cases hmem : b.id ∈ ids
    · exact absurd (confirmedSlots_closeDb_of_mem hmem) hslots
    · rw [confirmedSlots_closeDb_of_not_mem hmem] at hslots
      by_cases hclosed : b.id ∈ cs.map Closing.id
      · exact hleft b.id hclosed hmem
      · rw [closeAll_of_not_mem hclosed] at hterm
        exact h.terminal b hb hterm hslots

theorem confirmBooking_creates {c : Call} {sid : UUID} {operatorId : Option UUID} {b : Booking}
    {lines : List ResolvedBookingLine} (h : c.Creates b lines) :
    c.Creates (confirmBooking sid operatorId b) lines := by
  unfold confirmBooking
  split
  · exact h
  · exact h

theorem confirmBooking_id (sid : UUID) (operatorId : Option UUID) (b : Booking) :
    (confirmBooking sid operatorId b).id = b.id := by
  unfold confirmBooking; split <;> rfl

/-- Confirming touches live Bookings only, and leaves them live. -/
theorem confirmBooking_live (sid : UUID) (operatorId : Option UUID) (b : Booking) :
    confirmBooking sid operatorId b = b ∨
      isLive b.status = true ∧ isLive (confirmBooking sid operatorId b).status = true := by
  unfold confirmBooking
  split
  · rename_i h
    simp only [Bool.and_eq_true, decide_eq_true_eq] at h
    exact .inr ⟨by rw [h.1.2]; rfl, rfl⟩
  · exact .inl rfl

/-- **Each move keeps slots and Bookings in agreement.** -/
theorem slotsAgree_move {calls : List Call} {c : Call} {t t' : Int} {db db' : Db} (hc : c ∈ calls)
    (h : SlotsAgree calls db) (hm : Move c t t' db db') : SlotsAgree calls db' := by
  cases hm with
  | frame hb hs hr => exact h.frame hb hs
  | addSeries s fresh => exact h.frame rfl rfl
  | addBooking b lines slots rooms fresh live creates series booking keys =>
    refine ⟨fun b' hb' hlive => ?_, fun b' hb' hterm hslots => ?_⟩
    all_goals rcases List.mem_append.mp hb' with hb' | hb'
    · obtain ⟨c', hc', lines', hcreates, hperm⟩ := h.live b' hb' hlive
      refine ⟨c', hc', lines', hcreates, ?_⟩
      rwa [confirmedSlots_insert_other booking rfl (fresh b' hb')]
    · rw [List.mem_singleton.mp hb']
      refine ⟨c, hc, lines, creates, ?_⟩
      rw [confirmedSlots_insert_self booking rfl, keys]
    · rw [confirmedSlots_insert_other booking rfl (fresh b' hb')] at hslots
      exact h.terminal b' hb' hterm hslots
    · rw [List.mem_singleton.mp hb', isTerminal_of_live live] at hterm
      cases hterm
  | close cs ends live => exact h.close ends (fun _ hid => hid) fun _ hid hnot => absurd hid hnot
  | cancel k withSlots ends asked =>
    refine h.close (fun x hx => List.mem_singleton.mp hx ▸ ends) (fun id hid => ?_)
      fun id hid hnot => ?_
    · cases withSlots with
      | true => exact hid
      | false => cases hid
    · obtain rfl : id = k.id := List.mem_singleton.mp hid
      cases withSlots with
      | true => exact absurd hid hnot
      | false => exact ⟨c, hc, asked⟩
  | closeSeries sid values τ sets time idle => exact h.frame rfl rfl
  | confirm sid values operatorId asked sets pending =>
    refine ⟨fun b' hb' hlive => ?_, fun b' hb' hterm hslots => ?_⟩
    all_goals obtain ⟨b, hb, rfl⟩ := List.mem_map.mp hb'
    · have hlive₀ : isLive b.status = true := by
        rcases confirmBooking_live sid operatorId b with heq | ⟨hl, -⟩
        · rwa [heq] at hlive
        · exact hl
      obtain ⟨c', hc', lines, hcreates, hperm⟩ := h.live b hb hlive₀
      exact ⟨c', hc', lines, confirmBooking_creates hcreates, by rwa [confirmBooking_id]⟩
    · rw [confirmBooking_id] at hslots ⊢
      rcases confirmBooking_live sid operatorId b with heq | ⟨-, hl⟩
      · rw [heq] at hterm
        exact h.terminal b hb hterm hslots
      · rw [isTerminal_of_live hl] at hterm
        cases hterm
  | expire sid values cs asked sets ends pending only all =>
    exact (h.frame rfl rfl : SlotsAgree calls (setSeries sid values db)).close ends
      (fun _ hid => hid) fun _ hid hnot => absurd hid hnot

/-! ## 3. Runs -/

/-- The outline of all sequential runs. -/
def slotOutline (app : App) :
    SerialOutline (ε := ApiError) (Call.body app) fun _ _ _ => True where
  inv db _ fin := db.Valid ∧ SlotsAgree (fin.map Finished.label) db
  rel c t₀ db db' t' := db.Valid ∧ Moves c t₀ t' db db'
  tick h _ := h
  call _ h := solo_conseq (Call.body_moves app _ h.1) fun _ _ _ _ hm => ⟨h.1, hm⟩
  commit {c t₀ db db' t fin} h _ hrel := by
    refine ⟨hrel.2.valid hrel.1, ?_⟩
    rw [List.map_append]
    have h₀ : SlotsAgree (fin.map Finished.label ++ [c]) db :=
      h.2.mono fun _ hc => List.mem_append_left _ hc
    exact Moves.keeps (fun _ hI hm =>
      slotsAgree_move (List.mem_append_right _ (List.mem_singleton_self c)) hI hm) hrel.2 hrel.1 h₀

/-- **Slots and Bookings agree** in every state of every sequential run from a database without
Bookings: a live Booking has one confirmed slot for each line its request asked for and no other,
and a terminal Booking has none unless it was cancelled by id in the scope that leaves them. -/
theorem slots_agree (app : App) {db : Db} {t : Int} (hb : db.bookings = []) (hv : db.Valid)
    {s : PortalSys} (hr : Run (Call.body app) (Sequential fun _ _ _ => True) (Sys.idle db t) s) :
    SlotsAgree (s.finished.map Finished.label) s.db :=
  ((slotOutline app).inv_run ⟨hv, .empty hb⟩ hr).2

/-! ### 3.1 A cancellation that leaves the slots -/

/-- A Booking of the room, and its cancellation in a scope. -/
def bookAndCancelIn (scope : String) : List (Int × Call) :=
  [(50, ⟨.numbered 7 100, .createBooking (bookNoon 10)⟩),
    (60, ⟨.numbered 9 200, .cancelBooking 100 { scope := scope }⟩)]

/-- A run to which the agreement applies. -/
theorem slots_agree_single : SlotsAgree ((bookAndCancelIn "single").map Prod.snd)
    (afterCalls (Call.body App.utc) (bookAndCancelIn "single") Db.oneRoom) :=
  slots_agree App.utc rfl (.empty rfl rfl)
    (run_calls (t := 0) (bookAndCancelIn "single") (by decide +kernel))

/-- Along runs from a database without Bookings: terminal Bookings have no confirmed slot. -/
def TerminalEmpty (app : App) : Prop :=
  ∀ (db : Db) (t : Int) (s : PortalSys), db.bookings = [] → db.Valid →
    Run (Call.body app) (Sequential fun _ _ _ => True) (Sys.idle db t) s →
    ∀ b ∈ s.db.bookings, b.status.isTerminal = true → confirmedSlots s.db b.id = []

/-- **A terminal Booking may keep its slots**: the scope `series` of the cancellation by id closes
the header alone. -/
theorem terminalSlots_not_empty : ¬ TerminalEmpty App.utc := by
  intro hempty
  let db := afterCalls (Call.body App.utc) (bookAndCancelIn "series") Db.oneRoom
  have hb : db.bookings.map (fun b => (b.id, b.status)) = [(100, .cancelled)] := by decide +kernel
  have hs : (confirmedSlots db 100).length = 1 := by decide +kernel
  obtain ⟨b, hbm, hbe⟩ := List.mem_map.mp (hb ▸ List.mem_singleton_self _)
  simp only [Prod.mk.injEq] at hbe
  have hrun : Run (Call.body App.utc) (Sequential fun _ _ _ => True) (Sys.idle Db.oneRoom 0)
      ⟨db, 60, [], (bookAndCancelIn "series").map fun c => ⟨c.2, c.1, c.1⟩⟩ :=
    run_calls _ (by decide +kernel)
  have := hempty Db.oneRoom 0 _ rfl (.empty rfl rfl) hrun b hbm (by rw [hbe.2]; rfl)
  rw [hbe.1] at this
  rw [this] at hs
  cases hs

end NewlifeCore
