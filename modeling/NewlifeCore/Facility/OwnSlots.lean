import NewlifeCore.Facility.PriorityCreations

/-!
# The slots of one Booking

What `create_booking` stores for the lines of one request.  `validate_booking_lines` compares the
lines with one another for equality only, and with the day they start on; it never asks whether two
of them overlap.  So no two of the stored slots are the same interval of the same room, and two of
them overlap exactly when the lines do.

* `validateLinesFrom_ok_iff` reads the loop: by induction on the lines, with what was seen so far.
  What passes is a list of different lines, each within its local day
  (`validateBookingLines_nodup`).
* The slots of the new Booking are the rows inserted for its lines, in their order, and the
  displacement of others only cancels slots, which leaves their intervals (`slotsOf_cancelled`); so
  `createBooking_slotsOf` finds the lines again in the table that a creation leaves.
* `ownSlots_follow_lines` says it of every accepted request, and its last part of the requests that
  are accepted: overlapping lines are among them, which §2.1 exhibits.
-/

namespace NewlifeCore

open Txn Prog

variable {db db' : Db} {t : Int}

/-! ## 1. Lines that clash -/

/-- A room interval is written as its room, start and end. -/
abbrev RoomInterval := UUID × Int × Int

/-- Two intervals of one room have an instant in common. -/
def Clash (a b : RoomInterval) : Prop := a.1 = b.1 ∧ a.2.1 < b.2.2 ∧ b.2.1 < a.2.2

instance (a b : RoomInterval) : Decidable (Clash a b) := inferInstanceAs (Decidable (_ ∧ _ ∧ _))

/-- No two of the intervals share a room and overlap. -/
def ClashFree (ks : List RoomInterval) : Prop := ks.Pairwise fun a b => ¬ Clash a b

instance (ks : List RoomInterval) : Decidable (ClashFree ks) :=
  inferInstanceAs (Decidable (ks.Pairwise _))

/-- Every line ends after it starts, on the day it starts. -/
def WithinLocalDay (tz : Zone) (line : ResolvedBookingLine) : Prop :=
  line.startAt < line.endAt ∧ tz.localDate line.startAt = tz.localDate line.endAt

/-- **The loop of `validate_booking_lines`** passes exactly the lines that are within a local day and
differ from one another and from what was seen; overlaps do not enter into it. -/
theorem validateLinesFrom_ok_iff {tz : Zone} {lines : List ResolvedBookingLine} {days : List Int}
    {seen : List RoomInterval} {out : List Int} :
    validateLinesFrom tz days seen lines = .ok out ↔
      (∀ line ∈ lines, WithinLocalDay tz line) ∧ (lines.map ResolvedBookingLine.key).Nodup ∧
      (∀ k ∈ lines.map ResolvedBookingLine.key, k ∉ seen) ∧
      out = (lines.map fun line => tz.localDate line.startAt).reverse ++ days := by
  induction lines generalizing days seen with
  | nil =>
    simp only [validateLinesFrom, Except.ok.injEq]
    simp [eq_comm]
  | cons line rest ih =>
    unfold validateLinesFrom
    split
    · rename_i hle
      refine ⟨nofun, fun h => ?_⟩
      have := (h.1 line List.mem_cons_self).1
      omega
    · rename_i hlt
      split
      · rename_i hday
        exact ⟨nofun, fun h => absurd (h.1 line List.mem_cons_self).2 hday⟩
      · rename_i hday
        split
        · rename_i hseen
          exact ⟨nofun, fun h => absurd hseen (h.2.2.1 line.key List.mem_cons_self)⟩
        · rename_i hseen
          have hline : WithinLocalDay tz line := ⟨by omega, not_ne_iff.mp hday⟩
          have hkey : line.key ∉ seen := hseen
          rw [ih]
          simp only [List.forall_mem_cons, List.map_cons, List.nodup_cons, List.reverse_cons,
            List.append_assoc, List.singleton_append, hline, hkey, not_false_eq_true, true_and]
          constructor
          · rintro ⟨hin, hnd, hnot, hout⟩
            exact ⟨hin, ⟨fun hmem => hnot _ hmem List.mem_cons_self, hnd⟩,
              fun k hk hs => hnot k hk (List.mem_cons_of_mem _ hs), hout⟩
          · rintro ⟨hin, ⟨hfresh, hnd⟩, hnot, hout⟩
            refine ⟨hin, hnd, fun k hk hs => ?_, hout⟩
            rcases List.mem_cons.mp hs with rfl | hs
            · exact hfresh hk
            · exact hnot k hk hs

/-- Accepted lines are all different. -/
theorem validateBookingLines_nodup {lines : List ResolvedBookingLine} {tz : Zone}
    (h : validateBookingLines lines tz = .ok ()) : (lines.map ResolvedBookingLine.key).Nodup := by
  unfold validateBookingLines at h
  split at h
  · cases h
  · rename_i days hdays
    exact (validateLinesFrom_ok_iff.mp hdays).2.1

/-! ## 2. The slots a creation leaves -/

/-- The slots stored for a Booking. -/
def slotsOf (db : Db) (id : UUID) : List BookingSlot :=
  db.bookingSlots.filter fun s => s.facilityBookingId = id

theorem cancelSlotOf_key (ids : List UUID) (s : BookingSlot) :
    (cancelSlotOf ids s).key = s.key := by
  unfold cancelSlotOf
  split <;> rfl

/-- Cancelling slots leaves their intervals. -/
theorem slotsOf_cancelled {ids : List UUID} (id : UUID)
    (hs : db'.bookingSlots = db.bookingSlots.map (cancelSlotOf ids)) :
    (slotsOf db' id).map BookingSlot.key = (slotsOf db id).map BookingSlot.key := by
  have hfilter : (fun s : BookingSlot => decide (s.facilityBookingId = id)) ∘ cancelSlotOf ids =
      fun s => decide (s.facilityBookingId = id) := by
    funext s
    simp only [Function.comp_apply, cancelSlotOf_booking]
  have hkey : BookingSlot.key ∘ cancelSlotOf ids = BookingSlot.key := funext (cancelSlotOf_key ids)
  simp only [slotsOf, hs, List.filter_map, List.map_map, hfilter, hkey]

/-- A Booking inserted with its lines has the slots it was inserted with. -/
theorem slotsOf_withBooking {b : Booking} {rooms : List BookingRoom} {slots : List BookingSlot}
    (howned : ∀ s ∈ slots, s.facilityBookingId = b.id) :
    slotsOf (withBooking b rooms slots db) b.id = slots := by
  have hold : (withoutLines b.id db).bookingSlots.filter
      (fun s => decide (s.facilityBookingId = b.id)) = [] := by
    simp [withoutLines, List.filter_filter]
  have hnew : slots.filter (fun s => decide (s.facilityBookingId = b.id)) = slots :=
    List.filter_eq_self.mpr fun s hs => by simp [howned s hs]
  simp only [slotsOf, withBooking, List.filter_append, hold, hnew, List.nil_append]

/-- **The slots of a created Booking** are those of the lines it was asked for, in their order, and
the lines are all different. -/
theorem createBooking_slotsOf {app : App} {r : Request} {command : CreateBookingCommand} {id : UUID}
    (h : (BookingService.createBooking app r command).exec db t = .ok (id, db')) :
    (slotsOf db' id).map BookingSlot.key =
      (resolveBookingLines command.rooms command.startAt command.endAt).map
        ResolvedBookingLine.key ∧
    ((slotsOf db' id).map BookingSlot.key).Nodup ∧
    ∀ k ∈ (slotsOf db' id).map BookingSlot.key, k.2.1 < k.2.2 := by
  obtain ⟨p, hp, h⟩ := (exec_reads_iff (BookingService.prepareBooking_readOnly app r command)).mp h
  obtain ⟨v, w, -, -, hprep⟩ := exec_of_wp_alone
    (fun v => prepareBooking_wp app r command v)
    (eval_ok (BookingService.prepareBooking_readOnly app r command) hp)
  obtain ⟨u, db₀, hlock, h⟩ := exec_bind_ok h
  rw [exec_lockRooms] at hlock
  cases hlock
  obtain ⟨review, hreview, h⟩ :=
    (exec_reads_iff (BookingService.reviewBooking_readOnly app command p)).mp h
  obtain ⟨-, hcontext, -⟩ := reviewBooking_exact hreview
  obtain ⟨u, db₁, hinsert, h⟩ := exec_bind_ok h
  obtain ⟨-, hdb₁⟩ := (exec_insertWithLines _ _ _).mp hinsert
  obtain ⟨u, db₂, hdisplace, h⟩ := exec_bind_ok h
  obtain ⟨-, hdb₂⟩ := (exec_applyWholeBookingOverrides _ _ _).mp
    (exec_displaceTargets hcontext hdisplace)
  obtain ⟨u, db₃, hdraft, h⟩ := exec_bind_ok h
  cases h
  obtain ⟨drafts, draftLines, rfl⟩ := exec_deleteOwnedDraft hdraft
  obtain ⟨hrows, hkeys⟩ := bookingSlotRows_spec (r.ids.bookingSlot 0) (r.ids.booking 0) p.lines
  have hinserted : slotsOf db₁ (r.ids.booking 0) =
      bookingSlotRows (r.ids.bookingSlot 0) (r.ids.booking 0) p.lines :=
    hdb₁ ▸ slotsOf_withBooking fun s hs => (hrows s hs).1
  have hdisplaced : (slotsOf db₂ (r.ids.booking 0)).map BookingSlot.key =
      (slotsOf db₁ (r.ids.booking 0)).map BookingSlot.key := 
    slotsOf_cancelled _ (congrArg Db.bookingSlots hdb₂)
  have hslots := hdisplaced.trans ((congrArg (List.map BookingSlot.key) hinserted).trans hkeys)
  rw [← hprep.lines]
  refine ⟨hslots, hslots ▸ validateBookingLines_nodup hprep.valid, fun k hk => ?_⟩
  obtain ⟨line, hline, rfl⟩ := List.mem_map.mp (hslots ▸ hk)
  exact (validateBookingLines_ok hprep.valid line hline).1

/-- **A Booking never has one interval twice, and overlaps itself only where it was asked to**: for
every accepted list of lines, the stored slots are pairwise different intervals, and no two of them
share a room and overlap if and only if no two of the lines do. -/
theorem ownSlots_follow_lines (app : App) (r : Request) (command : CreateBookingCommand) {id : UUID}
    (h : (BookingService.createBooking app r command).exec db t = .ok (id, db')) :
    ((slotsOf db' id).map BookingSlot.key).Nodup ∧
    (∀ s ∈ slotsOf db' id, s.startAt < s.endAt) ∧
    (ClashFree ((slotsOf db' id).map BookingSlot.key) ↔
      ClashFree ((resolveBookingLines command.rooms command.startAt command.endAt).map
        ResolvedBookingLine.key)) := by
  obtain ⟨hkeys, hnodup, hordered⟩ := createBooking_slotsOf h
  exact ⟨hnodup, fun s hs => hordered s.key (List.mem_map_of_mem hs), by rw [hkeys]⟩

/-- The room from noon to one, and from one to two. -/
def bookBackToBack (day : Int) : CreateBookingCommand :=
  { bookNoon day with
    endAt := WallClock.combine day .noon + 2 * hourMicros
    rooms := [
      { facilityId := 3, sequence := 0
        endAt := some (WallClock.combine day .noon + hourMicros) },
      { facilityId := 3, sequence := 1
        startAt := some (WallClock.combine day .noon + hourMicros) }] }

/-- Two lines of one room that touch: two slots, and they do not overlap. -/
theorem ownSlots_follow_lines_backToBack :
    ∃ id db', (BookingService.createBooking App.utc (.numbered 7 100) (bookBackToBack 10)).exec
        Db.oneRoom 50 = .ok (id, db') ∧ (slotsOf db' id).length = 2 ∧
      ((slotsOf db' id).map BookingSlot.key).Nodup ∧
      (∀ s ∈ slotsOf db' id, s.startAt < s.endAt) ∧
      ClashFree ((slotsOf db' id).map BookingSlot.key) := by
  have hlength : ((BookingService.createBooking App.utc (.numbered 7 100) (bookBackToBack 10)).exec
      Db.oneRoom 50).toOption.map (fun out => (slotsOf out.2 out.1).length) = some 2 := by
    decide +kernel
  cases h : (BookingService.createBooking App.utc (.numbered 7 100) (bookBackToBack 10)).exec
      Db.oneRoom 50 with
  | error e => rw [h] at hlength; cases hlength
  | ok out =>
    rw [h] at hlength
    obtain ⟨hnodup, hordered, hclash⟩ := ownSlots_follow_lines _ _ _ h
    exact ⟨out.1, out.2, rfl, Option.some.inj hlength, hnodup, hordered, hclash.mpr (by decide)⟩

/-! ### 2.1 A Booking that overlaps itself -/

/-- The room from noon to two, and from one to three. -/
def bookShifted (day : Int) : CreateBookingCommand :=
  { bookNoon day with
    rooms := [
      { facilityId := 3, sequence := 0
        endAt := some (WallClock.combine day .noon + 2 * hourMicros) },
      { facilityId := 3, sequence := 1
        startAt := some (WallClock.combine day .noon + hourMicros)
        endAt := some (WallClock.combine day .noon + 3 * hourMicros) }] }

/-- **Overlapping lines of one room are accepted.** -/
theorem ownSlots_not_clashFree :
    ¬ ∀ (app : App) (r : Request) (command : CreateBookingCommand) (db db' : Db) (t : Int)
        (id : UUID), (BookingService.createBooking app r command).exec db t = .ok (id, db') →
      ClashFree ((slotsOf db' id).map BookingSlot.key) := by
  intro hclaim
  cases h : (BookingService.createBooking App.utc (.numbered 7 100) (bookShifted 10)).exec Db.oneRoom
      50 with
  | error e =>
    have hok : ((BookingService.createBooking App.utc (.numbered 7 100) (bookShifted 10)).exec
        Db.oneRoom 50).isOk = true := by decide +kernel
    rw [h] at hok
    cases hok
  | ok out =>
    have hfree := hclaim _ _ _ _ _ _ _ h
    rw [(createBooking_slotsOf h).1] at hfree
    exact absurd hfree (by decide)

end NewlifeCore
