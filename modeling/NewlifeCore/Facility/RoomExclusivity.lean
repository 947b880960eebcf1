import NewlifeCore.Facility.Insertions
import NewlifeCore.Txn.Interleaving

/-!
# Room exclusivity

No two Bookings occupy one room at overlapping times, in any interleaving of the calls that write
Bookings: the two that add some hold their rooms' locks, and the others only free rooms.  What can
give a lapsed occupancy back is the clearing of a payment hold, so the runs are those in which each
commit that clears holds finds them running.

* The calls have been outlined one by one: what holds when a call commits, as long as the others do
  no more than the outline leaves to them, is `Establishes` (see `Facility.Occupancy` and the
  modules under it).
* §1 is one commit.  Who occupies a room after it did so before or does it by a new slot
  (`Establishes.occupies`); new slots meet no old occupant, for the creation has looked under the
  lock, and what it found it has displaced (`Establishes.apart_of_old`).  So
  `Establishes.exclusive`; and it leaves to the others what they rely on (`Establishes.leaves`).
* §2 feeds both to the induction over interleavings that the outlines share: `rooms_exclusive` holds
  in every state and at every later time, since time only ends occupancies.
* §2.1 is a confirmation in time with two Bookings of a room at the end, and one whose hold lapses
  between its check and its commit, after which two Bookings have one hour.
-/

namespace NewlifeCore

open Txn Prog

/-! ## 1. A commit -/

section Commit

variable {c : Call} {e : Addition} {w : PortalView} (h : Establishes c e w)
  (hruns : HoldsRunning c w.rows w.db w.clock)
include h hruns

/-- Who occupies a room after the commit did so before, or does it by a new slot. -/
theorem Establishes.occupies (hv : w.db.Valid) (hs : w.db.SlotsOwned) {id : UUID}
    {k : UUID × Int × Int} (hocc : Occupies (w.own w.db) w.clock id k) :
    Occupies w.db w.clock id k ∨ ∃ s ∈ e.slots, s.key = k ∧ s.facilityBookingId = id := by
  have hholds : HoldsRunning c w.rows (w.db.add e) w.clock := by
    intro hclears r hr hnamed
    rw [Db.add, h.holds hclears, List.append_nil] at hr
    exact hruns hclears r hr hnamed
  refine (h.underway.fits.occupies hv hs
    ((h.underway.own w.db).occupies (h.underway.fits.valid hv) hholds hocc)).imp (fun h => h) ?_
  rintro ⟨s, hs, hk, hid, -⟩
  exact ⟨s, hs, hk, hid⟩

omit hruns in
/-- An old occupant of a new slot's room is gone. -/
theorem Establishes.apart_of_old {s : BookingSlot} (hslot : s ∈ e.slots)
    {id : UUID} {k : UUID × Int × Int} (hold : Occupies w.db w.clock id k)
    (hocc : Occupies (w.own w.db) w.clock id k) : ¬ Coincide k s.key := by
  intro hc
  obtain ⟨-, -, b, hb, -, hid, -, -, -, hact⟩ := hocc
  have hlive := activeOccupancy_live hact
  rw [h.displaced s hslot id k hold hc w.db b hb hid] at hlive
  cases hlive

/-- **A commit keeps the rooms exclusive.** -/
theorem Establishes.exclusive (hv : w.db.Valid) (hs : w.db.SlotsOwned)
    (hex : RoomsExclusive w.db w.clock) : RoomsExclusive (w.own w.db) w.clock := by
  intro id id' k k' hocc hocc' hc
  rcases h.occupies hruns hv hs hocc with hold | ⟨s, hslot, rfl, rfl⟩
  · rcases h.occupies hruns hv hs hocc' with hold' | ⟨s', hslot', rfl, rfl⟩
    · exact hex id id' k k' hold hold' hc
    · exact absurd hc (h.apart_of_old hslot' hold hocc)
  · rcases h.occupies hruns hv hs hocc' with hold' | ⟨s', hslot', rfl, rfl⟩
    · exact absurd hc.symm (h.apart_of_old hslot hold' hocc')
    · exact h.apart s' hslot' s hslot hc.1 hc.2

/-- What it leaves to the others: they hold other locks. -/
theorem Establishes.leaves (hv : w.db.Valid) (hs : w.db.SlotsOwned) {L : List LockKey}
    (hL : ∀ l ∈ w.locks, l ∉ L) : portalRely.rel L w.db w.clock (w.own w.db) w.clock := by
  refine ⟨le_refl _, fun b hb => ?_, fun room hroom id k hk hocc => ?_⟩
  · have hmem : b.id ∈ (w.db.add e).bookings.map Booking.id :=
      List.mem_map_of_mem (List.mem_append_left _ hb)
    rw [← (h.underway.own w.db).bookingIds] at hmem
    exact List.mem_map.mp hmem
  · rcases h.occupies hruns hv hs hocc with hold | ⟨s, hslot, rfl, -⟩
    · exact hold
    · exact absurd hroom (hk ▸ hL _ (h.locked s hslot))

end Commit

/-! ## 2. The runs -/

/-- **A commit in time**: the payment holds it clears are still running. -/
def InTime (s : PortalSys) (a : Action Call) : Prop :=
  ∀ i, a = .commit i → ∀ pre tx post, focus s.txs i = some (pre, tx, post) →
    HoldsRunning tx.label tx.rows s.db s.clock

/-- The outline of the booking calls. -/
def occupancyOutline (app : App) : Outline (Call.body app) InTime where
  inv db t _ := db.Valid ∧ db.SlotsOwned ∧ RoomsExclusive db t
  rely _ := portalRely
  post c _ w := ∃ e, Establishes c e w
  tick h ht := ⟨h.1, h.2.1, h.2.2.later ht⟩
  runs _ _ := Call.body_establishes app _ _ _
  commit := by
    rintro s i pre tx post s' hok hstep hfocus hwf ⟨hv, hs, hex⟩ ⟨e, h⟩
    have hruns := hok i rfl pre tx post hfocus
    obtain rfl : s' = { s with
        db := tx.own s.db, txs := pre ++ post,
        finished := s.finished ++ [⟨tx.label, tx.began, s.clock⟩] } := by
      simp only [step, hfocus] at hstep
      split at hstep
      · exact (Option.some.inj hstep).symm
      · cases hstep
    refine ⟨⟨(h.underway.own s.db).valid (h.underway.fits.valid hv),
      (h.underway.own s.db).slotsOwned (h.underway.fits.slotsOwned hs),
      h.exclusive hruns hv hs hex⟩, fun o ho => ?_⟩
    have hapart := (pairwise_focus.mp (focus_some hfocus ▸ hwf.apart)).2 o ho
    exact h.leaves hruns hv hs hapart.1

/-- **Room exclusivity**: in every state that any interleaving of the calls reaches, at every time
from then on, no two Bookings occupy one room at overlapping times. -/
theorem rooms_exclusive (app : App) {db : Db} {t : Int} (hv : db.Valid) (hs : db.SlotsOwned)
    (hex : RoomsExclusive db t) {s : PortalSys}
    (hrun : Run (Call.body app) InTime (Sys.idle db t) s) {t' : Int} (ht : s.clock ≤ t') :
    RoomsExclusive s.db t' :=
  have h := (occupancyOutline app).holds_run ((occupancyOutline app).holds_idle ⟨hv, hs, hex⟩) hrun
  h.inv.2.2.later ht

/-! ### 2.1 A confirmation in time, and one that is late -/

/-- Enough for a commit to be in time: all payment holds are running. -/
def holdsRun (s : PortalSys) : Action Call → Bool
  | .commit _ => s.db.series.all fun r => holdRunning r.paymentHoldExpiresAt s.clock
  | _ => true

theorem InTime.of_eval {s : PortalSys} {a : Action Call} (h : holdsRun s a = true) :
    InTime s a := by
  rintro i rfl pre tx post - - r hr -
  exact List.all_eq_true.mp h r hr

/-- The room at noon of day 8. -/
def heldNoon : UUID × Int × Int :=
  (3, WallClock.combine 8 .noon, WallClock.combine 8 .noon + hourMicros)

/-- That hour, held for user 7 until the clock shows one second. -/
def Db.heldAtNoon : Db := { Db.oneRoom with
  series := [{ id := 50, userId := 7, firstOccurrenceDate := 8, lastOccurrenceDate := 8
               localStartTime := .noon, localEndTime := .ofHms 13 0 0 oneOClock_inDay
               status := .pendingPayment, paymentHoldExpiresAt := some secondMicros
               title := ⟨"choir", choir_length⟩ }]
  bookings := [{ id := 51, seriesId := some 50, userId := 7, facilityId := 3
                 bookingType := .recurring, startAt := WallClock.combine 8 .noon
                 endAt := WallClock.combine 8 .noon + hourMicros, status := .pendingPayment
                 title := ⟨"choir", choir_length⟩ }]
  bookingSlots := [⟨52, 51, 3, WallClock.combine 8 .noon, WallClock.combine 8 .noon + hourMicros,
    .confirmed⟩] }

theorem Db.heldAtNoon_valid : Db.heldAtNoon.Valid :=
  ⟨by decide, by decide, by simp [Db.heldAtNoon]⟩

theorem Db.heldAtNoon_owned : Db.heldAtNoon.SlotsOwned := by
  simp [Db.SlotsOwned, Db.heldAtNoon]

theorem Db.heldAtNoon_exclusive (t : Int) : RoomsExclusive Db.heldAtNoon t := by
  rintro id id' k k' ⟨-, -, b, hb, -, rfl, -⟩ ⟨-, -, b', hb', -, rfl, -⟩ -
  rw [List.mem_singleton.mp hb, List.mem_singleton.mp hb']

/-- The payment of that Series is confirmed, and user 8 asks for the same hour. -/
def confirmHeld : Call := ⟨.numbered 1 300, .confirmPayment 50⟩

def askForNoon : Call := ⟨.numbered 8 200, .createBooking (bookNoon 8)⟩

/-- `n` statements of the transaction at place `i`. -/
def portalStatements (i n : Nat) : List (Action Call) := List.replicate n (.statement i)

/-- User 8 asks for the noon of the next day as well. -/
def askForNextNoon : Call := ⟨.numbered 8 400, .createBooking (bookNoon 9)⟩

/-- The confirmation commits while the booking of its hour is being checked, which is refused then;
and the noon of the next day is let. -/
def confirmedInTime : List (Action Call) :=
  [.begin confirmHeld, .begin askForNoon, .start 0, .start 1] ++ portalStatements 1 2 ++
    portalStatements 0 8 ++ [.commit 0] ++ portalStatements 0 3 ++ [.tick (2 * secondMicros)] ++
    [.rollback 0, .begin askForNextNoon, .start 0] ++ portalStatements 0 15 ++ [.commit 0]

/-- The hold lapses between the check of the confirmation and its commit, and the hour is let. -/
def confirmedLate : List (Action Call) :=
  [.begin confirmHeld, .start 0] ++ portalStatements 0 4 ++
    [.tick secondMicros, .begin askForNoon, .start 1] ++ portalStatements 1 15 ++ [.commit 1] ++
    portalStatements 0 4 ++ [.commit 0]

/-- Two Bookings of the room, each at its own noon. -/
theorem rooms_exclusive_confirmed : ∃ s : PortalSys,
    Run (Call.body .utc) InTime (Sys.idle Db.heldAtNoon 0) s ∧
      s.db.bookings.map (fun b => (b.facilityId, b.startAt, b.status)) =
        [(3, WallClock.combine 8 .noon, .confirmed), (3, WallClock.combine 9 .noon, .confirmed)] ∧
      RoomsExclusive s.db s.clock := by
  have hreplay : (replay (Call.body .utc) holdsRun (Sys.idle Db.heldAtNoon 0)
      confirmedInTime).map (fun s => s.db.bookings.map fun b => (b.facilityId, b.startAt, b.status)) =
      some [(3, WallClock.combine 8 .noon, .confirmed),
        (3, WallClock.combine 9 .noon, .confirmed)] := by
    decide +kernel
  obtain ⟨s, hs, hstatus⟩ := Option.map_eq_some_iff.mp hreplay
  have hrun : Run (Call.body .utc) InTime (Sys.idle Db.heldAtNoon 0) s :=
    run_of_replay (fun _ _ => InTime.of_eval) .refl hs
  exact ⟨s, hrun, hstatus, rooms_exclusive .utc Db.heldAtNoon_valid Db.heldAtNoon_owned
    (Db.heldAtNoon_exclusive 0) hrun (le_refl _)⟩

/-- **A confirmation that commits after the hold lapsed** can let the room twice. -/
theorem rooms_shared_late : ∃ s : PortalSys,
    Run (Call.body .utc) (fun _ _ => True) (Sys.idle Db.heldAtNoon 0) s ∧
      ¬ RoomsExclusive s.db s.clock := by
  set late := replay (Call.body .utc) (fun _ _ => true) (Sys.idle Db.heldAtNoon 0) confirmedLate
    with hlate
  have hbookings : late.map (fun s => s.db.bookings.map fun b => (b.id, b.status, b.isDeleted)) =
      some [(51, .confirmed, false), (200, .confirmed, false)] := by decide +kernel
  have hslots : late.map (fun s => s.db.bookingSlots.map fun s => (s.facilityBookingId, s.key)) =
      some [(51, heldNoon), (200, heldNoon)] := by decide +kernel
  have hstatus : late.map (fun s => s.db.bookingSlots.map BookingSlot.status) =
      some [.confirmed, .confirmed] := by decide +kernel
  obtain ⟨s, hs, hbookings⟩ := Option.map_eq_some_iff.mp hbookings
  rw [hs, Option.map_some, Option.some.injEq] at hslots hstatus
  refine ⟨s, run_of_replay (fun _ _ _ => trivial) .refl (hlate ▸ hs), fun hex => ?_⟩
  have hconfirmed : ∀ slot ∈ s.db.bookingSlots, slot.status = .confirmed := fun slot hslot => by
    simpa [hstatus] using List.mem_map_of_mem (f := BookingSlot.status) hslot
  have hocc : ∀ id, (id, BookingStatus.confirmed, false) ∈
        s.db.bookings.map (fun b => (b.id, b.status, b.isDeleted)) →
      (id, heldNoon) ∈ s.db.bookingSlots.map (fun s => (s.facilityBookingId, s.key)) →
      Occupies s.db s.clock id heldNoon := by
    intro id hb hs
    obtain ⟨b, hb, hbe⟩ := List.mem_map.mp hb
    obtain ⟨slot, hslot, hse⟩ := List.mem_map.mp hs
    simp only [Prod.mk.injEq] at hbe hse
    exact ⟨slot, hslot, b, hb, hse.1.trans hbe.1.symm, hbe.1, hse.2, hconfirmed slot hslot,
      hbe.2.2, by simp [activeOccupancy, hbe.2.1]⟩
  have := hex 51 200 _ _ (hocc 51 (by rw [hbookings]; simp) (by rw [hslots]; simp))
    (hocc 200 (by rw [hbookings]; simp) (by rw [hslots]; simp)) ⟨rfl, by decide⟩
  cases this

end NewlifeCore
