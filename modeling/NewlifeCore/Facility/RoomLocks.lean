import NewlifeCore.Facility.RoomExclusivity
import NewlifeCore.Txn.LockOrder

/-!
# Nobody waits forever for a room

`lock_rooms` takes the locks of its rooms sorted, and a creation has written nothing yet when it
takes them.  So a call that waits for a room is never part of a deadlock, and while nobody waits for
a row, somebody goes on.  Over rows the calls do deadlock: the sweep closes a Series before its
Bookings, a cancellation the Bookings before their Series.

* `LocksUp` is the shape of such a call: what runs before the locks only reads, the locks are taken
  in the order of their ranks, and what runs after them waits for no lock (`LockFree`).
* §1 shows that shape of every call.  `lockRooms_locksUp` is the block of a creation; no statement
  on a table takes an advisory lock (`lockFree_onTables`), and `Call.body_locksUp` collects them.
* §2 is the library's theorem about programs of that shape: a cycle of waiting transactions that
  went through a room would have to go up in rank all the way round, or come to a transaction that
  has written before it locks.
* `some_call_goes_on` counts a call that has raised as going on: it has its rollback still to run,
  which needs nobody, and which is what frees the rows and rooms it has.
-/

namespace NewlifeCore

open Txn Prog RecurringBookingService

/-! ## 1. The calls take their locks first and in order -/

/-- Rooms rank by their ids; nobody waits for the lock of the sweep. -/
def LockKey.rank : LockKey → UUID
  | .room id => id
  | .sweep => 0

theorem lockFree_onTables : OnTables fun _ p => LockFree p where
  toCompositional := LockFree.compositional
  insertInto _ _ _ := LockFree.execute _
  updateTable _ _ _ _ := LockFree.execute _
  updateTableCount _ _ _ _ := LockFree.executeCount _
  deleteFrom _ _ := LockFree.execute _
  tryAcquire _ := LockFree.tryAcquire _

/-- Rooms in their order, none twice. -/
theorem sortedRooms_increasing (ids : List UUID) :
    (ids.eraseDups.insertionSort (· ≤ ·)).Pairwise fun a b => a < b := by
  have hle := List.pairwise_insertionSort (fun a b : UUID => a ≤ b) ids.eraseDups
  have hnodup : (ids.eraseDups.insertionSort (· ≤ ·)).Nodup :=
    (List.perm_insertionSort _ _).nodup_iff.mpr (eraseDups_nodup ids)
  exact (hle.and hnodup).imp fun h => lt_of_le_of_ne h.1 h.2

/-- **The room locks of a creation**: what runs before them only reads, and what runs after them
waits for no lock. -/
theorem lockRooms_locksUp {α : Type} (ids : List UUID) {f : Unit → Portal α}
    (hf : LockFree (f ())) :
    LocksUp LockKey.rank [] ((BookingRepository.lockRooms ids).bind f) :=
  LocksUp.acquireEach LockKey.room hf (sortedRooms_increasing ids) fun _ _ _ h =>
    absurd h List.not_mem_nil

theorem createBooking_locksUp (app : App) (r : Request) (command : CreateBookingCommand) :
    LocksUp LockKey.rank [] (discard (BookingService.createBooking app r command)) := by
  unfold discard BookingService.createBooking
  simp only [bind_eq, bind_bind]
  refine LocksUp.checked (fun p => ?_) (BookingService.prepareBooking_readOnly app r command)
  refine lockRooms_locksUp _ ?_
  refine LockFree.checked (BookingService.reviewBooking_readOnly app command p) fun review => ?_
  refine LockFree.bind (fun _ => ?_) (lockFree_onTables.insertWithLines _ _ _)
  refine LockFree.bind (fun _ => LockFree.bind (fun _ => LockFree.ret _) ?_) ?_
  · unfold BookingService.deleteOwnedDraft
    split
    · trivial
    · split
      · exact LockFree.bind (fun _ => LockFree.execute _) (LockFree.execute _)
      · trivial
  · unfold BookingService.displaceTargets
    split
    · exact lockFree_onTables.applyWholeBookingOverrides _ _ _
    · trivial

theorem createSeries_locksUp (app : App) (r : Request)
    (command : CreateRecurringBookingSeriesCommand) :
    LocksUp LockKey.rank [] (discard (createSeries app r command)) := by
  have htitle : ReadOnly (requireTitle command) := by
    unfold requireTitle
    split <;> trivial
  unfold discard createSeries
  simp only [bind_eq, bind_bind]
  refine LocksUp.checked (fun title => ?_) htitle
  refine LocksUp.checked (fun prepared => ?_) (prepareSeries_readOnly app r command)
  refine lockRooms_locksUp _ ?_
  refine LockFree.checked (reviewSeries_readOnly app command prepared) fun review => ?_
  refine LockFree.bind (fun _ => ?_) (lockFree_onTables.insertInto .series _ _)
  refine LockFree.bind (fun _ => LockFree.bind (fun _ => LockFree.ret _) ?_)
    (LockFree.compositional.mapEach (fun t => LockFree.bind (fun _ => LockFree.ret _)
      (lockFree_onTables.insertWithLines _ _ _)) _)
  unfold displaceSeriesTargets
  split
  · exact LockFree.checked (ReadOnly.ofExcept _) fun _ =>
      lockFree_onTables.applyWholeBookingOverrides _ _ _
  · trivial

/-- **Every call takes its room locks first and in order.** -/
theorem Call.body_locksUp (app : App) (c : Call) : LocksUp LockKey.rank [] (c.body app) := by
  cases hc : c.isCreation with
  | false => exact ((lockFree_onTables.ofStatements c).body app hc).locksUp
  | true =>
    obtain ⟨r, operation⟩ := c
    cases operation with
    | createBooking command => exact createBooking_locksUp app r command
    | createSeries command => exact createSeries_locksUp app r command
    | _ => cases hc

/-! ## 2. Every run -/

section Runs

variable (app : App) {db : Db} {t : Int} {s : PortalSys}
  (hrun : Run (Call.body app) (fun _ _ => True) (Sys.idle db t) s)
include hrun

/-- **No call that waits for a room is part of a deadlock**, whatever the interleaving. -/
theorem waiting_for_room_off_cycle {i : Nat} {room : UUID} (hi : s.awaits i = some (.room room)) :
    ¬ Relation.TransGen s.Waits i i :=
  Sys.awaiting_off_cycle (orderly_run (Call.body_locksUp app) hrun) hi

/-- **While nobody waits for a row, somebody goes on**: room locks alone never stop the portal. -/
theorem some_call_goes_on (hopen : s.txs ≠ []) (hrows : ∀ i, ¬ s.AwaitsRow i) :
    ∃ i < s.txs.length, s.GoesOn (Call.body app) i :=
  Sys.someone_goesOn (orderly_run (Call.body_locksUp app) hrun) hopen hrows

end Runs

/-! ### 2.1 Two calls for one room -/

/-- Both ask for noon of day 8; the first has locked the room when the second comes to it. -/
def queuedForRoom : List (Action Call) :=
  [.begin askForNoon, .begin ⟨.numbered 7 300, .createBooking (bookNoon 8)⟩, .start 0, .start 1] ++
    portalStatements 0 4 ++ portalStatements 1 2

theorem waiting_for_room_off_cycle_queued : ∃ s : PortalSys,
    Run (Call.body .utc) (fun _ _ => True) (Sys.idle Db.oneRoom 0) s ∧
      s.awaits 1 = some (.room 3) ∧ ¬ Relation.TransGen s.Waits 1 1 := by
  have hreplay : (replay (Call.body .utc) (fun _ _ => true) (Sys.idle Db.oneRoom 0)
      queuedForRoom).map (fun s => s.awaits 1) = some (some (.room 3)) := by decide +kernel
  obtain ⟨s, hs, hawaits⟩ := Option.map_eq_some_iff.mp hreplay
  have hrun : Run (Call.body .utc) (fun _ _ => True) (Sys.idle Db.oneRoom 0) s :=
    run_of_replay (fun _ _ _ => trivial) .refl hs
  exact ⟨s, hrun, hawaits, waiting_for_room_off_cycle .utc hrun hawaits⟩

theorem not_awaitsRow_of_eval {s : PortalSys}
    (h : s.txs.all (fun tx => tx.issued.isNone) = true) (i : Nat) : ¬ s.AwaitsRow i := by
  rintro ⟨tx, c, htx, hc⟩
  have := List.all_eq_true.mp h tx (List.mem_of_getElem? htx)
  rw [hc] at this
  cases this

theorem some_call_goes_on_queued : ∃ s : PortalSys,
    Run (Call.body .utc) (fun _ _ => True) (Sys.idle Db.oneRoom 0) s ∧ s.txs.length = 2 ∧
      ∃ i < s.txs.length, s.GoesOn (Call.body .utc) i := by
  have hreplay : (replay (Call.body .utc) (fun _ _ => true) (Sys.idle Db.oneRoom 0)
      queuedForRoom).map (fun s => (s.txs.length, s.txs.all fun tx => tx.issued.isNone)) =
      some (2, true) := by decide +kernel
  obtain ⟨s, hs, heval⟩ := Option.map_eq_some_iff.mp hreplay
  obtain ⟨hlength, hissued⟩ := Prod.mk.inj heval
  have hrun : Run (Call.body .utc) (fun _ _ => True) (Sys.idle Db.oneRoom 0) s :=
    run_of_replay (fun _ _ _ => trivial) .refl hs
  exact ⟨s, hrun, hlength, some_call_goes_on .utc hrun (List.ne_nil_of_length_pos (by omega))
    (not_awaitsRow_of_eval hissued)⟩

/-! ### 2.2 Two calls for one Series -/

def sweepHolds : Call := ⟨.numbered 1 300, .expirePendingHolds⟩

def cancelHeld : Call :=
  ⟨.numbered 1 400, .cancelSeries 50 { scope := "entire_series", cancelReason := some "rain" }⟩

/-- The sweep has closed the Series and the cancellation its Booking; each goes on to the other. -/
def crossedWrites : List (Action Call) :=
  [.begin sweepHolds, .begin cancelHeld, .start 0, .start 1] ++ portalStatements 0 7 ++
    portalStatements 1 9 ++ [.statement 0, .statement 1]

/-- What a transaction waits to write, and the rows it has. -/
def rowsOf (tx : Tx Db RowName LockKey ApiError Call) : Option (List RowName) × List RowName :=
  (tx.issued.map Change.rows, tx.rows)

/-- **The sweep and a cancellation deadlock over rows**, when a Series is cancelled whose hold has
lapsed. -/
theorem sweep_cancel_deadlock : ∃ s : PortalSys,
    Run (Call.body .utc) (fun _ _ => True) (Sys.idle Db.heldAtNoon (2 * secondMicros)) s ∧
      Relation.TransGen s.Waits 0 0 := by
  have hreplay : (replay (Call.body .utc) (fun _ _ => true)
      (Sys.idle Db.heldAtNoon (2 * secondMicros))
      crossedWrites).map (fun s => s.txs.map rowsOf) = some
        [(some [.booking 51], [.series 50]),
          (some [.series 50], [.bookingSlot 52, .booking 51])] := by decide +kernel
  obtain ⟨s, hs, hrows⟩ := Option.map_eq_some_iff.mp hreplay
  have hrun : Run (Call.body .utc) (fun _ _ => True)
      (Sys.idle Db.heldAtNoon (2 * secondMicros)) s :=
    run_of_replay (fun _ _ _ => trivial) .refl hs
  obtain ⟨sweep, rest, htxs, hsweep, hrest⟩ := List.map_eq_cons_iff.mp hrows
  obtain ⟨cancel, rest, hsplit, hcancel, -⟩ := List.map_eq_cons_iff.mp hrest
  have h0 : s.txs[0]? = some sweep := by rw [htxs]; rfl
  have h1 : s.txs[1]? = some cancel := by rw [htxs, hsplit]; rfl
  obtain ⟨hissued, hheld⟩ := Prod.mk.inj hsweep
  obtain ⟨hissued', hheld'⟩ := Prod.mk.inj hcancel
  obtain ⟨c, hc, hbooking⟩ := Option.map_eq_some_iff.mp hissued
  obtain ⟨c', hc', hseries⟩ := Option.map_eq_some_iff.mp hissued'
  have hthere : s.Waits 0 1 := ⟨Nat.zero_ne_one, sweep, cancel, h0, h1,
    .inr ⟨c, hc, .booking 51, by rw [hbooking]; simp, by rw [hheld']; simp⟩⟩
  have hback : s.Waits 1 0 := ⟨Nat.one_ne_zero, cancel, sweep, h1, h0,
    .inr ⟨c', hc', .series 50, by rw [hseries]; simp, by rw [hheld]; simp⟩⟩
  exact ⟨s, hrun, .tail (.single hthere) hback⟩

end NewlifeCore
