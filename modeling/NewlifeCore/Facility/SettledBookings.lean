import NewlifeCore.Facility.MoveSpecs

/-!
# Settled Bookings stay as they are

Along sequential runs of any length: a Booking that was cancelled or overridden keeps its header,
and a cancellation leaves alone what has already started.  Every writer chooses its targets so but
one: `BookingService.cancel_booking` looks at neither status nor start.

* §1: `KeepsTerminal` compares the headers of two states, the columns that a closing writes, and
  `Untouched` one Booking with its slots.
* §2 is one move, by cases on what it writes.  A creation inserts and displaces live Bookings, a
  sweep and a cancellation of a Series select live ones, a confirmation touches live ones only
  (`confirmBooking_terminal`); what is left is the cancellation by id, which is why a run has to
  meet `CancelsComing` at each of them.  `keepsTerminal_move` and `untouched_move` are the two
  parts.
* §3 takes both through a run.  A move is compared with the state before *its* call, so that what
  the theorem says of two calls follows along the calls in between.
-/

namespace NewlifeCore

open Txn Prog RecurringBookingService

/-! ## 1. What is kept -/

/-- The columns a closing writes. -/
def Booking.header (b : Booking) : BookingStatus × Option Int × Option UUID × Option String :=
  (b.status, b.cancelledAt, b.cancelledById, b.cancelReason)

/-- The terminal Bookings of one state are there in another, with the same header. -/
def KeepsTerminal (db db' : Db) : Prop :=
  ∀ b ∈ db.bookings, b.status.isTerminal = true →
    (∃ b' ∈ db'.bookings, b'.id = b.id) ∧
    ∀ b' ∈ db'.bookings, b'.id = b.id → b'.header = b.header

/-- A Booking of one state is the same row in another, with the same slots. -/
def Untouched (db db' : Db) (b : Booking) : Prop :=
  b ∈ db'.bookings ∧ (∀ b' ∈ db'.bookings, b'.id = b.id → b' = b) ∧
    db'.bookingSlots.filter (fun s => s.facilityBookingId = b.id) =
      db.bookingSlots.filter fun s => s.facilityBookingId = b.id

/-- The calls that cancel. -/
def Operation.isCancellation : Operation → Bool
  | .cancelBooking _ _ => true
  | .cancelMyBooking _ _ => true
  | .cancelSeries _ _ => true
  | .cancelMySeries _ _ => true
  | .createBlackout _ => true
  | _ => false

/-- Where one Booking is cancelled by its id, it is live and still to come. -/
def CancelsComing (c : Call) (db : Db) (t : Int) : Prop :=
  ∀ id withSlots, c.Cancels id withSlots → ∀ b ∈ db.bookings, b.id = id →
    isLive b.status = true ∧ t < b.startAt

theorem KeepsTerminal.refl {db : Db} (hv : db.Valid) : KeepsTerminal db db := fun b hb _ =>
  ⟨⟨b, hb, rfl⟩, fun _ hb' hid => congrArg Booking.header (hv.booking_eq hb' hb hid)⟩

theorem KeepsTerminal.trans {db₁ db₂ db₃ : Db} (h₁ : KeepsTerminal db₁ db₂)
    (h₂ : KeepsTerminal db₂ db₃) : KeepsTerminal db₁ db₃ := by
  intro b hb hterm
  obtain ⟨⟨b', hb', hid⟩, hsame⟩ := h₁ b hb hterm
  have hheader := hsame b' hb' hid
  have hterm' : b'.status.isTerminal = true := by
    have : b'.status = b.status := congrArg Prod.fst hheader
    rw [this]; exact hterm
  obtain ⟨⟨b'', hb'', hid'⟩, hsame'⟩ := h₂ b' hb' hterm'
  exact ⟨⟨b'', hb'', hid'.trans hid⟩, fun x hx hxid =>
    (hsame' x hx (hxid.trans hid.symm)).trans hheader⟩

/-! ## 2. One move -/

/-- A rewriting of rows that leaves terminal ones' headers alone keeps them. -/
theorem KeepsTerminal.map {db₀ db : Db} (h : KeepsTerminal db₀ db) {f : Booking → Booking}
    (hf : ∀ b, SameBooking b (f b)) {db' : Db} (hdb' : db'.bookings = db.bookings.map f)
    (hkeep : ∀ b ∈ db.bookings, ∀ b₀ ∈ db₀.bookings, b₀.status.isTerminal = true → b.id = b₀.id →
      b.status.isTerminal = true → (f b).header = b.header) : KeepsTerminal db₀ db' := by
  intro b₀ hb₀ hterm
  obtain ⟨⟨b, hb, hid⟩, hsame⟩ := h b₀ hb₀ hterm
  refine ⟨⟨f b, hdb' ▸ List.mem_map_of_mem hb, (hf b).id.trans hid⟩, fun b' hb' hid' => ?_⟩
  rw [hdb'] at hb'
  obtain ⟨x, hx, rfl⟩ := List.mem_map.mp hb'
  have hxid : x.id = b₀.id := (hf x).id.symm.trans hid'
  have hxh := hsame x hx hxid
  have hxt : x.status.isTerminal = true := by
    have : x.status = b₀.status := congrArg Prod.fst hxh
    rw [this]; exact hterm
  exact (hkeep x hx b₀ hb₀ hterm hxid hxt).trans hxh

theorem confirmBooking_terminal {sid : UUID} {operatorId : Option UUID} {b : Booking}
    (h : b.status.isTerminal = true) : confirmBooking sid operatorId b = b := by
  unfold confirmBooking
  rw [if_neg]
  intro hc
  simp only [Bool.and_eq_true, decide_eq_true_eq] at hc
  rw [hc.1.2] at h
  cases h

/-- **A move keeps the Bookings that were terminal before the call.** -/
theorem keepsTerminal_move {c : Call} {t t' : Int} {db₀ db db' : Db} (hpre : CancelsComing c db₀ t)
    (h : KeepsTerminal db₀ db) (hm : Move c t t' db db') : KeepsTerminal db₀ db' := by
  cases hm with
  | frame hb hs hr => unfold KeepsTerminal; rw [hb]; exact h
  | addSeries s fresh => exact h
  | addBooking b lines slots rooms fresh live creates series booking keys =>
    intro b₀ hb₀ hterm
    obtain ⟨⟨x, hx, hid⟩, hsame⟩ := h b₀ hb₀ hterm
    refine ⟨⟨x, List.mem_append_left _ hx, hid⟩, fun b' hb' hid' => ?_⟩
    rcases List.mem_append.mp hb' with hb' | hb'
    · exact hsame b' hb' hid'
    · rw [List.mem_singleton.mp hb'] at hid'
      exact absurd (hid.trans hid'.symm) (fresh x hx)
  | close cs ends live =>
    refine h.map (closeAll_same cs) rfl fun b hb b₀ _ _ _ hterm => ?_
    -- a closed Booking was live
    rw [closeAll_of_not_mem]
    intro hmem
    rw [isTerminal_of_live (live b hb hmem).1] at hterm
    cases hterm
  | cancel k withSlots ends asked =>
    refine h.map (closeAll_same [k]) rfl fun b hb b₀ hb₀ hterm₀ hid _ => ?_
    rw [closeAll_of_not_mem]
    intro hmem
    rw [List.map_singleton, List.mem_singleton] at hmem
    have hlive := (hpre k.id withSlots asked b₀ hb₀ (hid.symm.trans hmem)).1
    rw [isTerminal_of_live hlive] at hterm₀
    cases hterm₀
  | closeSeries sid values τ sets time idle => exact h
  | confirm sid values operatorId asked sets pending =>
    exact h.map (confirmBooking_same sid operatorId) rfl fun b _ _ _ _ _ hterm => by
      rw [confirmBooking_terminal hterm]
  | expire sid values cs asked sets ends pending only all =>
    refine h.map (closeAll_same cs) rfl fun b hb b₀ _ _ _ hterm => ?_
    rw [closeAll_of_not_mem]
    intro hmem
    rw [only b hb hmem] at hterm
    cases hterm

/-- A rewriting that leaves one row and its slots alone leaves them untouched. -/
theorem Untouched.map {db₀ db db' : Db} {b : Booking} (h : Untouched db₀ db b)
    {f : Booking → Booking} {ids : List UUID} (hf : ∀ b, SameBooking b (f b)) (hfb : f b = b)
    (hid : b.id ∉ ids) (hb' : db'.bookings = db.bookings.map f)
    (hs' : db'.bookingSlots = db.bookingSlots.map (cancelSlotOf ids)) : Untouched db₀ db' b := by
  obtain ⟨hmem, honly, hslots⟩ := h
  refine ⟨hb' ▸ List.mem_map.mpr ⟨b, hmem, hfb⟩, fun b' hmem' hid' => ?_, ?_⟩
  · rw [hb'] at hmem'
    obtain ⟨x, hx, rfl⟩ := List.mem_map.mp hmem'
    rw [honly x hx ((hf x).id.symm.trans hid'), hfb]
  · rw [hs', List.filter_map, ← hslots]
    have hfilter : ((fun s : BookingSlot => decide (s.facilityBookingId = b.id)) ∘
        cancelSlotOf ids) = fun s => decide (s.facilityBookingId = b.id) := by
      funext s
      simp
    rw [hfilter]
    refine (List.map_congr_left fun s hs => ?_).trans (List.map_id _)
    have hs := of_decide_eq_true (List.mem_filter.mp hs).2
    unfold cancelSlotOf
    rw [if_neg (hs ▸ hid)]
    rfl

/-- **A move of a cancellation touches nothing that had started before the call.** -/
theorem untouched_move {c : Call} {t t' : Int} {db₀ db db' : Db}
    (hc : c.operation.isCancellation = true) (hpre : CancelsComing c db₀ t) {b : Booking}
    (hb₀ : b ∈ db₀.bookings) (hb : b.startAt ≤ t) (h : Untouched db₀ db b)
    (hm : Move c t t' db db') : Untouched db₀ db' b := by
  cases hm with
  | frame hb' hs' _ => unfold Untouched; rw [hb', hs']; exact h
  | addSeries s fresh => exact h
  | addBooking b lines slots rooms fresh live creates series booking keys =>
    unfold Call.Creates at creates
    split at creates
    · rename_i hop; rw [hop] at hc; cases hc
    · rename_i hop; rw [hop] at hc; cases hc
    · cases creates
  | close cs ends live =>
    have hnot : b.id ∉ cs.map Closing.id := fun hmem => by
      have := (live b h.1 hmem).2
      omega
    exact h.map (closeAll_same cs) (closeAll_of_not_mem hnot) hnot rfl rfl
  | cancel k withSlots ends asked =>
    have hnot : b.id ∉ [k].map Closing.id := fun hmem => by
      rw [List.map_singleton, List.mem_singleton] at hmem
      have := (hpre k.id withSlots asked b hb₀ hmem).2
      omega
    refine h.map (closeAll_same [k]) (closeAll_of_not_mem hnot) (fun hmem => hnot ?_) rfl rfl
    cases withSlots with
    | true => exact hmem
    | false => cases hmem
  | closeSeries sid values τ sets time idle => exact h
  | confirm sid values operatorId asked sets pending => rw [asked] at hc; cases hc
  | expire sid values cs asked sets ends pending only all => rw [asked] at hc; cases hc

/-! ## 3. Runs -/

/-- The outline of sequential runs whose cancellations by id meet `CancelsComing`. -/
def settledOutline (app : App) : SerialOutline (ε := ApiError) (Call.body app) CancelsComing where
  inv db _ _ := db.Valid
  rel c t₀ db db' t' := CancelsComing c db t₀ ∧ db.Valid ∧ Moves c t₀ t' db db'
  tick hv _ := hv
  call hpre hv := solo_conseq (Call.body_moves app _ hv) fun _ _ _ _ h => ⟨hpre, hv, h⟩
  commit _ _ h := h.2.2.valid h.2.1

/-- Along runs under a condition: terminal Bookings keep their header. -/
def TerminalKept (app : App) (pre : Call → Db → Int → Prop) : Prop :=
  ∀ (db : Db) (t : Int), db.Valid → ∀ s s' : PortalSys,
    Run (Call.body app) (Sequential pre) (Sys.idle db t) s →
    Run (Call.body app) (Sequential pre) s s' → KeepsTerminal s.db s'.db

/-- Along runs under a condition: a cancellation touches no Booking that had started. -/
def HistoryKept (app : App) (pre : Call → Db → Int → Prop) : Prop :=
  ∀ (db : Db) (t : Int), db.Valid → ∀ (s s' : PortalSys) (a : Action Call) (f : Finished Call),
    Run (Call.body app) (Sequential pre) (Sys.idle db t) s →
    step (Call.body app) s a = some s' → s'.finished = s.finished ++ [f] →
    f.label.operation.isCancellation = true →
    ∀ b ∈ s.db.bookings, b.startAt ≤ f.began → Untouched s.db s'.db b

theorem terminalKept (app : App) : TerminalKept app CancelsComing := by
  intro db t hv s s' hs hss'
  have hvalid : ∀ {u : PortalSys}, Run (Call.body app) (Sequential CancelsComing)
      (Sys.idle db t) u → u.db.Valid := fun hu => (settledOutline app).inv_run hv hu
  induction hss' with
  | refl => exact KeepsTerminal.refl (hvalid hs)
  | tail a hr ha hstep ih =>
    refine ih.trans ?_
    have hrun := Run.trans hs hr
    rcases (settledOutline app).step_run hv hrun hstep with ⟨hdb, -⟩ | ⟨c, t₀, hrel, -, -⟩
    · rw [hdb]
      exact KeepsTerminal.refl (hvalid hrun)
    · obtain ⟨hpre, hvalid', hmoves⟩ := hrel
      exact Moves.keeps (fun _ hI hm => keepsTerminal_move hpre hI hm) hmoves hvalid'
        (KeepsTerminal.refl hvalid')

theorem historyKept (app : App) : HistoryKept app CancelsComing := by
  intro db t hv s s' a f hs hstep hf hc b hb hstart
  rcases (settledOutline app).step_run hv hs hstep with ⟨-, hfin⟩ | ⟨c, t₀, hrel, -, hfin⟩
  · rw [hfin] at hf
    have := congrArg List.length hf
    simp at this
  · rw [hfin] at hf
    have hlast : (⟨c, t₀, s.clock⟩ : Finished Call) = f := by simpa using hf
    subst hlast
    obtain ⟨hpre, hvalid, hmoves⟩ := hrel
    exact Moves.keeps (fun _ hI hm => untouched_move hc hpre hb hstart hI hm) hmoves hvalid
      ⟨hb, fun b' hb' hid => hvalid.booking_eq hb' hb hid, rfl⟩

/-- **Settled Bookings stay as they are** along every sequential run whose cancellations by id name
live Bookings that are still to come: a terminal header never changes again, and no cancellation
changes what has started. -/
theorem settledBookings_kept (app : App) :
    TerminalKept app CancelsComing ∧ HistoryKept app CancelsComing :=
  ⟨terminalKept app, historyKept app⟩

/-! ### 3.1 A second cancellation -/

/-- A Booking of the room, and its cancellation by an admin for a reason. -/
def bookAndCancel (reason : String) : List (Int × Call) :=
  [(50, ⟨.numbered 7 100, .createBooking (bookNoon 10)⟩), (60, cancelFor reason)]
where
  cancelFor (reason : String) : Call :=
    ⟨.numbered 9 200, .cancelBooking 100 { cancelReason := some reason }⟩

/-- **Unconditionally it is false**: cancelled a second time, the Booking has another reason. -/
theorem settledBookings_not_kept :
    ¬ (TerminalKept App.utc (fun _ _ _ => True) ∧ HistoryKept App.utc fun _ _ _ => True) := by
  rintro ⟨hkept, -⟩
  let body := Call.body App.utc
  let again : List (Int × Call) := [(70, bookAndCancel.cancelFor "snow")]
  let db₁ := afterCalls body (bookAndCancel "rain") Db.oneRoom
  let db₂ := afterCalls body again db₁
  have h₁ : Run body (Sequential fun _ _ _ => True) (Sys.idle Db.oneRoom 0)
      ⟨db₁, 60, [], (bookAndCancel "rain").map fun c => ⟨c.2, c.1, c.1⟩⟩ :=
    run_calls _ (by decide +kernel)
  have h₂ : Run body (Sequential fun _ _ _ => True)
      ⟨db₁, 60, [], (bookAndCancel "rain").map fun c => ⟨c.2, c.1, c.1⟩⟩
      ⟨db₂, 70, [], (bookAndCancel "rain" ++ again).map fun c => ⟨c.2, c.1, c.1⟩⟩ :=
    run_calls _ (by decide +kernel)
  have hdb₁ : db₁.bookings.map (fun b => (b.id, b.header)) =
      [(100, .cancelled, some 60, some 9, some "rain")] := by decide +kernel
  have hdb₂ : db₂.bookings.map (fun b => (b.id, b.header)) =
      [(100, .cancelled, some 70, some 9, some "snow")] := by decide +kernel
  obtain ⟨b, hb, hbh⟩ := List.mem_map.mp (hdb₁ ▸ List.mem_singleton_self _)
  obtain ⟨b', hb', hbh'⟩ := List.mem_map.mp (hdb₂ ▸ List.mem_singleton_self _)
  simp only [Prod.mk.injEq] at hbh hbh'
  have hterm : b.status.isTerminal = true := by
    have : b.status = .cancelled := congrArg Prod.fst hbh.2
    rw [this]; rfl
  have := (hkept Db.oneRoom 0 (.empty rfl rfl) _ _ h₁ h₂ b hb hterm).2 b' hb'
    (hbh'.1.trans hbh.1.symm)
  rw [hbh.2, hbh'.2] at this
  exact absurd this (by decide)

end NewlifeCore
