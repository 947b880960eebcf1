import NewlifeCore.Facility.CancellationScopes
import NewlifeCore.Facility.Serial

/-!
# `participant_detail.py`: the actions a Booking's detail offers its Booker

The detail offers to cancel what is live, has its payment hold running and is still ahead on the
facility's clock.  The calls decide for themselves: `cancel_my_booking` looks at neither status nor
start, and `cancel_my_series` at the instant of the start but not at the hold.  It takes that start
from the listing of occurrences, where it is cut to the whole second, so within its own second an
occurrence is still offered and taken no more.

Each side is characterised for itself, on any state whose keys hold: what the detail offers
(`offersCancel_iff`) and what the calls take (`takesCancel_iff`).  Where the two part, for a live
Booking that is not deleted, is `Misfit`, one constructor for each way; everywhere else they agree,
and on a misfit they never do (`cancel_offered_iff_taken`).
-/

namespace NewlifeCore

open Txn Prog RecurringBookingService

/-! ## 1. The detail -/

/-- No field is set for who is not the Booker. -/
structure BookerActionEligibility where
  canEditTitle : Bool := false
  canCancel : Bool := false
  canViewPaymentInstructions : Bool := false
  canBookAgain : Bool := false
  bookAgainDate : Option Int := none
deriving DecidableEq

/-- Start and clock are two datetimes of one zone, and compare by their wall clocks. -/
def bookerActionEligibility (isBooker : Bool) (status : BookingStatus) (startAt : Int)
    (paymentHoldExpiresAt : Option Int) (now : Int) (facilityTz : Zone) (seriesLevel : Bool) :
    BookerActionEligibility :=
  if !isBooker then {}
  else
    let holdActive := isPendingPaymentHoldActive paymentHoldExpiresAt now
    let pendingExpired := status = .pendingPayment && !holdActive
    let localStart := facilityTz.toLocal startAt
    let isFuture := localStart > facilityTz.toLocal now
    let canBookAgain := !seriesLevel && status = .overridden && isFuture
    { canEditTitle := true
      canCancel := !pendingExpired && isLive status && isFuture
      canViewPaymentInstructions := status = .pendingPayment && holdActive
      canBookAgain
      bookAgainDate := if canBookAgain then some (WallClock.date localStart) else none }

/-- `ParticipantBookingDetailResult`, without its timeline, rooms and photos. -/
structure ParticipantBookingDetail where
  booking : Booking
  paymentHoldExpiresAt : Option Int
  isBooker : Bool
  isViewOnly : Bool
  actions : BookerActionEligibility

/-- `assemble_participant_booking_detail`. -/
def assembleParticipantBookingDetail (row : Booking) (hold : Option Int) (viewerId : UUID)
    (now : Int) (facilityTz : Zone) : ParticipantBookingDetail :=
  let isBooker := row.userId = viewerId
  let actions := bookerActionEligibility isBooker row.status row.startAt hold now facilityTz false
  { booking := row
    paymentHoldExpiresAt := if actions.canViewPaymentInstructions then hold else none
    isBooker
    isViewOnly := !decide isBooker
    actions }

/-- `get_my_booking_by_id`; the hold is a column of the same query. -/
def BookingService.getMyBookingById (app : App) (r : Request) (bookingId : UUID) :
    Portal ParticipantBookingDetail := do
  let userId ← authenticatedUser r
  let row ← requireParticipantBooking bookingId userId
  let hold ← select fun db _ => paymentHold db row
  let browseNow ← now
  let facilityTz ← SettingService.getFacilityTimezone app
  pure (assembleParticipantBookingDetail row hold userId browseNow facilityTz)

/-! ## 2. Offered and accepted -/

/-- The detail offers the viewer to cancel. -/
def OffersCancel (app : App) (r : Request) (bookingId : UUID) (db : Db) (t : Int) : Prop :=
  ∃ detail, (BookingService.getMyBookingById app r bookingId).eval db t = .ok detail ∧
    detail.actions.canCancel = true

/-- The call that cancels a Booking: that of an occurrence goes to its Series. -/
def cancelCall (r : Request) (b : Booking) (scope : String) (reason : Option String) :
    Portal Unit :=
  match b.seriesId with
  | none => BookingService.cancelMyBooking r b.id { scope, cancelReason := reason }
  | some seriesId => (cancelMySeries r seriesId
      { scope := "occurrence", occurrenceId := some b.id, cancelReason := reason }).bind
        fun _ => pure ()

/-- The call is accepted and turns the Booking from live to cancelled. -/
def TakesCancel (r : Request) (b : Booking) (scope : String) (reason : Option String) (db : Db)
    (t : Int) : Prop :=
  ∃ db', (cancelCall r b scope reason).exec db t = .ok ((), db') ∧ isLive b.status = true ∧
    ∃ b' ∈ db'.bookings, b'.id = b.id ∧ b'.status = .cancelled

/-- The payment hold of a Pending-payment Booking has not run out. -/
def HoldRuns (db : Db) (t : Int) (b : Booking) : Prop :=
  b.status = .pendingPayment →
    isPendingPaymentHoldActive (paymentHold db b) t = true

/-- The viewer is the Booker of the Booking's Series, which is there. -/
def BooksSeries (db : Db) (viewer : Option UUID) (b : Booking) : Prop :=
  ∃ sid s, b.seriesId = some sid ∧ SeriesRow db sid s ∧ viewer = some s.userId

/-- The facility's wall clock is read, and the start is ahead on it. -/
def Ahead (app : App) (db : Db) (t : Int) (b : Booking) : Prop :=
  ∃ tz, (SettingService.getFacilityTimezone app).eval db t = .ok tz ∧
    tz.toLocal t < tz.toLocal b.startAt

/-- The viewer's Booking, with a running hold and ahead. -/
def OpenTo (app : App) (db : Db) (t : Int) (viewer : Option UUID) (b : Booking) : Prop :=
  viewer = some b.userId ∧ HoldRuns db t b ∧ Ahead app db t b

/-- **Where offer and acceptance part**, for a live Booking. -/
inductive Misfit (app : App) (db : Db) (t : Int) (viewer : Option UUID) (b : Booking) : Prop where
  /-- A one-time Booking that has started can be cancelled all the same. -/
  | startedOneTime : b.seriesId = none → viewer = some b.userId →
      ¬Ahead app db t b → Misfit app db t viewer b
  /-- So can an occurrence to come whose payment hold ran out. -/
  | lapsedHold : BooksSeries db viewer b → t < b.shownStart → ¬HoldRuns db t b →
      Misfit app db t viewer b
  /-- In a repeated hour a start to come is behind on the wall clock. -/
  | wallBehind : BooksSeries db viewer b → t < b.shownStart → ¬Ahead app db t b →
      Misfit app db t viewer b
  /-- Or a start gone by is ahead on it; or the start is ahead, and its second is not. -/
  | wallAhead : b.seriesId ≠ none → OpenTo app db t viewer b → b.shownStart ≤ t →
      Misfit app db t viewer b
  /-- The detail asks for the Booker of the occurrence, the call for that of its Series. -/
  | seriesOfOther : b.seriesId ≠ none → OpenTo app db t viewer b → ¬BooksSeries db viewer b →
      Misfit app db t viewer b
  | occurrenceOfOther : BooksSeries db viewer b → t < b.shownStart → viewer ≠ some b.userId →
      Misfit app db t viewer b

variable {app : App} {r : Request} {db : Db} {t : Int} {tz : Zone} {b : Booking} {u : UUID}

/-! ## 3. What is offered -/

theorem authenticatedUser_eval : (authenticatedUser r).eval db t = .ok u ↔
    r.operatorId = some u := by
  unfold authenticatedUser
  cases r.operatorId with
  | none => simp [eval, exec]
  | some id => simp [eval]

theorem getDetail_eval (hv : db.Valid) (hb : b ∈ db.bookings) :
    (BookingRepository.getDetail b.id).eval db t = .ok (if b.isDeleted then none else some b) := by
  refine congrArg Except.ok (?_ : (db.bookings.find? fun x => x.id = b.id && !x.isDeleted) = _)
  cases hfind : db.bookings.find? fun x => x.id = b.id && !x.isDeleted with
  | none =>
    have hdeleted := List.find?_eq_none.mp hfind b hb
    rw [if_pos (by simpa using hdeleted)]
  | some x =>
    have hx := List.find?_some hfind
    simp only [Bool.and_eq_true, decide_eq_true_eq, Bool.not_eq_true'] at hx
    obtain rfl := hv.booking_eq (List.mem_of_find?_eq_some hfind) hb hx.1
    rw [hx.2, if_neg Bool.false_ne_true]

/-- Who may see a Booking sees it unless it is deleted. -/
theorem requireParticipantBooking_eval (hv : db.Valid) (hb : b ∈ db.bookings) {row : Booking}
    (h : (BookingService.requireParticipantBooking b.id u).eval db t = .ok row) :
    row = b ∧ b.isDeleted = false := by
  obtain ⟨found, hfound, h⟩ := (eval_bind_iff (ReadOnly.select _)).mp h
  obtain rfl := Except.ok.inj ((getDetail_eval hv hb).symm.trans hfound)
  split at h
  · cases h
  · rename_i hsome
    split at hsome
    · cases hsome
    · rename_i hdeleted
      cases hsome
      obtain ⟨owned, -, h⟩ := (eval_bind_iff (ReadOnly.select _)).mp h
      obtain ⟨_, -, h⟩ := (eval_bind_iff (ReadOnly.raiseIf _ _)).mp h
      cases h
      exact ⟨rfl, by simpa using hdeleted⟩

/-- The Booker sees it. -/
theorem requireParticipantBooking_own (hv : db.Valid) (hb : b ∈ db.bookings)
    (hdeleted : b.isDeleted = false) :
    (BookingService.requireParticipantBooking b.id b.userId).eval db t = .ok b := by
  refine (eval_bind_iff (ReadOnly.select _)).mpr ⟨_, getDetail_eval hv hb, ?_⟩
  rw [hdeleted, if_neg Bool.false_ne_true]
  refine (eval_bind_iff (ReadOnly.select _)).mpr ⟨_, rfl, ?_⟩
  refine (eval_bind_iff (ReadOnly.raiseIf _ _)).mpr ⟨(), ?_, rfl⟩
  rw [eval_raiseIf_ok]
  simp [isCurrentBookingParticipant]

theorem canCancel_iff {isBooker : Bool} {status : BookingStatus} {startAt now : Int}
    {hold : Option Int} {seriesLevel : Bool} :
    (bookerActionEligibility isBooker status startAt hold now tz seriesLevel).canCancel = true ↔
      isBooker = true ∧ isLive status = true ∧
        (status = .pendingPayment → isPendingPaymentHoldActive hold now = true) ∧
          tz.toLocal now < tz.toLocal startAt := by
  unfold bookerActionEligibility
  cases isBooker with
  | false => simp
  | true =>
    simp only [Bool.not_true, Bool.false_eq_true, if_false, Bool.and_eq_true, Bool.not_eq_true',
      Bool.and_eq_false_iff, decide_eq_false_iff_not, Bool.not_eq_false', decide_eq_true_eq,
      gt_iff_lt, true_and]
    tauto

/-- **What the detail offers**: to cancel what is live and open to the viewer. -/
theorem offersCancel_iff (hv : db.Valid) (hb : b ∈ db.bookings) :
    OffersCancel app r b.id db t ↔
      b.isDeleted = false ∧ isLive b.status = true ∧ OpenTo app db t r.operatorId b := by
  constructor
  · rintro ⟨detail, hdetail, hcan⟩
    obtain ⟨viewer, hviewer, hread⟩ :=
      (eval_bind_iff (BookingService.authenticatedUser_readOnly r)).mp hdetail
    obtain ⟨row, hrow, hrest⟩ :=
      (eval_bind_iff (BookingService.requireParticipantBooking_readOnly _ _)).mp hread
    obtain ⟨heq, hdeleted⟩ := requireParticipantBooking_eval hv hb hrow
    rw [heq] at hrest
    obtain ⟨hold, hhold, hclock⟩ := (eval_bind_iff (ReadOnly.select _)).mp hrest
    cases hhold
    obtain ⟨now, hnow, hzone⟩ := (eval_bind_iff ReadOnly.now).mp hclock
    cases hnow
    obtain ⟨tz, htz, hret⟩ :=
      (eval_bind_iff (SettingService.getFacilityTimezone_readOnly app)).mp hzone
    cases hret
    obtain ⟨hbooker, hlive, hruns, hfuture⟩ := canCancel_iff.mp hcan
    have hbooked : b.userId = viewer := of_decide_eq_true hbooker
    rw [authenticatedUser_eval.mp hviewer, ← hbooked]
    exact ⟨hdeleted, hlive, rfl, hruns, tz, htz, hfuture⟩
  · rintro ⟨hdeleted, hlive, hviewer, hhold, tz, htz, hfuture⟩
    refine ⟨assembleParticipantBookingDetail b (paymentHold db b) b.userId t tz, ?_,
      canCancel_iff.mpr ⟨decide_eq_true rfl, hlive, hhold, hfuture⟩⟩
    refine (eval_bind_iff (BookingService.authenticatedUser_readOnly r)).mpr
      ⟨_, authenticatedUser_eval.mpr hviewer, ?_⟩
    refine (eval_bind_iff (BookingService.requireParticipantBooking_readOnly _ _)).mpr
      ⟨_, requireParticipantBooking_own hv hb hdeleted, ?_⟩
    refine (eval_bind_iff (ReadOnly.select _)).mpr ⟨_, rfl, ?_⟩
    refine (eval_bind_iff ReadOnly.now).mpr ⟨_, rfl, ?_⟩
    exact (eval_bind_iff (SettingService.getFacilityTimezone_readOnly app)).mpr ⟨_, htz, rfl⟩

/-! ## 4. What is accepted -/

theorem exec_cancelBooking (id : UUID) (byId : Option UUID) (reason : Option String)
    (withSlots : Bool) : (BookingRepository.cancelBooking id byId reason withSlots).exec db t =
      .ok ((), closeDb [⟨id, .cancelled, t, byId, reason⟩] (if withSlots then [id] else []) db) := by
  refine (exec_seq exec_now).trans ((exec_seq (exec_closeHeader _ _ _ _ _)).trans ?_)
  cases withSlots with
  | true => exact (exec_cancelSlots id).trans (by rw [closeDb_closeDb]; rfl)
  | false => rfl

/-- A Booking whose id was cancelled is there, and cancelled. -/
theorem mem_cancelled {byId : Option UUID} {reason : Option String} {ids : List UUID}
    (hb : b ∈ db.bookings) : ∃ b' ∈ (closeDb [⟨b.id, .cancelled, t, byId, reason⟩] ids db).bookings,
      b'.id = b.id ∧ b'.status = .cancelled := by
  refine ⟨_, List.mem_map_of_mem hb, closeAll_id _ _, ?_⟩
  simp [closeAll, Closing.close]

/-- **A one-time Booking is cancelled for its Booker**, whenever it starts. -/
theorem takesCancel_oneTime (hv : db.Valid) (hb : b ∈ db.bookings) (hone : b.seriesId = none)
    {scope reason trimmed : String} (hreason : normalizeMemberCancellationReason reason = .ok trimmed) :
    TakesCancel r b scope (some reason) db t ↔
      b.isDeleted = false ∧ isLive b.status = true ∧ r.operatorId = some b.userId := by
  unfold TakesCancel cancelCall
  rw [hone]
  dsimp only
  constructor
  · rintro ⟨db', hexec, hlive, -⟩
    obtain ⟨viewer, hviewer, hread⟩ :=
      (exec_reads_iff (BookingService.authenticatedUser_readOnly r)).mp hexec
    obtain ⟨row, hrow, hrest⟩ :=
      (exec_reads_iff (BookingService.requireParticipantBooking_readOnly _ _)).mp hread
    obtain ⟨heq, hdeleted⟩ := requireParticipantBooking_eval hv hb hrow
    obtain ⟨_, hown, -⟩ := (exec_reads_iff (ReadOnly.raiseIf _ _)).mp hrest
    have hbooked : row.userId = viewer := by simpa using eval_raiseIf_ok.mp hown
    rw [authenticatedUser_eval.mp hviewer, ← hbooked, heq]
    exact ⟨hdeleted, hlive, rfl⟩
  · rintro ⟨hdeleted, hlive, hviewer⟩
    have hexec : (BookingService.cancelMyBooking r b.id
        { scope, cancelReason := some reason }).exec db t = .ok ((), closeDb
          [⟨b.id, .cancelled, t, r.operatorId, some trimmed⟩]
          (if decide (scope ≠ "series") then [b.id] else []) db) := by
      refine (exec_reads_iff (BookingService.authenticatedUser_readOnly r)).mpr
        ⟨_, authenticatedUser_eval.mpr hviewer, ?_⟩
      refine (exec_reads_iff (BookingService.requireParticipantBooking_readOnly _ _)).mpr
        ⟨_, requireParticipantBooking_own hv hb hdeleted, ?_⟩
      refine (exec_reads_iff (ReadOnly.raiseIf _ _)).mpr ⟨(), eval_raiseIf_ok.mpr (by simp), ?_⟩
      refine (exec_reads_iff (ReadOnly.ofExcept _)).mpr ⟨trimmed, ?_, ?_⟩
      · rw [Option.getD_some, hreason]
        rfl
      · refine (exec_reads_iff (ReadOnly.select _)).mpr ⟨true, ?_, ?_⟩
        · refine congrArg Except.ok (List.any_eq_true.mpr ⟨b, hb, ?_⟩)
          simp [hdeleted]
        · refine (exec_reads_iff (ReadOnly.raiseIf _ _)).mpr ⟨(), eval_raiseIf_ok.mpr rfl, ?_⟩
          exact exec_cancelBooking _ _ _ _
    exact ⟨_, hexec, hlive, mem_cancelled hb⟩

/-- A Series that is there is read. -/
theorem seriesWithOccurrences_eval {sid : UUID} {row : BookingSeries}
    (hrow : SeriesRow db sid row) (t : Int) :
    ∃ result, (seriesWithOccurrences sid).eval db t = .ok result ∧ Shows db sid result := by
  have hsome : (db.series.find? fun s => s.id = sid && !s.isDeleted).isSome = true :=
    List.find?_isSome.mpr ⟨row, hrow.1, by simp [hrow.2.1, hrow.2.2]⟩
  obtain ⟨s, hs⟩ := Option.isSome_iff_exists.mp hsome
  obtain ⟨occurrences, db', hexec⟩ :=
    (listSeriesOccurrences_raiseless sid).exec db t
  obtain ⟨-, hlist⟩ := (eval_readOnly (listSeriesOccurrences_readOnly sid)).mp hexec
  have hread : (seriesWithOccurrences sid).eval db t = .ok
      (toSeriesResult (RecurringBookingRepository.formatRow s) occurrences) := by
    refine (eval_bind_iff (requireSeries_readOnly sid)).mpr
      ⟨RecurringBookingRepository.formatRow s, ?_, ?_⟩
    · refine (eval_bind_iff (ReadOnly.select _)).mpr ⟨_, congrArg Except.ok (congrArg _ hs), rfl⟩
    · exact (eval_bind_iff (listSeriesOccurrences_readOnly sid)).mpr ⟨_, hlist, rfl⟩
  have hexec := eval_ok (seriesWithOccurrences_readOnly sid) hread
  exact ⟨_, hread, (exec_of_solo (seriesWithOccurrences_solo sid) hexec).2⟩

/-- The command of one occurrence. -/
def occurrenceCommand (id : UUID) (reason : Option String) :
    CancelRecurringBookingSeriesCommand :=
  { scope := "occurrence", occurrenceId := some id, cancelReason := reason }

theorem occurrence_targets {sid : UUID} {occs : List OccurrenceResult}
    (hv : db.Valid) (hlist : Lists db sid occs) (hb : b ∈ db.bookings) {reason : Option String} :
    (∃ targets, cancellationTargets occs (occurrenceCommand b.id reason) t = .ok targets) ↔
      OccurrenceOf sid b ∧ t < b.shownStart := by
  unfold cancellationTargets occurrenceCommand requireOccurrence
  rw [if_pos rfl]
  dsimp only
  cases hfind : occs.find? fun o => o.id = b.id with
  | none =>
    refine iff_of_false (by rintro ⟨_, h⟩; cases h) fun h => ?_
    obtain ⟨o, ho, hid, -⟩ := hlist.complete b hb h.1
    exact List.find?_eq_none.mp hfind o ho (decide_eq_true hid)
  | some o =>
    have hid : o.id = b.id := by simpa using List.find?_some hfind
    obtain ⟨b₀, hb₀, hof, hid₀, hstart, -⟩ := hlist.sound o (List.mem_of_find?_eq_some hfind)
    obtain rfl := hv.booking_eq hb₀ hb (hid₀.symm.trans hid)
    dsimp only
    rw [hstart]
    split
    · rename_i hle
      exact iff_of_false (by rintro ⟨_, h⟩; cases h) fun h => absurd hle (not_le.mpr h.2)
    · rename_i hlt
      exact iff_of_true ⟨_, rfl⟩ ⟨hof, not_le.mp hlt⟩

/-- A live occurrence to come is its own target. -/
theorem occurrence_target {sid : UUID} {occs targets : List OccurrenceResult} (hv : db.Valid)
    (hlist : Lists db sid occs) (hb : b ∈ db.bookings) {reason : Option String}
    (hlive : isLive b.status = true)
    (h : cancellationTargets occs (occurrenceCommand b.id reason) t = .ok targets) :
    b.id ∈ targets.map OccurrenceResult.id := by
  obtain ⟨hof, hfuture⟩ := (occurrence_targets hv hlist hb).mp ⟨targets, h⟩
  have hscope : cancellationScopes.contains "occurrence" = true := by decide
  refine (cancellationTargets_iff hv.bookingIds hlist hscope h hb).mpr ?_
  exact ⟨hof, hlive, hfuture, .occurrence rfl rfl⟩

theorem ofExcept_eval {α : Type} (x : Except ApiError α) :
    (ofExcept x : Portal α).eval db t = x := by
  cases x <;> rfl

/-- What `get_my_series` returns to its viewer. -/
theorem getMySeries_shows {sid : UUID} {result : SeriesResult}
    (h : (getMySeries r sid).eval db t = .ok result) : Shows db sid result := by
  obtain ⟨viewer, -, hread⟩ := (eval_bind_iff (BookingService.authenticatedUser_readOnly r)).mp h
  obtain ⟨found, hfound, hrest⟩ := (eval_bind_iff (seriesWithOccurrences_readOnly sid)).mp hread
  obtain ⟨_, -, hret⟩ := (eval_bind_iff (raiseIfNotParticipant_readOnly _ _)).mp hrest
  cases hret
  exact (exec_of_solo (seriesWithOccurrences_solo sid)
    (eval_ok (seriesWithOccurrences_readOnly sid) hfound)).2

/-- Who booked the Series is shown it. -/
theorem getMySeries_own {sid : UUID} {row : BookingSeries} (hv : db.Valid)
    (hrow : SeriesRow db sid row) (hviewer : r.operatorId = some row.userId) :
    ∃ result, (getMySeries r sid).eval db t = .ok result ∧ result.series.userId = row.userId := by
  obtain ⟨result, hresult, ⟨row', hrow', hread⟩, -⟩ := seriesWithOccurrences_eval hrow t
  obtain rfl := hv.series_eq hrow'.1 hrow.1 (hrow'.2.1.trans hrow.2.1.symm)
  have hbooker : result.series.userId = row'.userId := by rw [hread]; rfl
  refine ⟨result, ?_, hbooker⟩
  refine (eval_bind_iff (BookingService.authenticatedUser_readOnly r)).mpr
    ⟨_, authenticatedUser_eval.mpr hviewer, ?_⟩
  refine (eval_bind_iff (seriesWithOccurrences_readOnly sid)).mpr ⟨_, hresult, ?_⟩
  refine (eval_bind_iff (raiseIfNotParticipant_readOnly _ _)).mpr ⟨(), ?_, rfl⟩
  refine (eval_bind_iff (ReadOnly.select _)).mpr ⟨_, rfl, eval_raiseIf_ok.mpr ?_⟩
  simp [isCurrentBookingParticipant, hbooker]

/-- The writes of a cancellation are made: what it names is cancelled. -/
theorem applyCancellation_exec {sid : UUID} {result : SeriesResult}
    {command : CancelRecurringBookingSeriesCommand} {targets : List OccurrenceResult}
    (hshow : Shows db sid result) (hviewer : r.operatorId = some u)
    (hscope : cancellationScopes.contains command.scope = true)
    (htargets : cancellationTargets result.occurrences command t = .ok targets) :
    ∃ out db', (applyCancellation r result command).exec db t = .ok (out, db') ∧
      ∀ b ∈ db.bookings, b.id ∈ targets.map OccurrenceResult.id →
        ∃ b' ∈ db'.bookings, b'.id = b.id ∧ b'.status = .cancelled := by
  obtain ⟨row, hrow, hread⟩ := hshow.1
  have hsid : result.series.id = sid := hshow.1.id
  obtain ⟨_, db₁, hcancel⟩ := (cancelOccurrences_raiseless
    (targets.map OccurrenceResult.id) (some u) command.cancelReason).exec db t
  obtain ⟨cs, hids, hmade, hdb₁⟩ := exec_of_solo (cancelOccurrences_solo _ _ _ db t) hcancel
  obtain ⟨refreshed, db₂, hlist⟩ := (listSeriesOccurrences_raiseless sid).exec db₁ t
  obtain ⟨rfl, hlist⟩ := (eval_readOnly (listSeriesOccurrences_readOnly sid)).mp hlist
  obtain ⟨_, db₃, hclose⟩ := (closeSeriesIf_raiseless u r.operatorName (command.scope =
    "entire_series" || !(refreshed.any fun o => isCancellable o t)) result.series.status).exec db₂ t
  obtain ⟨series', rfl, hseries⟩ := exec_of_solo (closeSeriesIf_solo _ _ _ _) hclose
  have hrow₂ : SeriesRow db₂ sid row := by
    rw [hdb₁]
    exact hrow
  obtain ⟨row', hrow'⟩ := hrow₂.closed hseries
  obtain ⟨out, hout, -⟩ := seriesWithOccurrences_eval
    (show SeriesRow { db₂ with series := series' } sid row' from hrow') t
  refine ⟨out, { db₂ with series := series' }, ?_, fun b hb htarget => ?_⟩
  · refine (exec_reads_iff (ReadOnly.raiseIf _ _)).mpr
      ⟨(), eval_raiseIf_ok.mpr (by simpa using hscope), ?_⟩
    refine (exec_reads_iff ReadOnly.now).mpr ⟨t, rfl, ?_⟩
    refine (exec_reads_iff (ReadOnly.ofExcept _)).mpr
      ⟨targets, (ofExcept_eval _).trans htargets, ?_⟩
    refine (exec_reads_iff (BookingService.authenticatedUser_readOnly r)).mpr
      ⟨u, authenticatedUser_eval.mpr hviewer, ?_⟩
    refine (exec_seq hcancel).trans ?_
    rw [hsid]
    refine (exec_reads_iff (listSeriesOccurrences_readOnly sid)).mpr ⟨refreshed, hlist, ?_⟩
    refine (exec_seq hclose).trans ?_
    exact eval_ok (seriesWithOccurrences_readOnly sid) hout
  · have hin : b.id ∈ cs.map Closing.id := by rw [hids]; exact htarget
    obtain ⟨c, hc, hstatus⟩ := closeAll_status_of_mem hin
    refine ⟨closeAll cs b, ?_, closeAll_id cs b, hstatus.trans (hmade c hc).status⟩
    change closeAll cs b ∈ db₂.bookings
    rw [hdb₁]
    exact List.mem_map_of_mem hb

/-- **An occurrence is cancelled for who booked its Series**, while its start is to come. -/
theorem takesCancel_occurrence (hv : db.Valid) (hb : b ∈ db.bookings) {sid : UUID}
    (hsid : b.seriesId = some sid) {scope reason trimmed : String}
    (hreason : normalizeMemberCancellationReason reason = .ok trimmed) :
    TakesCancel r b scope (some reason) db t ↔ b.isDeleted = false ∧ isLive b.status = true ∧
      BooksSeries db r.operatorId b ∧ t < b.shownStart := by
  unfold TakesCancel cancelCall
  rw [hsid]
  dsimp only
  constructor
  · rintro ⟨db', hexec, hlive, -⟩
    obtain ⟨out, db₁, hcancel, -⟩ := exec_bind_ok hexec
    obtain ⟨result, hresult, hown⟩ := (exec_reads_iff (getMySeries_readOnly r sid)).mp hcancel
    obtain ⟨viewer, hviewer, hraise⟩ :=
      (exec_reads_iff (BookingService.authenticatedUser_readOnly r)).mp hown
    obtain ⟨_, hbooked, hnormal⟩ := (exec_reads_iff (ReadOnly.raiseIf _ _)).mp hraise
    obtain ⟨normal, -, happly⟩ := (exec_reads_iff (ReadOnly.ofExcept _)).mp hnormal
    obtain ⟨_, -, hclock⟩ := (exec_reads_iff (ReadOnly.raiseIf _ _)).mp happly
    obtain ⟨now, hnow, htargets⟩ := (exec_reads_iff ReadOnly.now).mp hclock
    cases hnow
    obtain ⟨targets, htargets, -⟩ := (exec_reads_iff (ReadOnly.ofExcept _)).mp htargets
    rw [ofExcept_eval] at htargets
    obtain ⟨⟨row, hrow, hread⟩, hlist⟩ := getMySeries_shows hresult
    obtain ⟨hof, hfuture⟩ := (occurrence_targets hv hlist hb).mp ⟨targets, htargets⟩
    have hbooker : result.series.userId = viewer := by simpa using eval_raiseIf_ok.mp hbooked
    refine ⟨hof.2, hlive, ⟨sid, row, hsid, hrow, ?_⟩, hfuture⟩
    rw [authenticatedUser_eval.mp hviewer, ← hbooker, hread]
    rfl
  · rintro ⟨hdeleted, hlive, ⟨sid', row, hsid', hrow, hviewer⟩, hfuture⟩
    obtain rfl := Option.some.inj (hsid'.symm.trans hsid)
    obtain ⟨result, hresult, hbooker⟩ := getMySeries_own hv hrow hviewer (t := t)
    have hshow := getMySeries_shows hresult
    obtain ⟨targets, htargets⟩ :
        ∃ targets, cancellationTargets result.occurrences (occurrenceCommand b.id (some trimmed)) t =
          .ok targets := (occurrence_targets hv hshow.2 hb).mpr ⟨⟨hsid, hdeleted⟩, hfuture⟩
    have hscope : cancellationScopes.contains "occurrence" = true := by decide
    obtain ⟨out, db', happly, hcancelled⟩ := applyCancellation_exec hshow hviewer hscope htargets
    have hexec : (cancelMySeries r sid' (occurrenceCommand b.id (some reason))).exec db t = .ok (out, db') := by
      refine (exec_reads_iff (getMySeries_readOnly r sid')).mpr ⟨result, hresult, ?_⟩
      refine (exec_reads_iff (BookingService.authenticatedUser_readOnly r)).mpr
        ⟨_, authenticatedUser_eval.mpr hviewer, ?_⟩
      refine (exec_reads_iff (ReadOnly.raiseIf _ _)).mpr
        ⟨(), eval_raiseIf_ok.mpr (by simp [hbooker]), ?_⟩
      refine (exec_reads_iff (ReadOnly.ofExcept _)).mpr ⟨trimmed, ?_, happly⟩
      exact (ofExcept_eval _).trans hreason
    exact ⟨db', exec_seq hexec, hlive,
      hcancelled b hb (occurrence_target hv hshow.2 hb hlive htargets)⟩

/-! ## 5. The two side by side -/

/-- What is taken, whichever call it goes to. -/
theorem takesCancel_iff (hv : db.Valid) (hb : b ∈ db.bookings) {scope reason trimmed : String}
    (hreason : normalizeMemberCancellationReason reason = .ok trimmed) :
    TakesCancel r b scope (some reason) db t ↔ b.isDeleted = false ∧ isLive b.status = true ∧
      (b.seriesId = none ∧ r.operatorId = some b.userId ∨
        BooksSeries db r.operatorId b ∧ t < b.shownStart) := by
  cases hseries : b.seriesId with
  | none =>
    rw [takesCancel_oneTime hv hb hseries hreason]
    refine and_congr_right fun _ => and_congr_right fun _ => ?_
    refine ⟨fun h => .inl ⟨rfl, h⟩, ?_⟩
    rintro (⟨-, h⟩ | ⟨⟨sid, -, hsid, -⟩, -⟩)
    · exact h
    · cases hseries.symm.trans hsid
  | some sid =>
    rw [takesCancel_occurrence hv hb hseries hreason]
    refine and_congr_right fun _ => and_congr_right fun _ => ?_
    exact ⟨.inr, fun h => h.resolve_left fun h => Option.some_ne_none sid h.1⟩

/-- A one-time Booking has no payment hold to run out. -/
theorem holdRuns_oneTime (hone : b.seriesId = none) : HoldRuns db t b := by
  intro _
  have hnone : paymentHold db b = none := by
    unfold paymentHold
    rw [hone, List.find?_eq_none.mpr (by simp)]
    rfl
  rw [hnone]
  rfl

theorem BooksSeries.occurrence {viewer : Option UUID} (h : BooksSeries db viewer b) :
    b.seriesId ≠ none := by
  obtain ⟨sid, -, hsid, -⟩ := h
  rw [hsid]
  exact Option.some_ne_none sid

/-- What is open to the viewer is what the call takes, but for the misfits. -/
theorem openTo_iff_of_not_misfit {viewer : Option UUID} (h : ¬Misfit app db t viewer b) :
    OpenTo app db t viewer b ↔ b.seriesId = none ∧ viewer = some b.userId ∨
      BooksSeries db viewer b ∧ t < b.shownStart := by
  by_cases hone : b.seriesId = none
  · constructor
    · exact fun hopen => .inl ⟨hone, hopen.1⟩
    · rintro (⟨-, hviewer⟩ | ⟨hbooks, -⟩)
      · exact ⟨hviewer, holdRuns_oneTime hone,
          not_not.mp fun hahead => h (.startedOneTime hone hviewer hahead)⟩
      · exact absurd hone hbooks.occurrence
  · constructor
    · intro hopen
      exact .inr ⟨not_not.mp fun hbooks => h (.seriesOfOther hone hopen hbooks),
        not_le.mp fun hle => h (.wallAhead hone hopen hle)⟩
    · rintro (⟨hnone, -⟩ | ⟨hbooks, hfuture⟩)
      · exact absurd hnone hone
      · exact ⟨not_not.mp fun hviewer => h (.occurrenceOfOther hbooks hfuture hviewer),
          not_not.mp fun hhold => h (.lapsedHold hbooks hfuture hhold),
          not_not.mp fun hahead => h (.wallBehind hbooks hfuture hahead)⟩

/-- Each misfit is one. -/
theorem Misfit.parts {viewer : Option UUID} (h : Misfit app db t viewer b) :
    ¬(OpenTo app db t viewer b ↔ b.seriesId = none ∧ viewer = some b.userId ∨
      BooksSeries db viewer b ∧ t < b.shownStart) := by
  intro hiff
  cases h with
  | startedOneTime hone hviewer hahead => exact hahead (hiff.mpr (.inl ⟨hone, hviewer⟩)).2.2
  | lapsedHold hbooks hfuture hhold => exact hhold (hiff.mpr (.inr ⟨hbooks, hfuture⟩)).2.1
  | wallBehind hbooks hfuture hahead => exact hahead (hiff.mpr (.inr ⟨hbooks, hfuture⟩)).2.2
  | wallAhead hone hopen hle =>
    obtain ⟨hnone, -⟩ | ⟨-, hfuture⟩ := hiff.mp hopen
    · exact hone hnone
    · exact absurd hfuture (not_lt.mpr hle)
  | seriesOfOther hone hopen hbooks =>
    obtain ⟨hnone, -⟩ | ⟨h, -⟩ := hiff.mp hopen
    · exact hone hnone
    · exact hbooks h
  | occurrenceOfOther hbooks hfuture hviewer =>
    exact hviewer (hiff.mpr (.inr ⟨hbooks, hfuture⟩)).1

/-- **Offered and accepted agree**, on a Booking that is deleted or not live, and on a live one
exactly when it is no misfit. -/
theorem cancel_offered_iff_taken (hv : db.Valid) (hb : b ∈ db.bookings)
    {scope reason trimmed : String} (hreason : normalizeMemberCancellationReason reason = .ok trimmed) :
    (OffersCancel app r b.id db t ↔ TakesCancel r b scope (some reason) db t) ↔
      b.isDeleted = true ∨ isLive b.status = false ∨ ¬Misfit app db t r.operatorId b := by
  rw [offersCancel_iff hv hb, takesCancel_iff hv hb hreason]
  cases hdeleted : b.isDeleted with
  | true => simp
  | false =>
    cases hlive : isLive b.status with
    | false => simp
    | true =>
      simp only [true_and, Bool.false_eq_true, Bool.true_eq_false, false_or]
      exact ⟨fun h hmisfit => hmisfit.parts h, openTo_iff_of_not_misfit⟩

/-! ### 5.1 A one-time Booking before and after its start -/

/-- User 7 has the room from 10 on. -/
def oneTimeBooking : Booking :=
  { id := 11, userId := 7, facilityId := 3, bookingType := .oneTime, startAt := 10
    endAt := 10 + hourMicros, status := .confirmed, title := ⟨"choir", choir_length⟩ }

def Db.oneTimeBooked : Db := { Db.oneRoom with bookings := [oneTimeBooking] }

theorem Db.oneTimeBooked_valid : Db.oneTimeBooked.Valid where
  bookingIds := List.nodup_singleton _
  seriesIds := List.nodup_nil
  seriesOf := by
    intro b hb sid hsid
    rw [List.mem_singleton.mp hb] at hsid
    cases hsid

theorem normalize_ill : normalizeMemberCancellationReason "ill" = .ok "ill" := by decide +kernel

/-- Before the start the cancellation is offered, and taken. -/
theorem cancel_offered_iff_taken_before :
    OffersCancel .utc (.numbered 7 100) 11 .oneTimeBooked 0 ∧
      TakesCancel (.numbered 7 100) oneTimeBooking "booking" (some "ill") .oneTimeBooked 0 := by
  have hb : oneTimeBooking ∈ Db.oneTimeBooked.bookings := List.mem_singleton_self _
  have hopen : OpenTo .utc .oneTimeBooked 0 (some 7) oneTimeBooking :=
    ⟨rfl, holdRuns_oneTime rfl, Zone.utc, rfl, by decide⟩
  have hoffers : OffersCancel .utc (.numbered 7 100) 11 .oneTimeBooked 0 :=
    (offersCancel_iff Db.oneTimeBooked_valid hb).mpr ⟨rfl, rfl, hopen⟩
  have hfit : ¬Misfit .utc .oneTimeBooked 0 (some 7) oneTimeBooking :=
    fun h => h.parts (iff_of_true hopen (.inl ⟨rfl, rfl⟩))
  exact ⟨hoffers, ((cancel_offered_iff_taken Db.oneTimeBooked_valid hb normalize_ill).mpr
    (.inr (.inr hfit))).mp hoffers⟩

/-- At the start it is offered no more, and still taken. -/
theorem cancel_taken_not_offered :
    ¬(OffersCancel .utc (.numbered 7 100) 11 .oneTimeBooked 10 ↔
      TakesCancel (.numbered 7 100) oneTimeBooking "booking" (some "ill") .oneTimeBooked 10) := by
  have hb : oneTimeBooking ∈ Db.oneTimeBooked.bookings := List.mem_singleton_self _
  have htaken : TakesCancel (.numbered 7 100) oneTimeBooking "booking" (some "ill")
      .oneTimeBooked 10 :=
    (takesCancel_oneTime Db.oneTimeBooked_valid hb rfl normalize_ill).mpr ⟨rfl, rfl, rfl⟩
  intro hiff
  obtain ⟨-, -, -, -, tz, htz, hahead⟩ :=
    (offersCancel_iff Db.oneTimeBooked_valid hb).mp (hiff.mpr htaken)
  cases htz
  exact absurd hahead (by decide)

end NewlifeCore
