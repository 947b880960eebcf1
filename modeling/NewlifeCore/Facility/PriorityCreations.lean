import NewlifeCore.Facility.MoveSpecs
import NewlifeCore.Facility.OverrideEffect

/-!
# The effect of `create_booking` and `create_series`

Each creation, run alone at one instant, inserts the Bookings it was asked for and displaces
exactly what their slots meet.

* §1 ties the lines of a request to the slots of its rows: a new slot has the room and the interval
  of a line (`bookingSlotRows_line`), so that what it meets is an occupant of that line
  (`bookingSlotRows_occupant`).
* §2, `create_booking`.  The checks under the room locks found no Blackout and no occupant that a
  Priority Ministry may not displace (`reviewBooking_exact`); displacing then overrides each of them
  once and writes one log for it (`displaces_oneTime`, `exec_displaceTargets`).
* §3, `create_series`, where the occurrences are inserted by a loop (`exec_insertOccurrences`) and
  each log names the occurrence that took the room.  That occurrence is looked up by its date, which
  finds the right one because no two have the same (`occurrenceIdByDate_numbered`).  Occurrences are
  a week apart, so that their slots do not meet one another (`seriesSlots_apart`).
* §4: `priorityOverride_effect` is the two together, as an effect on the tables and a frame for the
  rest of them.
-/

namespace NewlifeCore

open Txn Prog RecurringBookingService

variable {db db' : Db} {t : Int}

/-! ## 1. Lines and slots -/

/-- A room interval meets a Booking. -/
def Meets (db : Db) (n : Int) (k : UUID × Int × Int) (id room : UUID) : Prop :=
  k.1 = room ∧ ∃ r, Occupant db n k.1 k.2.1 k.2.2 r ∧ r.2.id = id

theorem mem_lineOccupants {lines : List ResolvedBookingLine} {q : UUID × OccupyingBooking} :
    q ∈ lineOccupants db t lines ↔ ∃ line ∈ lines, ∃ r,
      Occupant db t line.facilityId line.startAt line.endAt r ∧
        (line.facilityId, toOccupying db r.1 r.2) = q := by
  simp only [lineOccupants, occupyingResults, List.mem_flatMap, List.mem_map,
    exists_exists_and_eq_and]

theorem lineOccupants_meets {lines : List ResolvedBookingLine} {id room : UUID} :
    (∃ q ∈ lineOccupants db t lines, q.2.bookingId = id ∧ q.1 = room) ↔
      ∃ k ∈ lines.map ResolvedBookingLine.key, Meets db t k id room := by
  constructor
  · rintro ⟨q, hq, hid, hroom⟩
    obtain ⟨line, hline, r, hr, rfl⟩ := mem_lineOccupants.mp hq
    exact ⟨_, List.mem_map_of_mem hline, hroom, r, hr, hid⟩
  · rintro ⟨k, hk, hroom, r, hr, hid⟩
    obtain ⟨line, hline, rfl⟩ := List.mem_map.mp hk
    exact ⟨_, mem_lineOccupants.mpr ⟨line, hline, r, hr, rfl⟩, hid, hroom⟩

theorem slots_meet {slots : List BookingSlot} {x id room : UUID} :
    (∃ s ∈ slots, s.facilityBookingId = x ∧ s.facilityId = room ∧
      ∃ r, Occupant db t s.facilityId s.startAt s.endAt r ∧ r.2.id = id) ↔
      ∃ s ∈ slots, s.facilityBookingId = x ∧ Meets db t s.key id room := Iff.rfl

theorem bookingSlotRows_meet (slotId : Nat → UUID) (bookingId : UUID) {id room : UUID}
    {lines : List ResolvedBookingLine} :
    (∃ s ∈ bookingSlotRows slotId bookingId lines, Meets db t s.key id room) ↔
      ∃ q ∈ lineOccupants db t lines, q.2.bookingId = id ∧ q.1 = room := by
  rw [lineOccupants_meets, ← (bookingSlotRows_spec slotId bookingId lines).2]
  simp only [List.mem_map, exists_exists_and_eq_and]

/-- A new slot has the room and the interval of one of the lines. -/
theorem bookingSlotRows_line {slotId : Nat → UUID} {bookingId : UUID}
    {lines : List ResolvedBookingLine} {s : BookingSlot}
    (hs : s ∈ bookingSlotRows slotId bookingId lines) : ∃ line ∈ lines,
      line.facilityId = s.facilityId ∧ line.startAt = s.startAt ∧ line.endAt = s.endAt := by
  obtain ⟨i, hi, rfl⟩ := List.mem_mapIdx.mp hs
  exact ⟨_, List.getElem_mem hi, rfl, rfl, rfl⟩

/-- What a new slot meets is an occupant of one of the lines. -/
theorem bookingSlotRows_occupant {slotId : Nat → UUID} {bookingId : UUID}
    {lines : List ResolvedBookingLine} {s : BookingSlot}
    (hs : s ∈ bookingSlotRows slotId bookingId lines) {r : BookingSlot × Booking}
    (hr : Occupant db t s.facilityId s.startAt s.endAt r) :
    ∃ q ∈ lineOccupants db t lines, q.2 = toOccupying db r.1 r.2 := by
  obtain ⟨line, hline, hf, hst, hen⟩ := bookingSlotRows_line hs
  rw [← hf, ← hst, ← hen] at hr
  exact ⟨_, mem_lineOccupants.mpr ⟨line, hline, r, hr, rfl⟩, rfl⟩

/-- **What a creation does**: its effect, with slots for the lines it was asked for, none of which a
Blackout closes. -/
structure CreationEffect (app : App) (c : Call) (db : Db) (n : Int) (new : List Booking)
    (slots : List BookingSlot) (logs : List BookingOverrideLog) (db' : Db) : Prop where
  effect : ∃ operatorId, c.request.operatorId = some operatorId ∧
    PriorityEffect db n operatorId new slots logs db'
  fresh : ∀ b ∈ new, ∀ b' ∈ db.bookings, b'.id ≠ b.id
  owned : ∀ s ∈ slots, ∃ b ∈ new, b.id = s.facilityBookingId
  asked : ∀ b ∈ new, ∃ lines, c.Creates b lines ∧
    (slots.filter fun s => s.facilityBookingId = b.id).map BookingSlot.key =
      lines.map ResolvedBookingLine.key
  opened : ∃ tz, zoneOf app db = some tz ∧
    ∀ s ∈ slots, NoBlackout db n tz s.facilityId s.startAt s.endAt

/-! ## 2. `create_booking` -/

theorem raiseIfRoomClosed_eval {facilityId : UUID} {startAt endAt : Int} {tz : Zone}
    {enforce : Bool} (h : (raiseIfRoomClosed facilityId startAt endAt tz enforce).eval db t =
      .ok ()) : NoBlackout db t tz facilityId startAt endAt := by
  obtain ⟨closed, hclosed, h⟩ := (eval_bind_iff (hasBlackoutOverlap_readOnly _ _ _ _)).mp h
  obtain ⟨u, hraise, -⟩ := (eval_bind_iff (ReadOnly.raiseIf _ _)).mp h
  rw [eval_raiseIf_ok.mp hraise] at hclosed
  exact hclosed

/-- What the checks under the room locks found, at one instant. -/
theorem reviewBooking_exact {app : App} {command : CreateBookingCommand}
    {p : BookingService.Proposal} {review : BookingService.Review}
    (h : (BookingService.reviewBooking app command p).eval db t = .ok review) :
    EvaluationExact db t t p.lines review.evaluation ∧
    (review.evaluation.targets ≠ [] → review.context.isSome) ∧
    ∀ line ∈ p.lines, NoBlackout db t p.localTz line.facilityId line.startAt line.endAt := by
  obtain ⟨nowUtc, hnow, h⟩ := (eval_bind_iff ReadOnly.now).mp h
  cases hnow
  obtain ⟨context, -, h⟩ := (eval_bind_iff (proposalContext_readOnly _ _)).mp h
  obtain ⟨evaluation, heval, h⟩ :=
    (eval_bind_iff (evaluateOneTimeOccupancy_readOnly _ _ _ _ _)).mp h
  obtain ⟨u, hconflict, h⟩ :=
    (eval_bind_iff (BookingService.raiseSchedulingConflict_readOnly _)).mp h
  obtain ⟨u, hclosed, h⟩ := (eval_bind_iff
    (ReadOnly.each (fun _ => raiseIfRoomClosed_readOnly _ _ _ _ _) _)).mp h
  obtain ⟨u, -, h⟩ := (eval_bind_iff (ReadOnly.ofExcept _)).mp h
  obtain ⟨quote, -, h⟩ := (eval_bind_iff (PricingService.previewQuote_readOnly _)).mp h
  cases h
  have hnone : evaluation.conflicts = [] := exec_returns (Ψ := fun _ => evaluation.conflicts = [])
    (raiseSchedulingConflict_returns _)
    (eval_ok (BookingService.raiseSchedulingConflict_readOnly _) hconflict)
  obtain ⟨hexact, hcontext⟩ := evaluateOneTimeOccupancy_exact heval hnone
  rw [eval_each_ok fun _ => raiseIfRoomClosed_readOnly _ _ _ _ _] at hclosed
  exact ⟨hexact, hcontext, fun line hline => raiseIfRoomClosed_eval (hclosed line hline)⟩

theorem displaces_oneTime {lines : List ResolvedBookingLine} {e : OneTimeOccupancyEvaluation}
    (he : EvaluationExact db t t lines e) (slotId : Nat → UUID) (bookingId : UUID) :
    Displaces db t (bookingSlotRows slotId bookingId lines)
      (e.targets.map fun target => (bookingId, target)) where
  overridable s hs r hr := by
    obtain ⟨q, hq, heq⟩ := bookingSlotRows_occupant hs hr
    have := he.overridable q hq
    rw [heq] at this
    exact this
  pairs x id room := by
    rw [slots_meet]
    have hslots : (∃ s ∈ bookingSlotRows slotId bookingId lines, s.facilityBookingId = x ∧
        Meets db t s.key id room) ↔ bookingId = x ∧
        ∃ q ∈ lineOccupants db t lines, q.2.bookingId = id ∧ q.1 = room := by
      rw [← bookingSlotRows_meet slotId bookingId]
      have hid := (bookingSlotRows_spec slotId bookingId lines).1
      constructor
      · rintro ⟨s, hs, hx, hm⟩
        exact ⟨(hid s hs).1.symm.trans hx, s, hs, hm⟩
      · rintro ⟨hx, s, hs, hm⟩
        exact ⟨s, hs, (hid s hs).1.trans hx, hm⟩
    rw [hslots, ← he.targets]
    constructor
    · rintro ⟨p, hp, hx, hid, hroom⟩
      obtain ⟨target, htarget, rfl⟩ := List.mem_map.mp hp
      exact ⟨hx, target, htarget, hid, hroom⟩
    · rintro ⟨hx, target, htarget, hid, hroom⟩
      exact ⟨_, List.mem_map_of_mem htarget, hx, hid, hroom⟩
  rooms p hp := by
    obtain ⟨target, htarget, rfl⟩ := List.mem_map.mp hp
    exact he.rooms target htarget
  once := by
    rw [List.map_map]
    exact List.Nodup.of_map Prod.snd (by simpa [Function.comp_def] using he.ids)

/-- The displacement of a one-time Booking, which no target leaves nothing to do for. -/
theorem exec_displaceTargets {ids : Uuids} {p : BookingService.Proposal}
    {review : BookingService.Review}
    (hcontext : review.evaluation.targets ≠ [] → review.context.isSome)
    (h : (BookingService.displaceTargets ids p review).exec db t = .ok ((), db')) :
    (applyWholeBookingOverrides
      (review.evaluation.targets.map fun target => (ids.booking 0, target))
      p.operatorId ids.overrideLog).exec db t = .ok ((), db') := by
  unfold BookingService.displaceTargets at h
  split at h
  · exact h
  · rename_i hskip
    have hnil : review.evaluation.targets = [] := by
      by_contra hne
      refine hskip ?_
      rw [Bool.and_eq_true, Bool.not_eq_true']
      exact ⟨List.isEmpty_eq_false_iff.mpr hne, hcontext hne⟩
    rw [hnil]
    exact h

/-- Deleting a Draft touches Drafts only. -/
theorem exec_deleteOwnedDraft {bookingDraftId : Option UUID} {p : BookingService.Proposal}
    (h : (BookingService.deleteOwnedDraft bookingDraftId p).exec db t = .ok ((), db')) :
    ∃ drafts lines, db' = { db with drafts := drafts, draftLines := lines } := by
  unfold BookingService.deleteOwnedDraft at h
  split at h
  · cases h
    exact ⟨_, _, rfl⟩
  · split at h
    · obtain ⟨u, db₁, h₁, h₂⟩ := exec_bind_ok h
      rw [exec_deleteFrom] at h₁ h₂
      cases h₁
      cases h₂
      exact ⟨_, _, rfl⟩
    · cases h
      exact ⟨_, _, rfl⟩

theorem PriorityEffect.drafts {n : Int} {operatorId : UUID} {new : List Booking}
    {slots : List BookingSlot} {logs : List BookingOverrideLog}
    (h : PriorityEffect db n operatorId new slots logs db') (drafts : List BookingDraft)
    (lines : List BookingDraftLine) : PriorityEffect db n operatorId new slots logs
      { db' with drafts := drafts, draftLines := lines } :=
  ⟨h.bookings, h.bookingSlots, h.overrideLogs, h.logged, h.loggedOnce, h.clear, h.blackouts⟩

theorem slotsApart_of_one {slots : List BookingSlot} {id : UUID}
    (h : ∀ s ∈ slots, s.facilityBookingId = id) : SlotsApart slots := fun s hs s' hs' _ _ =>
  (h s' hs').trans (h s hs).symm

/-- **The effect of `create_booking`.** -/
theorem createBooking_effect (app : App) {c : Call} {command : CreateBookingCommand}
    (hc : c.operation = .createBooking command) (hv : db.Valid) (hdb : db.SlotsOwned) {id : UUID}
    (h : (BookingService.createBooking app c.request command).exec db t = .ok (id, db')) :
    ∃ new slots logs, CreationEffect app c db t new slots logs db' := by
  set r := c.request with hr
  obtain ⟨p, hp, h⟩ := (exec_reads_iff (BookingService.prepareBooking_readOnly app r command)).mp h
  obtain ⟨v, w, hsv, hsw, hprep⟩ := exec_of_wp_alone
    (fun v => prepareBooking_wp app r command v)
    (eval_ok (BookingService.prepareBooking_readOnly app r command) hp)
  obtain ⟨u, db₀, hlock, h⟩ := exec_bind_ok h
  rw [exec_lockRooms] at hlock
  cases hlock
  obtain ⟨review, hreview, h⟩ :=
    (exec_reads_iff (BookingService.reviewBooking_readOnly app command p)).mp h
  obtain ⟨hexact, hcontext, hopened⟩ := reviewBooking_exact hreview
  obtain ⟨u, db₁, hinsert, h⟩ := exec_bind_ok h
  obtain ⟨hb, rfl⟩ := (exec_insertWithLines _ _ _).mp hinsert
  obtain ⟨u, db₂, hdisplace, h⟩ := exec_bind_ok h
  obtain ⟨u, db₃, hdraft, h⟩ := exec_bind_ok h
  cases h
  obtain ⟨drafts, lines, rfl⟩ := exec_deleteOwnedDraft hdraft
  set b := BookingService.bookingRow r.ids command p review.quote with hbook
  set slots := bookingSlotRows (r.ids.bookingSlot 0) (r.ids.booking 0) p.lines with hslots
  obtain ⟨hrows, hkeys⟩ := bookingSlotRows_spec (r.ids.bookingSlot 0) (r.ids.booking 0) p.lines
  have hcreates : c.Creates b p.lines := by
    simp only [Call.Creates, hc]
    exact ⟨rfl, hprep.lines⟩
  have hnothing : Inserted c.Creates db [] [] db :=
    .nothing rfl rfl rfl rfl (List.append_nil _).symm
  have hins := hnothing.step hdb hb (fun s hs => (hrows s hs).1) hcreates hkeys
  have heffect := (displaces_oneTime hexact (r.ids.bookingSlot 0) (r.ids.booking 0)).effect hv hdb
    hins (slotsApart_of_one fun s hs => (hrows s hs).1) (exec_displaceTargets hcontext hdisplace)
  refine ⟨[b], slots, _, ⟨p.operatorId, hprep.operator, heffect.drafts drafts lines⟩, hins.fresh,
    hins.owned, hins.asked, p.localTz, read_alone hprep.zone hsv hsw, fun s hs => ?_⟩
  obtain ⟨line, hline, hf, hst, hen⟩ := bookingSlotRows_line hs
  rw [← hf, ← hst, ← hen]
  exact hopened line hline

/-! ## 3. `create_series` -/

/-- The Bookings of the occurrences. -/
def seriesBookings (ids : Uuids) (command : CreateRecurringBookingSeriesCommand)
    (title : BookingTitle) (bookerId : UUID) (status : BookingStatus)
    (xs : List (Nat × PreparedOccurrence × Quote)) : List Booking :=
  xs.map fun x => occurrenceRow ids command title bookerId status x.1 x.2.1 x.2.2

/-- Their slots. -/
def seriesSlots (ids : Uuids) (rooms : List BookingRoomLineCommand)
    (xs : List (Nat × PreparedOccurrence × Quote)) : List BookingSlot :=
  xs.flatMap fun x =>
    bookingSlotRows (ids.bookingSlot x.1) (ids.booking x.1) (occurrenceLines rooms x.2.1)

theorem exec_insertSeries {s : BookingSeries}
    (h : (RecurringBookingRepository.insertSeries s).exec db t = .ok ((), db')) :
    db' = { db with series := db.series ++ [s] } := by
  obtain ⟨-, rfl⟩ := (exec_insertInto seriesTable _ [s]).mp h
  rfl

/-- **The loop that inserts the occurrences** adds each with its slots. -/
theorem exec_insertOccurrences {db₀ : Db} {c : Call} {command : CreateRecurringBookingSeriesCommand}
    (hc : c.operation = .createSeries command) (hdb : db.SlotsOwned) {title : BookingTitle}
    {bookerId : UUID} {status : BookingStatus} {xs : List (Nat × PreparedOccurrence × Quote)}
    (hxs : ∀ x ∈ xs, AskedFor command x.2.1) {out : List OccurrenceResult}
    (h₀ : Inserted c.Creates db [] [] db₀)
    (h : (mapEach xs (insertOccurrence c.request.ids command title bookerId status)).exec db₀ t =
      .ok (out, db')) :
    Inserted c.Creates db (seriesBookings c.request.ids command title bookerId status xs)
      (seriesSlots c.request.ids command.rooms xs) db' := by
  refine exec_mapEach (fun done _ db₁ =>
    Inserted c.Creates db (seriesBookings c.request.ids command title bookerId status done)
      (seriesSlots c.request.ids command.rooms done) db₁) xs [] [] h₀ ?_ h
  intro done out x db₁ res db₂ hx hinv hstep
  obtain ⟨u, db₃, hinsert, hret⟩ := exec_bind_ok hstep
  cases hret
  obtain ⟨hb, rfl⟩ := (exec_insertWithLines _ _ _).mp hinsert
  obtain ⟨hrows, hkeys⟩ := bookingSlotRows_spec (c.request.ids.bookingSlot x.1)
    (c.request.ids.booking x.1) (occurrenceLines command.rooms x.2.1)
  have hcreates : c.Creates
      (occurrenceRow c.request.ids command title bookerId status x.1 x.2.1 x.2.2)
      (occurrenceLines command.rooms x.2.1) := by
    simp only [Call.Creates, hc]
    obtain ⟨tz, hd, hex, hstart, hend⟩ := hxs x hx
    exact ⟨rfl, ⟨_, tz, hd, hex, hstart, hend⟩, rfl⟩
  rw [seriesBookings, seriesSlots, List.map_append, List.flatMap_append, List.flatMap_cons,
    List.flatMap_nil, List.append_nil]
  exact hinv.step hdb hb (fun s hs => (hrows s hs).1) hcreates hkeys

theorem exists_numbered {remaining : List PreparedOccurrence} {quotes : List Quote}
    (hlen : quotes.length = remaining.length) {o : PreparedOccurrence} (ho : o ∈ remaining) :
    ∃ x ∈ numbered remaining quotes, x.2.1 = o := by
  obtain ⟨i, hi, rfl⟩ := List.getElem_of_mem ho
  have hz : i < (remaining.zip quotes).length := by rw [List.length_zip]; omega
  exact ⟨_, List.mem_mapIdx.mpr ⟨i, hz, rfl⟩, by simp⟩

/-- The occurrence of a date is found again by its date. -/
theorem occurrenceIdByDate_numbered {ids : Uuids} {remaining : List PreparedOccurrence}
    {quotes : List Quote} (hdates : (remaining.map PreparedOccurrence.occurrenceDate).Nodup)
    {x : Nat × PreparedOccurrence × Quote} (hx : x ∈ numbered remaining quotes) :
    occurrenceIdByDate ids remaining x.2.1.occurrenceDate = some (ids.booking x.1) := by
  obtain ⟨i, hi, rfl⟩ := List.mem_mapIdx.mp hx
  rw [List.length_zip] at hi
  set l := remaining.mapIdx fun idx o => (o.occurrenceDate, ids.booking idx) with hl
  have hfst : l.map Prod.fst = remaining.map PreparedOccurrence.occurrenceDate :=
    List.ext_getElem (by simp [hl]) fun j h₁ h₂ => by simp [hl]
  have hmem : (remaining[i].occurrenceDate, ids.booking i) ∈ l :=
    List.mem_mapIdx.mpr ⟨i, by omega, rfl⟩
  have hsome : (l.reverse.find? fun p => p.1 = remaining[i].occurrenceDate).isSome = true :=
    List.find?_isSome.mpr ⟨_, List.mem_reverse.mpr hmem, by simp⟩
  obtain ⟨p, hp⟩ := Option.isSome_iff_exists.mp hsome
  have hdate : p.1 = remaining[i].occurrenceDate := by simpa using List.find?_some hp
  have heq : p = (remaining[i].occurrenceDate, ids.booking i) :=
    List.inj_on_of_nodup_map (hfst ▸ hdates) (List.mem_reverse.mp (List.mem_of_find?_eq_some hp))
      hmem hdate
  simp only [List.getElem_zip]
  rw [occurrenceIdByDate, ← hl, hp, heq]
  rfl

theorem replacements_eq {ids : Uuids} {remaining : List PreparedOccurrence} :
    ∀ {targets : List (Int × OverrideTarget)} {pairs : List (UUID × OverrideTarget)},
      replacements ids remaining targets = .ok pairs →
      pairs = targets.map fun p => ((occurrenceIdByDate ids remaining p.1).getD 0, p.2)
  | [], _, h => by cases h; rfl
  | (d, target) :: rest, pairs, h => by
    unfold replacements at h
    split at h
    · rename_i id pairs' hid hrest
      cases h
      rw [List.map_cons, hid, replacements_eq hrest]
      rfl
    · cases h
    · cases h

theorem mem_seriesSlots {ids : Uuids} {rooms : List BookingRoomLineCommand}
    {xs : List (Nat × PreparedOccurrence × Quote)} {s : BookingSlot} :
    s ∈ seriesSlots ids rooms xs ↔ ∃ x ∈ xs, s ∈ bookingSlotRows (ids.bookingSlot x.1)
      (ids.booking x.1) (occurrenceLines rooms x.2.1) := List.mem_flatMap

/-- What the checks under the room locks found, at one instant. -/
structure SeriesReviewExact (db : Db) (n : Int) (command : CreateRecurringBookingSeriesCommand)
    (prepared : PreparedSeries) (review : SeriesReview) : Prop where
  remaining : review.remaining = remainingOccurrences command prepared
  quotes : review.quotes.length = review.remaining.length
  overridable : ∀ o ∈ review.remaining, ∀ m ∈ occurrenceOccupants db n command.rooms o,
    m.ministryId = none ∧ overridable prepared m = true
  opened : ∀ o ∈ review.remaining, ∀ room ∈ command.rooms,
    NoBlackout db n prepared.localTz room.facilityId o.startAt o.endAt
  targets : SeriesTargetsExact db n command.rooms review.remaining review.targets

theorem reviewSeries_exact {app : App} {command : CreateRecurringBookingSeriesCommand}
    {prepared : PreparedSeries} {review : SeriesReview}
    (h : (reviewSeries app command prepared).eval db t = .ok review) :
    SeriesReviewExact db t command prepared review := by
  obtain ⟨kept, hkept, h⟩ := (eval_bind_iff (unexcludedOccurrences_readOnly _ _)).mp h
  obtain ⟨targets, htargets, h⟩ := (eval_bind_iff (overrideTargets_readOnly _ _)).mp h
  obtain ⟨u, -, h⟩ := (eval_bind_iff (ReadOnly.ofExcept _)).mp h
  obtain ⟨quotes, hquotes, h⟩ :=
    (eval_bind_iff (ReadOnly.mapEach (quoteOccurrence_readOnly _ _) _)).mp h
  obtain ⟨hold, -, h⟩ := (eval_bind_iff (seriesPaymentHold_readOnly _ _ _)).mp h
  cases h
  have hexact := unexcludedOccurrences_exact hkept
  rw [eval_mapEach_ok (quoteOccurrence_readOnly _ _)] at hquotes
  exact ⟨hexact.remaining, hquotes.length_eq.symm, hexact.overridable, hexact.opened,
    hexact.targets htargets⟩

/-- A target is a Booking that a Priority Ministry may displace. -/
theorem SeriesReviewExact.priority {command : CreateRecurringBookingSeriesCommand}
    {prepared : PreparedSeries} {review : SeriesReview}
    (h : SeriesReviewExact db t command prepared review) (hne : review.targets ≠ []) :
    prepared.isPriority = true := by
  obtain ⟨target, htarget⟩ := List.exists_mem_of_ne_nil _ hne
  obtain ⟨room, hroom⟩ := List.exists_mem_of_ne_nil _ (h.targets.rooms target htarget).2
  obtain ⟨o, ho, -, hq⟩ :=
    (h.targets.occupants _ _ room).mp ⟨target, htarget, rfl, rfl, hroom⟩
  obtain ⟨m, hm, -, -⟩ := ((occurrenceOccupants_exact command.rooms o).rows _ _).mpr hq
  have := (h.overridable o ho m hm).2
  simp only [RecurringBookingService.overridable, Bool.and_eq_true] at this
  exact this.1

theorem displaces_series {ids : Uuids} {command : CreateRecurringBookingSeriesCommand}
    {prepared : PreparedSeries} {review : SeriesReview}
    (h : SeriesReviewExact db t command prepared review) (hv : db.Valid)
    (hnow : prepared.nowUtc = t)
    (hdates : (review.remaining.map PreparedOccurrence.occurrenceDate).Nodup)
    (hids : ((numbered review.remaining review.quotes).map fun x => ids.booking x.1).Nodup)
    {pairs : List (UUID × OverrideTarget)}
    (hpairs : replacements ids review.remaining review.targets = .ok pairs) :
    Displaces db t (seriesSlots ids command.rooms (numbered review.remaining review.quotes))
      pairs := by
  set xs := numbered review.remaining review.quotes with hxs
  obtain rfl := replacements_eq hpairs
  -- a target's date is an occurrence's, whose Booking replaces it
  have hid : ∀ x ∈ xs,
      (occurrenceIdByDate ids review.remaining x.2.1.occurrenceDate).getD 0 = ids.booking x.1 :=
    fun x hx => by rw [occurrenceIdByDate_numbered hdates hx]; rfl
  have hdate : ∀ target ∈ review.targets, ∃ x ∈ xs, x.2.1.occurrenceDate = target.1 := by
    intro target htarget
    obtain ⟨room, hroom⟩ := List.exists_mem_of_ne_nil _ (h.targets.rooms target htarget).2
    obtain ⟨o, ho, hd, -⟩ :=
      (h.targets.occupants _ _ room).mp ⟨target, htarget, rfl, rfl, hroom⟩
    obtain ⟨x, hx, rfl⟩ := exists_numbered h.quotes ho
    exact ⟨x, hx, hd⟩
  refine ⟨fun s hs r hr => ?_, fun x id room => ?_, fun p hp => ?_, ?_⟩
  · obtain ⟨x, hx, hsx⟩ := mem_seriesSlots.mp hs
    obtain ⟨q, hq, heq⟩ := bookingSlotRows_occupant hsx hr
    have ho := mem_numbered hx
    have hexact : MergedExact (lineOccupants db t (occurrenceLines command.rooms x.2.1)) _ :=
      occurrenceOccupants_exact command.rooms x.2.1
    obtain ⟨m, hm, hmid, -⟩ := (hexact.rows q.2.bookingId q.1).mpr ⟨q, hq, rfl, rfl⟩
    obtain ⟨q', hq', hsame⟩ := hexact.same m hm
    obtain ⟨line, -, r', hr', rfl⟩ := mem_lineOccupants.mp hq'
    have hbid : r'.2.id = r.2.id := by
      have := hsame.1.symm.trans hmid
      rwa [heq] at this
    have hb := hv.booking_eq (mem_occupyingRows.mp hr').2.1 (mem_occupyingRows.mp hr).2.1 hbid
    obtain ⟨hmin, hover⟩ := h.overridable x.2.1 ho m hm
    simp only [overridable, Bool.and_eq_true, decide_eq_true_eq, gt_iff_lt] at hover
    rw [← hb]
    exact ⟨hsame.2.2.symm.trans hmin, hnow ▸ lt_of_lt_of_eq hover.2 hsame.2.1⟩
  · rw [slots_meet]
    constructor
    · rintro ⟨p, hp, hpx, hpid, hroom⟩
      obtain ⟨target, htarget, rfl⟩ := List.mem_map.mp hp
      obtain ⟨o, ho, hd, hq⟩ :=
        (h.targets.occupants target.1 id room).mp ⟨target, htarget, rfl, hpid, hroom⟩
      obtain ⟨y, hy, rfl⟩ := exists_numbered h.quotes ho
      obtain ⟨s, hs, hmeets⟩ :=
        (bookingSlotRows_meet (ids.bookingSlot y.1) (ids.booking y.1)).mpr hq
      refine ⟨s, mem_seriesSlots.mpr ⟨y, hy, hs⟩, ?_, hmeets⟩
      rw [((bookingSlotRows_spec _ _ _).1 s hs).1, ← hid y hy, hd]
      exact hpx
    · rintro ⟨s, hs, hsx, hmeets⟩
      obtain ⟨y, hy, hsy⟩ := mem_seriesSlots.mp hs
      have hq := (bookingSlotRows_meet (ids.bookingSlot y.1) (ids.booking y.1)).mp ⟨s, hsy, hmeets⟩
      obtain ⟨target, htarget, hd, hpid, hroom⟩ := (h.targets.occupants _ id room).mpr
        ⟨y.2.1, mem_numbered hy, rfl, hq⟩
      refine ⟨_, List.mem_map_of_mem htarget, ?_, hpid, hroom⟩
      rw [hd, hid y hy, ← hsx]
      exact (((bookingSlotRows_spec _ _ _).1 s hsy).1).symm
  · obtain ⟨target, htarget, rfl⟩ := List.mem_map.mp hp
    exact h.targets.rooms target htarget
  · rw [List.map_map]
    have hnodup := h.targets.ids hdates
    refine List.Nodup.map_on ?_ (List.Nodup.of_map _ hnodup)
    intro p hp q hq hpq
    obtain ⟨x, hx, hxd⟩ := hdate p hp
    obtain ⟨y, hy, hyd⟩ := hdate q hq
    obtain ⟨h₁, h₂⟩ := Prod.mk.inj hpq
    have hbooking : ids.booking x.1 = ids.booking y.1 := by
      rw [← hid x hx, ← hid y hy, hxd, hyd]
      exact h₁
    have hxy := List.inj_on_of_nodup_map hids hx hy hbooking
    refine List.inj_on_of_nodup_map hnodup hp hq (Prod.ext ?_ h₂)
    rw [← hxd, ← hyd, hxy]

/-- The occurrences that are kept are a week apart, one way or the other. -/
theorem remaining_apart {command : CreateRecurringBookingSeriesCommand}
    {prepared : PreparedSeries} (h : prepareOccurrences command.localStartTime
      command.localEndTime prepared.localTz (weeklyOccurrenceDates command.firstOccurrenceDate
        command.lastOccurrenceDate) = .ok prepared.occurrences) :
    ((remainingOccurrences command prepared).map PreparedOccurrence.occurrenceDate).Nodup ∧
    ∀ o ∈ remainingOccurrences command prepared, ∀ o' ∈ remainingOccurrences command prepared,
      o.occurrenceDate = o'.occurrenceDate ∨ o.endAt ≤ o'.startAt ∨ o'.endAt ≤ o.startAt := by
  obtain ⟨hdates, hon⟩ := prepareOccurrences_ok h
  have hpair : ((remainingOccurrences command prepared).map
      PreparedOccurrence.occurrenceDate).Pairwise fun a b => a + 7 ≤ b := by
    have := weeklyOccurrenceDates_pairwise command.firstOccurrenceDate command.lastOccurrenceDate
    rw [← hdates] at this
    exact this.sublist (List.filter_sublist.map _)
  refine ⟨hpair.imp fun {a b} hab => by omega, fun o ho o' ho' => ?_⟩
  have hweeks := List.pairwise_map.mp hpair
  have hall := List.Pairwise.forall_of_forall_of_flip (R := fun o o' : PreparedOccurrence =>
    o.occurrenceDate = o'.occurrenceDate ∨ o.occurrenceDate + 7 ≤ o'.occurrenceDate ∨
      o'.occurrenceDate + 7 ≤ o.occurrenceDate) (fun _ _ => .inl rfl)
    (hweeks.imp fun hab => .inr (.inl hab)) (hweeks.imp fun hab => .inr (.inr hab)) ho ho'
  have htimes : ∀ {a b : PreparedOccurrence}, a ∈ remainingOccurrences command prepared →
      b ∈ remainingOccurrences command prepared → a.occurrenceDate + 7 ≤ b.occurrenceDate →
      a.endAt ≤ b.startAt := by
    intro a b ha hb hab
    have hend := (localizeWallTime_some (hon a (List.mem_filter.mp ha).1).2).1
    have hstart := (localizeWallTime_some (hon b (List.mem_filter.mp hb).1).1).1
    rw [hend, hstart]
    exact toUtc_week_apart _ _ _ hab
  exact hall.imp id fun h => h.imp (htimes ho ho') (htimes ho' ho)

theorem seriesSlots_apart {ids : Uuids} {command : CreateRecurringBookingSeriesCommand}
    {remaining : List PreparedOccurrence} {quotes : List Quote}
    (hdates : (remaining.map PreparedOccurrence.occurrenceDate).Nodup)
    (hapart : ∀ o ∈ remaining, ∀ o' ∈ remaining,
      o.occurrenceDate = o'.occurrenceDate ∨ o.endAt ≤ o'.startAt ∨ o'.endAt ≤ o.startAt) :
    SlotsApart (seriesSlots ids command.rooms (numbered remaining quotes)) := by
  intro s hs s' hs' _ hover
  obtain ⟨x, hx, hsx⟩ := mem_seriesSlots.mp hs
  obtain ⟨y, hy, hsy⟩ := mem_seriesSlots.mp hs'
  have htimes : ∀ {z : Nat × PreparedOccurrence × Quote} {s : BookingSlot},
      s ∈ bookingSlotRows (ids.bookingSlot z.1) (ids.booking z.1)
        (occurrenceLines command.rooms z.2.1) →
      s.startAt = z.2.1.startAt ∧ s.endAt = z.2.1.endAt := by
    intro z s hs
    obtain ⟨line, hline, -, hst, hen⟩ := bookingSlotRows_line hs
    obtain ⟨room, -, rfl⟩ := List.mem_map.mp hline
    exact ⟨hst.symm, hen.symm⟩
  obtain ⟨hst, hen⟩ := htimes hsx
  obtain ⟨hst', hen'⟩ := htimes hsy
  simp only [overlaps, Bool.and_eq_true, decide_eq_true_eq, gt_iff_lt] at hover
  rw [hst, hen, hst', hen'] at hover
  rcases hapart _ (mem_numbered hx) _ (mem_numbered hy) with hd | hle | hle
  · have hbooking : some (ids.booking x.1) = some (ids.booking y.1) := by
      rw [← occurrenceIdByDate_numbered hdates hx, ← occurrenceIdByDate_numbered hdates hy, hd]
    rw [((bookingSlotRows_spec _ _ _).1 s hsx).1, ((bookingSlotRows_spec _ _ _).1 s' hsy).1]
    exact (Option.some.inj hbooking).symm
  · omega
  · omega

/-- The displacement of a Series, which no target leaves nothing to do for. -/
theorem exec_displaceSeriesTargets {ids : Uuids} {command : CreateRecurringBookingSeriesCommand}
    {prepared : PreparedSeries} {review : SeriesReview}
    (hministry : review.targets ≠ [] → command.ministryId.isSome)
    (h : (displaceSeriesTargets ids command prepared review).exec db t = .ok ((), db')) :
    ∃ pairs, replacements ids review.remaining review.targets = .ok pairs ∧
      (applyWholeBookingOverrides pairs prepared.operatorId ids.overrideLog).exec db t =
        .ok ((), db') := by
  unfold displaceSeriesTargets at h
  split at h
  · obtain ⟨pairs, db₁, h₁, h₂⟩ := exec_bind_ok h
    rw [exec_ofExcept] at h₁
    cases hr : replacements ids review.remaining review.targets with
    | error e => rw [hr] at h₁; cases h₁
    | ok pairs' =>
      rw [hr] at h₁
      cases h₁
      exact ⟨pairs, rfl, h₂⟩
  · rename_i hskip
    have hnil : review.targets = [] := by
      by_contra hne
      refine hskip ?_
      rw [Bool.and_eq_true, Bool.not_eq_true']
      exact ⟨List.isEmpty_eq_false_iff.mpr hne, hministry hne⟩
    rw [hnil]
    exact ⟨[], rfl, h⟩

/-- **The effect of `create_series`.** -/
theorem createSeries_effect (app : App) {c : Call} {command : CreateRecurringBookingSeriesCommand}
    (hc : c.operation = .createSeries command) (hv : db.Valid) (hdb : db.SlotsOwned)
    {res : SeriesResult}
    (h : (createSeries app c.request command).exec db t = .ok (res, db')) :
    ∃ new slots logs, CreationEffect app c db t new slots logs db' := by
  set r := c.request with hr
  have htitle : ReadOnly (requireTitle command) := by unfold requireTitle; split <;> trivial
  obtain ⟨title, -, h⟩ := (exec_reads_iff htitle).mp h
  obtain ⟨prepared, hp, h⟩ := (exec_reads_iff (prepareSeries_readOnly app r command)).mp h
  obtain ⟨v, w, hsv, hsw, hprep⟩ := exec_of_wp_alone (fun v => prepareSeries_wp app r command v)
    (eval_ok (prepareSeries_readOnly app r command) hp)
  have hnow : prepared.nowUtc = t :=
    le_antisymm (hsw.2.1 ▸ hprep.until_) (hsv.2.1 ▸ hprep.since)
  obtain ⟨u, db₀, hlock, h⟩ := exec_bind_ok h
  rw [exec_lockRooms] at hlock
  cases hlock
  obtain ⟨review, hreview, h⟩ :=
    (exec_reads_iff (reviewSeries_readOnly app command prepared)).mp h
  have hexact := reviewSeries_exact hreview
  obtain ⟨u, db₁, hinsert, h⟩ := exec_bind_ok h
  have hdb₁ := exec_insertSeries hinsert
  obtain ⟨out, db₂, hloop, h⟩ := exec_bind_ok h
  obtain ⟨u, db₃, hdisplace, h⟩ := exec_bind_ok h
  cases h
  obtain ⟨hdates, hapart⟩ := remaining_apart hprep.occurrences
  rw [← hexact.remaining] at hdates hapart
  have hasked : ∀ x ∈ numbered review.remaining review.quotes, AskedFor command x.2.1 :=
    fun x hx => hprep.asked _ (hexact.remaining ▸ mem_numbered hx)
  have hnothing : Inserted c.Creates db [] [] db₁ := by
    rw [hdb₁]
    exact .nothing rfl rfl rfl rfl rfl
  have hins := exec_insertOccurrences hc hdb hasked hnothing hloop
  have hids : ((numbered review.remaining review.quotes).map fun x => r.ids.booking x.1).Nodup := by
    have := hins.ids
    rwa [seriesBookings, List.map_map] at this
  obtain ⟨pairs, hpairs, happly⟩ := exec_displaceSeriesTargets
    (fun hne => hprep.priority (hexact.priority hne)) hdisplace
  have heffect := (displaces_series hexact hv hnow hdates hids hpairs).effect hv hdb hins
    (seriesSlots_apart hdates hapart) happly
  refine ⟨_, _, _, ⟨prepared.operatorId, hprep.operator, heffect⟩, hins.fresh, hins.owned,
    hins.asked, prepared.localTz, read_alone hprep.zone hsv hsw, fun s hs => ?_⟩
  obtain ⟨x, hx, hsx⟩ := mem_seriesSlots.mp hs
  obtain ⟨line, hline, hf, hst, hen⟩ := bookingSlotRows_line hsx
  obtain ⟨room, hroom, rfl⟩ := List.mem_map.mp hline
  rw [← hf, ← hst, ← hen]
  exact hexact.opened x.2.1 (mem_numbered hx) room hroom

/-! ## 4. Every creation -/

/-- **Priority override, effect and frame.**  Whatever Bookings there are, a creation that succeeds
overrides exactly the Rental Bookings that have not started and occupy one of its rooms during one
of its lines; every other Booking, slot and Blackout stays as it is. -/
theorem priorityOverride_effect (app : App) {c : Call}
    (hc : (∃ command, c.operation = .createBooking command) ∨
      ∃ command, c.operation = .createSeries command)
    (hv : db.Valid) (hdb : db.SlotsOwned) (h : (c.body app).exec db t = .ok ((), db')) :
    ∃ new slots logs, CreationEffect app c db t new slots logs db' := by
  rcases hc with ⟨command, hc⟩ | ⟨command, hc⟩
  · simp only [Call.body, hc] at h
    obtain ⟨id, db₁, h, hret⟩ := exec_bind_ok h
    cases hret
    exact createBooking_effect app hc hv hdb h
  · simp only [Call.body, hc] at h
    obtain ⟨res, db₁, h, hret⟩ := exec_bind_ok h
    cases hret
    exact createSeries_effect app hc hv hdb h

/-- The room is let to user 7 at noon of day 8, and user 8 books for a Priority Ministry. -/
def Db.letAtNoon : Db := { Db.oneRoom with
  ministries := [{ id := 5, status := .active, hasPriorityBooking := true }]
  ministryMembers := [⟨5, 8, .primary⟩]
  users := [{ id := 7, email := "youth@efcnewlife.org", preferredName := some "youth" },
    { id := 8, email := "choir@efcnewlife.org", preferredName := some "choir" }]
  bookings := [{ id := 1, userId := 7, facilityId := 3, bookingType := .oneTime
                 startAt := WallClock.combine 8 .noon
                 endAt := WallClock.combine 8 .noon + hourMicros, status := .confirmed
                 title := ⟨"youth", by decide⟩ }]
  bookingSlots := [⟨2, 1, 3, WallClock.combine 8 .noon, WallClock.combine 8 .noon + hourMicros,
    .confirmed⟩] }

/-- Noon of days 1 and 8 for the Ministry. -/
def ministryWeekly : Call :=
  ⟨.numbered 8 100, .createSeries { bookWeekly 1 8 with
    ministryId := some 5, requireOverrideReview := false }⟩

theorem priorityOverride_effect_weekly : ∃ db' new slots logs,
    CreationEffect App.utc ministryWeekly Db.letAtNoon 0 new slots logs db' ∧
      db'.bookings.map Booking.status = [.overridden, .confirmed, .confirmed] := by
  have hreturns : (ministryWeekly.body App.utc).returns Db.letAtNoon 0 = true := by decide +kernel
  obtain ⟨new, slots, logs, heffect⟩ := priorityOverride_effect App.utc (.inr ⟨_, rfl⟩)
    ⟨by decide, by decide, by simp [Db.letAtNoon]⟩ (by simp [Db.SlotsOwned, Db.letAtNoon])
    (exec_after hreturns)
  exact ⟨_, new, slots, logs, heffect, by decide +kernel⟩

end NewlifeCore
