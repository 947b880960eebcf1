import NewlifeCore.Facility.MoveSpecs
import NewlifeCore.Txn.Alone
import NewlifeCore.Lists

/-!
# A Series is cancelled in one of three scopes

`_apply_cancellation` picks its targets from the occurrences it was given, cancels each by id with
its slots, and closes the Series when nothing live is left or everything was asked for.  A scope
selects some of the live occurrences to come; the call cancels those and changes no other Booking,
and by then the scope selects nothing more, so it can be repeated.

Which occurrences are to come, and which follow the pivot, is a matter of their starts, and the
listing that the call picks from shows each start cut to the whole second.  So what a scope selects
is stated for any reading of the starts, `read`: the call cancels exactly what is selected by the
shown ones (`applyCancellation_ends`), and what should be cancelled is what is selected by the
stored ones.  The two selections are the same unless an occurrence of the scope starts later within
the second that the clock is in, or, from a pivot on, unless one that is to come starts before the
pivot in the pivot's own second (`selected_alike_iff`).  Both selections describe the same two
databases, so the call does what it should exactly when they agree (`CancelsExactly.iff_alike`).

That nothing is written before the last check, and that a repetition finds nothing, holds for any
reading: a reading that sees a start behind the clock sees it there at every later time.
-/

namespace NewlifeCore

open Txn Prog RecurringBookingService

/-! ## 1. What a scope selects -/

/-- **The occurrences a scope names**: the one asked for, those from it on, or all; a start is
compared as `read` gives it. -/
inductive InScope (read : Int → Int) (db : Db) (sid : UUID)
    (command : CancelRecurringBookingSeriesCommand) (b : Booking) : Prop where
  | occurrence : command.scope = "occurrence" → command.occurrenceId = some b.id →
      InScope read db sid command b
  | thisAndFuture (pivot : Booking) : command.scope = "this_and_future" → pivot ∈ db.bookings →
      OccurrenceOf sid pivot → command.occurrenceId = some pivot.id →
      read pivot.startAt ≤ read b.startAt → InScope read db sid command b
  | entireSeries : command.scope = "entire_series" → InScope read db sid command b

/-- **What a cancellation at `now` selects**: the live occurrences to come in its scope. -/
structure Selected (read : Int → Int) (db : Db) (sid : UUID)
    (command : CancelRecurringBookingSeriesCommand) (now : Int) (b : Booking) : Prop where
  occurrence : OccurrenceOf sid b
  live : isLive b.status = true
  future : now < read b.startAt
  inScope : InScope read db sid command b

/-- A Booking cancelled by a user, for a reason, between two instants. -/
def CancelledBy (operatorId : UUID) (reason : Option String) (t t' : Int) (b b' : Booking) : Prop :=
  ∃ closedAt, t ≤ closedAt ∧ closedAt ≤ t' ∧
    b' = { b with status := .cancelled, cancelledAt := some closedAt
                  cancelledById := some operatorId, cancelReason := reason }

/-- A Series row left alone, or closed when it is that of the cancelled Series. -/
def ClosedAtMost (sid operatorId : UUID) (s s' : BookingSeries) : Prop :=
  s' = s ∨ s.id = sid ∧ ∃ operatorName,
    s' = { s with status := .cancelled, paymentHoldExpiresAt := none
                  updatedById := some operatorId, updatedBy := some operatorName }

/-- **Exactly the selected Bookings are cancelled, with their slots**; every other Booking, every
other slot and every other Series is as it was. -/
structure CancelsExactly (read : Int → Int) (sid : UUID)
    (command : CancelRecurringBookingSeriesCommand) (operatorId : UUID) (now t' : Int)
    (db db' : Db) : Prop where
  bookings : List.Forall₂ (fun b b' =>
    (Selected read db sid command now b →
      CancelledBy operatorId command.cancelReason now t' b b') ∧
    (¬Selected read db sid command now b → b' = b)) db.bookings db'.bookings
  slots : List.Forall₂ (fun s s' =>
    ((∃ b ∈ db.bookings, Selected read db sid command now b ∧ b.id = s.facilityBookingId) →
      s' = { s with status := .cancelled }) ∧
    ((¬∃ b ∈ db.bookings, Selected read db sid command now b ∧ b.id = s.facilityBookingId) →
      s' = s)) db.bookingSlots db'.bookingSlots
  series : List.Forall₂ (ClosedAtMost sid operatorId) db.series db'.series
  rest : { db' with bookings := db.bookings, bookingSlots := db.bookingSlots
                    series := db.series } = db

/-- **No start that matters falls within the second it is compared with**: none of the scope within
that of the clock, and none to come, before the pivot, within that of the pivot. -/
structure SecondsApart (db : Db) (sid : UUID) (command : CancelRecurringBookingSeriesCommand)
    (now : Int) : Prop where
  clock : ∀ b ∈ db.bookings, Selected id db sid command now b → now < b.shownStart
  pivot : command.scope = "this_and_future" → ∀ pivot ∈ db.bookings, OccurrenceOf sid pivot →
    command.occurrenceId = some pivot.id → ∀ b ∈ db.bookings, OccurrenceOf sid b →
    isLive b.status = true → now < b.shownStart → pivot.shownStart ≤ b.shownStart →
    pivot.startAt ≤ b.startAt

/-! ## 2. The targets -/

section

variable {db : Db} {sid : UUID} {command : CancelRecurringBookingSeriesCommand} {now : Int}

theorem booking_eq_of_id (hkeys : (db.bookings.map Booking.id).Nodup) {b b' : Booking}
    (hb : b ∈ db.bookings) (hb' : b' ∈ db.bookings) (hid : b.id = b'.id) : b = b' :=
  List.inj_on_of_nodup_map hkeys hb hb' hid

theorem requireOccurrence_id {occs : List OccurrenceResult} {id : Option UUID}
    {o : OccurrenceResult} (h : requireOccurrence occs id = .ok o) : id = some o.id := by
  unfold requireOccurrence at h
  split at h
  · cases h
  · split at h
    · cases h
    · rename_i hfind
      cases h
      have hid := List.find?_some hfind
      exact congrArg some (of_decide_eq_true hid).symm

/-- A listed occurrence is the Booking of its id. -/
theorem Lists.of_id (hkeys : (db.bookings.map Booking.id).Nodup) {occs : List OccurrenceResult}
    (hlist : Lists db sid occs) {o : OccurrenceResult} (ho : o ∈ occs) {b : Booking}
    (hb : b ∈ db.bookings) (hid : b.id = o.id) :
    OccurrenceOf sid b ∧ o.startAt = b.shownStart ∧ (isCancellable o now = true ↔
      isLive b.status = true ∧ now < b.shownStart) := by
  obtain ⟨b₀, hb₀, hof, hid₀, hstart, hstatus⟩ := hlist.sound o ho
  obtain rfl := booking_eq_of_id hkeys hb hb₀ (hid.trans hid₀)
  exact ⟨hof, hstart, isCancellable_iff hstart hstatus⟩

/-- The ids of the listed occurrences that pass a test on starts and are cancellable. -/
theorem mem_filter_cancellable (hkeys : (db.bookings.map Booking.id).Nodup)
    {occs : List OccurrenceResult} (hlist : Lists db sid occs) {p : Int → Bool} {b : Booking}
    (hb : b ∈ db.bookings) :
    b.id ∈ (occs.filter fun o => p o.startAt && isCancellable o now).map OccurrenceResult.id ↔
      OccurrenceOf sid b ∧ isLive b.status = true ∧ now < b.shownStart ∧
        p b.shownStart = true := by
  simp only [List.mem_map, List.mem_filter, Bool.and_eq_true]
  constructor
  · rintro ⟨o, ⟨ho, hp, hcan⟩, hid⟩
    obtain ⟨hof, hstart, hiff⟩ := hlist.of_id hkeys ho hb hid.symm
    obtain ⟨hlive, hfuture⟩ := hiff.mp hcan
    exact ⟨hof, hlive, hfuture, hstart ▸ hp⟩
  · rintro ⟨hof, hlive, hfuture, hp⟩
    obtain ⟨o, ho, hid, hstart, hstatus⟩ := hlist.complete b hb hof
    exact ⟨o, ⟨ho, hstart ▸ hp, (isCancellable_iff hstart hstatus).mpr ⟨hlive, hfuture⟩⟩, hid⟩

/-- **The targets are what the scope selects**, by the starts that the listing shows. -/
theorem cancellationTargets_iff (hkeys : (db.bookings.map Booking.id).Nodup)
    {occs targets : List OccurrenceResult} (hlist : Lists db sid occs)
    (hscope : cancellationScopes.contains command.scope = true)
    (h : cancellationTargets occs command now = .ok targets) {b : Booking} (hb : b ∈ db.bookings) :
    b.id ∈ targets.map OccurrenceResult.id ↔
      Selected Converter.formatInstant db sid command now b := by
  unfold cancellationTargets at h
  split at h
  · rename_i hone
    split at h
    · cases h
    · rename_i o hrequired
      have ho := requireOccurrence_mem hrequired
      have hasked := requireOccurrence_id hrequired
      split at h
      · cases h
      · cases h
        constructor
        · intro hmem
          split at hmem
          · rename_i hcan
            have hid := List.mem_singleton.mp hmem
            obtain ⟨hof, -, hiff⟩ := hlist.of_id hkeys ho hb hid
            obtain ⟨hlive, hfuture⟩ := hiff.mp hcan
            exact ⟨hof, hlive, hfuture, .occurrence hone (hasked.trans (congrArg some hid.symm))⟩
          · cases hmem
        · rintro ⟨-, hlive, hfuture, hin⟩
          have hid : b.id = o.id := by
            cases hin with
            | occurrence _ hid => exact Option.some.inj (hid.symm.trans hasked)
            | thisAndFuture _ hs => rw [hone] at hs; exact absurd hs (by decide)
            | entireSeries hs => rw [hone] at hs; exact absurd hs (by decide)
          obtain ⟨-, -, hiff⟩ := hlist.of_id hkeys ho hb hid
          rw [if_pos (hiff.mpr ⟨hlive, hfuture⟩)]
          exact List.mem_singleton.mpr hid
  · rename_i hnotOne
    split at h
    · rename_i hfrom
      split at h
      · cases h
      · rename_i o hrequired
        have hasked := requireOccurrence_id hrequired
        obtain ⟨pivot, hpivot, hof, hid, hstart, -⟩ :=
          hlist.sound o (requireOccurrence_mem hrequired)
        cases h
        rw [mem_filter_cancellable hkeys hlist (p := fun s => s ≥ o.startAt) hb]
        constructor
        · rintro ⟨hocc, hlive, hfuture, hp⟩
          have hle : o.startAt ≤ b.shownStart := of_decide_eq_true hp
          rw [hstart] at hle
          exact ⟨hocc, hlive, hfuture, .thisAndFuture pivot hfrom hpivot hof (hid ▸ hasked) hle⟩
        · rintro ⟨hocc, hlive, hfuture, hin⟩
          refine ⟨hocc, hlive, hfuture, decide_eq_true ?_⟩
          cases hin with
          | occurrence hs => exact absurd hs hnotOne
          | thisAndFuture pivot' _ hpivot' _ hid' hle =>
            have hids : pivot'.id = pivot.id :=
              Option.some.inj (hid'.symm.trans (hasked.trans (congrArg some hid)))
            obtain rfl := booking_eq_of_id hkeys hpivot' hpivot hids
            exact hstart ▸ hle
          | entireSeries hs => rw [hfrom] at hs; exact absurd hs (by decide)
    · rename_i hnotFrom
      have hentire : command.scope = "entire_series" := by
        have hmem := List.contains_iff_mem.mp hscope
        simp only [cancellationScopes, List.mem_cons, List.not_mem_nil, or_false] at hmem
        exact (hmem.resolve_left hnotOne).resolve_left hnotFrom
      cases h
      refine (mem_filter_cancellable hkeys hlist (p := fun _ => true) hb).trans ?_
      constructor
      · rintro ⟨hof, hlive, hfuture, -⟩
        exact ⟨hof, hlive, hfuture, .entireSeries hentire⟩
      · rintro ⟨hof, hlive, hfuture, -⟩
        exact ⟨hof, hlive, hfuture, rfl⟩

/-! ## 3. The writes -/

/-- The named Bookings closed by cancellations, the others as they were. -/
theorem closeAll_cancelled {cs : List Closing} {operatorId : UUID} {reason : Option String}
    {t t' : Int} (hmade : ∀ c ∈ cs, c.Made .cancelled (some operatorId) reason t t') (b : Booking) :
    (b.id ∈ cs.map Closing.id → CancelledBy operatorId reason t t' b (closeAll cs b)) ∧
      (b.id ∉ cs.map Closing.id → closeAll cs b = b) := by
  refine ⟨fun hmem => ?_, closeAll_of_not_mem⟩
  obtain ⟨c, hc, hid, heq⟩ := closeAll_of_mem hmem
  obtain ⟨hstatus, hbyId, hreason, hsince, huntil⟩ := hmade c hc
  refine ⟨c.closedAt, hsince, huntil, ?_⟩
  rw [heq, Closing.close, if_pos hid.symm, hstatus, hbyId, hreason]

theorem closeSeriesIf_solo (operatorId : UUID) (operatorName : String) (close : Bool)
    (status : BookingStatus) {t : Int} :
    solo (closeSeriesIf sid operatorId operatorName close status) (fun _ db' _ =>
      ∃ series', db' = { db with series := series' } ∧
        List.Forall₂ (ClosedAtMost sid operatorId) db.series series') db t := by
  unfold closeSeriesIf
  split
  · refine solo_conseq (updateSeries_solo sid _ _) fun _ db' _ _ h => ⟨_, h, ?_⟩
    refine List.forall₂_map_right_iff.mpr (List.forall₂_same.mpr fun s _ => ?_)
    dsimp only
    split
    · rename_i hs
      simp only [Bool.and_eq_true, decide_eq_true_eq] at hs
      exact .inr ⟨hs.1, operatorName, rfl⟩
    · exact .inl rfl
  · exact solo_ret fun _ _ => ⟨db.series, rfl, List.forall₂_same.mpr fun _ _ => .inl rfl⟩

/-- What the writes of a cancellation come to. -/
theorem cancelsExactly_of_writes {read : Int → Int} {ids : List UUID} {cs : List Closing}
    {operatorId : UUID}
    {t t' : Int} (hids : cs.map Closing.id = ids)
    (hmade : ∀ c ∈ cs, c.Made .cancelled (some operatorId) command.cancelReason t t')
    (hnow : now ≤ t)
    (htargets : ∀ b ∈ db.bookings, b.id ∈ ids ↔ Selected read db sid command now b)
    (hknown : ∀ id ∈ ids, ∃ b ∈ db.bookings, b.id = id) {series' : List BookingSeries}
    (hseries : List.Forall₂ (ClosedAtMost sid operatorId) db.series series') :
    CancelsExactly read sid command operatorId now t' db
      { closeDb cs ids db with series := series' } where
  bookings := by
    refine List.forall₂_map_right_iff.mpr (List.forall₂_same.mpr fun b hb => ?_)
    obtain ⟨hin, hout⟩ := closeAll_cancelled hmade b
    rw [← htargets b hb, ← hids]
    refine ⟨fun hmem => ?_, hout⟩
    obtain ⟨closedAt, hsince, huntil, heq⟩ := hin hmem
    exact ⟨closedAt, le_trans hnow hsince, huntil, heq⟩
  slots := by
    refine List.forall₂_map_right_iff.mpr (List.forall₂_same.mpr fun s _ => ?_)
    have hiff : (∃ b ∈ db.bookings, Selected read db sid command now b ∧
        b.id = s.facilityBookingId) ↔ s.facilityBookingId ∈ ids := by
      constructor
      · rintro ⟨b, hb, hsel, hid⟩
        exact hid ▸ (htargets b hb).mpr hsel
      · intro hmem
        obtain ⟨b, hb, hid⟩ := hknown _ hmem
        exact ⟨b, hb, (htargets b hb).mp (hid.symm ▸ hmem), hid⟩
    rw [hiff]
    exact ⟨fun hmem => if_pos hmem, fun hno => if_neg hno⟩
  series := hseries
  rest := rfl

/-! ## 4. How a cancellation ends -/

theorem updateTable_raiseless {α : Type} (T : Table Db RowName α) (p : α → Bool) (f : α → α)
    (hf : ∀ r, T.name (f r) = T.name r) : Raiseless (updateTable T p f hf) :=
  ⟨fun _ => ⟨_, rfl⟩, fun _ => trivial⟩

theorem cancelOccurrences_raiseless (ids : List UUID) (byId : Option UUID)
    (reason : Option String) : Raiseless (cancelOccurrences ids byId reason) := by
  refine Raiseless.each (fun id => ?_) ids
  show ∀ t, Raiseless _
  exact fun _ => Raiseless.bind (fun _ => updateTable_raiseless _ _ _ _)
    (updateTable_raiseless _ _ _ _)

theorem listSeriesOccurrences_raiseless (sid : UUID) :
    Raiseless (BookingRepository.listSeriesOccurrences sid) := fun _ _ => trivial

theorem closeSeriesIf_raiseless (operatorId : UUID) (operatorName : String) (close : Bool)
    (status : BookingStatus) :
    Raiseless (closeSeriesIf sid operatorId operatorName close status) := by
  unfold closeSeriesIf
  split
  · exact updateTable_raiseless _ _ _ _
  · trivial

/-- A Series that is there is read. -/
theorem seriesWithOccurrences_not_error {n t t' : Int} {db' : Db} {e : ApiError}
    {row : BookingSeries} (hrow : SeriesRow db sid row)
    (h : Ends n (seriesWithOccurrences sid) db t (.error e) db' t') : False := by
  rcases h.bind_cases with ⟨e, -, h⟩ | ⟨s, db₁, t₁, -, h⟩
  · rcases h.bind_cases with ⟨e, -, h⟩ | ⟨found, db₁, t₁, hfound, h⟩
    · cases h.select.1
    · obtain ⟨hfound, -⟩ := hfound.select
      cases hfound
      obtain ⟨hmem, hid, hdeleted⟩ := hrow
      split at h
      · rename_i hnone
        rw [Option.map_eq_none_iff, List.find?_eq_none] at hnone
        exact hnone row hmem (by simp [hid, hdeleted])
      · cases h
  · rcases h.bind_cases with ⟨e, -, h⟩ | ⟨occurrences, db₂, t₂, -, h⟩
    · exact (listSeriesOccurrences_raiseless sid).not_error h
    · cases h

/-- The row of a Series outlives its closing. -/
theorem SeriesRow.closed {operatorId : UUID} {series' : List BookingSeries} {row : BookingSeries}
    (hrow : SeriesRow db sid row)
    (hseries : List.Forall₂ (ClosedAtMost sid operatorId) db.series series') :
    ∃ row' ∈ series', row'.id = sid ∧ row'.isDeleted = false := by
  obtain ⟨hmem, hid, hdeleted⟩ := hrow
  obtain ⟨row', hmem', hclosed⟩ := exists_related_right hseries hmem
  rcases hclosed with rfl | ⟨-, operatorName, rfl⟩
  · exact ⟨row', hmem', hid, hdeleted⟩
  · exact ⟨_, hmem', hid, hdeleted⟩

/-- **A cancellation raises before it writes, or cancels exactly what its scope selects**, by the
shown starts. -/
theorem applyCancellation_ends (hkeys : (db.bookings.map Booking.id).Nodup) {r : Request}
    {result : SeriesResult} (hshow : Shows db sid result) {n t t' : Int} (hn : n ≤ t)
    {outcome : Except ApiError SeriesResult} {db' : Db}
    (h : Ends n (applyCancellation r result command) db t outcome db' t') :
    (∃ e, outcome = .error e ∧ db' = db) ∨
      ∃ out operatorId now, outcome = .ok out ∧ r.operatorId = some operatorId ∧ t ≤ now ∧
        now ≤ t' ∧ CancelsExactly Converter.formatInstant sid command operatorId now t' db db' := by
  have hsid : result.series.id = sid := hshow.1.id
  obtain ⟨row, hrow, -⟩ := hshow.1
  rcases h.reads (ReadOnly.raiseIf _ _) with ⟨e, he, rfl⟩ | ⟨u, t₁, h₁, h⟩
  · exact .inl ⟨e, he, rfl⟩
  obtain ⟨-, hscope⟩ := h₁.of_solo hn (solo_raiseIf _ _)
  rcases h.reads ReadOnly.now with ⟨e, he, rfl⟩ | ⟨now, t₂, h₂, h⟩
  · exact .inl ⟨e, he, rfl⟩
  obtain ⟨-, hlo, hhi⟩ := h₂.of_solo (le_trans hn h₁.le) solo_now
  rcases h.reads (ReadOnly.ofExcept _) with ⟨e, he, rfl⟩ | ⟨targets, t₃, h₃, h⟩
  · exact .inl ⟨e, he, rfl⟩
  obtain ⟨-, htargets⟩ := h₃.of_solo (le_trans hn (le_trans h₁.le h₂.le)) (solo_ofExcept _)
  rcases h.reads (BookingService.authenticatedUser_readOnly r) with
    ⟨e, he, rfl⟩ | ⟨operatorId, t₄, h₄, h⟩
  · exact .inl ⟨e, he, rfl⟩
  -- nothing raises from here on
  have ht₄ : t ≤ t₄ := le_trans h₁.le (le_trans h₂.le (le_trans h₃.le h₄.le))
  rcases h.bind_cases with ⟨e, -, h⟩ | ⟨u, db₅, t₅, h₅, h⟩
  · exact absurd h (cancelOccurrences_raiseless _ _ _).not_error
  obtain ⟨cs, hids, hmade, rfl⟩ := h₅.of_solo (le_trans hn ht₄) (cancelOccurrences_solo _ _ _ db t₄)
  have ht₅ : t ≤ t₅ := le_trans ht₄ h₅.le
  rcases h.bind_cases with ⟨e, -, h⟩ | ⟨refreshed, db₆, t₆, h₆, h⟩
  · exact absurd h (listSeriesOccurrences_raiseless _).not_error
  obtain rfl := h₆.readOnly (listSeriesOccurrences_readOnly _)
  have ht₆ : t ≤ t₆ := le_trans ht₅ h₆.le
  rcases h.bind_cases with ⟨e, -, h⟩ | ⟨u, db₇, t₇, h₇, h⟩
  · exact absurd h (closeSeriesIf_raiseless _ _ _ _).not_error
  obtain ⟨series', rfl, hseries⟩ := h₇.of_solo (le_trans hn ht₆) (closeSeriesIf_solo _ _ _ _)
  have hread := h.readOnly (seriesWithOccurrences_readOnly _)
  rw [hsid] at h hseries
  have hexact : CancelsExactly Converter.formatInstant sid command operatorId now t' db db' := by
    rw [hread]
    refine cancelsExactly_of_writes hids (fun c hc => (hmade c hc).later ?_) ?_
      (fun b hb => cancellationTargets_iff hkeys hshow.2 (by simpa using hscope) htargets hb)
      (fun id hid => ?_) hseries
    · exact le_trans h₆.le (le_trans h₇.le h.le)
    · exact le_trans hhi (le_trans h₃.le h₄.le)
    · obtain ⟨o, ho, rfl⟩ := List.mem_map.mp hid
      obtain ⟨b, hb, -, hob, -⟩ := hshow.2.sound o ((cancellationTargets_ok htargets).1 o ho).1
      exact ⟨b, hb, hob.symm⟩
  cases outcome with
  | error e =>
    obtain ⟨row', hrow'⟩ := hrow.closed hseries
    exact absurd h (seriesWithOccurrences_not_error hrow')
  | ok out =>
    have hoperator := h₄.returns (authenticatedUser_returns r)
    exact .inr ⟨out, operatorId, now, rfl, hoperator, le_trans h₁.le hlo,
      le_trans hhi (le_trans h₃.le (le_trans h₄.le (le_trans h₅.le
        (le_trans h₆.le (le_trans h₇.le h.le))))), hexact⟩

/-! ## 5. The same cancellation again -/

variable {read : Int → Int}

/-- A cancellation keeps the ids. -/
theorem CancelsExactly.ids {operatorId : UUID} {t' : Int} {db' : Db}
    (h : CancelsExactly read sid command operatorId now t' db db') :
    db'.bookings.map Booking.id = db.bookings.map Booking.id := by
  have hids : List.Forall₂ (fun b b' : Booking => b'.id = b.id) db.bookings db'.bookings := by
    refine h.bookings.imp fun b b' hb => ?_
    by_cases hsel : Selected read db sid command now b
    · obtain ⟨closedAt, -, -, rfl⟩ := hb.1 hsel
      rfl
    · rw [hb.2 hsel]
  exact map_eq_map_of_forall₂ hids fun _ _ => id

/-- **By then the scope selects nothing more.** -/
theorem CancelsExactly.none_left {operatorId : UUID} {t' later : Int} {db' : Db}
    (h : CancelsExactly read sid command operatorId now t' db db') (hlater : now ≤ later)
    {b' : Booking} (hb' : b' ∈ db'.bookings) : ¬Selected read db' sid command later b' := by
  intro hsel
  obtain ⟨b, hb, hcancels, hkeeps⟩ := exists_related_left h.bookings hb'
  by_cases hbefore : Selected read db sid command now b
  · obtain ⟨closedAt, -, -, rfl⟩ := hcancels hbefore
    exact absurd hsel.live (by simp [isLive])
  · obtain rfl := hkeeps hbefore
    refine hbefore ⟨hsel.occurrence, hsel.live, lt_of_le_of_lt hlater hsel.future, ?_⟩
    cases hsel.inScope with
    | occurrence hscope hid => exact .occurrence hscope hid
    | thisAndFuture pivot' hscope hpivot' hof hid hle =>
      -- the pivot was there before, in whatever status
      obtain ⟨pivot, hpivot, hcancels, hkeeps⟩ := exists_related_left h.bookings hpivot'
      by_cases hp : Selected read db sid command now pivot
      · obtain ⟨closedAt, -, -, rfl⟩ := hcancels hp
        exact .thisAndFuture pivot hscope hpivot hof hid hle
      · obtain rfl := hkeeps hp
        exact .thisAndFuture pivot' hscope hpivot hof hid hle
    | entireSeries hscope => exact .entireSeries hscope

/-- A cancellation that selects nothing changes no Booking and no slot. -/
theorem CancelsExactly.unchanged {operatorId : UUID} {t' : Int} {db' : Db}
    (h : CancelsExactly read sid command operatorId now t' db db')
    (hnone : ∀ b ∈ db.bookings, ¬Selected read db sid command now b) :
    db'.bookings = db.bookings ∧ db'.bookingSlots = db.bookingSlots := by
  have hbookings : List.Forall₂ (fun b b' : Booking => id b' = id b) db.bookings db'.bookings := by
    refine List.forall₂_iff_zip.mpr ⟨h.bookings.length_eq, fun {b b'} hzip => ?_⟩
    exact (List.forall₂_zip h.bookings hzip).2 (hnone b (List.of_mem_zip hzip).1)
  have hslots : List.Forall₂ (fun s s' : BookingSlot => id s' = id s) db.bookingSlots
      db'.bookingSlots := by
    refine h.slots.imp fun s s' hs => hs.2 ?_
    rintro ⟨b, hb, hsel, -⟩
    exact hnone b hb hsel
  have hb := map_eq_map_of_forall₂ hbookings fun _ _ => id
  have hs := map_eq_map_of_forall₂ hslots fun _ _ => id
  rw [List.map_id, List.map_id] at hb hs
  exact ⟨hb, hs⟩

/-! ## 6. Stored and shown starts -/

/-- By the stored starts a scope names no more than by the shown ones. -/
theorem InScope.shown {b : Booking} (h : InScope id db sid command b) :
    InScope Converter.formatInstant db sid command b := by
  cases h with
  | occurrence hscope hid => exact .occurrence hscope hid
  | thisAndFuture pivot hscope hpivot hof hid hle =>
    exact .thisAndFuture pivot hscope hpivot hof hid (Converter.formatInstant_mono hle)
  | entireSeries hscope => exact .entireSeries hscope

/-- **When the two readings select the same.** -/
theorem selected_alike_iff (hkeys : (db.bookings.map Booking.id).Nodup) :
    (∀ b ∈ db.bookings, Selected id db sid command now b ↔
      Selected Converter.formatInstant db sid command now b) ↔ SecondsApart db sid command now := by
  constructor
  · intro halike
    refine ⟨fun b hb hsel => ((halike b hb).mp hsel).future, ?_⟩
    intro hscope pivot hpivot hof hid b hb hocc hlive hfuture hle
    have hsel := (halike b hb).mpr
      ⟨hocc, hlive, hfuture, .thisAndFuture pivot hscope hpivot hof hid hle⟩
    -- a stored start in scope is not before the pivot that the scope was read with
    cases hsel.inScope with
    | occurrence hs => exact absurd (hs.symm.trans hscope) (by decide)
    | entireSeries hs => exact absurd (hs.symm.trans hscope) (by decide)
    | thisAndFuture pivot' _ hpivot' hof' hid' hle' =>
      have hsame : pivot'.id = pivot.id := Option.some.inj (hid'.symm.trans hid)
      obtain rfl := booking_eq_of_id hkeys hpivot' hpivot hsame
      exact hle'
  · intro hapart b hb
    refine ⟨fun h => ⟨h.occurrence, h.live, hapart.clock b hb h, h.inScope.shown⟩, fun h => ?_⟩
    refine ⟨h.occurrence, h.live, lt_of_lt_of_le h.future b.shownStart_le, ?_⟩
    cases h.inScope with
    | occurrence hscope hid => exact .occurrence hscope hid
    | thisAndFuture pivot hscope hpivot hof hid hle =>
      have hstored := hapart.pivot hscope pivot hpivot hof hid b hb h.occurrence h.live h.future hle
      exact .thisAndFuture pivot hscope hpivot hof hid hstored
    | entireSeries hscope => exact .entireSeries hscope

/-- A selection that agrees on every Booking cancels the same. -/
theorem CancelsExactly.congr {read' : Int → Int} {operatorId : UUID} {t' : Int} {db' : Db}
    (h : CancelsExactly read sid command operatorId now t' db db')
    (halike : ∀ b ∈ db.bookings, Selected read' db sid command now b ↔
      Selected read db sid command now b) :
    CancelsExactly read' sid command operatorId now t' db db' where
  bookings := by
    refine List.forall₂_iff_zip.mpr ⟨h.bookings.length_eq, fun {b b'} hzip => ?_⟩
    rw [halike b (List.of_mem_zip hzip).1]
    exact List.forall₂_zip h.bookings hzip
  slots := by
    have hiff : ∀ s : BookingSlot,
        (∃ b ∈ db.bookings, Selected read' db sid command now b ∧ b.id = s.facilityBookingId) ↔
        ∃ b ∈ db.bookings, Selected read db sid command now b ∧ b.id = s.facilityBookingId :=
      fun s => exists_congr fun b => and_congr_right fun hb => and_congr_left fun _ => halike b hb
    refine h.slots.imp fun s s' hs => ?_
    rw [hiff]
    exact hs
  series := h.series
  rest := h.rest

/-- **Two selections that explain one outcome select the same**: a selected Booking was live and is
cancelled, one that is not selected is as it was. -/
theorem CancelsExactly.iff_alike {read' : Int → Int} {operatorId : UUID} {t' : Int} {db' : Db}
    (h : CancelsExactly read sid command operatorId now t' db db') :
    CancelsExactly read' sid command operatorId now t' db db' ↔
      ∀ b ∈ db.bookings, Selected read' db sid command now b ↔
        Selected read db sid command now b := by
  refine ⟨fun h' b hb => ?_, h.congr⟩
  have hboth := List.forall₂_iff_zip.mpr ⟨h.bookings.length_eq, fun {_ _} hzip =>
    And.intro (List.forall₂_zip h.bookings hzip) (List.forall₂_zip h'.bookings hzip)⟩
  obtain ⟨b', -, ⟨hcancels, hkeeps⟩, hcancels', hkeeps'⟩ := exists_related_right hboth hb
  have hno : ∀ {b b' : Booking}, isLive b.status = true →
      CancelledBy operatorId command.cancelReason now t' b b' → b' ≠ b := by
    rintro b b' hlive ⟨closedAt, -, -, rfl⟩ hsame
    rw [← hsame] at hlive
    cases hlive
  constructor
  · intro hsel'
    by_contra hnot
    exact hno hsel'.live (hcancels' hsel') (hkeeps hnot)
  · intro hsel
    by_contra hnot
    exact hno hsel.live (hcancels hsel) (hkeeps' hnot)

/-! ## 7. The three scopes -/


/-- **When a cancellation cancels exactly its set.**  For a Series as it was just read: when the
call raises, nothing has been written.  When it returns, `now` being the time it read from the
clock, it has cancelled the live occurrences to come that its scope selects by the shown starts,
with their slots, and changed no other Booking; these are the ones selected by the stored starts
exactly when the seconds are apart.  And the same cancellation of the Series as it is then, at any later time and
whoever asks for it, changes no Booking and no slot. -/
theorem cancellationScopes_exact_iff (hkeys : (db.bookings.map Booking.id).Nodup) {r : Request}
    {result : SeriesResult} (hshow : Shows db sid result) {n t t' : Int} (hn : n ≤ t)
    {outcome : Except ApiError SeriesResult} {db' : Db}
    (h : Ends n (applyCancellation r result command) db t outcome db' t') :
    (∀ e, outcome = .error e → db' = db) ∧
      ∀ out, outcome = .ok out →
        (∃ operatorId now, r.operatorId = some operatorId ∧ t ≤ now ∧ now ≤ t' ∧
          CancelsExactly Converter.formatInstant sid command operatorId now t' db db' ∧
          (CancelsExactly id sid command operatorId now t' db db' ↔
            SecondsApart db sid command now)) ∧
        ∀ (r' : Request) (result' : SeriesResult) (n' later t'' : Int)
          (outcome' : Except ApiError SeriesResult) (db'' : Db), Shows db' sid result' →
          t' ≤ later → n' ≤ later →
          Ends n' (applyCancellation r' result' command) db' later outcome' db'' t'' →
          db''.bookings = db'.bookings ∧ db''.bookingSlots = db'.bookingSlots := by
  rcases applyCancellation_ends hkeys hshow hn h with
    ⟨e, rfl, hsame⟩ | ⟨out, operatorId, now, rfl, hoperator, hlo, hhi, hexact⟩
  · exact ⟨fun _ _ => hsame, fun _ hout => (by cases hout)⟩
  · refine ⟨fun _ he => (by cases he), fun _ _ => ⟨⟨operatorId, now, hoperator, hlo, hhi, hexact,
      hexact.iff_alike.trans (selected_alike_iff hkeys)⟩, ?_⟩⟩
    intro r' result' n' later t'' outcome' db'' hshow' hlater hn' h'
    have hkeys' : (db'.bookings.map Booking.id).Nodup := hexact.ids ▸ hkeys
    rcases applyCancellation_ends hkeys' hshow' hn' h' with
      ⟨e, rfl, rfl⟩ | ⟨out', operatorId', now', rfl, -, hlo', -, hagain⟩
    · exact ⟨rfl, rfl⟩
    · exact hagain.unchanged fun b hb =>
        hexact.none_left (le_trans hhi (le_trans hlater hlo')) hb

end

/-! ### 7.1 The second of two weeks -/

/-- A Series of two weeks with the given starts, all to come at 0. -/
def Db.occurrencesAt (starts : List Int) : Db := { Db.oneRoom with
  series := [{ id := 1, userId := 7, firstOccurrenceDate := 1, lastOccurrenceDate := 8
               localStartTime := .midnight, localEndTime := .noon, status := .confirmed
               paymentHoldExpiresAt := none, title := ⟨"choir", choir_length⟩ }]
  bookings := starts.mapIdx fun i start =>
    { id := 11 + i, seriesId := some 1, userId := 7, facilityId := 3, bookingType := .recurring
      startAt := start, endAt := start + hourMicros
      status := .confirmed, title := ⟨"choir", choir_length⟩ }
  bookingSlots := starts.mapIdx fun i start =>
    ⟨21 + i, 11 + i, 3, start, start + hourMicros, .confirmed⟩ }

/-- At noon of the days 1 and 8. -/
def Db.twoWeeks : Db := .occurrencesAt [WallClock.combine 1 .noon, WallClock.combine 8 .noon]

/-- A cancellation by user 7 that returns, on the Series as it is read. -/
theorem cancels_of_exec (db : Db) (t : Int) (command : CancelRecurringBookingSeriesCommand)
    {statuses : List BookingStatus}
    (hstatuses : ((cancelSeries (.numbered 7 100) 1 command).exec db t).toOption.map
      (fun res => res.2.bookings.map Booking.status) = some statuses) :
    ∃ result out db', Shows db 1 result ∧
      Ends t (applyCancellation (.numbered 7 100) result command) db t (.ok out) db' t ∧
      db'.bookings.map Booking.status = statuses := by
  cases hexec : (cancelSeries (.numbered 7 100) 1 command).exec db t with
  | error e =>
    rw [hexec] at hstatuses
    cases hstatuses
  | ok res =>
    obtain ⟨out, db'⟩ := res
    rw [hexec] at hstatuses
    obtain ⟨operatorId, db₁, h₁, hread⟩ := exec_bind_ok hexec
    obtain rfl := exec_readOnly (BookingService.authenticatedUser_readOnly _) h₁
    obtain ⟨result, db₂, h₂, happly⟩ := exec_bind_ok hread
    obtain ⟨rfl, hshow⟩ := (Ends.of_exec h₂).of_solo (le_refl t) (seriesWithOccurrences_solo 1)
    exact ⟨result, out, db', hshow, Ends.of_exec happly, Option.some.inj hstatuses⟩

/-- Starts on whole seconds are apart from any clock. -/
theorem secondsApart_of_whole {db : Db} {sid : UUID}
    {command : CancelRecurringBookingSeriesCommand} {now : Int}
    (h : ∀ b ∈ db.bookings, b.startAt % secondMicros = 0) : SecondsApart db sid command now where
  clock b hb hsel := by
    rw [Booking.shownStart, Converter.formatInstant_eq_iff.mpr (h b hb)]
    exact hsel.future
  pivot _ pivot hpivot _ _ b hb _ _ _ hle := by
    rwa [Booking.shownStart, Booking.shownStart, Converter.formatInstant_eq_iff.mpr (h b hb),
      Converter.formatInstant_eq_iff.mpr (h pivot hpivot)] at hle

/-- From the second week on it leaves the first week alone. -/
theorem cancellationScopes_exact_iff_secondWeek : ∃ out db',
    db'.bookings.map Booking.status = [.confirmed, .cancelled] ∧ ∃ result,
    Ends 0 (applyCancellation (.numbered 7 100) result
      { scope := "this_and_future", occurrenceId := some 12 }) Db.twoWeeks 0 (.ok out) db' 0 ∧
    ∃ operatorId now, (Request.numbered 7 100).operatorId = some operatorId ∧ 0 ≤ now ∧ now ≤ 0 ∧
      CancelsExactly id 1 { scope := "this_and_future", occurrenceId := some 12 } operatorId now 0
        Db.twoWeeks db' := by
  obtain ⟨result, out, db', hshow, hends, hstatuses⟩ := cancels_of_exec Db.twoWeeks 0
    { scope := "this_and_future", occurrenceId := some 12 }
    (by decide +kernel : _ = some [BookingStatus.confirmed, .cancelled])
  obtain ⟨operatorId, now, hoperator, hlo, hhi, -, hiff⟩ :=
    ((cancellationScopes_exact_iff (by decide) hshow (le_refl 0) hends).2 out rfl).1
  exact ⟨out, db', hstatuses, result, hends, operatorId, now, hoperator, hlo, hhi,
    hiff.mpr (secondsApart_of_whole (by decide))⟩

/-! ### 7.2 Half a second past noon -/

/-- An occurrence half a second past noon, and the clock a fifth of a second past. -/
def Db.halfSecondPast : Db := .occurrencesAt [WallClock.combine 1 .noon + 500000]

def fifthPastNoon : Int := WallClock.combine 1 .noon + 200000

/-- **The entire Series is cancelled, and its coming occurrence is not.** -/
theorem not_cancellationScopes_exact : ¬ ∀ (db : Db) (sid : UUID)
    (command : CancelRecurringBookingSeriesCommand) (r : Request) (result : SeriesResult)
    (n t t' : Int) (out : SeriesResult) (db' : Db), (db.bookings.map Booking.id).Nodup →
    Shows db sid result → n ≤ t →
    Ends n (applyCancellation r result command) db t (.ok out) db' t' →
    ∃ operatorId now, t ≤ now ∧ now ≤ t' ∧
      CancelsExactly id sid command operatorId now t' db db' := by
  intro hexact
  obtain ⟨result, out, db', hshow, hends, hstatuses⟩ :=
    cancels_of_exec Db.halfSecondPast fifthPastNoon { scope := "entire_series" }
      (by decide +kernel : _ = some [BookingStatus.confirmed])
  obtain ⟨operatorId, now, hlo, hhi, hcancels⟩ := hexact _ _ _ _ _ _ _ _ _ _ (by decide) hshow
    (le_refl _) hends
  obtain rfl : now = fifthPastNoon := le_antisymm hhi hlo
  -- the one occurrence is live, later than the clock and in scope
  obtain ⟨b, hb⟩ : ∃ b, Db.halfSecondPast.bookings = [b] := ⟨_, rfl⟩
  have hsel : Selected id Db.halfSecondPast 1 { scope := "entire_series" } fifthPastNoon b := by
    cases hb
    exact ⟨⟨rfl, rfl⟩, rfl, by decide, .entireSeries rfl⟩
  obtain ⟨b', hb', hcancelled, -⟩ :=
    exists_related_right hcancels.bookings (hb ▸ List.mem_singleton_self b)
  obtain ⟨closedAt, -, -, rfl⟩ := hcancelled hsel
  have hmem : BookingStatus.cancelled ∈ db'.bookings.map Booking.status :=
    List.mem_map_of_mem hb'
  rw [hstatuses] at hmem
  exact absurd hmem (by decide)

end NewlifeCore
