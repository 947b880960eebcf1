import NewlifeCore.Facility.PriorityCreations

/-!
# The amounts of a Series, written and read back

`create_series` reports the amounts it persists.  The readers that fetch a Series or its
occurrences without a model class report them formatted, and so agree with the tables exactly
where every amount is whole.
-/

namespace NewlifeCore

open Txn Prog RecurringBookingService

variable {db db' : Db} {t : Int}

/-! ## 1. Persisted and reported amounts -/

/-- The amount persisted for a Series. -/
def SeriesAmount (db : Db) (sid : UUID) (amount : Decimal) : Prop :=
  ∃ s, SeriesRow db sid s ∧ s.quotedAmount = amount

/-- The amount persisted for an occurrence of a Series. -/
def OccurrenceAmount (db : Db) (sid id : UUID) (amount : Decimal) : Prop :=
  ∃ b ∈ db.bookings, OccurrenceOf sid b ∧ b.id = id ∧ b.quotedAmount = amount

/-- Two states have the same amounts persisted for a Series. -/
structure SameAmounts (sid : UUID) (db db' : Db) : Prop where
  series : ∀ amount, SeriesAmount db' sid amount ↔ SeriesAmount db sid amount
  occurrences : ∀ id amount, OccurrenceAmount db' sid id amount ↔ OccurrenceAmount db sid id amount

theorem SameAmounts.refl (sid : UUID) (db : Db) : SameAmounts sid db db :=
  ⟨fun _ => Iff.rfl, fun _ _ => Iff.rfl⟩

/-- The occurrences of a result carry the persisted amounts, and none is missing. -/
def ReportsOccurrences (db : Db) (sid : UUID) (occurrences : List OccurrenceResult) : Prop :=
  ∀ id amount, (∃ o ∈ occurrences, o.id = id ∧ o.quotedAmount = amount) ↔
    OccurrenceAmount db sid id amount

/-- A result carries the persisted amounts. -/
structure Reports (db : Db) (sid : UUID) (result : SeriesResult) : Prop where
  series : SeriesAmount db sid result.series.quotedAmount
  occurrences : ReportsOccurrences db sid result.occurrences

/-- **Money survives the read path**: the creation result and every reader of the Series report the
amounts that are persisted, and so the same. -/
structure MoneySurvives (created : SeriesResult) (db : Db) (sid : UUID) : Prop where
  created : Reports db sid created
  getById : ∀ t, ∃ s, (RecurringBookingRepository.getById sid).exec db t = .ok (some s, db) ∧
    SeriesAmount db sid s.quotedAmount
  listSeriesOccurrences : ∀ t, ∃ occurrences,
    (BookingRepository.listSeriesOccurrences sid).exec db t = .ok (occurrences, db) ∧
      ReportsOccurrences db sid occurrences
  listPendingPaymentSeries : ∀ nowUtc t, ∃ items,
    (RecurringBookingRepository.listPendingPaymentSeries nowUtc).exec db t = .ok (items, db) ∧
      ∀ item ∈ items, item.id = sid → SeriesAmount db sid item.quotedAmount
  listExpiredPendingSeries : ∀ nowUtc t, ∃ expired,
    (RecurringBookingRepository.listExpiredPendingSeries nowUtc).exec db t = .ok (expired, db) ∧
      ∀ s ∈ expired, s.id = sid → SeriesAmount db sid s.quotedAmount
  getSeries : ∀ r t result db', (getSeries r sid).exec db t = .ok (result, db') →
    Reports db sid result
  confirmPayment : ∀ r t result db', (confirmPayment r sid).exec db t = .ok (result, db') →
    Reports db sid result

/-- Every amount persisted for a Series is whole. -/
structure WholeAmounts (db : Db) (sid : UUID) : Prop where
  series : ∀ amount, SeriesAmount db sid amount → amount.den = 1
  occurrences : ∀ id amount, OccurrenceAmount db sid id amount → amount.den = 1

theorem SameAmounts.whole {sid : UUID} (h : SameAmounts sid db db') :
    WholeAmounts db' sid ↔ WholeAmounts db sid := by
  constructor
  · intro hw
    exact ⟨fun a ha => hw.series a ((h.series a).mpr ha),
      fun id a ha => hw.occurrences id a ((h.occurrences id a).mpr ha)⟩
  · intro hw
    exact ⟨fun a ha => hw.series a ((h.series a).mp ha),
      fun id a ha => hw.occurrences id a ((h.occurrences id a).mp ha)⟩

theorem SameAmounts.reports {sid : UUID} {result : SeriesResult} (h : SameAmounts sid db db') :
    Reports db' sid result ↔ Reports db sid result := by
  constructor
  · intro hr
    exact ⟨(h.series _).mp hr.series, fun id a => (hr.occurrences id a).trans (h.occurrences id a)⟩
  · intro hr
    exact ⟨(h.series _).mpr hr.series,
      fun id a => (hr.occurrences id a).trans (h.occurrences id a).symm⟩

/-- One amount is persisted for the Series, and one for each occurrence. -/
structure OneAmount (db : Db) (sid : UUID) : Prop where
  series : ∀ x y, SeriesAmount db sid x → SeriesAmount db sid y → x = y
  occurrences : ∀ id x y, OccurrenceAmount db sid id x → OccurrenceAmount db sid id y → x = y

theorem SameAmounts.one {sid : UUID} (h : SameAmounts sid db db') (h₁ : OneAmount db sid) :
    OneAmount db' sid :=
  ⟨fun x y hx hy => h₁.series x y ((h.series x).mp hx) ((h.series y).mp hy), fun id x y hx hy =>
    h₁.occurrences id x y ((h.occurrences id x).mp hx) ((h.occurrences id y).mp hy)⟩

/-! ## 2. What the readers report -/

theorem getById_reads {sid : UUID} {s : BookingSeries}
    (h : (RecurringBookingRepository.getById sid).exec db t = .ok (some s, db')) :
    SeriesRead db sid s := by
  have hfind : (db.series.find? fun s => s.id = sid && !s.isDeleted).map
      RecurringBookingRepository.formatRow = some s := by
    simp only [RecurringBookingRepository.getById, exec_select, Except.ok.injEq, Prod.mk.injEq] at h
    exact h.1
  obtain ⟨row, hrow, rfl⟩ := Option.map_eq_some_iff.mp hfind
  have hfound := List.find?_some hrow
  simp only [Bool.and_eq_true, decide_eq_true_eq, Bool.not_eq_true'] at hfound
  exact ⟨row, ⟨List.mem_of_find?_eq_some hrow, hfound.1, hfound.2⟩, rfl⟩

theorem requireSeries_reads {sid : UUID} {s : BookingSeries}
    (h : (requireSeries sid).eval db t = .ok s) : SeriesRead db sid s := by
  obtain ⟨found, hfound, hmatch⟩ := (eval_bind_iff (ReadOnly.select _)).mp h
  cases found with
  | none => cases hmatch
  | some row =>
    cases hmatch
    exact getById_reads (eval_ok (ReadOnly.select _) hfound)

theorem getById_found {sid : UUID} {row : BookingSeries} (h : SeriesRow db sid row) :
    ∃ s, (RecurringBookingRepository.getById sid).exec db t = .ok (some s, db) := by
  have hsome : (db.series.find? fun s => s.id = sid && !s.isDeleted).isSome = true :=
    List.find?_isSome.mpr ⟨row, h.1, by simp [h.2.1, h.2.2]⟩
  obtain ⟨s, hs⟩ := Option.isSome_iff_exists.mp hsome
  refine ⟨RecurringBookingRepository.formatRow s, ?_⟩
  rw [RecurringBookingRepository.getById, exec_select, hs]
  rfl

/-- A read Series carries the persisted amount formatted. -/
theorem SeriesRead.amount {sid : UUID} {s : BookingSeries} (h : SeriesRead db sid s) :
    ∃ amount, SeriesAmount db sid amount ∧ s.quotedAmount = Converter.formatDecimal amount := by
  obtain ⟨row, hrow, rfl⟩ := h
  exact ⟨row.quotedAmount, ⟨row, hrow, rfl⟩, rfl⟩

theorem listSeriesOccurrences_exec (db : Db) (t : Int) (sid : UUID) : ∃ occurrences,
    (BookingRepository.listSeriesOccurrences sid).exec db t = .ok (occurrences, db) ∧
      ∀ id amount, (∃ o ∈ occurrences, o.id = id ∧ o.quotedAmount = amount) ↔
        ∃ persisted, OccurrenceAmount db sid id persisted ∧
          amount = Converter.formatDecimal persisted := by
  refine ⟨_, rfl, fun id amount => ?_⟩
  simp only [List.mem_map, List.mem_insertionSort, List.mem_filter, Bool.and_eq_true,
    decide_eq_true_eq, Bool.not_eq_true']
  constructor
  · rintro ⟨o, ⟨b, ⟨hb, hof⟩, rfl⟩, rfl, rfl⟩
    exact ⟨b.quotedAmount, ⟨b, hb, hof, rfl, rfl⟩, rfl⟩
  · rintro ⟨persisted, ⟨b, hb, hof, rfl, rfl⟩, rfl⟩
    exact ⟨_, ⟨b, ⟨hb, hof⟩, rfl⟩, rfl, rfl⟩

/-- Rows rewritten, but for what is persisted of their amounts. -/
theorem SameAmounts.rewrite {f : Booking → Booking} {g : BookingSeries → BookingSeries}
    (hb : db'.bookings = db.bookings.map f) (hs : db'.series = db.series.map g)
    (hf : ∀ b, SameBooking b (f b)) (hid : ∀ s, (g s).id = s.id)
    (hdel : ∀ s, (g s).isDeleted = s.isDeleted)
    (hamount : ∀ s, (g s).quotedAmount = s.quotedAmount) (sid : UUID) : SameAmounts sid db db' := by
  constructor
  · intro amount
    constructor
    · rintro ⟨s', ⟨hs', rfl, hlive⟩, rfl⟩
      rw [hs] at hs'
      obtain ⟨s, hmem, rfl⟩ := List.mem_map.mp hs'
      exact ⟨s, ⟨hmem, (hid s).symm, (hdel s).symm.trans hlive⟩, (hamount s).symm⟩
    · rintro ⟨s, ⟨hmem, rfl, hlive⟩, rfl⟩
      exact ⟨g s, ⟨hs ▸ List.mem_map_of_mem hmem, hid s, (hdel s).trans hlive⟩, hamount s⟩
  · intro id amount
    have hquoted : ∀ b, (f b).quotedAmount = b.quotedAmount := fun b => by rw [hf b]
    have hlive : ∀ b, (f b).isDeleted = b.isDeleted := fun b => by rw [hf b]
    constructor
    · rintro ⟨b', hb', hof, rfl, rfl⟩
      rw [hb] at hb'
      obtain ⟨b, hmem, rfl⟩ := List.mem_map.mp hb'
      exact ⟨b, hmem, ⟨(hf b).seriesId.symm.trans hof.1, (hlive b).symm.trans hof.2⟩,
        (hf b).id.symm, (hquoted b).symm⟩
    · rintro ⟨b, hmem, hof, rfl, rfl⟩
      exact ⟨f b, hb ▸ List.mem_map_of_mem hmem,
        ⟨(hf b).seriesId.trans hof.1, (hlive b).trans hof.2⟩, (hf b).id, hquoted b⟩

/-! ### 2.1 Where every amount is whole -/

section Whole

variable {sid : UUID} (hw : WholeAmounts db sid)
include hw

theorem WholeAmounts.series_read {s : BookingSeries} (h : SeriesRead db sid s) :
    SeriesAmount db sid s.quotedAmount := by
  obtain ⟨amount, hamount, hs⟩ := h.amount
  rw [hs, Converter.formatDecimal_eq_iff.mpr (hw.series amount hamount)]
  exact hamount

theorem WholeAmounts.occurrences_read {occurrences : List OccurrenceResult}
    (h : (BookingRepository.listSeriesOccurrences sid).exec db t = .ok (occurrences, db')) :
    ReportsOccurrences db sid occurrences := by
  obtain ⟨listed, hlist, hof⟩ := listSeriesOccurrences_exec db t sid
  rw [hlist] at h
  cases h
  intro id amount
  rw [hof]
  constructor
  · rintro ⟨persisted, hp, rfl⟩
    rwa [Converter.formatDecimal_eq_iff.mpr (hw.occurrences id persisted hp)]
  · intro hp
    exact ⟨amount, hp, (Converter.formatDecimal_eq_iff.mpr (hw.occurrences id amount hp)).symm⟩

theorem WholeAmounts.seriesWithOccurrences {result : SeriesResult}
    (h : (seriesWithOccurrences sid).exec db t = .ok (result, db')) : Reports db sid result := by
  obtain ⟨series, hs, h⟩ := (exec_reads_iff (requireSeries_readOnly sid)).mp h
  obtain ⟨occurrences, ho, h⟩ := (exec_reads_iff (listSeriesOccurrences_readOnly sid)).mp h
  cases h
  exact ⟨hw.series_read (requireSeries_reads hs),
    hw.occurrences_read (eval_ok (listSeriesOccurrences_readOnly sid) ho)⟩

theorem WholeAmounts.getSeries {r : Request} {result : SeriesResult}
    (h : (getSeries r sid).exec db t = .ok (result, db')) : Reports db sid result := by
  obtain ⟨operatorId, -, h⟩ := (exec_reads_iff (BookingService.authenticatedUser_readOnly r)).mp h
  exact hw.seriesWithOccurrences h

theorem WholeAmounts.confirmPayment {r : Request} {result : SeriesResult}
    (h : (confirmPayment r sid).exec db t = .ok (result, db')) : Reports db sid result := by
  obtain ⟨operatorId, -, h⟩ := (exec_reads_iff (BookingService.authenticatedUser_readOnly r)).mp h
  obtain ⟨series, hs, h⟩ := (exec_reads_iff (requireSeries_readOnly sid)).mp h
  obtain ⟨occurrences, ho, h⟩ := (exec_reads_iff (listSeriesOccurrences_readOnly sid)).mp h
  have hseries := hw.series_read (requireSeries_reads hs)
  split at h
  · cases h
    exact ⟨hseries, hw.occurrences_read (eval_ok (listSeriesOccurrences_readOnly sid) ho)⟩
  · obtain ⟨nowUtc, -, h⟩ := (exec_reads_iff ReadOnly.now).mp h
    obtain ⟨u, -, h⟩ := (exec_reads_iff (ReadOnly.raiseIf _ _)).mp h
    obtain ⟨u, db₁, h₁, h⟩ := exec_bind_ok h
    obtain ⟨u, db₂, h₂, h⟩ := exec_bind_ok h
    obtain ⟨confirmed, db₃, h₃, h⟩ := exec_bind_ok h
    cases h
    -- the rows are confirmed before their amounts are read again
    have hsame : SameAmounts sid db db₂ := by
      cases (exec_updateTable seriesTable _ _ _).symm.trans h₁
      cases (exec_updateTable bookingTable _ _ _).symm.trans h₂
      refine SameAmounts.rewrite (f := confirmBooking sid (some operatorId)) rfl rfl
        (confirmBooking_same sid _) (fun s => ?_) (fun s => ?_) (fun s => ?_) sid
      all_goals split <;> rfl
    refine ⟨hseries, fun id amount => ?_⟩
    rw [(hsame.whole.mpr hw).occurrences_read h₃]
    exact hsame.occurrences id amount

end Whole

/-! ### 2.2 The lists -/

/-- The pending Series are fetched as models, and their amounts are those persisted. -/
theorem listPendingPaymentSeries_amounts (sid : UUID) (nowUtc : Int) : ∃ items,
    (RecurringBookingRepository.listPendingPaymentSeries nowUtc).exec db t = .ok (items, db) ∧
      ∀ item ∈ items, item.id = sid → SeriesAmount db sid item.quotedAmount := by
  refine ⟨_, exec_select _, ?_⟩
  rintro item hitem rfl
  obtain ⟨s, hs, rfl⟩ := List.mem_map.mp hitem
  obtain ⟨hmem, hpending⟩ := List.mem_filter.mp ((List.mem_insertionSort _).mp hs)
  simp only [Bool.and_eq_true, Bool.not_eq_true', decide_eq_true_eq] at hpending
  exact ⟨s, ⟨hmem, rfl, hpending.1.1⟩, rfl⟩

theorem listExpiredPendingSeries_reads (db : Db) (t : Int) (sid : UUID) (nowUtc : Int) : ∃ expired,
    (RecurringBookingRepository.listExpiredPendingSeries nowUtc).exec db t = .ok (expired, db) ∧
      ∀ s ∈ expired, s.id = sid → SeriesRead db sid s := by
  refine ⟨_, exec_select _, ?_⟩
  rintro s hs rfl
  obtain ⟨row, hrow, rfl⟩ := List.mem_map.mp hs
  obtain ⟨hmem, hpending⟩ := List.mem_filter.mp ((List.mem_insertionSort _).mp hrow)
  simp only [Bool.and_eq_true, Bool.not_eq_true', decide_eq_true_eq] at hpending
  exact ⟨row, ⟨hmem, rfl, hpending.1.1⟩, rfl⟩

/-- **Every reader reports what is persisted exactly where that is whole**, when the creation
result did. -/
theorem moneySurvives_iff {sid : UUID} {created : SeriesResult} (hcreated : Reports db sid created)
    (hone : OneAmount db sid) :
    MoneySurvives created db sid ↔ WholeAmounts db sid := by
  constructor
  · intro h
    constructor
    · intro amount hamount
      obtain ⟨s, hget, hs'⟩ := h.getById 0
      obtain ⟨persisted, hp, hformat⟩ := (getById_reads hget).amount
      rw [hone.series _ _ hp hamount] at hformat
      exact Converter.formatDecimal_eq_iff.mp (hformat ▸ hone.series _ _ hs' hamount)
    · intro id amount hamount
      obtain ⟨occurrences, hlist, hreports⟩ := h.listSeriesOccurrences 0
      obtain ⟨listed, hlist', hof⟩ := listSeriesOccurrences_exec db 0 sid
      cases hlist.symm.trans hlist'
      have hformat := (hreports id _).mp ((hof id _).mpr ⟨amount, hamount, rfl⟩)
      exact Converter.formatDecimal_eq_iff.mp (hone.occurrences id _ _ hformat hamount)
  · intro hw
    obtain ⟨row, hrow, -⟩ := hcreated.series
    refine ⟨hcreated, fun t => ?_, fun t => ?_, fun nowUtc t => ?_, fun nowUtc t => ?_,
      fun r t result db' h => hw.getSeries h, fun r t result db' h => hw.confirmPayment h⟩
    · obtain ⟨s, hget⟩ := getById_found (t := t) hrow
      exact ⟨s, hget, hw.series_read (getById_reads hget)⟩
    · obtain ⟨occurrences, hlist, -⟩ := listSeriesOccurrences_exec db t sid
      exact ⟨occurrences, hlist, hw.occurrences_read hlist⟩
    · exact listPendingPaymentSeries_amounts sid nowUtc
    · obtain ⟨expired, hlist, hread⟩ := listExpiredPendingSeries_reads db t sid nowUtc
      exact ⟨expired, hlist, fun s hs hid => hw.series_read (hread s hs hid)⟩

/-! ## 3. What `create_series` reports -/

/-- After the loop that inserts the occurrences, its result rows stand beside the inserted ones. -/
structure InsertedAmounts (sid : UUID) (db₀ : Db) (out : List OccurrenceResult) (db : Db) : Prop where
  series : db.series = db₀.series
  bookings : ∃ new, db.bookings = db₀.bookings ++ new ∧ (∀ b ∈ new, OccurrenceOf sid b) ∧
    new.map (fun b => (b.id, b.quotedAmount)) = out.map fun o => (o.id, o.quotedAmount)
  ids : (db₀.bookings.map Booking.id).Nodup → (db.bookings.map Booking.id).Nodup

theorem insertOccurrences_amounts {ids : Uuids} {command : CreateRecurringBookingSeriesCommand}
    {title : BookingTitle} {bookerId : UUID} {status : BookingStatus} {db₀ : Db}
    {xs : List (Nat × PreparedOccurrence × Quote)} {out : List OccurrenceResult}
    (h : (mapEach xs (insertOccurrence ids command title bookerId status)).exec db₀ t =
      .ok (out, db')) : InsertedAmounts ids.series db₀ out db' := by
  refine exec_mapEach (fun _ out db => InsertedAmounts ids.series db₀ out db) xs [] []
    ⟨rfl, ⟨[], (List.append_nil _).symm, by simp, rfl⟩, fun h => h⟩ ?_ h
  intro done out x db₁ res db₂ _ hinv hstep
  obtain ⟨u, db₃, hinsert, hret⟩ := exec_bind_ok hstep
  cases hret
  obtain ⟨hb, rfl⟩ := (exec_insertWithLines _ _ _).mp hinsert
  set row := occurrenceRow ids command title bookerId status x.1 x.2.1 x.2.2 with hrow
  obtain ⟨new, hnew, hof, hmap⟩ := hinv.bookings
  refine ⟨hinv.series, ⟨new ++ [row], ?_, ?_, ?_⟩, fun hnodup => ?_⟩
  · exact (congrArg (· ++ [row]) hnew).trans (List.append_assoc _ _ _)
  · intro b hb
    rcases List.mem_append.mp hb with hb | hb
    · exact hof b hb
    · rw [List.mem_singleton.mp hb]
      exact ⟨rfl, rfl⟩
  · rw [List.map_append, List.map_append, hmap]
    rfl
  · show ((db₁.bookings ++ [row]).map Booking.id).Nodup
    rw [List.map_append, List.nodup_append]
    refine ⟨hinv.ids hnodup, List.nodup_singleton _, fun id hid id' hid' => ?_⟩
    obtain ⟨b, hmem, rfl⟩ := List.mem_map.mp hid
    rw [List.mem_singleton.mp hid']
    exact hb.fresh b hmem

/-- Displaced Bookings are closed, and keep their amounts. -/
theorem exec_displaceSeriesTargets_closes {ids : Uuids}
    {command : CreateRecurringBookingSeriesCommand} {prepared : PreparedSeries}
    {review : SeriesReview}
    (h : (displaceSeriesTargets ids command prepared review).exec db t = .ok ((), db')) :
    ∃ cs, db'.bookings = db.bookings.map (closeAll cs) ∧ db'.series = db.series := by
  unfold displaceSeriesTargets at h
  split at h
  · obtain ⟨pairs, db₁, hpairs, happly⟩ := exec_bind_ok h
    rw [exec_ofExcept] at hpairs
    have hdb : db₁ = db := by
      split at hpairs <;> cases hpairs
      rfl
    subst hdb
    obtain ⟨-, rfl⟩ := (exec_applyWholeBookingOverrides _ _ _).mp happly
    exact ⟨_, rfl, rfl⟩
  · cases h
    exact ⟨[], (List.map_id' _).symm, rfl⟩

/-- **The creation result reports what is persisted.** -/
theorem createSeries_reports {app : App} {r : Request}
    {command : CreateRecurringBookingSeriesCommand} (hv : db.Valid) {created : SeriesResult}
    (h : (createSeries app r command).exec db t = .ok (created, db')) :
    Reports db' created.series.id created ∧ OneAmount db' created.series.id := by
  have htitle : ReadOnly (requireTitle command) := by unfold requireTitle; split <;> trivial
  obtain ⟨title, -, h⟩ := (exec_reads_iff htitle).mp h
  obtain ⟨prepared, -, h⟩ := (exec_reads_iff (prepareSeries_readOnly app r command)).mp h
  obtain ⟨u, db₀, hlock, h⟩ := exec_bind_ok h
  rw [exec_lockRooms] at hlock
  cases hlock
  obtain ⟨review, -, h⟩ := (exec_reads_iff (reviewSeries_readOnly app command prepared)).mp h
  obtain ⟨u, db₁, hinsert, h⟩ := exec_bind_ok h
  obtain ⟨out, db₂, hloop, h⟩ := exec_bind_ok h
  obtain ⟨u, db₃, hdisplace, h⟩ := exec_bind_ok h
  cases h
  set series := seriesRow r.ids command title prepared review with hseries
  obtain ⟨hfree, rfl⟩ := (exec_insertInto seriesTable _ [series]).mp hinsert
  have hfresh : ∀ s ∈ db.series, s.id ≠ r.ids.series := fun s hs hid =>
    hfree.fresh series (List.mem_singleton_self _) s hs (congrArg RowName.series hid)
  have hins := insertOccurrences_amounts hloop
  obtain ⟨cs, hb, hs⟩ := exec_displaceSeriesTargets_closes hdisplace
  have hsame : SameAmounts r.ids.series db₂ db' :=
    .rewrite (g := id) hb (hs.trans (List.map_id _).symm) (closeAll_same cs) (fun _ => rfl)
      (fun _ => rfl) (fun _ => rfl) _
  obtain ⟨new, hnew, hof, hmap⟩ := hins.bookings
  have hone : OneAmount db₂ r.ids.series := by
    constructor
    · -- the row just inserted is the only one of its id
      have honly : ∀ s, SeriesRow db₂ r.ids.series s → s = series := by
        rintro s ⟨hmem, hid, -⟩
        rw [hins.series] at hmem
        rcases List.mem_append.mp hmem with hmem | hmem
        · exact absurd hid (hfresh s hmem)
        · exact List.mem_singleton.mp hmem
      rintro x y ⟨a, ha, rfl⟩ ⟨b, hb, rfl⟩
      rw [honly a ha, honly b hb]
    · rintro id x y ⟨a, ha, -, haid, rfl⟩ ⟨b, hb, -, hbid, rfl⟩
      rw [List.inj_on_of_nodup_map (hins.ids hv.bookingIds) ha hb (haid.trans hbid.symm)]
  refine ⟨hsame.reports.mpr ⟨?_, fun id amount => ?_⟩, hsame.one hone⟩
  · refine ⟨series, ⟨?_, rfl, rfl⟩, rfl⟩
    rw [hins.series]
    exact List.mem_append_right _ (List.mem_singleton_self _)
  · have hpairs : (∃ o ∈ out, o.id = id ∧ o.quotedAmount = amount) ↔
        ∃ b ∈ new, b.id = id ∧ b.quotedAmount = amount := by
      have hmem : ((id, amount) ∈ out.map fun o => (o.id, o.quotedAmount)) ↔
          (id, amount) ∈ new.map fun b => (b.id, b.quotedAmount) := by rw [hmap]
      simpa only [List.mem_map, Prod.mk.injEq] using hmem
    refine hpairs.trans ⟨?_, ?_⟩
    · rintro ⟨b, hb, rfl, rfl⟩
      exact ⟨b, hnew ▸ List.mem_append_right _ hb, hof b hb, rfl, rfl⟩
    · rintro ⟨b, hb, hocc, rfl, rfl⟩
      rw [hnew] at hb
      rcases List.mem_append.mp hb with hb | hb
      · -- a Booking that was there would be of a Series that was there
        obtain ⟨s, hs, hid⟩ := hv.seriesOf b hb _ hocc.1
        exact absurd hid (hfresh s hs)
      · exact ⟨b, hb, rfl, rfl⟩

/-! ## 4. The read path of a created Series -/

/-- **Money survives exactly where it is whole.**  For every Series that `create_series` makes, and
in every later state that keeps the amounts it persisted. -/
theorem createdMoney_survives_iff (app : App) (r : Request)
    (command : CreateRecurringBookingSeriesCommand) {created : SeriesResult} (hv : db.Valid)
    (h : (createSeries app r command).exec db t = .ok (created, db')) (later : Db)
    (hlater : SameAmounts created.series.id db' later) :
    MoneySurvives created later created.series.id ↔ WholeAmounts db' created.series.id := by
  obtain ⟨hreports, hone⟩ := createSeries_reports hv h
  exact (moneySurvives_iff (hlater.reports.mpr hreports) (hlater.one hone)).trans hlater.whole

/-- `Db.oneRoom` with the room let at some amount an hour. -/
def Db.oneRoomAt (unitAmount : Decimal) : Db :=
  { Db.oneRoom with rateTemplates := [{ id := 1, name := "standard", billingUnit := "hourly"
                                        unitAmount := unitAmount, isDefault := true }] }

/-- Two weeks in that room. -/
def weeklyAt (unitAmount : Decimal) : Except ApiError (SeriesResult × Db) :=
  (createSeries .utc (.numbered 7 100) (bookWeekly 10 17)).exec (.oneRoomAt unitAmount) 0

/-- What a created Series and its tables are like. -/
def weeklyHas (unitAmount : Decimal) (p : SeriesResult → Db → Bool) : Bool :=
  match weeklyAt unitAmount with
  | .ok (created, db') => p created db'
  | .error _ => false

theorem weeklyHas_ok (unitAmount : Decimal) (p : SeriesResult → Db → Bool)
    (h : weeklyHas unitAmount p = true) :
    ∃ created db', weeklyAt unitAmount = .ok (created, db') ∧ p created db' = true := by
  unfold weeklyHas at h
  split at h
  · exact ⟨_, _, by assumption, h⟩
  · cases h

theorem Db.oneRoomAt_valid (unitAmount : Decimal) : (Db.oneRoomAt unitAmount).Valid :=
  .empty rfl rfl

theorem createdMoney_survives_iff_twenty : ∃ created db', weeklyAt 20 = .ok (created, db') ∧
    MoneySurvives created db' created.series.id := by
  obtain ⟨created, db', h, hwhole⟩ := weeklyHas_ok 20 (fun _ db' =>
    (db'.series.all fun s => s.quotedAmount.den = 1) &&
      db'.bookings.all fun b => b.quotedAmount.den = 1) (by decide +kernel)
  rw [Bool.and_eq_true, List.all_eq_true, List.all_eq_true] at hwhole
  refine ⟨created, db', h, (createdMoney_survives_iff .utc (.numbered 7 100) (bookWeekly 10 17)
    (Db.oneRoomAt_valid 20) h db' (.refl _ _)).mpr ⟨?_, ?_⟩⟩
  · rintro amount ⟨s, hs, rfl⟩
    exact of_decide_eq_true (hwhole.1 s hs.1)
  · rintro id amount ⟨b, hb, -, -, rfl⟩
    exact of_decide_eq_true (hwhole.2 b hb)

/-- **At a rate with cents the readers of a Series lose them**: of 41.50 persisted, and created,
41 is read. -/
theorem createdMoney_not_survives : ∃ created db', weeklyAt (83 / 4) = .ok (created, db') ∧
    SeriesAmount db' created.series.id (83 / 2) ∧
    ¬ MoneySurvives created db' created.series.id := by
  obtain ⟨created, db', h, hcents⟩ := weeklyHas_ok (83 / 4) (fun created db' =>
    db'.series.any fun s => s.id = created.series.id && !s.isDeleted && s.quotedAmount = 83 / 2)
    (by decide +kernel)
  obtain ⟨s, hs, hrow⟩ := List.any_eq_true.mp hcents
  simp only [Bool.and_eq_true, decide_eq_true_eq, Bool.not_eq_true'] at hrow
  have hamount : SeriesAmount db' created.series.id (83 / 2) :=
    ⟨s, ⟨hs, hrow.1.1, hrow.1.2⟩, hrow.2⟩
  obtain ⟨hreports, hone⟩ := createSeries_reports (Db.oneRoomAt_valid (83 / 4)) h
  refine ⟨created, db', h, hamount, fun hsurvives => ?_⟩
  have hden := ((moneySurvives_iff hreports hone).mp hsurvives).series _ hamount
  exact absurd hden (by decide +kernel)

end NewlifeCore
