import NewlifeCore.Facility.Calls

/-!
# What the checks find out

The reading parts of the service methods, among any other transactions: each result is tied to
the rows that some moment of the reading saw.  Nothing here depends on what the others may do;
`R` is any rely.
-/

namespace NewlifeCore

open Txn Prog

variable {R : Rely Db LockKey}

/-- A moment of a portal transaction. -/
abbrev PortalView := View Db RowName LockKey

/-! ## 1. A Series and its occurrences -/

/-- A Booking is an occurrence of a Series. -/
def OccurrenceOf (sid : UUID) (b : Booking) : Prop := b.seriesId = some sid ∧ b.isDeleted = false

/-- The start of a Booking as the listings of occurrences show it: its whole second. -/
def Booking.shownStart (b : Booking) : Int := Converter.formatInstant b.startAt

def Booking.shownEnd (b : Booking) : Int := Converter.formatInstant b.endAt

theorem Booking.shownStart_le (b : Booking) : b.shownStart ≤ b.startAt :=
  Converter.formatInstant_le b.startAt

/-- The listed occurrences are those of the Series, with their shown start and their status. -/
structure Lists (db : Db) (sid : UUID) (occs : List OccurrenceResult) : Prop where
  sound : ∀ o ∈ occs, ∃ b ∈ db.bookings, OccurrenceOf sid b ∧ o.id = b.id ∧
    o.startAt = b.shownStart ∧ o.status = b.status
  complete : ∀ b ∈ db.bookings, OccurrenceOf sid b → ∃ o ∈ occs, o.id = b.id ∧
    o.startAt = b.shownStart ∧ o.status = b.status

/-- The Series row that `get_by_id` finds. -/
def SeriesRow (db : Db) (sid : UUID) (s : BookingSeries) : Prop :=
  s ∈ db.series ∧ s.id = sid ∧ s.isDeleted = false

/-- The row as `get_by_id` returns it. -/
def SeriesRead (db : Db) (sid : UUID) (s : BookingSeries) : Prop :=
  ∃ row, SeriesRow db sid row ∧ s = RecurringBookingRepository.formatRow row

theorem SeriesRead.id {db : Db} {sid : UUID} {s : BookingSeries} (h : SeriesRead db sid s) :
    s.id = sid := by
  obtain ⟨row, hrow, rfl⟩ := h
  exact hrow.2.1

theorem SeriesRead.status {db : Db} {sid : UUID} {s : BookingSeries} (h : SeriesRead db sid s) :
    ∃ row, SeriesRow db sid row ∧ row.status = s.status := by
  obtain ⟨row, hrow, rfl⟩ := h
  exact ⟨row, hrow, rfl⟩

theorem listSeriesOccurrences_wp (sid : UUID) (v : PortalView) :
    wp R (BookingRepository.listSeriesOccurrences sid) (fun occs w =>
      Env R v w ∧ Read R v (fun db _ => Lists db sid occs) w) v := by
  refine wp_seq (wp_select_once _ v) fun rows w₁ hw₁ h₁ => ?_
  refine wp_seq (wp_select_once _ w₁) fun lines w₂ hw₂ h₂ w₃ hw₃ => ?_
  refine ⟨h₁.1.trans (h₂.1.trans hw₃), ?_⟩
  refine (h₁.2.later (hw₂.trans (.of_env hw₃))).mono fun db n hrows => ?_
  have hmem : ∀ b, b ∈ rows ↔ b ∈ db.bookings ∧ OccurrenceOf sid b := by
    intro b
    rw [hrows, List.mem_insertionSort, List.mem_filter]
    simp [OccurrenceOf]
  constructor
  · intro o ho
    obtain ⟨b, hb, rfl⟩ := List.mem_map.mp ho
    exact ⟨b, ((hmem b).mp hb).1, ((hmem b).mp hb).2, rfl, rfl, rfl⟩
  · intro b hb hocc
    exact ⟨_, List.mem_map.mpr ⟨b, (hmem b).mpr ⟨hb, hocc⟩, rfl⟩, rfl, rfl, rfl⟩

theorem requireSeries_wp (sid : UUID) (v : PortalView) :
    wp R (RecurringBookingService.requireSeries sid) (fun s w =>
      Env R v w ∧ Read R v (fun db _ => SeriesRead db sid s) w) v := by
  refine wp_seq (wp_select_once _ v) fun row w₁ hw₁ h₁ => ?_
  cases row with
  | none => exact wp_raise
  | some s =>
    refine wp_ret fun w₂ hw₂ => ⟨h₁.1.trans hw₂, (h₁.2.later (.of_env hw₂)).mono ?_⟩
    intro db n hs
    obtain ⟨row, hrow, rfl⟩ := Option.map_eq_some_iff.mp hs.symm
    have hfound := List.find?_some hrow
    simp only [Bool.and_eq_true, decide_eq_true_eq, Bool.not_eq_true'] at hfound
    exact ⟨row, ⟨List.mem_of_find?_eq_some hrow, hfound.1, hfound.2⟩, rfl⟩

theorem seriesWithOccurrences_wp (sid : UUID) (v : PortalView) :
    wp R (RecurringBookingService.seriesWithOccurrences sid) (fun r w => Env R v w ∧
      Read R v (fun db _ => SeriesRead db sid r.series) w ∧
      Read R v (fun db _ => Lists db sid r.occurrences) w) v := by
  refine wp_seq (requireSeries_wp sid v) fun s w₁ hw₁ h₁ => ?_
  refine wp_seq (listSeriesOccurrences_wp sid w₁) fun occs w₂ hw₂ h₂ => ?_
  refine wp_ret fun w₃ hw₃ => ⟨h₁.1.trans (h₂.1.trans hw₃), ?_, ?_⟩
  · exact h₁.2.later (hw₂.trans (.of_env hw₃))
  · exact (h₂.2.later (.of_env hw₃)).since h₁.1

/-! ## 2. The occupants of a one-time proposal -/

/-- Somebody occupies an interval of a room. -/
abbrev Occupant (db : Db) (n : Int) (facilityId : UUID) (startAt endAt : Int)
    (r : BookingSlot × Booking) : Prop := r ∈ occupyingRows db n facilityId startAt endAt

/-- What `occupyingRows` selects. -/
theorem mem_occupyingRows {db : Db} {n : Int} {facilityId : UUID} {startAt endAt : Int}
    {r : BookingSlot × Booking} :
    Occupant db n facilityId startAt endAt r ↔
      r.1 ∈ db.bookingSlots ∧ r.2 ∈ db.bookings ∧ r.1.facilityBookingId = r.2.id ∧
      r.1.facilityId = facilityId ∧ r.1.status = .confirmed ∧
      overlaps r.1.startAt r.1.endAt startAt endAt = true ∧ r.2.isDeleted = false ∧
      activeOccupancy db n r.2 = true := by
  obtain ⟨slot, b⟩ := r
  simp only [Occupant, occupyingRows, List.mem_flatMap, List.mem_filter, List.mem_map,
    Bool.and_eq_true, decide_eq_true_eq, Bool.not_eq_true', Prod.mk.injEq]
  constructor
  · rintro ⟨s, ⟨hs, ⟨hf, hst⟩, ho⟩, b', ⟨hb, ⟨hid, hdel⟩, hact⟩, rfl, rfl⟩
    exact ⟨hs, hb, hid, hf, hst, ho, hdel, hact⟩
  · rintro ⟨hs, hb, hid, hf, hst, ho, hdel, hact⟩
    exact ⟨slot, ⟨hs, ⟨hf, hst⟩, ho⟩, b, ⟨hb, ⟨hid, hdel⟩, hact⟩, rfl, rfl⟩

/-- An occupant's Booking is live. -/
theorem occupant_live {db : Db} {n : Int} {facilityId : UUID} {startAt endAt : Int}
    {r : BookingSlot × Booking} (h : Occupant db n facilityId startAt endAt r) :
    RecurringBookingService.isLive r.2.status = true := by
  have hact := (mem_occupyingRows.mp h).2.2.2.2.2.2.2
  simp only [activeOccupancy, Bool.or_eq_true, Bool.and_eq_true, decide_eq_true_eq] at hact
  simp only [RecurringBookingService.isLive, Bool.or_eq_true, decide_eq_true_eq]
  exact hact.elim .inr fun h => .inl h.1

/-- A Rental Booking that has not started, and so may be displaced. -/
def Displaceable (db : Db) (nowUtc : Int) (bookingId : UUID) : Prop :=
  ∃ b ∈ db.bookings, b.id = bookingId ∧ b.ministryId = none ∧ nowUtc < b.startAt ∧
    b.isDeleted = false ∧ RecurringBookingService.isLive b.status = true

theorem occupant_displaceable {db : Db} {n nowUtc : Int} {facilityId : UUID} {startAt endAt : Int}
    {r : BookingSlot × Booking} (h : Occupant db n facilityId startAt endAt r)
    (hm : r.2.ministryId = none) (hs : nowUtc < r.2.startAt) :
    Displaceable db nowUtc r.2.id :=
  have h' := mem_occupyingRows.mp h
  ⟨r.2, h'.2.1, rfl, hm, hs, h'.2.2.2.2.2.2.1, occupant_live h⟩

theorem addTarget_mem {row : OccupyingBooking} {facilityId : UUID} :
    ∀ {targets : List (OccupyingBooking × List UUID)}, ∀ t ∈ addTarget row facilityId targets,
      t.1 = row ∨ ∃ t' ∈ targets, t'.1 = t.1
  | [], t, h => by simp only [addTarget, List.mem_singleton] at h; exact .inl (h ▸ rfl)
  | (r, rooms) :: rest, t, h => by
    unfold addTarget at h
    split at h
    · rcases List.mem_cons.mp h with rfl | h
      · exact .inr ⟨(r, rooms), List.mem_cons_self, rfl⟩
      · exact .inr ⟨t, List.mem_cons_of_mem _ h, rfl⟩
    · rcases List.mem_cons.mp h with rfl | h
      · exact .inr ⟨(r, rooms), List.mem_cons_self, rfl⟩
      · rcases addTarget_mem t h with h' | ⟨t', ht', he⟩
        · exact .inl h'
        · exact .inr ⟨t', List.mem_cons_of_mem _ ht', he⟩

/-- A Booking is among the targets. -/
def Targeted (targets : List (OccupyingBooking × List UUID)) (id : UUID) : Prop :=
  ∃ t ∈ targets, t.1.bookingId = id

theorem addTarget_targeted {row : OccupyingBooking} {facilityId : UUID} :
    ∀ {targets : List (OccupyingBooking × List UUID)},
      Targeted (addTarget row facilityId targets) row.bookingId ∧
      ∀ id, Targeted targets id → Targeted (addTarget row facilityId targets) id
  | [] => ⟨⟨_, List.mem_singleton.mpr rfl, rfl⟩, fun id h => by
      obtain ⟨t, ht, -⟩ := h; cases ht⟩
  | (r, rooms) :: rest => by
    unfold addTarget
    split
    · rename_i hr
      refine ⟨⟨_, List.mem_cons_self, hr⟩, fun id h => ?_⟩
      obtain ⟨t, ht, hid⟩ := h
      rcases List.mem_cons.mp ht with rfl | ht
      · exact ⟨_, List.mem_cons_self, hid⟩
      · exact ⟨t, List.mem_cons_of_mem _ ht, hid⟩
    · obtain ⟨⟨t₀, ht₀, h₀⟩, ih⟩ := addTarget_targeted
      refine ⟨⟨t₀, List.mem_cons_of_mem _ ht₀, h₀⟩, fun id h => ?_⟩
      obtain ⟨t, ht, hid⟩ := h
      rcases List.mem_cons.mp ht with rfl | ht
      · exact ⟨_, List.mem_cons_self, hid⟩
      · obtain ⟨t', ht', hid'⟩ := ih id ⟨t, ht, hid⟩
        exact ⟨t', List.mem_cons_of_mem _ ht', hid'⟩

/-- What the scan of one line has made of the rows done, from what was there before the line. -/
structure ScanInv (canOverride : Bool) (nowUtc : Int) (s₀ : OccupancyScan)
    (done : List OccupyingBooking) (s : LineScan) : Prop where
  sound : ∀ t ∈ s.targetRows, (∃ t' ∈ s₀.targetRows, t'.1 = t.1) ∨
    t.1 ∈ done ∧ canOverride = true ∧ t.1.ministryId = none ∧ nowUtc < t.1.startAt
  keeps : ∀ id, Targeted s₀.targetRows id → Targeted s.targetRows id
  clean : s.conflicts = [] → s₀.conflicts = []
  seen : s.seenOnLine ≠ [] → s.conflicts ≠ []
  complete : s.conflicts = [] → s.blockedOnLine = false →
    ∀ r ∈ done, Targeted s.targetRows r.bookingId

theorem scanRow_returns (context : Option MinistryProposalContext) (canOverride : Bool)
    (nowUtc : Int) (line : ResolvedBookingLine) (s₀ : OccupancyScan)
    (done : List OccupyingBooking) (s : LineScan) (row : OccupyingBooking)
    (h : ScanInv canOverride nowUtc s₀ done s) :
    Returns (ScanInv canOverride nowUtc s₀ (done ++ [row]))
      (scanRow context canOverride nowUtc line s row) := by
  have hsound : ∀ t ∈ s.targetRows, (∃ t' ∈ s₀.targetRows, t'.1 = t.1) ∨
      t.1 ∈ done ++ [row] ∧ canOverride = true ∧ t.1.ministryId = none ∧
        nowUtc < t.1.startAt := fun t ht =>
    (h.sound t ht).imp id fun h' => ⟨List.mem_append_left _ h'.1, h'.2⟩
  unfold scanRow
  split
  · -- the row becomes a target
    rename_i hguard
    simp only [Bool.and_eq_true, Option.isNone_iff_eq_none, decide_eq_true_eq, gt_iff_lt] at hguard
    refine ⟨fun t ht => ?_, fun id hid => addTarget_targeted.2 id (h.keeps id hid), h.clean,
      h.seen, fun hc hb r hr => ?_⟩
    · rcases addTarget_mem t ht with rfl | ⟨t', ht', he⟩
      · exact .inr ⟨by simp, hguard.1.2, hguard.1.1, hguard.2⟩
      · exact he ▸ hsound t' ht'
    · rcases List.mem_append.mp hr with hr | hr
      · exact addTarget_targeted.2 _ (h.complete hc hb r hr)
      · exact List.mem_singleton.mp hr ▸ addTarget_targeted.1
  · cases context with
    | none =>
      refine ⟨hsound, h.keeps, h.clean, h.seen, fun hc hb => ?_⟩
      cases hb
    | some context =>
      dsimp only
      split
      · -- seen before on this line: it left a conflict then
        rename_i hseen
        refine ⟨hsound, h.keeps, h.clean, h.seen, fun hc => ?_⟩
        exact absurd hc (h.seen (List.ne_nil_of_mem hseen))
      · cases row.ministryId with
        | some m =>
          refine Returns.seq _ fun contact => ?_
          exact ⟨hsound, h.keeps, fun hc => by simp at hc, fun _ => by simp,
            fun hc => by simp at hc⟩
        | none =>
          exact ⟨hsound, h.keeps, fun hc => by simp at hc, fun _ => by simp,
            fun hc => by simp at hc⟩

/-- The reading of one line: its targets may be displaced, and without a conflict every occupant
is a target. -/
theorem scanLine_wp (context : Option MinistryProposalContext) (canOverride : Bool) (nowUtc : Int)
    (s₀ : OccupancyScan) (line : ResolvedBookingLine) (v : PortalView) :
    wp R (scanLine context canOverride nowUtc s₀ line) (fun s w => Env R v w ∧
      (∀ t ∈ s.targetRows, (∃ t' ∈ s₀.targetRows, t'.1 = t.1) ∨
        canOverride = true ∧ Read R v (fun db _ => Displaceable db nowUtc t.1.bookingId) w) ∧
      (∀ id, Targeted s₀.targetRows id → Targeted s.targetRows id) ∧
      (s.conflicts = [] → s₀.conflicts = []) ∧
      (s.conflicts = [] → Read R v (fun db n => ∀ r,
        Occupant db n line.facilityId line.startAt line.endAt r →
          Targeted s.targetRows r.2.id) w)) v := by
  refine wp_seq (wp_select_once _ v) fun rows w₁ hw₁ h₁ => ?_
  have hscan := Returns.foldEach (ScanInv canOverride nowUtc s₀)
    (fun done s row h => scanRow_returns context canOverride nowUtc line s₀ done s row h)
    rows [] { toOccupancyScan := s₀ }
    ⟨fun t ht => .inl ⟨t, ht, rfl⟩, fun _ h => h, fun h => h, fun h => absurd rfl h,
      fun _ _ r hr => absurd hr (by simp)⟩
  refine wp_seq (wp_and (wp_quiet (ReadOnly.foldEach
    (scanRow_readOnly context canOverride nowUtc line) _ _) w₁) (wp_returns hscan))
    fun s w₂ hw₂ h₂ => ?_
  obtain ⟨henv, hinv⟩ := h₂
  simp only [List.nil_append] at hinv
  -- the rows read are those of the moment of the SELECT
  have hread : ∀ w₃, Env R w₂ w₃ → Read R v (fun db n => rows =
      (occupyingRows db n line.facilityId line.startAt line.endAt).map fun r =>
        toOccupying db r.1 r.2) w₃ := fun w₃ hw₃ => h₁.2.later (hw₂.trans (.of_env hw₃))
  have htargets : ∀ w₃, Env R w₂ w₃ → ∀ t ∈ s.targetRows,
      (∃ t' ∈ s₀.targetRows, t'.1 = t.1) ∨
        canOverride = true ∧ Read R v (fun db _ => Displaceable db nowUtc t.1.bookingId) w₃ := by
    intro w₃ hw₃ t ht
    rcases hinv.sound t ht with h | ⟨hdone, hcan, hm, hs⟩
    · exact .inl h
    · refine .inr ⟨hcan, (hread w₃ hw₃).mono fun db n hrows => ?_⟩
      rw [hrows] at hdone
      obtain ⟨r, hr, he⟩ := List.mem_map.mp hdone
      rw [← he] at hm hs ⊢
      exact occupant_displaceable hr hm hs
  have hall : ∀ w₃, Env R w₂ w₃ → s.conflicts = [] → s.blockedOnLine = false →
      Read R v (fun db n => ∀ r, Occupant db n line.facilityId line.startAt line.endAt r →
        Targeted s.targetRows r.2.id) w₃ := by
    intro w₃ hw₃ hc hb
    refine (hread w₃ hw₃).mono fun db n hrows r hr => ?_
    have := hinv.complete hc hb (toOccupying db r.1 r.2)
      (hrows ▸ List.mem_map.mpr ⟨r, hr, rfl⟩)
    exact this
  have hend : ∀ w₃, Env R w₂ w₃ → Env R v w₃ := fun w₃ hw₃ => h₁.1.trans (henv.trans hw₃)
  split
  · refine wp_ret fun w₃ hw₃ => ⟨hend w₃ hw₃, htargets w₃ hw₃, hinv.keeps, ?_, ?_⟩
    · intro hc; simp at hc
    · intro hc; simp at hc
  · rename_i hb
    refine wp_ret fun w₃ hw₃ => ⟨hend w₃ hw₃, htargets w₃ hw₃, hinv.keeps, hinv.clean, ?_⟩
    exact fun hc => hall w₃ hw₃ hc (by simpa using hb)

/-- The targets of an evaluation, by id. -/
def OneTimeOccupancyEvaluation.targetIds (e : OneTimeOccupancyEvaluation) : List UUID :=
  e.targets.map fun t => t.impact.bookingId

/-- **The occupancy evaluation of a one-time proposal**: every target was displaceable when it was
read, and without a conflict every occupant of every line is a target. -/
theorem evaluateOneTimeOccupancy_wp (lines : List ResolvedBookingLine)
    (context : Option MinistryProposalContext) (nowUtc : Int) (localTz : Zone)
    (allowOverride : Bool) (v : PortalView) :
    wp R (evaluateOneTimeOccupancy lines context nowUtc localTz allowOverride) (fun e w =>
      Env R v w ∧
      (∀ id ∈ e.targetIds, context.isSome ∧ Read R v (fun db _ => Displaceable db nowUtc id) w) ∧
      (e.conflicts = [] → ∀ line ∈ lines, Read R v (fun db n => ∀ r,
        Occupant db n line.facilityId line.startAt line.endAt r → r.2.id ∈ e.targetIds) w)) v := by
  let canOverride := allowOverride && context.any MinistryProposalContext.isPriority
  let I : List ResolvedBookingLine → OccupancyScan → PortalView → Prop := fun done s w =>
    Env R v w ∧
    (∀ t ∈ s.targetRows, canOverride = true ∧
      Read R v (fun db _ => Displaceable db nowUtc t.1.bookingId) w) ∧
    (s.conflicts = [] → ∀ line ∈ done, Read R v (fun db n => ∀ r,
      Occupant db n line.facilityId line.startAt line.endAt r → Targeted s.targetRows r.2.id) w)
  have henv : ∀ done s w w', I done s w → Env R w w' → I done s w' := by
    rintro done s w w' ⟨h₁, h₂, h₃⟩ hw
    exact ⟨h₁.trans hw, fun t ht => ⟨(h₂ t ht).1, (h₂ t ht).2.later (.of_env hw)⟩,
      fun hc line hl => (h₃ hc line hl).later (.of_env hw)⟩
  have hstep : ∀ done s line w, line ∈ lines → I done s w →
      wp R (scanLine context canOverride nowUtc s line) (fun s' => I (done ++ [line]) s') w := by
    rintro done s line w - ⟨h₁, h₂, h₃⟩
    refine wp_conseq (scanLine_wp context canOverride nowUtc s line w) fun s' w' hw' h => ?_
    obtain ⟨hew, hsound, hkeeps, hclean, hline⟩ := h
    refine ⟨h₁.trans hew, fun t ht => ?_, fun hc l hl => ?_⟩
    · rcases hsound t ht with ⟨t', ht', he⟩ | hr
      · exact he ▸ ⟨(h₂ t' ht').1, (h₂ t' ht').2.later hw'⟩
      · exact ⟨hr.1, hr.2.since h₁⟩
    · rcases List.mem_append.mp hl with hl | hl
      · exact ((h₃ (hclean hc) l hl).later hw').mono fun db n hr r hr' => hkeeps _ (hr r hr')
      · exact List.mem_singleton.mp hl ▸ (hline hc).since h₁
  refine wp_seq (wp_foldEach I henv lines [] {} v hstep
    ⟨Env.refl v, fun t ht => absurd ht (by simp), fun _ l hl => absurd hl (by simp)⟩)
    fun s w₁ hw₁ h₁ => ?_
  simp only [List.nil_append] at h₁
  have hquiet : ReadOnly (releasedByTarget s.targetRows) := by
    unfold releasedByTarget
    split
    · trivial
    · exact ReadOnly.select _
  refine wp_seq (wp_quiet hquiet w₁) fun released w₂ hw₂ h₂ => wp_ret fun w₃ hw₃ => ?_
  obtain ⟨h₁, hsound, hall⟩ := henv _ _ _ _ h₁ (h₂.trans hw₃)
  have hids : ∀ id, id ∈ (OneTimeOccupancyEvaluation.mk s.conflicts
      (s.targetRows.map (toTarget localTz released))).targetIds ↔ Targeted s.targetRows id := by
    intro id
    simp [OneTimeOccupancyEvaluation.targetIds, Targeted, toTarget]
  refine ⟨h₁, fun id hid => ?_, fun hc line hl => ?_⟩
  · obtain ⟨t, ht, rfl⟩ := (hids id).mp hid
    obtain ⟨hcan, hread⟩ := hsound t ht
    refine ⟨?_, hread⟩
    cases context with
    | none => simp [canOverride] at hcan
    | some _ => rfl
  · exact (hall hc line hl).mono fun db n h r hr => (hids _).mpr (h r hr)

end NewlifeCore
