import NewlifeCore.Facility.BookingService
import NewlifeCore.Facility.Recurring
import NewlifeCore.Grouping
import Mathlib.Data.Prod.Lex

/-!
# My Bookings

A member browses the Bookings they take part in by section, a page at a time.  A one-time Booking is
a card of its own; the occurrences of a Series that fall in one section share a card.  Each Booking
is on one card of one section, and turning the pages shows every card once.
-/

namespace NewlifeCore

open Txn Prog

/-! ## 1. Rows, sections and cards -/

/-- A row of the browse query, which leaves Drafts out. -/
structure MemberBrowseBookingResult where
  id : UUID
  title : BookingTitle
  userId : UUID
  facilityId : Option UUID
  bookingType : BookingType
  seriesId : Option UUID
  seriesTitle : Option BookingTitle
  ministryId : Option UUID
  startAt : Int
  endAt : Int
  status : BookingStatus
  quotedAmount : Option Decimal
  currency : Option String
  paymentHoldExpiresAt : Option Int
  listed : status ≠ .draft

inductive MyBookingsSection
  | upcoming
  | overridden
  | past
  | cancelledOrExpired
deriving DecidableEq, Repr

namespace MyBookingsSection

def all : List MyBookingsSection := [upcoming, overridden, past, cancelledOrExpired]

theorem nodup_all : all.Nodup := by decide

theorem mem_all (s : MyBookingsSection) : s ∈ all := by cases s <;> decide

end MyBookingsSection

/-- A card; that of a Series has at least one occurrence. -/
inductive MemberBrowseCard
  | oneTime (isBooker isViewOnly : Bool) (booking : MemberBrowseBookingResult)
  | series (isBooker isViewOnly : Bool) (seriesId : UUID) (seriesTitle : Option BookingTitle)
      (first : MemberBrowseBookingResult) (rest : List MemberBrowseBookingResult)

namespace MemberBrowseCard

/-- What a card shows. -/
def bookings : MemberBrowseCard → List MemberBrowseBookingResult
  | oneTime _ _ booking => [booking]
  | series _ _ _ _ first rest => first :: rest

def seriesId? : MemberBrowseCard → Option UUID
  | oneTime _ _ _ => none
  | series _ _ seriesId _ _ _ => some seriesId

end MemberBrowseCard

namespace BookingRepository

/-- `_browse_query`: the Series is an outer join. -/
def browseRow (db : Db) (b : Booking) (listed : b.status ≠ .draft) : MemberBrowseBookingResult where
  id := b.id
  title := b.title
  userId := b.userId
  facilityId := some b.facilityId
  bookingType := b.bookingType
  seriesId := b.seriesId
  seriesTitle := (db.series.find? fun s => b.seriesId = some s.id).map BookingSeries.title
  ministryId := b.ministryId
  startAt := b.startAt
  endAt := b.endAt
  status := b.status
  quotedAmount := some b.quotedAmount
  currency := some b.currency
  paymentHoldExpiresAt := paymentHold db b
  listed

def listParticipantBookings (userId : UUID) (ministryIds : List UUID) :
    Portal (List MemberBrowseBookingResult) :=
  select fun db _ =>
    ((db.bookings.filter fun b => !b.isDeleted &&
        (b.userId = userId || b.ministryId.any fun m => m ∈ ministryIds)).insertionSort fun a b =>
      a.startAt < b.startAt ∨ a.startAt = b.startAt ∧ a.id ≤ b.id).filterMap fun b =>
        if listed : b.status ≠ .draft then some (browseRow db b listed) else none

end BookingRepository

/-! ## 2. The cards of a section -/

/-- Both ends are read on the facility's wall clock. -/
def classifyMyBookingsSection (status : BookingStatus) (endAt : Int)
    (paymentHoldExpiresAt : Option Int) (now : Int) (facilityTz : Zone) :
    Option MyBookingsSection :=
  if status = .overridden then some .overridden
  else if status = .cancelled then some .cancelledOrExpired
  else if status = .pendingPayment && !isPendingPaymentHoldActive paymentHoldExpiresAt now then
    some .cancelledOrExpired
  else if status ≠ .confirmed ∧ status ≠ .pendingPayment then none
  else if facilityTz.toLocal endAt > facilityTz.toLocal now then some .upcoming
  else some .past

/-- One viewer at one moment. -/
structure Browsing where
  userId : UUID
  now : Int
  facilityTz : Zone

namespace Browsing

variable (v : Browsing)

def sectionOf (row : MemberBrowseBookingResult) : Option MyBookingsSection :=
  classifyMyBookingsSection row.status row.endAt row.paymentHoldExpiresAt v.now v.facilityTz

/-- The Series a row is grouped under. -/
def groupOf (row : MemberBrowseBookingResult) : Option UUID :=
  if row.bookingType = .recurring then row.seriesId else none

def oneTimeCard (row : MemberBrowseBookingResult) : MemberBrowseCard :=
  .oneTime (row.userId = v.userId) (!decide (row.userId = v.userId)) row

def occurrenceLe (a b : MemberBrowseBookingResult) : Prop :=
  a.startAt < b.startAt ∨ a.startAt = b.startAt ∧ a.id ≤ b.id

instance : DecidableRel occurrenceLe := fun a b => by unfold occurrenceLe; infer_instance

/-- The booker and the title are those of the first occurrence. -/
def seriesCard (group : UUID × List MemberBrowseBookingResult) : Option MemberBrowseCard :=
  match group.2.insertionSort occurrenceLe with
  | [] => none
  | first :: rest => some (.series (first.userId = v.userId) (!decide (first.userId = v.userId))
      group.1 first.seriesTitle first rest)

/-- `series_occurrences`. -/
def seriesOccurrences (rows : List MemberBrowseBookingResult) :
    Groups UUID MemberBrowseBookingResult :=
  Groups.collect Prod.fst (fun vs pair => vs ++ [pair.2])
    (rows.filterMap fun row => (groupOf row).map fun seriesId => (seriesId, row)) []

/-- `_sort_key`: the soonest first, or else the latest first.  The float of `timestamp()` keeps the
microseconds. -/
def sortKey (shown : MyBookingsSection) : MemberBrowseCard → Int ×ₗ UUID
  | .oneTime _ _ booking =>
    if shown = .upcoming then toLex (booking.startAt, booking.id)
    else toLex (-booking.startAt, booking.id)
  | .series _ _ seriesId _ first rest =>
    if shown = .upcoming then
      toLex (rest.foldl (fun t row => min t row.startAt) first.startAt, seriesId)
    else toLex (-rest.foldl (fun t row => max t row.startAt) first.startAt, seriesId)

def cardsOf (matching : List MemberBrowseBookingResult) : List MemberBrowseCard :=
  (matching.filter fun row => (groupOf row).isNone).map v.oneTimeCard ++
    (seriesOccurrences matching).filterMap v.seriesCard

def projectMyBookingsCards (rows : List MemberBrowseBookingResult) (shown : MyBookingsSection) :
    List MemberBrowseCard :=
  (v.cardsOf (rows.filter fun row => v.sectionOf row = some shown)).insertionSort
    fun a b => sortKey shown a ≤ sortKey shown b

end Browsing

/-- A page, counted from 0, and the number of cards. -/
def paginateMyBookingsCards (cards : List MemberBrowseCard) (page pageSize : Nat) :
    List MemberBrowseCard × Nat :=
  ((cards.drop (page * pageSize)).take pageSize, cards.length)

/-- `MemberBrowseQueryCommand`. -/
structure MemberBrowseQueryCommand where
  shown : MyBookingsSection
  page : Nat := 0
  pageSize : Nat := 20
  pageSize_range : 1 ≤ pageSize ∧ pageSize ≤ 50

/-- `MemberBrowsePageResult`. -/
structure MemberBrowsePageResult where
  page : Nat
  pageSize : Nat
  total : Nat
  shown : MyBookingsSection
  items : List MemberBrowseCard

def BookingService.browseMyBookings (app : App) (r : Request) (command : MemberBrowseQueryCommand) :
    Portal MemberBrowsePageResult := do
  let userId ← authenticatedUser r
  let browseNow ← now
  let owned ← MinistryRepository.listOwnedActive userId
  let rows ← BookingRepository.listParticipantBookings userId owned
  let facilityTz ← SettingService.getFacilityTimezone app
  let cards := (Browsing.mk userId browseNow facilityTz).projectMyBookingsCards rows command.shown
  let (items, total) := paginateMyBookingsCards cards command.page command.pageSize
  pure { page := command.page, pageSize := command.pageSize, total, shown := command.shown, items }

/-! ## 3. A section's cards -/

namespace Browsing

section

variable {v : Browsing} {matching : List MemberBrowseBookingResult} {card : MemberBrowseCard}
  {row : MemberBrowseBookingResult} {id : UUID}

/-- What makes cards of a section: a row that belongs to no Series is alone, those of a Series are
together, and no Series has two cards. -/
structure Grouped (cards : List MemberBrowseCard) : Prop where
  alone : ∀ card ∈ cards, card.seriesId? = none →
    ∃ row, card.bookings = [row] ∧ groupOf row = none
  together : ∀ card ∈ cards, ∀ id, card.seriesId? = some id →
    ∀ row ∈ card.bookings, groupOf row = some id
  once : (cards.filterMap MemberBrowseCard.seriesId?).Nodup

/-- A Series card shows the occurrences that were grouped. -/
theorem bookings_seriesCard {group : UUID × List MemberBrowseBookingResult}
    (h : v.seriesCard group = some card) :
    card.seriesId? = some group.1 ∧ card.bookings.Perm group.2 := by
  have hperm := List.perm_insertionSort occurrenceLe group.2
  unfold seriesCard at h
  split at h
  · cases h
  · rename_i first rest hsort
    cases h
    rw [hsort] at hperm
    exact ⟨rfl, hperm⟩

/-- No occurrences, no card. -/
theorem seriesCard_none {group : UUID × List MemberBrowseBookingResult}
    (h : v.seriesCard group = none) : group.2 = [] := by
  have hperm := List.perm_insertionSort occurrenceLe group.2
  unfold seriesCard at h
  split at h
  · rename_i hsort
    rw [hsort] at hperm
    exact hperm.symm.eq_nil
  · cases h

theorem perm_seriesCards (groups : List (UUID × List MemberBrowseBookingResult)) :
    ((groups.filterMap v.seriesCard).flatMap MemberBrowseCard.bookings).Perm
      (groups.flatMap Prod.snd) := by
  induction groups with
  | nil => exact List.Perm.refl _
  | cons group groups ih =>
    rw [List.flatMap_cons, List.filterMap_cons]
    cases hcard : v.seriesCard group with
    | none =>
      rw [seriesCard_none hcard]
      exact ih
    | some card =>
      rw [List.flatMap_cons]
      exact (bookings_seriesCard hcard).2.append ih

/-- The rows of a Series, each with its key. -/
theorem grouped_rows : (matching.filterMap fun row => (groupOf row).map fun id => (id, row)).map
    Prod.snd = matching.filter fun row => (groupOf row).isSome := by
  induction matching with
  | nil => rfl
  | cons row rows ih => cases hrow : groupOf row <;> simp [hrow, ih]

/-- **No row of the section is left off its cards, and none is put on twice.** -/
theorem perm_cardsOf : ((v.cardsOf matching).flatMap MemberBrowseCard.bookings).Perm matching := by
  have halone : ((matching.filter fun row => (groupOf row).isNone).map v.oneTimeCard).flatMap
      MemberBrowseCard.bookings = matching.filter fun row => (groupOf row).isNone := by
    rw [List.flatMap_map]
    exact List.flatMap_singleton' _
  have hgrouped := (perm_seriesCards (v := v) (seriesOccurrences matching)).trans
    Groups.perm_flatMap_collect
  rw [grouped_rows, List.flatMap_nil, List.nil_append] at hgrouped
  rw [cardsOf, List.flatMap_append, halone]
  refine (hgrouped.append_left _).trans ?_
  have hsplit := List.filter_append_perm (fun row => (groupOf row).isNone) matching
  simpa only [Option.not_isNone] using hsplit

theorem nodup_seriesOccurrences : (Groups.keys (seriesOccurrences matching)).Nodup :=
  Groups.nodup_keys_collect List.nodup_nil

/-- The rows under a Series are of that Series. -/
theorem groupOf_of_mem {rows : List MemberBrowseBookingResult}
    (h : (id, rows) ∈ seriesOccurrences matching) : ∀ row ∈ rows, groupOf row = some id := by
  have hrows := Groups.valuesAt_of_mem nodup_seriesOccurrences h
  rw [seriesOccurrences, Groups.valuesAt_collect_append] at hrows
  intro row hrow
  rw [← hrows] at hrow
  obtain ⟨pair, hpair, rfl⟩ := List.mem_map.mp hrow
  obtain ⟨hpair, hid⟩ := List.mem_filter.mp hpair
  obtain ⟨row, -, hmade⟩ := List.mem_filterMap.mp hpair
  obtain ⟨id', hgroup, rfl⟩ := Option.map_eq_some_iff.mp hmade
  rw [hgroup]
  exact congrArg some (of_decide_eq_true hid)

theorem seriesIds_of_cards (groups : List (UUID × List MemberBrowseBookingResult)) :
    ((groups.filterMap v.seriesCard).filterMap MemberBrowseCard.seriesId?).Sublist
      (Groups.keys groups) := by
  induction groups with
  | nil => exact List.Sublist.refl _
  | cons group groups ih =>
    rw [Groups.keys_cons, List.filterMap_cons]
    cases hcard : v.seriesCard group with
    | none => exact ih.cons _
    | some card =>
      rw [List.filterMap_cons, (bookings_seriesCard hcard).1]
      exact ih.cons_cons _

theorem grouped_cardsOf : Grouped (v.cardsOf matching) := by
  have hcase : ∀ card ∈ v.cardsOf matching,
      (∃ row, card = v.oneTimeCard row ∧ groupOf row = none) ∨
        ∃ group ∈ seriesOccurrences matching, v.seriesCard group = some card := by
    intro card hcard
    rcases List.mem_append.mp hcard with hcard | hcard
    · obtain ⟨row, hrow, rfl⟩ := List.mem_map.mp hcard
      exact .inl ⟨row, rfl, Option.isNone_iff_eq_none.mp (List.mem_filter.mp hrow).2⟩
    · exact .inr (List.mem_filterMap.mp hcard)
  refine ⟨fun card hcard hnone => ?_, fun card hcard id hid row hrow => ?_, ?_⟩
  · rcases hcase card hcard with ⟨row, rfl, hrow⟩ | ⟨group, -, hmade⟩
    · exact ⟨row, rfl, hrow⟩
    · rw [(bookings_seriesCard hmade).1] at hnone
      cases hnone
  · rcases hcase card hcard with ⟨row, rfl, -⟩ | ⟨group, hgroup, hmade⟩
    · cases hid
    · obtain ⟨hkey, hperm⟩ := bookings_seriesCard hmade
      rw [hkey] at hid
      cases hid
      exact groupOf_of_mem hgroup row (hperm.mem_iff.mp hrow)
  · have hnone : ((matching.filter fun row => (groupOf row).isNone).map v.oneTimeCard).filterMap
        MemberBrowseCard.seriesId? = [] := by
      rw [List.filterMap_map]
      exact List.filterMap_eq_nil_iff.mpr fun _ _ => rfl
    rw [cardsOf, List.filterMap_append, hnone, List.nil_append]
    exact nodup_seriesOccurrences.sublist (seriesIds_of_cards _)

theorem Grouped.of_perm {cards cards' : List MemberBrowseCard} (h : Grouped cards)
    (hperm : cards'.Perm cards) : Grouped cards' :=
  ⟨fun card hcard => h.alone card (hperm.mem_iff.mp hcard),
    fun card hcard => h.together card (hperm.mem_iff.mp hcard),
    (hperm.filterMap _).nodup_iff.mpr h.once⟩

end

/-! ## 4. The sections -/

section

variable {v : Browsing} {rows : List MemberBrowseBookingResult} {shown : MyBookingsSection}

/-- **Every row has its section.** -/
theorem exists_section (row : MemberBrowseBookingResult) :
    ∃ shown, v.sectionOf row = some shown := by
  have hlisted := row.listed
  unfold sectionOf classifyMyBookingsSection
  split
  · exact ⟨_, rfl⟩
  · split
    · exact ⟨_, rfl⟩
    · split
      · exact ⟨_, rfl⟩
      · rw [if_neg (by cases hs : row.status <;> simp_all)]
        split <;> exact ⟨_, rfl⟩

theorem perm_project : (v.projectMyBookingsCards rows shown).Perm
    (v.cardsOf (rows.filter fun row => v.sectionOf row = some shown)) :=
  List.perm_insertionSort _ _

theorem perm_sectionCards :
    ((v.projectMyBookingsCards rows shown).flatMap MemberBrowseCard.bookings).Perm
      (rows.filter fun row => v.sectionOf row = some shown) :=
  (perm_project.flatMap_right _).trans perm_cardsOf

theorem mem_sectionCards {card : MemberBrowseCard} {row : MemberBrowseBookingResult}
    (hcard : card ∈ v.projectMyBookingsCards rows shown) (hrow : row ∈ card.bookings) :
    v.sectionOf row = some shown :=
  of_decide_eq_true (List.mem_filter.mp
    (perm_sectionCards.mem_iff.mp (List.mem_flatMap.mpr ⟨card, hcard, hrow⟩))).2

/-- **The sections share the rows out.** -/
theorem perm_sections : (MyBookingsSection.all.flatMap fun shown =>
    (v.projectMyBookingsCards rows shown).flatMap MemberBrowseCard.bookings).Perm rows := by
  refine (List.Perm.flatMap_left _ fun shown _ => perm_sectionCards).trans ?_
  have hclasses := Groups.perm_flatMap_filter v.sectionOf rows
    (MyBookingsSection.nodup_all.map (Option.some_injective _))
  rw [List.flatMap_map] at hclasses
  refine hclasses.trans ?_
  rw [List.filter_eq_self.mpr]
  intro row _
  obtain ⟨shown, hshown⟩ := exists_section (v := v) row
  rw [hshown]
  simpa using shown.mem_all

theorem sectionCards_ordered : (v.projectMyBookingsCards rows shown).Pairwise fun a b =>
    sortKey shown a ≤ sortKey shown b :=
  List.pairwise_insertionSort (fun a b => sortKey shown a ≤ sortKey shown b) _

end

end Browsing

/-! ## 5. Pages -/

/-- The pages it takes to show so many cards. -/
def pageCount (total pageSize : Nat) : Nat := (total + pageSize - 1) / pageSize

section

variable {cards : List MemberBrowseCard} {pageSize n : Nat}

theorem pages_eq_take : ((List.range n).flatMap fun page =>
    (paginateMyBookingsCards cards page pageSize).1) = cards.take (n * pageSize) := by
  induction n with
  | zero => simp
  | succ n ih =>
    rw [List.range_succ, List.flatMap_append, ih, Nat.succ_mul, List.take_add]
    simp [paginateMyBookingsCards]

/-- **Turning the pages from the first shows every card once**, in order; after the last one there
is nothing more. -/
theorem pages_complete (hsize : 1 ≤ pageSize) (h : pageCount cards.length pageSize ≤ n) :
    ((List.range n).flatMap fun page => (paginateMyBookingsCards cards page pageSize).1) =
      cards := by
  have hcount : cards.length ≤ pageCount cards.length pageSize * pageSize := by
    have hdiv := Nat.div_add_mod (cards.length + pageSize - 1) pageSize
    have hmod := Nat.mod_lt (cards.length + pageSize - 1) hsize
    rw [pageCount, Nat.mul_comm]
    omega
  rw [pages_eq_take, List.take_of_length_le (hcount.trans (Nat.mul_le_mul_right _ h))]

end

/-! ## 6. Neither lost nor repeated -/

/-- **My Bookings shows each row once**: in one section, on one card, and each card on one page. -/
theorem myBookings_complete (v : Browsing) (rows : List MemberBrowseBookingResult) (pageSize : Nat)
    (hsize : 1 ≤ pageSize) :
    (∀ row ∈ rows, ∃! shown, v.sectionOf row = some shown) ∧
      (MyBookingsSection.all.flatMap fun shown =>
        (v.projectMyBookingsCards rows shown).flatMap MemberBrowseCard.bookings).Perm rows ∧
      ∀ shown, ∀ cards, cards = v.projectMyBookingsCards rows shown →
        (∀ card ∈ cards, ∀ row ∈ card.bookings, v.sectionOf row = some shown) ∧
        Browsing.Grouped cards ∧
        (cards.Pairwise fun a b => Browsing.sortKey shown a ≤ Browsing.sortKey shown b) ∧
        (∀ n, pageCount cards.length pageSize ≤ n → ((List.range n).flatMap fun page =>
          (paginateMyBookingsCards cards page pageSize).1) = cards) ∧
        ∀ page, (paginateMyBookingsCards cards page pageSize).2 = cards.length := by
  refine ⟨fun row _ => ?_, Browsing.perm_sections, ?_⟩
  · obtain ⟨shown, hshown⟩ := Browsing.exists_section (v := v) row
    exact ⟨shown, hshown, fun other hother => Option.some_inj.mp (hother.symm.trans hshown)⟩
  · rintro shown cards rfl
    exact ⟨fun card hcard row hrow => Browsing.mem_sectionCards hcard hrow,
      Browsing.grouped_cardsOf.of_perm Browsing.perm_project, Browsing.sectionCards_ordered,
      fun n hn => pages_complete hsize hn, fun _ => rfl⟩

/-! ### 6.1 Four sections, and a page 0 -/

/-- A member's one-time Booking. -/
def browsed (id : UUID) (status : BookingStatus) (listed : status ≠ .draft) (endAt : Int) :
    MemberBrowseBookingResult where
  id
  title := ⟨"rehearsal", by decide⟩
  userId := 1
  facilityId := some 3
  bookingType := .oneTime
  seriesId := none
  seriesTitle := none
  ministryId := none
  startAt := endAt - hourMicros
  endAt
  status
  quotedAmount := some 40
  currency := some "CAD"
  paymentHoldExpiresAt := none
  listed

/-- A Booking to come, one that is over, one overridden and one cancelled. -/
def fourBookings : List MemberBrowseBookingResult :=
  [browsed 1 .confirmed (by decide) (3 * hourMicros), browsed 2 .confirmed (by decide) hourMicros,
    browsed 3 .overridden (by decide) hourMicros, browsed 4 .cancelled (by decide) hourMicros]

/-- Their booker, at two o'clock. -/
def browsingBooker : Browsing := ⟨1, 2 * hourMicros, Zone.utc⟩

theorem myBookings_complete_four :
    1 ≤ 20 ∧ (MyBookingsSection.all.flatMap fun shown =>
      (browsingBooker.projectMyBookingsCards fourBookings shown).flatMap
        MemberBrowseCard.bookings).Perm fourBookings :=
  ⟨by decide, (myBookings_complete browsingBooker fourBookings 20 (by decide)).2.1⟩

/-- **Three sections do not hold the rows, and the pages from 1 on miss the first card.** -/
theorem myBookings_not_three :
    (∀ three : List MyBookingsSection, three.length ≤ 3 →
      ∃ row ∈ fourBookings, ∀ shown ∈ three, browsingBooker.sectionOf row ≠ some shown) ∧
    ∀ n, ((List.range n).flatMap fun i => (paginateMyBookingsCards
      (browsingBooker.projectMyBookingsCards fourBookings .upcoming) (i + 1) 20).1) ≠
        browsingBooker.projectMyBookingsCards fourBookings .upcoming := by
  refine ⟨fun three hthree => ?_, fun n hpages => ?_⟩
  -- a section of each row, and there are four
  · by_contra hcovers
    push Not at hcovers
    have hall : MyBookingsSection.all ⊆ three := by
      have hfour : fourBookings.map browsingBooker.sectionOf =
          [some .upcoming, some .past, some .overridden, some .cancelledOrExpired] := by
        decide
      intro shown _
      have hsome : some shown ∈ fourBookings.map browsingBooker.sectionOf := by
        rw [hfour]
        cases shown <;> decide
      obtain ⟨row, hrow, hshown⟩ := List.mem_map.mp hsome
      obtain ⟨other, hother, heq⟩ := hcovers row hrow
      exact Option.some_inj.mp (heq.symm.trans hshown) ▸ hother
    have := (List.subperm_of_subset MyBookingsSection.nodup_all hall).length_le
    have hfour : MyBookingsSection.all.length = 4 := rfl
    omega
  -- all the cards of the section are on page 0
  · have hone : (browsingBooker.projectMyBookingsCards fourBookings .upcoming).length = 1 := by
      decide
    have hnone : ((List.range n).flatMap fun i => (paginateMyBookingsCards
        (browsingBooker.projectMyBookingsCards fourBookings .upcoming) (i + 1) 20).1) = [] := by
      refine List.flatMap_eq_nil_iff.mpr fun i _ => ?_
      rw [paginateMyBookingsCards, List.drop_eq_nil_of_le (by omega), List.take_nil]
    rw [← hpages, hnone] at hone
    cases hone

end NewlifeCore
