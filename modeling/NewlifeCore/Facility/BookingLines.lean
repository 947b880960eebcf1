import NewlifeCore.Facility.Repositories

/-!
# Room lines: validation and opening hours

`booking_line_validation.py` and `opening_hours.py`: pure checks of a room line against the
facility's local day and its slot templates.
-/

namespace NewlifeCore

open Txn Prog

/-! ## 1. Lines -/

/-- `ResolvedBookingLine`. -/
structure ResolvedBookingLine where
  facilityId : UUID
  startAt : Int
  endAt : Int
  sequence : Int
deriving DecidableEq

/-- A line without times takes the header's. -/
def resolveBookingLines (rooms : List BookingRoomLineCommand) (headerStart headerEnd : Int) :
    List ResolvedBookingLine :=
  rooms.map fun line =>
    ⟨line.facilityId, line.startAt.getD headerStart, line.endAt.getD headerEnd, line.sequence⟩

/-- The first of the smallest under a key. -/
def minBy {α : Type} (key : α → Int) : α → List α → α
  | best, [] => best
  | best, x :: xs => minBy key (if key x < key best then x else best) xs

/-- Earliest start and latest end; the services call it with at least one line. -/
def envelopeInterval (lines : List ResolvedBookingLine) : Int × Int :=
  match lines with
  | [] => (0, 0)
  | line :: rest => (rest.foldl (fun s l => min s l.startAt) line.startAt,
      rest.foldl (fun e l => max e l.endAt) line.endAt)

/-- The lowest sequence's room. -/
def primaryFacilityId (lines : List ResolvedBookingLine) : UUID :=
  match lines with
  | [] => 0
  | line :: rest => (minBy ResolvedBookingLine.sequence line rest).facilityId

/-- The loop of `validate_booking_lines`: the days and the line keys seen so far. -/
def validateLinesFrom (tz : Zone) (days : List Int) (seen : List (UUID × Int × Int)) :
    List ResolvedBookingLine → Except ApiError (List Int)
  | [] => .ok days
  | line :: rest =>
    if line.endAt ≤ line.startAt then
      .error (badRequest "end_at must be after start_at" (some .bookingInvalidTimeRange))
    else if tz.localDate line.startAt ≠ tz.localDate line.endAt then
      .error (badRequest "Booking line must not cross local midnight"
        (some .bookingLineCrossMidnight))
    else if (line.facilityId, line.startAt, line.endAt) ∈ seen then
      .error (badRequest "Duplicate booking line" (some .bookingDuplicateLine))
    else validateLinesFrom tz (tz.localDate line.startAt :: days)
      ((line.facilityId, line.startAt, line.endAt) :: seen) rest

def validateBookingLines (lines : List ResolvedBookingLine) (tz : Zone) : Except ApiError Unit :=
  match validateLinesFrom tz [] [] lines with
  | .error e => .error e
  | .ok days =>
    if days.eraseDups.length > 1 then
      .error (badRequest "All booking lines must fall on the same local calendar day"
        (some .bookingLinesNotSameDay))
    else .ok ()

/-- Lines that pass the loop end after they start, within one local day. -/
theorem validateLinesFrom_ok {tz : Zone} : ∀ {lines : List ResolvedBookingLine}
    {days : List Int} {seen : List (UUID × Int × Int)} {out : List Int},
    validateLinesFrom tz days seen lines = .ok out →
      ∀ line ∈ lines, line.startAt < line.endAt ∧
        tz.localDate line.startAt = tz.localDate line.endAt
  | [], _, _, _, _, _, hl => by simp at hl
  | line :: rest, days, seen, out, h, l, hl => by
    unfold validateLinesFrom at h
    split at h
    · cases h
    · split at h
      · cases h
      · split at h
        · cases h
        · rcases List.mem_cons.mp hl with rfl | hl
          · exact ⟨by omega, not_ne_iff.mp ‹_›⟩
          · exact validateLinesFrom_ok h l hl

theorem validateBookingLines_ok {lines : List ResolvedBookingLine} {tz : Zone}
    (h : validateBookingLines lines tz = .ok ()) :
    ∀ line ∈ lines, line.startAt < line.endAt ∧
      tz.localDate line.startAt = tz.localDate line.endAt := by
  unfold validateBookingLines at h
  split at h
  · cases h
  · rename_i days hd
    exact validateLinesFrom_ok hd

/-! ## 2. Opening hours -/

def filterApplicableTemplates (templates : List RoomSlotTemplate) (day : Int) :
    List RoomSlotTemplate :=
  templates.filter fun t =>
    !(t.effectiveFrom.any fun d => day < d) && !(t.effectiveTo.any fun d => day > d)

/-- The fold of `merge_open_windows` over ordered windows, the last merged window in hand. -/
def mergeFrom (prev : Int × Int) : List (Int × Int) → List (Int × Int)
  | [] => [prev]
  | (startAt, endAt) :: rest =>
    if startAt ≤ prev.2 then mergeFrom (prev.1, max prev.2 endAt) rest
    else prev :: mergeFrom (startAt, endAt) rest

def mergeOpenWindows (windows : List (Int × Int)) : List (Int × Int) :=
  match windows.insertionSort fun a b => a.1 ≤ b.1 with
  | [] => []
  | first :: rest => mergeFrom first rest

def templateContainingStart (templates : List RoomSlotTemplate) (startAt : Int) (tz : Zone) :
    Option RoomSlotTemplate :=
  templates.find? fun t =>
    t.startTime ≤ WallClock.time (tz.toLocal startAt) &&
      WallClock.time (tz.toLocal startAt) < t.endTime

/-- `member_interval_within_opening_hours`. -/
def memberIntervalWithinOpeningHours (startAt endAt : Int) (templates : List RoomSlotTemplate)
    (tz : Zone) : Bool :=
  if endAt ≤ startAt then false
  else
    let day := tz.localDate startAt
    let applicable := filterApplicableTemplates templates day
    match templateContainingStart applicable startAt tz with
    | none => false
    | some startTemplate =>
      if endAt - startAt < startTemplate.slotDurationMinutes * minuteMicros then false
      else
        let windows := (applicable.filter fun t => t.startTime < t.endTime).map fun t =>
          (WallClock.combine day t.startTime, WallClock.combine day t.endTime)
        (mergeOpenWindows windows).any fun w =>
          w.1 ≤ tz.toLocal startAt && tz.toLocal endAt ≤ w.2

def raiseIfOutsideOpeningHours (facilityId : UUID) (startAt endAt : Int)
    (templates : List RoomSlotTemplate) (tz : Zone) : Portal Unit :=
  if memberIntervalWithinOpeningHours startAt endAt templates tz then pure ()
  else raise (badRequest s!"Room {facilityId} is outside opening hours for the selected time"
    (some .outsideOpeningHours) [("facility_id", some facilityId)])

/-- `_raise_if_room_closed`: the Blackouts, then the opening hours. -/
def raiseIfRoomClosed (facilityId : UUID) (startAt endAt : Int) (tz : Zone)
    (enforceOpeningHours : Bool) : Portal Unit := do
  let closed ← RoomBlackoutRepository.hasBlackoutOverlap facilityId startAt endAt tz
  raiseIf closed (badRequest s!"Room {facilityId} is closed for the selected time"
    (some .roomBlackout) [("facility_id", some facilityId)])
  if enforceOpeningHours then do
    let templates ← RoomSlotTemplateRepository.listActiveForDay facilityId
      (Date.weekday (tz.localDate startAt))
    raiseIfOutsideOpeningHours facilityId startAt endAt templates tz
  else pure ()

/-! ### 2.1 These checks only read -/

theorem anyDayOverlaps_readOnly (facilityId : UUID) (localStart localEnd : Int) :
    ∀ days, ReadOnly (RoomBlackoutRepository.anyDayOverlaps facilityId localStart localEnd days)
  | [] => ReadOnly.ret _
  | day :: days => by
    refine ReadOnly.bind (fun blackouts => ?_) (ReadOnly.select _)
    split
    · exact ReadOnly.ret _
    · exact anyDayOverlaps_readOnly facilityId localStart localEnd days

@[simp] theorem hasBlackoutOverlap_readOnly (facilityId : UUID) (startAt endAt : Int) (tz : Zone) :
    ReadOnly (RoomBlackoutRepository.hasBlackoutOverlap facilityId startAt endAt tz) :=
  anyDayOverlaps_readOnly _ _ _ _

theorem raiseIfOutsideOpeningHours_readOnly (facilityId : UUID) (startAt endAt : Int)
    (templates : List RoomSlotTemplate) (tz : Zone) :
    ReadOnly (raiseIfOutsideOpeningHours facilityId startAt endAt templates tz) := by
  unfold raiseIfOutsideOpeningHours
  split <;> trivial

@[simp] theorem raiseIfRoomClosed_readOnly (facilityId : UUID) (startAt endAt : Int) (tz : Zone)
    (enforce : Bool) : ReadOnly (raiseIfRoomClosed facilityId startAt endAt tz enforce) := by
  refine ReadOnly.bind (fun _ => ReadOnly.bind (fun _ => ?_) (ReadOnly.raiseIf _ _))
    (hasBlackoutOverlap_readOnly _ _ _ _)
  split
  · exact ReadOnly.bind (fun _ => raiseIfOutsideOpeningHours_readOnly _ _ _ _ _)
      (ReadOnly.select _)
  · exact ReadOnly.ret _

end NewlifeCore
