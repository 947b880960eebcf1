import NewlifeCore.Facility.Repositories
import NewlifeCore.Txn.Exec

/-!
# The two Blackout tests

`has_blackout_overlap` asks the database for the Blackouts of each local day of an interval and
compares their times; `interval_overlaps_blackout` takes one Blackout and compares it in memory.  A
creation uses the first, the preview of a Blackout's impact the second, and the two were written
apart: one as a WHERE clause and a loop, the other as a loop of its own.

Both come down to `MeetsOn`, a day of the interval on which the Blackout applies and its times meet
the part of the interval that falls on that day.  The WHERE clause is read by
`activeForRoomDay_iff`, the loop over the rows by `anyDayOverlaps_eval`, and the loop in memory by
`intervalOverlapsBlackout_iff`; `blackoutTests_agree` compares what they have been reduced to.
-/

namespace NewlifeCore

open Txn Prog

namespace RoomBlackoutRepository

variable {db : Db} {t : Int} {facilityId : UUID} {b : RoomBlackout}

/-! ## 1. One day -/

/-- The WHERE clause over the kinds of Blackout is `applies_on_date`. -/
theorem appliesOnDate_iff (day : Int) : appliesOnDate b day = true ↔
    (b.kind = .oneOff ∧ b.blackoutDate = some day) ∨
    (b.kind = .recurring ∧
      (b.daysOfWeekMask.any fun mask => maskHasDay mask (Date.weekday day)) = true ∧
      (b.effectiveFrom.all (· ≤ day)) = true ∧ (b.effectiveTo.all (· ≥ day)) = true) := by
  unfold appliesOnDate
  cases hkind : b.kind with
  | oneOff => simp
  | recurring =>
    have hfrom : b.effectiveFrom.any (day < ·) = !b.effectiveFrom.all (· ≤ day) := by
      cases b.effectiveFrom with
      | none => rfl
      | some d => simp only [Option.any_some, Option.all_some, ← decide_not, Int.not_le]
    have hto : b.effectiveTo.any (day > ·) = !b.effectiveTo.all (· ≥ day) := by
      cases b.effectiveTo with
      | none => rfl
      | some d => simp only [Option.any_some, Option.all_some, ← decide_not, Int.not_le,
        gt_iff_lt, ge_iff_le]
    rw [hfrom, hto]
    cases b.effectiveFrom.all (· ≤ day) <;> cases b.effectiveTo.all (· ≥ day) <;> simp

theorem scopesOverlap_iff : scopesOverlap b.facilityId (some facilityId) = true ↔
    b.facilityId = some facilityId ∨ b.facilityId = none := by
  cases hid : b.facilityId <;> simp [scopesOverlap]

/-- **The row that the statement selects** is one that is not deleted, active, of the room or of
all rooms, and applies on the date. -/
theorem activeForRoomDay_iff (day : Int) : activeForRoomDay b facilityId day = true ↔
    b.isDeleted = false ∧ b.isActive = true ∧
      scopesOverlap b.facilityId (some facilityId) = true ∧ appliesOnDate b day = true := by
  rw [appliesOnDate_iff, scopesOverlap_iff]
  simp [activeForRoomDay, and_assoc]

/-- The times of a Blackout meet the part of the interval on one of its days. -/
def MeetsOn (localStart localEnd day : Int) (b : RoomBlackout) : Prop :=
  timeRangesOverlap (daySlot localStart localEnd day).1 (daySlot localStart localEnd day).2
    b.startTime b.endTime = true

/-! ## 2. The days of an interval -/

theorem anyDayOverlaps_eval (db : Db) (t : Int) (facilityId : UUID) (localStart localEnd : Int)
    (days : List Int) : ∃ found,
    (anyDayOverlaps facilityId localStart localEnd days).eval db t = .ok found ∧
      (found = true ↔ ∃ day ∈ days, ∃ b ∈ db.blackouts,
        activeForRoomDay b facilityId day = true ∧ MeetsOn localStart localEnd day b) := by
  induction days with
  | nil => exact ⟨false, rfl, by simp⟩
  | cons day days ih =>
    obtain ⟨later, heval, hlater⟩ := ih
    have hday : ∀ blackouts, (listActiveForRoomDay facilityId day).eval db t = .ok blackouts →
        (slotOverlapsBlackouts blackouts (daySlot localStart localEnd day).1
          (daySlot localStart localEnd day).2 = true ↔ ∃ b ∈ db.blackouts,
            activeForRoomDay b facilityId day = true ∧ MeetsOn localStart localEnd day b) := by
      intro blackouts hread
      cases hread
      simp only [slotOverlapsBlackouts, List.any_eq_true, List.mem_insertionSort, List.mem_filter,
        and_assoc, MeetsOn]
    cases hmeets : slotOverlapsBlackouts ((db.blackouts.filter fun b =>
        activeForRoomDay b facilityId day).insertionSort fun a b => a.startTime ≤ b.startTime)
        (daySlot localStart localEnd day).1 (daySlot localStart localEnd day).2 with
    | true =>
      refine ⟨true, (eval_bind_iff (ReadOnly.select _)).mpr ⟨_, rfl, ?_⟩, ?_⟩
      · rw [if_pos hmeets]
        rfl
      · exact iff_of_true rfl ⟨day, .head _, (hday _ rfl).mp hmeets⟩
    | false =>
      refine ⟨later, (eval_bind_iff (ReadOnly.select _)).mpr ⟨_, rfl, ?_⟩, ?_⟩
      · rw [if_neg (by simp [hmeets])]
        exact heval
      · have hnot := mt (hday _ rfl).mpr (by simp [hmeets])
        rw [hlater, List.exists_mem_cons_iff]
        exact (or_iff_right hnot).symm

theorem intervalOverlapsBlackout_iff (startAt endAt : Int) (tz : Zone) :
    intervalOverlapsBlackout b facilityId startAt endAt tz = true ↔
      b.isActive = true ∧ scopesOverlap b.facilityId (some facilityId) = true ∧
      ∃ day ∈ intervalDays (tz.toLocal startAt) (tz.toLocal endAt),
        appliesOnDate b day = true ∧ MeetsOn (tz.toLocal startAt) (tz.toLocal endAt) day b := by
  unfold intervalOverlapsBlackout
  cases b.isActive with
  | false => simp
  | true =>
    cases scopesOverlap b.facilityId (some facilityId) with
    | false => simp
    | true => simp [List.any_eq_true, MeetsOn]

/-- **The two tests agree**: the first always answers, and says that a Blackout overlaps exactly
when the second does of some Blackout that is active and not deleted. -/
theorem blackoutTests_agree (db : Db) (t : Int) (facilityId : UUID) (startAt endAt : Int)
    (tz : Zone) : ∃ found, (hasBlackoutOverlap facilityId startAt endAt tz).eval db t = .ok found ∧
      (found = true ↔ ∃ b ∈ db.blackouts, b.isActive = true ∧ b.isDeleted = false ∧
        intervalOverlapsBlackout b facilityId startAt endAt tz = true) := by
  obtain ⟨found, heval, hfound⟩ := anyDayOverlaps_eval db t facilityId (tz.toLocal startAt)
    (tz.toLocal endAt) (intervalDays (tz.toLocal startAt) (tz.toLocal endAt))
  refine ⟨found, heval, hfound.trans ?_⟩
  simp only [activeForRoomDay_iff, intervalOverlapsBlackout_iff]
  constructor
  · rintro ⟨day, hday, b, hb, ⟨hdeleted, hactive, hscope, happlies⟩, hmeets⟩
    exact ⟨b, hb, hactive, hdeleted, hactive, hscope, day, hday, happlies, hmeets⟩
  · rintro ⟨b, hb, hactive, hdeleted, -, hscope, day, hday, happlies, hmeets⟩
    exact ⟨day, hday, b, hb, ⟨hdeleted, hactive, hscope, happlies⟩, hmeets⟩

end RoomBlackoutRepository

end NewlifeCore
