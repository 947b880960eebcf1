import NewlifeCore.Facility.OpenWindows
import Mathlib.Data.List.Range

/-!
# The cells of a day

`day_cell_bounds` steps 48 half hours from the local midnight of a date, and the occupancy of the
day is fetched for the 24 hours from there.  Both reach the next local midnight where the zone reads
the two midnights with one offset, and end short of it or past it on a day of 25 or 23 hours.

Whatever the day, the cells follow one another without a gap (`dayCellBounds_consecutive`), are
apart, and cover the 24 hours from the midnight (`covers_dayCellBounds`).  So they tile the local
day exactly if it ends with those 24 hours, and `startOfDay_succ_iff` says when it does: the
difference of two local midnights is 24 hours and the difference of their offsets.
-/

namespace NewlifeCore

open Txn Prog AvailabilityService Intervals

/-! ## 1. What the cells are to be -/

/-- A local day, from its midnight to the next. -/
def Zone.localDay (tz : Zone) (day : Int) : Interval := (tz.startOfDay day, tz.startOfDay (day + 1))

/-- **The cells tile the local day**, and its occupancy is fetched for the same time. -/
structure TilesDay (day : Int) (tz : Zone) : Prop where
  consecutive : (dayCellBounds day tz).IsChain fun a b => a.2 = b.1
  nonempty : ∀ cell ∈ dayCellBounds day tz, cell.1 < cell.2
  apart : Apart (dayCellBounds day tz)
  union : ∀ u, Covers (dayCellBounds day tz) u ↔ Holds (tz.localDay day) u
  fetched : ∀ (db : Db) (t : Int) (facilityId : UUID) (isMinistryContext isPriority : Bool)
    (occupancies : List OccupancyInterval),
    (occupancyForRoomDay facilityId day tz isMinistryContext isPriority).eval db t =
      .ok occupancies →
    occupancies.map OccupancyInterval.shape =
      ((occupyingSlots db t facilityId).filter fun r =>
        intervalsOverlap (slotInterval r) (tz.localDay day)).map ownShape

/-- The zone reads the midnights at both ends of the day with one offset. -/
def Zone.OneOffset (tz : Zone) (day : Int) : Prop :=
  tz.wallOffset (WallClock.combine (day + 1) .midnight) =
    tz.wallOffset (WallClock.combine day .midnight)

/-! ## 2. What they are on every day -/

section

variable (day : Int) (tz : Zone)

theorem dayCellBounds_consecutive : (dayCellBounds day tz).IsChain fun a b => a.2 = b.1 := by
  refine List.isChain_map_of_isChain _ (fun j k hjk => ?_)
    ((List.isChain_range (fun j k => k = j + 1) timetableCellsPerDay).mpr fun _ _ => rfl)
  dsimp only
  rw [hjk, Nat.cast_add, Nat.cast_one]

theorem dayCellBounds_apart : Apart (dayCellBounds day tz) := by
  refine (dayCellBounds_pairwise day tz).imp fun {a b} hab u hu => ?_
  exact absurd (lt_of_lt_of_le hu.1.2 hab) (not_lt.mpr hu.2.1)

/-- The cells cover the 24 hours from the day's midnight. -/
theorem covers_dayCellBounds (u : Int) : Covers (dayCellBounds day tz) u ↔
    Holds (tz.startOfDay day, tz.startOfDay day + dayMicros) u := by
  simp only [Covers, Holds, dayMicros]
  constructor
  · rintro ⟨cell, hcell, hstart, hend⟩
    obtain ⟨k, hk, h₁, h₂⟩ := mem_dayCellBounds_iff.mp hcell
    omega
  · rintro ⟨hstart, hend⟩
    -- the cell that the instant falls in
    obtain ⟨k, hk⟩ : ∃ k : Nat, (k : Int) = (u - tz.startOfDay day) / 1800000000 :=
      ⟨_, Int.toNat_of_nonneg (by omega)⟩
    refine ⟨(tz.startOfDay day + 1800000000 * k, tz.startOfDay day + 1800000000 * k + 1800000000),
      mem_dayCellBounds_iff.mpr ⟨k, by omega, rfl, rfl⟩, ?_, ?_⟩
    · dsimp only
      omega
    · dsimp only
      omega

variable {day tz}

theorem startOfDay_succ_iff :
    tz.startOfDay (day + 1) = tz.startOfDay day + dayMicros ↔ tz.OneOffset day := by
  simp only [Zone.startOfDay, Zone.toUtc, Zone.OneOffset, WallClock.combine]
  constructor
  · intro h
    linarith
  · intro h
    rw [h]
    ring

/-- What covers the local day ends with it. -/
theorem TilesDay.oneOffset (h : TilesDay day tz) : tz.OneOffset day := by
  rw [← startOfDay_succ_iff]
  have hunion := fun u => (covers_dayCellBounds day tz u).symm.trans (h.union u)
  have hday : (0 : Int) < dayMicros := by decide
  simp only [Holds, Zone.localDay] at hunion
  have hlast := hunion (tz.startOfDay day + dayMicros - 1)
  have hnext := hunion (tz.startOfDay day + dayMicros)
  omega

/-! ## 3. The days on which they tile -/

/-- **The cells tile the local day** exactly when both its midnights are read with one offset. -/
theorem dayCells_tile_iff (day : Int) (tz : Zone) : TilesDay day tz ↔ tz.OneOffset day := by
  constructor
  · exact TilesDay.oneOffset
  · intro h
    have hnext : tz.localDay day = (tz.startOfDay day, tz.startOfDay day + dayMicros) := by
      rw [Zone.localDay, startOfDay_succ_iff.mpr h]
    refine ⟨dayCellBounds_consecutive day tz, fun cell hcell => ?_, dayCellBounds_apart day tz,
      fun u => ?_, fun db t facilityId isMinistryContext isPriority occupancies heval => ?_⟩
    · obtain ⟨k, -, -, hend⟩ := mem_dayCellBounds_iff.mp hcell
      omega
    · rw [hnext]
      exact covers_dayCellBounds day tz u
    · rw [hnext]
      exact occupancyForRoomDay_shape heval

/-- **The day on which the clocks go forward** has 23 hours and 48 half-hour cells. -/
theorem springForward_not_tiled : ¬ TilesDay 0 springForward := by
  intro h
  exact absurd h.oneOffset (by unfold Zone.OneOffset; decide)

end

end NewlifeCore
