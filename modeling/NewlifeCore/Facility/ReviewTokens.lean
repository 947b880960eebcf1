import Mathlib.Logic.Equiv.List
import NewlifeCore.Text
import NewlifeCore.Facility.RecurringBookingService

/-!
# What an override review token binds

A token carries digests of texts put together by hand: sorted keys joined by newlines, instants
written in UTC.  Each of these texts determines what it was written from, so a token that is
accepted was issued for the same Booker, Ministry and proposal, and for each displaced Booking as
it still stands.

* §1, instants: fixed width for the date, an optional fraction after the seconds.
  `utcIso_injective` needs the widths, since nothing separates the fields from a longer number;
  `utcIso_plain` says that none of a list's separators occurs in the text.
* §2, keys: a room interval is its three parts between separators that none of them contains
  (`roomIntervalKey_inj`), and only the proposal of a Series has the marker among its keys.
* §3, what is hashed.  Joining plain keys with newlines is injective (`joinLines_injective`),
  sorting is up to order, and so a context text determines the context (`contextText_eq_iff`) and an
  impact text the impact (`impactText_eq_iff`).  The services issue tokens for impacts of different
  Bookings: `evaluateOneTimeOccupancy_nodup` follows the loop that collects them.
* §4: `overrideReview_binds` is the acceptance in these terms, for a digest that tells apart the
  texts at hand; §4.1 runs it on a review that comes in another order.
-/

namespace NewlifeCore

open Txn Prog Text RecurringBookingService

/-! ## 1. Instants -/

namespace Date

theorem isoformat_eq (d : Int) :
    isoformat d = padded 4 (year d) ++ "-" ++ padded 2 (month d) ++ "-" ++ padded 2 (day d) := rfl

/-- A date is determined by its text. -/
theorem isoformat_injective : Function.Injective isoformat := fun a b h => by
  have hlist := congrArg String.toList h
  simp only [isoformat_eq, String.toList_append] at hlist
  have hm : 1 ≤ month a ∧ month a ≤ 12 := civil_month_range a
  have hm' : 1 ≤ month b ∧ month b ≤ 12 := civil_month_range b
  have hd : 1 ≤ day a ∧ day a ≤ 31 := civil_day_range a
  have hd' : 1 ≤ day b ∧ day b ≤ 31 := civil_day_range b
  have length_eq : ∀ x y : Int, 1 ≤ x → x ≤ 31 → 1 ≤ y → y ≤ 31 →
      (padded 2 x).toList.length = (padded 2 y).toList.length := fun x y h₁ h₂ h₃ h₄ => by
    rw [length_padded (by decide) (by omega) (by norm_num; omega),
      length_padded (by decide) (by omega) (by norm_num; omega)]
  -- month and day fill two characters each, so the text is read from its end
  obtain ⟨hrest, hday⟩ := List.append_inj' hlist (length_eq _ _ hd.1 hd.2 hd'.1 hd'.2)
  obtain ⟨hrest, -⟩ := List.append_inj' hrest rfl
  obtain ⟨hrest, hmonth⟩ := List.append_inj' hrest
    (length_eq _ _ hm.1 (by omega) hm'.1 (by omega))
  obtain ⟨hyear, -⟩ := List.append_inj' hrest rfl
  refine civil_injective (Prod.ext ?_ (Prod.ext ?_ ?_))
  · exact padded_injective 4 (String.toList_injective hyear)
  · exact padded_injective 2 (String.toList_injective hmonth)
  · exact padded_injective 2 (String.toList_injective hday)

theorem isoformat_chars {d : Int} {c : Char} (h : c ∈ (isoformat d).toList) : NumberChar c := by
  simp only [isoformat_eq, String.toList_append, List.mem_append] at h
  rcases h with (((h | h) | h) | h) | h
  · exact padded_chars h
  · exact .inr (by simpa using h)
  · exact padded_chars h
  · exact .inr (by simpa using h)
  · exact padded_chars h

end Date

/-- The seconds of a UTC text, with the fraction when there is one. -/
def secondsText (s : Int) : String :=
  padded 2 (s / 1000000 % 60) ++
    (if s % 1000000 = 0 then "" else "." ++ padded 6 (s % 1000000)) ++ "+00:00"

theorem utcIso_eq (t : Int) : utcIso t = Date.isoformat (t / dayMicros) ++ "T" ++
    padded 2 (t % dayMicros / hourMicros) ++ ":" ++
    padded 2 (t % dayMicros / minuteMicros % 60) ++ ":" ++ secondsText (t % dayMicros) := by
  simp only [secondsText, ← String.append_assoc]
  rfl

theorem numberChar_ne {c c' : Char} (h : NumberChar c) (hd : c'.isDigit = false) (hm : c' ≠ '-') :
    c ≠ c' := by
  rintro rfl
  rcases h with h | h
  · rw [h] at hd; cases hd
  · exact hm h

theorem not_mem_padded {n : Nat} {x : Int} {c : Char} (hd : c.isDigit = false) (hm : c ≠ '-') :
    c ∉ (padded n x).toList := fun h => numberChar_ne (padded_chars h) hd hm rfl

theorem secondsText_injective {s s' : Int} (h : secondsText s = secondsText s') :
    s / 1000000 % 60 = s' / 1000000 % 60 ∧ s % 1000000 = s' % 1000000 := by
  have hlist := congrArg String.toList h
  simp only [secondsText, String.toList_append] at hlist
  obtain ⟨hrest, -⟩ := List.append_inj' hlist rfl
  have hlen : (padded 2 (s / 1000000 % 60)).toList.length =
      (padded 2 (s' / 1000000 % 60)).toList.length := by
    rw [length_padded (by decide) (by omega) (by norm_num; omega),
      length_padded (by decide) (by omega) (by norm_num; omega)]
  obtain ⟨hsec, hfrac⟩ := List.append_inj hrest hlen
  refine ⟨padded_injective 2 (String.toList_injective hsec), ?_⟩
  by_cases h₀ : s % 1000000 = 0 <;> by_cases h₁ : s' % 1000000 = 0
  · rw [h₀, h₁]
  · simp [h₀, h₁] at hfrac
  · simp [h₀, h₁] at hfrac
  · simp only [h₀, h₁, if_false, String.toList_append, List.append_cancel_left_eq] at hfrac
    exact padded_injective 6 (String.toList_injective hfrac)

/-- **An instant is determined by its UTC text.** -/
theorem utcIso_injective : Function.Injective utcIso := fun t t' h => by
  have hlist := congrArg String.toList h
  have hT : "T".toList = ['T'] := rfl
  have hcolon : ":".toList = [':'] := rfl
  simp only [utcIso_eq, String.toList_append, List.append_assoc, hT, hcolon,
    List.singleton_append] at hlist
  obtain ⟨hdate, hrest⟩ := append_cons_inj (c := 'T')
    (fun hc => numberChar_ne (Date.isoformat_chars hc) (by decide) (by decide) rfl)
    (fun hc => numberChar_ne (Date.isoformat_chars hc) (by decide) (by decide) rfl) hlist
  obtain ⟨hhour, hrest⟩ := append_cons_inj (c := ':') (not_mem_padded (by decide) (by decide))
    (not_mem_padded (by decide) (by decide)) hrest
  obtain ⟨hminute, hrest⟩ := append_cons_inj (c := ':') (not_mem_padded (by decide) (by decide))
    (not_mem_padded (by decide) (by decide)) hrest
  obtain ⟨hsecond, hmicro⟩ := secondsText_injective (String.toList_injective hrest)
  have hdate := Date.isoformat_injective (String.toList_injective hdate)
  have hhour := padded_injective 2 (String.toList_injective hhour)
  have hminute := padded_injective 2 (String.toList_injective hminute)
  simp only [dayMicros, hourMicros, minuteMicros] at *
  omega

/-- No separator of a key or of a list of keys occurs in an instant's text. -/
theorem utcIso_plain {t : Int} {c : Char} (hc : c = '\n' ∨ c = '|') : c ∉ (utcIso t).toList := by
  have hd : c.isDigit = false := by rcases hc with rfl | rfl <;> decide
  have hm : c ≠ '-' := by rcases hc with rfl | rfl <;> decide
  have hsep : c ≠ 'T' ∧ c ≠ ':' ∧ c ≠ '.' := by rcases hc with rfl | rfl <;> decide
  have hend : c ∉ "+00:00".toList := by rcases hc with rfl | rfl <;> decide
  have hiso : ∀ d, c ∉ (Date.isoformat d).toList := fun d h =>
    numberChar_ne (Date.isoformat_chars h) hd hm rfl
  have hpad : ∀ n x, c ∉ (padded n x).toList := fun n x => not_mem_padded hd hm
  have hfrac : c ∉ (if t % dayMicros % 1000000 = 0 then ""
      else "." ++ padded 6 (t % dayMicros % 1000000)).toList := by
    split
    · simp
    · simp [hsep.2.2, hpad]
  simp only [utcIso_eq, secondsText, String.toList_append, List.mem_append, hiso, hpad, hfrac, hend,
    or_false, false_or, not_or]
  exact ⟨⟨by simpa using hsep.1, by simpa using hsep.2.1⟩, by simpa using hsep.2.1⟩

/-- An aware `datetime`: its wall clock and the offset of its zone there. -/
structure AwareDatetime where
  wall : Int
  utcoffset : Int

/-- `value.astimezone(timezone.utc)`. -/
def AwareDatetime.instant (d : AwareDatetime) : Int := d.wall - d.utcoffset

/-! ## 2. Keys -/

/-- The texts that a list can be written of, one a line. -/
def PlainKeys (keys : List String) : Prop := ∀ key ∈ keys, '\n' ∉ key.toList

theorem natToString_plain {n : Nat} {c : Char} (hc : c = '\n' ∨ c = '|') :
    c ∉ (toString n).toList := fun h => by
  have := natToString_digits h
  rcases hc with rfl | rfl <;> exact absurd this (by decide)

theorem roomIntervalKey_eq (facilityId : UUID) (startAt endAt : Int) :
    roomIntervalKey facilityId startAt endAt =
      "|".intercalate [toString facilityId, utcIso startAt, utcIso endAt] := by
  simp [roomIntervalKey, String.append_assoc]

/-- A key determines its room and its instants. -/
theorem roomIntervalKey_inj {f f' : UUID} {s s' e e' : Int}
    (h : roomIntervalKey f s e = roomIntervalKey f' s' e') : f = f' ∧ s = s' ∧ e = e' := by
  rw [roomIntervalKey_eq, roomIntervalKey_eq] at h
  have hplain : ∀ (f : UUID) (s e : Int), ∀ x ∈ [toString f, utcIso s, utcIso e],
      '|' ∉ x.toList := by
    intro f s e x hx
    simp only [List.mem_cons, List.not_mem_nil, or_false] at hx
    rcases hx with rfl | rfl | rfl
    · exact natToString_plain (.inr rfl)
    · exact utcIso_plain (.inr rfl)
    · exact utcIso_plain (.inr rfl)
  have := intercalate_injective rfl (hplain f s e) (hplain f' s' e') (by simp) (by simp) h
  simp only [List.cons.injEq, and_true] at this
  exact ⟨natToString_injective this.1, utcIso_injective this.2.1, utcIso_injective this.2.2⟩

theorem roomIntervalKey_plain (f : UUID) (s e : Int) : '\n' ∉ (roomIntervalKey f s e).toList := by
  simp only [roomIntervalKey, String.toList_append, List.mem_append, not_or]
  exact ⟨⟨⟨⟨natToString_plain (.inl rfl), by decide⟩, utcIso_plain (.inl rfl)⟩, by decide⟩,
    utcIso_plain (.inl rfl)⟩

theorem oneTimeProposal_plain (lines : List ResolvedBookingLine) :
    PlainKeys (oneTimeProposal lines) := fun key hk => by
  obtain ⟨line, -, rfl⟩ := List.mem_map.mp hk
  exact roomIntervalKey_plain _ _ _

theorem seriesProposal_plain (command : CreateRecurringBookingSeriesCommand)
    (remaining : List PreparedOccurrence) : PlainKeys (seriesProposal command remaining) := by
  intro key hk
  rcases List.mem_append.mp hk with hk | hk
  · rcases List.mem_cons.mp hk with rfl | hk
    · decide
    · obtain ⟨o, -, ho⟩ := List.mem_flatMap.mp hk
      obtain ⟨room, -, rfl⟩ := List.mem_map.mp ho
      exact roomIntervalKey_plain _ _ _
  · obtain ⟨d, -, rfl⟩ := List.mem_map.mp hk
    rw [String.toList_append, List.mem_append, not_or]
    refine ⟨by decide, fun h => ?_⟩
    exact numberChar_ne (Date.isoformat_chars h) (by decide) (by decide) rfl

/-- Only the keys of a Series have the marker among them. -/
theorem oneTimeProposal_not_perm (lines : List ResolvedBookingLine)
    (command : CreateRecurringBookingSeriesCommand) (remaining : List PreparedOccurrence) :
    ¬ (oneTimeProposal lines).Perm (seriesProposal command remaining) := fun h => by
  have hmem : "recurring-series" ∈ oneTimeProposal lines := h.mem_iff.mpr List.mem_cons_self
  obtain ⟨line, -, hline⟩ := List.mem_map.mp hmem
  have hbar : '|' ∈ (roomIntervalKey line.facilityId line.startAt line.endAt).toList := by
    simp [roomIntervalKey]
  rw [hline] at hbar
  exact absurd hbar (by decide)

/-! ## 3. Digests -/

/-- The text whose digest stands for the context of a token. -/
def contextText (bookerId : UUID) (ministryId : Option UUID) (proposal : List String) : String :=
  joinLines (toString bookerId :: (ministryId.map toString).getD "" :: sortStrings proposal)

/-- The text whose digest is the fingerprint of an impact. -/
def impactText (impact : OverrideImpact) : String :=
  joinLines (toString impact.bookingId :: utcIso impact.startAt :: utcIso impact.endAt ::
    sortStrings (impact.releasedIntervals.map fun i =>
      roomIntervalKey i.facilityId i.startAt i.endAt))

/-- All that is hashed for a context with its impacts. -/
def hashedTexts (bookerId : UUID) (ministryId : Option UUID) (proposal : List String)
    (impacts : List OverrideImpact) : List String :=
  contextText bookerId ministryId proposal ::
    impacts.flatMap fun i => [toString i.bookingId, impactText i]

theorem joinLines_injective {xs ys : List String} (hx : PlainKeys xs) (hy : PlainKeys ys)
    (hxn : xs ≠ []) (hyn : ys ≠ []) (h : joinLines xs = joinLines ys) : xs = ys :=
  intercalate_injective rfl hx hy hxn hyn h

theorem PlainKeys.cons {key : String} {keys : List String} (h : '\n' ∉ key.toList)
    (hs : PlainKeys keys) : PlainKeys (key :: keys) := fun k hk => by
  rcases List.mem_cons.mp hk with rfl | hk
  · exact h
  · exact hs k hk

theorem PlainKeys.sort {keys : List String} (h : PlainKeys keys) : PlainKeys (sortStrings keys) :=
  fun k hk => h k ((List.mem_insertionSort _).mp hk)

theorem optionText_plain (ministryId : Option UUID) :
    '\n' ∉ ((ministryId.map toString).getD "").toList := by
  cases ministryId with
  | none => decide
  | some m => exact natToString_plain (.inl rfl)

theorem optionText_injective {m m' : Option UUID}
    (h : (m.map toString).getD "" = (m'.map toString).getD "") : m = m' := by
  cases m with
  | none =>
    cases m' with
    | none => rfl
    | some m' => exact absurd h.symm (natToString_ne_empty m')
  | some m =>
    cases m' with
    | none => exact absurd h (natToString_ne_empty m)
    | some m' => exact congrArg some (natToString_injective h)

theorem contextText_eq_iff {b b' : UUID} {m m' : Option UUID} {P P' : List String}
    (hP : PlainKeys P) (hP' : PlainKeys P') :
    contextText b m P = contextText b' m' P' ↔ b = b' ∧ m = m' ∧ P.Perm P' := by
  constructor
  · intro h
    have hkeys := joinLines_injective
      (.cons (natToString_plain (.inl rfl)) (.cons (optionText_plain m) hP.sort))
      (.cons (natToString_plain (.inl rfl)) (.cons (optionText_plain m') hP'.sort))
      (by simp) (by simp) h
    simp only [List.cons.injEq] at hkeys
    exact ⟨natToString_injective hkeys.1, optionText_injective hkeys.2.1,
      insertionSort_eq_iff.mp hkeys.2.2⟩
  · rintro ⟨rfl, rfl, h⟩
    rw [contextText, contextText, sortStrings, insertionSort_eq_iff.mpr h, sortStrings]

/-- The two impacts are of one Booking as it stands: the same interval, and the same released room
intervals, each as often. -/
structure SameImpact (i j : OverrideImpact) : Prop where
  bookingId : i.bookingId = j.bookingId
  startAt : i.startAt = j.startAt
  endAt : i.endAt = j.endAt
  released : i.releasedIntervals.Perm j.releasedIntervals

theorem releasedKey_injective : Function.Injective fun i : ReleasedInterval =>
    roomIntervalKey i.facilityId i.startAt i.endAt := by
  rintro ⟨f, s, e⟩ ⟨f', s', e'⟩ h
  obtain ⟨rfl, rfl, rfl⟩ := roomIntervalKey_inj h
  rfl

theorem impactText_eq_iff {i j : OverrideImpact} : impactText i = impactText j ↔ SameImpact i j := by
  have hkeys : ∀ i : OverrideImpact, PlainKeys (i.releasedIntervals.map fun r =>
      roomIntervalKey r.facilityId r.startAt r.endAt) := fun i key hk => by
    obtain ⟨r, -, rfl⟩ := List.mem_map.mp hk
    exact roomIntervalKey_plain _ _ _
  have hplain : ∀ i : OverrideImpact, PlainKeys (toString i.bookingId :: utcIso i.startAt ::
      utcIso i.endAt :: sortStrings (i.releasedIntervals.map fun r =>
        roomIntervalKey r.facilityId r.startAt r.endAt)) := fun i =>
    .cons (natToString_plain (.inl rfl)) (.cons (utcIso_plain (.inl rfl))
      (.cons (utcIso_plain (.inl rfl)) (hkeys i).sort))
  constructor
  · intro h
    have hlines := joinLines_injective (hplain i) (hplain j) (by simp) (by simp) h
    simp only [List.cons.injEq] at hlines
    exact ⟨natToString_injective hlines.1, utcIso_injective hlines.2.1,
      utcIso_injective hlines.2.2.1,
      (List.map_perm_map_iff releasedKey_injective).mp (insertionSort_eq_iff.mp hlines.2.2.2)⟩
  · rintro ⟨hid, hs, he, hr⟩
    rw [impactText, impactText, hid, hs, he, sortStrings, insertionSort_eq_iff.mpr (hr.map _),
      sortStrings]

/-! ### 3.1 Both services issue tokens for impacts of different Bookings -/

theorem uniqueFrom_nodup : ∀ (impacts : List OverrideImpact) (seen : List UUID),
    ((uniqueFrom seen impacts).map OverrideImpact.bookingId).Nodup ∧
      ∀ i ∈ uniqueFrom seen impacts, i.bookingId ∉ seen
  | [], _ => ⟨List.nodup_nil, fun _ h => nomatch h⟩
  | i :: impacts, seen => by
    unfold uniqueFrom
    split
    · exact uniqueFrom_nodup impacts seen
    · rename_i hi
      obtain ⟨hnodup, hnot⟩ := uniqueFrom_nodup impacts (i.bookingId :: seen)
      constructor
      · rw [List.map_cons, List.nodup_cons]
        refine ⟨fun hmem => ?_, hnodup⟩
        obtain ⟨j, hj, hij⟩ := List.mem_map.mp hmem
        exact hnot j hj (hij ▸ List.mem_cons_self)
      · intro j hj
        rcases List.mem_cons.mp hj with rfl | hj
        · exact hi
        · exact fun h => hnot j hj (List.mem_cons_of_mem _ h)

theorem uniqueImpacts_nodup (targets : List (Int × OverrideTarget)) :
    ((uniqueImpacts targets).map OverrideImpact.bookingId).Nodup := (uniqueFrom_nodup _ _).1

/-- A displaced Booking is listed once. -/
theorem addTarget_ids (row : OccupyingBooking) (facilityId : UUID) :
    ∀ targets : List (OccupyingBooking × List UUID),
      (addTarget row facilityId targets).map (fun t => t.1.bookingId) =
        if row.bookingId ∈ targets.map (fun t => t.1.bookingId) then
          targets.map fun t => t.1.bookingId
        else targets.map (fun t => t.1.bookingId) ++ [row.bookingId]
  | [] => rfl
  | (r, rooms) :: rest => by
    unfold addTarget
    split
    · rename_i h
      simp [h]
    · rename_i h
      rw [List.map_cons, addTarget_ids row facilityId rest]
      simp only [List.map_cons, List.mem_cons, Ne.symm h, false_or]
      split <;> rfl

theorem addTarget_nodup {row : OccupyingBooking} {facilityId : UUID}
    {targets : List (OccupyingBooking × List UUID)}
    (h : (targets.map fun t => t.1.bookingId).Nodup) :
    ((addTarget row facilityId targets).map fun t => t.1.bookingId).Nodup := by
  rw [addTarget_ids]
  split
  · exact h
  · rename_i hnot
    exact h.append (List.nodup_singleton _) (by simpa using hnot)

theorem scanRow_nodup (context : Option MinistryProposalContext) (canOverride : Bool)
    (nowUtc : Int) (line : ResolvedBookingLine) (s : LineScan) (row : OccupyingBooking)
    (h : (s.targetRows.map fun t => t.1.bookingId).Nodup) :
    Returns (fun s' => (s'.targetRows.map fun t => t.1.bookingId).Nodup)
      (scanRow context canOverride nowUtc line s row) := by
  unfold scanRow
  split
  · exact addTarget_nodup h
  · cases context with
    | none => exact h
    | some context =>
      dsimp only
      split
      · exact h
      · cases row.ministryId with
        | none => exact h
        | some m =>
          refine Returns.bind ?_ (Returns.any (stewardContact m _))
          rintro ⟨known, contact⟩ -
          exact h

theorem scanLine_nodup (context : Option MinistryProposalContext) (canOverride : Bool)
    (nowUtc : Int) (s : OccupancyScan) (line : ResolvedBookingLine)
    (h : (s.targetRows.map fun t => t.1.bookingId).Nodup) :
    Returns (fun s' => (s'.targetRows.map fun t => t.1.bookingId).Nodup)
      (scanLine context canOverride nowUtc s line) := by
  refine Returns.bind (fun rows _ => ?_) (Returns.any _)
  refine Returns.bind (fun s' hs' => ?_) (Returns.foldEach
    (I := fun _ s' => (s'.targetRows.map fun t => t.1.bookingId).Nodup)
    (fun _ s' row hs' => scanRow_nodup _ _ _ _ s' row hs') rows [] _ h)
  split
  · exact hs'
  · exact hs'

/-- The impacts a one-time proposal is reviewed and checked with are of different Bookings. -/
theorem evaluateOneTimeOccupancy_nodup (lines : List ResolvedBookingLine)
    (context : Option MinistryProposalContext) (nowUtc : Int) (localTz : Zone)
    (allowOverride : Bool) :
    Returns (fun e => (e.impacts.map OverrideImpact.bookingId).Nodup)
      (evaluateOneTimeOccupancy lines context nowUtc localTz allowOverride) := by
  refine Returns.bind (fun s hs => Returns.bind (fun released _ => ?_) (Returns.any _))
    (Returns.foldEach (I := fun _ s => (s.targetRows.map fun t => t.1.bookingId).Nodup)
      (fun _ s line hs => scanLine_nodup _ _ _ s line hs) lines [] {} List.nodup_nil)
  simpa [Returns, OneTimeOccupancyEvaluation.impacts, toTarget, Function.comp_def] using hs

/-! ## 4. Acceptance -/

section Acceptance

variable {crypto : ReviewCrypto} {b b' : UUID} {m m' : Option UUID} {P P' : List String}
  {I I' : List OverrideImpact}

/-- The digest tells the texts apart that two contexts with their impacts hash. -/
def ReviewCrypto.TellsApart (crypto : ReviewCrypto) (texts : List String) : Prop :=
  ∀ s ∈ texts, ∀ t ∈ texts, crypto.digest s = crypto.digest t → s = t

theorem mem_hashedTexts_impact {i : OverrideImpact} (hi : i ∈ I) :
    toString i.bookingId ∈ hashedTexts b m P I ∧ impactText i ∈ hashedTexts b m P I := by
  constructor
  · exact List.mem_cons_of_mem _ (List.mem_flatMap.mpr ⟨i, hi, List.mem_cons_self⟩)
  · exact List.mem_cons_of_mem _ (List.mem_flatMap.mpr
      ⟨i, hi, List.mem_cons_of_mem _ (List.mem_singleton_self _)⟩)

/-- **The fingerprint signed for a Booking is that of its impact**, when impacts are of different
Bookings. -/
theorem dictGet_fingerprint_iff (hI : (I.map OverrideImpact.bookingId).Nodup)
    (hd : crypto.TellsApart (hashedTexts b m P I ++ hashedTexts b' m' P' I'))
    {i' : OverrideImpact} (hi' : i' ∈ I') :
    dictGet (I.map fun i => (impactKey crypto i.bookingId, impactFingerprint crypto i))
      (impactKey crypto i'.bookingId) = some (impactFingerprint crypto i') ↔
    ∃ i ∈ I, SameImpact i i' := by
  have left : ∀ {i}, i ∈ I → toString i.bookingId ∈ hashedTexts b m P I ++ hashedTexts b' m' P' I' ∧
      impactText i ∈ hashedTexts b m P I ++ hashedTexts b' m' P' I' := fun hi =>
    ⟨List.mem_append_left _ (mem_hashedTexts_impact hi).1,
      List.mem_append_left _ (mem_hashedTexts_impact hi).2⟩
  have right : toString i'.bookingId ∈ hashedTexts b m P I ++ hashedTexts b' m' P' I' ∧
      impactText i' ∈ hashedTexts b m P I ++ hashedTexts b' m' P' I' :=
    ⟨List.mem_append_right _ (mem_hashedTexts_impact hi').1,
      List.mem_append_right _ (mem_hashedTexts_impact hi').2⟩
  have hkey : ∀ i ∈ I, ∀ j ∈ I, impactKey crypto i.bookingId = impactKey crypto j.bookingId →
      i = j := fun i hi j hj hij => List.inj_on_of_nodup_map hI hi hj
    (natToString_injective (hd _ (left hi).1 _ (left hj).1 hij))
  constructor
  · intro h
    unfold dictGet at h
    obtain ⟨p, hp, hval⟩ := Option.map_eq_some_iff.mp h
    obtain ⟨i, hi, rfl⟩ := List.mem_map.mp (List.mem_reverse.mp (List.mem_of_find?_eq_some hp))
    exact ⟨i, hi, impactText_eq_iff.mp (hd _ (left hi).2 _ right.2 hval)⟩
  · rintro ⟨i, hi, hsame⟩
    have hfp : impactFingerprint crypto i = impactFingerprint crypto i' :=
      congrArg crypto.digest (impactText_eq_iff.mpr hsame)
    rw [← hsame.bookingId, ← hfp]
    exact dictGet_map (fun i hi j hj hij => congrArg _ (hkey i hi j hj hij)) hi

/-- **A review token binds exactly what was reviewed.**  A token issued for a Booker, a Ministry, a
proposal and its impacts is accepted again when nothing is displaced, or when all three are the
same, the proposal's keys in any order, and each displaced Booking was reviewed as it still stands.
A one-time proposal is never taken for a recurring one, and a key is the same in whatever zone its
instants are written. -/
theorem overrideReview_binds (law : crypto.Lawful) (hP : PlainKeys P) (hP' : PlainKeys P')
    (hI : (I.map OverrideImpact.bookingId).Nodup)
    (hd : crypto.TellsApart (hashedTexts b m P I ++ hashedTexts b' m' P' I')) :
    (requireReviewedOverride crypto (some (issueOverrideReviewToken crypto b m P I)) b' m' P' I' =
        .ok () ↔
      I' = [] ∨ b = b' ∧ m = m' ∧ P.Perm P' ∧ ∀ i' ∈ I', ∃ i ∈ I, SameImpact i i') ∧
    (∀ lines command remaining,
      ¬ (oneTimeProposal lines).Perm (seriesProposal command remaining)) ∧
    ∀ (f f' : UUID) (s s' e e' : AwareDatetime),
      roomIntervalKey f s.instant e.instant = roomIntervalKey f' s'.instant e'.instant ↔
        f = f' ∧ s.instant = s'.instant ∧ e.instant = e'.instant := by
  refine ⟨?_, oneTimeProposal_not_perm, fun f f' s s' e e' => ⟨roomIntervalKey_inj, ?_⟩⟩
  · have hcontext : contextDigest crypto b m P = contextDigest crypto b' m' P' ↔
        b = b' ∧ m = m' ∧ P.Perm P' := by
      rw [← contextText_eq_iff hP hP']
      exact ⟨hd _ (List.mem_append_left _ List.mem_cons_self) _
        (List.mem_append_right _ List.mem_cons_self), congrArg crypto.digest⟩
    rw [requireReviewedOverride_issued_iff _ _ _ _ law, hcontext, and_assoc, and_assoc]
    refine or_congr_right (and_congr_right fun _ => and_congr_right fun _ =>
      and_congr_right fun _ => forall₂_congr fun i' hi' => ?_)
    exact dictGet_fingerprint_iff hI hd hi'
  · rintro ⟨rfl, hs, he⟩
    rw [hs, he]

end Acceptance

/-! ### 4.1 A review accepted in another order -/

/-- A text as numbers, and back. -/
def textCode (s : String) : List Nat := s.toList.map Char.toNat

def ofTextCode (l : List Nat) : String := String.ofList (l.map Char.ofNat)

theorem ofTextCode_textCode (s : String) : ofTextCode (textCode s) = s := by
  simp [ofTextCode, textCode, Function.comp_def]

/-- A payload as a number, and back. -/
def payloadCode (p : ReviewPayload) : Nat :=
  Encodable.encode (p.v, textCode p.c, p.t.map fun e => (textCode e.1, textCode e.2))

def ofPayloadCode (n : Nat) : Option ReviewPayload :=
  (Encodable.decode n : Option (Int × List Nat × List (List Nat × List Nat))).map fun q =>
    ⟨q.1, ofTextCode q.2.1, q.2.2.map fun e => (ofTextCode e.1, ofTextCode e.2)⟩

theorem ofPayloadCode_payloadCode (p : ReviewPayload) : ofPayloadCode (payloadCode p) = some p := by
  rw [ofPayloadCode, payloadCode, Encodable.encodek, Option.map_some]
  simp [ofTextCode_textCode, Function.comp_def]

/-- Review tokens without secrecy: digests that keep the text, payloads written in unary. -/
def ReviewCrypto.unary : ReviewCrypto where
  digest := id
  sign _ := "tag"
  encode p := String.ofList (List.replicate (payloadCode p + 1) 'x')
  decode s := ofPayloadCode (s.length - 1)

theorem ReviewCrypto.unary_lawful : ReviewCrypto.unary.Lawful where
  decode_encode p := by
    refine ⟨p, ?_, rfl, rfl, fun _ => rfl⟩
    simp [ReviewCrypto.unary, ofPayloadCode_payloadCode]
  encode_plain p := by
    intro h
    rw [ReviewCrypto.unary, String.toList_ofList] at h
    exact absurd (List.eq_of_mem_replicate h) (by decide)
  encode_ne p := by
    intro h
    have := congrArg String.length h
    simp [ReviewCrypto.unary] at this
  sign_ne _ := show "tag" ≠ "" by decide

/-- Two Bookings displaced by a proposal of two rooms. -/
def displacedPair : List OverrideImpact :=
  [⟨1, false, 10, 20, [⟨3, 10, 15⟩, ⟨4, 12, 20⟩]⟩, ⟨2, false, 30, 40, [⟨3, 30, 40⟩]⟩]

/-- A review to which the rule applies: the lines come in another order, and only the first
Booking is still displaced. -/
theorem overrideReview_binds_reordered :
    requireReviewedOverride .unary (some (issueOverrideReviewToken .unary 7 (some 5)
      (oneTimeProposal [⟨3, 10, 40, 0⟩, ⟨4, 10, 40, 1⟩]) displacedPair)) 7 (some 5)
      (oneTimeProposal [⟨4, 10, 40, 0⟩, ⟨3, 10, 40, 1⟩])
      [⟨1, false, 10, 20, [⟨4, 12, 20⟩, ⟨3, 10, 15⟩]⟩] = .ok () :=
  (overrideReview_binds ReviewCrypto.unary_lawful (oneTimeProposal_plain _)
    (oneTimeProposal_plain _) (by decide) fun _ _ _ _ h => h).1.mpr
      (.inr ⟨rfl, rfl, .swap _ _ _, fun _ hi => ⟨_, List.mem_cons_self, by
        rw [List.mem_singleton.mp hi]
        exact ⟨rfl, rfl, rfl, .swap _ _ _⟩⟩⟩)

end NewlifeCore
