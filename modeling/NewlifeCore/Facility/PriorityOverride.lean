import NewlifeCore.Facility.Settings

/-!
# `priority_override.py`

Reviewed-impact tokens, and the displacement of whole Bookings with its audit rows.  The mail
that follows a commit changes no table and is left out.
-/

namespace NewlifeCore

open Txn Prog

/-! ## 1. Review tokens -/

/-- `OverrideImpactResult`. -/
structure OverrideImpact where
  bookingId : UUID
  isSeriesOccurrence : Bool
  startAt : Int
  endAt : Int
  releasedIntervals : List ReleasedInterval
deriving DecidableEq

/-- `value.astimezone(timezone.utc).isoformat()`. -/
def utcIso (t : Int) : String :=
  let pad (n : Nat) (x : Int) : String := let s := toString x; "".pushn '0' (n - s.length) ++ s
  let s := t % dayMicros
  let micros := s % 1000000
  Date.isoformat (t / dayMicros) ++ "T" ++ pad 2 (s / hourMicros) ++ ":" ++
    pad 2 (s / minuteMicros % 60) ++ ":" ++ pad 2 (s / 1000000 % 60) ++
    (if micros = 0 then "" else "." ++ pad 6 micros) ++ "+00:00"

def roomIntervalKey (facilityId : UUID) (startAt endAt : Int) : String :=
  toString facilityId ++ "|" ++ utcIso startAt ++ "|" ++ utcIso endAt

/-- `sorted` on strings. -/
def sortStrings (xs : List String) : List String := xs.insertionSort (· ≤ ·)

def joinLines (xs : List String) : String := "\n".intercalate xs

section Tokens

variable (crypto : ReviewCrypto)

def contextDigest (bookerId : UUID) (ministryId : Option UUID) (proposal : List String) : String :=
  crypto.digest (joinLines
    (toString bookerId :: (ministryId.map toString).getD "" :: sortStrings proposal))

def impactFingerprint (impact : OverrideImpact) : String :=
  crypto.digest (joinLines (toString impact.bookingId :: utcIso impact.startAt ::
    utcIso impact.endAt :: sortStrings (impact.releasedIntervals.map fun i =>
      roomIntervalKey i.facilityId i.startAt i.endAt)))

def impactKey (bookingId : UUID) : String := crypto.digest (toString bookingId)

def reviewPayload (bookerId : UUID) (ministryId : Option UUID) (proposal : List String)
    (impacts : List OverrideImpact) : ReviewPayload where
  v := 1
  c := contextDigest crypto bookerId ministryId proposal
  t := impacts.map fun i => (impactKey crypto i.bookingId, impactFingerprint crypto i)

def issueOverrideReviewToken (bookerId : UUID) (ministryId : Option UUID) (proposal : List String)
    (impacts : List OverrideImpact) : String :=
  let body := crypto.encode (reviewPayload crypto bookerId ministryId proposal impacts)
  body ++ "." ++ crypto.sign body

/-- `token.partition(".")`, without the separator. -/
def partitionDot (token : String) : String × String :=
  (String.ofList (token.toList.takeWhile (· ≠ '.')),
    String.ofList ((token.toList.dropWhile (· ≠ '.')).drop 1))

/-- `_reviewed_fingerprints`, of a text that raises nothing (`TokenGate.Comparable`). -/
def reviewedFingerprints (token contextDigest : String) : Option (List (String × String)) :=
  let (body, signature) := partitionDot token
  if body = "" || signature = "" then none
  else if crypto.sign body ≠ signature then none
  else
    match crypto.decode body with
    | none => none
    | some payload =>
      if payload.v ≠ 1 || payload.c ≠ contextDigest then none else some payload.t

def requireReviewedOverride (token : Option String) (bookerId : UUID) (ministryId : Option UUID)
    (proposal : List String) (impacts : List OverrideImpact) : Except ApiError Unit :=
  if impacts.isEmpty then .ok ()
  else
    match token with
    | none => .error (conflictError
        "Priority override impact must be reviewed before confirmation"
        (some .overrideReviewRequired))
    | some token =>
      let stale : Except ApiError Unit := .error (conflictError
        "Priority override impact changed since review; review it again" (some .overrideReviewStale))
      if token = "" then .error (conflictError
        "Priority override impact must be reviewed before confirmation"
        (some .overrideReviewRequired))
      else
        match reviewedFingerprints crypto token
            (contextDigest crypto bookerId ministryId proposal) with
        | none => stale
        | some reviewed =>
          if impacts.any fun i =>
              dictGet reviewed (impactKey crypto i.bookingId) ≠ some (impactFingerprint crypto i) then
            stale
          else .ok ()

end Tokens

/-! ### 1.1 An issued token is accepted -/

theorem partitionDot_append {body signature : String} (h : '.' ∉ body.toList) :
    partitionDot (body ++ "." ++ signature) = (body, signature) := by
  have hall : ∀ c ∈ body.toList, decide (c ≠ '.') = true := fun c hc => by
    simpa using fun he : c = '.' => h (he ▸ hc)
  have hl : (body ++ "." ++ signature).toList = body.toList ++ '.' :: signature.toList := by simp
  unfold partitionDot
  rw [hl, List.takeWhile_append_of_pos hall, List.dropWhile_append_of_pos hall]
  simp

/-- A lookup among impacts with distinct keys finds the impact's own fingerprint. -/
theorem dictGet_map {f : UUID → String} {α : Type} {key : α → UUID} {val : α → String}
    {xs : List α} (hinj : ∀ a ∈ xs, ∀ b ∈ xs, f (key a) = f (key b) → val a = val b) {a : α}
    (ha : a ∈ xs) : dictGet (xs.map fun x => (f (key x), val x)) (f (key a)) = some (val a) := by
  unfold dictGet
  have hex : (xs.map fun x => (f (key x), val x)).reverse.find? (fun p => p.1 = f (key a)) ≠ none := by
    rw [ne_eq, List.find?_eq_none]
    intro hall
    exact hall (f (key a), val a) (by simpa using ⟨a, ha, rfl, rfl⟩) (by simp)
  obtain ⟨p, hp⟩ := Option.ne_none_iff_exists'.mp hex
  have hmem := List.mem_of_find?_eq_some hp
  have hkey := List.find?_some hp
  obtain ⟨b, hb, rfl⟩ := List.mem_map.mp (List.mem_reverse.mp hmem)
  rw [hp, Option.map_some]
  exact congrArg some (hinj b hb a ha (of_decide_eq_true hkey))

section Issued

variable {crypto : ReviewCrypto} (bookerId : UUID) (ministryId : Option UUID)
  (proposal : List String) (impacts : List OverrideImpact)

theorem issueOverrideReviewToken_ne :
    issueOverrideReviewToken crypto bookerId ministryId proposal impacts ≠ "" := by
  intro h
  have := congrArg String.toList h
  simp [issueOverrideReviewToken] at this

/-- An issued token is read back under the context it was issued for, and under no other. -/
theorem reviewedFingerprints_issued (law : crypto.Lawful) : ∃ reviewed,
    (∀ context, reviewedFingerprints crypto
      (issueOverrideReviewToken crypto bookerId ministryId proposal impacts) context =
        if contextDigest crypto bookerId ministryId proposal = context then some reviewed
        else none) ∧
    ∀ key, dictGet reviewed key = dictGet
      (impacts.map fun i => (impactKey crypto i.bookingId, impactFingerprint crypto i)) key := by
  obtain ⟨q, hq, hv, hc, ht⟩ :=
    law.decode_encode (reviewPayload crypto bookerId ministryId proposal impacts)
  have hv : q.v = 1 := hv
  have hc : q.c = contextDigest crypto bookerId ministryId proposal := hc
  refine ⟨q.t, fun context => ?_, ht⟩
  unfold reviewedFingerprints issueOverrideReviewToken
  rw [partitionDot_append (law.encode_plain _)]
  by_cases h : contextDigest crypto bookerId ministryId proposal = context
  · simp [law.encode_ne, law.sign_ne, hq, hv, hc, h]
  · simp [law.encode_ne, law.sign_ne, hq, hv, hc, h]

/-- **When an issued token is accepted**: for no impact, or for the context it was issued for when
each impact still has the fingerprint signed for its Booking. -/
theorem requireReviewedOverride_issued_iff (law : crypto.Lawful) (bookerId' : UUID)
    (ministryId' : Option UUID) (proposal' : List String) (impacts' : List OverrideImpact) :
    requireReviewedOverride crypto
      (some (issueOverrideReviewToken crypto bookerId ministryId proposal impacts))
      bookerId' ministryId' proposal' impacts' = .ok () ↔
    impacts' = [] ∨
      contextDigest crypto bookerId ministryId proposal =
        contextDigest crypto bookerId' ministryId' proposal' ∧
      ∀ i ∈ impacts', dictGet
        (impacts.map fun i => (impactKey crypto i.bookingId, impactFingerprint crypto i))
        (impactKey crypto i.bookingId) = some (impactFingerprint crypto i) := by
  obtain ⟨reviewed, hread, hget⟩ :=
    reviewedFingerprints_issued bookerId ministryId proposal impacts law
  unfold requireReviewedOverride
  cases impacts' with
  | nil => simp
  | cons i rest =>
    simp only [List.isEmpty_cons, Bool.false_eq_true, if_false, issueOverrideReviewToken_ne, hread,
      reduceCtorEq, false_or]
    by_cases hc : contextDigest crypto bookerId ministryId proposal =
        contextDigest crypto bookerId' ministryId' proposal'
    · rw [if_pos hc]
      simp only [hget, hc, true_and]
      split
      · rename_i hany
        obtain ⟨x, hx, hne⟩ := List.any_eq_true.mp hany
        exact iff_of_false nofun fun hall => of_decide_eq_true hne (hall x hx)
      · rename_i hany
        refine iff_of_true rfl fun x hx => ?_
        by_contra hne
        exact hany (List.any_eq_true.mpr ⟨x, hx, decide_eq_true hne⟩)
    · rw [if_neg hc]
      exact iff_of_false nofun fun h => hc h.1

end Issued

/-! ## 2. Displacement -/

/-- `OverrideTarget`. -/
structure OverrideTarget where
  impact : OverrideImpact
  bookerId : UUID
  occurrenceDate : Int
  overlappingFacilityIds : List UUID

/-- Override each target once, in order. -/
def overrideEach (operatorId : UUID) : List UUID → List (UUID × OverrideTarget) → Portal Unit
  | _, [] => pure ()
  | overriddenIds, (_, target) :: rest =>
    if target.impact.bookingId ∈ overriddenIds then overrideEach operatorId overriddenIds rest
    else do
      BookingRepository.overrideBooking target.impact.bookingId (some operatorId)
        (some priorityOverrideReason)
      overrideEach operatorId (target.impact.bookingId :: overriddenIds) rest

/-- One audit row for each room of each pair. -/
def overrideLogRows (operatorId : UUID) (logId : Nat → UUID)
    (replacements : List (UUID × OverrideTarget)) : List BookingOverrideLog :=
  (replacements.flatMap fun r => r.2.overlappingFacilityIds.map fun facilityId =>
    (r.1, r.2.impact.bookingId, facilityId)).mapIdx fun idx row =>
      ⟨logId idx, row.1, row.2.1, operatorId, row.2.2, "override_applied", priorityOverrideReason⟩

/-- `replacements` pairs the new Booking with the target it displaces. -/
def applyWholeBookingOverrides (replacements : List (UUID × OverrideTarget)) (operatorId : UUID)
    (logId : Nat → UUID) : Portal Unit := do
  overrideEach operatorId [] replacements
  let logRows := overrideLogRows operatorId logId replacements
  if logRows.isEmpty then pure () else OverrideLogRepository.insertLogs logRows

end NewlifeCore
