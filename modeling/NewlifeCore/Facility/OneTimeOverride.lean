import NewlifeCore.Facility.PriorityOverride
import NewlifeCore.Facility.BookingLines

/-!
# `one_time_override.py`

Who occupies the lines of a one-time proposal, for a Draft's review and for its confirmation:
each occupant either blocks the proposal or is a whole Booking that a Priority Ministry may
displace.  The Ministry's names go into mail only and are left out of the context.
-/

namespace NewlifeCore

open Txn Prog

/-! ## 1. Results -/

/-- `MinistryProposalContext`. -/
structure MinistryProposalContext where
  ministryId : UUID
  isPriority : Bool

/-- `BookingConflictResult`. -/
structure BookingConflict where
  facilityId : UUID
  startAt : Int
  endAt : Int
  kind : RecurringConflictKind
  ministryName : Option String := none
  contactDisplayName : Option String := none
  contactEmail : Option String := none
deriving DecidableEq

/-- `OneTimeOccupancyEvaluation`. -/
structure OneTimeOccupancyEvaluation where
  conflicts : List BookingConflict := []
  targets : List OverrideTarget := []

def OneTimeOccupancyEvaluation.impacts (e : OneTimeOccupancyEvaluation) : List OverrideImpact :=
  e.targets.map OverrideTarget.impact

/-! ## 2. The proposal and its Ministry -/

def loadMinistryProposalContext (ministryId userId : UUID) :
    Portal (Option MinistryProposalContext) := do
  match ← MinistryRepository.getById ministryId with
  | none => pure none
  | some ministry =>
    if ministry.status ≠ .active then pure none
    else do
      let member ← MinistryRepository.isUserBookingMember ministryId userId
      if member then pure (some ⟨ministryId, ministry.hasPriorityBooking⟩) else pure none

/-- `load_ministry_proposal_context` where the proposal names a Ministry. -/
def proposalContext (ministryId : Option UUID) (userId : UUID) :
    Portal (Option MinistryProposalContext) :=
  match ministryId with
  | none => pure none
  | some ministryId => loadMinistryProposalContext ministryId userId

def oneTimeProposal (lines : List ResolvedBookingLine) : List String :=
  lines.map fun line => roomIntervalKey line.facilityId line.startAt line.endAt

/-- The display name and email of a Ministry's primary steward. -/
def primaryStewardContact (ministryId : UUID) : Portal (Option String × Option String) := do
  let members ← MinistryRepository.listMembers ministryId
  match members.find? fun m => m.memberRole = .primary with
  | none => pure (none, none)
  | some primary => pure (pyOr primary.displayName primary.email, primary.email)

/-! ## 3. The scan -/

/-- What the lines scanned so far gave: the conflicts, each displaced Booking with the rooms it
is displaced from, in the order found, and the steward contacts looked up. -/
structure OccupancyScan where
  conflicts : List BookingConflict := []
  targetRows : List (OccupyingBooking × List UUID) := []
  stewardContacts : List (UUID × Option String × Option String) := []

/-- The scan of one line under way. -/
structure LineScan extends OccupancyScan where
  seenOnLine : List UUID := []
  blockedOnLine : Bool := false

/-- `setdefault` in both dicts of targets. -/
def addTarget (row : OccupyingBooking) (facilityId : UUID) :
    List (OccupyingBooking × List UUID) → List (OccupyingBooking × List UUID)
  | [] => [(row, [facilityId])]
  | (r, rooms) :: rest =>
    if r.bookingId = row.bookingId then
      (r, if facilityId ∈ rooms then rooms else rooms ++ [facilityId]) :: rest
    else (r, rooms) :: addTarget row facilityId rest

/-- A steward's contact, read once a Ministry. -/
def stewardContact (ministryId : UUID) (known : List (UUID × Option String × Option String)) :
    Portal (List (UUID × Option String × Option String) × Option String × Option String) :=
  match known.find? fun c => c.1 = ministryId with
  | some c => pure (known, c.2)
  | none => do
    let contact ← primaryStewardContact ministryId
    pure (known ++ [(ministryId, contact)], contact)

def scanRow (context : Option MinistryProposalContext) (canOverride : Bool) (nowUtc : Int)
    (line : ResolvedBookingLine) (s : LineScan) (row : OccupyingBooking) : Portal LineScan :=
  if row.ministryId.isNone && canOverride && row.startAt > nowUtc then
    pure { s with targetRows := addTarget row line.facilityId s.targetRows }
  else
    match context with
    | none => pure { s with blockedOnLine := true }
    | some context =>
      if row.bookingId ∈ s.seenOnLine then pure s
      else
        match row.ministryId with
        | some ministryId => do
          let (stewardContacts, contact) ← stewardContact ministryId s.stewardContacts
          pure { s with
            seenOnLine := row.bookingId :: s.seenOnLine
            stewardContacts
            conflicts := s.conflicts ++ [{
              facilityId := line.facilityId, startAt := line.startAt, endAt := line.endAt
              kind := .ministry, ministryName := row.ministryName
              contactDisplayName := contact.1, contactEmail := contact.2 }] }
        | none =>
          let showBooker := !context.isPriority
          pure { s with
            seenOnLine := row.bookingId :: s.seenOnLine
            conflicts := s.conflicts ++ [{
              facilityId := line.facilityId, startAt := line.startAt, endAt := line.endAt
              kind := .occupancy
              contactDisplayName := if showBooker then row.bookerDisplayName else none
              contactEmail := if showBooker then row.bookerEmail else none }] }

def scanLine (context : Option MinistryProposalContext) (canOverride : Bool) (nowUtc : Int)
    (s : OccupancyScan) (line : ResolvedBookingLine) : Portal OccupancyScan := do
  let rows ← BookingRepository.listOccupyingSlots line.facilityId line.startAt line.endAt
  let s ← foldEach rows { toOccupancyScan := s } (scanRow context canOverride nowUtc line)
  if s.blockedOnLine then
    pure { s.toOccupancyScan with
      conflicts := s.conflicts ++ [{
        facilityId := line.facilityId, startAt := line.startAt, endAt := line.endAt
        kind := .occupancy }] }
  else pure s.toOccupancyScan

/-- The intervals each displaced Booking gives up, read when there is one. -/
def releasedByTarget (targetRows : List (OccupyingBooking × List UUID)) :
    Portal (UUID → List ReleasedInterval) :=
  if targetRows.isEmpty then pure fun _ => []
  else BookingRepository.listLiveSlotIntervals (targetRows.map fun t => t.1.bookingId)

/-- The override target a displaced row becomes. -/
def toTarget (localTz : Zone) (released : UUID → List ReleasedInterval)
    (t : OccupyingBooking × List UUID) : OverrideTarget where
  impact := ⟨t.1.bookingId, t.1.seriesId.isSome, t.1.startAt, t.1.endAt, released t.1.bookingId⟩
  bookerId := t.1.userId
  occurrenceDate := localTz.localDate t.1.startAt
  overlappingFacilityIds := t.2

def evaluateOneTimeOccupancy (lines : List ResolvedBookingLine)
    (context : Option MinistryProposalContext) (nowUtc : Int) (localTz : Zone)
    (allowOverride : Bool) : Portal OneTimeOccupancyEvaluation := do
  let canOverride := allowOverride && context.any MinistryProposalContext.isPriority
  let s ← foldEach lines {} (scanLine context canOverride nowUtc)
  let released ← releasedByTarget s.targetRows
  pure { conflicts := s.conflicts, targets := s.targetRows.map (toTarget localTz released) }

/-! ### 3.1 The scan only reads -/

@[simp] theorem loadMinistryProposalContext_readOnly (ministryId userId : UUID) :
    ReadOnly (loadMinistryProposalContext ministryId userId) := by
  refine ReadOnly.bind (fun ministry => ?_) (ReadOnly.select _)
  cases ministry with
  | none => trivial
  | some ministry =>
    dsimp only
    split
    · trivial
    · refine ReadOnly.bind (fun member => ?_) (ReadOnly.select _)
      split <;> trivial

@[simp] theorem proposalContext_readOnly (ministryId : Option UUID) (userId : UUID) :
    ReadOnly (proposalContext ministryId userId) := by
  cases ministryId with
  | none => trivial
  | some m => exact loadMinistryProposalContext_readOnly m userId

@[simp] theorem primaryStewardContact_readOnly (ministryId : UUID) :
    ReadOnly (primaryStewardContact ministryId) := by
  refine ReadOnly.bind (fun members => ?_) (ReadOnly.select _)
  split <;> trivial

theorem stewardContact_readOnly (ministryId : UUID)
    (known : List (UUID × Option String × Option String)) :
    ReadOnly (stewardContact ministryId known) := by
  unfold stewardContact
  split
  · trivial
  · exact ReadOnly.bind (fun _ => ReadOnly.ret _) (primaryStewardContact_readOnly _)

theorem scanRow_readOnly (context : Option MinistryProposalContext) (canOverride : Bool)
    (nowUtc : Int) (line : ResolvedBookingLine) (s : LineScan) (row : OccupyingBooking) :
    ReadOnly (scanRow context canOverride nowUtc line s row) := by
  unfold scanRow
  split
  · trivial
  · cases context with
    | none => trivial
    | some context =>
      dsimp only
      split
      · trivial
      · cases row.ministryId with
        | none => trivial
        | some m => exact ReadOnly.bind (fun _ => ReadOnly.ret _) (stewardContact_readOnly _ _)

theorem scanLine_readOnly (context : Option MinistryProposalContext) (canOverride : Bool)
    (nowUtc : Int) (s : OccupancyScan) (line : ResolvedBookingLine) :
    ReadOnly (scanLine context canOverride nowUtc s line) := by
  refine ReadOnly.bind (fun rows => ReadOnly.bind (fun s => ?_)
    (ReadOnly.foldEach (scanRow_readOnly _ _ _ _) _ _)) (ReadOnly.select _)
  split <;> trivial

@[simp] theorem evaluateOneTimeOccupancy_readOnly (lines : List ResolvedBookingLine)
    (context : Option MinistryProposalContext) (nowUtc : Int) (localTz : Zone)
    (allowOverride : Bool) :
    ReadOnly (evaluateOneTimeOccupancy lines context nowUtc localTz allowOverride) := by
  refine ReadOnly.bind (fun s => ReadOnly.bind (fun _ => ReadOnly.ret _) ?_)
    (ReadOnly.foldEach (scanLine_readOnly _ _ _) _ _)
  unfold releasedByTarget
  split
  · trivial
  · exact ReadOnly.select _

end NewlifeCore
