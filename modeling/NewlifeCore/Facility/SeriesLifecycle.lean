import NewlifeCore.Facility.RecurringBookingService

/-!
# `RecurringBookingService`: the life of a Series

Payment confirmation, cancellation in its three scopes, the impact of a Blackout and the expiry
of unpaid holds.  Each reads the Series and its occurrences first and writes by id afterwards.
-/

namespace NewlifeCore

open Txn Prog

namespace RecurringBookingService

/-! ## 1. Reading a Series -/

def seriesNotFound : ApiError :=
  notFound "Recurring Booking Series not found" (some .bookingSeriesNotFound)

def requireSeries (seriesId : UUID) : Portal BookingSeries := do
  match ← RecurringBookingRepository.getById seriesId with
  | none => raise seriesNotFound
  | some series => pure series

/-- `_to_series_result` with the occurrences. -/
def toSeriesResult (series : BookingSeries) (occurrences : List OccurrenceResult) :
    SeriesResult where
  series
  isFreeMinistry := series.isMissionAligned
  confirmedById := if series.status = .confirmed then series.updatedById else none
  occurrences

/-- `_series_with_occurrences`. -/
def seriesWithOccurrences (seriesId : UUID) : Portal SeriesResult := do
  let series ← requireSeries seriesId
  let occurrences ← BookingRepository.listSeriesOccurrences seriesId
  pure (toSeriesResult series occurrences)

def raiseIfNotParticipant (viewerId : UUID) (series : BookingSeries) : Portal Unit := do
  let owned ← MinistryRepository.listOwnedActive viewerId
  raiseIf (!isCurrentBookingParticipant viewerId series.userId series.ministryId owned)
    seriesNotFound

def getSeries (r : Request) (seriesId : UUID) : Portal SeriesResult := do
  let _ ← authenticatedUser r
  seriesWithOccurrences seriesId

def getMySeries (r : Request) (seriesId : UUID) : Portal SeriesResult := do
  let viewerId ← authenticatedUser r
  let result ← seriesWithOccurrences seriesId
  raiseIfNotParticipant viewerId result.series
  pure result

/-! ## 2. `confirm_payment` -/

def markConfirmed (seriesId operatorId : UUID) (operatorName : String) : Portal Unit :=
  RecurringBookingRepository.updateSeries seriesId
    (fun s => { s with status := .confirmed, paymentHoldExpiresAt := none,
                       updatedById := some operatorId, updatedBy := some operatorName })
    fun _ => rfl

/-- Only a Pending-payment Series with a running hold is confirmed. -/
def notPendingPayment (series : BookingSeries) (now : Int) : Bool :=
  series.status ≠ .pendingPayment || !isPendingPaymentHoldActive series.paymentHoldExpiresAt now

def confirmPayment (r : Request) (seriesId : UUID) : Portal SeriesResult := do
  let operatorId ← authenticatedUser r
  let series ← requireSeries seriesId
  let occurrences ← BookingRepository.listSeriesOccurrences seriesId
  if series.status = .confirmed then pure (toSeriesResult series occurrences)
  else do
    let nowUtc ← now
    raiseIf (notPendingPayment series nowUtc)
      (badRequest "Recurring Booking Series is not Pending-payment"
        (some .bookingSeriesNotPendingPayment))
    markConfirmed seriesId operatorId r.operatorName
    BookingRepository.confirmPendingSeriesBookings seriesId (some operatorId)
    let confirmed ← BookingRepository.listSeriesOccurrences seriesId
    pure {
      series := { series with status := .confirmed, paymentHoldExpiresAt := none }
      isFreeMinistry := series.isMissionAligned
      confirmedById := some operatorId
      occurrences := confirmed }

/-! ## 3. Cancellation -/

/-- `_LIVE_OCCURRENCE_STATUSES`. -/
def isLive (status : BookingStatus) : Bool := status = .pendingPayment || status = .confirmed

/-- `_is_cancellable`. -/
def isCancellable (o : OccurrenceResult) (now : Int) : Bool := isLive o.status && o.startAt > now

def requireOccurrence (occurrences : List OccurrenceResult) (occurrenceId : Option UUID) :
    Except ApiError OccurrenceResult :=
  match occurrenceId with
  | none => .error (badRequest "occurrence_id is required for this cancellation scope"
      (some .recurringOccurrenceRequired))
  | some id =>
    match occurrences.find? fun o => o.id = id with
    | none => .error (notFound "Booking Occurrence not found" (some .recurringOccurrenceNotFound))
    | some o => .ok o

/-- `_cancellation_targets`. -/
def cancellationTargets (occurrences : List OccurrenceResult)
    (command : CancelRecurringBookingSeriesCommand) (now : Int) :
    Except ApiError (List OccurrenceResult) :=
  if command.scope = "occurrence" then
    match requireOccurrence occurrences command.occurrenceId with
    | .error e => .error e
    | .ok occurrence =>
      if occurrence.startAt ≤ now then
        .error (badRequest "Historical Booking Occurrences cannot be cancelled"
          (some .recurringHistoricalOccurrence))
      else .ok (if isCancellable occurrence now then [occurrence] else [])
  else if command.scope = "this_and_future" then
    match requireOccurrence occurrences command.occurrenceId with
    | .error e => .error e
    | .ok pivot =>
      .ok (occurrences.filter fun o => o.startAt ≥ pivot.startAt && isCancellable o now)
  else .ok (occurrences.filter fun o => isCancellable o now)

/-- Closes the Series row and stops its hold. -/
def markCancelled (seriesId operatorId : UUID) (operatorName : String) : Portal Unit :=
  RecurringBookingRepository.updateSeries seriesId
    (fun s => { s with status := .cancelled, paymentHoldExpiresAt := none,
                       updatedById := some operatorId, updatedBy := some operatorName })
    fun _ => rfl

/-- Cancels each occurrence in order, its slots too. -/
def cancelOccurrences (ids : List UUID) (byId : Option UUID) (reason : Option String) :
    Portal Unit :=
  each ids fun id => BookingRepository.cancelBooking id byId reason true

/-- The Series is closed when asked for, or when nothing live is left; `status` is what was read
before. -/
def closeSeriesIf (seriesId operatorId : UUID) (operatorName : String) (close : Bool)
    (status : BookingStatus) : Portal Unit :=
  if close && status ≠ .cancelled then markCancelled seriesId operatorId operatorName
  else pure ()

/-- `_apply_cancellation`. -/
def applyCancellation (r : Request) (result : SeriesResult)
    (command : CancelRecurringBookingSeriesCommand) : Portal SeriesResult := do
  raiseIf (!cancellationScopes.contains command.scope)
    (badRequest "Cancellation scope must be occurrence, this_and_future, or entire_series"
      (some .recurringInvalidCancellationScope))
  let nowUtc ← now
  let targets ← ofExcept (cancellationTargets result.occurrences command nowUtc)
  let operatorId ← authenticatedUser r
  cancelOccurrences (targets.map OccurrenceResult.id) (some operatorId) command.cancelReason
  let refreshed ← BookingRepository.listSeriesOccurrences result.series.id
  let close := command.scope = "entire_series" || !(refreshed.any fun o => isCancellable o nowUtc)
  closeSeriesIf result.series.id operatorId r.operatorName close result.series.status
  seriesWithOccurrences result.series.id

def cancelSeries (r : Request) (seriesId : UUID) (command : CancelRecurringBookingSeriesCommand) :
    Portal SeriesResult := do
  let _ ← authenticatedUser r
  let result ← seriesWithOccurrences seriesId
  applyCancellation r result command

def cancelMySeries (r : Request) (seriesId : UUID)
    (command : CancelRecurringBookingSeriesCommand) : Portal SeriesResult := do
  let result ← getMySeries r seriesId
  let viewerId ← authenticatedUser r
  raiseIf (result.series.userId ≠ viewerId)
    (forbidden "Cannot cancel another user's Recurring Booking Series")
  let reason ← ofExcept (normalizeMemberCancellationReason (command.cancelReason.getD ""))
  applyCancellation r result { command with cancelReason := some reason }

/-! ## 4. Blackout impact -/

/-- `BlackoutImpactResult`. -/
structure BlackoutImpact where
  confirmationRequired : Bool
  items : List BlackoutImpactOccurrence

/-- Whether a Blackout falls on one of an occurrence's rooms. -/
def impacted (blackout : RoomBlackout) (localTz : Zone) (o : BlackoutImpactOccurrence) : Bool :=
  o.facilityIds.any fun facilityId =>
    RoomBlackoutRepository.intervalOverlapsBlackout blackout facilityId o.startAt o.endAt localTz

def previewBlackoutImpact (app : App) (blackout : RoomBlackout) : Portal BlackoutImpact :=
  if !blackout.isActive then pure ⟨false, []⟩
  else do
    let nowUtc ← now
    let localTz ← SettingService.getFacilityTimezone app
    let candidates ← BookingRepository.listLiveFutureSeriesOccurrences nowUtc
    let items := candidates.filter (impacted blackout localTz)
    pure ⟨!items.isEmpty, items⟩

/-- Closes a Series that an impact left without live occurrences. -/
def closeEmptiedSeries (operatorId : UUID) (operatorName : String) (nowUtc : Int)
    (seriesId : UUID) : Portal Unit := do
  let result ← seriesWithOccurrences seriesId
  closeSeriesIf result.series.id operatorId operatorName
    (!(result.occurrences.any fun o => isCancellable o nowUtc)) result.series.status

def applyBlackoutImpact (r : Request) (items : List BlackoutImpactOccurrence) (reason : String) :
    Portal BlackoutImpact := do
  let operatorId ← authenticatedUser r
  cancelOccurrences (items.map BlackoutImpactOccurrence.id) (some operatorId) (some reason)
  let nowUtc ← now
  each (items.map BlackoutImpactOccurrence.seriesId).eraseDups
    (closeEmptiedSeries operatorId r.operatorName nowUtc)
  pure ⟨false, items⟩

/-! ## 5. The expiry sweep -/

/-- `PendingPaymentExpirySweepResult`. -/
structure ExpirySweep where
  skipped : Bool
  expiredSeriesIds : List UUID := []

/-- Only the status is written: the hold stays. -/
def markExpired (seriesId : UUID) : Portal Unit :=
  RecurringBookingRepository.updateSeries seriesId (fun s => { s with status := .cancelled })
    fun _ => rfl

/-- The turn of one listed Series. -/
def expireSeries (series : BookingSeries) : Portal Unit := do
  let occurrences ← BookingRepository.listSeriesOccurrences series.id
  let pending := occurrences.filter fun o => o.status = .pendingPayment
  markExpired series.id
  cancelOccurrences (pending.map OccurrenceResult.id) none (some pendingPaymentHoldExpiredReason)

/-- The sweep lock is released by the runner once the sweep committed. -/
def expirePendingHolds : Portal ExpirySweep := do
  let acquired ← RecurringBookingRepository.tryAcquireSweepLock
  if !acquired then pure { skipped := true }
  else do
    let nowUtc ← now
    let expired ← RecurringBookingRepository.listExpiredPendingSeries nowUtc
    each expired expireSeries
    pure { skipped := false, expiredSeriesIds := expired.map BookingSeries.id }

/-! ## 6. The reads -/

theorem listSeriesOccurrences_readOnly (seriesId : UUID) :
    ReadOnly (BookingRepository.listSeriesOccurrences seriesId) :=
  ReadOnly.bind (fun _ => ReadOnly.bind (fun _ => ReadOnly.ret _) (ReadOnly.select _))
    (ReadOnly.select _)

theorem requireSeries_readOnly (seriesId : UUID) : ReadOnly (requireSeries seriesId) := by
  refine ReadOnly.bind (fun series => ?_) (ReadOnly.select _)
  cases series <;> trivial

theorem seriesWithOccurrences_readOnly (seriesId : UUID) :
    ReadOnly (seriesWithOccurrences seriesId) :=
  ReadOnly.bind (fun _ => ReadOnly.bind (fun _ => ReadOnly.ret _)
    (listSeriesOccurrences_readOnly _)) (requireSeries_readOnly _)

theorem raiseIfNotParticipant_readOnly (viewerId : UUID) (series : BookingSeries) :
    ReadOnly (raiseIfNotParticipant viewerId series) :=
  ReadOnly.bind (fun _ => ReadOnly.raiseIf _ _) (ReadOnly.select _)

theorem getMySeries_readOnly (r : Request) (seriesId : UUID) :
    ReadOnly (getMySeries r seriesId) :=
  ReadOnly.bind (fun _ => ReadOnly.bind (fun _ => ReadOnly.bind (fun _ => ReadOnly.ret _)
    (raiseIfNotParticipant_readOnly _ _)) (seriesWithOccurrences_readOnly _))
    (BookingService.authenticatedUser_readOnly _)

theorem previewBlackoutImpact_readOnly (app : App) (blackout : RoomBlackout) :
    ReadOnly (previewBlackoutImpact app blackout) := by
  unfold previewBlackoutImpact
  split
  · trivial
  · exact ReadOnly.bind (fun _ => ReadOnly.bind (fun _ => ReadOnly.bind (fun _ => ReadOnly.ret _)
      (ReadOnly.select _)) (SettingService.getFacilityTimezone_readOnly _)) ReadOnly.now

end RecurringBookingService

end NewlifeCore
