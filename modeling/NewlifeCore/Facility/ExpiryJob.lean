import NewlifeCore.Facility.SeriesLifecycle
import NewlifeCore.Txn.Job

/-!
# `pending_payment_expiry_job.py`: the sweep with its mail

One run of the expiry job over its own connection: the sweep, the mail to the booker of each
Series it closes, the commit, and the release of the sweep lock.  The mail is sent inside the
sweep's loop, and everything that fails while it is made up or sent is swallowed.

The text of a mail is the template port's affair.
-/

namespace NewlifeCore

open Txn

/-! ## 1. The mail -/

/-- `RecurringPaymentHoldExpiryNotification`. -/
structure PaymentHoldExpiryNotification where
  seriesId : UUID
  bookerId : UUID
  quotedAmount : Decimal
  currency : String
  occurrences : List OccurrenceResult

/-- A sent mail, with the Series it is about. -/
structure ExpiryMail where
  seriesId : UUID
  toEmail : String
  subject : String
  bodyHtml : String
deriving DecidableEq

/-- `EXPIRY_SUBJECT`. -/
def expirySubject : String := "Pending-payment Booking expired / 待付款預訂已逾期"

/-- What the notifier was built with; `render` is the template port, given the rooms that were
read. -/
structure ExpiryMailService where
  enabled : Bool
  overrideRecipients : List String
  render : PaymentHoldExpiryNotification → List (UUID × Option FacilityRoom) → Option String

/-- `resolve_mail_delivery_targets`: the recipients and the prefix of the subject. -/
def resolveMailDeliveryTargets (intendedRecipient : String) (overrideRecipients : List String) :
    List String × String :=
  let normalizedIntended := strip intendedRecipient
  if normalizedIntended = "" then ([], "")
  else
    let overrides := (overrideRecipients.map strip).filter (· ≠ "")
    if overrides.isEmpty then ([normalizedIntended], "")
    else (overrides, "[DEV -> " ++ normalizedIntended ++ "] ")

/-- A job of the portal that may send mail. -/
abbrev PortalJob (α : Type) := Job Db ExpiryMail ApiError α

namespace ExpiryMailService

variable (mail : ExpiryMailService)

/-- `_active_user_email`. -/
def activeUserEmail (userId : UUID) : Portal (Option String) := do
  let user ← UserRepository.getSensitiveById userId
  pure ((user.filter fun u => u.isActive && u.email ≠ "").map AuthUser.email)

theorem activeUserEmail_readOnly (userId : UUID) : (activeUserEmail userId).ReadOnly :=
  .bind (fun _ => .ret _) (.select _)

/-- The rooms of the occurrences, each once. -/
def facilityIds (notification : PaymentHoldExpiryNotification) : List UUID :=
  (notification.occurrences.flatMap OccurrenceResult.facilityIds).eraseDups

/-- `_render_body`. -/
def renderBody (notification : PaymentHoldExpiryNotification) : PortalJob String := do
  let rooms ← Job.mapEach (facilityIds notification) fun id => Job.run (RoomRepository.getById id)
  Job.port (mail.render notification ((facilityIds notification).zip rooms))

/-- One mail to each recipient. -/
def deliver (seriesId : UUID) (subject bodyHtml : String) (recipients : List String) :
    PortalJob Unit :=
  Job.each recipients fun toEmail => Job.send ⟨seriesId, toEmail, subject, bodyHtml⟩

/-- The `try` block of `notify_payment_hold_expired`. -/
def notifyBooker (notification : PaymentHoldExpiryNotification) : PortalJob Unit := do
  match ← Job.run (activeUserEmail notification.bookerId) with
  | none => pure ()
  | some bookerEmail =>
    let bodyHtml ← mail.renderBody notification
    let targets := resolveMailDeliveryTargets bookerEmail mail.overrideRecipients
    deliver notification.seriesId (targets.2 ++ expirySubject) bodyHtml targets.1

def notifyPaymentHoldExpired (notification : PaymentHoldExpiryNotification) : PortalJob Unit :=
  if !mail.enabled then pure ()
  else (mail.notifyBooker notification).tryCatch (pure ())

end ExpiryMailService

/-! ## 2. The sweep -/

namespace PendingPaymentExpiryJob

variable (mail : ExpiryMailService)

/-- The turn of one listed Series: it is closed, and then its booker is told. -/
def expireSeries (series : BookingSeries) : PortalJob Unit := do
  let occurrences ← Job.run (BookingRepository.listSeriesOccurrences series.id)
  let pending := occurrences.filter fun o => o.status = .pendingPayment
  Job.run (RecurringBookingService.markExpired series.id)
  Job.run (RecurringBookingService.cancelOccurrences (pending.map OccurrenceResult.id) none
    (some pendingPaymentHoldExpiredReason))
  (mail.notifyPaymentHoldExpired
    ⟨series.id, series.userId, series.quotedAmount, series.currency, pending⟩).tryCatch (pure ())

def expirePendingHolds : PortalJob Unit := do
  let acquired ← Job.run RecurringBookingRepository.tryAcquireSweepLock
  if !acquired then pure ()
  else do
    let nowUtc ← Job.run (Prog.now : Portal Int)
    let expired ← Job.run (RecurringBookingRepository.listExpiredPendingSeries nowUtc)
    Job.each expired (expireSeries mail)

/-- `run_pending_payment_expiry_once`; closing the connection rolls back what is still open. -/
def runOnce : PortalJob Unit := do
  Job.tryCatch (do expirePendingHolds mail; Job.commit) Job.rollback
  (Job.run RecurringBookingRepository.releaseSweepLock).tryCatch (pure ())
  Job.rollback

end PendingPaymentExpiryJob

end NewlifeCore
