import NewlifeCore.Facility.MailDates
import NewlifeCore.Auth.Accounts
import NewlifeCore.Lists

/-!
# Priority override mail

`RecurringOverrideMailService`: each displaced Booker is told of the own items, and the staff of all
of them.  The addresses are the Bookers' by `lower()` and the staff's by `strip().lower()`, and the
loops share one `try`, so which mails are attempted depends on who shares an address, on how it was
typed, and on the first delivery that fails.
-/

namespace NewlifeCore

open Auth (strip_strip asciiLower strip_asciiLower)

/-! ## 1. Notifications and mails -/

/-- `RecurringOverrideNotificationItem`. -/
structure OverrideNotificationItem where
  bookingId : UUID
  bookerId : UUID
  occurrenceDate : Int
  facilityIds : List UUID := []
  churchActivityBookingId : UUID
deriving DecidableEq

/-- `RecurringOverrideNotification`. -/
structure OverrideNotification where
  seriesId : Option UUID := none
  ministryId : UUID
  churchActivityName : String
  churchActivityNameZh : String := ""
  actorId : UUID
  items : List OverrideNotificationItem := []

/-- `affected_booker_ids`. -/
def OverrideNotification.affectedBookerIds (notification : OverrideNotification) : List UUID :=
  (notification.items.map OverrideNotificationItem.bookerId).eraseDups

/-- `OVERRIDE_SUBJECT`. -/
def overrideSubject : String := "Church Activity Booking override / 教會活動預訂覆寫"

def enLocaleId : UUID := 0x019dd0c869fa765787bb3b7255f5c5ae

def zhTwLocaleId : UUID := 0x019dd0c875407601bfd17939ce75c16a

/-- A user, as `get_sensitive_by_id` reads it. -/
structure UserContact where
  email : Option String
  isActive : Bool := true

/-- A room with its names in each locale. -/
structure RoomNames where
  code : String
  name : Option String := none
  translations : List (UUID × String) := []

/-- The arguments of the template. -/
structure OverrideTemplate where
  churchActivityName : String
  churchActivityNameZh : String
  occurrenceLinesEn : List String
  occurrenceLinesZh : List String
  myBookingsUrl : String

/-- A mail that was attempted, with the items its body was rendered for. -/
structure OverrideMail where
  toEmail : String
  subject : String
  items : List OverrideNotificationItem
  bodyHtml : String

/-- **`str.lower()`**: it neither brings white space nor takes any away. -/
structure LowerCase where
  lower : String → String
  lower_eq_empty : ∀ {s}, lower s = "" ↔ s = ""
  strip_lower : ∀ s, strip (lower s) = lower (strip s)

namespace LowerCase

variable (case : LowerCase)

/-- An address, to be compared without case and surrounding spaces. -/
def normalize (email : String) : String := case.lower (strip email)

theorem strip_lower' (email : String) : strip (case.lower email) = case.normalize email :=
  case.strip_lower email

@[simp] theorem normalize_strip (email : String) :
    case.normalize (strip email) = case.normalize email := by
  unfold normalize
  rw [strip_strip]

theorem normalize_eq_empty {email : String} : case.normalize email = "" ↔ strip email = "" :=
  case.lower_eq_empty

end LowerCase

/-- What the service is built with, what it reads, and the deliveries that raise. -/
structure OverrideMailService where
  case : LowerCase
  users : UUID → Option UserContact
  /-- The rows of `list_active_emails_for_resource_code`. -/
  resourceEmails : List (Option String)
  /-- The user that `get_current_incumbent_user_id_by_code` finds. -/
  deaconUserId : Option UUID
  rooms : UUID → Option RoomNames
  render : OverrideTemplate → String
  facilityBookingBaseUrl : String
  enabled : Bool
  overrideRecipients : List String
  fails : String → Bool

/-! ## 2. The service -/

/-- `room_name_for_locale`. -/
def roomNameForLocale (room : Option RoomNames) (localeId : UUID) (fallback : String) : String :=
  match room with
  | none => fallback
  | some room =>
    match room.translations.find? fun t => t.1 = localeId && t.2 ≠ "" with
    | some t => t.2
    | none =>
      if room.name.getD "" ≠ "" then room.name.getD ""
      else if room.code ≠ "" then room.code else fallback

/-- `dedupe_emails`: of the addresses that are not blank, the first of each. -/
def dedupeEmails (case : LowerCase) (emails : List (Option String)) : List String :=
  keepFirst case.lower [] ((emails.map fun email => strip (email.getD "")).filter (· ≠ ""))

namespace OverrideMailService

variable (mail : OverrideMailService) (notification : OverrideNotification)

/-- `_active_user_email`. -/
def activeUserEmail (userId : UUID) : Option String :=
  (mail.users userId).bind fun user => if user.isActive then user.email.filter (· ≠ "") else none

/-- What `_list_staff_emails` gathers. -/
def staffList : List (Option String) :=
  mail.resourceEmails.filter (fun email => strip (email.getD "") ≠ "") ++
    mail.deaconUserId.toList.map mail.activeUserEmail

def listStaffEmails : List String := dedupeEmails mail.case mail.staffList

/-- The Bookers of the items that are active and have an address. -/
def bookerContacts : List (UUID × String) :=
  notification.affectedBookerIds.filterMap fun bookerId =>
    (mail.activeUserEmail bookerId).map (bookerId, ·)

/-- `booker_emails`: a Booker whose address another one has, up to case, is left out. -/
def bookerEmails : List (UUID × String) :=
  keepFirst (fun booker => mail.case.lower booker.2) [] (mail.bookerContacts notification)

/-- `dates_to_facilities`, by date. -/
def itemLines (items : List OverrideNotificationItem) : List DateLine :=
  dateLines (items.flatMap fun item => item.facilityIds.map (item.occurrenceDate, ·))

def roomName (localeId facilityId : UUID) : String :=
  roomNameForLocale (mail.rooms facilityId) localeId (uuidText facilityId)

def myBookingsUrl (items : List OverrideNotificationItem) : String :=
  let url := String.ofList (mail.facilityBookingBaseUrl.toList.rdropWhile (· = '/')) ++ "/my-bookings"
  match items with
  | [] => url
  | item :: _ => url ++ "/" ++ uuidText item.bookingId

/-- `_render_body`. -/
def renderBody (items : List OverrideNotificationItem) : String :=
  mail.render {
    churchActivityName := notification.churchActivityName
    churchActivityNameZh := if notification.churchActivityNameZh = "" then
      notification.churchActivityName else notification.churchActivityNameZh
    occurrenceLinesEn := (itemLines items).map
      (ExpiryMailService.lineText ExpiryMailService.formatOverrideDateEn (mail.roomName enLocaleId))
    occurrenceLinesZh := (itemLines items).map
      (ExpiryMailService.lineText ExpiryMailService.formatOverrideDateZh (mail.roomName zhTwLocaleId))
    myBookingsUrl := mail.myBookingsUrl items }

/-- What a notification has attempted so far, and whether an exception is on its way out. -/
structure Outgoing where
  attempts : List OverrideMail := []
  raised : Bool := false

/-- `send_html_mail`. -/
def send (out : Outgoing) (m : OverrideMail) : Outgoing :=
  if out.raised then out else ⟨out.attempts ++ [m], mail.fails m.toEmail⟩

/-- The mails that one `_deliver` of a body for some items sends. -/
def mailsTo (items : List OverrideNotificationItem) (intendedRecipient : String) :
    List OverrideMail :=
  let targets := resolveMailDeliveryTargets intendedRecipient mail.overrideRecipients
  targets.1.map fun toEmail =>
    ⟨toEmail, targets.2 ++ overrideSubject, items, mail.renderBody notification items⟩

/-- `_deliver`. -/
def deliver (items : List OverrideNotificationItem) (out : Outgoing) (intendedRecipient : String) :
    Outgoing :=
  (mail.mailsTo notification items intendedRecipient).foldl mail.send out

def itemsOf (bookerId : UUID) : List OverrideNotificationItem :=
  notification.items.filter fun item => item.bookerId = bookerId

/-- The loop over the Bookers. -/
def tellBookers (out : Outgoing) : Outgoing :=
  (mail.bookerEmails notification).foldl (fun out booker =>
    mail.deliver notification (itemsOf notification booker.1) out booker.2) out

/-- The staff that no Booker's address was used for. -/
def remainingStaff : List String :=
  let alreadySent := (mail.bookerEmails notification).map fun booker => mail.case.lower booker.2
  mail.listStaffEmails.filter fun email => mail.case.lower email ∉ alreadySent

def tellStaff (out : Outgoing) : Outgoing :=
  (mail.remainingStaff notification).foldl (mail.deliver notification notification.items) out

/-- The mails that a notification attempts; what raises is logged. -/
def notifyPriorityOverride : List OverrideMail :=
  if mail.enabled then (mail.tellStaff notification (mail.tellBookers notification {})).attempts
  else []

/-! ## 3. What is attempted -/

/-- The mails, were no delivery to raise. -/
def plannedMails : List OverrideMail :=
  (mail.bookerEmails notification).flatMap (fun booker =>
      mail.mailsTo notification (itemsOf notification booker.1) booker.2) ++
    (mail.remainingStaff notification).flatMap (mail.mailsTo notification notification.items)

def failing (m : OverrideMail) : Bool := mail.fails m.toEmail

theorem foldl_send : ∀ (ms : List OverrideMail) (out : Outgoing), ms.foldl mail.send out =
    if out.raised then out
    else ⟨out.attempts ++ untilFirst mail.failing ms, ms.any mail.failing⟩
  | [], out => by
    obtain ⟨attempts, raised⟩ := out
    cases raised <;> simp [untilFirst]
  | m :: ms, out => by
    rw [List.foldl_cons, foldl_send ms]
    unfold send
    by_cases hout : out.raised = true
    · simp [hout]
    · cases hm : mail.fails m.toEmail <;> simp [hout, hm, untilFirst, failing]

/-- **The planned mails are attempted in order, up to the first that raises.** -/
theorem notifyPriorityOverride_eq (henabled : mail.enabled = true) :
    mail.notifyPriorityOverride notification =
      untilFirst mail.failing (mail.plannedMails notification) := by
  have hplanned : mail.tellStaff notification (mail.tellBookers notification {}) =
      (mail.plannedMails notification).foldl mail.send {} := by
    unfold plannedMails tellStaff tellBookers deliver
    rw [List.foldl_append, List.foldl_flatMap, List.foldl_flatMap]
  unfold notifyPriorityOverride
  rw [if_pos henabled, hplanned, foldl_send]
  simp

variable {mail notification}

theorem mailsTo_plain (hplain : mail.overrideRecipients = [])
    (items : List OverrideNotificationItem) (email : String) :
    mail.mailsTo notification items email =
      if strip email = "" then []
      else [⟨strip email, overrideSubject, items, mail.renderBody notification items⟩] := by
  unfold mailsTo resolveMailDeliveryTargets
  rw [hplain]
  split <;> simp_all

/-! ## 4. Who is told -/

theorem mem_affectedBookerIds {bookerId : UUID} : bookerId ∈ notification.affectedBookerIds ↔
    ∃ item ∈ notification.items, item.bookerId = bookerId := by
  unfold OverrideNotification.affectedBookerIds
  rw [List.mem_eraseDups, List.mem_map]

theorem mem_bookerContacts {bookerId : UUID} {email : String} :
    (bookerId, email) ∈ mail.bookerContacts notification ↔
      (∃ item ∈ notification.items, item.bookerId = bookerId) ∧
        mail.activeUserEmail bookerId = some email := by
  unfold bookerContacts
  simp only [List.mem_filterMap, Option.map_eq_some_iff, Prod.mk.injEq]
  rw [← mem_affectedBookerIds]
  constructor
  · rintro ⟨_, hbooker, _, hemail, rfl, rfl⟩
    exact ⟨hbooker, hemail⟩
  · rintro ⟨hbooker, hemail⟩
    exact ⟨bookerId, hbooker, email, hemail, rfl, rfl⟩

theorem bookerContacts_pairwise :
    (mail.bookerContacts notification).Pairwise fun b b' => b.1 ≠ b'.1 := by
  refine List.Pairwise.filterMap _ (fun bookerId bookerId' hne b hb b' hb' => ?_)
    (eraseDups_nodup (notification.items.map OverrideNotificationItem.bookerId))
  obtain ⟨_, _, rfl⟩ := Option.map_eq_some_iff.mp hb
  obtain ⟨_, _, rfl⟩ := Option.map_eq_some_iff.mp hb'
  exact hne

variable (mail notification)

/-- The address of a user that is active and has one. -/
def address (userId : UUID) : Option String :=
  ((mail.activeUserEmail userId).map strip).filter (· ≠ "")

/-- The addresses of the staff. -/
def staffAddresses : List String :=
  (mail.staffList.map fun email => strip (email.getD "")).filter (· ≠ "")

/-- `ms` reach the Bookers and the staff, each address once. -/
structure EachOnce (ms : List OverrideMail) : Prop where
  once : ms.Pairwise fun m m' => mail.case.normalize m.toEmail ≠ mail.case.normalize m'.toEmail
  bookers : ∀ item ∈ notification.items, ∀ email ∈ mail.address item.bookerId,
    ∃ m ∈ ms, mail.case.normalize m.toEmail = mail.case.normalize email ∧ item ∈ m.items
  staff : ∀ email ∈ mail.staffAddresses,
    (∀ item ∈ notification.items, ∀ booker ∈ mail.address item.bookerId,
      mail.case.normalize booker ≠ mail.case.normalize email) →
        ∃ m ∈ ms, mail.case.normalize m.toEmail = mail.case.normalize email ∧
          ∀ item ∈ notification.items, item ∈ m.items

/-- The same, where no delivery raises. -/
def unfailing : OverrideMailService := { mail with fails := fun _ => false }

/-- **Everyone is told exactly once**, whatever deliveries fail. -/
structure ReachesEveryone : Prop where
  eachOnce : mail.EachOnce notification (mail.notifyPriorityOverride notification)
  unsuppressed : mail.notifyPriorityOverride notification =
    mail.unfailing.notifyPriorityOverride notification

/-- No two Bookers share an address, and none that the staff have too was typed with spaces. -/
structure AddressesApart : Prop where
  distinct : ∀ b ∈ mail.bookerContacts notification, ∀ b' ∈ mail.bookerContacts notification,
    strip b.2 ≠ "" → mail.case.normalize b.2 = mail.case.normalize b'.2 → b = b'
  unpadded : ∀ b ∈ mail.bookerContacts notification, ∀ email ∈ mail.staffAddresses,
    mail.case.normalize b.2 = mail.case.normalize email →
      mail.case.lower b.2 = mail.case.normalize b.2

/-- The Bookers' addresses, then those of the staff that are no Booker's. -/
def addressesInOrder : List String :=
  let bookers := ((mail.bookerContacts notification).map fun b => strip b.2).filter (· ≠ "")
  bookers ++ (keepFirst mail.case.lower [] mail.staffAddresses).filter fun email =>
    mail.case.normalize email ∉ bookers.map mail.case.normalize

variable {mail notification}

theorem mem_staffAddresses {email : String} (h : email ∈ mail.staffAddresses) :
    strip email = email ∧ email ≠ "" := by
  obtain ⟨h, hne⟩ := List.mem_filter.mp h
  obtain ⟨_, _, rfl⟩ := List.mem_map.mp h
  exact ⟨strip_strip _, of_decide_eq_true hne⟩

theorem mem_address {userId : UUID} {email : String} : email ∈ mail.address userId ↔
    ∃ stored, mail.activeUserEmail userId = some stored ∧ strip stored = email ∧ email ≠ "" := by
  unfold address
  rw [Option.mem_def, Option.filter_eq_some_iff, Option.map_eq_some_iff, decide_eq_true_eq]
  constructor
  · rintro ⟨⟨stored, hstored, rfl⟩, hne⟩
    exact ⟨stored, hstored, rfl, hne⟩
  · rintro ⟨stored, hstored, rfl, hne⟩
    exact ⟨⟨stored, hstored, rfl⟩, hne⟩

/-- What is said of the addresses of the items is said of the contacts. -/
theorem address_iff {p : String → Prop} : (∀ item ∈ notification.items,
    ∀ email ∈ mail.address item.bookerId, p email) ↔
      ∀ b ∈ mail.bookerContacts notification, strip b.2 ≠ "" → p (strip b.2) := by
  constructor
  · rintro h ⟨bookerId, email⟩ hb hne
    obtain ⟨⟨item, hitem, rfl⟩, hemail⟩ := mem_bookerContacts.mp hb
    exact h item hitem _ (mem_address.mpr ⟨email, hemail, rfl, hne⟩)
  · intro h item hitem email hemail
    obtain ⟨stored, hstored, rfl, hne⟩ := mem_address.mp hemail
    exact h (item.bookerId, stored) (mem_bookerContacts.mpr ⟨⟨item, hitem, rfl⟩, hstored⟩) hne

/-! ### 4.1 Where nothing is redirected -/

section

variable (hplain : mail.overrideRecipients = [])
include hplain

theorem plannedMails_plain : mail.plannedMails notification =
    ((mail.bookerEmails notification).filter fun b => strip b.2 ≠ "").map (fun b =>
      ⟨strip b.2, overrideSubject, itemsOf notification b.1,
        mail.renderBody notification (itemsOf notification b.1)⟩) ++
    (mail.remainingStaff notification).map fun email =>
      ⟨email, overrideSubject, notification.items,
        mail.renderBody notification notification.items⟩ := by
  unfold plannedMails
  congr 1
  · rw [flatMap_filter_of_nil (p := fun b => strip b.2 ≠ "") fun b _ hne => decide_eq_true
      fun hblank => hne (by rw [mailsTo_plain hplain, if_pos hblank]), ← List.flatMap_pure_eq_map]
    refine List.flatMap_congr fun b hb => ?_
    rw [mailsTo_plain hplain, if_neg (of_decide_eq_true (List.mem_filter.mp hb).2)]
    rfl
  · rw [← List.flatMap_pure_eq_map]
    refine List.flatMap_congr fun email hemail => ?_
    have hemail : email ∈ mail.staffAddresses :=
      (keepFirst_sublist _ _).subset (List.mem_filter.mp hemail).1
    obtain ⟨hstrip, hne⟩ := mem_staffAddresses hemail
    rw [mailsTo_plain hplain, hstrip, if_neg hne]
    rfl

end

/-! ### 4.2 The Bookers that are kept -/

theorem bookerEmails_subset {b : UUID × String} (hb : b ∈ mail.bookerEmails notification) :
    b ∈ mail.bookerContacts notification := (keepFirst_sublist _ _).subset hb

/-- Some Booker is kept with the address of each. -/
theorem exists_bookerEmail {b : UUID × String} (hb : b ∈ mail.bookerContacts notification) :
    ∃ b' ∈ mail.bookerEmails notification, mail.case.lower b'.2 = mail.case.lower b.2 :=
  exists_keepFirst hb List.not_mem_nil

theorem normalize_congr {email email' : String}
    (h : mail.case.lower email = mail.case.lower email') :
    mail.case.normalize email = mail.case.normalize email' := by
  rw [← mail.case.strip_lower', h, mail.case.strip_lower']

theorem blank_congr {email email' : String}
    (h : mail.case.normalize email = mail.case.normalize email') :
    strip email = "" ↔ strip email' = "" := by
  rw [← mail.case.normalize_eq_empty, h, mail.case.normalize_eq_empty]

/-- Each address of the staff is told, unless a Booker is kept with it as it was typed. -/
theorem staff_told_or {email : String} (hemail : email ∈ mail.staffAddresses) :
    (∃ b ∈ mail.bookerEmails notification, mail.case.lower b.2 = mail.case.normalize email) ∨
      ∃ email' ∈ mail.remainingStaff notification,
        mail.case.normalize email' = mail.case.normalize email := by
  have hstrip := (mem_staffAddresses hemail).1
  obtain ⟨email', hemail', heq⟩ :
      ∃ email' ∈ mail.listStaffEmails, mail.case.lower email' = mail.case.lower email :=
    exists_keepFirst hemail List.not_mem_nil
  by_cases hsent : mail.case.lower email' ∈
      (mail.bookerEmails notification).map fun booker => mail.case.lower booker.2
  · obtain ⟨b, hb, hlower⟩ := List.mem_map.mp hsent
    refine .inl ⟨b, hb, ?_⟩
    rw [hlower, heq, LowerCase.normalize, hstrip]
  · exact .inr ⟨email', List.mem_filter.mpr ⟨hemail', decide_eq_true hsent⟩, normalize_congr heq⟩

theorem remainingStaff_mem {email : String} (h : email ∈ mail.remainingStaff notification) :
    email ∈ mail.staffAddresses ∧ ∀ b ∈ mail.bookerEmails notification,
      mail.case.lower b.2 ≠ mail.case.normalize email := by
  obtain ⟨h, hsent⟩ := List.mem_filter.mp h
  have hstaff : email ∈ mail.staffAddresses := (keepFirst_sublist _ _).subset h
  refine ⟨hstaff, fun b hb heq => of_decide_eq_true hsent (List.mem_map.mpr ⟨b, hb, ?_⟩)⟩
  rw [heq, LowerCase.normalize, (mem_staffAddresses hstaff).1]

theorem remainingStaff_pairwise : (mail.remainingStaff notification).Pairwise fun email email' =>
    mail.case.normalize email ≠ mail.case.normalize email' := by
  have hkeys : (mail.listStaffEmails.map mail.case.lower).Nodup := (nodup_keepFirst _ _).1
  rw [List.Nodup, List.pairwise_map] at hkeys
  refine (hkeys.filter _).imp_of_mem fun hemail hemail' hne heq => hne ?_
  have hstrip := (mem_staffAddresses (remainingStaff_mem hemail).1).1
  have hstrip' := (mem_staffAddresses (remainingStaff_mem hemail').1).1
  rwa [LowerCase.normalize, LowerCase.normalize, hstrip, hstrip'] at heq

theorem bookerEmails_pairwise :
    (mail.bookerEmails notification).Pairwise fun b b' => b.1 ≠ b'.1 :=
  bookerContacts_pairwise.sublist (keepFirst_sublist _ _)

/-- Where the addresses are apart, nobody is left out for another. -/
theorem AddressesApart.kept (h : mail.AddressesApart notification) {b : UUID × String}
    (hb : b ∈ mail.bookerContacts notification) (hne : strip b.2 ≠ "") :
    b ∈ mail.bookerEmails notification := by
  obtain ⟨b', hb', hlower⟩ := exists_bookerEmail hb
  have heq : b = b' := h.distinct b hb b' (bookerEmails_subset hb') hne (normalize_congr hlower).symm
  exact heq ▸ hb'

/-- Nor does an address of the staff coincide with one that a Booker is told at. -/
theorem AddressesApart.staff_ne (h : mail.AddressesApart notification) {b : UUID × String}
    (hb : b ∈ mail.bookerEmails notification) {email : String}
    (hemail : email ∈ mail.remainingStaff notification) :
    mail.case.normalize b.2 ≠ mail.case.normalize email := by
  obtain ⟨hstaff, hsent⟩ := remainingStaff_mem hemail
  intro heq
  exact hsent b hb ((h.unpadded b (bookerEmails_subset hb) email hstaff heq).trans heq)

section

variable (hplain : mail.overrideRecipients = [])
include hplain

theorem AddressesApart.eachOnce (h : mail.AddressesApart notification) :
    mail.EachOnce notification (mail.plannedMails notification) := by
  rw [plannedMails_plain hplain]
  refine ⟨?_, fun item hitem => ?_, fun email hemail hbookers => ?_⟩
  · rw [List.pairwise_append, List.pairwise_map, List.pairwise_map]
    refine ⟨?_, remainingStaff_pairwise, ?_⟩
    · refine (bookerEmails_pairwise.filter _).imp_of_mem fun {b b'} hb hb' hne heq => ?_
      obtain ⟨hb, hblank⟩ := List.mem_filter.mp hb
      rw [LowerCase.normalize_strip, LowerCase.normalize_strip] at heq
      have heq := h.distinct b (bookerEmails_subset hb) b'
        (bookerEmails_subset (List.mem_filter.mp hb').1) (of_decide_eq_true hblank) heq
      exact hne (congrArg Prod.fst heq)
    · intro m hm m' hm'
      obtain ⟨b, hb, rfl⟩ := List.mem_map.mp hm
      obtain ⟨email, hemail, rfl⟩ := List.mem_map.mp hm'
      rw [LowerCase.normalize_strip]
      exact h.staff_ne (List.mem_filter.mp hb).1 hemail
  · intro email hemail
    obtain ⟨stored, hstored, rfl, hne⟩ := mem_address.mp hemail
    have hb := h.kept (mem_bookerContacts.mpr ⟨⟨item, hitem, rfl⟩, hstored⟩) hne
    exact ⟨_, List.mem_append_left _ (List.mem_map_of_mem
      (List.mem_filter.mpr ⟨hb, decide_eq_true hne⟩)), rfl,
      List.mem_filter.mpr ⟨hitem, decide_eq_true rfl⟩⟩
  · rcases staff_told_or hemail with ⟨b, hb, hlower⟩ | ⟨email', hemail', heq⟩
    · have hstrip := mem_staffAddresses hemail
      have hnorm : mail.case.normalize b.2 = mail.case.normalize email :=
        normalize_congr (hlower.trans (by rw [LowerCase.normalize, hstrip.1]))
      have hblank : strip b.2 ≠ "" := fun hblank =>
        hstrip.2 (hstrip.1 ▸ (blank_congr hnorm).mp hblank)
      have hne := address_iff.mp hbookers b (bookerEmails_subset hb) hblank
      rw [LowerCase.normalize_strip] at hne
      exact absurd hnorm hne
    · exact ⟨_, List.mem_append_right _ (List.mem_map_of_mem hemail'), heq, fun _ h => h⟩

/-- Where each is told once, the Booker that is kept with an address is the only one to have it. -/
theorem EachOnce.eq_kept (h : mail.EachOnce notification (mail.plannedMails notification))
    {b : UUID × String} (hb : b ∈ mail.bookerContacts notification) (hne : strip b.2 ≠ "")
    {kept : UUID × String} (hkept : kept ∈ mail.bookerEmails notification)
    (heq : mail.case.normalize kept.2 = mail.case.normalize b.2) : b = kept := by
  obtain ⟨⟨item, hitem, hbooker⟩, hemail⟩ := mem_bookerContacts.mp hb
  obtain ⟨m, hm, hnorm, hlisted⟩ := h.bookers item hitem (strip b.2)
    (mem_address.mpr ⟨b.2, hbooker ▸ hemail, rfl, hne⟩)
  have honce := List.pairwise_map.mpr h.once
  -- The mail at the address is the one that lists the items of `kept` alone.
  have hmail : m = ⟨strip kept.2, overrideSubject, itemsOf notification kept.1,
      mail.renderBody notification (itemsOf notification kept.1)⟩ := by
    refine List.inj_on_of_nodup_map honce hm ?_ ?_
    · rw [plannedMails_plain hplain]
      exact List.mem_append_left _ (List.mem_map_of_mem (List.mem_filter.mpr
        ⟨hkept, decide_eq_true fun hblank => hne ((blank_congr heq).mp hblank)⟩))
    · rw [hnorm, LowerCase.normalize_strip, LowerCase.normalize_strip, heq]
  rw [hmail] at hlisted
  have hid : b.1 = kept.1 := hbooker ▸ of_decide_eq_true (List.mem_filter.mp hlisted).2
  have hstored := (mem_bookerContacts.mp (bookerEmails_subset hkept)).2
  rw [← hid, hemail] at hstored
  exact Prod.ext hid (Option.some.inj hstored)

theorem EachOnce.apart (h : mail.EachOnce notification (mail.plannedMails notification)) :
    mail.AddressesApart notification where
  distinct b hb b' hb' hne heq := by
    obtain ⟨kept, hkept, hlower⟩ := exists_bookerEmail hb
    have hkeep := normalize_congr hlower
    rw [h.eq_kept hplain hb hne hkept hkeep]
    exact (h.eq_kept hplain hb' (fun hblank => hne ((blank_congr heq).mpr hblank)) hkept
      (hkeep.trans heq)).symm
  unpadded b hb email hemail heq := by
    have hstrip := mem_staffAddresses hemail
    have hne : strip b.2 ≠ "" := fun hblank =>
      hstrip.2 (hstrip.1 ▸ (blank_congr heq).mp hblank)
    rcases staff_told_or hemail with ⟨kept, hkept, hlower⟩ | ⟨email', hemail', hnorm⟩
    · have hkeep : mail.case.normalize kept.2 = mail.case.normalize email :=
        normalize_congr (hlower.trans (by rw [LowerCase.normalize, hstrip.1]))
      rw [h.eq_kept hplain hb hne hkept (hkeep.trans heq.symm), hlower, hkeep]
    · obtain ⟨kept, hkept, hlower⟩ := exists_bookerEmail hb
      have hkeep := normalize_congr hlower
      have honce := h.once
      rw [plannedMails_plain hplain, List.pairwise_append] at honce
      -- The address was told once as a Booker's and once as the staff's.
      refine absurd ?_ (honce.2.2 _ (List.mem_map_of_mem (List.mem_filter.mpr ⟨hkept,
        decide_eq_true fun hblank => hne ((blank_congr hkeep).mp hblank)⟩)) _
        (List.mem_map_of_mem hemail'))
      rw [LowerCase.normalize_strip, hkeep, heq, hnorm]

/-- Where the addresses are apart, the planned mails go to them in order. -/
theorem AddressesApart.planned_toEmail (h : mail.AddressesApart notification) :
    (mail.plannedMails notification).map OverrideMail.toEmail =
      mail.addressesInOrder notification := by
  have hkept : (mail.bookerEmails notification).filter (fun b => strip b.2 ≠ "") =
      (mail.bookerContacts notification).filter fun b => strip b.2 ≠ "" := by
    refine filter_keepFirst (fun _ _ _ => List.not_mem_nil) ?_
    refine bookerContacts_pairwise.imp_of_mem fun {b b'} hb hb' hne hblank heq => ?_
    have heq := normalize_congr heq
    exact hne (congrArg Prod.fst (h.distinct b hb b' hb'
      (fun hb => of_decide_eq_true hblank ((blank_congr heq).mp hb)) heq))
  have hbookers : ((mail.bookerContacts notification).map fun b => strip b.2).filter (· ≠ "") =
      ((mail.bookerEmails notification).filter fun b => strip b.2 ≠ "").map fun b => strip b.2 := by
    rw [hkept, List.filter_map]
    rfl
  rw [plannedMails_plain hplain, List.map_append, List.map_map, List.map_map, addressesInOrder]
  rw [hbookers]
  congr 1
  rw [show OverrideMail.toEmail ∘ (fun email => (⟨email, overrideSubject, notification.items,
    mail.renderBody notification notification.items⟩ : OverrideMail)) = id from rfl, List.map_id]
  refine List.filter_congr fun email hemail => ?_
  have hstaff : email ∈ mail.staffAddresses := (keepFirst_sublist _ _).subset hemail
  have hstrip := mem_staffAddresses hstaff
  rw [decide_eq_decide, not_iff_not, List.map_map]
  constructor
  · intro hsent
    obtain ⟨b, hb, hlower⟩ := List.mem_map.mp hsent
    have hnorm := normalize_congr hlower
    refine List.mem_map.mpr ⟨b, List.mem_filter.mpr ⟨hb, decide_eq_true fun hblank => ?_⟩,
      (mail.case.normalize_strip _).trans hnorm⟩
    exact hstrip.2 (hstrip.1 ▸ (blank_congr hnorm).mp hblank)
  · intro hsent
    obtain ⟨b, hb, hnorm⟩ := List.mem_map.mp hsent
    have hb := (List.mem_filter.mp hb).1
    have hnorm : mail.case.normalize b.2 = mail.case.normalize email :=
      (mail.case.normalize_strip _).symm.trans hnorm
    refine List.mem_map.mpr ⟨b, hb, ?_⟩
    rw [h.unpadded b (bookerEmails_subset hb) email hstaff hnorm, hnorm, LowerCase.normalize,
      hstrip.1]

end

theorem unfailing_notify (henabled : mail.enabled = true) :
    mail.unfailing.notifyPriorityOverride notification = mail.plannedMails notification :=
  (notifyPriorityOverride_eq mail.unfailing notification henabled).trans (untilFirst_false _)

theorem unsuppressed_iff (henabled : mail.enabled = true) :
    mail.notifyPriorityOverride notification = mail.plannedMails notification ↔
    ∀ email ∈ ((mail.plannedMails notification).map OverrideMail.toEmail).dropLast,
      mail.fails email = false := by
  rw [notifyPriorityOverride_eq _ _ henabled, untilFirst_eq_self_iff, ← List.map_dropLast,
    List.forall_mem_map]
  rfl

end OverrideMailService

def LowerCase.ascii : LowerCase where
  lower := asciiLower
  lower_eq_empty := by simp [asciiLower]
  strip_lower := strip_asciiLower

/-- Users 1 and 2 have the addresses that are given, user 3 is the Facility Deacon. -/
def parishMail (first second : String) (fails : String → Bool) : OverrideMailService where
  case := .ascii
  users id :=
    if id = 1 then some { email := some first }
    else if id = 2 then some { email := some second }
    else if id = 3 then some { email := some "deacon@a.org" } else none
  resourceEmails := []
  deaconUserId := some 3
  rooms _ := none
  render _ := ""
  facilityBookingBaseUrl := ""
  enabled := true
  overrideRecipients := []
  fails := fails

def displacedItem (bookerId : UUID) : OverrideNotificationItem :=
  { bookingId := bookerId, bookerId := bookerId, occurrenceDate := 0, facilityIds := [7],
    churchActivityBookingId := 9 }

def twoDisplaced : OverrideNotification :=
  { ministryId := 5, churchActivityName := "Vigil", actorId := 4,
    items := [displacedItem 1, displacedItem 2] }

end NewlifeCore
