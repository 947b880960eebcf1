import NewlifeCore.Facility.Calls

/-!
# Who writes Drafts

`create_draft`, `update_draft` and `delete_all_my_drafts`, with the statements of
`BookingDraftRepository` that they run.  `create_booking` deletes the Draft that it confirms.
-/

namespace NewlifeCore

open Txn Prog

/-! ## 1. Commands -/

/-- `BookingDraftLineCommand`. -/
structure BookingDraftLineCommand where
  facilityId : UUID
  startAt : Int
  endAt : Int
  sequence : Int := 0
deriving DecidableEq

/-- `CreateBookingDraftCommand` and `UpdateBookingDraftCommand`, which have the same fields. -/
structure BookingDraftCommand where
  title : BookingTitle
  ministryId : Option UUID := none
  lines : List BookingDraftLineCommand := []

def BookingDraftLineCommand.resolved (line : BookingDraftLineCommand) : ResolvedBookingLine :=
  ⟨line.facilityId, line.startAt, line.endAt, line.sequence⟩

/-- What a stored line says: all that `get_detail` reads of it. -/
def BookingDraftLine.command (line : BookingDraftLine) : BookingDraftLineCommand :=
  ⟨line.facilityId, line.startAt, line.endAt, line.sequence⟩

/-- **Lines that passed `_resolve_and_validate_lines`**, with the zone they passed in. -/
structure ValidDraftLines (lines : List BookingDraftLineCommand) where
  localTz : Zone
  nonempty : lines ≠ []
  valid : validateBookingLines (lines.map BookingDraftLineCommand.resolved) localTz = .ok ()

namespace ValidDraftLines

variable {lines : List BookingDraftLineCommand}

/-- The day of the first line. -/
def draftDate (v : ValidDraftLines lines) : Int :=
  v.localTz.localDate (lines.head v.nonempty).startAt

theorem end_after_start (v : ValidDraftLines lines) : ∀ line ∈ lines, line.startAt < line.endAt :=
  fun line hline => (validateBookingLines_ok v.valid line.resolved (List.mem_map_of_mem hline)).1

end ValidDraftLines

/-! ## 2. `BookingDraftRepository` -/

def foreignKeyViolation : ApiError :=
  ⟨.integrity, "insert or update on table violates foreign key constraint", none, []⟩

/-- An INSERT, refused when a primary key is already taken or a foreign key refers to nothing. -/
def insertReferring {α : Type} (T : Table Db RowName α) (refers : Db → α → Bool) (rows : List α) :
    Portal Unit :=
  Prog.execute fun db =>
    if !decide (rows.map T.name).Nodup ||
        (rows.any fun r => (T.get db).any fun r' => T.name r' = T.name r) then
      .error ⟨.integrity, "duplicate key value violates unique constraint", none, []⟩
    else if rows.all (refers db) then .ok (T.insert rows)
    else .error foreignKeyViolation

def ministryExists (db : Db) (ministryId : Option UUID) : Bool :=
  ministryId.all fun m => db.ministries.any fun r => r.id = m

def BookingDraft.refers (db : Db) (d : BookingDraft) : Bool :=
  (db.users.any fun u => u.id = d.userId) && ministryExists db d.ministryId

def BookingDraftLine.refers (db : Db) (line : BookingDraftLine) : Bool :=
  (db.drafts.any fun d => d.id = line.bookingDraftId) &&
    db.rooms.any fun r => r.id = line.facilityId

namespace BookingDraftRepository

def insertDraft (d : BookingDraft) : Portal Unit :=
  insertReferring draftTable BookingDraft.refers [d]

def insertLines (lineRows : List BookingDraftLine) : Portal Unit :=
  if lineRows.isEmpty then pure ()
  else insertReferring draftLineTable BookingDraftLine.refers lineRows

/-- The values that `update_header` sets. -/
def headerValues (title : BookingTitle) (date : Int) (ministryId : Option UUID)
    (d : BookingDraft) : BookingDraft :=
  { d with title, date, ministryId }

def updateHeader (bookingDraftId : UUID) (title : BookingTitle) (date : Int)
    (ministryId : Option UUID) : Portal Unit :=
  Prog.execute fun db =>
    if (db.drafts.any fun d => d.id = bookingDraftId) && !ministryExists db ministryId then
      .error foreignKeyViolation
    else .ok (draftTable.update (fun d => d.id = bookingDraftId)
      (headerValues title date ministryId) (fun _ => rfl) db)

def replaceLines (bookingDraftId : UUID) (lineRows : List BookingDraftLine) : Portal Unit := do
  deleteFrom draftLineTable fun l => l.bookingDraftId = bookingDraftId
  insertLines lineRows

/-- `booking_draft_id IN (SELECT id …)`. -/
def ownedDraftIds (db : Db) (userId bookingDraftId : UUID) : Bool :=
  db.drafts.any fun d => d.userId = userId && d.id = bookingDraftId

def deleteAllForUser (userId : UUID) : Portal Unit := do
  Prog.execute fun db =>
    .ok (draftLineTable.delete (fun l => ownedDraftIds db userId l.bookingDraftId) db)
  deleteFrom draftTable fun d => d.userId = userId

end BookingDraftRepository

/-! ## 3. The service -/

/-- What `uuid4()` returns while a Draft is written. -/
structure DraftUuids where
  draft : UUID
  line : Nat → UUID

/-- The rows of valid lines, one for each in their order. -/
def draftLineRows (id : Nat → UUID) (bookingDraftId : UUID) (lines : List BookingDraftLineCommand)
    (h : ∀ line ∈ lines, line.startAt < line.endAt) : List BookingDraftLine :=
  lines.attach.mapIdx fun idx line =>
    { id := id idx
      bookingDraftId
      facilityId := line.1.facilityId
      startAt := line.1.startAt
      endAt := line.1.endAt
      sequence := line.1.sequence
      end_after_start := h line.1 line.2 }

namespace BookingDraftService

variable (app : App) (r : Request)

def resolveAndValidateLines (lines : List BookingDraftLineCommand) :
    Portal (ValidDraftLines lines) :=
  if hlines : lines = [] then
    raise (badRequest "At least one line is required" (some .bookingRoomsRequired))
  else do
    let maxLines ← SettingService.getMaxBookingLines
    raiseIf (lines.length > maxLines)
      (badRequest s!"At most {maxLines} lines per booking" (some .bookingMaxRooms))
    let localTz ← SettingService.getFacilityTimezone app
    match hvalid : validateBookingLines (lines.map BookingDraftLineCommand.resolved) localTz with
    | .error e => raise e
    | .ok () => pure ⟨localTz, hlines, hvalid⟩

def createDraft (ids : DraftUuids) (command : BookingDraftCommand) : Portal UUID := do
  let userId ← authenticatedUser r
  let v ← resolveAndValidateLines app command.lines
  BookingDraftRepository.insertDraft
    ⟨ids.draft, userId, command.title, v.draftDate, command.ministryId⟩
  BookingDraftRepository.insertLines
    (draftLineRows ids.line ids.draft command.lines v.end_after_start)
  pure ids.draft

/-- Replaces the lines in place: of two updates at once, the last to write wins. -/
def updateDraft (ids : DraftUuids) (bookingDraftId : UUID) (command : BookingDraftCommand) :
    Portal BookingDraftResult := do
  let userId ← authenticatedUser r
  let _ ← getOwnedDraftOr404 bookingDraftId userId
  let v ← resolveAndValidateLines app command.lines
  BookingDraftRepository.updateHeader bookingDraftId command.title v.draftDate command.ministryId
  BookingDraftRepository.replaceLines bookingDraftId
    (draftLineRows ids.line bookingDraftId command.lines v.end_after_start)
  getDraft app r bookingDraftId

def deleteAllMyDrafts : Portal Unit := do
  let userId ← authenticatedUser r
  BookingDraftRepository.deleteAllForUser userId

end BookingDraftService

/-! ## 4. Calls -/

inductive DraftOperation
  | createDraft (command : BookingDraftCommand)
  | updateDraft (bookingDraftId : UUID) (command : BookingDraftCommand)
  | getDraft (bookingDraftId : UUID)
  | deleteAllMyDrafts

structure DraftCall where
  request : Request
  ids : DraftUuids
  operation : DraftOperation

def DraftCall.body (app : App) (c : DraftCall) : Portal Unit :=
  match c.operation with
  | .createDraft command =>
    discard (BookingDraftService.createDraft app c.request c.ids command)
  | .updateDraft id command =>
    discard (BookingDraftService.updateDraft app c.request c.ids id command)
  | .getDraft id => discard (BookingDraftService.getDraft app c.request id)
  | .deleteAllMyDrafts => BookingDraftService.deleteAllMyDrafts c.request

/-- The Draft that a call writes, and what it writes of it. -/
def DraftCall.written (c : DraftCall) : Option (UUID × BookingDraftCommand) :=
  match c.operation with
  | .createDraft command => some (c.ids.draft, command)
  | .updateDraft id command => some (id, command)
  | _ => none

/-- The Draft that a call adds, and whose it is. -/
def DraftCall.added (c : DraftCall) : Option (UUID × UUID) :=
  match c.operation with
  | .createDraft _ => c.request.operatorId.map fun userId => (c.ids.draft, userId)
  | _ => none

/-- **What the portal serves around Drafts**: a call on Bookings, or one on Drafts. -/
def draftsBody (app : App) : Call ⊕ DraftCall → Portal Unit :=
  Sum.elim (Call.body app) (DraftCall.body app)

/-! ## 5. Rows and reads -/

theorem draftLineRows_command {id : Nat → UUID} {bookingDraftId : UUID}
    {lines : List BookingDraftLineCommand} (h : ∀ line ∈ lines, line.startAt < line.endAt) :
    (draftLineRows id bookingDraftId lines h).map BookingDraftLine.command = lines := by
  have hval : (draftLineRows id bookingDraftId lines h).map BookingDraftLine.command =
      lines.attach.map Subtype.val := by
    refine List.ext_getElem (by simp [draftLineRows]) fun n hn hn' => ?_
    simp [draftLineRows, BookingDraftLine.command]
  rw [hval, List.attach_map_subtype_val]

theorem draftLineRows_parent {id : Nat → UUID} {bookingDraftId : UUID}
    {lines : List BookingDraftLineCommand} (h : ∀ line ∈ lines, line.startAt < line.endAt) :
    ∀ x ∈ draftLineRows id bookingDraftId lines h, x.bookingDraftId = bookingDraftId := by
  intro x hx
  obtain ⟨n, hn, rfl⟩ := List.mem_iff_getElem.mp hx
  simp [draftLineRows]

namespace BookingDraftService

variable (app : App) (r : Request)

theorem resolveAndValidateLines_readOnly (lines : List BookingDraftLineCommand) :
    ReadOnly (resolveAndValidateLines app lines) := by
  unfold resolveAndValidateLines
  split
  · trivial
  · refine ReadOnly.bind (fun _ => ?_) SettingService.getMaxBookingLines_readOnly
    refine ReadOnly.bind (fun _ => ?_) (ReadOnly.raiseIf _ _)
    refine ReadOnly.bind (fun localTz => ?_) (SettingService.getFacilityTimezone_readOnly app)
    split <;> trivial

theorem getOwnedDraftOr404_readOnly (bookingDraftId userId : UUID) :
    ReadOnly (getOwnedDraftOr404 bookingDraftId userId) := by
  refine ReadOnly.bind (fun row => ?_) (BookingService.draftOf_readOnly (some bookingDraftId))
  cases row with
  | none => trivial
  | some row => exact ReadOnly.bind (fun _ => ReadOnly.ret _) (ReadOnly.raiseIf _ _)

theorem reviewLine_readOnly (localTz : Zone) (line : ResolvedBookingLine) :
    ReadOnly (reviewLine localTz line) :=
  ReadOnly.bind (fun _ => ReadOnly.bind (fun _ => ReadOnly.bind (fun _ => ReadOnly.ret _)
    (ReadOnly.select _)) (hasBlackoutOverlap_readOnly _ _ _ _)) (ReadOnly.select _)

theorem getDraft_readOnly (bookingDraftId : UUID) : ReadOnly (getDraft app r bookingDraftId) := by
  refine ReadOnly.bind (fun userId => ?_) (BookingService.authenticatedUser_readOnly r)
  refine ReadOnly.bind (fun row => ?_) (getOwnedDraftOr404_readOnly bookingDraftId userId)
  refine ReadOnly.bind (fun localTz => ?_) (SettingService.getFacilityTimezone_readOnly app)
  refine ReadOnly.bind (fun context => ?_) (proposalContext_readOnly _ _)
  refine ReadOnly.bind (fun nowUtc => ?_) ReadOnly.now
  refine ReadOnly.bind (fun evaluation => ?_) (evaluateOneTimeOccupancy_readOnly _ _ _ _ _)
  refine ReadOnly.bind (fun reviewed => ?_)
    (ReadOnly.mapEach (fun line => reviewLine_readOnly localTz line) _)
  exact ReadOnly.bind (fun _ => ReadOnly.ret _) (PricingService.previewQuote_readOnly _)

end BookingDraftService

end NewlifeCore
