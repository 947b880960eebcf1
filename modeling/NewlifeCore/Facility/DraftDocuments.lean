import NewlifeCore.Facility.BookingDrafts
import NewlifeCore.Facility.Reworkings
import NewlifeCore.Txn.Documents

/-!
# Drafts as documents

A Draft is a header and its lines.  Only the calls on Drafts write them; of the calls on Bookings,
`create_booking` throws one away and all the others leave Drafts alone.
-/

namespace NewlifeCore

open Txn Prog RecurringBookingService

/-! ## 1. Drafts as documents -/

def draftDocuments : Documents Db RowName BookingDraft BookingDraftLine UUID UUID where
  headers := draftTable
  lines := draftLineTable
  idOf := BookingDraft.id
  tag := BookingDraft.userId
  parent := BookingDraftLine.bookingDraftId
  name := RowName.draft
  name_idOf _ := rfl
  name_inj h := RowName.draft.inj h
  headers_set _ _ := rfl
  lines_set _ _ := rfl
  headers_of_lines _ _ := rfl
  lines_of_headers _ _ := rfl

/-- **The header as a command has it**: the date is the day, in a zone of the facility, that all the
lines fall on. -/
structure BookingDraft.Says (d : BookingDraft) (command : BookingDraftCommand) : Prop where
  title : d.title = command.title
  ministryId : d.ministryId = command.ministryId
  date : ∃ v : ValidDraftLines command.lines, d.date = v.draftDate

/-- The rows of a command's lines; a command with a line that does not end after it starts is
refused. -/
def commandRows (id : Nat → UUID) (bookingDraftId : UUID) (lines : List BookingDraftLineCommand) :
    List BookingDraftLine :=
  if h : ∀ line ∈ lines, line.startAt < line.endAt then draftLineRows id bookingDraftId lines h
  else []

/-- Only calls on Drafts write Drafts. -/
def draftCall : Call ⊕ DraftCall → Option DraftCall := Sum.elim (fun _ => none) some

/-- What of a Draft a call writes, and for whom. -/
def draftAuthors :
    Documents.Authors (Call ⊕ DraftCall) BookingDraft BookingDraftLine UUID UUID where
  makes c := (draftCall c).bind DraftCall.added
  writes c := ((draftCall c).bind DraftCall.written).map Prod.fst
  head c d := ∃ call w, draftCall c = some call ∧ call.written = some w ∧
    call.request.operatorId = some d.userId ∧ d.Says w.2
  body c := ((draftCall c).bind fun c => c.written.map fun w =>
    commandRows c.ids.line w.1 w.2.lines).getD []

theorem commandRows_eq {id : Nat → UUID} {bookingDraftId : UUID}
    {lines : List BookingDraftLineCommand} (v : ValidDraftLines lines) :
    commandRows id bookingDraftId lines = draftLineRows id bookingDraftId lines v.end_after_start :=
  dif_pos v.end_after_start

/-! ## 2. The calls on Bookings leave Drafts alone -/

/-- A table that holds nothing of a Draft. -/
def Beside {α : Type} (T : Table Db RowName α) : Prop :=
  ∀ db l, (T.set db l).drafts = db.drafts ∧ (T.set db l).draftLines = db.draftLines

theorem OfBookings.beside {α : Type} {T : Table Db RowName α} (h : OfBookings T) : Beside T := by
  cases h <;> exact fun _ _ => ⟨rfl, rfl⟩

theorem spares_onTables : OnTables fun _ p => Keeps draftDocuments.untouched p where
  toCompositional := Keeps.compositional
  insertInto hT valid rows := by
    refine Keeps.execute fun view c hc db => ?_
    split at hc
    · cases hc
    · split at hc
      · cases hc
        exact hT.beside db _
      · cases hc
  updateTable hT p f hf := keeps_updateTable _ p f hf fun _ db => hT.beside db _
  updateTableCount hT p f hf := Keeps.executeCount fun view c hc db => by
    cases hc
    exact hT.beside db _
  deleteFrom hT p := Keeps.execute fun view c hc db => by
    cases hc
    exact hT.beside db _
  tryAcquire _ := fun _ => trivial

theorem spares_lockRooms (ids : List UUID) :
    Keeps draftDocuments.untouched (BookingRepository.lockRooms ids) :=
  Keeps.compositional.each (f := fun room => acquire (LockKey.room room)) (fun _ => trivial) _

theorem spares_createSeries (app : App) (r : Request)
    (command : CreateRecurringBookingSeriesCommand) :
    Keeps draftDocuments.untouched (createSeries app r command) := by
  have htitle : ReadOnly (requireTitle command) := by
    unfold requireTitle
    split <;> trivial
  refine Keeps.checked htitle fun title => ?_
  refine Keeps.checked (prepareSeries_readOnly app r command) fun prepared => ?_
  refine Keeps.bind (fun _ => ?_) (spares_lockRooms _)
  refine Keeps.checked (reviewSeries_readOnly app command prepared) fun review => ?_
  refine Keeps.bind (fun _ => ?_) (spares_onTables.insertInto .series _ _)
  refine Keeps.bind (fun _ => Keeps.bind (fun _ => Keeps.ret _) ?_)
    (Keeps.compositional.mapEach (fun t => Keeps.bind (fun _ => Keeps.ret _)
      (spares_onTables.insertWithLines _ _ _)) _)
  unfold displaceSeriesTargets
  split
  · exact Keeps.checked (ReadOnly.ofExcept _) fun _ =>
      spares_onTables.applyWholeBookingOverrides _ _ _
  · trivial

end NewlifeCore
