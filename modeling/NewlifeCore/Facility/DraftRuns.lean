import NewlifeCore.Facility.DraftDocuments
import NewlifeCore.Txn.DocumentRuns

/-!
# A Draft is stored whole

A Draft is written by statements between which other requests run.  What is committed of it is
always what one call wrote, header and lines; of several calls at once, what the last to commit
wrote.  A Draft that is confirmed or deleted stays gone.

The library keeps, for a document with a header and lines, what one transaction may see and write of
it (`Txn.DocumentRuns`); this module shows that the calls of the service are such transactions.

* §1.1: each statement keeps the stage of its Draft.  An update writes the header first, and so
  waits for the row lock of another; the lines are deleted and inserted under it
  (`at_updateHeader`, `at_deleteLines`, `at_insertLines`).
* §1.2: the methods, one after the other, up to `DraftCall.body_at`.
* §1.3: a confirmation reads its Draft before it makes the Booking and throws it away at the end;
  between the two it writes no Draft (`at_prepareBooking`, `createBooking_at`).  `Call.body_at` says
  the same of all calls on Bookings, so that they may run alongside.
* §2 applies the library's run theorem to the two kinds of call together: `draft_storedWhole`, and
  `draft_stays_gone` for what was deleted or confirmed, also under an update that has read it
  before and now waits.
-/

namespace NewlifeCore

open Txn Prog

/-! ## 1. The calls that write Drafts -/

section Calls

variable {c : Call ⊕ DraftCall} {seen q : UUID → UUID → Prop} {α : Type} {f : Unit → Portal α}

/-- What a request runs, from a stage of its Draft on. -/
abbrev DraftAt (c : Call ⊕ DraftCall) (stage : Documents.Stage UUID UUID) (p : Portal α) : Prop :=
  draftDocuments.At draftAuthors c stage p

/-! ### 1.1 Statements -/

theorem insertReferring_ok {β : Type} {T : Table Db RowName β} {refers : Db → β → Bool}
    {rows : List β} {db : Db} {ch : Change Db RowName}
    (h : (if !decide (rows.map T.name).Nodup ||
        (rows.any fun r => (T.get db).any fun r' => T.name r' = T.name r) then
      (.error ⟨.integrity, "duplicate key value violates unique constraint", none, []⟩ :
        Except ApiError (Change Db RowName))
    else if rows.all (refers db) then .ok (T.insert rows)
    else .error foreignKeyViolation) = .ok ch) :
    (∀ r ∈ rows, refers db r = true) ∧ ch = T.insert rows := by
  split at h
  · cases h
  · split at h
    · rename_i hall
      cases h
      exact ⟨List.all_eq_true.mp hall, rfl⟩
    · cases h

theorem at_insertDraft {d : BookingDraft} (hadds : draftAuthors.makes c = some (d.id, d.userId))
    (hhead : draftAuthors.head c d) (hf : DraftAt c (.emptied d.id) (f ())) :
    DraftAt c (.away seen) ((BookingDraftRepository.insertDraft d).bind f) :=
  .insertHeader hadds hhead (fun _ _ hok => (insertReferring_ok hok).2) hf

theorem at_insertLines {d : UUID} {rows : List BookingDraftLine} (hne : rows ≠ [])
    (hrows : ∀ x ∈ rows, x.bookingDraftId = d) (hbody : draftAuthors.body c = rows)
    (hf : DraftAt c (.written d) (f ())) :
    DraftAt c (.emptied d) ((BookingDraftRepository.insertLines rows).bind f) := by
  have hstmt : BookingDraftRepository.insertLines rows =
      insertReferring draftLineTable BookingDraftLine.refers rows :=
    if_neg (by simp [hne])
  rw [hstmt]
  refine .insertLines hrows hbody (fun db ch hok => ?_) hf
  obtain ⟨hrefers, hch⟩ := insertReferring_ok hok
  refine ⟨?_, hch⟩
  obtain ⟨x, hx⟩ := List.exists_mem_of_ne_nil _ hne
  have hdraft := (Bool.and_eq_true _ _ ▸ hrefers x hx).1
  obtain ⟨y, hy, hid⟩ := List.any_eq_true.mp hdraft
  refine List.ne_nil_of_mem (a := y) (Documents.mem_headersOf.mpr ⟨hy, ?_⟩)
  exact (of_decide_eq_true hid).trans (hrows x hx)

theorem at_updateHeader {d w : UUID} {title : BookingTitle} {date : Int} {ministryId : Option UUID}
    (hadds : draftAuthors.makes c = none) (hseen : seen d w)
    (hhead : ∀ h, h.userId = w →
      draftAuthors.head c (BookingDraftRepository.headerValues title date ministryId h))
    (hf : DraftAt c (.amid d) (f ())) : DraftAt c (.away seen)
      ((BookingDraftRepository.updateHeader d title date ministryId).bind f) := by
  refine .updateHeader (D := draftDocuments)
    (g := BookingDraftRepository.headerValues title date ministryId) (fun _ => rfl) (fun _ => rfl)
    (fun _ => rfl) hadds hseen (fun h _ hw => hhead h hw) (fun db ch hok => ?_) hf
  split at hok
  · cases hok
  · cases hok
    rfl

theorem at_deleteLines {d : UUID} (hf : DraftAt c (.emptied d) (f ())) : DraftAt c (.amid d)
    ((deleteFrom draftLineTable fun l => l.bookingDraftId = d).bind f) :=
  .deleteLines (D := draftDocuments) (fun _ _ hok => by cases hok; rfl) hf

/-- `delete_draft`, of a Draft that was seen. -/
theorem at_deleteDraft {d w : UUID} (hseen : seen d w) (hf : DraftAt c .scrapped (f ())) :
    DraftAt c (.away seen) ((BookingDraftRepository.deleteDraft d).bind f) := by
  rw [BookingDraftRepository.deleteDraft, bind_eq, bind_bind]
  refine .scrapLines (D := draftDocuments) (q := fun e _ => decide (e = d) = true)
    (Q := fun _ e => e = d) (fun db e he => ?_) (fun db ch hok => ?_) ?_
  · obtain rfl := of_decide_eq_true he
    exact ⟨w, .inl hseen, decide_eq_true rfl⟩
  · cases hok
    rfl
  · exact .dropHeaders (D := draftDocuments) (P := fun e _ => e = d)
      (fun _ _ hok => by cases hok; rfl) hf

theorem at_deleteAllForUser {userId : UUID} (hf : DraftAt c .scrapped (f ())) :
    DraftAt c (.away seen) ((BookingDraftRepository.deleteAllForUser userId).bind f) := by
  rw [BookingDraftRepository.deleteAllForUser, bind_eq, bind_bind]
  refine .scrapLines (D := draftDocuments) (q := fun _ w => decide (w = userId) = true)
    (Q := fun db e => BookingDraftRepository.ownedDraftIds db userId e) (fun db e he => ?_)
    (fun db ch hok => ?_) ?_
  · obtain ⟨h, hh, howned⟩ := List.any_eq_true.mp he
    rw [Bool.and_eq_true] at howned
    obtain ⟨huser, hid⟩ := howned
    refine ⟨userId, .inr ⟨h, Documents.mem_headersOf.mpr ⟨hh, of_decide_eq_true hid⟩, ?_⟩,
      decide_eq_true rfl⟩
    exact of_decide_eq_true huser
  · cases hok
    rfl
  · exact .dropHeaders (D := draftDocuments) (P := fun _ w => w = userId)
      (fun _ _ hok => by cases hok; rfl) hf

/-- What is read of a Draft is what is seen of it. -/
theorem at_getDetail {d : UUID} {f : Option BookingDraftDetail → Portal α}
    (hnone : ∀ seen, DraftAt c (.away seen) (f none))
    (hf : ∀ (row : BookingDraftDetail) (seen : UUID → UUID → Prop), seen d row.draft.userId →
      DraftAt c (.away seen) (f (some row))) :
    DraftAt c (.away seen) ((BookingDraftRepository.getDetail d).bind f) := by
  refine Documents.At.see fun db t => ?_
  cases hfind : db.drafts.find? fun r => decide (r.id = d) with
  | none => exact hnone _
  | some draft =>
    have hmem := List.mem_of_find?_eq_some hfind
    have hid : draft.id = d := by simpa using List.find?_some hfind
    refine Documents.At.read fun lines => hf ⟨draft, lines⟩ _ (.inr ⟨draft, ?_, rfl⟩)
    exact Documents.mem_headersOf.mpr ⟨hmem, hid⟩

/-! ### 1.2 Methods -/

variable (app : App) (r : Request) (ids : DraftUuids)

theorem at_resolveAndValidateLines {stage : Documents.Stage UUID UUID}
    {lines : List BookingDraftLineCommand} {f : ValidDraftLines lines → Portal α}
    (hf : ∀ v, DraftAt c stage (f v)) :
    DraftAt c stage ((BookingDraftService.resolveAndValidateLines app lines).bind f) :=
  .checked (BookingDraftService.resolveAndValidateLines_readOnly app lines) hf

theorem draftLineRows_ne_nil {id : Nat → UUID} {d : UUID} {lines : List BookingDraftLineCommand}
    (v : ValidDraftLines lines) : draftLineRows id d lines v.end_after_start ≠ [] := by
  intro hnil
  have hlines := @draftLineRows_command id d lines v.end_after_start
  rw [hnil] at hlines
  exact v.nonempty hlines.symm

theorem createDraft_at (command : BookingDraftCommand) :
    DraftAt (.inr ⟨r, ids, .createDraft command⟩) (.away seen)
      (discard (BookingDraftService.createDraft app r ids command)) := by
  unfold discard BookingDraftService.createDraft authenticatedUser
  cases hoperator : r.operatorId with
  | none => exact .raise _
  | some userId =>
    simp only [bind_eq, bind_bind]
    refine at_resolveAndValidateLines app fun v => ?_
    refine at_insertDraft (congrArg (Option.map fun u => (ids.draft, u)) hoperator)
      ⟨_, _, rfl, rfl, hoperator, rfl, rfl, v, rfl⟩ ?_
    refine at_insertLines (draftLineRows_ne_nil v) (draftLineRows_parent v.end_after_start)
      (commandRows_eq v) ?_
    exact .done _ rfl

theorem at_getOwnedDraftOr404 {d userId : UUID} {f : BookingDraftDetail → Portal α}
    (hf : ∀ row seen, seen d userId → DraftAt c (.away seen) (f row)) :
    DraftAt c (.away seen) ((BookingDraftService.getOwnedDraftOr404 d userId).bind f) := by
  unfold BookingDraftService.getOwnedDraftOr404
  simp only [bind_eq, bind_bind]
  refine at_getDetail (fun _ => .raise _) fun row seen hseen => ?_
  by_cases howner : row.draft.userId = userId
  · subst howner
    simp only [ne_eq, not_true_eq_false, decide_false, raiseIf]
    exact hf row seen hseen
  · simp only [ne_eq, howner, not_false_eq_true, decide_true, raiseIf]
    exact .raise _

theorem updateDraft_at (d : UUID) (command : BookingDraftCommand) :
    DraftAt (.inr ⟨r, ids, .updateDraft d command⟩) (.away seen)
      (discard (BookingDraftService.updateDraft app r ids d command)) := by
  unfold discard BookingDraftService.updateDraft authenticatedUser
  cases hoperator : r.operatorId with
  | none => exact .raise _
  | some userId =>
    simp only [bind_eq, bind_bind]
    refine at_getOwnedDraftOr404 fun row seen hseen => ?_
    refine at_resolveAndValidateLines app fun v => ?_
    refine at_updateHeader rfl hseen (fun h howner => ?_) ?_
    · exact ⟨_, _, rfl, rfl, hoperator.trans (congrArg some howner.symm), rfl, rfl, v, rfl⟩
    unfold BookingDraftRepository.replaceLines
    simp only [bind_eq, bind_bind]
    refine at_deleteLines ?_
    refine at_insertLines (draftLineRows_ne_nil v) (draftLineRows_parent v.end_after_start)
      (commandRows_eq v) ?_
    refine .checked (BookingDraftService.getDraft_readOnly app r d) fun _ => ?_
    exact .done _ rfl

theorem DraftCall.body_at (call : DraftCall) :
    DraftAt (.inr call) (.away fun _ _ => False) (call.body app) := by
  obtain ⟨r, ids, operation⟩ := call
  cases operation with
  | createDraft command => exact createDraft_at app r ids command
  | updateDraft d command => exact updateDraft_at app r ids d command
  | getDraft d =>
    exact .checked (BookingDraftService.getDraft_readOnly app r d) fun _ => .ret _ rfl
  | deleteAllMyDrafts =>
    refine .checked (BookingService.authenticatedUser_readOnly r) fun userId => ?_
    rw [← bind_ret (BookingDraftRepository.deleteAllForUser userId)]
    exact at_deleteAllForUser (.gone _ rfl)


/-! ### 1.3 The confirmation of a Draft -/

/-- A Draft that was read under an id is one that was seen. -/
def SeenBy (bookingDraftId : Option UUID) (draft : Option BookingDraftDetail)
    (seen : UUID → UUID → Prop) : Prop :=
  ∀ row, draft = some row → ∃ d, bookingDraftId = some d ∧ seen d row.draft.userId

theorem at_draftOf {bookingDraftId : Option UUID} {f : Option BookingDraftDetail → Portal α}
    (hf : ∀ draft seen, SeenBy bookingDraftId draft seen → DraftAt c (.away seen) (f draft)) :
    DraftAt c (.away seen) ((BookingService.draftOf bookingDraftId).bind f) := by
  cases bookingDraftId with
  | none => exact hf none seen fun row hrow => by cases hrow
  | some d =>
    refine at_getDetail (fun seen => hf none seen fun row hrow => by cases hrow)
      fun row seen hseen => hf (some row) seen fun row' hrow => ?_
    cases hrow
    exact ⟨d, rfl, hseen⟩

theorem at_prepareBooking {command : CreateBookingCommand} {f : BookingService.Proposal → Portal α}
    (hf : ∀ p seen, SeenBy command.bookingDraftId p.draft seen → DraftAt c (.away seen) (f p)) :
    DraftAt c (.away seen) ((BookingService.prepareBooking app r command).bind f) := by
  unfold BookingService.prepareBooking
  simp only [bind_eq, bind_bind]
  refine .checked (ReadOnly.raiseIf _ _) fun _ => ?_
  refine .checked (BookingService.authenticatedUser_readOnly r) fun operatorId => ?_
  refine .checked (BookingService.validateMinistryBookingGate_readOnly _ _) fun _ => ?_
  refine at_draftOf fun draft seen hseen => ?_
  refine .checked (BookingService.requireTitle_readOnly _ _ _) fun title => ?_
  refine .checked (BookingService.raiseIfTooManyBookingLines_readOnly _) fun _ => ?_
  refine .checked (SettingService.getFacilityTimezone_readOnly app) fun localTz => ?_
  exact .checked (ReadOnly.ofExcept _) fun _ => hf _ seen hseen

theorem spares_displaceTargets (uuids : Uuids) (p : BookingService.Proposal)
    (review : BookingService.Review) :
    Keeps draftDocuments.untouched (BookingService.displaceTargets uuids p review) := by
  unfold BookingService.displaceTargets
  split
  · exact spares_onTables.applyWholeBookingOverrides _ _ _
  · trivial

theorem createBooking_at (command : CreateBookingCommand) (hc : draftAuthors.writes c = none) :
    DraftAt c (.away seen) (discard (BookingService.createBooking app r command)) := by
  unfold discard BookingService.createBooking
  simp only [bind_eq, bind_bind]
  refine at_prepareBooking app r fun p seen hseen => ?_
  refine .beside (spares_lockRooms _) fun _ => ?_
  refine .checked (BookingService.reviewBooking_readOnly app command p) fun review => ?_
  refine .beside (spares_onTables.insertWithLines _ _ _) fun _ => ?_
  refine .beside (spares_displaceTargets _ _ _) fun _ => ?_
  unfold BookingService.deleteOwnedDraft
  split
  · exact .ret _ hc
  · rename_i d hd
    split
    · rename_i howned
      obtain ⟨row, hrow⟩ := Option.isSome_iff_exists.mp howned
      obtain ⟨d', hd', hmem⟩ := hseen row (Option.eq_some_of_filter_eq_some hrow)
      obtain rfl := Option.some.inj (hd.symm.trans hd')
      exact at_deleteDraft hmem (.gone _ hc)
    · exact .ret _ hc

/-- **A call on Bookings** writes no Draft, and throws away only one that it has seen. -/
theorem Call.body_at (call : Call) :
    DraftAt (.inl call) (.away fun _ _ => False) (call.body app) := by
  have hspares : ∀ {p : Portal Unit}, Keeps draftDocuments.untouched p →
      DraftAt (.inl call) (.away fun _ _ => False) p := by
    intro p hp
    rw [← bind_ret p]
    exact .beside hp fun _ => .ret _ rfl
  cases hc : call.isCreation with
  | false => exact hspares ((spares_onTables.ofStatements call).body app hc)
  | true =>
    obtain ⟨r, operation⟩ := call
    cases operation with
    | createBooking command => exact createBooking_at app r command rfl
    | createSeries command =>
      exact hspares (Keeps.compositional.discard (spares_createSeries app r command))
    | _ => cases hc

end Calls

/-! ## 2. Every run -/

abbrev DraftSys := Sys Db RowName LockKey ApiError (Call ⊕ DraftCall)

theorem draftsBody_at (app : App) (c : Call ⊕ DraftCall) :
    DraftAt c (.away fun _ _ => False) (draftsBody app c) := by
  cases c with
  | inl call => exact call.body_at app
  | inr call => exact call.body_at app

/-- **A Draft as one call wrote it**, the last of its owner's to commit, or as it was at the start:
its only header, and its lines in their order. -/
structure StoredWhole (db₀ : Db) (s : DraftSys) (d : BookingDraft) : Prop where
  single : draftDocuments.headersOf s.db d.id = [d]
  owner : draftDocuments.Born draftAuthors db₀ s.finished d.id d.userId
  written : (Documents.lastWriter draftAuthors s.finished d.id = none ∧ d ∈ db₀.drafts ∧
      draftDocuments.linesOf s.db d.id = draftDocuments.linesOf db₀ d.id) ∨
    ∃ f call command, Documents.lastWriter draftAuthors s.finished d.id = some f ∧
      f.label = .inr call ∧ call.written = some (d.id, command) ∧
      call.request.operatorId = some d.userId ∧ d.Says command ∧
      (draftDocuments.linesOf s.db d.id).map BookingDraftLine.command = command.lines

/-- **Every Draft is stored whole**, in every run of every interleaving: never the title and the day
of one update with the lines of another, nor a part of either. -/
theorem draft_storedWhole {app : App} {db₀ : Db} {t : Int} {s : DraftSys} {d : BookingDraft}
    (hdb : draftDocuments.Consistent db₀)
    (hrun : Run (draftsBody app) (draftDocuments.DrawsAnew draftAuthors db₀) (Sys.idle db₀ t) s)
    (hd : d ∈ s.db.drafts) : StoredWhole db₀ s d := by
  have hkept := Documents.Kept.run hdb (draftsBody_at app) hrun
  have hmem : d ∈ draftDocuments.headersOf s.db d.id := Documents.mem_headersOf_self hd
  have hsingle : draftDocuments.headersOf s.db d.id = [d] := by
    obtain ⟨h, hh⟩ := (hkept.sound.single d.id).resolve_left (List.ne_nil_of_mem hmem)
    rw [hh, List.mem_singleton] at hmem
    rw [hh, hmem]
  refine ⟨hsingle, hkept.sound.present (Documents.present_self hd), ?_⟩
  have hstored := (hkept.stored d.id).resolve_left (List.ne_nil_of_mem hmem)
  unfold Documents.AsWritten at hstored
  cases hlast : Documents.lastWriter draftAuthors s.finished d.id with
  | none =>
    rw [hlast] at hstored
    refine .inl ⟨rfl, ?_, hstored.2⟩
    exact (Documents.mem_headersOf.mp (hstored.1 ▸ hmem)).1
  | some f =>
    rw [hlast] at hstored
    obtain ⟨h, hh, ⟨call, ⟨d', command⟩, hcall, hwritten, hoperator, hsays⟩, hlines⟩ := hstored
    rw [hsingle, List.singleton_inj] at hh
    subst hh
    obtain ⟨label, began, ended⟩ := f
    cases label with
    | inl call => cases hcall
    | inr call =>
      cases hcall
      have hwrites := (Documents.writes_of_lastWriter hlast).2
      have hid : d' = d.id := by
        have hfst : call.written.map Prod.fst = some d.id := hwrites
        rw [hwritten] at hfst
        exact Option.some.inj hfst
      subst hid
      refine .inr ⟨_, call, command, rfl, rfl, hwritten, hoperator, hsays, ?_⟩
      obtain ⟨v, -⟩ := hsays.date
      have hbody : draftAuthors.body (.inr call) =
          commandRows call.ids.line d.id command.lines := by
        show (call.written.map _).getD [] = _
        rw [hwritten]
        rfl
      rw [hlines, hbody, commandRows_eq v]
      exact draftLineRows_command v.end_after_start

/-- **A Draft that was deleted or confirmed never comes back**, not even by an update that had read
it before. -/
theorem draft_stays_gone {app : App} {db₀ : Db} {t : Int} {s s' : DraftSys} {id userId : UUID}
    (hdb : draftDocuments.Consistent db₀)
    (hrun : Run (draftsBody app) (draftDocuments.DrawsAnew draftAuthors db₀) (Sys.idle db₀ t) s)
    (hborn : draftDocuments.Born draftAuthors db₀ s.finished id userId)
    (hgone : ∀ d ∈ s.db.drafts, d.id ≠ id)
    (hlater : Run (draftsBody app) (draftDocuments.DrawsAnew draftAuthors db₀) s s') :
    ∀ d ∈ s'.db.drafts, d.id ≠ id := by
  have hkept := Documents.Kept.run hdb (draftsBody_at app) hrun
  have hnil : draftDocuments.headersOf s.db id = [] :=
    List.filter_eq_nil_iff.mpr fun d hd hid => hgone d hd (of_decide_eq_true hid)
  have hdead := hkept.dead_run (draftsBody_at app) ⟨⟨userId, hborn⟩, hnil⟩ hlater
  intro d hd hid
  have hmem := Documents.mem_headersOf_self (D := draftDocuments) hd
  rw [show draftDocuments.idOf d = id from hid, hdead.2] at hmem
  cases hmem

/-! ### 2.1 Two updates at once, and a deletion under an update -/

/-- That room for an hour at noon of a day, as a Draft. -/
def draftNoon (day : Int) : BookingDraftCommand where
  title := ⟨"choir", choir_length⟩
  lines := [⟨3, WallClock.combine day .noon, WallClock.combine day .noon + hourMicros, 0⟩]

/-- A call of user 7, who draws identifiers from `n` on. -/
def draftRequest (n : UUID) (operation : DraftOperation) : Call ⊕ DraftCall :=
  .inr ⟨.numbered 7 n, ⟨n, fun i => n + 1 + i⟩, operation⟩

def draftStatements (i n : Nat) : List (Action (Call ⊕ DraftCall)) :=
  List.replicate n (.statement i)

/-- User 7 has a Draft for day 7. -/
def draftedNoon : List (Action (Call ⊕ DraftCall)) :=
  [.begin (draftRequest 900 (.createDraft (draftNoon 7))), .start 0] ++ draftStatements 0 4 ++
    [.commit 0]

/-- Two updates: the second has read the Draft and waits for its header, which the first has
written; it goes on when the first has committed. -/
def updatedTwice : List (Action (Call ⊕ DraftCall)) :=
  draftedNoon ++ [.begin (draftRequest 910 (.updateDraft 900 (draftNoon 8))),
      .begin (draftRequest 920 (.updateDraft 900 (draftNoon 9))), .start 0, .start 1] ++
    draftStatements 0 5 ++ draftStatements 1 5 ++ draftStatements 0 13 ++ [.commit 0] ++
    draftStatements 0 14 ++ [.commit 0]

theorem oneRoom_consistent : draftDocuments.Consistent Db.oneRoom where
  ids := List.nodup_nil
  lines x hx := by cases hx

theorem draft_storedWhole_updatedTwice : ∃ (s : DraftSys) (d : BookingDraft),
    Run (draftsBody .utc) (draftDocuments.DrawsAnew draftAuthors Db.oneRoom)
        (Sys.idle Db.oneRoom 0) s ∧
      d ∈ s.db.drafts ∧ d.date = 9 ∧ StoredWhole Db.oneRoom s d := by
  have hreplay : (replay (draftsBody .utc) (draftDocuments.drawsAnew draftAuthors Db.oneRoom)
      (Sys.idle Db.oneRoom 0) updatedTwice).map (fun s => s.db.drafts.map BookingDraft.date) =
        some [9] := by decide +kernel
  obtain ⟨s, hs, hdates⟩ := Option.map_eq_some_iff.mp hreplay
  have hrun := run_of_replay (fun _ _ => Documents.drawsAnew_of_check) .refl hs
  obtain ⟨d, hd, hdate⟩ := List.mem_map.mp (hdates ▸ List.mem_singleton_self (9 : Int))
  exact ⟨s, d, hrun, hd, hdate, draft_storedWhole oneRoom_consistent hrun hd⟩

/-- An update has read the Draft when all the Drafts of the user are deleted. -/
def deletedMeanwhile : List (Action (Call ⊕ DraftCall)) :=
  draftedNoon ++ [.begin (draftRequest 910 (.updateDraft 900 (draftNoon 8))), .start 0] ++
    draftStatements 0 4 ++ [.begin (draftRequest 920 .deleteAllMyDrafts), .start 1] ++
    draftStatements 1 2 ++ [.commit 1]

/-- It goes on, and is refused at its third write. -/
def updatedAfterwards : List (Action (Call ⊕ DraftCall)) := draftStatements 0 3 ++ [.rollback 0]

theorem draft_stays_gone_deletedMeanwhile : ∃ s s' : DraftSys,
    Run (draftsBody .utc) (draftDocuments.DrawsAnew draftAuthors Db.oneRoom) s s' ∧
      s.txs.length = 1 ∧ s'.txs = [] ∧ ∀ d ∈ s'.db.drafts, d.id ≠ 900 := by
  have hreplay : (replay (draftsBody .utc) (draftDocuments.drawsAnew draftAuthors Db.oneRoom)
      (Sys.idle Db.oneRoom 0) deletedMeanwhile).map (fun s => (s.db.drafts.map BookingDraft.id,
        s.txs.length, s.finished.map fun f => draftAuthors.makes f.label)) =
          some ([], 1, [some (900, 7), none]) := by decide +kernel
  have hlater : ((replay (draftsBody .utc) (draftDocuments.drawsAnew draftAuthors Db.oneRoom)
      (Sys.idle Db.oneRoom 0) deletedMeanwhile).bind fun s => (replay (draftsBody .utc)
        (draftDocuments.drawsAnew draftAuthors Db.oneRoom) s updatedAfterwards).map
          fun s => s.txs.length) = some 0 := by decide +kernel
  obtain ⟨s, hs, heval⟩ := Option.map_eq_some_iff.mp hreplay
  rw [hs, Option.bind_some] at hlater
  obtain ⟨s', hs', hempty⟩ := Option.map_eq_some_iff.mp hlater
  simp only [Prod.mk.injEq] at heval
  obtain ⟨hdrafts, hopen, hfinished⟩ := heval
  have hrun := run_of_replay (fun _ _ => Documents.drawsAnew_of_check) .refl hs
  have hgoes := run_of_replay (fun _ _ => Documents.drawsAnew_of_check) .refl hs'
  have hmade : some (900, 7) ∈ s.finished.map fun f => draftAuthors.makes f.label := by
    rw [hfinished]
    exact List.mem_cons_self
  obtain ⟨f, hf, hmakes⟩ := List.mem_map.mp hmade
  have hgone : ∀ d ∈ s.db.drafts, d.id ≠ 900 := by
    rw [List.map_eq_nil_iff.mp hdrafts]
    rintro d ⟨⟩
  exact ⟨s, s', hgoes, hopen, List.length_eq_zero_iff.mp hempty,
    draft_stays_gone oneRoom_consistent hrun (.inr ⟨f, hf, hmakes⟩) hgone hgoes⟩

end NewlifeCore
