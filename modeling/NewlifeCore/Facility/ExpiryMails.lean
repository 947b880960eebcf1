import NewlifeCore.Facility.ExpiryJob
import NewlifeCore.Facility.Calls
import NewlifeCore.Facility.Moves

/-!
# Expiry mail and committed expiries

Runs of the expiry job, sweep after sweep, each with its own failures.  The mail about a Series
leaves while the transaction that closes it is still open, so it is only as good as that
transaction: when the sweep gives the transaction up after a mail, the mail stands for an expiry
that never happened, and the next sweep sends it again.  Sweeps that do not do so keep mail and
database in step.

* §2 is the invariant.  `MailInStep` says of each Series that its Booker was told at most once, and
  only if it is closed in the committed database; `SweepInv` says the same of a sweep under way,
  with what it *will* commit in the place of the database, or that it has been given up before any
  mail.
* §3, the turn of one Series: it is closed (`markExpired_keeps`), and then told
  (`notifyBooker_keeps`), where a failure of the mail is swallowed and a failure of a statement ends
  the sweep.
* §4, a sweep: the loop over what it lists, each pending Series once, and the commit
  (`commit_keeps`), which turns what will be committed into what is.
* §5, sweep after sweep: `Outbox.after_inStep` by induction on the sweeps.  A Series that is closed
  is never listed again, which is why the second sweep sends nothing about it.
-/

namespace NewlifeCore

open Txn

/-! ## 1. What a sweep may do to a Series -/

/-- A Series row that a sweep left alone or closed. -/
structure SweptSeries (s s' : BookingSeries) : Prop where
  id : s'.id = s.id
  isDeleted : s'.isDeleted = s.isDeleted
  status : s'.status = s.status ∨ s'.status = .cancelled

/-- The rows of the Series, some of them closed. -/
def Expires (db db' : Db) : Prop :=
  ∃ f, (∀ s, SweptSeries s (f s)) ∧ db'.series = db.series.map f

/-- The primary key of the Series. -/
def Db.SeriesKeyed (db : Db) : Prop := (db.series.map BookingSeries.id).Nodup

def Db.SeriesCancelled (db : Db) (seriesId : UUID) : Prop :=
  ∃ s ∈ db.series, s.id = seriesId ∧ s.status = .cancelled

theorem SweptSeries.refl (s : BookingSeries) : SweptSeries s s := ⟨rfl, rfl, .inl rfl⟩

theorem SweptSeries.trans {s₁ s₂ s₃ : BookingSeries} (h₁ : SweptSeries s₁ s₂)
    (h₂ : SweptSeries s₂ s₃) : SweptSeries s₁ s₃ where
  id := h₂.id.trans h₁.id
  isDeleted := h₂.isDeleted.trans h₁.isDeleted
  status := by
    rcases h₂.status with h | h
    · exact h₁.status.imp h.trans h.trans
    · exact .inr h

namespace Expires

variable {db db₁ db₂ db₃ : Db}

theorem of_eq (h : db₂.series = db₁.series) : Expires db₁ db₂ :=
  ⟨fun s => s, SweptSeries.refl, by rw [h, List.map_id']⟩

theorem refl (db : Db) : Expires db db := of_eq rfl

theorem trans (h₁ : Expires db₁ db₂) (h₂ : Expires db₂ db₃) : Expires db₁ db₃ := by
  obtain ⟨f, hf, h₁⟩ := h₁
  obtain ⟨g, hg, h₂⟩ := h₂
  exact ⟨fun s => g (f s), fun s => (hf s).trans (hg (f s)), by rw [h₂, h₁, List.map_map]; rfl⟩

theorem mem (h : Expires db₁ db₂) {s : BookingSeries} (hs : s ∈ db₁.series) :
    ∃ s' ∈ db₂.series, SweptSeries s s' := by
  obtain ⟨f, hf, h⟩ := h
  exact ⟨f s, by rw [h]; exact List.mem_map_of_mem hs, hf s⟩

theorem ids (h : Expires db₁ db₂) :
    db₂.series.map BookingSeries.id = db₁.series.map BookingSeries.id := by
  obtain ⟨f, hf, h⟩ := h
  rw [h, List.map_map]
  exact List.map_congr_left fun s _ => (hf s).id

/-- A closed Series stays closed. -/
theorem cancelled (h : Expires db₁ db₂) {id : UUID} (hc : db₁.SeriesCancelled id) :
    db₂.SeriesCancelled id := by
  obtain ⟨s, hs, hid, hst⟩ := hc
  obtain ⟨s', hs', hk⟩ := h.mem hs
  exact ⟨s', hs', hk.id.trans hid, hk.status.elim (fun h => h.trans hst) fun h => h⟩

end Expires

/-- The row that `markExpired` writes. -/
def expiredRow (seriesId : UUID) (s : BookingSeries) : BookingSeries :=
  if s.id = seriesId && !s.isDeleted then { s with status := .cancelled } else s

theorem expiredRow_swept (seriesId : UUID) (s : BookingSeries) :
    SweptSeries s (expiredRow seriesId s) := by
  unfold expiredRow
  split
  · exact ⟨rfl, rfl, .inr rfl⟩
  · exact SweptSeries.refl s

/-- What `markExpired` writes, where it is issued. -/
theorem markExpired_applied (seriesId : UUID) (db : Db)
    (hf : ∀ s : BookingSeries, seriesTable.name { s with status := .cancelled } = seriesTable.name s) :
    ((seriesTable.update (fun s => s.id = seriesId && !s.isDeleted)
      (fun s => { s with status := .cancelled }) hf db).apply db).series =
        db.series.map (expiredRow seriesId) :=
  congrArg Db.series (Table.update_self seriesTable)

theorem cancelOccurrences_writes (ids : List UUID) (byId : Option UUID) (reason : Option String) :
    (RecurringBookingService.cancelOccurrences ids byId reason).Writes Expires := by
  refine Prog.Writes.each (fun id => ?_) ids
  refine Prog.Writes.bind (fun now => ?_) (Prog.Writes.readOnly .now)
  refine Prog.Writes.bind (fun _ => ?_) (Prog.Writes.execute fun db c h => ?_)
  · exact Prog.Writes.execute fun db c h => by cases h; exact Expires.of_eq rfl
  · cases h
    exact Expires.of_eq rfl

/-! ## 2. Mail and database in step -/

/-- The mail about one Series. -/
def mailAbout (seriesId : UUID) (sent : List ExpiryMail) : List ExpiryMail :=
  sent.filter fun m => m.seriesId = seriesId

/-- Mail that is one delivery, or the part of it that got out. -/
def OneDelivery (mail : ExpiryMailService) (ms : List ExpiryMail) : Prop :=
  ∃ booker, ms.map ExpiryMail.toEmail <+: (resolveMailDeliveryTargets booker mail.overrideRecipients).1

/-- **Mail and database in step**: the Booker of a Series was told at most once, and only if the
Series is closed in the committed database. -/
structure MailInStep (mail : ExpiryMailService) (db : Db) (sent : List ExpiryMail) : Prop where
  once : ∀ seriesId, OneDelivery mail (mailAbout seriesId sent)
  committed : ∀ m ∈ sent, db.SeriesCancelled m.seriesId

theorem mailAbout_append (seriesId : UUID) (xs ys : List ExpiryMail) :
    mailAbout seriesId (xs ++ ys) = mailAbout seriesId xs ++ mailAbout seriesId ys :=
  List.filter_append ..

theorem oneDelivery_nil (mail : ExpiryMailService) : OneDelivery mail [] := ⟨"", List.nil_prefix⟩

/-- Where nothing is redirected, one delivery is one mail. -/
theorem length_targets_plain (booker : String) :
    (resolveMailDeliveryTargets booker []).1.length ≤ 1 := by
  unfold resolveMailDeliveryTargets
  by_cases h : strip booker = ""
  · simp [h]
  · simp [h]

theorem MailInStep.empty (mail : ExpiryMailService) (db : Db) : MailInStep mail db [] where
  once _ := oneDelivery_nil mail
  committed _ h := nomatch h

section Sweep

variable (mail : ExpiryMailService) (db₀ : Db) (sent₀ : List ExpiryMail)

/-- A sweep under way, from `db₀` and `sent₀`, past the Series in `done`: what it will commit is in
step with the mail, and where it has sent nothing there is no new mail. -/
structure SweepGood (done : List UUID) (s : Connection Db ExpiryMail) : Prop where
  db : s.db = db₀
  expires : Expires db₀ s.seen
  inStep : MailInStep mail s.seen s.sent
  of : ∀ m ∈ s.sent, m ∈ sent₀ ∨ m.seriesId ∈ done
  quiet : s.sending = false → s.sent = sent₀

/-- The same as long as the transaction was not given up after a mail. -/
def SweepInv (done : List UUID) (s : Connection Db ExpiryMail) : Prop :=
  s.late = false → SweepGood mail db₀ sent₀ done s

variable {mail db₀ sent₀} {done : List UUID} {s : Connection Db ExpiryMail}

theorem SweepInv.abort (h₀ : MailInStep mail db₀ sent₀) (h : SweepInv mail db₀ sent₀ done s) :
    SweepInv mail db₀ sent₀ done s.abort := by
  intro hlate
  obtain ⟨hl, hs⟩ : s.late = false ∧ s.sending = false := by
    simpa [Connection.abort, Connection.called] using hlate
  have hg := h hl
  have hsent : s.abort.sent = sent₀ := hg.quiet hs
  exact {
    db := hg.db
    expires := by rw [Connection.abort_seen, hg.db]; exact .refl _
    inStep := by rw [Connection.abort_seen, hg.db, hsent]; exact h₀
    of := fun m hm => .inl (hsent ▸ hm)
    quiet := fun _ => hsent }

theorem SweepInv.called (h : SweepInv mail db₀ sent₀ done s) :
    SweepInv mail db₀ sent₀ done s.called := fun hlate =>
  have hg := h hlate
  ⟨hg.db, hg.expires, hg.inStep, hg.of, hg.quiet⟩

theorem SweepInv.write (h : SweepInv mail db₀ sent₀ done s) {d : Db} (hd : Expires s.seen d) :
    SweepInv mail db₀ sent₀ done (s.write d) := fun hlate =>
  have hg := h hlate
  ⟨hg.db, hg.expires.trans hd,
    ⟨hg.inStep.once, fun m hm => hd.cancelled (hg.inStep.committed m hm)⟩, hg.of, hg.quiet⟩

theorem SweepInv.snoc (h : SweepInv mail db₀ sent₀ done s) (x : UUID) :
    SweepInv mail db₀ sent₀ (done ++ [x]) s := fun hlate =>
  have hg := h hlate
  ⟨hg.db, hg.expires, hg.inStep,
    fun m hm => (hg.of m hm).imp_right (List.mem_append_left [x]), hg.quiet⟩

/-- A program that only closes Series. -/
theorem sweepInv_run {α : Type} {p : Portal α} (h₀ : MailInStep mail db₀ sent₀)
    (hp : p.Writes Expires) (done : List UUID) :
    Job.Keeps (SweepInv mail db₀ sent₀ done) (Job.run p) (fun _ => SweepInv mail db₀ sent₀ done)
      (SweepInv mail db₀ sent₀ done) :=
  .run (fun _ h => h) (fun _ h => h.abort h₀) (fun _ h => h.called)
    (fun _ h => h.write (.refl _)) (fun _ _ h hd => h.write hd) hp

/-! ## 3. The turn of one Series -/

/-- The Series `x` is closed in the open transaction, its Booker not told yet. -/
def SweepClosed (mail : ExpiryMailService) (db₀ : Db) (sent₀ : List ExpiryMail) (done : List UUID)
    (x : UUID) (s : Connection Db ExpiryMail) : Prop :=
  SweepInv mail db₀ sent₀ done s ∧ (s.late = false → s.seen.SeriesCancelled x)

/-- The mail about `x` is going out; `told` has it. -/
def SweepTelling (mail : ExpiryMailService) (db₀ : Db) (sent₀ : List ExpiryMail)
    (done : List UUID) (x : UUID) (told : List String) (s : Connection Db ExpiryMail) : Prop :=
  s.late = false → SweepGood mail db₀ sent₀ (done ++ [x]) s ∧ s.seen.SeriesCancelled x ∧
    (mailAbout x s.sent).map ExpiryMail.toEmail = told

variable {x : BookingSeries}

theorem markExpired_keeps (h₀ : MailInStep mail db₀ sent₀) (hx : x ∈ db₀.series)
    (hdel : x.isDeleted = false) (done : List UUID) :
    Job.Keeps (SweepInv mail db₀ sent₀ done) (Job.run (RecurringBookingService.markExpired x.id))
      (fun _ => SweepClosed mail db₀ sent₀ done x.id) (SweepInv mail db₀ sent₀ done) := by
  refine Job.Keeps.execute (fun _ h => h.abort h₀) fun s d h hd => ?_
  cases hd
  have happ := markExpired_applied x.id s.seen fun _ => rfl
  refine ⟨h.write ⟨expiredRow x.id, expiredRow_swept x.id, happ⟩, fun hlate => ?_⟩
  obtain ⟨r, hr, hk⟩ := (h hlate).expires.mem hx
  refine ⟨expiredRow x.id r, ?_, ?_, ?_⟩
  · exact (congrArg (fun rows => expiredRow x.id r ∈ rows) happ).mpr (List.mem_map_of_mem hr)
  · exact (expiredRow_swept x.id r).id.trans hk.id
  · simp [expiredRow, hk.id, hk.isDeleted, hdel]

theorem sweepClosed_run {α : Type} {p : Portal α} (h₀ : MailInStep mail db₀ sent₀)
    (hp : p.Writes Expires) (done : List UUID) (x : UUID) :
    Job.Keeps (SweepClosed mail db₀ sent₀ done x) (Job.run p)
      (fun _ => SweepClosed mail db₀ sent₀ done x) (SweepInv mail db₀ sent₀ done) :=
  .run (fun _ h => h.1) (fun _ h => h.1.abort h₀) (fun _ h => ⟨h.1.called, h.2⟩)
    (fun _ h => ⟨h.1.write (.refl _), h.2⟩)
    (fun _ _ h hd => ⟨h.1.write hd, fun hlate => hd.cancelled (h.2 hlate)⟩) hp

theorem renderBody_keeps (h₀ : MailInStep mail db₀ sent₀) (done : List UUID) (x : UUID)
    (notification : PaymentHoldExpiryNotification) :
    Job.Keeps (SweepClosed mail db₀ sent₀ done x) (mail.renderBody notification)
      (fun _ => SweepClosed mail db₀ sent₀ done x) (SweepInv mail db₀ sent₀ done) :=
  .bind (.mapEach (fun _ => sweepClosed_run h₀ (.readOnly (.select _)) done x) _) fun _ =>
    .port (fun _ h => h.1.called) fun _ _ h => ⟨h.1.called, h.2⟩

/-- Before its turn there is no mail about a Series that is still pending. -/
theorem SweepClosed.telling (h₀ : MailInStep mail db₀ sent₀) (hv : db₀.SeriesKeyed) (hx : x ∈ db₀.series)
    (hst : x.status = .pendingPayment) (hnew : x.id ∉ done)
    (h : SweepClosed mail db₀ sent₀ done x.id s) : SweepTelling mail db₀ sent₀ done x.id [] s := by
  intro hlate
  refine ⟨h.1.snoc x.id hlate, h.2 hlate, ?_⟩
  rw [List.map_eq_nil_iff, mailAbout, List.filter_eq_nil_iff]
  intro m hm hid
  rw [decide_eq_true_eq] at hid
  rcases (h.1 hlate).of m hm with hm₀ | hdone
  · obtain ⟨r, hr, hrid, hrst⟩ := h₀.committed m hm₀
    rw [List.inj_on_of_nodup_map hv hr hx (hrid.trans hid), hst] at hrst
    cases hrst
  · exact hnew (hid ▸ hdone)

/-- Sending to the next recipient of the list. -/
theorem SweepTelling.send {booker : String} {told rest : List String} {m : ExpiryMail}
    (hall : (resolveMailDeliveryTargets booker mail.overrideRecipients).1 = told ++ m.toEmail :: rest)
    (h : SweepTelling mail db₀ sent₀ done m.seriesId told s) :
    SweepTelling mail db₀ sent₀ done m.seriesId (told ++ [m.toEmail]) (s.send m) := by
  intro hlate
  obtain ⟨hg, hc, htold⟩ := h hlate
  have habout : (mailAbout m.seriesId (s.sent ++ [m])).map ExpiryMail.toEmail = told ++ [m.toEmail] := by
    rw [mailAbout_append, List.map_append, htold]
    simp [mailAbout]
  refine ⟨⟨hg.db, hg.expires, ⟨fun id => ?_, fun m' hm' => ?_⟩, fun m' hm' => ?_, nofun⟩, hc, habout⟩
  · show OneDelivery mail (mailAbout id (s.sent ++ [m]))
    by_cases hid : m.seriesId = id
    · subst hid
      refine ⟨booker, ?_⟩
      rw [habout, hall]
      exact ⟨rest, by rw [List.append_assoc, List.singleton_append]⟩
    · rw [mailAbout_append]
      simpa [mailAbout, hid] using hg.inStep.once id
  · rcases List.mem_append.mp hm' with hm' | hm'
    · exact hg.inStep.committed m' hm'
    · rw [List.mem_singleton.mp hm']
      exact hc
  · rcases List.mem_append.mp hm' with hm' | hm'
    · exact hg.of m' hm'
    · exact .inr (by rw [List.mem_singleton.mp hm']; exact List.mem_append_right done List.mem_cons_self)

theorem deliver_keeps {booker : String} {targets : List String}
    (htargets : (resolveMailDeliveryTargets booker mail.overrideRecipients).1 = targets)
    (subject bodyHtml : String) :
    Job.Keeps (SweepTelling mail db₀ sent₀ done x.id [])
      (ExpiryMailService.deliver x.id subject bodyHtml targets)
      (fun _ => SweepInv mail db₀ sent₀ (done ++ [x.id]))
      (SweepInv mail db₀ sent₀ (done ++ [x.id])) := by
  refine (Job.Keeps.each (SweepTelling mail db₀ sent₀ done x.id) _ (fun told email rest hall => ?_) _ []
    rfl).conseq (fun _ h => h) (fun _ _ h hlate => (h hlate).1) fun _ h => h
  refine Job.Keeps.send (fun s h hlate => ?_) fun s h =>
    h.send (htargets.trans hall)
  have hg := (h hlate).1
  exact ⟨hg.db, hg.expires, hg.inStep, hg.of, hg.quiet⟩

theorem notifyBooker_keeps (h₀ : MailInStep mail db₀ sent₀) (hv : db₀.SeriesKeyed) (hx : x ∈ db₀.series)
    (hst : x.status = .pendingPayment) (hnew : x.id ∉ done)
    {notification : PaymentHoldExpiryNotification} (hid : notification.seriesId = x.id) :
    Job.Keeps (SweepClosed mail db₀ sent₀ done x.id) (mail.notifyBooker notification)
      (fun _ => SweepInv mail db₀ sent₀ (done ++ [x.id]))
      (SweepInv mail db₀ sent₀ (done ++ [x.id])) := by
  have hsnoc : ∀ s, SweepInv mail db₀ sent₀ done s → SweepInv mail db₀ sent₀ (done ++ [x.id]) s :=
    fun _ h => h.snoc x.id
  refine .bind ((sweepClosed_run h₀ (.readOnly (ExpiryMailService.activeUserEmail_readOnly _))
    done x.id).conseq (fun _ h => h) (fun _ _ h => h) hsnoc) fun email => ?_
  cases email with
  | none => exact .ret fun s h => hsnoc s h.1
  | some bookerEmail =>
    refine .bind ((renderBody_keeps h₀ done x.id notification).conseq (fun _ h => h)
      (fun _ _ h => h) hsnoc) fun bodyHtml => ?_
    rw [hid]
    -- the recipients by name: none of the rules has to look at how they are found
    generalize htargets : resolveMailDeliveryTargets bookerEmail mail.overrideRecipients = targets
    exact (deliver_keeps (congrArg Prod.fst htargets) _ bodyHtml).conseq
      (fun _ h => h.telling h₀ hv hx hst hnew) (fun _ _ h => h) fun _ h => h

/-- **The turn of one Series** keeps mail and database in step. -/
theorem expireSeries_keeps (h₀ : MailInStep mail db₀ sent₀) (hv : db₀.SeriesKeyed) (hx : x ∈ db₀.series)
    (hdel : x.isDeleted = false) (hst : x.status = .pendingPayment) (hnew : x.id ∉ done) :
    Job.Keeps (SweepInv mail db₀ sent₀ done)
      (PendingPaymentExpiryJob.expireSeries mail (RecurringBookingRepository.formatRow x))
      (fun _ => SweepInv mail db₀ sent₀ (done ++ [x.id]))
      (fun s => ∃ ids, SweepInv mail db₀ sent₀ ids s) := by
  have hE : ∀ s, SweepInv mail db₀ sent₀ done s → ∃ ids, SweepInv mail db₀ sent₀ ids s :=
    fun _ h => ⟨done, h⟩
  refine .bind ((sweepInv_run h₀ (.readOnly
    (RecurringBookingService.listSeriesOccurrences_readOnly _)) done).conseq (fun _ h => h)
    (fun _ _ h => h) hE) fun occurrences => ?_
  refine .bind ((markExpired_keeps h₀ hx hdel done).conseq (fun _ h => h) (fun _ _ h => h) hE)
    fun _ => ?_
  refine .bind ((sweepClosed_run h₀ (cancelOccurrences_writes _ _ _) done x.id).conseq
    (fun _ h => h) (fun _ _ h => h) hE) fun _ => ?_
  have hskip : Job.Keeps (SweepInv mail db₀ sent₀ (done ++ [x.id])) (pure () : PortalJob Unit)
      (fun _ => SweepInv mail db₀ sent₀ (done ++ [x.id]))
      (fun s => ∃ ids, SweepInv mail db₀ sent₀ ids s) := .ret fun _ h => h
  refine Job.Keeps.tryCatch ?_ hskip
  unfold ExpiryMailService.notifyPaymentHoldExpired
  split
  · exact .ret fun s h => h.1.snoc x.id
  · exact .tryCatch (notifyBooker_keeps h₀ hv hx hst hnew rfl) (.ret fun _ h => h)

/-! ## 4. A sweep and its commit -/

/-- The connection before the first Series. -/
structure SweepStart (db₀ : Db) (sent₀ : List ExpiryMail) (s : Connection Db ExpiryMail) : Prop where
  db : s.db = db₀
  seen : s.seen = db₀
  sent : s.sent = sent₀
  sending : s.sending = false
  late : s.late = false

theorem SweepStart.inv (h₀ : MailInStep mail db₀ sent₀) (h : SweepStart db₀ sent₀ s) :
    SweepInv mail db₀ sent₀ [] s := fun _ =>
  { db := h.db
    expires := by rw [h.seen]; exact .refl _
    inStep := by rw [h.seen, h.sent]; exact h₀
    of := fun m hm => .inl (h.sent ▸ hm)
    quiet := fun _ => h.sent }

theorem SweepStart.abort (h : SweepStart db₀ sent₀ s) : SweepStart db₀ sent₀ s.abort where
  db := h.db
  seen := h.db
  sent := h.sent
  sending := h.sending
  late := by show (s.late || s.sending) = false; rw [h.late, h.sending]; rfl

theorem SweepStart.called (h : SweepStart db₀ sent₀ s) : SweepStart db₀ sent₀ s.called :=
  ⟨h.db, h.seen, h.sent, h.sending, h.late⟩

theorem sweepStart_run {α : Type} {p : Portal α} (hp : p.Writes fun _ _ => False) :
    Job.Keeps (SweepStart db₀ sent₀) (Job.run p) (fun _ => SweepStart db₀ sent₀)
      (SweepStart db₀ sent₀) :=
  .run (fun _ h => h) (fun _ h => h.abort) (fun _ h => h.called)
    (fun _ h => ⟨h.db, h.seen, h.sent, h.sending, h.late⟩) (fun _ _ _ h => h.elim) hp

/-- What the sweep lists: pending Series, each once. -/
def ListedPending (db₀ : Db) (expired : List BookingSeries) : Prop :=
  (expired.map BookingSeries.id).Nodup ∧
    ∀ s ∈ expired, ∃ x ∈ db₀.series, x.isDeleted = false ∧ x.status = .pendingPayment ∧
      s = RecurringBookingRepository.formatRow x

theorem listExpired_keeps (hv : db₀.SeriesKeyed) (nowUtc : Int) :
    Job.Keeps (SweepStart db₀ sent₀)
      (Job.run (RecurringBookingRepository.listExpiredPendingSeries nowUtc))
      (fun expired s => SweepStart db₀ sent₀ s ∧ ListedPending db₀ expired)
      (SweepStart db₀ sent₀) := by
  refine Job.Keeps.select (fun _ h => h.abort) fun s _ h => ⟨h.called, ?_⟩
  rw [h.seen]
  constructor
  · rw [List.map_map]
    refine ((List.perm_insertionSort _ _).map BookingSeries.id).nodup_iff.mpr ?_
    exact hv.sublist (List.filter_sublist.map _)
  · intro s hs
    obtain ⟨x, hx, rfl⟩ := List.mem_map.mp hs
    obtain ⟨hx, hp⟩ := List.mem_filter.mp ((List.mem_insertionSort _).mp hx)
    simp only [Bool.and_eq_true, Bool.not_eq_true', decide_eq_true_eq] at hp
    exact ⟨x, hx, hp.1.1, hp.1.2, rfl⟩

theorem expirePendingHolds_keeps (h₀ : MailInStep mail db₀ sent₀) (hv : db₀.SeriesKeyed) :
    Job.Keeps (SweepStart db₀ sent₀) (PendingPaymentExpiryJob.expirePendingHolds mail)
      (fun _ s => ∃ ids, SweepInv mail db₀ sent₀ ids s)
      (fun s => ∃ ids, SweepInv mail db₀ sent₀ ids s) := by
  have hstart : ∀ s, SweepStart db₀ sent₀ s → ∃ ids, SweepInv mail db₀ sent₀ ids s :=
    fun _ h => ⟨[], h.inv h₀⟩
  refine .bind ((sweepStart_run (p := RecurringBookingRepository.tryAcquireSweepLock)
    fun _ => trivial).conseq (fun _ h => h) (fun _ _ h => h) hstart) fun acquired => ?_
  cases acquired with
  | false => exact .ret hstart
  | true =>
    have hnow : Job.Keeps (SweepStart db₀ sent₀)
        (Job.run (Prog.now : Portal Int) : PortalJob Int) (fun _ => SweepStart db₀ sent₀)
        (fun s => ∃ ids, SweepInv mail db₀ sent₀ ids s) :=
      (sweepStart_run (.readOnly .now)).conseq (fun _ h => h) (fun _ _ h => h) hstart
    show Job.Keeps _ ((Job.run (Prog.now : Portal Int)).bind fun nowUtc =>
      (Job.run (RecurringBookingRepository.listExpiredPendingSeries nowUtc)).bind fun expired =>
        Job.each expired (PendingPaymentExpiryJob.expireSeries mail)) _ _
    refine .bind hnow fun nowUtc => ?_
    refine .bind ((listExpired_keeps hv nowUtc).conseq (fun _ h => h) (fun _ _ h => h) hstart)
      fun expired => ?_
    intro c s hs
    obtain ⟨hs, hnodup, hlisted⟩ := hs
    refine ((Job.Keeps.each (fun done => SweepInv mail db₀ sent₀ (done.map BookingSeries.id))
      expired (fun done read rest hall => ?_) expired [] rfl).conseq (fun _ h => h)
        (fun _ _ h => ⟨_, h⟩) fun _ h => h) c s (hs.inv h₀)
    obtain ⟨x, hx, hdel, hst, rfl⟩ := hlisted read (by rw [hall]; simp)
    have hnew : x.id ∉ done.map BookingSeries.id := by
      intro hmem
      rw [hall, List.map_append, List.map_cons] at hnodup
      exact List.disjoint_of_nodup_append hnodup hmem List.mem_cons_self
    exact (expireSeries_keeps h₀ hv hx hdel hst hnew).conseq (fun _ h => h)
      (fun _ _ h => by rwa [List.map_append]) fun _ h => h

/-- The connection once the sweep was committed or given up. -/
def SweepSettled (mail : ExpiryMailService) (db₀ : Db) (s : Connection Db ExpiryMail) : Prop :=
  s.late = false → MailInStep mail s.db s.sent ∧ Expires db₀ s.db

theorem SweepInv.settled (h : SweepInv mail db₀ sent₀ done s) (h₀ : MailInStep mail db₀ sent₀) :
    SweepSettled mail db₀ s.rollback := by
  intro hlate
  obtain ⟨hl, hs⟩ : s.late = false ∧ s.sending = false := by
    simpa [Connection.rollback] using hlate
  have hg := h hl
  have hdb : s.rollback.db = db₀ := hg.db
  have hsent : s.rollback.sent = sent₀ := hg.quiet hs
  rw [hdb, hsent]
  exact ⟨h₀, .refl _⟩

theorem commit_keeps (h₀ : MailInStep mail db₀ sent₀) :
    Job.Keeps (fun s => ∃ ids, SweepInv mail db₀ sent₀ ids s) (Job.commit : PortalJob Unit)
      (fun _ => SweepSettled mail db₀) (fun s => ∃ ids, SweepInv mail db₀ sent₀ ids s) := by
  refine .commit (fun _ ⟨ids, h⟩ => ⟨ids, h.abort h₀⟩) ?_ ?_
  · rintro s ⟨ids, h⟩ htx hlate
    have hseen : s.seen = s.db := by rw [Connection.seen, htx]; rfl
    exact hseen ▸ ⟨(h hlate).inStep, (h hlate).expires⟩
  · rintro s d ⟨ids, h⟩ htx hlate
    have hseen : s.seen = d := by rw [Connection.seen, htx]; rfl
    exact hseen ▸ ⟨(h hlate).inStep, (h hlate).expires⟩

theorem SweepSettled.giveUp (h : SweepSettled mail db₀ s) : SweepSettled mail db₀ s.rollback :=
  fun hlate => h (by simpa [Connection.rollback] using And.left ((Bool.or_eq_false_iff ..).mp hlate))

theorem runOnce_keeps (h₀ : MailInStep mail db₀ sent₀) (hv : db₀.SeriesKeyed) :
    Job.Keeps (SweepStart db₀ sent₀) (PendingPaymentExpiryJob.runOnce mail)
      (fun _ => SweepSettled mail db₀) (SweepSettled mail db₀) := by
  refine .bind (.tryCatch (.bind (expirePendingHolds_keeps h₀ hv) fun _ => commit_keeps h₀)
    (.rollback fun s ⟨ids, h⟩ => h.settled h₀)) fun _ => ?_
  have hrelease : Job.Keeps (SweepSettled mail db₀)
      (Job.run RecurringBookingRepository.releaseSweepLock : PortalJob Unit)
      (fun _ => SweepSettled mail db₀) (SweepSettled mail db₀) :=
    .select (fun s h => h.giveUp) fun s _ h => h
  exact .bind (.tryCatch hrelease (.ret fun _ h => h)) fun _ => .rollback fun _ h => h.giveUp

end Sweep

/-! ## 5. Runs of sweeps -/

/-- What is left between two sweeps. -/
structure Outbox where
  db : Db
  sent : List ExpiryMail := []

namespace Outbox

variable (mail : ExpiryMailService)

/-- The connection as a sweep leaves it. -/
def sweep (w : Outbox) (c : Conditions) : Connection Db ExpiryMail :=
  (PendingPaymentExpiryJob.runOnce mail c { db := w.db, sent := w.sent }).2

def next (w : Outbox) (c : Conditions) : Outbox := ⟨(w.sweep mail c).db, (w.sweep mail c).sent⟩

/-- The outbox after a run of sweeps. -/
def after (w : Outbox) (sweeps : List Conditions) : Outbox := sweeps.foldl (next mail) w

/-- No sweep of the run gave its transaction up between a mail and the commit. -/
def NoLateFailure (w : Outbox) : List Conditions → Prop
  | [] => True
  | c :: sweeps => (w.sweep mail c).late = false ∧ (w.next mail c).NoLateFailure sweeps

variable {mail} {w : Outbox}

theorem sweep_settled (h₀ : MailInStep mail w.db w.sent) (hv : w.db.SeriesKeyed) (c : Conditions) :
    SweepSettled mail w.db (w.sweep mail c) := by
  have h := runOnce_keeps h₀ hv c { db := w.db, sent := w.sent } ⟨rfl, rfl, rfl, rfl, rfl⟩
  unfold sweep
  cases hr : PendingPaymentExpiryJob.runOnce mail c { db := w.db, sent := w.sent } with
  | mk r s' =>
    rw [hr] at h
    cases r with
    | ok u => exact h
    | error e => exact h

end Outbox

/-- A run of sweeps from an outbox in step. -/
theorem Outbox.after_inStep {mail : ExpiryMailService} (sweeps : List Conditions) {w : Outbox}
    (hkeyed : w.db.SeriesKeyed) (hstep : MailInStep mail w.db w.sent)
    (hlate : w.NoLateFailure mail sweeps) :
    MailInStep mail (w.after mail sweeps).db (w.after mail sweeps).sent := by
  induction sweeps generalizing w with
  | nil => exact hstep
  | cons c sweeps ih =>
    obtain ⟨hc, hrest⟩ := hlate
    obtain ⟨hstep', hexp⟩ := Outbox.sweep_settled hstep hkeyed c hc
    have hkeyed' : (w.next mail c).db.SeriesKeyed := by
      show (List.map _ (w.sweep mail c).db.series).Nodup
      rw [hexp.ids]
      exact hkeyed
    exact ih hkeyed' hstep' hrest

/-- **Mail and database stay in step**, sweep after sweep, as long as no sweep gives its
transaction up between a mail and the commit. -/
theorem expiryMail_inStep (mail : ExpiryMailService) (db : Db) (hkeyed : db.SeriesKeyed)
    (sweeps : List Conditions) (hlate : (Outbox.mk db []).NoLateFailure mail sweeps) :
    MailInStep mail ((Outbox.mk db []).after mail sweeps).db
      ((Outbox.mk db []).after mail sweeps).sent :=
  Outbox.after_inStep sweeps hkeyed (.empty mail db) hlate

section Samples

/-- A notifier that mails the Bookers themselves. -/
def plainMail : ExpiryMailService := ⟨true, [], fun _ _ => some "body"⟩

/-- A room let weekly at noon, not paid for. -/
def unpaidWeekly : Db :=
  (RecurringBookingService.createSeries .utc (.numbered 7 100) (bookWeekly 10 17)).after .oneRoom 0

/-- The outbox after sweeps over it. -/
def unpaidSwept (sweeps : List Conditions) : Outbox := (Outbox.mk unpaidWeekly []).after plainMail sweeps

/-- A sweep on day 100 with one call that fails, or none. -/
def sweepFailing (call : Option Nat) : Conditions where
  fails n := call = some n
  clock := 100 * dayMicros

/-- A sweep that fails when it closes the Series, and the one after it, which tells the Booker. -/
def sweptAgain : List Conditions := [sweepFailing (some 3), sweepFailing none]

theorem expiryMail_inStep_unpaid :
    (unpaidSwept [sweepFailing (some 3)]).sent = [] ∧
      (unpaidSwept sweptAgain).sent.map ExpiryMail.seriesId = [100] ∧
      MailInStep plainMail (unpaidSwept sweptAgain).db (unpaidSwept sweptAgain).sent := by
  have hkeyed : unpaidWeekly.SeriesKeyed := by unfold Db.SeriesKeyed; decide +kernel
  have hlate : (Outbox.mk unpaidWeekly []).NoLateFailure plainMail sweptAgain :=
    ⟨by decide +kernel, by decide +kernel, trivial⟩
  exact ⟨by decide +kernel, by decide +kernel, expiryMail_inStep _ _ hkeyed _ hlate⟩

/-- **The commit of a sweep fails after its mail went out**: the Booker was told of an expiry that
never happened, and the next sweep tells it again. -/
theorem expiryMail_not_inStep :
    ¬ MailInStep plainMail (unpaidSwept [sweepFailing (some 13)]).db
        (unpaidSwept [sweepFailing (some 13)]).sent ∧
      ¬ MailInStep plainMail (unpaidSwept [sweepFailing (some 13), sweepFailing none]).db
        (unpaidSwept [sweepFailing (some 13), sweepFailing none]).sent := by
  constructor
  · intro h
    have htold : ⟨100, "choir@efcnewlife.org", expirySubject, "body"⟩ ∈
        (unpaidSwept [sweepFailing (some 13)]).sent := by decide +kernel
    obtain ⟨s, hs, -, hst⟩ := h.committed _ htold
    have hpending : (unpaidSwept [sweepFailing (some 13)]).db.series.all
        (·.status = .pendingPayment) = true := by decide +kernel
    have hpending := List.all_eq_true.mp hpending s hs
    rw [hst] at hpending
    exact absurd hpending (by decide)
  · intro h
    have htwice : (mailAbout 100 (unpaidSwept [sweepFailing (some 13), sweepFailing none]).sent).length = 2 := by
      decide +kernel
    obtain ⟨booker, hone⟩ := h.once 100
    have hlen := hone.length_le
    rw [List.length_map, htwice] at hlen
    exact absurd (hlen.trans (length_targets_plain booker)) (by decide)

end Samples

end NewlifeCore
