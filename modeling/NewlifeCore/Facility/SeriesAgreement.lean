import NewlifeCore.Facility.SettledBookings

/-!
# The statuses of a Series and of its occurrences

Seven methods write a Series row, its occurrences, or both, in separate statements.  Along
sequential runs they keep the two in agreement; what a cancelled Series may still have is live
occurrences that are shown to have started: a start is compared as the listing shows it, cut to the
whole second.

The invariant is `StatusesAgree`.  What a committed call did is a sequence of moves
(`Facility.MoveSpecs`), so the invariant is carried over one move at a time, with a lemma for each
kind.  Two facts about the moves do the work.  A new occurrence is given the status of its Series
row, so nothing disagrees at first.  And a Series row is only written for a reason: it is closed
when nothing of it is shown to come, and confirmed or expired when it was Pending-payment, together
with all its occurrences of that status.  The clock only ever helps: what has started stays started.

That a cancellation closes a Series it empties is not an invariant but a property of the call, and
comes from its own spec (`Cancellation.emptied`); the outline of the runs carries both.
-/

namespace NewlifeCore

open Txn Prog RecurringBookingService

/-! ## 1. Agreement -/

/-- **Each Series agrees with its occurrences** at a time. -/
structure StatusesAgree (db : Db) (now : Int) : Prop where
  pending : ∀ s ∈ db.series, s.status = .pendingPayment →
    ∀ b ∈ db.bookings, OccurrenceOf s.id b → b.status ≠ .confirmed
  confirmed : ∀ s ∈ db.series, s.status = .confirmed →
    ∀ b ∈ db.bookings, OccurrenceOf s.id b → b.status ≠ .pendingPayment
  cancelled : ∀ s ∈ db.series, s.status = .cancelled →
    ∀ b ∈ db.bookings, OccurrenceOf s.id b → isLive b.status = true → b.shownStart ≤ now

/-- An agreement lasts as the clock moves on. -/
theorem StatusesAgree.later {db : Db} {t t' : Int} (h : StatusesAgree db t) (ht : t ≤ t') :
    StatusesAgree db t' :=
  ⟨h.pending, h.confirmed, fun s hs hst b hb hof hlive =>
    le_trans (h.cancelled s hs hst b hb hof hlive) ht⟩

/-- What a rewriting of Bookings may do to a row without breaking an agreement: nothing, or end
it. -/
def OnlyEnds (b b' : Booking) : Prop :=
  SameBooking b b' ∧ (b'.status = b.status ∨ isLive b'.status = false)

/-- Closings end what they name and do nothing else. -/
theorem closeAll_onlyEnds {cs : List Closing} (hcs : ∀ k ∈ cs, k.Ends) (b : Booking) :
    OnlyEnds b (closeAll cs b) := by
  refine ⟨closeAll_same cs b, ?_⟩
  cases hl : isLive (closeAll cs b).status with
  | false => exact .inr rfl
  | true => exact .inl (by rw [(closeAll_live hcs hl).1])

theorem OccurrenceOf.of_same {sid : UUID} {b b' : Booking} (h : SameBooking b b')
    (hof : OccurrenceOf sid b') : OccurrenceOf sid b :=
  ⟨h.seriesId ▸ hof.1, h.isDeleted ▸ hof.2⟩

/-- Ending Bookings keeps an agreement. -/
theorem StatusesAgree.ends {db db' : Db} {t : Int} (h : StatusesAgree db t)
    {f : Booking → Booking} (hf : ∀ b, OnlyEnds b (f b)) (hb : db'.bookings = db.bookings.map f)
    (hs : db'.series = db.series) : StatusesAgree db' t := by
  have back : ∀ b' ∈ db'.bookings, ∀ sid, OccurrenceOf sid b' → ∃ b ∈ db.bookings,
      OccurrenceOf sid b ∧ b.shownStart = b'.shownStart ∧
        (b'.status = b.status ∨ isLive b'.status = false) := by
    intro b' hb' sid hof
    rw [hb] at hb'
    obtain ⟨b, hmem, rfl⟩ := List.mem_map.mp hb'
    exact ⟨b, hmem, hof.of_same (hf b).1, (congrArg Converter.formatInstant (hf b).1.startAt).symm, (hf b).2⟩
  refine ⟨fun s hmem hst b' hb' hof => ?_, fun s hmem hst b' hb' hof => ?_,
    fun s hmem hst b' hb' hof hlive => ?_⟩
  all_goals
    rw [hs] at hmem
    obtain ⟨b, hbm, hofb, hstart, hor⟩ := back b' hb' s.id hof
  · rcases hor with he | hdead
    · exact he ▸ h.pending s hmem hst b hbm hofb
    · rintro he; rw [he] at hdead; cases hdead
  · rcases hor with he | hdead
    · exact he ▸ h.confirmed s hmem hst b hbm hofb
    · rintro he; rw [he] at hdead; cases hdead
  · rcases hor with he | hdead
    · exact hstart ▸ h.cancelled s hmem hst b hbm hofb (he ▸ hlive)
    · rw [hdead] at hlive; cases hlive

theorem live_cases {st : BookingStatus} (h : isLive st = true) :
    st = .pendingPayment ∨ st = .confirmed := by
  simpa [isLive] using h

/-! ## 2. One move -/

/-- The rows of a Series that a setting of its status leaves. -/
theorem mem_setSeries {sid : UUID} {values : BookingSeries → BookingSeries}
    {status : BookingStatus} (hset : SetsStatus values status) {db : Db} {s : BookingSeries}
    (h : s ∈ (setSeries sid values db).series) :
    (∃ s₀ ∈ db.series, s₀.id = sid ∧ s₀.isDeleted = false ∧ s.id = sid ∧ s.status = status) ∨
      s ∈ db.series ∧ ¬ (s.id = sid ∧ s.isDeleted = false) := by
  obtain ⟨s₀, hs₀, rfl⟩ := List.mem_map.mp h
  by_cases hc : (s₀.id = sid && !s₀.isDeleted) = true
  · simp only [hc, if_true, hset.id, hset.status]
    simp only [Bool.and_eq_true, decide_eq_true_eq, Bool.not_eq_true'] at hc
    exact .inl ⟨s₀, hs₀, hc.1, hc.2, hc.1, trivial⟩
  · simp only [hc, Bool.false_eq_true, if_false]
    simp only [Bool.and_eq_true, decide_eq_true_eq, Bool.not_eq_true'] at hc
    exact .inr ⟨hs₀, hc⟩

/-- Where the rewritten Series is not deleted, its other rows are of other Series. -/
theorem mem_setSeries_pending {sid : UUID} {values : BookingSeries → BookingSeries}
    {status : BookingStatus} (hset : SetsStatus values status) {db : Db} (hv : db.Valid)
    (hp : ∃ s, SeriesRow db sid s ∧ s.status = .pendingPayment) {s : BookingSeries}
    (h : s ∈ (setSeries sid values db).series) :
    (s.id = sid ∧ s.status = status) ∨ s ∈ db.series ∧ s.id ≠ sid := by
  rcases mem_setSeries hset h with ⟨-, -, -, -, hid, hst⟩ | ⟨hs, hno⟩
  · exact .inl ⟨hid, hst⟩
  · refine .inr ⟨hs, fun hid => hno ⟨hid, ?_⟩⟩
    obtain ⟨x, hx, -⟩ := hp
    rw [hv.series_eq hs hx.1 (hid.trans hx.2.1.symm)]
    exact hx.2.2

theorem confirmBooking_other {sid sid' : UUID} {operatorId : Option UUID} {b : Booking}
    (h : OccurrenceOf sid' b) (hne : sid' ≠ sid) : confirmBooking sid operatorId b = b := by
  unfold confirmBooking
  rw [if_neg]
  intro hc
  simp only [Bool.and_eq_true, decide_eq_true_eq] at hc
  rw [h.1] at hc
  exact hne (by simpa using hc.1.1)

section

variable {db : Db} {t : Int}

/-- A new Series has no occurrence yet. -/
theorem StatusesAgree.addSeries (h : StatusesAgree db t) (hv : db.Valid) {s : BookingSeries}
    (fresh : ∀ s' ∈ db.series, s'.id ≠ s.id) :
    StatusesAgree { db with series := db.series ++ [s] } t := by
  have hold : ∀ x ∈ db.series ++ [s], ∀ b ∈ db.bookings, OccurrenceOf x.id b → x ∈ db.series := by
    intro x hx b hb hof
    rcases List.mem_append.mp hx with hx | hx
    · exact hx
    · rw [List.mem_singleton.mp hx] at hof
      obtain ⟨s', hs', hid⟩ := hv.seriesOf b hb s.id hof.1
      exact absurd hid (fresh s' hs')
  exact ⟨fun x hx hst b hb hof => h.pending x (hold x hx b hb hof) hst b hb hof,
    fun x hx hst b hb hof => h.confirmed x (hold x hx b hb hof) hst b hb hof,
    fun x hx hst b hb hof => h.cancelled x (hold x hx b hb hof) hst b hb hof⟩

/-- A new occurrence has the status of its Series. -/
theorem StatusesAgree.addBooking (h : StatusesAgree db t) {db' : Db} {b : Booking}
    (hb' : db'.bookings = db.bookings ++ [b]) (hs' : db'.series = db.series)
    (hstatus : ∀ s ∈ db.series, OccurrenceOf s.id b → s.status = b.status) :
    StatusesAgree db' t := by
  refine ⟨fun s hs hst b' hmem hof => ?_, fun s hs hst b' hmem hof => ?_,
    fun s hs hst b' hmem hof hlive => ?_⟩
  all_goals
    rw [hs'] at hs
    rw [hb'] at hmem
    rcases List.mem_append.mp hmem with hmem | hmem
  · exact h.pending s hs hst b' hmem hof
  · rw [List.mem_singleton.mp hmem] at hof ⊢
    rw [← hstatus s hs hof, hst]
    decide
  · exact h.confirmed s hs hst b' hmem hof
  · rw [List.mem_singleton.mp hmem] at hof ⊢
    rw [← hstatus s hs hof, hst]
    decide
  · exact h.cancelled s hs hst b' hmem hof hlive
  · rw [List.mem_singleton.mp hmem] at hof hlive
    rw [← hstatus s hs hof, hst] at hlive
    cases hlive

/-- A Series of which nothing is to come may be closed. -/
theorem StatusesAgree.closeSeries (h : StatusesAgree db t) {sid : UUID}
    {values : BookingSeries → BookingSeries} (sets : SetsStatus values .cancelled)
    (idle : ∀ b ∈ db.bookings, OccurrenceOf sid b → isLive b.status = true → b.shownStart ≤ t) :
    StatusesAgree (setSeries sid values db) t := by
  refine ⟨fun s hs hst b hb hof => ?_, fun s hs hst b hb hof => ?_,
    fun s hs hst b hb hof hlive => ?_⟩
  all_goals rcases mem_setSeries sets hs with ⟨-, -, -, -, hid, hnew⟩ | ⟨hs', -⟩
  · rw [hnew] at hst; cases hst
  · exact h.pending s hs' hst b hb hof
  · rw [hnew] at hst; cases hst
  · exact h.confirmed s hs' hst b hb hof
  · exact idle b hb (hid ▸ hof) hlive
  · exact h.cancelled s hs' hst b hb hof hlive

/-- After its confirmation a Series has nothing Pending-payment left. -/
theorem confirmBooking_not_pending {sid : UUID} {operatorId : Option UUID} {b : Booking}
    (hof : OccurrenceOf sid (confirmBooking sid operatorId b)) :
    (confirmBooking sid operatorId b).status ≠ .pendingPayment := by
  intro hpend
  have hofb := hof.of_same (confirmBooking_same sid operatorId b)
  unfold confirmBooking at hpend
  split at hpend
  · cases hpend
  · rename_i hno
    exact hno (by simp [hofb.1, hofb.2, hpend])

/-- A Pending-payment Series may be confirmed with its occurrences. -/
theorem StatusesAgree.confirm (h : StatusesAgree db t) (hv : db.Valid) {sid : UUID}
    {values : BookingSeries → BookingSeries} {operatorId : Option UUID}
    (sets : SetsStatus values .confirmed)
    (pending : ∃ s, SeriesRow db sid s ∧ s.status = .pendingPayment) :
    StatusesAgree (confirmBookings sid operatorId (setSeries sid values db)) t := by
  have other : ∀ {b : Booking} {s : BookingSeries}, s.id ≠ sid →
      OccurrenceOf s.id (confirmBooking sid operatorId b) →
      confirmBooking sid operatorId b = b := fun hne hof =>
    confirmBooking_other (hof.of_same (confirmBooking_same sid operatorId _)) hne
  refine ⟨fun s hs hst b' hb' hof => ?_, fun s hs hst b' hb' hof => ?_,
    fun s hs hst b' hb' hof hlive => ?_⟩
  all_goals
    obtain ⟨b, hb, rfl⟩ := List.mem_map.mp hb'
    rcases mem_setSeries_pending sets hv pending hs with ⟨hid, hnew⟩ | ⟨hs', hne⟩
  · rw [hnew] at hst; cases hst
  · have heq := other hne hof
    rw [heq] at hof ⊢
    exact h.pending s hs' hst b hb hof
  · rw [hid] at hof
    exact confirmBooking_not_pending hof
  · have heq := other hne hof
    rw [heq] at hof ⊢
    exact h.confirmed s hs' hst b hb hof
  · rw [hnew] at hst; cases hst
  · have heq := other hne hof
    rw [heq] at hof hlive ⊢
    exact h.cancelled s hs' hst b hb hof hlive

/-- Nothing of an expired Series is live: what survives was not Pending-payment, and a
Pending-payment Series has nothing confirmed. -/
theorem StatusesAgree.expired_idle (h : StatusesAgree db t) {sid : UUID} {cs : List Closing}
    (ends : ∀ k ∈ cs, k.Ends) (pending : ∃ s, SeriesRow db sid s ∧ s.status = .pendingPayment)
    (all : ∀ b ∈ db.bookings, OccurrenceOf sid b → b.status = .pendingPayment →
      b.id ∈ cs.map Closing.id) {b : Booking} (hb : b ∈ db.bookings)
    (hof : OccurrenceOf sid (closeAll cs b)) : isLive (closeAll cs b).status = false := by
  cases hlive : isLive (closeAll cs b).status with
  | false => rfl
  | true =>
    obtain ⟨hsame, hnot⟩ := closeAll_live ends hlive
    rw [hsame] at hof hlive
    obtain ⟨x, hx, hxp⟩ := pending
    have hnc := h.pending x hx.1 hxp b hb (hx.2.1.symm ▸ hof)
    rcases live_cases hlive with hp | hc
    · exact absurd (all b hb hof hp) hnot
    · exact absurd hc hnc

/-- A Pending-payment Series may be expired with its Pending-payment occurrences. -/
theorem StatusesAgree.expire (h : StatusesAgree db t) (hv : db.Valid) {sid : UUID}
    {values : BookingSeries → BookingSeries} {cs : List Closing}
    (sets : SetsStatus values .cancelled) (ends : ∀ k ∈ cs, k.Ends)
    (pending : ∃ s, SeriesRow db sid s ∧ s.status = .pendingPayment)
    (all : ∀ b ∈ db.bookings, OccurrenceOf sid b → b.status = .pendingPayment →
      b.id ∈ cs.map Closing.id) :
    StatusesAgree (closeDb cs (cs.map Closing.id) (setSeries sid values db)) t := by
  -- the rows of the other Series and what is left of their occurrences
  have hclosed : StatusesAgree (closeDb cs (cs.map Closing.id) db) t :=
    h.ends (closeAll_onlyEnds ends) rfl rfl
  refine ⟨fun s hs hst b' hb' hof => ?_, fun s hs hst b' hb' hof => ?_,
    fun s hs hst b' hb' hof hlive => ?_⟩
  all_goals rcases mem_setSeries_pending sets hv pending hs with ⟨hid, hnew⟩ | ⟨hs', -⟩
  · rw [hnew] at hst; cases hst
  · exact hclosed.pending s hs' hst b' hb' hof
  · rw [hnew] at hst; cases hst
  · exact hclosed.confirmed s hs' hst b' hb' hof
  · obtain ⟨b, hb, rfl⟩ := List.mem_map.mp hb'
    rw [hid] at hof
    cases hlive.symm.trans (h.expired_idle ends pending all hb hof)
  · exact hclosed.cancelled s hs' hst b' hb' hof hlive

end

/-- **A move keeps the agreement.** -/
theorem statusesAgree_move {c : Call} {t t' : Int} {db db' : Db} (hv : db.Valid)
    (h : StatusesAgree db t') (hm : Move c t t' db db') : StatusesAgree db' t' := by
  cases hm with
  | frame hb hs hr =>
    exact h.ends (f := id) (fun b => ⟨SameBooking.refl b, .inl rfl⟩) (by rw [hb, List.map_id]) hr
  | addSeries s fresh => exact h.addSeries hv fresh
  | addBooking b lines slots rooms fresh live creates series booking keys =>
    refine h.addBooking rfl rfl fun s hs hof => ?_
    obtain ⟨x, hx, hxid, hxst⟩ := series s.id hof.1
    rw [hv.series_eq hs hx hxid.symm]
    exact hxst
  | close cs ends live => exact h.ends (closeAll_onlyEnds ends) rfl rfl
  | cancel k withSlots ends asked =>
    have hends : ∀ x ∈ [k], x.Ends := fun x hx => List.mem_singleton.mp hx ▸ ends
    exact h.ends (closeAll_onlyEnds hends) rfl rfl
  | closeSeries sid values τ sets time idle =>
    exact h.closeSeries sets fun b hb hof hlive => le_trans (idle b hb hof hlive) time
  | confirm sid values operatorId asked sets pending => exact h.confirm hv sets pending
  | expire sid values cs asked sets ends pending only all =>
    exact h.expire hv sets ends pending all

/-! ## 3. Runs -/

/-- The cancellations that look at the Series of what they cancel. -/
def Operation.cancelsOccurrences : Operation → Bool
  | .cancelSeries _ _ => true
  | .cancelMySeries _ _ => true
  | .createBlackout _ => true
  | _ => false

theorem Call.body_cancellation (app : App) {c : Call} {db : Db} {t : Int} (hv : db.Valid)
    (hc : c.operation.cancelsOccurrences = true) :
    solo (c.body app) (fun _ db' t' => Cancellation c t db db' t') db t := by
  have htime : ∀ db' t₁ t₂, t₁ ≤ t₂ → Cancellation c t db db' t₁ → Cancellation c t db db' t₂ :=
    fun _ _ _ ht h => ⟨h.moves.later ht, h.emptied⟩
  unfold Call.body
  split
  all_goals rename_i hop
  all_goals first | (rw [hop] at hc; cases hc; done) | skip
  · exact discard_solo htime (cancelSeries_spec _ _ hv)
  · exact discard_solo htime (cancelMySeries_spec _ _ hv)
  · exact discard_solo htime (createBlackout_spec app _ hv)

/-- The outline of all sequential runs. -/
def agreementOutline (app : App) :
    SerialOutline (ε := ApiError) (Call.body app) fun _ _ _ => True where
  inv db t _ := db.Valid ∧ StatusesAgree db t
  rel c t₀ db db' t' := db.Valid ∧ Moves c t₀ t' db db' ∧
    (c.operation.cancelsOccurrences = true → ∀ sid, Removes t₀ sid db db' → Emptied t₀ sid db')
  tick h ht := ⟨h.1, h.2.later ht⟩
  call {c db t fin} _ h := by
    have hmoves := Call.body_moves app c (t := t) h.1
    cases hc : c.operation.cancelsOccurrences with
    | false => exact solo_conseq hmoves fun _ _ _ _ hm => ⟨h.1, hm, fun hc' => by cases hc'⟩
    | true =>
      exact solo_conseq (Call.body_cancellation app h.1 hc) fun _ _ _ _ hm =>
        ⟨h.1, hm.moves, fun _ => hm.emptied⟩
  commit h ht hrel := ⟨hrel.2.1.valid hrel.1,
    Moves.keeps (fun hv hI hm => statusesAgree_move hv hI hm) hrel.2.1 hrel.1 h.2⟩

/-- **Series and occurrences agree** in every state of every sequential run: a Pending-payment
Series has nothing confirmed, a confirmed one nothing Pending-payment, a cancelled one nothing live
that is shown still to come; and a cancellation of a Series or by a Blackout that takes the last
coming occurrence of a Series leaves it cancelled. -/
theorem seriesStatuses_agree (app : App) {db : Db} {t : Int} (hv : db.Valid)
    (h₀ : StatusesAgree db t) {s : PortalSys}
    (hr : Run (Call.body app) (Sequential fun _ _ _ => True) (Sys.idle db t) s) :
    StatusesAgree s.db s.clock ∧
    ∀ (a : Action Call) (s' : PortalSys) (f : Finished Call), step (Call.body app) s a = some s' →
      s'.finished = s.finished ++ [f] → f.label.operation.cancelsOccurrences = true →
      ∀ sid, Removes f.began sid s.db s'.db → Emptied f.began sid s'.db := by
  refine ⟨((agreementOutline app).inv_run ⟨hv, h₀⟩ hr).2, fun a s' f hstep hf hc => ?_⟩
  rcases (agreementOutline app).step_run ⟨hv, h₀⟩ hr hstep with
    ⟨-, hfin⟩ | ⟨c, t₀, hrel, -, hfin⟩
  · rw [hfin] at hf
    have := congrArg List.length hf
    simp at this
  · rw [hfin] at hf
    have hlast : (⟨c, t₀, s.clock⟩ : Finished Call) = f := by simpa using hf
    subst hlast
    exact hrel.2.2 hc

/-! ### 3.1 A Series with a past and a coming occurrence -/

/-- A time on the day after the tenth. -/
def afterDayTen : Int := WallClock.combine 11 .noon

/-- A Series on the days 10 and 17, and what follows after its first day. -/
def weeklyThen (calls : List Operation) : List (Int × Call) :=
  (0, ⟨.numbered 7 100, .createSeries (bookWeekly 10 17)⟩) ::
    calls.map fun op => (afterDayTen, ⟨.numbered 9 200, op⟩)

theorem StatusesAgree.empty {db : Db} (hs : db.series = []) (t : Int) : StatusesAgree db t := by
  constructor <;> rw [hs] <;> exact fun _ h => nomatch h

/-- A run to which the agreement applies: the coming occurrence is cancelled, and the Series with
it. -/
theorem seriesStatuses_agree_weekly : StatusesAgree (afterCalls (Call.body App.utc)
    (weeklyThen [.cancelSeries 100 { scope := "occurrence", occurrenceId := some 101 }])
    Db.oneRoom) afterDayTen :=
  (seriesStatuses_agree App.utc (.empty rfl rfl) (.empty rfl 0)
    (run_calls (weeklyThen [.cancelSeries 100 { scope := "occurrence", occurrenceId := some 101 }])
      (by decide +kernel))).1

/-- Agreement, and nothing Pending-payment of a cancelled Series. -/
structure StatusesAgreeStrictly (db : Db) (now : Int) : Prop extends StatusesAgree db now where
  settled : ∀ s ∈ db.series, s.status = .cancelled →
    ∀ b ∈ db.bookings, OccurrenceOf s.id b → b.status ≠ .pendingPayment

/-- Along runs from a database without Bookings: Series agree strictly. -/
def AgreementStrict (app : App) : Prop :=
  ∀ (db : Db) (t : Int) (s : PortalSys), db.bookings = [] → db.series = [] →
    Run (Call.body app) (Sequential fun _ _ _ => True) (Sys.idle db t) s →
    StatusesAgreeStrictly s.db s.clock

/-- Along such runs: a cancellation of any kind closes each Series it leaves nothing of. -/
def EveryCancellationCloses (app : App) : Prop :=
  ∀ (db : Db) (t : Int) (s s' : PortalSys) (a : Action Call) (f : Finished Call),
    db.bookings = [] → db.series = [] →
    Run (Call.body app) (Sequential fun _ _ _ => True) (Sys.idle db t) s →
    step (Call.body app) s a = some s' → s'.finished = s.finished ++ [f] →
    f.label.operation.isCancellation = true →
    ∀ sid, Removes f.began sid s.db s'.db → Emptied f.began sid s'.db

theorem not_agreementStrict : ¬ AgreementStrict App.utc := by
  intro hstrict
  let calls := weeklyThen [.cancelSeries 100 { scope := "entire_series" }]
  let db := afterCalls (Call.body App.utc) calls Db.oneRoom
  have hagree : StatusesAgreeStrictly db afterDayTen :=
    hstrict Db.oneRoom 0 _ rfl rfl (run_calls calls (by decide +kernel))
  have hs : db.series.map (fun s => (s.id, s.status)) = [(100, .cancelled)] := by decide +kernel
  have hb : db.bookings.map (fun b => (b.seriesId, b.isDeleted, b.status)) =
      [(some 100, false, .pendingPayment), (some 100, false, .cancelled)] := by decide +kernel
  obtain ⟨s, hsm, hse⟩ := List.mem_map.mp (hs ▸ List.mem_singleton_self _)
  obtain ⟨b, hbm, hbe⟩ := List.mem_map.mp (hb ▸ List.mem_cons_self)
  simp only [Prod.mk.injEq] at hse hbe
  exact hagree.settled s hsm hse.2 b hbm ⟨hse.1 ▸ hbe.1, hbe.2.1⟩ hbe.2.2

theorem not_everyCancellationCloses : ¬ EveryCancellationCloses App.utc := by
  intro hcloses
  let body := Call.body App.utc
  let calls := weeklyThen [.confirmPayment 100]
  let call : Call := ⟨.numbered 9 300, .cancelBooking 101 {}⟩
  let db := afterCalls body calls Db.oneRoom
  let db' := (body call).after db afterDayTen
  have hcalls : Run body (Sequential fun _ _ _ => True) (Sys.idle Db.oneRoom 0)
      ⟨db, afterDayTen, [], calls.map fun c => ⟨c.2, c.1, c.1⟩⟩ :=
    run_calls calls (by decide +kernel)
  obtain ⟨s, hrun, hdb, hfin, hstep⟩ : ∃ s : PortalSys, Run body (Sequential fun _ _ _ => True)
      ⟨db, afterDayTen, [], calls.map fun c => ⟨c.2, c.1, c.1⟩⟩ s ∧ s.db = db ∧
      s.finished = calls.map (fun c => ⟨c.2, c.1, c.1⟩) ∧ step body s (.commit 0) = some ⟨db',
        afterDayTen, [], calls.map (fun c => ⟨c.2, c.1, c.1⟩) ++ [⟨call, afterDayTen, afterDayTen⟩]⟩ :=
    run_to_commit trivial (by decide +kernel)
  have hs : db'.series.map (fun s => (s.id, s.isDeleted, s.status)) =
      [(100, false, .confirmed)] := by decide +kernel
  have hb : db.bookings.map (fun b => (b.id, b.seriesId, b.isDeleted, b.status)) =
      [(100, some 100, false, .confirmed), (101, some 100, false, .confirmed)] := by decide +kernel
  have hstart : ∀ b ∈ db.bookings, b.id = 101 → afterDayTen < b.startAt := by decide +kernel
  have hgone : ∀ b ∈ db'.bookings, b.id = 101 → isLive b.status = false := by decide +kernel
  have hpast : ∀ b ∈ db'.bookings, isLive b.status = true → b.startAt ≤ afterDayTen := by
    decide +kernel
  obtain ⟨x, hxm, hxe⟩ := List.mem_map.mp (hs ▸ List.mem_singleton_self _)
  obtain ⟨b, hbm, hbe⟩ := List.mem_map.mp (hb ▸ List.mem_cons_of_mem _ (List.mem_singleton_self _))
  simp only [Prod.mk.injEq] at hxe hbe
  have hempty := hcloses Db.oneRoom 0 s _ (.commit 0) ⟨call, afterDayTen, afterDayTen⟩ rfl rfl
    (hcalls.trans hrun) hstep (by rw [hfin]) rfl 100
    (by rw [hdb]
        exact ⟨b, hbm, ⟨hbe.2.1, hbe.2.2.1⟩, by rw [hbe.2.2.2]; rfl, hstart b hbm hbe.1,
          fun b' hb' hid => hgone b' hb' (hid.trans hbe.1)⟩)
    (fun b hb _ hlive => hpast b hb hlive) x ⟨hxm, hxe.1, hxe.2.1⟩
  rw [hxe.2.2] at hempty
  cases hempty

/-- **Agreement in the strict sense fails**: cancelling the entire Series leaves its past occurrence
Pending-payment, and cancelling the last coming occurrence by its id leaves the Series confirmed. -/
theorem seriesStatuses_not_strict :
    ¬ AgreementStrict App.utc ∧ ¬ EveryCancellationCloses App.utc :=
  ⟨not_agreementStrict, not_everyCancellationCloses⟩

end NewlifeCore
