import NewlifeCore.Txn.Exec

/-!
# Programs run one at a time

The sequential reading of `Txn.Interleaving`: a call begins only when nothing is open, but the
clock still moves between its statements.  `solo` is the weakest precondition of a program there,
over the one state the transaction sees; `solo_reads` takes over whatever `wp` establishes of a
program that only reads.  `SerialOutline` turns a `solo` proof for each call into
an invariant of every sequential run.
-/

namespace NewlifeCore.Txn

variable {σ ρ κ ε : Type} [RowStore σ ρ] [DecidableEq ρ] {α β : Type}

namespace Prog

/-! ## 1. Weakest preconditions -/

/-- **`solo p Φ db t`**: if `p`, seeing `db` at time `t`, returns with nothing beside it, then `Φ`
holds of the result, of what it sees then and of the time it is. -/
def solo (p : Prog σ ρ κ ε α) (Φ : α → σ → Int → Prop) (db : σ) (t : Int) : Prop :=
  ∀ v : View σ ρ κ, v.seen = db → v.clock = t → v.sqlNow ≤ v.clock →
    wp Rely.alone p (fun a w => w.db = v.db ∧ Φ a w.seen w.clock) v

variable {Φ Ψ : α → σ → Int → Prop} {p : Prog σ ρ κ ε α} {db : σ} {t : Int}

omit [DecidableEq ρ] in
/-- What the others' moves change of a view that is alone. -/
theorem env_alone {v w : View σ ρ κ} (h : Env Rely.alone v w) :
    w.db = v.db ∧ w.seen = v.seen ∧ v.clock ≤ w.clock :=
  have hdb : w.db = v.db := h.rel.1
  ⟨hdb, by rw [View.seen, View.seen, h.own, hdb], h.clock⟩

/-- What `solo` proves holds of serial execution, where the clock stands still. -/
theorem exec_of_solo (hp : solo p Φ db t) {a : α} {db' : σ} (h : p.exec db t = .ok (a, db')) :
    Φ a db' t := by
  have hfresh : Serial (View.fresh db t : View σ ρ κ) db t db := ⟨rfl, rfl, rfl, rfl⟩
  have hwp := hp (View.fresh db t) rfl rfl (le_refl t)
  obtain ⟨w, hw, -, hΦ⟩ := exec_of_wp hwp hfresh h
  have hseen : w.seen = db' := by rw [View.seen, hw.1, hw.2.2.1]
  rw [hseen, hw.2.1] at hΦ
  exact hΦ

theorem solo_conseq (hp : solo p Ψ db t) (h : ∀ a db' t', t ≤ t' → Ψ a db' t' → Φ a db' t') :
    solo p Φ db t := by
  intro v hseen ht hn
  refine wp_conseq (hp v hseen ht hn) fun a w hw hΨ => ⟨hΨ.1, h a _ _ ?_ hΨ.2⟩
  exact ht ▸ hw.clock

theorem solo_seq {Φ : β → σ → Int → Prop} {f : α → Prog σ ρ κ ε β} (hp : solo p Ψ db t)
    (hf : ∀ a db' t', t ≤ t' → Ψ a db' t' → solo (f a) Φ db' t') : solo (p.bind f) Φ db t := by
  intro v hseen ht hn
  refine wp_seq (hp v hseen ht hn) fun a w hw hΨ => ?_
  refine wp_mono (fun b x hx => ⟨hx.1.trans hΨ.1, hx.2⟩)
    (hf a w.seen w.clock (ht ▸ hw.clock) hΨ.2 w rfl rfl (hw.timely hn))

/-! ### 1.1 Statements -/

theorem solo_ret {a : α} (h : ∀ t', t ≤ t' → Φ a db t') :
    solo (ret a : Prog σ ρ κ ε α) Φ db t := by
  intro v hseen ht _ w hw
  obtain ⟨hdb, hs, hc⟩ := env_alone hw
  exact ⟨hdb, by rw [hs, hseen]; exact h _ (ht ▸ hc)⟩

theorem solo_raise {e : ε} : solo (raise e : Prog σ ρ κ ε α) Φ db t := fun _ _ _ _ => trivial

/-- A program that only reads leaves the state alone, and returns what `wp` says it does. -/
theorem solo_reads (hr : ReadOnly p)
    (hp : ∀ v : View σ ρ κ, v.seen = db → v.clock = t → v.sqlNow ≤ v.clock →
      wp Rely.alone p (fun a w => Φ a w.seen w.clock) v) :
    solo p (fun a db' t' => db' = db ∧ Φ a db' t') db t := by
  intro v hseen ht hn
  refine wp_mono (fun a w h => ?_) (wp_and (wp_quiet hr v) (hp v hseen ht hn))
  obtain ⟨hdb, hs, -⟩ := env_alone h.1
  exact ⟨hdb, hs.trans hseen, h.2⟩

theorem solo_readOnly (hr : ReadOnly p) : solo p (fun _ db' _ => db' = db) db t :=
  solo_conseq (solo_reads (Φ := fun _ _ _ => True) hr fun v _ _ _ =>
    wp_mono (fun _ _ _ => trivial) (wp_quiet hr v)) fun _ _ _ _ h => h.1

theorem solo_select (q : σ → Int → α) : solo (select q : Prog σ ρ κ ε α)
    (fun a db' t' => db' = db ∧ ∃ n, n ≤ t' ∧ a = q db n) db t := by
  intro v hseen ht hn
  refine wp_mono (fun a w h => ?_) (wp_select_once q v)
  obtain ⟨hdb, hs, -⟩ := env_alone h.1
  obtain ⟨u, ⟨hu, rfl⟩, huw⟩ := h.2
  refine ⟨hdb, hs.trans hseen, u.sqlNow, ?_, by rw [(env_alone hu).2.1, hseen]⟩
  exact le_trans ((Later.of_env hu).timely hn) huw.clock

theorem solo_now : solo (now : Prog σ ρ κ ε Int)
    (fun a db' t' => db' = db ∧ t ≤ a ∧ a ≤ t') db t := by
  intro v hseen ht _
  refine wp_mono (fun a w h => ?_) (wp_now_once v)
  obtain ⟨hdb, hs, -⟩ := env_alone h.1
  exact ⟨hdb, hs.trans hseen, ht ▸ h.2.1, h.2.2⟩

theorem solo_acquire (l : κ) : solo (acquire l : Prog σ ρ κ ε Unit)
    (fun _ db' _ => db' = db) db t := by
  intro v hseen _ _
  refine wp_acquire fun u hu _ w hw => ?_
  obtain ⟨hdb, hs, -⟩ := env_alone hu
  obtain ⟨hdb', hs', -⟩ := env_alone hw
  exact ⟨hdb'.trans hdb, hs'.trans (hs.trans hseen)⟩

theorem solo_tryAcquire (l : κ) : solo (tryAcquire l : Prog σ ρ κ ε Bool)
    (fun _ db' _ => db' = db) db t := by
  intro v hseen _ _
  refine wp_tryAcquire (fun u hu w hw => ?_) fun w hw => ?_
  · obtain ⟨hdb, hs, -⟩ := env_alone hu
    obtain ⟨hdb', hs', -⟩ := env_alone hw
    exact ⟨hdb'.trans hdb, hs'.trans (hs.trans hseen)⟩
  · obtain ⟨hdb, hs, -⟩ := env_alone hw
    exact ⟨hdb, hs.trans hseen⟩

theorem solo_execute (s : σ → Except ε (Change σ ρ)) : solo (execute s : Prog σ ρ κ ε Unit)
    (fun _ db' _ => ∃ c, s db = .ok c ∧ db' = c.apply db) db t := by
  intro v hseen _ _
  refine wp_mono (fun _ w h => ?_) (wp_execute_once s v)
  obtain ⟨v', c, u, c', hv, hc, hu, -, hw⟩ := h
  obtain ⟨hdb, hs, -⟩ := env_alone (hv.trans hu)
  obtain ⟨hdb', hs', -⟩ := env_alone hw
  have hdbv : v'.seen = db := (env_alone hv).2.1.trans hseen
  exact ⟨hdb'.trans hdb, c, hdbv ▸ hc, hs'.trans (congrArg c.apply (hs.trans hseen))⟩

theorem solo_executeCount (s : σ → Except ε (Change σ ρ)) :
    solo (executeCount s : Prog σ ρ κ ε Nat)
      (fun n db' _ => ∃ c, s db = .ok c ∧ n = c.rows.length ∧ db' = c.apply db) db t := by
  intro v hseen _ _
  refine wp_mono (fun n w h => ?_) (wp_executeCount_once s v)
  obtain ⟨v', c, u, c', hv, hc, hu, hc', hn, hw⟩ := h
  obtain ⟨hdb, hs, -⟩ := env_alone (hv.trans hu)
  obtain ⟨hdb', hs', -⟩ := env_alone hw
  have hdbv : v'.seen = db := (env_alone hv).2.1.trans hseen
  have hsame : c' = c := by
    rw [hs.trans hseen, ← hdbv, hc] at hc'
    exact (Except.ok.inj hc').symm
  rw [hsame, Change.still_self] at hn
  exact ⟨hdb'.trans hdb, c, hdbv ▸ hc, hn, hs'.trans (congrArg c.apply (hs.trans hseen))⟩

theorem solo_raiseIf (c : Bool) (e : ε) : solo (raiseIf c e : Prog σ ρ κ ε Unit)
    (fun _ db' _ => db' = db ∧ c = false) db t := by
  cases c with
  | false => exact solo_ret fun _ _ => ⟨rfl, rfl⟩
  | true => exact solo_raise

theorem solo_ofExcept (x : Except ε α) : solo (ofExcept x : Prog σ ρ κ ε α)
    (fun a db' _ => db' = db ∧ x = .ok a) db t := by
  cases x with
  | ok a => exact solo_ret fun _ _ => ⟨rfl, rfl⟩
  | error e => exact solo_raise

/-! ### 1.2 Loops -/

theorem solo_each {f : α → Prog σ ρ κ ε Unit} (I : List α → σ → Int → Prop)
    (htime : ∀ done db t t', t ≤ t' → I done db t → I done db t') :
    ∀ (xs done : List α) (db : σ) (t : Int),
      (∀ done x db t, x ∈ xs → I done db t → solo (f x) (fun _ => I (done ++ [x])) db t) →
      I done db t → solo (each xs f) (fun _ => I (done ++ xs)) db t
  | [], done, db, t, _, hI => solo_ret fun t' ht => by simpa using htime done db t t' ht hI
  | x :: xs, done, db, t, hstep, hI => by
    refine solo_seq (hstep done x db t List.mem_cons_self hI) fun _ db' t' _ h => ?_
    have := solo_each I htime xs (done ++ [x]) db' t'
      (fun done y db t hy => hstep done y db t (List.mem_cons_of_mem _ hy)) h
    simpa using this

theorem solo_mapEach {f : α → Prog σ ρ κ ε β} (I : List α → List β → σ → Int → Prop)
    (htime : ∀ done out db t t', t ≤ t' → I done out db t → I done out db t') :
    ∀ (xs done : List α) (out : List β) (db : σ) (t : Int),
      (∀ done out x db t, x ∈ xs → I done out db t →
        solo (f x) (fun b => I (done ++ [x]) (out ++ [b])) db t) → I done out db t →
      solo (mapEach xs f) (fun bs => I (done ++ xs) (out ++ bs)) db t
  | [], done, out, db, t, _, hI =>
    solo_ret fun t' ht => by simpa using htime done out db t t' ht hI
  | x :: xs, done, out, db, t, hstep, hI => by
    refine solo_seq (hstep done out x db t List.mem_cons_self hI) fun b db' t' _ h => ?_
    refine solo_seq (solo_mapEach I htime xs (done ++ [x]) (out ++ [b]) db' t'
      (fun done out y db t hy => hstep done out y db t (List.mem_cons_of_mem _ hy)) h)
      fun bs db'' t'' _ h' => solo_ret fun u hu => ?_
    have := htime _ _ _ _ u hu h'
    simpa using this

end Prog

/-! ## 2. Sequential runs -/

section Runs

variable {L : Type} [DecidableEq κ] {body : L → Prog σ ρ κ ε Unit}
  {ok : Sys σ ρ κ ε L → Action L → Prop} {s s' s₀ : Sys σ ρ κ ε L}

/-- A call begins only when nothing is open, and only where `pre` holds of it. -/
def Sequential (pre : L → σ → Int → Prop) (s : Sys σ ρ κ ε L) (a : Action L) : Prop :=
  ∀ l, a = .begin l → s.txs = [] ∧ pre l s.db s.clock

/-- In a sequential run at most one transaction is open. -/
theorem sequential_txs {pre : L → σ → Int → Prop} (h₀ : s₀.txs.length ≤ 1)
    (hr : Run body (Sequential pre) s₀ s) : s.txs.length ≤ 1 := by
  induction hr with
  | refl => exact h₀
  | tail a _ ha hs ih =>
    rcases step_cases hs with ⟨t, -, -, rfl⟩ | ⟨l, rfl, rfl⟩ | ⟨i, pre, tx, post, -, hf, -, rfl⟩ |
      ⟨i, pre, tx, post, tx', -, hf, -, rfl⟩ | ⟨i, pre, tx, post, u, -, hf, -, rfl⟩ |
      ⟨i, pre, tx, post, -, hf, rfl⟩
    · exact ih
    · simp [(ha l rfl).1]
    all_goals
      have := focus_some hf
      rw [this] at ih
      simp only [List.length_append, List.length_cons] at ih ⊢
      omega

/-- **A proof outline for sequential runs**: an invariant, and for each call what it makes of the
committed state. -/
structure SerialOutline (body : L → Prog σ ρ κ ε Unit) (pre : L → σ → Int → Prop) where
  inv : σ → Int → List (Finished L) → Prop
  /-- What a call begun at a time makes of one state by a later time. -/
  rel : L → Int → σ → σ → Int → Prop
  tick : ∀ {db t t' fin}, inv db t fin → t ≤ t' → inv db t' fin
  call : ∀ {l db t fin}, pre l db t → inv db t fin →
    Prog.solo (body l) (fun _ db' t' => rel l t db db' t') db t
  commit : ∀ {l t₀ db db' t fin}, inv db t fin → t₀ ≤ t → rel l t₀ db db' t →
    inv db' t (fin ++ [⟨l, t₀, t⟩])

namespace SerialOutline

variable {pre : L → σ → Int → Prop} (O : SerialOutline body pre)

/-- The same outline among interleavings, where no more than one transaction is ever open. -/
def outline : Outline body (fun s a => Sequential pre s a ∧ s.txs.length ≤ 1) where
  inv := O.inv
  rely _ := Rely.alone
  post l began w := began ≤ w.clock ∧ O.rel l began w.db w.seen w.clock
  tick := O.tick
  runs {s l} hok hinv := by
    have h := O.call (hok.1 l rfl).2 hinv
    refine Prog.wp_conseq (h (View.fresh s.db s.clock) rfl rfl (le_refl _))
      fun _ w hw hrel => ⟨hw.clock, ?_⟩
    rw [hrel.1]
    exact hrel.2
  commit {s i pre' tx post' s'} hok hs hf _ hinv hpost := by
    have hsplit := focus_some hf
    have hothers : pre' ++ post' = [] := by
      have := hok.2
      rw [hsplit] at this
      simp only [List.length_append, List.length_cons] at this
      exact List.length_eq_zero_iff.mp (by rw [List.length_append]; omega)
    rcases step_cases hs with ⟨t, ha, -⟩ | ⟨l, ha, -⟩ | ⟨j, p, x, q, ha, -⟩ |
      ⟨j, p, x, q, x', ha, -⟩ | ⟨j, p, x, q, u, ha, hf', -, rfl⟩ | ⟨j, p, x, q, ha, -⟩
    all_goals first | cases ha; done | skip
    injection ha with hij
    subst hij
    rw [hf] at hf'
    obtain ⟨rfl, rfl, rfl⟩ : pre' = p ∧ tx = x ∧ post' = q := by simpa using hf'
    refine ⟨O.commit hinv hpost.1 hpost.2, fun o ho => ?_⟩
    rw [hothers] at ho
    cases ho

theorem run_strengthen (h₀ : s₀.txs.length ≤ 1) (hr : Run body (Sequential pre) s₀ s) :
    Run body (fun s a => Sequential pre s a ∧ s.txs.length ≤ 1) s₀ s := by
  induction hr with
  | refl => exact .refl
  | tail a hr ha hs ih => exact ih.tail a ⟨ha, sequential_txs h₀ hr⟩ hs

/-- **The invariant holds in every state of every sequential run.** -/
theorem inv_run {db : σ} {t : Int} (h : O.inv db t [])
    (hr : Run body (Sequential pre) (Sys.idle db t) s) : O.inv s.db s.clock s.finished :=
  (O.outline.holds_run (O.outline.holds_idle h)
    (run_strengthen (by simp [Sys.idle]) hr)).inv

/-- **Each step of a sequential run** leaves the committed state alone or commits a call, which
made of it what the outline says. -/
theorem step_run {db : σ} {t : Int} (h : O.inv db t [])
    (hr : Run body (Sequential pre) (Sys.idle db t) s) {a : Action L}
    (hs : step body s a = some s') :
    s'.db = s.db ∧ s'.finished = s.finished ∨ ∃ l t₀, O.rel l t₀ s.db s'.db s.clock ∧
      s'.clock = s.clock ∧ s'.finished = s.finished ++ [⟨l, t₀, s.clock⟩] := by
  have holds := O.outline.holds_run (O.outline.holds_idle h)
    (run_strengthen (by simp [Sys.idle]) hr)
  cases a with
  | commit i =>
    obtain ⟨p, tx, q, -, hpost, rfl⟩ := O.outline.holds_commit holds hs
    exact .inr ⟨tx.label, tx.began, hpost.2, rfl, rfl⟩
  | _ =>
    left
    rcases step_cases hs with ⟨t, ha, -, rfl⟩ | ⟨l, ha, rfl⟩ | ⟨j, p, x, q, ha, -, -, rfl⟩ |
      ⟨j, p, x, q, x', ha, -, -, rfl⟩ | ⟨j, p, x, q, u, ha, -⟩ | ⟨j, p, x, q, ha, -, rfl⟩
    all_goals first | exact ⟨rfl, rfl⟩ | cases ha

end SerialOutline

/-! ## 3. Calls one after another -/

/-- A call that returns, begun where `pre` holds of it, runs to its commit. -/
theorem run_to_commit {pre : L → σ → Int → Prop} {l : L} {db : σ} {t : Int}
    {fin : List (Finished L)} (hpre : pre l db t) (h : (body l).returns db t = true) :
    ∃ s : Sys σ ρ κ ε L, Run body (Sequential pre) ⟨db, t, [], fin⟩ s ∧ s.db = db ∧
      s.finished = fin ∧ step body s (.commit 0) =
        some ⟨(body l).after db t, t, [], fin ++ [⟨l, t, t⟩]⟩ := by
  refine exec_run (fun s a hno l hl => absurd hl (hno l)) fin (fun l' hl' => ?_)
    (Prog.exec_after h)
  injection hl' with hl'
  exact hl' ▸ ⟨rfl, hpre⟩

/-- The same call, committed. -/
theorem run_call {pre : L → σ → Int → Prop} {l : L} {db : σ} {t : Int} {fin : List (Finished L)}
    (hpre : pre l db t) (h : (body l).returns db t = true) :
    Run body (Sequential pre) ⟨db, t, [], fin⟩
      ⟨(body l).after db t, t, [], fin ++ [⟨l, t, t⟩]⟩ :=
  let ⟨_, hrun, _, _, hstep⟩ := run_to_commit hpre h
  hrun.tail (.commit 0) (fun _ hl => nomatch hl) hstep

/-- Time passes. -/
theorem run_tick {pre : L → σ → Int → Prop} {db : σ} {t t' : Int} {fin : List (Finished L)}
    (h : t ≤ t') : Run body (Sequential pre) ⟨db, t, [], fin⟩ ⟨db, t', [], fin⟩ :=
  Run.refl.tail (.tick t') (fun _ hl => nomatch hl) (by simp [step, h])

/-- The database after calls, each at its time. -/
def afterCalls (body : L → Prog σ ρ κ ε Unit) : List (Int × L) → σ → σ
  | [], db => db
  | (t, l) :: calls, db => afterCalls body calls ((body l).after db t)

/-- Each of the calls returns, and time does not go back between them. -/
def callsReturn (body : L → Prog σ ρ κ ε Unit) : List (Int × L) → σ → Int → Bool
  | [], _, _ => true
  | (t', l) :: calls, db, t =>
    t ≤ t' && (body l).returns db t' && callsReturn body calls ((body l).after db t') t'

/-- The time after the calls. -/
def callsEnd (calls : List (Int × L)) (t : Int) : Int := calls.foldl (fun _ c => c.1) t

/-- Calls that all return are a sequential run. -/
theorem run_calls : ∀ (calls : List (Int × L)) {db : σ} {t : Int} {fin : List (Finished L)},
    callsReturn body calls db t = true →
      Run body (Sequential fun _ _ _ => True) ⟨db, t, [], fin⟩
        ⟨afterCalls body calls db, callsEnd calls t, [],
          fin ++ calls.map fun c => ⟨c.2, c.1, c.1⟩⟩
  | [], db, t, fin, _ => by
    rw [List.map_nil, List.append_nil]
    exact Run.refl
  | (t', l) :: calls, db, t, fin, h => by
    simp only [callsReturn, Bool.and_eq_true, decide_eq_true_eq] at h
    obtain ⟨⟨ht, hl⟩, hcalls⟩ := h
    rw [List.map_cons, List.append_cons]
    exact ((run_tick ht).trans (run_call trivial hl)).trans (run_calls calls hcalls)

end Runs

end NewlifeCore.Txn
