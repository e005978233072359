import FlashSale.Worker.IsolatedPass

/-!
# The sweep, blind to the other sales

All failed jobs are one list, so counts, pages and the offset of a sweep tell how many failed jobs
other sales have. What a sweep does depends on the terminally eligible jobs of its page
alone (`run_sweepFailed`): any other job is retained. `Isolated` makes these the same with and
without the other sales, and each of them is resolved without a look at the rows of other sales.
-/

namespace FlashSale

section

variable {env : WorkerEnv} {fuel : ℕ} {D : String → Prop} {s₀ s : Stores}

/-! ## Resolutions -/

theorem Pass.exec (h : Pass env s₀ s) {p : OrdersQueueJobPayload} {stm : Statement}
    (hst : Db.Resolves p stm) (hp : p.saleId = env.SALE_ID)
    (huser : s.db.OwnsUser p.saleId p.userId) {db : Db} {r : Except Failure stm.Res}
    (he : s.db.exec 0 stm = some (r, db)) : Pass env s₀ { s with db } := by
  refine ⟨h.jobs, h.distinct, h.failed, h.ledger, h.evolves.trans (.exec h.tables he),
    fun row hrow hs => ?_, h.tables.exec he, h.sorted.exec he, ?_⟩
  · rcases Db.mem_orders_exec he hrow with hrow | ⟨w, hw, rfl⟩
    · exact h.rows row hrow hs
    · exact absurd (h.pending w hw).sale hs
  · rw [← hp]
    exact Db.owned_exec hst huser (hp ▸ h.pending) he

section

variable (hi : Isolated env s₀)

include hi

/-- A statement of the resolution; what a `SELECT` tells of the row is in `P`. -/
theorem unseen_sql {p : OrdersQueueJobPayload} (hp : FailedPayload env s₀ p) {stm : Statement}
    (hst : Db.Resolves p stm)
    (hid : Db.Marks stm = true → s₀.db.OwnsId env.SALE_ID (pgUuid p.reservationId))
    (h : Pass env s₀ s) {P : stm.Res → Prop}
    (hP : ∀ a db, s.db.exec 0 stm = some (.ok a, db) → P a) :
    Unseen env s₀ (Pass env s₀) (sql 0 stm) P s := by
  have huser : s.db.OwnsUser p.saleId p.userId := by
    rw [hp.1]
    exact h.ownsUser (hi.users p hp)
  refine .call trivial ?_ fun r s' hr => ?_
  · show ((s.db.only env.SALE_ID).exec 0 stm).map _ = ((s.db.exec 0 stm).map _).map _
    rw [← hp.1, Db.exec_only hst huser (fun hm => hp.1 ▸ h.ownsId (hid hm)) h.sorted
      (hp.1 ▸ h.pending)]
    unfold Db.onOnly
    rw [Option.map_map, Option.map_map]
    rfl
  · obtain ⟨⟨r', db⟩, he, e⟩ := Option.map_eq_some_iff.1 hr
    obtain ⟨rfl, rfl⟩ := Prod.mk.inj e
    refine ⟨h.exec hst hp.1 huser he, fun a ha => hP a db ?_⟩
    rw [he]
    exact congrArg (fun x => some (x, db)) ha

theorem unseen_statement {p : OrdersQueueJobPayload} (hp : FailedPayload env s₀ p) {stm : Statement}
    (hst : Db.Resolves p stm) (hread : Db.Marks stm = false) (h : Pass env s₀ s) :
    Unseen env s₀ (Pass env s₀) (sql 0 stm) (fun _ => True) s :=
  unseen_sql hi hp hst (fun hm => by rw [hread] at hm; cases hm) h fun _ _ _ => trivial

theorem unseen_transaction {α : Type} {work : WorkerM α} {p : OrdersQueueJobPayload}
    (hp : FailedPayload env s₀ p) (h : Pass env s₀ s)
    (hw : ∀ s, Pass env s₀ s → Unseen env s₀ (Pass env s₀) work (fun _ => True) s) :
    Unseen env s₀ (Pass env s₀) (transaction 0 work) (fun _ => True) s := by
  unfold transaction
  refine .catchWith ?_ fun e t ht => ?_
  · refine .bind (unseen_statement hi hp .begin rfl h) fun _ t ht _ => ?_
    refine .bind (hw t ht) fun a t ht _ => ?_
    exact .bind (unseen_statement hi hp .commit rfl ht) fun _ t ht _ => .pure ht trivial
  · refine .bind (P := fun _ => True) ?_ fun _ t ht _ => .throw ht
    exact .catchWith (unseen_statement hi hp .rollback rfl ht) fun _ t ht => .pure ht trivial

omit hi in
theorem unseen_compensate (h : Pass env s₀ s) (u r : String) :
    Unseen env s₀ (Pass env s₀) (Store.compensate env.SALE_ID u r) (fun _ => True) s := by
  unfold Store.compensate
  rw [assertSaleId_env]
  refine unseen_script (o := .compensate env.SALE_ID u r) (f := fun sale => compensate sale u r)
    trivial (fun _ => rfl) (h.setSale fun u' v hv => .inl ?_) trivial
  have hdrop : ((s.sales env.SALE_ID).reservations.hdel u).hget u' = some v →
      (s.sales env.SALE_ID).reservations.hget u' = some v := by
    intro hv
    rw [Redis.Hash.hget_hdel] at hv
    split_ifs at hv
    exact hv
  rcases compensate_cases (s.sales env.SALE_ID) u r with
    ⟨e, -⟩ | ⟨v', -, -, ⟨-, e⟩ | ⟨-, -, e⟩ | ⟨-, -, e⟩⟩
  · rw [e] at hv; exact hv
  · rw [e] at hv; exact hdrop hv
  · rw [e] at hv; exact hdrop hv
  · rw [e] at hv; exact hdrop hv

/-- If the row the resolution finds is not persisted, the user had no persisted row at the start. -/
theorem ownsId_of_select {p : OrdersQueueJobPayload} (hp : FailedPayload env s₀ p)
    (h : Pass env s₀ s) {found : Option (String × DurableOrderStatus)} {db : Db}
    (he : s.db.exec 0 (.selectUserForUpdate p.userId) = some (.ok found, db))
    (hfound : ∀ id, found ≠ some (id, .persisted)) :
    s₀.db.OwnsId env.SALE_ID (pgUuid p.reservationId) := by
  refine (hi.markers p hp).resolve_left ?_
  rintro ⟨r, row, hrow, -, hu, hstatus, -⟩
  have hone : (s₀.db.orders.map (·.userId)).Nodup := h.tables.users.sublist h.evolves.order
  have hold := Db.row?_of_mem_orders hone hrow
  rw [hu] at hold
  have hnow := h.evolves.keeps _ row hold hstatus
  rcases Db.exec_selectUserForUpdate he with ⟨e, -⟩ | ⟨-, hnone, -⟩ | ⟨tx, row', -, hrow', e, -⟩
  · cases e
  · rw [hnone] at hnow
    cases hnow
  · obtain rfl := Except.ok.inj e
    obtain rfl := Option.some.inj (hnow.symm.trans hrow')
    exact hfound row.id (by rw [hstatus])

theorem unseen_resolveFailed {p : OrdersQueueJobPayload} (hp : FailedPayload env s₀ p)
    (h : Pass env s₀ s) : Unseen env s₀ (Pass env s₀)
      (resolveFailed 0 p (Store.compensate p.saleId p.userId p.reservationId)) (fun _ => True) s := by
  rw [hp.1]
  unfold resolveFailed
  refine .bind (unseen_transaction hi hp h fun s h => ?_) fun a t ht _ => ?_
  · unfold resolveFailedWork
    refine .bind (unseen_statement hi hp .lock rfl h) fun _ t ht _ => ?_
    refine .bind (unseen_sql hi hp .select (fun hm => by cases hm) ht
      (P := fun found => (∀ id, found ≠ some (id, .persisted)) →
        s₀.db.OwnsId env.SALE_ID (pgUuid p.reservationId))
      fun found db he => ownsId_of_select hi hp ht he) fun found t ht hfound => ?_
    cases found with
    | none =>
      have hid := hfound (by simp)
      refine .bind (unseen_compensate ht _ _) fun _ t ht _ => ?_
      exact .bind (unseen_sql hi hp .insert (fun _ => hid) ht fun _ _ _ => trivial)
        fun _ t ht (_ : True) => .pure ht trivial
    | some current =>
      obtain ⟨currentId, status⟩ := current
      dsimp only
      split_ifs with hsame hpersisted hcompensated
      · exact .pure ht trivial
      · exact .pure ht trivial
      · have hid := hfound (by rw [hcompensated]; simp)
        refine .bind (unseen_compensate ht _ _) fun _ t ht _ => ?_
        refine .bind (unseen_sql hi hp (.update currentId) (fun _ => hid) ht fun _ _ _ => trivial)
          fun _ t ht (_ : True) => ?_
        exact .throwIf_bind ht fun _ => .pure ht trivial
      · exact .bind (unseen_compensate ht _ _) fun _ t ht _ => .pure ht trivial
  · obtain ⟨result, after⟩ := a
    dsimp only
    split_ifs
    · exact .bind (unseen_compensate ht _ _) fun _ t ht _ => .pure ht trivial
    · exact .pure ht trivial

end

/-! ## The eligible jobs of a page -/

/-- The page of failed jobs a sweep works on, with its start; an empty page starts over. -/
def failedPage (env : WorkerEnv) (s : Stores) (start : ℕ) : ℕ × List StoredJob :=
  let page := (s.failed.drop start).take env.WORKER_DLQ_SCAN_COUNT
  if page.isEmpty then (0, s.failed.take env.WORKER_DLQ_SCAN_COUNT) else (start, page)

/-- The jobs a sweep resolves. -/
def sweptJobs (env : WorkerEnv) (s : Stores) : List StoredJob :=
  (failedPage env s (s.failedScanOffset % s.failed.length)).2.filter (·.job.terminallyEligible)

/-- What a sweep does to the jobs it resolves. -/
def sweepWork (sts : List StoredJob) : WorkerM Unit := do
  let acc ← Prog.forEach (sts.map fun st => some st.job) ⟨0, 0, []⟩ sweepJob
  Prog.throwIf (acc.operationalErrors.isEmpty = false)
    (.aggregate acc.operationalErrors "one or more terminal jobs failed resolution")

theorem mem_failedPage {start : ℕ} {st : StoredJob} (h : st ∈ (failedPage env s start).2) :
    st ∈ s.failed := by
  unfold failedPage at h
  dsimp only at h
  split_ifs at h
  · exact List.mem_of_mem_take h
  · exact List.mem_of_mem_drop (List.mem_of_mem_take h)

theorem run_sweepPage (env : WorkerEnv) (hd : s.queue.Distinct) (start : ℕ) :
    (sweepPage env start).run Stores.answer s = some (.ok ((failedPage env s start).1,
      (failedPage env s start).2.map fun st => some st.job), s) := by
  have hpage (start : ℕ) := run_getJobs s .failed start (start + env.WORKER_DLQ_SCAN_COUNT - 1)
  simp only [JobQueue.map_getRange hd .failed _ env.dlqPage_pos] at hpage
  have hfirst := hpage 0
  rw [Nat.zero_add, List.drop_zero] at hfirst
  unfold sweepPage failedPage Stores.failed
  rw [Prog.bind_eq, Prog.run_bind_of_ok (hpage start), List.isEmpty_map]
  dsimp only
  split_ifs
  · rw [Prog.bind_eq, Prog.run_bind_of_ok hfirst]
    rfl
  · rfl

/-- Any other job is retained. -/
theorem run_sweepJob_retained (s : Stores) {job : Job} (hx : job.terminallyEligible = false)
    (acc : Sweep) :
    (sweepJob acc (some job)).run Stores.answer s = some (.ok acc.retain, s) := by
  cases hc : classifyQueueEntry job .failed with
  | error issue => exact (Turn.run_sweepJob (.malformed s hc) acc).1
  | ok item =>
    refine (Turn.run_sweepJob (.ineligible  hc rfl ?_) acc).1
    have hleft : job.exhausted = false := by
      unfold Job.terminallyEligible at hx
      rw [hc] at hx
      exact hx
    unfold Job.eligible
    simp [hleft]

/-- What the outcome of the loop tells of its accumulator. -/
def loopErrors (q : Except Failure Sweep × Stores) : Except Failure (List Failure) × Stores :=
  (q.1.map (·.operationalErrors), q.2)

/-- The loop goes over the eligible jobs; what it has counted before does not matter. -/
theorem run_sweepLoop (sts : List StoredJob) {acc acc' : Sweep} (s : Stores)
    (hacc : acc.operationalErrors = acc'.operationalErrors) :
    ((Prog.forEach (sts.map fun st => some st.job) acc sweepJob).run Stores.answer s).map
        loopErrors =
      ((Prog.forEach ((sts.filter (·.job.terminallyEligible)).map fun st => some st.job) acc'
        sweepJob).run Stores.answer s).map loopErrors := by
  induction sts generalizing acc acc' s with
  | nil =>
    show some (Except.ok acc.operationalErrors, s) = some (Except.ok acc'.operationalErrors, s)
    rw [hacc]
  | cons st sts ih =>
    rw [List.map_cons, Prog.forEach]
    cases hx : st.job.terminallyEligible with
    | false =>
      rw [List.filter_cons_of_neg (by simp [hx]),
        Prog.run_bind_of_ok (run_sweepJob_retained s hx acc)]
      exact ih s hacc
    | true =>
      rw [List.filter_cons_of_pos (by simpa using hx), List.map_cons, Prog.forEach]
      rcases @stops_or_turn _ Stores.answer st.job s with hstops | ⟨_, verdict, t, hturn⟩
      · rw [Prog.run_bind, Prog.run_bind, hstops, hstops]
        rfl
      · rw [Prog.run_bind_of_ok (hturn.run_sweepJob acc).1,
          Prog.run_bind_of_ok (hturn.run_sweepJob acc').1]
        refine ih t ?_
        cases verdict with
        | skipped => exact hacc
        | retained => exact hacc
        | removed => exact hacc
        | failed e => exact congrArg (· ++ [e]) hacc

theorem run_sweepRest (saleId : String) (start : ℕ) (sts : List StoredJob) (s : Stores) :
    ((sweepRest start (sts.map fun st => some st.job)).run Stores.answer s).map
        (Prog.seen (Stores.view saleId)) =
      ((sweepWork (sts.filter (·.job.terminallyEligible))).run Stores.answer s).map
        (Prog.seen (Stores.view saleId)) := by
  have hloop := @run_sweepLoop sts ⟨0, 0, []⟩ ⟨0, 0, []⟩ s rfl
  unfold sweepRest sweepWork
  show ((Prog.bind _ _).run Stores.answer s).map _ = ((Prog.bind _ _).run Stores.answer s).map _
  rw [Prog.run_bind, Prog.run_bind]
  generalize (Prog.forEach (sts.map fun st => some st.job) ⟨0, 0, []⟩ sweepJob).run Stores.answer s =
    full at hloop ⊢
  generalize (Prog.forEach ((sts.filter (·.job.terminallyEligible)).map fun st => some st.job)
    ⟨0, 0, []⟩ sweepJob).run Stores.answer s = part at hloop ⊢
  cases full with
  | none =>
    cases part with
    | none => rfl
    | some q => cases hloop
  | some q =>
    cases part with
    | none => cases hloop
    | some q' =>
      obtain ⟨r, t⟩ := q
      obtain ⟨r', t'⟩ := q'
      obtain ⟨hr, ht⟩ := Prod.mk.inj (Option.some.inj hloop)
      obtain rfl : t = t' := ht
      cases r with
      | error e =>
        cases r' with
        | error e' =>
          obtain rfl := Except.error.inj hr
          rfl
        | ok acc' => cases hr
      | ok acc =>
        cases r' with
        | error e' => cases hr
        | ok acc' =>
          have herrors : acc.operationalErrors = acc'.operationalErrors := Except.ok.inj hr
          -- the count and the new offset are out of view
          show Option.map _ ((Prog.bind (Prog.throwIf (acc.operationalErrors.isEmpty = false) _)
            _).run Stores.answer { t with failedScanOffset := _ }) = Option.map _
              ((Prog.throwIf (acc'.operationalErrors.isEmpty = false) _).run Stores.answer t)
          unfold Prog.throwIf
          rw [herrors]
          split_ifs
          · rfl
          · rfl

/-- **The sweep.** As far as the data of a sale show, a sweep does what it does to the eligible jobs of
its page. -/
theorem run_sweepFailed (env : WorkerEnv) (hd : s.queue.Distinct) :
    ((sweepFailed env).run Stores.answer s).map (Prog.seen (Stores.view env.SALE_ID)) =
      ((sweepWork (sweptJobs env s)).run Stores.answer s).map
        (Prog.seen (Stores.view env.SALE_ID)) := by
  have hcount : Stores.answer (.countJobs .failed) s = some (.ok s.failed.length, s) := by
    unfold Stores.failed
    rw [← List.countP_eq_length_filter]
    rfl
  by_cases hzero : s.failed.length = 0
  · have hnone : (failedPage env s (s.failedScanOffset % s.failed.length)).2 = [] := by
      refine List.eq_nil_iff_forall_not_mem.2 fun st hst => ?_
      have hpos := List.length_pos_of_mem (mem_failedPage hst)
      omega
    unfold sweepFailed sweepWork sweptJobs
    rw [Prog.bind_eq, request, Prog.run_call_bind hcount, if_pos hzero, hnone]
    rfl
  · have hread : PageRead Stores.answer env s _ (failedPage env s
        (s.failedScanOffset % s.failed.length)).1 ((failedPage env s
          (s.failedScanOffset % s.failed.length)).2.map fun st => some st.job) s :=
      ⟨s.failed.length, s.failedScanOffset, s, s, hzero, hcount, rfl, run_sweepPage env hd _, rfl⟩
    rw [hread.run.1]
    exact run_sweepRest _ _ _ s

/-! ## The page with and without the other sales -/

/-- A first page that holds every eligible job. -/
theorem sweptJobs_of_first (hd : s.failed.Nodup)
    (h : ∀ st ∈ s.failed, st.job.terminallyEligible = true →
      s.failedScanOffset = 0 ∧ st ∈ s.failed.take env.WORKER_DLQ_SCAN_COUNT) :
    sweptJobs env s = s.failed.filter (·.job.terminallyEligible) := by
  by_cases hnone : s.failed.filter (·.job.terminallyEligible) = []
  · rw [hnone]
    unfold sweptJobs
    rw [List.filter_eq_nil_iff] at hnone ⊢
    exact fun st hst => hnone st (mem_failedPage hst)
  · obtain ⟨st, hst⟩ := List.exists_mem_of_ne_nil _ hnone
    obtain ⟨hst, hx⟩ := List.mem_filter.1 hst
    unfold sweptJobs failedPage
    rw [(h st hst hx).1, Nat.zero_mod, List.drop_zero]
    dsimp only
    split_ifs
    · exact Paging.filter_take hd fun x hx hp => (h x hx hp).2
    · exact Paging.filter_take hd fun x hx hp => (h x hx hp).2

theorem failed_only (saleId : String) (s : Stores) :
    (s.only saleId).failed = s.failed.filter (·.job.ofSale saleId) := by
  unfold Stores.failed Stores.only JobQueue.only
  dsimp only
  rw [List.filter_filter, List.filter_filter]
  congr 1
  funext st
  exact Bool.and_comm _ _

theorem Pass.nodup_failed (h : Pass env s₀ s) : s.failed.Nodup :=
  (List.Nodup.of_map _ h.distinct).sublist List.filter_sublist

/-- A failed job of the pass, and whose it can be. -/
theorem Pass.mem_failed (h : Pass env s₀ s) {st : StoredJob} (hst : st ∈ s.failed) :
    st ∈ s₀.failed ∧ st ∈ s₀.queue.jobs ∧ st.state = .failed := by
  have hold := h.failed.subset hst
  have hm := List.mem_filter.1 hold
  exact ⟨hold, hm.1, by simpa using hm.2⟩

theorem Pass.own_of_eligible (h : Pass env s₀ s) (hi : Isolated env s₀) {st : StoredJob}
    (hst : st ∈ s.failed) (hx : st.job.terminallyEligible = true) :
    st.job.ofSale env.SALE_ID = true := by
  obtain ⟨-, hm, hstate⟩ := h.mem_failed hst
  by_contra hs
  have hleft := hi.sweep st hm (Bool.eq_false_of_not_eq_true hs) hstate
  rw [hx] at hleft
  cases hleft

/-- The sweep resolves the same jobs without the other sales. -/
theorem Recovering.sweptJobs_only (h : Recovering env s₀ D s) (hi : Isolated env s₀)
    (hd : s₀.queue.Distinct) : sweptJobs env (s.only env.SALE_ID) = sweptJobs env s := by
  have hd₀ : s₀.failed.Nodup := (List.Nodup.of_map _ hd).sublist List.filter_sublist
  rcases hi.page with hown | hfirst
  · have hall : s.failed.filter (·.job.ofSale env.SALE_ID) = s.failed :=
      List.filter_eq_self.2 fun st hst => hown st (h.pass.failed.subset hst)
    unfold sweptJobs failedPage
    rw [failed_only, hall]
    rfl
  · have hfirst' : ∀ (l : List StoredJob), l.Sublist s.failed →
        ∀ st ∈ l, st.job.terminallyEligible = true →
          s.failedScanOffset = 0 ∧ st ∈ l.take env.WORKER_DLQ_SCAN_COUNT := by
      intro l hl st hst hx
      have hmem := hl.subset hst
      obtain ⟨hzero, htake⟩ := hfirst st (h.pass.failed.subset hmem)
        (h.pass.own_of_eligible hi hmem hx) hx
      exact ⟨h.offset.trans hzero, Paging.mem_take_of_sublist (hl.trans h.pass.failed) hd₀ hst htake⟩
    have hsub : (s.only env.SALE_ID).failed.Sublist s.failed := by
      rw [failed_only]
      exact List.filter_sublist
    rw [sweptJobs_of_first (h.pass.nodup_failed) (hfirst' _ (.refl _)),
      sweptJobs_of_first (h.pass.nodup_failed.sublist hsub) (hfirst' _ hsub), failed_only,
      List.filter_filter]
    refine List.filter_congr fun st hst => ?_
    cases hx : st.job.terminallyEligible with
    | false => simp
    | true => simp [h.pass.own_of_eligible hi hst hx]

/-! ## The jobs of the sale -/

section

variable (hr : Ready fuel s₀) (hi : Isolated env s₀)

include hr hi

theorem unseen_sweepJob {acc : Sweep} {st : StoredJob} (hst : st ∈ s₀.failed)
    (hown : st.job.ofSale env.SALE_ID = true) (hx : st.job.terminallyEligible = true)
    (h : Pass env s₀ s) :
    Unseen env s₀ (Pass env s₀) (sweepJob acc (some st.job)) (fun _ => True) s := by
  obtain ⟨hm, hstate⟩ := List.mem_filter.1 hst
  have hstate : st.state = .failed := by simpa using hstate
  unfold sweepJob
  dsimp only
  cases hc : classifyQueueEntry st.job .failed with
  | error e => exact .pure h trivial
  | ok scanned =>
    obtain ⟨-, hdata, -⟩ := classifyQueueEntry_ok hc
    have hp : FailedPayload env s₀ scanned.payload := by
      obtain ⟨p, hp, hsale⟩ := Job.ofSale_iff.1 hown
      rw [hdata] at hp
      obtain rfl := Except.ok.inj hp
      exact ⟨hsale, st, hm, hstate, hx, hdata⟩
    have hslot : ∀ s, Pass env s₀ s → s.queue.Owns env.SALE_ID st.job.id :=
      fun s h => h.owns_stored hr.distinct hm hown
    refine .catchWith ?_ fun _ t ht => .pure ht trivial
    unfold resolveJob
    refine .bind_read (unseen_getState (hslot s h) (P := fun _ => True) trivial) h
      fun actualState _ => ?_
    split_ifs
    · exact .pure h trivial
    · refine .bind (unseen_resolveFailed hi hp h) fun _ t ht _ => ?_
      exact .bind (unseen_removeJob (hslot t ht) (ht.remove st.job.id)) fun _ t ht _ =>
        .pure ht trivial

theorem unseen_sweepWork (h : Pass env s₀ s) {sts : List StoredJob}
    (hsts : ∀ st ∈ sts, st ∈ s.failed ∧ st.job.terminallyEligible = true) :
    Unseen env s₀ (Pass env s₀) (sweepWork sts) (fun _ => True) s := by
  unfold sweepWork
  refine .bind (.forEach (R := fun _ => True) (fun found hfound acc t ht _ => ?_) h trivial)
    fun acc t ht _ => ?_
  · obtain ⟨st, hst, rfl⟩ := List.mem_map.1 hfound
    obtain ⟨hm, hx⟩ := hsts st hst
    exact unseen_sweepJob hr hi (h.failed.subset hm) (h.own_of_eligible hi hm hx) hx ht
  · unfold Prog.throwIf
    split_ifs
    · exact .throw ht
    · exact .pure ht trivial

end

end

end FlashSale
