import FlashSale.Worker.IsolatedRecovery
import FlashSale.Worker.IsolatedSweep

/-!
# Sale isolation of `runDiff`

A pass is two scans, the loops, and the end with the stock and the sweep. The loops are blind to the
other sales. The end is not, as `queueIssueCount` and the offset of the next sweep count all failed
jobs, but it agrees on the data of the sale. Last comes the run that shows what happens without the
condition.
-/

namespace FlashSale

section

variable {env : WorkerEnv} {fuel : ℕ} {s₀ s : Stores}

/-! ## The loops -/

/-- The loops of a pass, once the rows and the jobs are scanned. -/
def runLoops (env : WorkerEnv) (fuel : ℕ) (orders : List DurableOrder) (jobs : List ScannedJob) :
    WorkerM Recovery := do
  let acc ← Prog.forEach orders ⟨mapOf (·.userId) orders, fun _ => none, []⟩ (recoverRow env)
  let acc ← Prog.forEach jobs acc (recoverJob env)
  let ledger ← scanLedger env fuel 0 []
  let acc ← Prog.forEach ledger { acc with ledgerByUser := mapOf (·.userId) ledger } (coverEntry env)
  checkBuyers env fuel 0 acc

theorem runDiff_eq (env : WorkerEnv) (fuel : ℕ) : runDiff env fuel =
    (scanOrders env fuel 0 []).bind fun orders => (scanJobs env fuel).bind fun scan =>
      (runLoops env fuel orders scan.jobs).bind fun acc => finishDiff env scan.issues.length acc := by
  unfold runDiff runLoops
  simp only [Prog.bind_eq, Prog.bind_assoc]

/-- A job of another sale is not presented. -/
theorem recoverJob_foreign (hone : (s.db.orders.map (·.userId)).Nodup) (hi : Isolated env s)
    {item : ScannedJob} (hitem : ∃ st ∈ s.queue.jobs, st.verdict = .ok item)
    (hforeign : item.job.ofSale env.SALE_ID = false) {acc : Recovery}
    (hb : acc.byUser = mapOf (·.userId) (saleRows env s)) : recoverJob env acc item = .pure acc := by
  obtain ⟨st, hst, hv⟩ := hitem
  obtain ⟨hitem, -, -⟩ := classifyQueueEntry_ok (st.verdict_ok hv).1
  have hjob : item.job = st.job := by rw [hitem]
  have hstate : item.state = st.state := by rw [hitem]
  unfold recoverJob
  split_ifs with hl hmark
  · rfl
  · rfl
  · refine absurd ?_ (hi.recovery st hst (hjob ▸ hforeign) item.payload)
    refine ⟨by rw [hv, hitem], by rw [← hstate]; simpa using hl, fun hrec => ?_⟩
    obtain ⟨row, hrow, hstatus, hid⟩ := (recorded_iff hone).1 hrec
    exact hmark (by rw [hb, hrow]; simp [hstatus, hid])

/-- The loop over the queue does the same for the jobs of the sale alone. -/
theorem runLoops_only (hone : (s.db.orders.map (·.userId)).Nodup) (hi : Isolated env s) :
    runLoops env fuel (saleRows env s) (scannedQueue (s.queue.only env.SALE_ID)).jobs =
      runLoops env fuel (saleRows env s) (scannedQueue s.queue).jobs := by
  unfold runLoops
  refine (valuesIn_loop valuesIn_recoverRow _ _).bind_congr fun acc hacc => ?_
  rw [Prog.bind_eq, Prog.bind_eq, scannedQueue_only]
  congr 1
  refine Prog.forEach_filter (fun item : ScannedJob => item.job.ofSale env.SALE_ID)
    (R := fun acc => acc.byUser = mapOf (·.userId) (saleRows env s)) _ (fun item hitem hs acc hb => ?_)
    (fun acc item hb => (valuesIn_recoverJob acc item).mono fun _ h => h.1.trans hb) hacc.1
  obtain ⟨st, ⟨hst, -⟩, hv⟩ := (reports_scannedQueue s.queue).source item hitem
  exact recoverJob_foreign hone hi ⟨st, hst, hv⟩ hs hb

/-- The loops are blind to the other sales. -/
theorem blind_runLoops (hr : Ready fuel s) (hi : Isolated env s) :
    Prog.Blind Stores.answer (Stores.only env.SALE_ID) (Origin env s)
      (runLoops env fuel (saleRows env s) (scannedQueue (s.queue.only env.SALE_ID)).jobs)
      (Prog.post (fun _ => RowsRecovered env s) fun _ => Pass env s) s := by
  have hweak : ∀ t, RowsRecovered env s t → Pass env s t := fun _ ht => ht.pass
  unfold runLoops
  refine .seq (.returns (blind_recoverRows hi hr.recovering)
    ((valuesIn_loop valuesIn_recoverRow _ _).returns _ _)) (fun _ t ht => ht.pass) fun acc t ht => ?_
  obtain ⟨ht, hb, -⟩ := ht
  have hjobs : Unseen env s (RowsRecovered env s)
      (Prog.forEach (scannedQueue (s.queue.only env.SALE_ID)).jobs acc (recoverJob env))
      (fun acc => acc.byUser = mapOf (·.userId) (saleRows env s)) t := by
    refine .forEach (fun item hitem acc t ht hb => ?_) ht hb
    rw [scannedQueue_only] at hitem
    obtain ⟨hitem, hown⟩ := List.mem_filter.1 hitem
    obtain ⟨st, ⟨hst, -⟩, hv⟩ := (reports_scannedQueue s.queue).source item hitem
    exact .weaken (.returns (unseen_recoverJob hi hb ⟨st, hst, hv⟩ hown ht)
      ((valuesIn_recoverJob acc item).returns _ _)) fun _ h => h.2.1.trans hb
  refine .seq hjobs (fun _ t ht => ht.pass) fun acc t ht => ?_
  obtain ⟨ht, hb⟩ := ht
  refine .seq (.returns (unseen_scanLedger fuel) ((ends_scanLedger fuel).mono fun _ _ h => h.1))
    (fun _ u hu => by rw [show u = t from hu]; exact ht.pass) fun ledger u hu => ?_
  obtain ⟨⟨rfl, -⟩, hscan⟩ := hu
  have hcover : Unseen env s (RowsRecovered env s)
      (Prog.forEach ledger { acc with ledgerByUser := mapOf (·.userId) ledger } (coverEntry env))
      (fun acc => acc.byUser = mapOf (·.userId) (saleRows env s) ∧
        acc.ledgerByUser = mapOf (·.userId) ledger) u := by
    refine .forEach (fun entry hentry acc v hv hmaps => ?_) ht ⟨hb, rfl⟩
    obtain ⟨hknown, hacc⟩ := ht.scanned hscan hentry
    exact .weaken (.returns (unseen_coverEntry hi hmaps.1 hknown hacc hv)
      ((valuesIn_coverEntry acc entry).returns _ _))
      fun _ h => ⟨h.2.1.trans hmaps.1, h.2.2.trans hmaps.2⟩
  refine .seq hcover (fun _ t ht => ht.pass) fun acc v hv => ?_
  have hseen : ∀ w, (∃ r, Recorded env s .persisted w r) → (acc.ledgerByUser w).isSome = true := by
    intro w hw
    rw [hv.2.2]
    exact ht.mapOf_scanned hscan hw
  refine Prog.Blind.mono (unseen_checkBuyers hi fuel hseen hv.1) fun r w hw => ?_
  cases r with
  | ok acc => exact hw.1
  | error e => exact (show RowsRecovered env s w from hw).pass

/-! ## The end -/

theorem callsIn_getJobs (state : JobState) (start stop : ℕ) :
    (getJobs state start stop).CallsIn (Origin env s₀) := by
  unfold getJobs
  refine .bind (.call trivial) fun ids => .forEach (fun jobs id => ?_) ids []
  exact .bind (.call trivial) fun job => trivial

theorem callsIn_scanJobs (fuel : ℕ) : (scanJobs env fuel).CallsIn (Origin env s₀) := by
  have hstate (state : JobState) (fuel start : ℕ) (scan : QueueScanResult) :
      (scanState env state fuel start scan).CallsIn (Origin env s₀) := by
    induction fuel generalizing start scan with
    | zero => trivial
    | succ fuel ih =>
      unfold scanState
      refine .bind (callsIn_getJobs _ _ _) fun page => ?_
      refine .bind (.forEach (fun scan found => ?_) page scan) fun scan => ?_
      · unfold scanJob
        cases found with
        | none => trivial
        | some job =>
          dsimp only
          cases classifyQueueEntry job state with
          | error e => trivial
          | ok item =>
            dsimp only
            split_ifs
            · exact .bind (.bind (.call trivial) fun _ => trivial) fun _ => trivial
            · trivial
      · split_ifs
        · trivial
        · exact ih _ _
  exact .forEach (fun scan state => hstate state fuel 0 scan) _ _

theorem callsIn_sweepFailed : (sweepFailed env).CallsIn (Origin env s₀) := by
  have hturn (acc : Sweep) (found : Option Job) : (sweepJob acc found).CallsIn (Origin env s₀) := by
    unfold sweepJob
    cases found with
    | none => trivial
    | some job =>
      dsimp only
      cases classifyQueueEntry job .failed with
      | error issue => trivial
      | ok scanned =>
        refine .catchWith ?_ fun _ => trivial
        unfold resolveJob
        refine .bind (.call trivial) fun state => ?_
        split_ifs
        · trivial
        · refine .bind ((callsIn_resolution scanned.payload).mono fun o ho => ?_) fun _ =>
            .bind (.call trivial) fun _ => trivial
          cases o <;> trivial
  have hpage (start : ℕ) : (sweepPage env start).CallsIn (Origin env s₀) := by
    refine .bind (callsIn_getJobs _ _ _) fun failed => ?_
    split_ifs
    · exact .bind (callsIn_getJobs _ _ _) fun _ => trivial
    · trivial
  unfold sweepFailed
  refine .bind (.call trivial) fun total => ?_
  split_ifs
  · exact .bind (.call trivial) fun _ => trivial
  · refine .bind (.call trivial) fun offset => .bind (hpage _) fun page => ?_
    refine .bind (.forEach hturn _ _) fun acc => .bind (.call trivial) fun after => ?_
    exact .bind (.call trivial) fun _ => .bind (.throwIf _ _) fun _ => trivial

/-- The ledger holds values of the start and values with a source. -/
def LedgerSourced (env : WorkerEnv) (s₀ s : Stores) : Prop :=
  ∀ u v, (s.sales env.SALE_ID).reservations.hget u = some v →
    (s₀.sales env.SALE_ID).reservations.hget u = some v ∨ Source env s₀ u (ledgerIdentity v)

/-- The sweep agrees on the data of the sale. -/
theorem agrees_sweepFailed (hr : Ready fuel s₀) (hi : Isolated env s₀) (h : RowsRecovered env s₀ s) :
    Prog.Agrees Stores.answer (Stores.only env.SALE_ID) (Stores.view env.SALE_ID) (Origin env s₀)
      (sweepFailed env) (sweepFailed env) (fun _ => LedgerSourced env s₀) s := by
  have hwork := @unseen_sweepWork _ _ _ _ hr hi h.pass (sweptJobs env s) fun st hst =>
    ⟨mem_failedPage (List.mem_filter.1 hst).1, by simpa using (List.mem_filter.1 hst).2⟩
  have hsweep := run_sweepFailed env h.pass.distinct
  refine ⟨?_, callsIn_sweepFailed.made _ _, fun r t hrun => ?_⟩
  · rw [run_sweepFailed env (h.pass.distinct.only _), hsweep, h.sweptJobs_only hi hr.distinct,
      hwork.commutes, Option.map_map]
    congr 1
    funext q
    exact Prod.ext rfl (Stores.view_only _ _)
  · rw [hrun] at hsweep
    obtain ⟨⟨r', t'⟩, hrun', hseen⟩ := Option.map_eq_some_iff.1 hsweep.symm
    have hpass : Pass env s₀ t' := by
      have hend := hwork.ends r' t' hrun'
      cases r' with
      | ok a => exact hend.1
      | error e => exact hend
    have hview : t'.view env.SALE_ID = t.view env.SALE_ID := (Prod.mk.inj hseen).2
    have hsale : t.sales env.SALE_ID = t'.sales env.SALE_ID := by
      have hat := congrArg (fun u : Stores => u.sales env.SALE_ID) hview
      unfold Stores.view at hat
      simpa only [Stores.sales_only] using hat.symm
    intro u v hv
    rw [hsale] at hv
    exact hpass.ledger u v hv

theorem agrees_finishDiff (hr : Ready fuel s₀) (hi : Isolated env s₀) (h : RowsRecovered env s₀ s)
    (issues' issues : ℕ) (acc : Recovery) :
    Prog.Agrees Stores.answer (Stores.only env.SALE_ID) (Stores.view env.SALE_ID) (Origin env s₀)
      (finishDiff env issues' acc) (finishDiff env issues acc) (fun _ => LedgerSourced env s₀) s := by
  have hstock : Unseen env s₀ (RowsRecovered env s₀)
      (Store.reconcileStockFromReservations env.SALE_ID) (fun _ => True) s := by
    unfold Store.reconcileStockFromReservations
    rw [assertSaleId_env]
    obtain ⟨hl, -, hb⟩ := reconcileState_keys (s.sales env.SALE_ID)
    exact unseen_script (o := .reconcileState env.SALE_ID) (f := reconcileState) trivial
      (fun _ => rfl) (h.sameLedger hl fun u hu => .inl (hb ▸ hu)) trivial
  unfold finishDiff
  refine .bind (Stores.view_only _) (Prog.Blind.mono hstock fun r t ht => ?_)
  cases r with
  | error e => exact (show RowsRecovered env s₀ t from ht).pass.ledger
  | ok stock =>
    have ht : RowsRecovered env s₀ t := ht.1
    refine .throwIf_bind (Stores.view_only _) ht.pass.ledger fun _ => ?_
    refine .bind_quiet (agrees_sweepFailed hr hi ht) (fun dlq u => ⟨_, rfl⟩)
      (fun dlq u => ⟨_, rfl⟩) fun dlq => ?_
    exact .bind (.call trivial) fun _ => .bind (.call trivial) fun _ => trivial

/-- A pass agrees on the data of the sale. -/
theorem agrees_runDiff (hr : Ready fuel s) (hi : Isolated env s) :
    Prog.Agrees Stores.answer (Stores.only env.SALE_ID) (Stores.view env.SALE_ID) (Origin env s)
      (runDiff env fuel) (runDiff env fuel) (fun _ => LedgerSourced env s) s := by
  have hone : (s.db.orders.map (·.userId)).Nodup := hr.tables.users
  have hcount : (s.queue.only env.SALE_ID).jobs.length < fuel :=
    (List.filter_sublist.length_le).trans_lt hr.fuel
  have horders : Unseen env s (· = s) (scanOrders env fuel 0 []) (fun rows => rows = saleRows env s)
      s := .weaken (.returns (unseen_scanOrders fuel) ((ends_scanOrders fuel).mono fun _ _ h => h.1))
    fun _ h => h.2
  rw [runDiff_eq]
  refine .bind (Stores.view_only _) (Prog.Blind.mono horders fun r t ht => ?_)
  cases r with
  | error e =>
    rw [show t = s from ht]
    exact hr.pass.ledger
  | ok orders =>
    obtain ⟨rfl, rfl⟩ := ht
    -- the scan reports the jobs of other sales too, and the loops do the same without them
    refine .bind_of_runs (run_scanJobs_enough hr.distinct hr.fuel)
      (run_scanJobs_enough (s := t.only env.SALE_ID) (hr.distinct.only _) hcount)
      ((callsIn_scanJobs fuel).made _ _) ?_
    rw [← runLoops_only hone hi]
    refine .bind (Stores.view_only _) (Prog.Blind.mono (blind_runLoops hr hi) fun r u hu => ?_)
    cases r with
    | error e => exact (show Pass env t u from hu).ledger
    | ok acc => exact agrees_finishDiff hr hi hu _ _ acc

end

/-- **Sale isolation.** From stores that agree on the data of the sale, and whose other data stay
out of its way, a pass ends the same way, up to its counts, with the same data of the sale, up to the
offset of the next sweep. It presents for restoration only identities with a source and enqueues only
reservations of the sale, and a ledger value it leaves was there before or has a source. -/
theorem runDiff_isolated (env : WorkerEnv) (fuel : ℕ) (s t : Stores) (hs : Ready fuel s)
    (ht : Ready fuel t) (his : Isolated env s) (hit : Isolated env t)
    (hst : s.only env.SALE_ID = t.only env.SALE_ID) :
    (∀ o ∈ (runDiff env fuel).made Stores.answer s, Origin env s o) ∧
    (∀ r s', (runDiff env fuel).run Stores.answer s = some (r, s') → LedgerSourced env s s') ∧
    ((runDiff env fuel).run Stores.answer s).map
        (fun q => (q.1.map fun _ => (), q.2.view env.SALE_ID)) =
      ((runDiff env fuel).run Stores.answer t).map
        fun q => (q.1.map fun _ => (), q.2.view env.SALE_ID) := by
  have hrun := agrees_runDiff hs his
  exact ⟨hrun.calls, hrun.ends, hrun.two_runs (agrees_runDiff ht hit) hst⟩

/-! ## A job of an earlier sale -/

/-- An order of an earlier sale. -/
def strayOrder : OrdersQueueJobPayload :=
  ⟨"flash-2025", "alice", "0190aaaa-0000-7000-8000-000000000009", 900, "req-9"⟩

theorem strayOrder_valid : strayOrder.Valid :=
  ⟨by decide +kernel, by decide +kernel, by decide +kernel, by decide +kernel, by decide +kernel⟩

/-- The same stores with the job of that order in some state. -/
def withStray (state : JobState) : Stores :=
  { openUnit with queue := ⟨[⟨⟨"flash-2025-alice", PERSIST_ORDER_JOB_NAME, strayOrder.toJs, some 5,
    0, none, 0, 0⟩, state, none⟩], false, 1⟩ }

theorem withStray_only (state : JobState) :
    (withStray state).only oneUnitEnv.SALE_ID = openUnit.only oneUnitEnv.SALE_ID := by
  have hdata := assertOrdersQueueJobPayload_toJs strayOrder_valid
  unfold Stores.only withStray JobQueue.only
  dsimp only
  rw [List.filter_cons_of_neg]
  · rfl
  · simp only [Job.ofSale, hdata]
    decide

theorem ready_withStray (state : JobState) : Ready 3 (withStray state) where
  distinct := List.nodup_singleton _
  tables := ⟨List.nodup_nil, fun c tx h => by cases h⟩
  sorted := List.Pairwise.nil
  idle := rfl
  fuel := by
    cases state <;> decide

theorem ready_openUnit : Ready 3 openUnit where
  distinct := List.nodup_nil
  tables := ⟨List.nodup_nil, fun c tx h => by cases h⟩
  sorted := List.Pairwise.nil
  idle := rfl
  fuel := by decide

theorem isolated_openUnit : Isolated oneUnitEnv openUnit where
  recovery := by intro st hst; cases hst
  sweep := by intro st hst; cases hst
  page := .inl (by intro st hst; cases hst)
  ids := by intro st hst; cases hst
  users := by
    rintro p ⟨-, st, hst, -⟩
    cases hst
  markers := by
    rintro p ⟨-, st, hst, -⟩
    cases hst

/-- A failed job of the earlier sale with attempts left is out of the way. -/
theorem isolated_withStray : Isolated oneUnitEnv (withStray .failed) where
  recovery := by
    rintro st hst - p ⟨hv, -⟩
    obtain rfl := List.mem_singleton.1 hst
    have hx := (StoredJob.verdict_ok hv).2 rfl
    exact absurd hx (by decide)
  sweep := by
    intro st hst _ _
    obtain rfl := List.mem_singleton.1 hst
    exact Bool.and_false _
  page := by
    refine .inr fun st hst _ hx => ?_
    obtain rfl := List.mem_singleton.1 (List.mem_filter.1 hst).1
    exact absurd (Bool.and_eq_true_iff.1 hx).2 (by decide)
  ids := by
    intro st hst _ u _ _ hid
    obtain rfl := List.mem_singleton.1 hst
    rw [show oneUnitEnv.jobId u = "flash-2026" ++ "-" ++ u from rfl] at hid
    have hchars := congrArg (fun id => id.toList[9]?) hid
    simp at hchars
  users := by
    rintro p ⟨-, st, hst, -, hx, -⟩
    obtain rfl := List.mem_singleton.1 hst
    exact absurd (Bool.and_eq_true_iff.1 hx).2 (by decide)
  markers := by
    rintro p ⟨-, st, hst, -, hx, -⟩
    obtain rfl := List.mem_singleton.1 hst
    exact absurd (Bool.and_eq_true_iff.1 hx).2 (by decide)

theorem runDiff_isolated_strayFailed :
    (∀ o ∈ (runDiff oneUnitEnv 3).made Stores.answer (withStray .failed),
      Origin oneUnitEnv (withStray .failed) o) ∧
    (∀ r s', (runDiff oneUnitEnv 3).run Stores.answer (withStray .failed) = some (r, s') →
      LedgerSourced oneUnitEnv (withStray .failed) s') ∧
    ((runDiff oneUnitEnv 3).run Stores.answer (withStray .failed)).map
        (fun q => (q.1.map fun _ => (), q.2.view oneUnitEnv.SALE_ID)) =
      ((runDiff oneUnitEnv 3).run Stores.answer openUnit).map
        fun q => (q.1.map fun _ => (), q.2.view oneUnitEnv.SALE_ID) :=
  runDiff_isolated oneUnitEnv 3 (withStray .failed) openUnit (ready_withStray .failed)
    ready_openUnit isolated_withStray isolated_openUnit (withStray_only .failed)

/-- The ledger value of Alice, the stock and the job ids of the sale of one unit. -/
def aliceView (s : Stores) : Option String × Option ℤ × List String :=
  ((s.sales oneUnitEnv.SALE_ID).reservations.hget "alice", (s.sales oneUnitEnv.SALE_ID).stock,
    s.queue.jobs.map (·.job.id))

/-- A waiting job of the earlier sale takes the unit: its identity is restored and enqueued,
although no row, job or ledger entry of the sale has it. Without the job nothing is written. -/
theorem strayPass : Ready 3 (withStray .waiting) ∧ Ready 3 openUnit ∧
    (withStray .waiting).only oneUnitEnv.SALE_ID = openUnit.only oneUnitEnv.SALE_ID ∧
    ¬ Known oneUnitEnv (withStray .waiting) "alice" strayOrder.reservationId ∧
    ((runDiff oneUnitEnv 3).run Stores.answer (withStray .waiting)).map (fun q => aliceView q.2) =
      some (some (ledgerValue strayOrder.reservationId "900"), some 0,
        ["flash-2025-alice", "flash-2026-alice"]) ∧
    ((runDiff oneUnitEnv 3).run Stores.answer openUnit).map (fun q => aliceView q.2) =
      some (none, some 1, []) := by
  refine ⟨ready_withStray .waiting, ready_openUnit, withStray_only .waiting, ?_, by decide +kernel,
    by decide +kernel⟩
  rintro (⟨v, hv, -⟩ | ⟨row, hrow, -⟩ | ⟨st, hst, p, hp, hsale, -⟩)
  · cases hv
  · cases hrow
  · obtain rfl := List.mem_singleton.1 hst
    have hp := hp.symm.trans (assertOrdersQueueJobPayload_toJs strayOrder_valid)
    obtain rfl := Except.ok.inj hp
    exact absurd hsale (by decide)

end FlashSale
