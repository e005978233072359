import FlashSale.Lib.Alone
import FlashSale.Worker.PagedScan
import FlashSale.Worker.QueueRepair

/-!
# The scans of a pass that runs alone

What `scanOrders`, `scanJobs` and `scanLedger` return when nothing else moves: the rows of the sale,
every job of the five states with its verdict, and every entry of the ledger. Given enough fuel each
of them returns, the last one if every value of the ledger is well formed.
-/

namespace FlashSale

open Redis

/-- A worker program that returns ends with `P`. -/
abbrev Ends {α : Type} (p : WorkerM α) (P : α → Stores → Prop) (s : Stores) : Prop :=
  p.Returns Stores.answer P s

section

variable {env : WorkerEnv} {s : Stores}

/-! ## The rows -/

/-- The rows of the sale, in the order of `user_id`. -/
def saleRows (env : WorkerEnv) (s : Stores) : List DurableOrder :=
  s.db.orders.filter (·.saleId = env.SALE_ID)

/-- The scan runs out of fuel or returns the rows behind its offset. -/
theorem run_scanOrders_alone (env : WorkerEnv) (s : Stores) (fuel : ℕ) {offset : ℕ}
    (acc : List DurableOrder) (hoffset : offset ≤ (saleRows env s).length) :
    (offset + fuel ≤ (saleRows env s).length ∧
      (scanOrders env fuel offset acc).run Stores.answer s = some (.error .outOfFuel, s)) ∨
    (scanOrders env fuel offset acc).run Stores.answer s =
      some (.ok (acc ++ (saleRows env s).drop offset), s) := by
  have hcount := env.reconcilePage_pos
  induction fuel generalizing offset acc with
  | zero => exact .inl ⟨hoffset, rfl⟩
  | succ fuel ih =>
    have hpage : Stores.answer (.listSaleOrders env.SALE_ID offset env.WORKER_RECONCILE_SCAN_COUNT)
        s = some (.ok (((saleRows env s).drop offset).take env.WORKER_RECONCILE_SCAN_COUNT), s) :=
      rfl
    have hlen : (((saleRows env s).drop offset).take env.WORKER_RECONCILE_SCAN_COUNT).length =
        min env.WORKER_RECONCILE_SCAN_COUNT ((saleRows env s).length - offset) := by
      rw [List.length_take, List.length_drop]
    unfold scanOrders
    rw [Prog.bind_eq, request, Prog.run_call_bind hpage, hlen]
    split_ifs with hshort
    · refine .inr ?_
      rw [List.take_of_length_le (by rw [List.length_drop]; omega)]
      rfl
    · have hnext := @ih (offset + env.WORKER_RECONCILE_SCAN_COUNT)
        (acc ++ ((saleRows env s).drop offset).take env.WORKER_RECONCILE_SCAN_COUNT) (by omega)
      rw [List.append_assoc, ← List.drop_drop, List.take_append_drop] at hnext
      exact hnext.imp (fun h => ⟨by omega, h.2⟩) fun h => h

theorem ends_scanOrders (fuel : ℕ) :
    Ends (scanOrders env fuel 0 []) (fun rows s' => rows = saleRows env s ∧ s' = s) s := by
  intro rows s' hr
  rcases run_scanOrders_alone env s fuel [] (Nat.zero_le _) with ⟨-, h⟩ | h
  · rw [h] at hr
    cases (Prod.mk.inj (Option.some.inj hr)).1
  · rw [h] at hr
    obtain ⟨hrows, rfl⟩ := Prod.mk.inj (Option.some.inj hr)
    exact ⟨(Except.ok.inj hrows).symm, rfl⟩

theorem run_scanOrders_enough {fuel : ℕ} (h : (saleRows env s).length < fuel) :
    (scanOrders env fuel 0 []).run Stores.answer s = some (.ok (saleRows env s), s) := by
  rcases run_scanOrders_alone env s fuel [] (Nat.zero_le _) with ⟨hle, -⟩ | h
  · omega
  · exact h

theorem mem_saleRows {row : DurableOrder} :
    row ∈ saleRows env s ↔ row ∈ s.db.orders ∧ row.saleId = env.SALE_ID := by
  simp [saleRows]

/-- With one row for each user, `byUser` is the row of the user in the sale. -/
theorem mapOf_saleRows (hone : (s.db.orders.map (·.userId)).Nodup) {u : String}
    {row : DurableOrder} : mapOf (·.userId) (saleRows env s) u = some row ↔
      s.db.row? u = some row ∧ row.saleId = env.SALE_ID := by
  constructor
  · intro h
    have hm : row ∈ saleRows env s := by
      have := List.mem_of_find?_eq_some h
      simpa using this
    obtain ⟨hrow, hsale⟩ := mem_saleRows.1 hm
    obtain rfl : row.userId = u := by simpa using List.find?_some h
    exact ⟨Db.row?_of_mem_orders hone hrow, hsale⟩
  · rintro ⟨hrow, hsale⟩
    have hu := Db.row?_userId hrow
    cases hf : mapOf (·.userId) (saleRows env s) u with
    | none =>
      exact absurd hu (mapOf_eq_none.1 hf row
        (mem_saleRows.2 ⟨Db.mem_orders_of_row? hrow, hsale⟩))
    | some old =>
      have hold : old ∈ saleRows env s := by
        have := List.mem_of_find?_eq_some hf
        simpa using this
      have hou : old.userId = u := by simpa using List.find?_some hf
      rw [← Db.row?_of_mem_orders hone (mem_saleRows.1 hold).1, hou, hrow]

/-! ## The jobs -/

/-- The verdict of `scanJobs` on a stored job. -/
def StoredJob.verdict (st : StoredJob) : Except QueueEntryIssue ScannedJob :=
  match classifyQueueEntry st.job st.state with
  | .error issue => .error issue
  | .ok scanned =>
    if st.state = .failed ∧ st.job.exhausted = false then
      .error ⟨st.job.id, st.state, .invalidPayload, NOT_ELIGIBLE_MESSAGE⟩
    else .ok scanned

theorem StoredJob.verdict_ok {st : StoredJob} {item : ScannedJob} (h : st.verdict = .ok item) :
    classifyQueueEntry st.job st.state = .ok item ∧
      (st.state = .failed → st.job.exhausted = true) := by
  unfold StoredJob.verdict at h
  cases hc : classifyQueueEntry st.job st.state with
  | error issue => rw [hc] at h; cases h
  | ok scanned =>
    simp only [hc] at h
    split_ifs at h with hbad
    obtain rfl := Except.ok.inj h
    refine ⟨rfl, fun hf => ?_⟩
    simpa [hf] using hbad

/-- A stored job is added to the result of the scan. -/
def QueueScanResult.add (scan : QueueScanResult) (st : StoredJob) : QueueScanResult :=
  match st.verdict with
  | .error issue => { scan with issues := scan.issues ++ [issue] }
  | .ok item => { scan with jobs := scan.jobs ++ [item] }

/-- What `scanJobs` returns. -/
def scannedQueue (q : JobQueue) : QueueScanResult :=
  QUEUE_STATES.foldl (fun scan state => (q.jobs.filter (·.state = state)).foldl .add scan) ⟨[], []⟩

/-- What a result of the scan says about the stored jobs it has seen. -/
structure QueueScanResult.Reports (scan : QueueScanResult) (seen : StoredJob → Prop) : Prop where
  source : ∀ item ∈ scan.jobs, ∃ st, seen st ∧ st.verdict = .ok item
  all : scan.issues = [] → ∀ st, seen st → ∃ item ∈ scan.jobs, st.verdict = .ok item

theorem QueueScanResult.Reports.add {scan : QueueScanResult} {seen : StoredJob → Prop}
    (h : scan.Reports seen) (st : StoredJob) :
    (scan.add st).Reports fun st' => seen st' ∨ st' = st := by
  unfold QueueScanResult.add
  cases hv : st.verdict with
  | error issue =>
    refine ⟨fun item hitem => ?_, fun hissues => by simp at hissues⟩
    obtain ⟨st', hst', hitem⟩ := h.source item hitem
    exact ⟨st', .inl hst', hitem⟩
  | ok item =>
    refine ⟨fun item' hitem' => ?_, fun hissues st' hst' => ?_⟩
    · rcases List.mem_append.1 hitem' with hitem' | hitem'
      · obtain ⟨st', hst', hitem'⟩ := h.source item' hitem'
        exact ⟨st', .inl hst', hitem'⟩
      · obtain rfl := List.mem_singleton.1 hitem'
        exact ⟨st, .inr rfl, hv⟩
    · rcases hst' with hst' | rfl
      · obtain ⟨item', hitem', hv'⟩ := h.all hissues st' hst'
        exact ⟨item', List.mem_append_left _ hitem', hv'⟩
      · exact ⟨item, by simp, hv⟩

theorem QueueScanResult.Reports.foldl {scan : QueueScanResult} {seen : StoredJob → Prop}
    (h : scan.Reports seen) (sts : List StoredJob) :
    (sts.foldl QueueScanResult.add scan).Reports fun st => seen st ∨ st ∈ sts := by
  induction sts generalizing scan seen with
  | nil => simpa using h
  | cons st sts ih =>
    have hnext := ih (h.add st)
    simpa [or_assoc] using hnext

/-- The scan reports every stored job of the five states. -/
theorem reports_scannedQueue (q : JobQueue) :
    (scannedQueue q).Reports fun st => st ∈ q.jobs ∧ st.state ∈ QUEUE_STATES := by
  have hstates : ∀ (states : List JobState) (scan : QueueScanResult) (seen : StoredJob → Prop),
      scan.Reports seen → (states.foldl (fun scan state =>
        (q.jobs.filter (·.state = state)).foldl QueueScanResult.add scan) scan).Reports
          fun st => seen st ∨ st ∈ q.jobs ∧ st.state ∈ states := by
    intro states
    induction states with
    | nil => intro scan seen h; simpa using h
    | cons state states ih =>
      intro scan seen h
      have hnext := ih _ _ (h.foldl (q.jobs.filter (·.state = state)))
      simpa [or_assoc, and_or_left] using hnext
  have hempty : (⟨[], []⟩ : QueueScanResult).Reports fun _ => False :=
    ⟨by simp, by simp⟩
  have h := hstates QUEUE_STATES ⟨[], []⟩ _ hempty
  simp only [false_or] at h
  exact h

theorem run_getJobs (s : Stores) (state : JobState) (start stop : ℕ) :
    (getJobs state start stop).run Stores.answer s =
      some (.ok ((s.queue.getRange state start stop).map s.queue.getJob), s) := by
  have hloop : ∀ (ids : List String) (jobs : List (Option Job)),
      (Prog.forEach ids jobs fun jobs id => do
        let job ← request (.getJob id)
        return jobs ++ [job]).run Stores.answer s =
      some (.ok (jobs ++ ids.map s.queue.getJob), s) := by
    intro ids
    induction ids with
    | nil => intro jobs; simp [Prog.forEach, Prog.run]
    | cons id ids ih =>
      intro jobs
      have hone : (do
          let job ← request (.getJob id)
          return jobs ++ [job] : WorkerM (List (Option Job))).run Stores.answer s =
          some (.ok (jobs ++ [s.queue.getJob id]), s) := Prog.run_call_bind rfl _
      rw [Prog.forEach, Prog.run_bind_of_ok hone, ih]
      simp
  refine (Prog.run_call_bind (o := Call.getRange state start stop) rfl _).trans ?_
  rw [hloop, List.nil_append]

theorem run_scanJob (hd : s.queue.Distinct) {st : StoredJob} (hst : st ∈ s.queue.jobs)
    (scan : QueueScanResult) :
    (scanJob st.state scan (some st.job)).run Stores.answer s = some (.ok (scan.add st), s) := by
  have hstate : s.queue.getState st.job.id = st.state := by
    unfold JobQueue.getState
    rw [JobQueue.find_of_mem hd hst]
    rfl
  unfold scanJob QueueScanResult.add StoredJob.verdict
  dsimp only
  cases hc : classifyQueueEntry st.job st.state with
  | error issue => rfl
  | ok item =>
    dsimp only
    by_cases hf : st.state = .failed
    · have helig : (isTerminalFailedJobEligible st.job).run Stores.answer s =
          some (.ok st.job.exhausted, s) := by
        refine (Prog.run_call_bind (o := Call.getState st.job.id) rfl _).trans ?_
        show some (Except.ok (decide (s.queue.getState st.job.id = .failed) &&
          (classifyQueueEntry st.job (s.queue.getState st.job.id)).isOk && st.job.exhausted), s) = _
        rw [hstate, hc, hf]
        simp [Except.isOk, Except.toBool]
      rw [if_pos hf]
      refine (Prog.run_bind_of_ok helig _).trans ?_
      cases hx : st.job.exhausted with
      | true => simp [hf, Prog.run]
      | false => simp [hf, Prog.run]
    · rw [if_neg hf, if_neg (by simp [hf])]
      rfl

theorem run_scanPage (hd : s.queue.Distinct) {state : JobState} (sts : List StoredJob)
    (hsts : ∀ st ∈ sts, st ∈ s.queue.jobs ∧ st.state = state) (scan : QueueScanResult) :
    (Prog.forEach (sts.map fun st => some st.job) scan (scanJob state)).run Stores.answer s =
      some (.ok (sts.foldl QueueScanResult.add scan), s) := by
  induction sts generalizing scan with
  | nil => rfl
  | cons st sts ih =>
    obtain ⟨hst, rfl⟩ := hsts st (by simp)
    rw [List.map_cons, Prog.forEach, Prog.run_bind_of_ok (run_scanJob hd hst scan)]
    exact ih (fun st' hst' => hsts st' (by simp [hst'])) _

/-- The scan of a state runs out of fuel or returns with the jobs behind its start. -/
theorem run_scanState_alone (env : WorkerEnv) (hd : s.queue.Distinct) (state : JobState) (fuel : ℕ)
    {start : ℕ} (scan : QueueScanResult)
    (hstart : start ≤ (s.queue.jobs.filter (·.state = state)).length) :
    (start + fuel ≤ (s.queue.jobs.filter (·.state = state)).length ∧
      (scanState env state fuel start scan).run Stores.answer s = some (.error .outOfFuel, s)) ∨
    (scanState env state fuel start scan).run Stores.answer s =
      some (.ok (((s.queue.jobs.filter (·.state = state)).drop start).foldl .add scan), s) := by
  have hcount := env.reconcilePage_pos
  induction fuel generalizing start scan with
  | zero => exact .inl ⟨hstart, rfl⟩
  | succ fuel ih =>
    generalize hjobs : s.queue.jobs.filter (·.state = state) = jobs at hstart ih ⊢
    have hmem : ∀ st ∈ (jobs.drop start).take env.WORKER_RECONCILE_SCAN_COUNT,
        st ∈ s.queue.jobs ∧ st.state = state := by
      intro st hst
      have := List.mem_of_mem_drop (List.mem_of_mem_take hst)
      rw [← hjobs] at this
      simpa using this
    have hpage := run_getJobs s state start (start + env.WORKER_RECONCILE_SCAN_COUNT - 1)
    rw [JobQueue.map_getRange hd state start hcount, hjobs] at hpage
    unfold scanState
    rw [Prog.bind_eq, Prog.run_bind_of_ok hpage, Prog.bind_eq,
      Prog.run_bind_of_ok (run_scanPage hd _ hmem scan), List.length_map, List.length_take,
      List.length_drop]
    split_ifs with hshort
    · refine .inr ?_
      rw [List.take_of_length_le (by rw [List.length_drop]; omega)]
      rfl
    · have hnext := @ih (start + env.WORKER_RECONCILE_SCAN_COUNT)
        (((jobs.drop start).take env.WORKER_RECONCILE_SCAN_COUNT).foldl .add scan) (by omega)
      rw [← List.foldl_append, ← List.drop_drop, List.take_append_drop] at hnext
      exact hnext.imp (fun h => ⟨by omega, h.2⟩) fun h => h

/-- The scan of the queue runs out of fuel or reports every job. -/
theorem run_scanJobs (env : WorkerEnv) (hd : s.queue.Distinct) (fuel : ℕ) :
    (fuel ≤ s.queue.jobs.length ∧
      (scanJobs env fuel).run Stores.answer s = some (.error .outOfFuel, s)) ∨
    (scanJobs env fuel).run Stores.answer s = some (.ok (scannedQueue s.queue), s) := by
  have hstates : ∀ (states : List JobState) (scan : QueueScanResult),
      (fuel ≤ s.queue.jobs.length ∧
        (Prog.forEach states scan fun scan state => scanState env state fuel 0 scan).run
          Stores.answer s = some (.error .outOfFuel, s)) ∨
      (Prog.forEach states scan fun scan state => scanState env state fuel 0 scan).run
        Stores.answer s = some (.ok (states.foldl (fun scan state =>
          (s.queue.jobs.filter (·.state = state)).foldl QueueScanResult.add scan) scan), s) := by
    intro states
    induction states with
    | nil => exact fun scan => .inr rfl
    | cons state states ih =>
      intro scan
      rw [Prog.forEach]
      rcases run_scanState_alone env hd state fuel scan (Nat.zero_le _) with ⟨hle, h⟩ | h
      · refine .inl ⟨?_, Prog.run_bind_of_error h _⟩
        have := List.length_filter_le (fun st : StoredJob => decide (st.state = state)) s.queue.jobs
        omega
      · rw [Prog.run_bind_of_ok h]
        exact ih _
  exact hstates QUEUE_STATES ⟨[], []⟩

theorem ends_scanJobs (hd : s.queue.Distinct) (fuel : ℕ) :
    Ends (scanJobs env fuel) (fun scan s' => scan = scannedQueue s.queue ∧ s' = s) s := by
  intro scan s' hr
  rcases run_scanJobs env hd fuel with ⟨-, h⟩ | h
  · rw [h] at hr
    cases (Prod.mk.inj (Option.some.inj hr)).1
  · rw [h] at hr
    obtain ⟨hscan, rfl⟩ := Prod.mk.inj (Option.some.inj hr)
    exact ⟨(Except.ok.inj hscan).symm, rfl⟩

theorem run_scanJobs_enough (hd : s.queue.Distinct) {fuel : ℕ} (h : s.queue.jobs.length < fuel) :
    (scanJobs env fuel).run Stores.answer s = some (.ok (scannedQueue s.queue), s) := by
  rcases run_scanJobs env hd fuel with ⟨hle, -⟩ | h
  · omega
  · exact h

/-! ## The ledger -/

/-- The reservation stands in the ledger of the sale. -/
def Listed (env : WorkerEnv) (s : Stores) (userId reservationId : String) : Prop :=
  ∃ v, (s.sales env.SALE_ID).reservations.hget userId = some v ∧ ledgerIdentity v = reservationId

/-- The entry reads back from the ledger of the sale. -/
def OnLedger (env : WorkerEnv) (s : Stores) (entry : ReservationEntry) : Prop :=
  ∃ u v, (s.sales env.SALE_ID).reservations.hget u = some v ∧
    parseReservationEntry u v = .ok entry

/-- Every value of the ledger is well formed. -/
def LedgerParses (env : WorkerEnv) (s : Stores) : Prop :=
  ∀ u v, (s.sales env.SALE_ID).reservations.hget u = some v →
    ∃ entry, parseReservationEntry u v = .ok entry

theorem parseEntries_complete {flat : List (String × String)} {entries : List ReservationEntry}
    (h : Store.parseEntries flat = .ok entries) {f : String × String} (hf : f ∈ flat) :
    ∃ e ∈ entries, parseReservationEntry f.1 f.2 = .ok e := by
  unfold Store.parseEntries at h
  induction flat generalizing entries with
  | nil => cases hf
  | cons f' flat ih =>
    rw [List.mapM_cons] at h
    cases hp : parseReservationEntry f'.1 f'.2 with
    | error x => rw [hp] at h; cases h
    | ok e' =>
      rw [hp] at h
      cases hm : List.mapM (fun f => parseReservationEntry f.1 f.2) flat with
      | error x => rw [hm] at h; cases h
      | ok rest =>
        rw [hm] at h
        obtain rfl : entries = e' :: rest := (Except.ok.inj h).symm
        rcases List.mem_cons.1 hf with rfl | hf
        · exact ⟨e', by simp, hp⟩
        · obtain ⟨e, he, hpe⟩ := ih hm hf
          exact ⟨e, by simp [he], hpe⟩

theorem parseEntries_total {flat : List (String × String)}
    (h : ∀ f ∈ flat, ∃ e, parseReservationEntry f.1 f.2 = .ok e) :
    ∃ entries, Store.parseEntries flat = .ok entries := by
  unfold Store.parseEntries
  induction flat with
  | nil => exact ⟨[], rfl⟩
  | cons f flat ih =>
    obtain ⟨e, he⟩ := h f (by simp)
    obtain ⟨rest, hrest⟩ := ih fun f' hf' => h f' (by simp [hf'])
    refine ⟨e :: rest, ?_⟩
    rw [List.mapM_cons, he, hrest]
    rfl

/-- A value of the ledger whose bucket belongs to a page is on it. -/
theorem mem_hscanPage {saleId u v : String} {cursor count : ℕ}
    (h : (s.sales saleId).reservations.hget u = some v) (hlo : cursor ≤ s.ledgerBucket u)
    (hhi : s.ledgerBucket u < cursor + count) : (u, v) ∈ (s.hscanPage saleId cursor count).2 := by
  refine List.mem_filterMap.2 ⟨u, List.mem_filter.2 ⟨?_, by simp [hlo, hhi]⟩, by rw [h]; rfl⟩
  exact Hash.mem_keys_iff.2 (by rw [h]; rfl)

/-- After the last page no bucket is left. -/
theorem hscanPage_last {saleId u v : String} {cursor count : ℕ} (hc : 0 < count)
    (h : (s.sales saleId).reservations.hget u = some v)
    (hlast : (s.hscanPage saleId cursor count).1 = 0) : s.ledgerBucket u < cursor + count := by
  by_contra hle
  have hm : u ∈ (s.sales saleId).reservations.keys := Hash.mem_keys_iff.2 (by rw [h]; rfl)
  have hnext : (s.hscanPage saleId cursor count).1 = cursor + count :=
    if_pos (List.any_eq_true.2 ⟨u, hm, by simpa using hle⟩)
  omega

theorem run_scanReservations {cursor count : ℕ} {entries : List ReservationEntry}
    (h : Store.parseEntries (s.hscanPage env.SALE_ID cursor count).2 = .ok entries) :
    (Store.scanReservations env.SALE_ID cursor count).run Stores.answer s =
      some (.ok ((s.hscanPage env.SALE_ID cursor count).1, entries), s) := by
  unfold Store.scanReservations
  rw [assertSaleId_env]
  refine (Prog.run_call_bind (o := Call.hscan env.SALE_ID cursor count) rfl _).trans ?_
  show Prog.run _ (Prog.bind (Prog.ofExcept (Store.parseEntries
    (s.hscanPage env.SALE_ID cursor count).2)) _) s = _
  rw [h]
  rfl

theorem ends_scanReservations (cursor count : ℕ) :
    Ends (Store.scanReservations env.SALE_ID cursor count) (fun a s' =>
      a.1 = (s.hscanPage env.SALE_ID cursor count).1 ∧
        Store.parseEntries (s.hscanPage env.SALE_ID cursor count).2 = .ok a.2 ∧ s' = s) s := by
  cases h : Store.parseEntries (s.hscanPage env.SALE_ID cursor count).2 with
  | ok entries =>
    intro a s' hr
    rw [run_scanReservations h] at hr
    obtain ⟨ha, rfl⟩ := Prod.mk.inj (Option.some.inj hr)
    obtain rfl := Except.ok.inj ha
    exact ⟨rfl, rfl, rfl⟩
  | error e =>
    unfold Store.scanReservations
    rw [assertSaleId_env]
    show Ends (Prog.bind (request (.hscan env.SALE_ID cursor count)) _) _ s
    refine .bind_of_ok (Prog.run_call (o := Call.hscan env.SALE_ID cursor count) rfl) ?_
    show Ends (Prog.bind (Prog.ofExcept (Store.parseEntries
      (s.hscanPage env.SALE_ID cursor count).2)) _) _ s
    rw [h]
    exact .throw

/-- A scan that goes on finds a key behind its page. -/
theorem scanPage_continues {bucket : String → ℕ} {keys : List String} {cursor count : ℕ}
    (h : (scanPage bucket keys cursor count).1 ≠ 0) :
    (scanPage bucket keys cursor count).1 = cursor + count ∧
      ∃ k ∈ keys, cursor + count ≤ bucket k := by
  unfold scanPage at h ⊢
  dsimp only at h ⊢
  split_ifs at h ⊢ with hany
  · obtain ⟨k, hk, hle⟩ := List.any_eq_true.1 hany
    exact ⟨rfl, k, hk, by simpa using hle⟩
  · exact absurd rfl h

/-- What the scan of the ledger returns: entries of the ledger, and all of them. -/
structure LedgerScanned (env : WorkerEnv) (s : Stores) (entries : List ReservationEntry) :
    Prop where
  sound : ∀ entry ∈ entries, OnLedger env s entry
  complete : ∀ u v, (s.sales env.SALE_ID).reservations.hget u = some v →
    ∃ entry ∈ entries, parseReservationEntry u v = .ok entry

theorem ends_scanLedger_from (fuel : ℕ) {cursor : ℕ} {entries : List ReservationEntry}
    (hsound : ∀ entry ∈ entries, OnLedger env s entry)
    (hread : ∀ u v, (s.sales env.SALE_ID).reservations.hget u = some v →
      s.ledgerBucket u < cursor → ∃ entry ∈ entries, parseReservationEntry u v = .ok entry) :
    Ends (scanLedger env fuel cursor entries)
      (fun entries s' => LedgerScanned env s entries ∧ s' = s) s := by
  induction fuel generalizing cursor entries with
  | zero => exact .throw
  | succ fuel ih =>
    unfold scanLedger
    refine .bind (ends_scanReservations cursor _) fun a t ha => ?_
    obtain ⟨next, page⟩ := a
    obtain ⟨rfl, hpage, rfl⟩ := ha
    dsimp only at hpage ⊢
    have hsound' : ∀ entry ∈ entries ++ page, OnLedger env t entry := by
      intro entry hentry
      rcases List.mem_append.1 hentry with hentry | hentry
      · exact hsound entry hentry
      · obtain ⟨f, hf, hp⟩ := Store.parseEntries_mem hpage hentry
        exact ⟨f.1, f.2, Stores.hscanPage_mem hf, hp⟩
    have hread' : ∀ u v, (t.sales env.SALE_ID).reservations.hget u = some v →
        t.ledgerBucket u < cursor + env.WORKER_RECONCILE_SCAN_COUNT →
          ∃ entry ∈ entries ++ page, parseReservationEntry u v = .ok entry := by
      intro u v hv hb
      by_cases hlo : t.ledgerBucket u < cursor
      · obtain ⟨entry, hentry, hp⟩ := hread u v hv hlo
        exact ⟨entry, List.mem_append_left _ hentry, hp⟩
      · obtain ⟨entry, hentry, hp⟩ := parseEntries_complete hpage
          (mem_hscanPage hv (by omega) hb)
        exact ⟨entry, List.mem_append_right _ hentry, hp⟩
    split_ifs with hlast
    · refine .pure ⟨⟨hsound', fun u v hv => hread' u v hv ?_⟩, rfl⟩
      exact hscanPage_last env.reconcilePage_pos hv hlast
    · rw [show (t.hscanPage env.SALE_ID cursor env.WORKER_RECONCILE_SCAN_COUNT).1 =
        cursor + env.WORKER_RECONCILE_SCAN_COUNT from (scanPage_continues hlast).1]
      exact ih hsound' hread'

theorem ends_scanLedger (fuel : ℕ) : Ends (scanLedger env fuel 0 [])
    (fun entries s' => LedgerScanned env s entries ∧ s' = s) s :=
  ends_scanLedger_from fuel (by simp) fun _ _ _ h => absurd h (Nat.not_lt_zero _)

/-- With enough fuel the scan of a well-formed ledger returns. -/
theorem run_scanLedger_enough (h : LedgerParses env s) {bound : ℕ}
    (hb : ∀ u ∈ (s.sales env.SALE_ID).reservations.keys, s.ledgerBucket u < bound) (fuel : ℕ)
    {cursor : ℕ} (hcursor : cursor ≤ bound) (hfuel : bound < cursor + fuel)
    (entries : List ReservationEntry) :
    ∃ all, (scanLedger env fuel cursor entries).run Stores.answer s = some (.ok all, s) := by
  have hcount := env.reconcilePage_pos
  induction fuel generalizing cursor entries with
  | zero => omega
  | succ fuel ih =>
    have htotal : ∃ page, Store.parseEntries
        (s.hscanPage env.SALE_ID cursor env.WORKER_RECONCILE_SCAN_COUNT).2 = .ok page :=
      parseEntries_total fun f hf => h f.1 f.2 (Stores.hscanPage_mem hf)
    obtain ⟨page, hpage⟩ := htotal
    unfold scanLedger
    rw [Prog.bind_eq, Prog.run_bind_of_ok (run_scanReservations hpage)]
    dsimp only
    split_ifs with hlast
    · exact ⟨_, rfl⟩
    · obtain ⟨hnext, u, hu, hle⟩ := scanPage_continues hlast
      have hlt := hb u hu
      rw [show (s.hscanPage env.SALE_ID cursor env.WORKER_RECONCILE_SCAN_COUNT).1 =
        cursor + env.WORKER_RECONCILE_SCAN_COUNT from hnext]
      exact ih (by omega) (by omega) _

end

end FlashSale
