import FlashSale.Lib.Rotation
import FlashSale.Worker.SweepTurns

/-!
# Sweep after sweep over the failed jobs

The failed jobs are a list that only sweeps change here: no further job fails meanwhile. Each job is
resolvable or retained for good, and the rest of the stores may fail in any way that agrees with
that (`FaultPlan`). One sweep then turns the ring of `Lib.Rotation`, whose items are the failed jobs
and whose offset is `failedScanOffset` (`sweepFailed_turns_ring`), so every resolvable job is removed
within a number of sweeps that depends on the number of failed jobs and the window alone.
-/

namespace FlashSale

/-- Which calls fail: it depends on the call, on the stores and on anything else, `X`. -/
structure FaultPlan (X : Type) where
  fault : Call → Stores → X → Fault
  next : Call → Stores → X → X

/-- The reads of the queue that a sweep makes. -/
def Call.isQueueRead : Call → Bool
  | .countJobs _ | .getRange _ _ _ | .getJob _ | .getState _ => true
  | _ => false

section

variable {X : Type}

/-- The stores under a plan of faults. -/
def FaultPlan.answer (plan : FaultPlan X) (o : Call) (st : Stores × X) :
    Option (Except Failure o.Res × (Stores × X)) :=
  (st.1.performWith (plan.fault o st.1 st.2) o).map fun q => (q.1, (q.2, plan.next o st.1 st.2))

/-- `k` sweeps, one after the other; an `AggregateError` is ignored, any other error is not. -/
def sweeps (plan : FaultPlan X) (env : WorkerEnv) : ℕ → Stores × X → Option (Stores × X)
  | 0, st => some st
  | k + 1, st =>
    match (sweepFailed env).run plan.answer st with
    | some (.ok _, st') => sweeps plan env k st'
    | some (.error (.aggregate _ _), st') => sweeps plan env k st'
    | _ => none

/-! ## The two kinds of failed jobs -/

section

variable (plan : FaultPlan X) (I : Stores × X → Prop)

/-- The job is stored as failed. -/
def HoldsFailed (job : Job) (st : Stores × X) : Prop :=
  ∃ t, st.1.queue.find job.id = some t ∧ t.job = job ∧ t.state = .failed

/-- In every state of `I` that holds the job, its resolution and its removal succeed. -/
def Resolvable (job : Job) : Prop :=
  ∃ item, classifyQueueEntry job .failed = .ok item ∧ job.exhausted = true ∧
    ∀ st, I st → HoldsFailed job st → ∃ result st₁ st₂,
      (resolution item.payload).run plan.answer st = some (.ok result, st₁) ∧
      plan.answer (.removeJob job) st₁ = some (.ok (), st₂) ∧ I st₂

/-- The job is malformed or not eligible, or its resolution throws in every state of `I`. -/
def Retained (job : Job) : Prop :=
  (∃ issue, classifyQueueEntry job .failed = .error issue) ∨
  ∃ item, classifyQueueEntry job .failed = .ok item ∧
    (job.exhausted = false ∨ ∀ st, I st → HoldsFailed job st → ∃ e st₁,
      (resolution item.payload).run plan.answer st = some (.error e, st₁) ∧ I st₁)

/-- The queue can be read, and what is known of the stores does not depend on the reads of a sweep or
on its offset. -/
structure Standing : Prop where
  reads : ∀ o s x, o.isQueueRead = true → plan.fault o s x = .none
  keeps : ∀ o st r st', (o.isQueueRead = true ∨ o.isLocal = true) → I st →
    plan.answer o st = some (r, st') → I st'

/-- Between two sweeps: `p` tells the resolvable jobs from those retained. -/
structure BetweenSweeps (p : Job → Bool) (st : Stores × X) : Prop where
  standing : I st
  distinct : st.1.queue.Distinct
  resolvable : ∀ t ∈ st.1.failed, p t.job = true → Resolvable plan I t.job
  retained : ∀ t ∈ st.1.failed, p t.job = false → Retained plan I t.job

end

/-- The failed jobs and the offset as a ring. -/
def Stores.ring (s : Stores) : Ring StoredJob := ⟨s.failed, s.failedScanOffset⟩

variable {plan : FaultPlan X} {I : Stores × X → Prop} {p : Job → Bool} {st st' : Stores × X}

/-! ## Calls -/

/-- A call that only reads the queue. -/
theorem Standing.read (h : Standing plan I) (st : Stores × X) {o : Call} {a : o.Res}
    (ho : o.isQueueRead = true)
    (hp : st.1.perform o = some (.ok a, st.1)) (hi : I st) :
    ∃ x, plan.answer o st = some (.ok a, (st.1, x)) ∧ I (st.1, x) := by
  have hans : plan.answer o st = some (.ok a, (st.1, plan.next o st.1 st.2)) := by
    unfold FaultPlan.answer
    rw [h.reads o st.1 st.2 ho]
    show (st.1.perform o).map _ = _
    rw [hp]
    rfl
  exact ⟨_, hans, h.keeps o st _ _ (.inl ho) hi hans⟩

/-- A call into the memory of the service. -/
theorem Standing.local (h : Standing plan I) (st : Stores × X) {o : Call} {a : o.Res} {s : Stores}
    (ho : o.isLocal = true) (hp : st.1.perform o = some (.ok a, s)) (hi : I st) :
    ∃ x, plan.answer o st = some (.ok a, (s, x)) ∧ I (s, x) := by
  have hans : plan.answer o st = some (.ok a, (s, plan.next o st.1 st.2)) := by
    unfold FaultPlan.answer Stores.performWith
    cases plan.fault o st.1 st.2 with
    | none => dsimp only; rw [hp]; rfl
    | before => dsimp only; rw [if_pos ho, hp]; rfl
    | after => dsimp only; rw [if_pos ho, hp]; rfl
  exact ⟨_, hans, h.keeps o st _ _ (.inr ho) hi hans⟩

/-- A resolution does not touch the queue or the offset. -/
theorem resolution_keeps {payload : OrdersQueueJobPayload} {r : Except Failure ResolveFailedResult}
    (h : (resolution payload).run plan.answer st = some (r, st')) :
    st'.1.queue = st.1.queue ∧ st'.1.failedScanOffset = st.1.failedScanOffset := by
  refine (callsIn_resolution payload).keeps (F := fun u => u.1.queue = st.1.queue ∧
    u.1.failedScanOffset = st.1.failedScanOffset) ?_ ⟨rfl, rfl⟩ h
  intro o u r u' ho hu hans
  obtain ⟨⟨r', s'⟩, hp, e⟩ := Option.map_eq_some_iff.1 hans
  obtain ⟨rfl, rfl⟩ := Prod.mk.inj e
  have hkeep : s'.queue = u.1.queue ∧ s'.failedScanOffset = u.1.failedScanOffset := by
    rcases Stores.performWith_cases hp with ⟨r'', hq, -⟩ | ⟨-, rfl, -⟩
    · cases o <;> first | contradiction | skip
      case compensate saleId userId reservationId =>
        obtain ⟨-, rfl⟩ := Prod.mk.inj (Option.some.inj hq)
        exact ⟨rfl, rfl⟩
      case sql client statement =>
        obtain ⟨q, -, e⟩ := Option.map_eq_some_iff.1 hq
        obtain ⟨-, rfl⟩ := Prod.mk.inj e
        exact ⟨rfl, rfl⟩
    · exact ⟨rfl, rfl⟩
  exact ⟨hkeep.1.trans hu.1, hkeep.2.trans hu.2⟩

/-! ## The page -/

theorem count_failed (s : Stores) : s.queue.count .failed = s.failed.length :=
  List.countP_eq_length_filter

/-- The jobs loaded by their ids are the jobs listed. -/
theorem getRange_failed {s : Stores} (hd : s.queue.Distinct) (start : ℕ) {w : ℕ} (hw : 0 < w) :
    (s.queue.getRange .failed start (start + w - 1)).map s.queue.getJob =
      ((s.failed.drop start).take w).map fun t => some t.job :=
  JobQueue.map_getRange hd .failed start hw

theorem run_loadJobs (h : Standing plan I) (hi : I st) (state : JobState) (start stop : ℕ) :
    ∃ x, (getJobs state start stop).run plan.answer st =
      some (.ok ((st.1.queue.getRange state start stop).map st.1.queue.getJob), (st.1, x)) ∧
      I (st.1, x) := by
  obtain ⟨s, x⟩ := st
  have hloop : ∀ (ids : List String) (jobs : List (Option Job)) (x : X), I (s, x) →
      ∃ x', (Prog.forEach ids jobs fun jobs id => do
        let job ← request (.getJob id)
        return jobs ++ [job]).run plan.answer (s, x) =
      some (.ok (jobs ++ ids.map s.queue.getJob), (s, x')) ∧ I (s, x') := by
    intro ids
    induction ids with
    | nil => intro jobs x hx; exact ⟨x, by simp [Prog.forEach, Prog.run], hx⟩
    | cons id ids ih =>
      intro jobs x hx
      obtain ⟨x₁, hcall, hx₁⟩ := h.read (s, x) (o := .getJob id) rfl rfl hx
      obtain ⟨x₂, hrest, hx₂⟩ := ih (jobs ++ [s.queue.getJob id]) x₁ hx₁
      refine ⟨x₂, ?_, hx₂⟩
      rw [Prog.forEach]
      have hone : (do
          let job ← request (.getJob id)
          return jobs ++ [job] : WorkerM (List (Option Job))).run plan.answer (s, x) =
          some (.ok (jobs ++ [s.queue.getJob id]), (s, x₁)) := Prog.run_call_bind hcall _
      rw [Prog.run_bind_of_ok hone, hrest, List.map_cons, List.append_assoc]
      rfl
  obtain ⟨x₁, hcall, hx₁⟩ := h.read (s, x) (o := .getRange state start stop) rfl rfl hi
  obtain ⟨x₂, hrest, hx₂⟩ := hloop (s.queue.getRange state start stop) [] x₁ hx₁
  refine ⟨x₂, ?_, hx₂⟩
  unfold getJobs
  exact (Prog.run_call_bind hcall _).trans hrest

/-- The page of a sweep while there are failed jobs: the window of the ring. -/
theorem pageRead_failed (h : Standing plan I) (env : WorkerEnv) (hs : BetweenSweeps plan I p st)
    (hne : st.1.failed ≠ []) : ∃ calls x, PageRead plan.answer env st calls st.1.ring.start
      ((st.1.ring.page env.WORKER_DLQ_SCAN_COUNT).map fun t => some t.job) (st.1, x) ∧
      I (st.1, x) := by
  obtain ⟨x₁, hcount, hx₁⟩ := h.read st (o := .countJobs .failed) rfl rfl hs.standing
  obtain ⟨x₂, hoffset, hx₂⟩ := h.local (st.1, x₁) (o := .getFailedScanOffset) rfl rfl hx₁
  obtain ⟨x₃, hload, hx₃⟩ := run_loadJobs h hx₂ .failed st.1.ring.start
    (st.1.ring.start + env.WORKER_DLQ_SCAN_COUNT - 1)
  rw [getRange_failed hs.distinct _ env.dlqPage_pos] at hload
  have hpage : ((st.1.failed.drop st.1.ring.start).take env.WORKER_DLQ_SCAN_COUNT).map
      (fun t => some t.job) ≠ [] := by
    have hlt : st.1.ring.start < st.1.failed.length := Ring.start_lt hne
    have hpos := env.dlqPage_pos
    intro e
    have hlen := congrArg List.length e
    rw [List.length_map, List.length_take, List.length_drop, List.length_nil] at hlen
    omega
  refine ⟨_, x₃, ⟨st.1.failed.length, st.1.failedScanOffset, (st.1, x₁), (st.1, x₂), ?_, ?_, hoffset,
    ?_, rfl⟩, hx₃⟩
  · simpa using hne
  · rw [hcount, count_failed]
  · show (Prog.bind (getJobs .failed st.1.ring.start (st.1.ring.start +
      env.WORKER_DLQ_SCAN_COUNT - 1)) _).run plan.answer (st.1, x₂) = _
    refine (Prog.run_bind_of_ok hload _).trans ?_
    rw [if_neg (by simpa using hpage)]
    rfl

/-! ## The turns -/

theorem nodup_failed {s : Stores} (hd : s.queue.Distinct) :
    (s.failed.map (·.job.id)).Nodup :=
  hd.sublist (List.filter_sublist.map _)

/-- The failed jobs once one of them left the queue. -/
theorem failed_erase {s s' : Stores} {before behind : List StoredJob} {t : StoredJob}
    (hd : s.queue.Distinct) (hsplit : s.failed = before ++ t :: behind)
    (hq : s'.queue = s.queue.erase t.job.id) : s'.failed = before ++ behind := by
  have hnd := nodup_failed hd
  rw [hsplit, List.map_append, List.map_cons, List.nodup_append] at hnd
  obtain ⟨-, hcons, hdisj⟩ := hnd
  rw [List.nodup_cons] at hcons
  have hfilter : s'.failed = s.failed.filter fun u => u.job.id != t.job.id := by
    unfold Stores.failed
    rw [hq]
    unfold JobQueue.erase
    rw [List.filter_filter, List.filter_filter]
    exact List.filter_congr fun u _ => Bool.and_comm _ _
  rw [hfilter, hsplit, List.filter_append, List.filter_cons_of_neg (by simp)]
  congr 1
  · rw [List.filter_eq_self]
    intro u hu
    have hne := hdisj _ (List.mem_map.2 ⟨u, hu, rfl⟩) _ List.mem_cons_self
    simpa using hne
  · rw [List.filter_eq_self]
    intro u hu
    have hne : u.job.id ≠ t.job.id := by
      intro e
      exact hcons.1 (List.mem_map.2 ⟨u, hu, e⟩)
    simpa using hne

theorem classifyQueueEntry_attempts {job : Job} {state : JobState} {item : ScannedJob}
    (h : classifyQueueEntry job state = .ok item) : job.attempts = some ORDERS_JOB_ATTEMPTS := by
  by_contra hne
  unfold classifyQueueEntry at h
  by_cases hname : job.name ≠ PERSIST_ORDER_JOB_NAME
  · rw [if_pos hname] at h; cases h
  rw [if_neg hname] at h
  cases hp : assertOrdersQueueJobPayload job.data with
  | error e => rw [hp] at h; cases h
  | ok payload =>
    simp only [hp] at h
    split_ifs at h

/-- The turn for a failed job that is still in the queue. -/
theorem turn_failed (h : Standing plan I) (hs : BetweenSweeps plan I p st) {t : StoredJob}
    {before behind : List StoredJob} (hsplit : st.1.failed = before ++ t :: behind) :
    ∃ calls verdict st', Turn plan.answer (some t.job) st calls verdict st' ∧
      verdict.isRemoved = p t.job ∧ I st' ∧ st'.1.queue.Distinct ∧
      st'.1.failedScanOffset = st.1.failedScanOffset ∧
      st'.1.failed = before ++ (if p t.job then behind else t :: behind) := by
  have ht : t ∈ st.1.failed := by rw [hsplit]; simp
  obtain ⟨hmem, hstate⟩ := List.mem_filter.1 ht
  have hfind := JobQueue.find_of_mem hs.distinct hmem
  have hfailed : t.state = .failed := by simpa using hstate
  have hholds (x : X) : HoldsFailed t.job (st.1, x) := ⟨t, hfind, rfl, hfailed⟩
  have hget : st.1.queue.getState t.job.id = .failed := by
    unfold JobQueue.getState
    rw [hfind]
    exact hfailed
  obtain ⟨x, hread, hx⟩ := h.read st (o := .getState t.job.id) rfl rfl hs.standing
  rw [hget] at hread
  cases hp : p t.job with
  | true =>
    obtain ⟨item, hc, hexh, hres⟩ := hs.resolvable t ht hp
    obtain ⟨result, st₁, st₂, hrun, hremove, hi⟩ := hres (st.1, x) hx (hholds x)
    obtain ⟨hq, hoff⟩ := resolution_keeps hrun
    have he : t.job.eligible .failed = true := by
      unfold Job.eligible
      rw [decide_eq_true_iff]
      exact ⟨rfl, classifyQueueEntry_attempts hc, hexh⟩
    obtain ⟨⟨r, s₂⟩, hperform, e⟩ := Option.map_eq_some_iff.1 hremove
    obtain ⟨rfl, rfl⟩ := Prod.mk.inj e
    have hok := Stores.performWith_ok hperform
    have hqueue : s₂.queue = st.1.queue.erase t.job.id ∧
        s₂.failedScanOffset = st.1.failedScanOffset := by
      obtain ⟨hr, rfl⟩ := Prod.mk.inj (Option.some.inj hok)
      refine ⟨?_, hoff⟩
      rw [hq] at hr ⊢
      unfold JobQueue.remove at hr ⊢
      rw [hfind] at hr ⊢
      dsimp only at hr ⊢
      split_ifs at hr ⊢ with hlock
      rfl
    refine ⟨_, _, _, .removed hc hread he hrun hremove, rfl, hi, ?_, hqueue.2, ?_⟩
    · show s₂.queue.Distinct
      rw [hqueue.1]
      exact hs.distinct.erase _
    · exact failed_erase hs.distinct hsplit hqueue.1
  | false =>
    rcases hs.retained t ht hp with ⟨issue, hc⟩ | ⟨item, hc, hexh | hres⟩
    · exact ⟨_, _, _, .malformed st hc, rfl, hs.standing, hs.distinct, rfl, hsplit⟩
    · have he : t.job.eligible .failed = false := by
        unfold Job.eligible
        rw [hexh]
        simp
      exact ⟨_, _, _, .ineligible hc hread he, rfl, hx, hs.distinct, rfl, hsplit⟩
    · by_cases he : t.job.eligible .failed = true
      · obtain ⟨e, st₁, hrun, hi⟩ := hres (st.1, x) hx (hholds x)
        obtain ⟨hq, hoff⟩ := resolution_keeps hrun
        refine ⟨_, _, _, .unresolved hc hread he hrun, rfl, hi, ?_, hoff, ?_⟩
        · rw [hq]; exact hs.distinct
        · unfold Stores.failed
          rw [hq]
          exact hsplit
      · exact ⟨_, _, _, .ineligible hc hread (by simpa using he), rfl, hx, hs.distinct, rfl, hsplit⟩

/-- The jobs of the page one after the other: the resolvable ones leave the list, the others stay
where they are. -/
theorem turns_failed (h : Standing plan I) (page : List StoredJob) {st : Stores × X}
    {before behind : List StoredJob} (hs : BetweenSweeps plan I p st)
    (hsplit : st.1.failed = before ++ (page ++ behind)) :
    ∃ calls verdicts st', Turns plan.answer (page.map fun t => some t.job) st calls verdicts st' ∧
      verdicts.countP Verdict.isRemoved = page.countP (fun t => p t.job) ∧
      BetweenSweeps plan I p st' ∧ st'.1.failedScanOffset = st.1.failedScanOffset ∧
      st'.1.failed = before ++ (page.filter (fun t => !p t.job) ++ behind) := by
  induction page generalizing st before with
  | nil => exact ⟨_, _, _, .nil st, rfl, hs, rfl, hsplit⟩
  | cons t page ih =>
    obtain ⟨calls, verdict, st₁, hturn, hv, hi, hd, hoff, hfailed⟩ := turn_failed h hs hsplit
    have hsub : ∀ u ∈ st₁.1.failed, u ∈ st.1.failed := by
      intro u hu
      rw [hfailed] at hu
      rw [hsplit]
      split_ifs at hu
      · rcases List.mem_append.1 hu with hu | hu
        · exact List.mem_append_left _ hu
        · exact List.mem_append_right _ (List.mem_cons_of_mem _ hu)
      · exact hu
    have hs₁ : BetweenSweeps plan I p st₁ := ⟨hi, hd, fun u hu => hs.resolvable u (hsub u hu),
      fun u hu => hs.retained u (hsub u hu)⟩
    cases hp : p t.job with
    | true =>
      rw [hp, if_pos rfl] at hfailed
      obtain ⟨rest, verdicts, st₂, hturns, hcount, hs₂, hoff₂, hfailed₂⟩ := ih hs₁ hfailed
      refine ⟨_, _, st₂, .cons hturn hturns, ?_, hs₂, hoff₂.trans hoff, ?_⟩
      · rw [List.countP_cons_of_pos (hv.trans hp),
          List.countP_cons_of_pos (p := fun t : StoredJob => p t.job) hp, hcount]
      · rw [List.filter_cons_of_neg (by simp [hp])]
        exact hfailed₂
    | false =>
      rw [hp, if_neg (by decide), List.append_cons] at hfailed
      obtain ⟨rest, verdicts, st₂, hturns, hcount, hs₂, hoff₂, hfailed₂⟩ := ih hs₁ hfailed
      refine ⟨_, _, st₂, .cons hturn hturns, ?_, hs₂, hoff₂.trans hoff, ?_⟩
      · rw [List.countP_cons_of_neg (by simp [hv, hp]), List.countP_cons_of_neg (by simp [hp]),
          hcount]
      · rw [List.filter_cons_of_pos (by simp [hp])]
        simpa using hfailed₂

/-! ## Sweeps -/

theorem sweepOutcome_cases (verdicts : List Verdict) :
    (∃ result, sweepOutcome verdicts = .ok result) ∨
      ∃ errors message, sweepOutcome verdicts = .error (.aggregate errors message) := by
  unfold sweepOutcome
  dsimp only
  split_ifs
  · exact .inl ⟨_, rfl⟩
  · exact .inr ⟨_, _, rfl⟩

theorem BetweenSweeps.setOffset (h : Standing plan I) (hs : BetweenSweeps plan I p st)
    (offset : ℕ) :
    ∃ x, plan.answer (.setFailedScanOffset offset) st =
        some (.ok (), ({ st.1 with failedScanOffset := offset }, x)) ∧
      BetweenSweeps plan I p ({ st.1 with failedScanOffset := offset }, x) := by
  obtain ⟨x, hset, hi⟩ := h.local st (o := .setFailedScanOffset offset) rfl rfl hs.standing
  exact ⟨x, hset, hi, hs.distinct, hs.resolvable, hs.retained⟩

/-- **One sweep turns the ring.** -/
theorem sweepFailed_turns_ring (h : Standing plan I) (env : WorkerEnv)
    (hs : BetweenSweeps plan I p st) :
    ∃ outcome st', (sweepFailed env).run plan.answer st = some (outcome, st') ∧
      ((∃ result, outcome = .ok result) ∨
        ∃ errors message, outcome = .error (.aggregate errors message)) ∧
      BetweenSweeps plan I p st' ∧
      st'.1.ring = st.1.ring.sweep env.WORKER_DLQ_SCAN_COUNT fun t => p t.job := by
  by_cases hne : st.1.failed = []
  · obtain ⟨x₁, hcount, hx₁⟩ := h.read st (o := .countJobs .failed) rfl rfl hs.standing
    have hzero : st.1.queue.count .failed = 0 := by rw [count_failed, hne]; rfl
    rw [hzero] at hcount
    have hs₁ : BetweenSweeps plan I p (st.1, x₁) := ⟨hx₁, hs.distinct, hs.resolvable, hs.retained⟩
    obtain ⟨x₂, hset, hs₂⟩ := hs₁.setOffset h 0
    refine ⟨_, _, ?_, .inl ⟨⟨0, 0⟩, rfl⟩, hs₂, ?_⟩
    · unfold sweepFailed
      show (Prog.bind _ _).run plan.answer st = _
      rw [request, Prog.run_call_bind hcount, if_pos rfl]
      exact Prog.run_call_bind hset _
    · unfold Ring.sweep
      rw [if_pos (show st.1.ring.items = [] from hne)]
      show (⟨st.1.failed, 0⟩ : Ring StoredJob) = _
      rw [hne]
  · obtain ⟨read, x₁, hpage, hx₁⟩ := pageRead_failed h env hs hne
    have hs₁ : BetweenSweeps plan I p (st.1, x₁) := ⟨hx₁, hs.distinct, hs.resolvable, hs.retained⟩
    have hsplit : (st.1, x₁).1.failed = st.1.failed.take st.1.ring.start ++
        (st.1.ring.page env.WORKER_DLQ_SCAN_COUNT ++
          st.1.failed.drop (st.1.ring.start + env.WORKER_DLQ_SCAN_COUNT)) := by
      rw [← List.append_assoc]
      exact Ring.items_eq env.WORKER_DLQ_SCAN_COUNT st.1.ring
    obtain ⟨calls, verdicts, st₂, hturns, hremoved, hs₂, -, hfailed⟩ :=
      turns_failed h _ hs₁ hsplit
    obtain ⟨x₃, hcount, hx₃⟩ := h.read st₂ (o := .countJobs .failed) rfl rfl hs₂.standing
    rw [count_failed] at hcount
    have hs₃ : BetweenSweeps plan I p (st₂.1, x₃) :=
      ⟨hx₃, hs₂.distinct, hs₂.resolvable, hs₂.retained⟩
    obtain ⟨x₄, hset, hs₄⟩ := hs₃.setOffset h (nextScanOffset st.1.ring.start
      ((st.1.ring.page env.WORKER_DLQ_SCAN_COUNT).map fun t => some t.job).length
      (verdicts.countP Verdict.isRemoved) st₂.1.failed.length)
    obtain ⟨hrun, -⟩ := sweepRest_of_turns _ hturns (by simp) hcount hset
    refine ⟨_, _, hpage.run.1.trans hrun, sweepOutcome_cases verdicts, hs₄, ?_⟩
    unfold Ring.sweep
    rw [if_neg (show st.1.ring.items ≠ [] from hne)]
    show (⟨st₂.1.failed, _⟩ : Ring StoredJob) = _
    rw [hfailed, hremoved, List.length_map, ← List.append_assoc]
    rfl

/-- A run of sweeps follows the ring. -/
theorem sweeps_turn_ring (h : Standing plan I) (env : WorkerEnv) (k : ℕ) {st : Stores × X}
    (hs : BetweenSweeps plan I p st) : ∃ st', sweeps plan env k st = some st' ∧ st'.1.ring =
      (Ring.sweep env.WORKER_DLQ_SCAN_COUNT fun t => p t.job)^[k] st.1.ring := by
  induction k generalizing st with
  | zero => exact ⟨st, rfl, rfl⟩
  | succ k ih =>
    obtain ⟨outcome, st₁, hrun, houtcome, hs₁, hring⟩ := sweepFailed_turns_ring h env hs
    obtain ⟨st₂, hsweeps, hring₂⟩ := ih hs₁
    refine ⟨st₂, ?_, ?_⟩
    · rcases houtcome with ⟨result, rfl⟩ | ⟨errors, message, rfl⟩
      · rw [sweeps, hrun]; exact hsweeps
      · rw [sweeps, hrun]; exact hsweeps
    · rw [hring₂, hring, Function.iterate_succ_apply]

/-- **No starvation among the failed jobs.** Any number of sweeps keeps the order of the jobs that are
left and never removes a retained one, and from a bound on that depends on their number and the
window exactly the retained ones are left. -/
theorem sweeps_remove_resolvable (plan : FaultPlan X) (I : Stores × X → Prop) (p : Job → Bool)
    (env : WorkerEnv) (st : Stores × X) (h : Standing plan I) (hs : BetweenSweeps plan I p st)
    (k : ℕ) :
    ∃ st', sweeps plan env k st = some st' ∧ st'.1.failed.Sublist st.1.failed ∧
      st'.1.failed.filter (fun t => !p t.job) = st.1.failed.filter (fun t => !p t.job) ∧
      (Ring.bound env.WORKER_DLQ_SCAN_COUNT st.1.failed.length ≤ k →
        st'.1.failed = st.1.failed.filter fun t => !p t.job) := by
  obtain ⟨st', hsweeps, hring⟩ := sweeps_turn_ring h env k hs
  have hitems : st'.1.failed = ((Ring.sweep env.WORKER_DLQ_SCAN_COUNT fun t : StoredJob =>
      p t.job)^[k] st.1.ring).items := congrArg Ring.items hring
  refine ⟨st', hsweeps, ?_, ?_, fun hk => ?_⟩
  · rw [hitems]; exact Ring.sublist_iterate _ _ _ k
  · rw [hitems]; exact Ring.filter_iterate _ _ _ k
  · rw [hitems]; exact Ring.iterate_sweep env.dlqPage_pos hk

end

/-! ## Two failed jobs -/

/-- Sweeps of one job at a time. -/
def narrowEnv : WorkerEnv :=
  { oneUnitEnv with
    WORKER_DLQ_SCAN_COUNT := 1
    dlqPage_pos := Nat.one_pos }

/-- The database with the order persisted after all. -/
def persistedDb : Db :=
  ⟨[failedOrder.toRow .persisted], [⟨"flash-2026", "Aurora", 1, 1000, 2000⟩], ∅, String.length⟩

/-- A job of another kind in front of the exhausted one. -/
def twoFailed : Stores where
  sales := fun _ => Sale.empty
  time := ⟨1, 0⟩
  ledgerBucket := fun _ => 0
  buyerBucket := fun _ => 0
  queue := ⟨[⟨foreignJob, .failed, none⟩, ⟨exhaustedJob, .failed, none⟩], false, 2⟩
  db := persistedDb
  failedScanOffset := 0

def faultless : FaultPlan Unit := ⟨fun _ _ _ => .none, fun _ _ _ => ()⟩

/-- The database stays as it is and no job is locked. -/
def Settled (st : Stores × Unit) : Prop :=
  st.1.db = persistedDb ∧ ∀ t ∈ st.1.queue.jobs, t.lock = none

theorem standing_faultless : Standing faultless Settled where
  reads _ _ _ _ := rfl
  keeps o st r st' ho hi hans := by
    obtain ⟨⟨r', s'⟩, hp, e⟩ := Option.map_eq_some_iff.1 hans
    obtain ⟨-, rfl⟩ := Prod.mk.inj e
    have hp : st.1.perform o = some (r', s') := hp
    cases o <;> first | (rcases ho with ho | ho <;> cases ho; done) | skip
    all_goals
      obtain ⟨-, rfl⟩ := Prod.mk.inj (Option.some.inj hp)
      exact hi

theorem resolvable_exhaustedJob : Resolvable faultless Settled exhaustedJob := by
  refine ⟨_, exhaustedJob_eligible.1, by decide, ?_⟩
  rintro ⟨⟨sales, time, lb, bb, queue, db, offset⟩, _⟩ ⟨hdb, hlock⟩ ⟨t, hfind, -, -⟩
  obtain rfl : db = persistedDb := hdb
  have hnone : t.lock = none := hlock t (JobQueue.find_some hfind).1
  refine ⟨.persisted, (⟨sales, time, lb, bb, queue, persistedDb, offset⟩, ()),
    (⟨sales, time, lb, bb, queue.erase exhaustedJob.id, persistedDb, offset⟩, ()), rfl, ?_, rfl, ?_⟩
  · have hremove : queue.remove exhaustedJob.id = (.ok (), queue.erase exhaustedJob.id) := by
      unfold JobQueue.remove
      have hf : queue.find exhaustedJob.id = some t := hfind
      rw [hf]
      dsimp only
      rw [hnone, if_neg (by decide)]
    show (some (_, _) : Option _).map _ = _
    rw [hremove]
    rfl
  · intro u hu
    exact hlock u (List.mem_filter.1 hu).1

theorem betweenSweeps_twoFailed : BetweenSweeps faultless Settled
    (fun job => job.id == "flash-2026-bob") (twoFailed, ()) where
  standing := ⟨rfl, by simp [twoFailed]⟩
  distinct := by
    show (List.map _ _).Nodup
    decide
  resolvable t ht hp := by
    have ht : t ∈ [⟨foreignJob, .failed, none⟩, ⟨exhaustedJob, .failed, none⟩] := ht
    rcases List.mem_pair.1 ht with rfl | rfl
    · exact absurd hp (by decide)
    · exact resolvable_exhaustedJob
  retained t ht hp := by
    have ht : t ∈ [⟨foreignJob, .failed, none⟩, ⟨exhaustedJob, .failed, none⟩] := ht
    rcases List.mem_pair.1 ht with rfl | rfl
    · exact .inl ⟨_, if_pos (by decide)⟩
    · exact absurd hp (by decide)

theorem sweeps_remove_resolvable_twoFailed :
    ∃ st', sweeps faultless narrowEnv 12 (twoFailed, ()) = some st' ∧
      st'.1.failed = [⟨foreignJob, .failed, none⟩] := by
  obtain ⟨st', hsweeps, -, -, hbound⟩ := sweeps_remove_resolvable faultless Settled
    (fun job => job.id == "flash-2026-bob") narrowEnv (twoFailed, ()) standing_faultless
    betweenSweeps_twoFailed 12
  exact ⟨st', hsweeps, hbound (by decide)⟩

end FlashSale
