import FlashSale.Worker.Reconciliation

/-!
# Queue repair

`ensureLiveReservationQueued` on its own: which jobs it removes, and what each of its verdicts says
about the queue it leaves. The job is looked up by the function or handed over by a caller who has
just read it.
-/

namespace FlashSale

/-- The job carries the reservation. -/
def Job.Carries (job : Job) (reservationId : String) : Prop :=
  ∃ p, assertOrdersQueueJobPayload job.data = .ok p ∧ p.reservationId = reservationId

/-- A live job under this id carries the reservation. -/
def JobQueue.Covers (q : JobQueue) (jobId reservationId : String) : Prop :=
  ∃ st, q.find jobId = some st ∧ st.state.isLive = true ∧ st.job.Carries reservationId

/-- The durable row records the reservation as persisted. -/
def PersistedAs (durable : Option DurableOrder) (reservationId : String) : Prop :=
  ∃ row, durable = some row ∧ row.id = reservationId ∧ row.status = .persisted

/-- A stored job may be removed in favour of the live reservation: it is well formed and either
carries that reservation, is completed and its order is not persisted, or carries another one that
the row has settled, and is not active. -/
def Removable (live : ReservationEntry) (durable : Option DurableOrder) (st : StoredJob) : Prop :=
  ∃ scanned, classifyQueueEntry st.job st.state = .ok scanned ∧
    (scanned.payload.reservationId = live.reservationId ∧ st.state = .completed ∧
        ¬ PersistedAs durable live.reservationId ∨
      scanned.payload.reservationId ≠ live.reservationId ∧ st.state ≠ .active ∧
        ∃ row, durable = some row ∧ row.id = scanned.payload.reservationId ∧
          (row.status = .persisted ∨ row.status = .compensated))

/-- What a call of `ensureLiveReservationQueued` that ends with `r` has done to the queue. -/
structure QueueRepaired (env : WorkerEnv) (live : ReservationEntry) (durable : Option DurableOrder)
    (s : Stores) (r : Except Failure EnsureLiveQueueResult) (s' : Stores) : Prop where
  removed : ∀ id st, s.queue.find id = some st → s'.queue.find id ≠ some st →
    Removable live durable st
  covered : r = .ok .enqueued ∨ r = .ok .alreadyCovered →
    s'.queue.Covers (env.jobId live.userId) live.reservationId
  satisfied : r = .ok .durablySatisfied → PersistedAs durable live.reservationId
  retained : r = .ok .retainedCollision → s'.queue = s.queue
  frame : s' = { s with queue := s'.queue }

section

variable {env : WorkerEnv} {live : ReservationEntry} {durable : Option DurableOrder} {s : Stores}

/-- A verdict without effect. -/
theorem QueueRepaired.same {r : Except Failure EnsureLiveQueueResult}
    (hcov : r = .ok .enqueued ∨ r = .ok .alreadyCovered →
      s.queue.Covers (env.jobId live.userId) live.reservationId)
    (hsat : r = .ok .durablySatisfied → PersistedAs durable live.reservationId) :
    QueueRepaired env live durable s r s where
  removed _ _ hst hne := absurd hst hne
  covered := hcov
  satisfied := hsat
  retained _ := rfl
  frame := rfl

theorem buildOrdersJobId_env {jobId : String}
    (h : buildOrdersJobId env.SALE_ID live.userId = .ok jobId) : jobId = env.jobId live.userId :=
  (buildOrdersJobId_ok h).2

/-- The job of the live reservation is well formed. -/
theorem classify_repair {p : OrdersQueueJobPayload}
    (hp : assertOrdersQueueJobPayload (repairPayload env live).toJs = .ok p) {jobId : String}
    (hid : buildOrdersJobId env.SALE_ID live.userId = .ok jobId) (q : JobQueue) :
    p = repairPayload env live ∧
    classifyQueueEntry (q.newJob jobId PERSIST_ORDER_JOB_NAME p.toJs ORDERS_JOB_ATTEMPTS) .waiting =
      .ok ⟨q.newJob jobId PERSIST_ORDER_JOB_NAME p.toJs ORDERS_JOB_ATTEMPTS, .waiting, p⟩ := by
  obtain ⟨hv, rfl⟩ := assertOrdersQueueJobPayload_toJs_ok hp
  refine ⟨rfl, ?_⟩
  unfold classifyQueueEntry JobQueue.newJob
  rw [if_neg (by simp)]
  dsimp only
  rw [hp]
  dsimp only
  rw [if_neg, if_neg (by simp)]
  rw [show (repairPayload env live).saleId = env.SALE_ID from rfl,
    show (repairPayload env live).userId = live.userId from rfl, hid]
  simp [Except.toOption]

/-- Enqueueing into a free slot. -/
theorem run_enqueueLiveReservation {jobId : String}
    (hid : buildOrdersJobId env.SALE_ID live.userId = .ok jobId)
    (hfree : s.queue.find jobId = none) :
    (∃ e, (enqueueLiveReservation env live jobId).run Stores.answer s = some (.error e, s)) ∨
    ∃ q, (enqueueLiveReservation env live jobId).run Stores.answer s =
        some (.ok .enqueued, { s with queue := q }) ∧
      q.Covers jobId live.reservationId ∧ ∀ id, id ≠ jobId → q.find id = s.queue.find id := by
  unfold enqueueLiveReservation
  cases hp : assertOrdersQueueJobPayload (repairPayload env live).toJs with
  | error e => exact .inl ⟨e, rfl⟩
  | ok p =>
    obtain ⟨rfl, hclass⟩ := classify_repair hp hid s.queue
    refine .inr ⟨s.queue.add jobId PERSIST_ORDER_JOB_NAME (repairPayload env live).toJs
      ORDERS_JOB_ATTEMPTS, ?_, ?_, fun id hne => ?_⟩
    · refine (Prog.run_call_bind (o := Call.addJob jobId PERSIST_ORDER_JOB_NAME
        (repairPayload env live).toJs ORDERS_JOB_ATTEMPTS) rfl _).trans ?_
      rw [hclass]
      simp [Prog.run]
    · refine ⟨⟨s.queue.newJob jobId PERSIST_ORDER_JOB_NAME (repairPayload env live).toJs
        ORDERS_JOB_ATTEMPTS, .waiting, none⟩, ?_, rfl, _, hp, rfl⟩
      rw [JobQueue.find_add, if_pos ⟨rfl, hfree⟩]
    · rw [JobQueue.find_add, if_neg (fun h => hne h.1)]

/-- A removal of the job in the slot and a second chance for the live reservation. -/
theorem run_replace {jobId : String} {st : StoredJob} {targetedJob : Option (Option Job)}
    (hid : buildOrdersJobId env.SALE_ID live.userId = .ok jobId)
    (hst : s.queue.find jobId = some st) (hrem : Removable live durable st) :
    ∃ r s', ((request (.removeJob st.job)).bind fun _ =>
        enqueueAgain env live jobId targetedJob).run Stores.answer s = some (r, s') ∧
      QueueRepaired env live durable s r s' := by
  have hjob : st.job.id = jobId := (JobQueue.find_some hst).2
  rw [buildOrdersJobId_env hid] at hst hjob ⊢
  rw [buildOrdersJobId_env hid] at hid
  have hanswer : Stores.answer (.removeJob st.job) s =
      some ((s.queue.remove (env.jobId live.userId)).1,
        { s with queue := (s.queue.remove (env.jobId live.userId)).2 }) := by
    rw [← hjob]
    rfl
  by_cases hlock : st.lock.isSome
  · -- a locked job is not removed and the call throws
    have hrefuse : s.queue.remove (env.jobId live.userId) =
        (.error (.error ("Job " ++ env.jobId live.userId ++
          " could not be removed because it is locked by another worker")), s.queue) := by
      unfold JobQueue.remove
      rw [hst]
      exact if_pos hlock
    rw [hrefuse] at hanswer
    exact ⟨_, s, Prog.run_bind_of_error (Prog.run_call hanswer) _, .same (by simp) (by simp)⟩
  · have hremove : s.queue.remove (env.jobId live.userId) =
        (.ok (), s.queue.erase (env.jobId live.userId)) := by
      unfold JobQueue.remove
      rw [hst]
      exact if_neg hlock
    rw [hremove] at hanswer
    have hfree : (s.queue.erase (env.jobId live.userId)).find (env.jobId live.userId) = none := by
      rw [JobQueue.find_erase, if_pos rfl]
    have hother : ∀ id, id ≠ env.jobId live.userId →
        (s.queue.erase (env.jobId live.userId)).find id = s.queue.find id := fun id hne => by
      rw [JobQueue.find_erase, if_neg hne]
    -- the slot is free now, so the second lookup finds nothing
    have hagain : (enqueueAgain env live (env.jobId live.userId) targetedJob).run Stores.answer
          { s with queue := s.queue.erase (env.jobId live.userId) } =
        (enqueueLiveReservation env live (env.jobId live.userId)).run Stores.answer
          { s with queue := s.queue.erase (env.jobId live.userId) } := by
      unfold enqueueAgain
      split_ifs
      · unfold enqueueAfterRemoval
        refine (Prog.run_call_bind (o := Call.getJob _) (a := none) ?_ _).trans rfl
        show some (_, _) = _
        unfold JobQueue.getJob
        dsimp only
        rw [hfree]
        rfl
      · rfl
    have hremoved : ∀ q : JobQueue, (∀ id, id ≠ env.jobId live.userId →
        q.find id = (s.queue.erase (env.jobId live.userId)).find id) →
        ∀ id st', s.queue.find id = some st' → q.find id ≠ some st' →
          Removable live durable st' := by
      intro q hq id st' hst' hne
      by_cases hid' : id = env.jobId live.userId
      · rw [hid', hst] at hst'
        obtain rfl := Option.some.inj hst'
        exact hrem
      · rw [hq id hid', hother id hid'] at hne
        exact absurd hst' hne
    refine (run_enqueueLiveReservation
      (s := { s with queue := s.queue.erase (env.jobId live.userId) }) hid hfree).elim ?_ ?_
    · rintro ⟨e, he⟩
      refine ⟨.error e, _, (Prog.run_call_bind hanswer _).trans (hagain.trans he), ?_⟩
      exact ⟨hremoved _ fun _ _ => rfl, by simp, by simp, by simp, rfl⟩
    · rintro ⟨q, hq, hcov, hkept⟩
      refine ⟨.ok .enqueued, _, (Prog.run_call_bind hanswer _).trans (hagain.trans hq), ?_⟩
      exact ⟨hremoved q hkept, fun _ => hcov, by simp, by simp, rfl⟩

/-- A well-formed job in the slot. -/
theorem run_adjudicateQueued {jobId : String} {st : StoredJob} {scanned : ScannedJob}
    {targetedJob : Option (Option Job)}
    (hid : buildOrdersJobId env.SALE_ID live.userId = .ok jobId)
    (hst : s.queue.find jobId = some st)
    (hclass : classifyQueueEntry st.job st.state = .ok scanned) :
    ∃ r s', (adjudicateQueued env live durable targetedJob jobId st.job scanned).run Stores.answer s =
        some (r, s') ∧ QueueRepaired env live durable s r s' := by
  obtain ⟨hscanned, hdata, -⟩ := classifyQueueEntry_ok hclass
  have hstate : scanned.state = st.state := by rw [hscanned]
  have hdurable : durable.any (fun row => row.id = live.reservationId && row.status = .persisted) =
      true ↔ PersistedAs durable live.reservationId := by
    unfold PersistedAs
    cases durable with
    | none => simp
    | some row => simp
  unfold adjudicateQueued
  dsimp only
  rw [hstate]
  split_ifs with hsame hlive hsat hdone hother
  · -- the job of the reservation, still live
    refine ⟨.ok .alreadyCovered, s, rfl, .same (fun _ => ?_) (by simp)⟩
    rw [buildOrdersJobId_env hid] at hst
    exact ⟨st, hst, hlive, _, hdata, hsame⟩
  · exact ⟨.ok .durablySatisfied, s, rfl, .same (by simp) fun _ => hdurable.1 hsat⟩
  · exact ⟨.ok .retainedCollision, s, rfl, .same (by simp) (by simp)⟩
  · refine run_replace hid hst ⟨scanned, hclass, .inl ⟨hsame, not_not.1 hdone, fun h => ?_⟩⟩
    exact hsat (hdurable.2 h)
  · exact ⟨.ok .retainedCollision, s, rfl, .same (by simp) (by simp)⟩
  · rw [not_or, not_not, not_not] at hother
    refine run_replace hid hst ⟨scanned, hclass, .inr ⟨hsame, ?_, ?_⟩⟩
    · rintro e
      rw [e] at hother
      simp at hother
    · obtain ⟨row, hrow, hrowid⟩ := Option.map_eq_some_iff.1 hother.2
      refine ⟨row, hrow, hrowid, ?_⟩
      cases row.status with
      | persisted => exact .inl rfl
      | compensated => exact .inr rfl

end

/-- **Queue repair.** Every call ends, and with whatever verdict: only removable jobs left the
queue, `ENQUEUED` and `ALREADY_COVERED` leave a live job with the reservation, `DURABLY_SATISFIED`
means that the row has it persisted, and `RETAINED_COLLISION` changes nothing. -/
theorem ensureLiveReservationQueued_repairs (env : WorkerEnv) (live : ReservationEntry)
    (durable : Option DurableOrder) (s : Stores) (targetedJob : Option (Option Job))
    (htargeted : targetedJob = none ∨
      targetedJob = some (s.queue.getJob (env.jobId live.userId))) :
    ∃ r s', (ensureLiveReservationQueued env live durable targetedJob).run Stores.answer s =
        some (r, s') ∧ QueueRepaired env live durable s r s' := by
  unfold ensureLiveReservationQueued
  cases hid : buildOrdersJobId env.SALE_ID live.userId with
  | error e => exact ⟨.error e, s, rfl, .same (by simp) (by simp)⟩
  | ok jobId =>
    have hlookup : (lookupJob jobId targetedJob).run Stores.answer s =
        some (.ok (s.queue.getJob jobId), s) := by
      rcases htargeted with rfl | rfl
      · exact Prog.run_call rfl
      · rw [buildOrdersJobId_env hid]
        rfl
    show ∃ r s', (Prog.bind (lookupJob jobId targetedJob) _).run Stores.answer s =
      some (r, s') ∧ _
    rw [Prog.run_bind_of_ok hlookup]
    cases hst : s.queue.find jobId with
    | none =>
      have hjob : s.queue.getJob jobId = none := by
        unfold JobQueue.getJob
        rw [hst]
        rfl
      rw [hjob]
      refine (run_enqueueLiveReservation hid hst).elim ?_ ?_
      · rintro ⟨e, he⟩
        exact ⟨.error e, s, he, .same (by simp) (by simp)⟩
      · rintro ⟨q, hq, hcov, hkept⟩
        refine ⟨.ok .enqueued, _, hq, fun id st hst' hne => ?_, fun _ => ?_, by simp,
          by simp, rfl⟩
        · by_cases hid' : id = jobId
          · rw [hid', hst] at hst'
            cases hst'
          · exact absurd ((hkept id hid').trans hst') hne
        · rw [← buildOrdersJobId_env hid]
          exact hcov
    | some st =>
      have hjob : s.queue.getJob jobId = some st.job := by
        unfold JobQueue.getJob
        rw [hst]
        rfl
      have hstate : Stores.answer (.getState st.job.id) s = some (.ok st.state, s) := by
        show some (_, s) = _
        unfold JobQueue.getState
        rw [(JobQueue.find_some hst).2, hst]
        rfl
      rw [hjob]
      show ∃ r s', (Prog.bind (request (.getState st.job.id)) _).run Stores.answer s =
        some (r, s') ∧ _
      rw [request, Prog.run_call_bind hstate]
      cases hclass : classifyQueueEntry st.job st.state with
      | error issue =>
        exact ⟨.ok .retainedCollision, s, rfl, .same (by simp) (by simp)⟩
      | ok scanned =>
        obtain ⟨r, s', hr, hrep⟩ := run_adjudicateQueued hid hst hclass
        exact ⟨r, s', hr, hrep⟩

/-- The live reservation of Alice after her first one was compensated. -/
def aliceAgain : ReservationEntry :=
  ⟨"alice", "0190aaaa-0000-7000-8000-000000000003", some 1600⟩

/-- The row of her first reservation. -/
def aliceCompensated : DurableOrder :=
  (⟨"flash-2026", "alice", "0190aaaa-0000-7000-8000-000000000001", 1500, "req-1"⟩ :
    OrdersQueueJobPayload).toRow .compensated

/-- The completed job of her first reservation is still in the slot. -/
def aliceCompleted : Stores where
  sales := fun _ => Sale.empty
  time := ⟨1, 700000⟩
  ledgerBucket := fun _ => 0
  buyerBucket := fun _ => 0
  queue := ⟨[⟨⟨"flash-2026-alice", PERSIST_ORDER_JOB_NAME,
    (⟨"flash-2026", "alice", "0190aaaa-0000-7000-8000-000000000001", 1500, "req-1"⟩ :
      OrdersQueueJobPayload).toJs, some 5, 1, none, 0, 0⟩, .completed, none⟩], false, 1⟩
  db := ⟨[aliceCompensated], [⟨"flash-2026", "Aurora", 1, 1000, 2000⟩], ∅, String.length⟩
  failedScanOffset := 0

theorem ensureLiveReservationQueued_repairs_alice :
    ∃ s', (ensureLiveReservationQueued oneUnitEnv aliceAgain (some aliceCompensated)
        (some (aliceCompleted.queue.getJob "flash-2026-alice"))).run Stores.answer aliceCompleted =
          some (.ok .enqueued, s') ∧
      s'.queue.jobs.map (fun st => (st.job.id, st.state)) = [("flash-2026-alice", .waiting)] ∧
      s'.queue.Covers "flash-2026-alice" "0190aaaa-0000-7000-8000-000000000003" := by
  obtain ⟨r, s', hrun, hrep⟩ := ensureLiveReservationQueued_repairs oneUnitEnv aliceAgain
    (some aliceCompensated) aliceCompleted (some (aliceCompleted.queue.getJob "flash-2026-alice"))
    (.inr rfl)
  have hend : ((ensureLiveReservationQueued oneUnitEnv aliceAgain (some aliceCompensated)
      (some (aliceCompleted.queue.getJob "flash-2026-alice"))).run Stores.answer aliceCompleted).map
        (fun q => (q.1.toOption, q.2.queue.jobs.map fun st => (st.job.id, st.state))) =
      some (some .enqueued, [("flash-2026-alice", .waiting)]) := by
    decide +kernel
  rw [hrun, Option.map_some, Option.some.injEq, Prod.mk.injEq] at hend
  obtain ⟨hr, hjobs⟩ := hend
  cases r with
  | error e => cases hr
  | ok verdict =>
    obtain rfl : verdict = .enqueued := Option.some.inj hr
    exact ⟨s', hrun, hjobs, hrep.covered (.inl rfl)⟩

end FlashSale
