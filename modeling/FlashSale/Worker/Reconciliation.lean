import FlashSale.Worker.OrderRepository

/-!
# `ReconciliationService` as programs of the worker

`runDiff` compares the four stores: it restores ledger entries from persisted rows and from live
jobs, makes sure every ledger entry is covered by a job, adjudicates buyers without an entry,
derives the stock and sweeps the failed jobs. `sweepFailed` resolves jobs that failed for good and
removes them, and `bootPass` seeds an empty sale before its first `runDiff`. Passes and sweeps run
under one session lock, so they share the database client `0`.

The loops that page through a store have no bound in the source; `fuel` bounds them here, and a
loop that runs out of it throws. A `checkpoint` that finds the worker stopped ends a pass early,
which is an event of the systems these programs run in.
-/

namespace FlashSale

/-- What the worker reads of its environment, as `envSchema` accepts it. -/
structure WorkerEnv where
  sale : SaleConfig
  WORKER_RECONCILE_SCAN_COUNT : ℕ
  WORKER_DLQ_SCAN_COUNT : ℕ
  saleId_valid : isSaleId sale.saleId = true
  totalStock_nonneg : 0 ≤ sale.totalStock
  totalStock_safe : sale.totalStock ≤ Number.MAX_SAFE_INTEGER
  window_nonempty : sale.startsAtMs < sale.endsAtMs
  reconcilePage_pos : 0 < WORKER_RECONCILE_SCAN_COUNT
  dlqPage_pos : 0 < WORKER_DLQ_SCAN_COUNT

abbrev WorkerEnv.SALE_ID (env : WorkerEnv) : String := env.sale.saleId

/-- The id of a user's job. -/
def WorkerEnv.jobId (env : WorkerEnv) (userId : String) : String := env.SALE_ID ++ "-" ++ userId

theorem WorkerEnv.jobId_inj {env : WorkerEnv} {u v : String} (h : env.jobId u = env.jobId v) :
    u = v := by
  have h' := congrArg String.toList h
  simp only [WorkerEnv.jobId, String.toList_append, List.append_assoc] at h'
  exact String.toList_inj.1 (List.append_cancel_left (List.append_cancel_left h'))

theorem assertSaleId_env (env : WorkerEnv) : assertSaleId env.SALE_ID = .ok () := by
  unfold assertSaleId; rw [if_pos env.saleId_valid]

/-- A sale of one unit. -/
def oneUnitEnv : WorkerEnv where
  sale := ⟨"flash-2026", "Aurora", "", "", 1000, 2000, 1⟩
  WORKER_RECONCILE_SCAN_COUNT := 10
  WORKER_DLQ_SCAN_COUNT := 10
  saleId_valid := by decide +kernel
  totalStock_nonneg := by decide
  totalStock_safe := by decide
  window_nonempty := by decide
  reconcilePage_pos := by decide
  dlqPage_pos := by decide

/-! ## Queue entries -/

inductive QueueEntryIssueCode where
  | unexpectedName
  | invalidPayload
  | jobIdMismatch
  deriving DecidableEq, Repr

structure QueueEntryIssue where
  jobId : String
  state : JobState
  code : QueueEntryIssueCode
  message : String
  deriving DecidableEq, Repr

structure ScannedJob where
  job : Job
  state : JobState
  payload : OrdersQueueJobPayload

/-- `classifyQueueEntry`; a validated payload always has a job id. -/
def classifyQueueEntry (job : Job) (state : JobState) : Except QueueEntryIssue ScannedJob :=
  if job.name ≠ PERSIST_ORDER_JOB_NAME then
    .error ⟨job.id, state, .unexpectedName, "unexpected job name '" ++ job.name ++ "'"⟩
  else match assertOrdersQueueJobPayload job.data with
    | .error e => .error ⟨job.id, state, .invalidPayload, e.message⟩
    | .ok payload =>
      if (buildOrdersJobId payload.saleId payload.userId).toOption ≠ some job.id then
        .error ⟨job.id, state, .jobIdMismatch, "job ID does not match validated payload identity"⟩
      else if job.attempts ≠ some ORDERS_JOB_ATTEMPTS then
        .error ⟨job.id, state, .invalidPayload, "job attempts must equal 5"⟩
      else .ok ⟨job, state, payload⟩

theorem classifyQueueEntry_ok {job : Job} {state : JobState} {sj : ScannedJob}
    (h : classifyQueueEntry job state = .ok sj) :
    sj = ⟨job, state, sj.payload⟩ ∧ assertOrdersQueueJobPayload job.data = .ok sj.payload ∧
      buildOrdersJobId sj.payload.saleId sj.payload.userId = .ok job.id := by
  unfold classifyQueueEntry at h
  by_cases hname : job.name ≠ PERSIST_ORDER_JOB_NAME
  · rw [if_pos hname] at h; cases h
  rw [if_neg hname] at h
  cases hp : assertOrdersQueueJobPayload job.data with
  | error e => rw [hp] at h; cases h
  | ok payload =>
    simp only [hp] at h
    cases hb : buildOrdersJobId payload.saleId payload.userId with
    | error e => rw [hb, if_pos (by simp [Except.toOption])] at h; cases h
    | ok id =>
      rw [hb] at h
      split_ifs at h with hid hatt
      obtain rfl := Except.ok.inj h
      refine ⟨rfl, rfl, ?_⟩
      rw [not_not] at hid
      rw [hb, Option.some.inj hid]

/-- The job of an accepted payload of the sale has an id of the sale. -/
theorem accepted_id {env : WorkerEnv} {job : Job} {state : JobState} {sj : ScannedJob}
    (h : classifyQueueEntry job state = .ok sj) (hs : sj.payload.saleId = env.SALE_ID) :
    isUserId sj.payload.userId = true ∧ job.id = env.jobId sj.payload.userId := by
  obtain ⟨-, -, hid⟩ := classifyQueueEntry_ok h
  rw [hs] at hid
  exact buildOrdersJobId_ok hid

/-- `retryExhausted || maxStalled`. -/
def Job.exhausted (job : Job) : Bool :=
  decide (ORDERS_JOB_ATTEMPTS ≤ job.attemptsMade) ||
    decide (job.failedReason = some BULLMQ_MAX_STALLED_FAILED_REASON) &&
      decide (ORDERS_MAX_STALLED_COUNT < job.stalledCounter)

def isTerminalFailedJobEligible (job : Job) : WorkerM Bool := do
  let state ← request (.getState job.id)
  return decide (state = .failed) && (classifyQueueEntry job state).isOk && job.exhausted

def NOT_ELIGIBLE_MESSAGE : String :=
  "failed job is not terminally eligible under the frozen retry policy"

/-- `queue.getJobs([state], start, stop, true)`: the ids of a range, then each job by its id. -/
def getJobs (state : JobState) (start stop : ℕ) : WorkerM (List (Option Job)) := do
  let ids ← request (.getRange state start stop)
  Prog.forEach ids [] fun jobs id => do
    let job ← request (.getJob id)
    return jobs ++ [job]

/-! ## Scans -/

def QUEUE_STATES : List JobState := [.waiting, .active, .delayed, .failed, .completed]

structure QueueScanResult where
  jobs : List ScannedJob
  issues : List QueueEntryIssue

/-- `scanOrders` from an offset on. -/
def scanOrders (env : WorkerEnv) :
    (fuel offset : ℕ) → List DurableOrder → WorkerM (List DurableOrder)
  | 0, _, _ => throw .outOfFuel
  | fuel + 1, offset, rows => do
    let page ← request (.listSaleOrders env.SALE_ID offset env.WORKER_RECONCILE_SCAN_COUNT)
    if page.length < env.WORKER_RECONCILE_SCAN_COUNT then return rows ++ page
    else scanOrders env fuel (offset + env.WORKER_RECONCILE_SCAN_COUNT) (rows ++ page)

/-- One job of a page of `scanJobs`. -/
def scanJob (state : JobState) (scan : QueueScanResult) : Option Job → WorkerM QueueScanResult
  | none => return scan
  | some job =>
    match classifyQueueEntry job state with
    | .error issue => return { scan with issues := scan.issues ++ [issue] }
    | .ok scanned =>
      if state = .failed then do
        let eligible ← isTerminalFailedJobEligible job
        return if eligible then { scan with jobs := scan.jobs ++ [scanned] }
          else { scan with issues :=
            scan.issues ++ [⟨job.id, state, .invalidPayload, NOT_ELIGIBLE_MESSAGE⟩] }
      else return { scan with jobs := scan.jobs ++ [scanned] }

/-- The pages of one state in `scanJobs`. -/
def scanState (env : WorkerEnv) (state : JobState) :
    (fuel start : ℕ) → QueueScanResult → WorkerM QueueScanResult
  | 0, _, _ => throw .outOfFuel
  | fuel + 1, start, scan => do
    let page ← getJobs state start (start + env.WORKER_RECONCILE_SCAN_COUNT - 1)
    let scan ← Prog.forEach page scan (scanJob state)
    if page.length < env.WORKER_RECONCILE_SCAN_COUNT then return scan
    else scanState env state fuel (start + env.WORKER_RECONCILE_SCAN_COUNT) scan

def scanJobs (env : WorkerEnv) (fuel : ℕ) : WorkerM QueueScanResult :=
  Prog.forEach QUEUE_STATES ⟨[], []⟩ fun scan state => scanState env state fuel 0 scan

/-- `scanLedger` from a cursor on. -/
def scanLedger (env : WorkerEnv) :
    (fuel cursor : ℕ) → List ReservationEntry → WorkerM (List ReservationEntry)
  | 0, _, _ => throw .outOfFuel
  | fuel + 1, cursor, entries => do
    let (next, page) ← Store.scanReservations env.SALE_ID cursor env.WORKER_RECONCILE_SCAN_COUNT
    if next = 0 then return entries ++ page
    else scanLedger env fuel next (entries ++ page)

/-! ## Queue repair -/

inductive EnsureLiveQueueResult where
  | enqueued
  | alreadyCovered
  | durablySatisfied
  | retainedCollision
  deriving DecidableEq, Repr

/-- The payload `enqueueLiveReservation` builds from a ledger entry. -/
def repairPayload (env : WorkerEnv) (entry : ReservationEntry) : OrdersQueueJobPayload :=
  { saleId := env.SALE_ID
    userId := entry.userId
    reservationId := entry.reservationId
    reservedAtMs := entry.reservedAtMs.getD 0
    requestId := "reconcile-" ++ entry.reservationId }

def enqueueLiveReservation (env : WorkerEnv) (entry : ReservationEntry) (jobId : String) :
    WorkerM EnsureLiveQueueResult := do
  let payload ← Prog.ofExcept (assertOrdersQueueJobPayload (repairPayload env entry).toJs)
  let repaired ← request (.addJob jobId PERSIST_ORDER_JOB_NAME payload.toJs ORDERS_JOB_ATTEMPTS)
  match classifyQueueEntry repaired .waiting with
  | .error _ => return .retainedCollision
  | .ok scanned =>
    return if scanned.payload.reservationId ≠ payload.reservationId then .retainedCollision
      else .enqueued

def enqueueAfterRemoval (env : WorkerEnv) (live : ReservationEntry) (jobId : String) :
    WorkerM EnsureLiveQueueResult := do
  match ← request (.getJob jobId) with
  | none => enqueueLiveReservation env live jobId
  | some raced =>
    let state ← request (.getState raced.id)
    match classifyQueueEntry raced state with
    | .error _ => return .retainedCollision
    | .ok scanned =>
      return if scanned.payload.reservationId = live.reservationId then .alreadyCovered
        else .retainedCollision

/-- What follows a removal: with a targeted job the slot is not read again. -/
def enqueueAgain (env : WorkerEnv) (live : ReservationEntry) (jobId : String)
    (targetedJob : Option (Option Job)) : WorkerM EnsureLiveQueueResult :=
  if targetedJob.isNone then enqueueAfterRemoval env live jobId
  else enqueueLiveReservation env live jobId

/-- `ensureLiveReservationQueued` once it has a job and its state. -/
def adjudicateQueued (env : WorkerEnv) (live : ReservationEntry) (durable : Option DurableOrder)
    (targetedJob : Option (Option Job)) (jobId : String) (current : Job) (scanned : ScannedJob) :
    WorkerM EnsureLiveQueueResult :=
  let currentIdentity := scanned.payload.reservationId
  if currentIdentity = live.reservationId then
    if scanned.state.isLive then return .alreadyCovered
    else if durable.any (fun row => row.id = live.reservationId && row.status = .persisted) then
      return .durablySatisfied
    else if scanned.state ≠ .completed then return .retainedCollision
    else do
      request (.removeJob current)
      enqueueAgain env live jobId targetedJob
  else if scanned.state ∉ [.waiting, .delayed, .failed, .completed] ∨
      (durable.map (·.id)) ≠ some currentIdentity then
    return .retainedCollision
  else do
    request (.removeJob current)
    enqueueAgain env live jobId targetedJob

/-- The job a lookup finds, unless the caller passed one. -/
def lookupJob (jobId : String) : Option (Option Job) → WorkerM (Option Job)
  | none => request (.getJob jobId)
  | some job => return job

/-- `ensureLiveReservationQueued`. `targetedJob` is `none` when the argument is omitted and
`some none` when it is `null`. -/
def ensureLiveReservationQueued (env : WorkerEnv) (live : ReservationEntry)
    (durable : Option DurableOrder) (targetedJob : Option (Option Job)) :
    WorkerM EnsureLiveQueueResult := do
  let jobId ← Prog.ofExcept (buildOrdersJobId env.SALE_ID live.userId)
  match ← lookupJob jobId targetedJob with
  | none => enqueueLiveReservation env live jobId
  | some current =>
    let state ← request (.getState current.id)
    match classifyQueueEntry current state with
    | .error _ => return .retainedCollision
    | .ok scanned => adjudicateQueued env live durable targetedJob jobId current scanned

/-! ## Recovery -/

/-- The maps and the incidents `runDiff` carries along. -/
structure Recovery where
  byUser : String → Option DurableOrder
  ledgerByUser : String → Option ReservationEntry
  incidents : List String

/-- `new Map(items.map((item) => [key(item), item]))`. -/
def mapOf {α : Type} (key : α → String) (items : List α) : String → Option α :=
  fun k => items.reverse.find? fun item => key item == k

namespace Recovery

/-- `incidents.push`. -/
def push (acc : Recovery) (incident : String) : Recovery :=
  { acc with incidents := acc.incidents ++ [incident] }

/-- `ledgerByUser.set`. -/
def setLedger (acc : Recovery) (userId : String) (entry : ReservationEntry) : Recovery :=
  { acc with ledgerByUser := Function.update acc.ledgerByUser userId (some entry) }

/-- `byUser.set`. -/
def setRow (acc : Recovery) (userId : String) (row : DurableOrder) : Recovery :=
  { acc with byUser := Function.update acc.byUser userId (some row) }

/-- The incident of a collision that stays in the queue. -/
def pushCollision (acc : Recovery) (coverage : EnsureLiveQueueResult) (userId : String) :
    Recovery :=
  if coverage = .retainedCollision then acc.push ("retained queue collision for " ++ userId)
  else acc

end Recovery

inductive RecoverySource where
  | persisted
  | queue
  deriving DecidableEq, Repr

/-- `applyRecoveryCandidate`. -/
def applyRecoveryCandidate (env : WorkerEnv) (candidate : Store.CompareRestoreReservationInput)
    (source : RecoverySource) (acc : Recovery) (targetedJob : Option (Option Job)) :
    WorkerM Recovery := do
  let (outcome, current) ← Store.compareAndRestoreReservation env.SALE_ID candidate
  if outcome ≠ .conflict then return acc
  else match source with
    | .queue =>
      return if (acc.byUser candidate.userId).any (fun row =>
          row.status = .compensated && row.id = candidate.reservationId) then acc
        else acc.push ("conflicting active queue identity for " ++ candidate.userId)
    | .persisted =>
      let conflict := "persisted identity conflicts with live reservation for " ++ candidate.userId
      if current.reservedAtMs.isNone then return acc.push conflict
      else do
        let coverage ← ensureLiveReservationQueued env current (acc.byUser candidate.userId)
          targetedJob
        return (acc.pushCollision coverage candidate.userId).push conflict

/-- A turn of the loop over the rows in `runDiff`. -/
def recoverRow (env : WorkerEnv) (acc : Recovery) (order : DurableOrder) : WorkerM Recovery :=
  if order.status ≠ .persisted then return acc
  else applyRecoveryCandidate env ⟨order.userId, order.id, order.createdAtMs⟩ .persisted acc none

/-- A turn of the loop over the jobs in `runDiff`. -/
def recoverJob (env : WorkerEnv) (acc : Recovery) (item : ScannedJob) : WorkerM Recovery :=
  if !item.state.isLive then return acc
  else if (acc.byUser item.payload.userId).any (fun row =>
      row.status = .compensated && row.id = item.payload.reservationId) then return acc
  else applyRecoveryCandidate env
    ⟨item.payload.userId, item.payload.reservationId, item.payload.reservedAtMs⟩ .queue acc none

/-- A turn of the loop over the ledger in `runDiff`. -/
def coverEntry (env : WorkerEnv) (acc : Recovery) (entry : ReservationEntry) : WorkerM Recovery :=
  let row := acc.byUser entry.userId
  if row.any (fun row => row.status = .persisted && row.id = entry.reservationId) then do
    let _ ← Store.reconcileBuyerMembership env.SALE_ID entry.userId
    return acc
  else do
    let coverage ← ensureLiveReservationQueued env entry row none
    let _ ← Store.reconcileBuyerMembership env.SALE_ID entry.userId
    return acc.pushCollision coverage entry.userId

/-! ## Buyers without an entry -/

def buyerOnlyFailure (userId : String) : Failure :=
  .error ("unrecoverable buyer-only identity for " ++ userId)

/-- `resolveBuyerInspection`. -/
def resolveBuyerInspection (env : WorkerEnv) (userId : String)
    (inspection : Store.ReservationMembershipInspection) (durable : Option DurableOrder)
    (acc : Recovery) (targetedJob : Option (Option Job)) : WorkerM Recovery :=
  match inspection.outcome with
  | .neither => return acc
  | .buyerOnly => throw (buyerOnlyFailure userId)
  | .both | .reservationOnly =>
    match inspection.reservation with
    | none => throw (.error ("reservation-bearing inspection omitted identity for " ++ userId))
    | some entry => do
      let coverage ← ensureLiveReservationQueued env entry durable targetedJob
      Prog.throwIf (coverage = .retainedCollision ∧ targetedJob.isSome) (buyerOnlyFailure userId)
      if inspection.outcome = .reservationOnly then do
        let membership ← Store.reconcileBuyerMembership env.SALE_ID userId
        Prog.throwIf (membership ≠ .present)
          (.error ("buyer membership repair failed for " ++ userId))
        return (acc.pushCollision coverage userId).setLedger userId entry
      else return (acc.pushCollision coverage userId).setLedger userId entry

/-- The recovery in the middle of `adjudicateBuyerOnly`: from the persisted row, from a live job,
or by dropping the membership of a compensated order. -/
def recoverBuyer (env : WorkerEnv) (userId : String) (row : Option DurableOrder)
    (targeted : Option Job) (queueCandidate : Option ScannedJob) (acc : Recovery) :
    WorkerM Recovery :=
  match row.filter fun row => row.saleId = env.SALE_ID with
  | none =>
    match queueCandidate with
    | some item => applyRecoveryCandidate env
        ⟨userId, item.payload.reservationId, item.payload.reservedAtMs⟩ .queue acc none
    | none => throw (buyerOnlyFailure userId)
  | some row =>
    if row.status = .persisted then do
      Prog.throwIf (queueCandidate.any fun item => item.payload.reservationId ≠ row.id)
        (buyerOnlyFailure userId)
      applyRecoveryCandidate env ⟨userId, row.id, row.createdAtMs⟩ .persisted
        (acc.setRow userId row) (targeted.map some)
    else match queueCandidate with
      | some item => applyRecoveryCandidate env
          ⟨userId, item.payload.reservationId, item.payload.reservedAtMs⟩ .queue
          (acc.setRow userId row) none
      | none => do
        let membership ← Store.reconcileBuyerMembership env.SALE_ID userId
        Prog.throwIf (membership ≠ .absent) (buyerOnlyFailure userId)
        return acc.setRow userId row

/-- The classification of the targeted job in `adjudicateBuyerOnly`. -/
def classifyTargeted (userId : String) : Option Job → WorkerM (Option ScannedJob)
  | none => return none
  | some job => do
    let state ← request (.getState job.id)
    match classifyQueueEntry job state with
    | .error _ => throw (buyerOnlyFailure userId)
    | .ok scanned => return some scanned

/-- `adjudicateBuyerOnly`. A job that is missing is `undefined`, so it is passed on as an omitted
argument. -/
def adjudicateBuyerOnly (env : WorkerEnv) (userId : String) (acc : Recovery) :
    WorkerM Recovery := do
  let row ← request (.getByUser userId)
  let jobId ← Prog.ofExcept (buildOrdersJobId env.SALE_ID userId)
  let targeted ← request (.getJob jobId)
  let classified ← classifyTargeted userId targeted
  let queueCandidate := classified.filter fun item =>
    item.state.isLive && item.payload.saleId = env.SALE_ID && item.payload.userId = userId
  let acc ← recoverBuyer env userId row targeted queueCandidate acc
  let finalInspection ← Store.inspectReservationMembership env.SALE_ID userId
  resolveBuyerInspection env userId finalInspection (acc.byUser userId) acc
    (targeted.map some)

/-- One user of a page of buyers in `runDiff`. -/
def checkBuyer (env : WorkerEnv) (acc : Recovery) (userId : String) : WorkerM Recovery :=
  if (acc.ledgerByUser userId).isSome then return acc
  else do
    let inspection ← Store.inspectReservationMembership env.SALE_ID userId
    if inspection.outcome ≠ .buyerOnly then
      resolveBuyerInspection env userId inspection (acc.byUser userId) acc none
    else adjudicateBuyerOnly env userId acc

/-- The loop over the buyers in `runDiff`, from a cursor on. -/
def checkBuyers (env : WorkerEnv) : (fuel cursor : ℕ) → Recovery → WorkerM Recovery
  | 0, _, _ => throw .outOfFuel
  | fuel + 1, cursor, acc => do
    let (next, userIds) ← Store.scanBuyers env.SALE_ID cursor env.WORKER_RECONCILE_SCAN_COUNT
    let acc ← Prog.forEach userIds acc (checkBuyer env)
    if next = 0 then return acc
    else checkBuyers env fuel next acc

/-! ## The sweep -/

structure DlqSweepResult where
  retainedUnsafeCount : ℕ
  removedCount : ℕ
  deriving DecidableEq, Repr

/-- The counters of `sweepFailed` and its `operationalErrors`. -/
structure Sweep where
  retainedUnsafeCount : ℕ
  removedCount : ℕ
  operationalErrors : List Failure

def Sweep.retain (acc : Sweep) : Sweep :=
  { acc with retainedUnsafeCount := acc.retainedUnsafeCount + 1 }

/-- A failed job that passed `classifyQueueEntry`: resolved and removed if it is eligible. -/
def resolveJob (acc : Sweep) (job : Job) (payload : OrdersQueueJobPayload) : WorkerM Sweep := do
  let actualState ← request (.getState job.id)
  if actualState ≠ .failed ∨ job.attempts ≠ some ORDERS_JOB_ATTEMPTS ∨ job.exhausted = false then
    return acc.retain
  else do
    let _outcome ← resolveFailed 0 payload
      (Store.compensate payload.saleId payload.userId payload.reservationId)
    request (.removeJob job)
    return { acc with removedCount := acc.removedCount + 1 }

/-- A turn of the loop of `sweepFailed`. A job that is gone makes `classifyQueueEntry` throw,
outside the `try`. -/
def sweepJob (acc : Sweep) : Option Job → WorkerM Sweep
  | none => throw (.typeError "Cannot read properties of undefined (reading 'name')")
  | some job =>
    match classifyQueueEntry job .failed with
    | .error _ => return acc.retain
    | .ok scanned =>
      tryCatch (resolveJob acc job scanned.payload) fun error =>
        return { acc with operationalErrors := acc.operationalErrors ++ [error] }

/-- The page of failed jobs a sweep works on, with its start; an empty page starts over. -/
def sweepPage (env : WorkerEnv) (start : ℕ) : WorkerM (ℕ × List (Option Job)) := do
  let failed ← getJobs .failed start (start + env.WORKER_DLQ_SCAN_COUNT - 1)
  if failed.isEmpty then do
    let failed ← getJobs .failed 0 (env.WORKER_DLQ_SCAN_COUNT - 1)
    return (0, failed)
  else return (start, failed)

/-- `failedScanOffset` after a sweep. -/
def nextScanOffset (start scanned removedCount totalAfter : ℕ) : ℕ :=
  if totalAfter = 0 then 0
  else if 0 < removedCount then min start (totalAfter - 1)
  else (start + scanned) % totalAfter

def sweepFailed (env : WorkerEnv) : WorkerM DlqSweepResult := do
  let totalBefore ← request (.countJobs .failed)
  if totalBefore = 0 then do
    request (.setFailedScanOffset 0)
    return ⟨0, 0⟩
  else do
    let offset ← request .getFailedScanOffset
    let (start, failed) ← sweepPage env (offset % totalBefore)
    let acc ← Prog.forEach failed ⟨0, 0, []⟩ sweepJob
    let totalAfter ← request (.countJobs .failed)
    request (.setFailedScanOffset (nextScanOffset start failed.length acc.removedCount totalAfter))
    Prog.throwIf (acc.operationalErrors.isEmpty = false)
      (.aggregate acc.operationalErrors "one or more terminal jobs failed resolution")
    return ⟨acc.retainedUnsafeCount, acc.removedCount⟩

/-! ## The pass -/

structure ReconciliationPassResult where
  degraded : Bool
  queueIssueCount : ℕ
  deriving DecidableEq, Repr

/-- The text of a stock outcome in the error of `runDiff`. -/
def ReconcileStateOutcome.text : ReconcileStateOutcome → String
  | .reconciled => "RECONCILED"
  | .notInitialized => "NOT_INITIALIZED"
  | .overcommitted => "OVERCOMMITTED"

/-- The end of `runDiff`: stock, sweep and counts. -/
def finishDiff (env : WorkerEnv) (issues : ℕ) (acc : Recovery) :
    WorkerM ReconciliationPassResult := do
  let stock ← Store.reconcileStockFromReservations env.SALE_ID
  Prog.throwIf (stock.outcome ≠ .reconciled)
    (.error ("stock reconciliation failed: " ++ stock.outcome.text))
  let dlq ← sweepFailed env
  let _active ← request (.countJobs .active)
  let _failed ← request (.countJobs .failed)
  let queueIssueCount := issues + dlq.retainedUnsafeCount
  return ⟨decide (0 < queueIssueCount) || !acc.incidents.isEmpty, queueIssueCount⟩

def runDiff (env : WorkerEnv) (fuel : ℕ) : WorkerM ReconciliationPassResult := do
  let orders ← scanOrders env fuel 0 []
  let scan ← scanJobs env fuel
  let acc : Recovery := ⟨mapOf (·.userId) orders, fun _ => none, []⟩
  let acc ← Prog.forEach orders acc (recoverRow env)
  let acc ← Prog.forEach scan.jobs acc (recoverJob env)
  let ledger ← scanLedger env fuel 0 []
  let acc := { acc with ledgerByUser := mapOf (·.userId) ledger }
  let acc ← Prog.forEach ledger acc (coverEntry env)
  let acc ← checkBuyers env fuel 0 acc
  finishDiff env scan.issues.length acc

/-! ## Boot -/

/-- The row `ensureSale` inserts and expects. -/
def saleRow (cfg : SaleConfig) : SaleRow :=
  ⟨cfg.saleId, cfg.name, cfg.totalStock, cfg.startsAtMs, cfg.endsAtMs⟩

/-- The sale of one unit, open and without orders. -/
def openUnit : Stores where
  sales := fun _ => ⟨some oneUnitEnv.sale, some 1, ∅, ∅⟩
  time := ⟨1, 0⟩
  ledgerBucket := fun _ => 0
  buyerBucket := fun _ => 0
  queue := ⟨[], false, 1⟩
  db := ⟨[], [saleRow oneUnitEnv.sale], ∅, String.length⟩
  failedScanOffset := 0

/-- `OrderRepository.ensureSale`. -/
def ensureSale (env : WorkerEnv) : WorkerM Unit := do
  request (.insertSale (saleRow env.sale))
  let row ← request (.selectSale env.SALE_ID)
  Prog.throwIf (row ≠ some (saleRow env.sale))
    (.error ("sale configuration drift for " ++ env.SALE_ID))

/-- The wait for active jobs in `bootPass`, which polls until its deadline. -/
def drainActive : (polls : ℕ) → WorkerM Unit
  | 0 => throw (.error "active jobs did not drain within 30 seconds")
  | polls + 1 => do
    let active ← request (.countJobs .active)
    if active = 0 then return () else drainActive polls

def redisDrift : Failure := .error "redis sale configuration drift"

/-- `seed` for a sale without configuration, else the comparison with the environment. -/
def seedOrCompare (env : WorkerEnv) (snapshot : SaleSnapshot) : WorkerM Unit :=
  if snapshot.initialized = false then do
    let seed ← Store.seed env.sale
    Prog.throwIf (seed.outcome = .configDrift) redisDrift
  else Prog.throwIf (snapshot.name ≠ env.sale.name ∨ snapshot.totalStock ≠ env.sale.totalStock ∨
    snapshot.startsAtMs ≠ env.sale.startsAtMs ∨ snapshot.endsAtMs ≠ env.sale.endsAtMs) redisDrift

/-- `bootPass`. -/
def bootPass (env : WorkerEnv) (polls fuel : ℕ) : WorkerM ReconciliationPassResult := do
  request .pause
  let paused ← request .isPaused
  Prog.throwIf (paused = false) (.error "orders queue did not enter paused state")
  drainActive polls
  ensureSale env
  let snapshot ← Store.status env.SALE_ID
  seedOrCompare env snapshot
  runDiff env fuel

end FlashSale
