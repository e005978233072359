import FlashSale.Worker.Reconciliation

/-!
# The order pipeline as one system

API pods purchase and enqueue, BullMQ delivers jobs to workers, any number of attempts run
`OrderProcessor.process` at the same time, and one program at a time runs under the session lock: a
pass, a sweep or the boot pass. Every call into Redis, BullMQ or Postgres is one step, and `Event`
lists what can happen next, in any order:

* a call of a running program takes effect, fails, or takes effect and its answer is lost;
* a delivered job stalls while its attempt goes on, a worker dies, a pass is abandoned;
* an add of the API lands at any time after its purchase, twice, once or never.

`confirmed`, `released` and `pendingRelease` record history for the statements about runs and are
read by no program.
-/

namespace FlashSale

open Redis

/-- A purchase that `purchase.lua` confirmed, with the time of its reply. -/
structure Confirmation where
  userId : String
  reservationId : String
  reservedAtMs : ℕ
  deriving DecidableEq, Repr

/-- What the programs share. `adds` are the calls of `queue.add` the API has in flight. -/
structure Shared where
  stores : Stores
  adds : List OrdersQueueJobPayload
  nextToken : ℕ
  confirmed : List Confirmation
  /-- Users and reservations a compensation has released. -/
  released : List (String × String)
  /-- What the open transaction of `resolveFailed` has released so far. -/
  pendingRelease : Option (String × String)

/-- An attempt at a delivered job: the worker's copy of the job and the rest of `process`. -/
structure Attempt where
  job : Job
  rest : WorkerM Unit

/-- The system: attempts by the token of their lock, and what runs under the session lock. -/
structure System extends Shared where
  attempts : ℕ → Option Attempt
  maintenance : Option (WorkerM Unit)

inductive Event where
  /-- The clock of Redis moves. -/
  | tick (time : RedisTime)
  /-- Redis resizes its hash tables. -/
  | rehash (ledgerBucket buyerBucket : String → ℕ)
  /-- A pod seeds the sale. -/
  | seed
  | purchase (userId reservationId requestId : String)
  /-- An add in flight reaches the queue, or is lost. -/
  | apiAdd (i : ℕ)
  | apiDrop (i : ℕ)
  | deliver (jobId : String)
  | attemptStep (token : ℕ) (fault : Fault)
  /-- `process` ended and BullMQ settles the job. -/
  | settle (token : ℕ)
  /-- The worker of an attempt dies. -/
  | crash (token : ℕ)
  | stall (jobId : String)
  | promote (jobId : String)
  | resume
  | startPass (fuel : ℕ)
  | startSweep
  | startBoot (polls fuel : ℕ)
  | maintain (fault : Fault)
  /-- The program under the session lock has ended. -/
  | finish
  /-- The program under the session lock stops where it is. -/
  | abandon

namespace Shared

/-- The keys of the sale. -/
def sale (s : Shared) (env : WorkerEnv) : Sale := s.stores.sales env.SALE_ID

/-- The reservation id the ledger holds for a user. -/
def ledger (s : Shared) (env : WorkerEnv) (userId : String) : Option String :=
  ((s.sale env).reservations.hget userId).map ledgerIdentity

/-- The job stored for a user. -/
def slot (s : Shared) (env : WorkerEnv) (userId : String) : Option StoredJob :=
  s.stores.queue.find (env.jobId userId)

def setSale (s : Shared) (env : WorkerEnv) (sale : Sale) : Shared :=
  { s with stores := s.stores.setSale env.SALE_ID sale }

def setQueue (s : Shared) (queue : JobQueue) : Shared :=
  { s with stores := { s.stores with queue } }

/-- The history of a call that took effect. -/
def note (s : Shared) : Call → Shared
  | .compensate saleId userId reservationId =>
    if (compensate (s.stores.sales saleId) userId reservationId).1.outcome = .noop then s
    else { s with
      released := (userId, reservationId) :: s.released
      pendingRelease := if (s.stores.db.tx? 0).isSome then some (userId, reservationId)
        else s.pendingRelease }
  | .sql 0 .commit | .sql 0 .rollback => { s with pendingRelease := none }
  | _ => s

/-- One call of a program, with the history it makes; `none` while it waits. -/
def call (s : Shared) (fault : Fault) (o : Call) : Option (Except Failure o.Res × Shared) :=
  (s.stores.performWith fault o).map fun q =>
    (q.1, { (if fault = .before ∧ o.isRollback = false then s else s.note o) with stores := q.2 })

/-- `purchase` on the sale. A confirmed purchase has the payload of its order to enqueue, once and
once more if the first attempt fails. Reservation ids are fresh UUIDs in canonical text. -/
def purchase (env : WorkerEnv) (s : Shared) (userId reservationId requestId : String) : Shared :=
  if isUuid reservationId ∧ pgUuid reservationId = reservationId ∧
      ∀ c ∈ s.confirmed, c.reservationId ≠ reservationId then
    let (reply, sale) := FlashSale.purchase (s.sale env) userId reservationId s.stores.time
    let s := s.setSale env sale
    if reply.outcome = .confirmed then
      let payload : OrdersQueueJobPayload :=
        ⟨env.SALE_ID, userId, reply.reservationId, reply.nowMs, requestId⟩
      { s with
        confirmed := ⟨userId, reply.reservationId, reply.nowMs⟩ :: s.confirmed
        adds := payload :: payload :: s.adds }
    else s
  else s

/-- `OrdersQueueService.enqueue` reaches the queue, unless it rejects the payload. -/
def enqueue (s : Shared) (payload : OrdersQueueJobPayload) : Shared :=
  match assertOrdersQueueJobPayload payload.toJs, buildOrdersJobId payload.saleId payload.userId with
  | .ok payload, .ok jobId => s.setQueue
      (s.stores.queue.add jobId PERSIST_ORDER_JOB_NAME payload.toJs ORDERS_JOB_ATTEMPTS)
  | _, _ => s

end Shared

namespace System

/-- The end of an attempt. -/
def dropAttempt (w : System) (token : ℕ) : System :=
  { w with attempts := Function.update w.attempts token none }

/-- The attempt of a token goes on with another program. -/
def setAttempt (w : System) (token : ℕ) (a : Attempt) : System :=
  { w with attempts := Function.update w.attempts token (some a) }

def onShared (w : System) (s : Shared) : System := { w with toShared := s }

/-- The session lock is taken, unless it is held. -/
def start (w : System) {α : Type} (program : WorkerM α) : System :=
  match w.maintenance with
  | some _ => w
  | none => { w with maintenance := some (do let _ ← program; return ()) }

/-- One event; an event that is not possible changes nothing. -/
def step (env : WorkerEnv) (w : System) : Event → System
  | .tick time => w.onShared { w.toShared with stores := { w.stores with time } }
  | .rehash ledgerBucket buyerBucket =>
    w.onShared { w.toShared with stores := { w.stores with ledgerBucket, buyerBucket } }
  | .seed => w.onShared (w.setSale env (FlashSale.seed (w.sale env) env.sale env.sale.totalStock).2)
  | .purchase userId reservationId requestId =>
    w.onShared (w.toShared.purchase env userId reservationId requestId)
  | .apiAdd i =>
    match w.adds[i]? with
    | none => w
    | some payload =>
      w.onShared { w.toShared.enqueue payload with adds := w.adds.eraseIdx i }
  | .apiDrop i => w.onShared { w.toShared with adds := w.adds.eraseIdx i }
  | .deliver jobId =>
    match w.stores.queue.deliver jobId w.nextToken with
    | none => w
    | some (job, queue) =>
      (w.onShared { w.setQueue queue with nextToken := w.nextToken + 1 }).setAttempt w.nextToken
        ⟨job, process w.nextToken job⟩
  | .attemptStep token fault =>
    match w.attempts token with
    | some ⟨job, .op o k⟩ =>
      match w.call fault o with
      | some (r, s) => (w.onShared s).setAttempt token ⟨job, k r⟩
      | none => w
    | _ => w
  | .settle token =>
    match w.attempts token with
    | some ⟨job, .pure _⟩ =>
      (w.onShared (w.setQueue (w.stores.queue.complete job.id token))).dropAttempt token
    | some ⟨job, .throw e⟩ =>
      (w.onShared (w.setQueue (w.stores.queue.fail job.id token e.message))).dropAttempt token
    | _ => w
  | .crash token =>
    if token = 0 then w
    else (w.onShared { w.toShared with
      stores := { w.stores with db := w.stores.db.endTx token } }).dropAttempt token
  | .stall jobId => w.onShared (w.setQueue (w.stores.queue.stall jobId))
  | .promote jobId => w.onShared (w.setQueue (w.stores.queue.promote jobId))
  | .resume => w.onShared (w.setQueue { w.stores.queue with paused := false })
  | .startPass fuel => w.start (runDiff env fuel)
  | .startSweep => w.start (sweepFailed env)
  | .startBoot polls fuel => w.start (bootPass env polls fuel)
  | .maintain fault =>
    match w.maintenance with
    | some (.op o k) =>
      match w.call fault o with
      | some (r, s) => { w.onShared s with maintenance := some (k r) }
      | none => w
    | _ => w
  | .finish =>
    match w.maintenance with
    | some (.op _ _) => w
    | _ => { w with maintenance := none }
  | .abandon =>
    { w.onShared { w.toShared with
        stores := { w.stores with db := w.stores.db.endTx 0 }
        pendingRelease := none } with
      maintenance := none }

def run (env : WorkerEnv) (w : System) (es : List Event) : System := es.foldl (step env) w

/-- Empty stores and nothing running. -/
def empty (time : RedisTime) (ledgerBucket buyerBucket : String → ℕ) (hashtext : String → ℕ) :
    System where
  stores :=
    { sales := fun _ => Sale.empty
      time
      ledgerBucket
      buyerBucket
      queue := .empty
      db := ⟨[], [], ∅, hashtext⟩
      failedScanOffset := 0 }
  adds := []
  nextToken := 1
  confirmed := []
  released := []
  pendingRelease := none
  attempts := fun _ => none
  maintenance := none

end System

end FlashSale
