import FlashSale.Lib.Machine
import FlashSale.Shared.Queue

/-!
# The producer of the orders queue

`OrdersQueueService` enqueues through one generation of a Redis client and a BullMQ queue at a time.
A call that finds the generation not ready in time, or whose `add` fails or is late, retires the
generation: no further call is admitted to it, and once its readiness and the adds in flight have
settled its queue is closed. Only then, and after a backoff, is the next generation created.

The code between two `await`s is one event, and so is everything that settles outside: readiness, the
replies of the broker, the deadlines. A race of two promises that have both settled may be won by
either. Generations and calls are never forgotten; `createdAtMs`, `finishedAtMs`, `retirements` and
`closeCalls` are read by no event, and let statements speak about the past.
-/

namespace FlashSale

def MAX_PRODUCER_IN_FLIGHT : ℕ := 64
def PRODUCER_REOPEN_BACKOFF_MS : ℕ := 1000

/-- Where `finishRetirement` stands. -/
inductive Retirement where
  | none
  | awaitReadiness
  | awaitSettlements (pending : List ℕ)
  | awaitClose
  | finished
  deriving DecidableEq, Repr

structure ProducerGeneration where
  readiness : Option (Except Failure Unit)
  settlements : List ℕ
  inFlight : ℕ
  retiring : Bool
  retirement : Retirement
  createdAtMs : ℕ
  finishedAtMs : Option ℕ
  retirements : ℕ
  closeCalls : ℕ

/-- The `add` of a call: not yet made, refused by the checks in front of it, unanswered, answered. -/
inductive AddState where
  | notMade
  | invalid (error : Failure)
  | pending
  | replied (result : Except Failure Unit)

/-- Where an admitted call of `enqueue` stands. -/
inductive CallPhase where
  | awaitReady
  | awaitAdd
  | settled (outcome : Except Failure Unit)

structure EnqueueCall where
  payload : OrdersQueueJobPayload
  generation : ℕ
  deadlineAtMs : ℕ
  phase : CallPhase
  add : AddState

def EnqueueCall.isOpen (call : EnqueueCall) : Bool :=
  match call.phase with
  | .settled _ => false
  | _ => true

/-- A `queue.add` that reached the broker. -/
structure Submission where
  call : ℕ
  jobId : String
  payload : OrdersQueueJobPayload
  deriving DecidableEq

structure OrdersQueue where
  now : ℕ
  closing : Bool
  reopenAtMs : ℕ
  generation : Option ℕ
  generations : List ProducerGeneration
  calls : List EnqueueCall
  submissions : List Submission

namespace OrdersQueue

def initial (now : ℕ) : OrdersQueue := ⟨now, false, 0, none, [], [], []⟩

def modifyGeneration (q : OrdersQueue) (g : ℕ) (f : ProducerGeneration → ProducerGeneration) :
    OrdersQueue :=
  { q with generations := q.generations.modify g f }

def modifyCall (q : OrdersQueue) (c : ℕ) (f : EnqueueCall → EnqueueCall) : OrdersQueue :=
  { q with calls := q.calls.modify c f }

/-- The calls admitted to a generation whose promise is not settled. -/
def openCalls (q : OrdersQueue) (g : ℕ) : ℕ :=
  q.calls.countP fun call => decide (call.generation = g) && call.isOpen

/-! ## `enqueue` up to its first wait -/

/-- `createGeneration`. -/
def createGeneration (q : OrdersQueue) : OrdersQueue :=
  { q with
    generation := some q.generations.length
    generations := q.generations ++ [⟨none, [], 0, false, .none, q.now, none, 0, 0⟩] }

/-- `this.generation ??= this.createGeneration()`, where the client or the queue may refuse to be
created. -/
def currentGeneration (q : OrdersQueue) (creation : Except Failure Unit) :
    Except Failure (ℕ × OrdersQueue) :=
  match q.generation with
  | some g => .ok (g, q)
  | none => creation.map fun _ => (q.generations.length, q.createGeneration)

/-- The checks of `enqueue`: the id of the admitted call, or the error it rejects with. -/
def enqueue (timeoutMs : ℕ) (q : OrdersQueue) (payload : OrdersQueueJobPayload)
    (creation : Except Failure Unit) : Except Failure ℕ × OrdersQueue :=
  if q.closing then (.error (.error "orders queue producer is closing"), q)
  else if q.now < q.reopenAtMs then (.error (.error "orders queue producer is in backoff"), q)
  else match q.currentGeneration creation with
    | .error e => (.error e, q)
    | .ok (g, q) =>
      match q.generations[g]? with
      | none => (.error .upstream, q)
      | some generation =>
        if generation.retiring then
          (.error (.error "orders queue producer circuit is open"), q)
        else if MAX_PRODUCER_IN_FLIGHT ≤ generation.inFlight then
          (.error (.error "orders queue producer is at its in-flight limit"), q)
        else
          let q := q.modifyGeneration g fun G => { G with inFlight := G.inFlight + 1 }
          (.ok q.calls.length,
            { q with calls := q.calls ++ [⟨payload, g, q.now + timeoutMs, .awaitReady, .notMade⟩] })

/-! ## The other pieces of code between two waits -/

/-- `retireGeneration`, up to the first wait of `finishRetirement`. -/
def retireGeneration (q : OrdersQueue) (g : ℕ) : OrdersQueue :=
  q.modifyGeneration g fun G =>
    if G.retirement ≠ .none then G
    else { G with
      retiring := true
      retirement := .awaitReadiness
      retirements := G.retirements + 1 }

/-- A call returns or throws, and its `finally` runs. -/
def settleCall (q : OrdersQueue) (c g : ℕ) (outcome : Except Failure Unit) : OrdersQueue :=
  (q.modifyCall c fun call => { call with phase := .settled outcome }).modifyGeneration g fun G =>
    { G with inFlight := G.inFlight - 1 }

/-- A call fails: it retires its generation and throws. -/
def failCall (q : OrdersQueue) (c g : ℕ) (error : Failure) : OrdersQueue :=
  (q.retireGeneration g).settleCall c g (.error error)

/-- A call goes on with a generation that is ready: it checks its payload and submits the job. -/
def submit (q : OrdersQueue) (c : ℕ) (call : EnqueueCall) : OrdersQueue :=
  let checked : Except Failure String := do
    let payload ← assertOrdersQueueJobPayload call.payload.toJs
    buildOrdersJobId payload.saleId payload.userId
  let q := q.modifyGeneration call.generation fun G => { G with settlements := G.settlements ++ [c] }
  match checked with
  | .error e => q.modifyCall c fun call => { call with phase := .awaitAdd, add := .invalid e }
  | .ok jobId =>
    let q := q.modifyCall c fun call => { call with phase := .awaitAdd, add := .pending }
    { q with submissions := q.submissions ++ [⟨c, jobId, call.payload⟩] }

/-- The `finally` of `finishRetirement`. -/
def finish (q : OrdersQueue) (g : ℕ) : OrdersQueue :=
  let q := q.modifyGeneration g fun G => { G with
    settlements := []
    inFlight := 0
    retirement := .finished
    finishedAtMs := some q.now }
  if q.generation = some g then
    { q with generation := none, reopenAtMs := q.now + PRODUCER_REOPEN_BACKOFF_MS }
  else q

/-- `finishRetirement` from one wait to the next. -/
def advanceRetirement (q : OrdersQueue) (g : ℕ) (G : ProducerGeneration) : Option OrdersQueue :=
  match G.retirement with
  | .awaitReadiness =>
    if G.readiness.isSome then
      some (q.modifyGeneration g fun G => { G with retirement := .awaitSettlements G.settlements })
    else none
  | .awaitSettlements pending =>
    if pending.all fun c => (q.calls[c]?).any fun call =>
        match call.add with
        | .replied _ => true
        | _ => false then
      some (q.modifyGeneration g fun G =>
        { G with retirement := .awaitClose, closeCalls := G.closeCalls + 1 })
    else none
  | .awaitClose => some (q.finish g)
  | _ => none

/-- `close`; a second call returns the first one's promise. -/
def close (q : OrdersQueue) : OrdersQueue :=
  if q.closing then q
  else match q.generation with
    | none => { q with closing := true }
    | some g => ({ q with closing := true } : OrdersQueue).retireGeneration g

/-! ## Events -/

inductive Event where
  | tick (ms : ℕ)
  | enqueue (payload : OrdersQueueJobPayload) (creation : Except Failure Unit)
  | readiness (g : ℕ) (result : Except Failure Unit)
  | ready (c : ℕ)
  | notReady (c : ℕ)
  | reply (c : ℕ) (result : Except Failure Unit)
  | added (c : ℕ)
  | deadline (c : ℕ)
  | retire (g : ℕ)
  | close

/-- One event; `none` if it cannot happen. The close of a queue may settle or time out at any
moment. -/
def step (timeoutMs : ℕ) (q : OrdersQueue) : Event → Option OrdersQueue
  | .tick ms => some { q with now := q.now + ms }
  | .enqueue payload creation => some (q.enqueue timeoutMs payload creation).2
  | .readiness g result => do
    let G ← q.generations[g]?
    if G.readiness.isSome then none
    else some (q.modifyGeneration g fun G => { G with readiness := some result })
  | .ready c => do
    let call ← q.calls[c]?
    let G ← q.generations[call.generation]?
    match call.phase, G.readiness with
    | .awaitReady, some (.ok ()) => some (q.submit c call)
    | _, _ => none
  | .notReady c => do
    let call ← q.calls[c]?
    let G ← q.generations[call.generation]?
    match call.phase, G.readiness with
    | .awaitReady, some (.error e) => some (q.failCall c call.generation e)
    | _, _ => none
  | .reply c result => do
    let call ← q.calls[c]?
    let erased := q.modifyGeneration call.generation fun G =>
      { G with settlements := G.settlements.erase c }
    match call.add with
    | .pending => some (erased.modifyCall c fun call => { call with add := .replied result })
    | .invalid e => some (erased.modifyCall c fun call => { call with add := .replied (.error e) })
    | _ => none
  | .added c => do
    let call ← q.calls[c]?
    match call.phase, call.add with
    | .awaitAdd, .replied (.ok ()) => some (q.settleCall c call.generation (.ok ()))
    | .awaitAdd, .replied (.error e) => some (q.failCall c call.generation e)
    | _, _ => none
  | .deadline c => do
    let call ← q.calls[c]?
    if call.isOpen = true ∧ call.deadlineAtMs ≤ q.now then
      some (q.failCall c call.generation (.error "orders queue enqueue timed out"))
    else none
  | .retire g => do
    let G ← q.generations[g]?
    q.advanceRetirement g G
  | .close => some q.close

/-- A run of events. -/
abbrev run (timeoutMs : ℕ) : OrdersQueue → List Event → Option OrdersQueue :=
  Machine.run (step timeoutMs)

end OrdersQueue

end FlashSale
