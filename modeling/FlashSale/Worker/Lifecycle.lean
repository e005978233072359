import FlashSale.Lib.EventLoop
import FlashSale.Worker.Health
import FlashSale.Worker.SessionLock

/-!
# The life of a worker process

`start` boots the worker under the session lock and sets the flags of readiness at the very end,
`stop` and an unexpected end of the consumer's run loop clear them, and passes and sweeps come and go
all the while. Each is a routine or an event of one event loop, and a wait ends with any answer.

Only the last piece of `startLifecycle` sets `consumerReady`, after a checkpoint and
`throwIfConsumerTerminated` in the same piece. So a process that has been stopped or has lost its
consumer is never ready again.
-/

namespace FlashSale

/-! ## Memory -/

/-- How the run loop of the consumer ended. -/
inductive ConsumerRunTermination where
  | resolved
  | rejected (error : Failure)

/-- `ConsumerRunTerminatedError`. -/
def ConsumerRunTermination.error : ConsumerRunTermination → Failure
  | .resolved => .error "worker run loop resolved unexpectedly"
  | .rejected _ => .error "worker run loop rejected unexpectedly"

/-- The part of `OrdersConsumer` the lifecycle depends on. -/
structure Consumer where
  processingReady : Bool
  closing : Bool
  /-- `worker.run()` was called and has not ended. -/
  running : Bool
  /-- The listener of the lifecycle is in `terminationListeners`. -/
  listening : Bool
  deriving DecidableEq, Repr

/-- The memory of the process. -/
structure Process extends Maintenance where
  /-- `bootController.signal.aborted`. -/
  aborted : Bool
  fatalError : Option Failure
  fatalRejected : Bool
  /-- Whether there is a `lifecycleDisposer`, a `terminationDisposer`. -/
  lifecycleDisposer : Bool
  terminationDisposer : Bool
  /-- Local variables of `startLifecycle`. -/
  processingStarted : Bool
  transitionCleaned : Bool
  consumer : Consumer

/-- What the routines wait for. A call that may fail at once is a wait too. -/
inductive Wait where
  | connect
  | tryLock
  | lockDelay
  | unlock
  | release
  /-- `bootPass`, whose own awaits read nothing but the signal. -/
  | bootPass
  | afterBootDiffBeforeConsumerStart
  | prepareForBootstrapRecovery
  /-- `worker.isRunning()` after `worker.run()`. -/
  | isRunning
  | pauseQueue
  | resumeQueue
  | isPaused
  | afterQueueResumeVerified
  | closeConsumer
  | delay (ms : ℕ)
  /-- `Promise.allSettled` of `stopLifecycle`. -/
  | allSettled

def Wait.Answer : Wait → Type
  | .tryLock | .unlock | .isRunning | .isPaused => Bool
  | .bootPass => ReconciliationPassResult
  | .allSettled => List Failure
  | _ => Unit

abbrev Lifecycle (α : Type) : Type := Routine Process Wait Wait.Answer Failure α

/-- The memory now. -/
def look : Lifecycle Process := Routine.read

def write (f : Process → Process) : Lifecycle Unit := Routine.modify f

def wait (w : Wait) : Lifecycle w.Answer := Routine.await w

/-! ## Pieces -/

/-- `checkpoint`, and `signal.throwIfAborted`. -/
def checkpoint : Lifecycle Unit := do
  let p ← look
  Prog.throwIf (p.aborted = true) abortReason

def throwIfConsumerTerminated : Lifecycle Unit := do
  let p ← look
  match p.fatalError with
  | some error => throw error
  | none => return ()

/-- The error is the reason of the aborted signal. -/
def isPurePlannedCancellation (p : Process) : Failure → Bool
  | .error message => p.aborted && decide (message = "worker lifecycle stopped")
  | _ => false

def Process.fail (p : Process) : Process := { p with toMaintenance := p.toMaintenance.fail }

def Process.disposeContinuousLifecycle (p : Process) : Process := { p with lifecycleDisposer := false }

def Process.disposeTerminationSubscription (p : Process) : Process :=
  { p with
    terminationDisposer := false
    consumer := { p.consumer with listening := p.consumer.listening && !p.terminationDisposer } }

/-- The flags of a worker that is not ready, the failure confirmed. -/
def Process.clear (p : Process) : Process :=
  { p with state := { p.state with
      bootstrapReconciled := false
      consumerReady := false
      reconciliationHealthy := false
      reconciliationFailureConfirmed := true } }

/-- The first part of `OrdersConsumer.close`. -/
def Process.closeConsumer (p : Process) : Process :=
  { p with consumer := { p.consumer with closing := true, processingReady := false } }

/-- `handleUnexpectedConsumerTermination`. -/
def Process.handleUnexpectedConsumerTermination (p : Process)
    (termination : ConsumerRunTermination) : Process :=
  let p := { p with state := { p.state with
    consumerReady := false
    reconciliationHealthy := false
    reconciliationFailureConfirmed := true } }
  let p := p.disposeContinuousLifecycle
  if p.fatalRejected then p
  else { p with fatalRejected := true, fatalError := some termination.error }

/-- `OrdersConsumer.handleRunTermination`: the run loop has ended. -/
def Process.handleRunTermination (p : Process) (termination : ConsumerRunTermination) : Process :=
  let p := { p with consumer := { p.consumer with running := false } }
  if p.consumer.closing then p
  else
    let p := { p with consumer := { p.consumer with processingReady := false } }
    if p.consumer.listening then p.handleUnexpectedConsumerTermination termination else p

/-- `OrdersConsumer.startProcessing`. -/
def startProcessing : Lifecycle Unit := do
  wait .prepareForBootstrapRecovery
  let p ← look
  Prog.throwIf (p.consumer.closing = true) (.error "orders consumer is closing")
  write fun p => { p with consumer := { p.consumer with running := true } }
  let running : Bool ← wait .isRunning
  Prog.throwIf (running = false) (.error "orders consumer run loop did not start")
  write fun p => { p with consumer := { p.consumer with processingReady := true } }

/-- `cleanupHalfTransition`. -/
def cleanupHalfTransition (originalError : Failure) : Lifecycle Failure := do
  write Process.clear
  write Process.disposeContinuousLifecycle
  write Process.disposeTerminationSubscription
  let paused ← Routine.attempt do
    wait .pauseQueue
    let paused : Bool ← wait .isPaused
    Prog.throwIf (paused = false)
      (.error "orders queue did not enter paused state during transition cleanup")
  let closed : Except Failure Unit ← Routine.attempt do
    write Process.closeConsumer
    wait .closeConsumer
  let cleanupErrors := [paused, closed].filterMap fun
    | .ok () => none
    | .error e => some e
  return if cleanupErrors.isEmpty then originalError
    else .aggregate (originalError :: cleanupErrors) "worker transition and cleanup failed"

/-- The polling loop of `withSessionReconciliationLock`. -/
def pollLock : ℕ → Lifecycle Unit
  | 0 => throw .outOfFuel
  | polls + 1 => do
    checkpoint
    let acquired : Bool ← wait .tryLock
    if acquired then return ()
    else
      wait .lockDelay
      pollLock polls

/-- The unlock of the `finally` block, with its errors. -/
def unlockErrors : Lifecycle (List Failure) := do
  let unlocked : Except Failure Bool ← Routine.attempt (wait .unlock)
  return match unlocked with
    | .ok true => []
    | .ok false => [.error "Postgres reconciliation advisory lock was not released"]
    | .error e => [e]

/-- `client.release()`, with its error. -/
def releaseErrors : Lifecycle (List Failure) := do
  let released : Except Failure Unit ← Routine.attempt (wait .release)
  return match released with
    | .ok () => []
    | .error e => [e]

/-- `withSessionReconciliationLock`. -/
def underSessionLock {α : Type} (polls : ℕ) (work : Lifecycle α) : Lifecycle α := do
  wait .connect
  let acquired ← Routine.attempt (pollLock polls)
  match acquired with
  | .error e => do
    let cleanupErrors ← releaseErrors
    Prog.ofExcept (cleanupOutcome (.error e) cleanupErrors)
  | .ok () => do
    let primary ← Routine.attempt (do checkpoint; work)
    let unlocked ← unlockErrors
    let released ← releaseErrors
    Prog.ofExcept (cleanupOutcome primary (unlocked ++ released))

/-! ## Boot -/

/-- The `try` block of the transition from the boot pass to a ready worker. -/
def transition (bootResult : ReconciliationPassResult) : Lifecycle Unit := do
  wait .afterBootDiffBeforeConsumerStart
  checkpoint
  write fun p => { p with processingStarted := true }
  startProcessing
  checkpoint
  throwIfConsumerTerminated
  let p ← look
  Prog.throwIf (p.consumer.processingReady = false) (.error "orders consumer did not become ready")
  -- installContinuousLifecycle
  write fun p => { p with lifecycleDisposer := true }
  checkpoint
  throwIfConsumerTerminated
  wait .resumeQueue
  checkpoint
  let paused : Bool ← wait .isPaused
  Prog.throwIf (paused = true) (.error "orders queue remained paused after resume")
  checkpoint
  throwIfConsumerTerminated
  wait .afterQueueResumeVerified
  checkpoint
  throwIfConsumerTerminated
  write fun p => { p with toMaintenance := p.toMaintenance.booted bootResult }

/-- The flags after the boot pass, and the subscription to the end of the run loop. -/
def Process.beginTransition (p : Process) (bootResult : ReconciliationPassResult) : Process :=
  { p with
    state := { p.state with
      retainedQueueEntries := bootResult.queueIssueCount
      bootstrapReconciled := false
      consumerReady := false
      reconciliationHealthy := false }
    terminationDisposer := true
    consumer := { p.consumer with listening := true } }

/-- What `startLifecycle` does under the session lock. -/
def bootUnderLock : Lifecycle Unit := do
  let bootResult : ReconciliationPassResult ← wait .bootPass
  checkpoint
  write fun p => p.beginTransition bootResult
  tryCatch (transition bootResult) fun error => do
    let p ← look
    if p.processingStarted then
      write fun p => { p with transitionCleaned := true }
      let error ← cleanupHalfTransition error
      throw error
    else
      write Process.disposeTerminationSubscription
      throw error

/-- The failure of a transition that is cleaned up now, unless it was before. -/
def cleanedFailure (p : Process) (error : Failure) : Lifecycle Failure :=
  if p.transitionCleaned then pure error else cleanupHalfTransition error

/-- `fail` under a condition. -/
def failIf (condition : Bool) : Lifecycle Unit :=
  if condition then write Process.fail else pure ()

/-- The `catch` block of an attempt to boot; it returns if there is to be another one. -/
def afterFailedBoot (delayMs : ℕ) (error : Failure) : Lifecycle Unit := do
  let p ← look
  Prog.throwIf (isPurePlannedCancellation p error = true) error
  if p.processingStarted then
    let failure ← cleanedFailure p error
    let p ← look
    failIf (!isPurePlannedCancellation p failure && p.aborted)
    throw failure
  else if p.aborted then
    write Process.fail
    throw error
  else
    write Process.fail
    checkpoint
    wait (.delay delayMs)

/-- `startLifecycle` with a bound on its attempts. -/
def startLifecycle (polls : ℕ) : ℕ → ℕ → Lifecycle Unit
  | 0, _ => throw .outOfFuel
  | attempts + 1, delayMs => do
    let p ← look
    Prog.throwIf (p.closing = true) abortReason
    write fun p => { p with processingStarted := false, transitionCleaned := false }
    let outcome ← Routine.attempt (underSessionLock polls bootUnderLock)
    match outcome with
    | .ok () => return ()
    | .error error => do
      afterFailedBoot delayMs error
      startLifecycle polls attempts (min (delayMs * 2) 5000)

/-- `stopLifecycle` after its flags. -/
def finishStop : Lifecycle Unit := do
  write Process.disposeContinuousLifecycle
  write Process.disposeTerminationSubscription
  write Process.closeConsumer
  let errors : List Failure ← wait .allSettled
  Prog.throwIf (errors.isEmpty = false) (.aggregate errors "reconciliation shutdown failed")

/-- The flags of `stopLifecycle`, and the aborted signal. -/
def Process.beginStop (p : Process) : Process := { p.clear with closing := true, aborted := true }

/-- `stopLifecycle`. -/
def stopLifecycle : Lifecycle Unit := do
  write Process.beginStop
  finishStop

/-! ## The process -/

/-- The process with its routines. -/
structure WorkerProcess extends Process where
  startPromise : Option (Lifecycle Unit)
  stopPromise : Option (Lifecycle Unit)

inductive LifecycleEvent where
  | start (polls attempts : ℕ)
  /-- A wait of `startLifecycle` ends. -/
  | boot (answer : (w : Wait) → Except Failure w.Answer)
  | stop
  /-- The wait of `stopLifecycle` ends. -/
  | stopping (answer : (w : Wait) → Except Failure w.Answer)
  /-- The run loop of the consumer ends. -/
  | terminate (termination : ConsumerRunTermination)
  /-- `OrdersConsumer.close` ends and clears the listeners. -/
  | consumerClosed
  | maintenance (e : MaintenanceEvent)

namespace WorkerProcess

/-- One event; an event that is not possible changes nothing. -/
def step (WORKER_RECONCILE_INTERVAL_MS : ℕ) (w : WorkerProcess) : LifecycleEvent → WorkerProcess
  | .start polls attempts =>
    match w.startPromise with
    | some _ => w
    | none =>
      let (routine, p) := (startLifecycle polls attempts 100).advance w.toProcess
      { w with toProcess := p, startPromise := some routine }
  | .boot answer =>
    match w.startPromise with
    | none => w
    | some routine =>
      let (routine, p) := routine.resume answer w.toProcess
      { w with toProcess := p, startPromise := some routine }
  | .stop =>
    match w.stopPromise with
    | some _ => w
    | none =>
      let (routine, p) := stopLifecycle.advance w.toProcess
      { w with toProcess := p, stopPromise := some routine }
  | .stopping answer =>
    match w.stopPromise with
    | none => w
    | some routine =>
      let (routine, p) := routine.resume answer w.toProcess
      { w with toProcess := p, stopPromise := some routine }
  | .terminate termination =>
    if w.consumer.running then
      { w with toProcess := w.toProcess.handleRunTermination termination }
    else w
  | .consumerClosed =>
    if w.consumer.closing then
      { w with consumer := { w.consumer with listening := false } }
    else w
  | .maintenance e =>
    { w with toMaintenance := w.toMaintenance.step WORKER_RECONCILE_INTERVAL_MS e }

def run (WORKER_RECONCILE_INTERVAL_MS : ℕ) (w : WorkerProcess) (es : List LifecycleEvent) :
    WorkerProcess :=
  es.foldl (step WORKER_RECONCILE_INTERVAL_MS) w

/-- A process that has just been created. -/
def init : WorkerProcess where
  toMaintenance := Watched.idle
  aborted := false
  fatalError := none
  fatalRejected := false
  lifecycleDisposer := false
  terminationDisposer := false
  processingStarted := false
  transitionCleaned := false
  consumer := ⟨false, false, false, false⟩
  startPromise := none
  stopPromise := none

/-- The event calls `stop`, or runs the termination handler of the lifecycle. -/
def Halts (w : WorkerProcess) : LifecycleEvent → Prop
  | .stop => True
  | .terminate _ =>
    w.consumer.running = true ∧ w.consumer.closing = false ∧ w.consumer.listening = true
  | _ => False

end WorkerProcess

/-! ## What the routines keep -/

/-- A write that leaves alone what halts the process, and never sets `consumerReady`. -/
structure Process.Quiet (p q : Process) : Prop where
  aborted : q.aborted = p.aborted
  fatalError : q.fatalError = p.fatalError
  fatalRejected : q.fatalRejected = p.fatalRejected
  consumerReady : q.state.consumerReady = p.state.consumerReady ∨ q.state.consumerReady = false

/-- A property of the memory that quiet writes keep, and the boot of a process that is neither aborted
nor without its consumer. -/
structure Process.Stable (J : Process → Prop) : Prop where
  quiet : ∀ p q, Quiet p q → J p → J q
  booted : ∀ p bootResult, p.aborted = false → p.fatalError = none → J p →
    J { p with toMaintenance := p.toMaintenance.booted bootResult }

open Process Routine

section

variable {J : Process → Prop}

theorem keepsAll_wait (w : Wait) : KeepsAll J (wait w) := KeepsAll.await w

theorem keepsAll_look : KeepsAll J look := KeepsAll.read

theorem keepsAll_write (hJ : Stable J) {f : Process → Process} (h : ∀ p, Quiet p (f p)) :
    KeepsAll J (write f) := KeepsAll.modify fun p => hJ.quiet p (f p) (h p)

theorem keepsAll_throwIf (P : Prop) [Decidable P] (e : Failure) :
    KeepsAll J (Prog.throwIf P e : Lifecycle Unit) := by
  unfold Prog.throwIf
  split_ifs
  · exact KeepsAll.throw e
  · exact KeepsAll.pure ()

theorem keepsAll_checkpoint : KeepsAll J checkpoint :=
  keepsAll_look.bind fun _ => keepsAll_throwIf _ _

theorem keepsAll_throwIfConsumerTerminated : KeepsAll J throwIfConsumerTerminated := by
  refine keepsAll_look.bind fun p => ?_
  cases p.fatalError with
  | none => exact KeepsAll.pure ()
  | some e => exact KeepsAll.throw e

theorem keepsAll_ite {α : Type} {P : Prop} [Decidable P] {p q : Lifecycle α}
    (hp : KeepsAll J p) (hq : KeepsAll J q) : KeepsAll J (if P then p else q) := by
  split_ifs
  · exact hp
  · exact hq

theorem keepsAll_startProcessing (hJ : Stable J) : KeepsAll J startProcessing := by
  refine (keepsAll_wait _).bind fun _ => keepsAll_look.bind fun p =>
    (keepsAll_throwIf _ _).bind fun _ => (keepsAll_write hJ ?_).bind fun _ =>
    (keepsAll_wait .isRunning).bind fun (running : Bool) =>
    (keepsAll_throwIf _ _).bind fun _ => keepsAll_write hJ ?_
  · exact fun p => ⟨rfl, rfl, rfl, .inl rfl⟩
  · exact fun p => ⟨rfl, rfl, rfl, .inl rfl⟩

theorem keepsAll_cleanupHalfTransition (hJ : Stable J) (e : Failure) :
    KeepsAll J (cleanupHalfTransition e) := by
  refine (keepsAll_write hJ ?_).bind fun _ => (keepsAll_write hJ ?_).bind fun _ =>
    (keepsAll_write hJ ?_).bind fun _ => (KeepsAll.attempt ?_).bind fun _ =>
    (KeepsAll.attempt ?_).bind fun _ => KeepsAll.pure _
  · exact fun p => ⟨rfl, rfl, rfl, .inr rfl⟩
  · exact fun p => ⟨rfl, rfl, rfl, .inl rfl⟩
  · exact fun p => ⟨rfl, rfl, rfl, .inl rfl⟩
  · exact (keepsAll_wait _).bind fun _ => (keepsAll_wait .isPaused).bind fun (paused : Bool) =>
      keepsAll_throwIf _ _
  · refine (keepsAll_write hJ ?_).bind fun _ => keepsAll_wait _
    exact fun p => ⟨rfl, rfl, rfl, .inl rfl⟩

theorem keepsAll_pollLock (polls : ℕ) : KeepsAll J (pollLock polls) := by
  induction polls with
  | zero => exact KeepsAll.throw _
  | succ polls ih =>
    exact keepsAll_checkpoint.bind fun _ => (keepsAll_wait .tryLock).bind fun (acquired : Bool) =>
      keepsAll_ite (KeepsAll.pure _) ((keepsAll_wait _).bind fun _ => ih)

theorem keepsAll_ofExcept {α : Type} (x : Except Failure α) :
    KeepsAll J (Prog.ofExcept x : Lifecycle α) := by
  cases x with
  | ok a => exact KeepsAll.pure a
  | error e => exact KeepsAll.throw e

theorem keepsAll_unlockErrors : KeepsAll J unlockErrors :=
  (keepsAll_wait .unlock).attempt.bind fun _ => KeepsAll.pure _

theorem keepsAll_releaseErrors : KeepsAll J releaseErrors :=
  (keepsAll_wait .release).attempt.bind fun _ => KeepsAll.pure _

theorem keepsAll_underSessionLock {α : Type} (polls : ℕ) {work : Lifecycle α}
    (h : KeepsAll J work) : KeepsAll J (underSessionLock polls work) := by
  refine (keepsAll_wait _).bind fun _ => (keepsAll_pollLock polls).attempt.bind fun acquired => ?_
  cases acquired with
  | error e => exact keepsAll_releaseErrors.bind fun _ => keepsAll_ofExcept _
  | ok _ =>
    exact (keepsAll_checkpoint.bind fun _ => h).attempt.bind fun primary =>
      keepsAll_unlockErrors.bind fun _ => keepsAll_releaseErrors.bind fun _ => keepsAll_ofExcept _

/-- The piece that makes the worker ready checks the process first. -/
theorem keepsAll_setReady (hJ : Stable J) (bootResult : ReconciliationPassResult) : KeepsAll J (do
    checkpoint
    throwIfConsumerTerminated
    write fun p => { p with toMaintenance := p.toMaintenance.booted bootResult }) := by
  intro p
  refine keeps_bind (keeps_bind (keeps_read ?_))
  dsimp only
  unfold Prog.throwIf
  split_ifs with ha
  · trivial
  · refine keeps_bind (keeps_bind (keeps_read ?_))
    dsimp only
    cases hf : p.fatalError with
    | some e => trivial
    | none =>
      exact ⟨hJ.booted p bootResult (Bool.eq_false_of_not_eq_true ha) hf, trivial⟩

theorem keepsAll_transition (hJ : Stable J) (bootResult : ReconciliationPassResult) :
    KeepsAll J (transition bootResult) := by
  refine (keepsAll_wait _).bind fun _ => keepsAll_checkpoint.bind fun _ =>
    (keepsAll_write hJ ?_).bind fun _ => (keepsAll_startProcessing hJ).bind fun _ =>
    keepsAll_checkpoint.bind fun _ => keepsAll_throwIfConsumerTerminated.bind fun _ =>
    keepsAll_look.bind fun p => (keepsAll_throwIf _ _).bind fun _ =>
    (keepsAll_write hJ ?_).bind fun _ => keepsAll_checkpoint.bind fun _ =>
    keepsAll_throwIfConsumerTerminated.bind fun _ =>
    (keepsAll_wait _).bind fun _ => keepsAll_checkpoint.bind fun _ =>
    (keepsAll_wait .isPaused).bind fun (paused : Bool) => (keepsAll_throwIf _ _).bind fun _ =>
    keepsAll_checkpoint.bind fun _ => keepsAll_throwIfConsumerTerminated.bind fun _ =>
    (keepsAll_wait _).bind fun _ => keepsAll_setReady hJ bootResult
  · exact fun p => ⟨rfl, rfl, rfl, .inl rfl⟩
  · exact fun p => ⟨rfl, rfl, rfl, .inl rfl⟩

theorem keepsAll_bootUnderLock (hJ : Stable J) : KeepsAll J bootUnderLock := by
  refine (keepsAll_wait .bootPass).bind fun (bootResult : ReconciliationPassResult) =>
    keepsAll_checkpoint.bind fun _ => (keepsAll_write hJ ?_).bind fun _ =>
    (keepsAll_transition hJ bootResult).catchWith fun error => keepsAll_look.bind fun p =>
    keepsAll_ite ?_ ?_
  · exact fun p => ⟨rfl, rfl, rfl, .inr rfl⟩
  · refine (keepsAll_write hJ ?_).bind fun _ => (keepsAll_cleanupHalfTransition hJ error).bind fun _ =>
      KeepsAll.throw _
    exact fun p => ⟨rfl, rfl, rfl, .inl rfl⟩
  · refine (keepsAll_write hJ ?_).bind fun _ => KeepsAll.throw _
    exact fun p => ⟨rfl, rfl, rfl, .inl rfl⟩

theorem keepsAll_fail (hJ : Stable J) : KeepsAll J (write Process.fail) := by
  apply keepsAll_write hJ
  exact fun p => ⟨rfl, rfl, rfl, .inl rfl⟩

theorem keepsAll_afterFailedBoot (hJ : Stable J) (delayMs : ℕ) (error : Failure) :
    KeepsAll J (afterFailedBoot delayMs error) := by
  refine keepsAll_look.bind fun p => (keepsAll_throwIf _ _).bind fun _ => keepsAll_ite ?_ ?_
  · exact (keepsAll_ite (KeepsAll.pure _) (keepsAll_cleanupHalfTransition hJ error)).bind fun _ =>
      keepsAll_look.bind fun p => (keepsAll_ite (keepsAll_fail hJ) (KeepsAll.pure _)).bind fun _ =>
      KeepsAll.throw _
  · refine keepsAll_ite ((keepsAll_fail hJ).bind fun _ => KeepsAll.throw _) ?_
    exact (keepsAll_fail hJ).bind fun _ => keepsAll_checkpoint.bind fun _ => keepsAll_wait _

theorem keepsAll_startLifecycle (hJ : Stable J) (polls attempts delayMs : ℕ) :
    KeepsAll J (startLifecycle polls attempts delayMs) := by
  induction attempts generalizing delayMs with
  | zero => exact KeepsAll.throw _
  | succ attempts ih =>
    refine keepsAll_look.bind fun p => (keepsAll_throwIf _ _).bind fun _ =>
      (keepsAll_write hJ ?_).bind fun _ =>
      (keepsAll_underSessionLock polls (keepsAll_bootUnderLock hJ)).attempt.bind fun outcome => ?_
    · exact fun p => ⟨rfl, rfl, rfl, .inl rfl⟩
    · cases outcome with
      | ok _ => exact KeepsAll.pure _
      | error error => exact (keepsAll_afterFailedBoot hJ delayMs error).bind fun _ => ih _

theorem keepsAll_finishStop (hJ : Stable J) : KeepsAll J finishStop := by
  refine (keepsAll_write hJ ?_).bind fun _ => (keepsAll_write hJ ?_).bind fun _ =>
    (keepsAll_write hJ ?_).bind fun _ =>
    (keepsAll_wait .allSettled).bind fun (errors : List Failure) => keepsAll_throwIf _ _
  · exact fun p => ⟨rfl, rfl, rfl, .inl rfl⟩
  · exact fun p => ⟨rfl, rfl, rfl, .inl rfl⟩
  · exact fun p => ⟨rfl, rfl, rfl, .inl rfl⟩

end

/-! ## Halted processes -/

/-- The process was stopped or has lost its consumer, and does not count as ready. -/
structure Process.Halted (p : Process) : Prop where
  cause : p.aborted = true ∨ p.fatalError.isSome = true
  notReady : p.state.consumerReady = false

/-- The handler has recorded its error. -/
def Process.Fatal (p : Process) : Prop := p.fatalRejected = true → p.fatalError.isSome = true

theorem stable_halted : Stable Halted where
  quiet p q hq h := by
    refine ⟨by rw [hq.aborted, hq.fatalError]; exact h.cause, ?_⟩
    rcases hq.consumerReady with hr | hr
    · exact hr.trans h.notReady
    · exact hr
  booted p bootResult ha hf h := by
    have hcause := h.cause
    rw [ha, hf] at hcause
    simp at hcause

theorem stable_fatal : Stable Fatal where
  quiet p q hq h := by
    unfold Fatal
    rw [hq.fatalRejected, hq.fatalError]
    exact h
  booted p bootResult ha hf h := h

theorem Process.Halted.beginStop (p : Process) : p.beginStop.Halted := ⟨.inl rfl, rfl⟩

/-- The termination handler halts the process. -/
theorem Process.Fatal.halted {p : Process} (h : p.Fatal) (termination : ConsumerRunTermination) :
    (p.handleUnexpectedConsumerTermination termination).Halted := by
  unfold Process.handleUnexpectedConsumerTermination
  dsimp only
  split_ifs with hf
  · exact ⟨.inr (h hf), rfl⟩
  · exact ⟨.inr rfl, rfl⟩

/-- The end of the run loop, with a listener or without. -/
theorem handleRunTermination_cases (p : Process) (termination : ConsumerRunTermination) :
    (p.consumer.closing = false ∧ p.consumer.listening = true ∧ ∃ q : Process, Quiet p q ∧
      p.handleRunTermination termination = q.handleUnexpectedConsumerTermination termination) ∨
    ¬(p.consumer.closing = false ∧ p.consumer.listening = true) ∧
      Quiet p (p.handleRunTermination termination) := by
  unfold Process.handleRunTermination
  dsimp only
  split_ifs with hc hl
  · refine .inr ⟨?_, ⟨rfl, rfl, rfl, .inl rfl⟩⟩
    intro h
    rw [h.1] at hc
    cases hc
  · refine .inl ⟨Bool.eq_false_of_not_eq_true hc, hl, ?_⟩
    refine ⟨{ p with consumer := { p.consumer with running := false, processingReady := false } },
      ⟨rfl, rfl, rfl, .inl rfl⟩, rfl⟩
  · exact .inr ⟨fun h => hl h.2, ⟨rfl, rfl, rfl, .inl rfl⟩⟩

theorem Process.Fatal.handleUnexpectedConsumerTermination {p : Process} (h : p.Fatal)
    (termination : ConsumerRunTermination) :
    (p.handleUnexpectedConsumerTermination termination).Fatal := by
  unfold Process.handleUnexpectedConsumerTermination
  dsimp only
  split_ifs
  · exact h
  · exact fun _ => rfl

namespace WorkerProcess

/-- Both routines keep a halted process halted, and a stopped process is halted. -/
structure Ok (w : WorkerProcess) : Prop where
  fatal : w.Fatal
  stopped : w.stopPromise.isSome = true → w.Halted
  start : ∀ r, w.startPromise = some r → KeepsAll Halted r ∧ KeepsAll Fatal r
  stop : ∀ r, w.stopPromise = some r → KeepsAll Halted r ∧ KeepsAll Fatal r

variable {w : WorkerProcess}

theorem Ok.init : WorkerProcess.init.Ok where
  fatal h := by cases h
  stopped h := by cases h
  start r h := by cases h
  stop r h := by cases h

/-- A change of the memory alone. -/
theorem Ok.onProcess (h : w.Ok) {p : Process} (hfatal : p.Fatal) (hhalted : w.Halted → p.Halted) :
    ({ w with toProcess := p } : WorkerProcess).Ok :=
  ⟨hfatal, fun hs => hhalted (h.stopped hs), h.start, h.stop⟩

/-- A routine runs up to its next wait. -/
theorem Ok.resume (h : w.Ok) {r : Lifecycle Unit} (hr : KeepsAll Halted r ∧ KeepsAll Fatal r)
    (answer : (w : Wait) → Except Failure w.Answer) :
    ({ w with toProcess := (r.resume answer w.toProcess).2 } : WorkerProcess).Ok ∧
      (w.Halted → (r.resume answer w.toProcess).2.Halted) ∧
      (KeepsAll Halted (r.resume answer w.toProcess).1 ∧
        KeepsAll Fatal (r.resume answer w.toProcess).1) := by
  obtain ⟨hhalted, hrest⟩ := hr.1.resume answer w.toProcess
  obtain ⟨hfatal, hrest'⟩ := hr.2.resume answer w.toProcess
  exact ⟨h.onProcess (hfatal h.fatal) hhalted, hhalted, hrest, hrest'⟩

/-- **A step of the process.** The event keeps a halted process halted, and halts it if it is one of
those that do. -/
theorem Ok.step (h : w.Ok) (WORKER_RECONCILE_INTERVAL_MS : ℕ) (e : LifecycleEvent) :
    (w.step WORKER_RECONCILE_INTERVAL_MS e).Ok ∧
      (w.Halted ∨ w.Halts e → (w.step WORKER_RECONCILE_INTERVAL_MS e).Halted) := by
  cases e with
  | start polls attempts =>
    rw [WorkerProcess.step]
    cases hs : w.startPromise with
    | some r => exact ⟨h, fun hh => hh.resolve_right id⟩
    | none =>
      obtain ⟨hhalted, hrest⟩ := Keeps.advance
        (keepsAll_startLifecycle stable_halted polls attempts 100 w.toProcess)
      obtain ⟨hfatal, hrest'⟩ := Keeps.advance
        (keepsAll_startLifecycle stable_fatal polls attempts 100 w.toProcess)
      refine ⟨⟨hfatal h.fatal, fun hs => hhalted (h.stopped hs), ?_, h.stop⟩,
        fun hh => hhalted (hh.resolve_right id)⟩
      rintro r ⟨⟩
      exact ⟨hrest, hrest'⟩
  | boot answer =>
    rw [WorkerProcess.step]
    cases hs : w.startPromise with
    | none => exact ⟨h, fun hh => hh.resolve_right id⟩
    | some r =>
      obtain ⟨hok, hhalted, hrest⟩ := h.resume (h.start r hs) answer
      refine ⟨⟨hok.fatal, hok.stopped, ?_, hok.stop⟩, fun hh => hhalted (hh.resolve_right id)⟩
      rintro r' ⟨⟩
      exact hrest
  | stop =>
    rw [WorkerProcess.step]
    cases hs : w.stopPromise with
    | some r => exact ⟨h, fun _ => h.stopped (by rw [hs]; rfl)⟩
    | none =>
      -- the first write of the routine halts the process
      obtain ⟨hhalted, hrest⟩ := Keeps.advance
        (keepsAll_finishStop stable_halted w.toProcess.beginStop)
      obtain ⟨hfatal, hrest'⟩ := Keeps.advance
        (keepsAll_finishStop stable_fatal w.toProcess.beginStop)
      have hhalted := hhalted (Halted.beginStop w.toProcess)
      refine ⟨⟨hfatal h.fatal, fun _ => hhalted, h.start, ?_⟩, fun _ => hhalted⟩
      rintro r ⟨⟩
      exact ⟨hrest, hrest'⟩
  | stopping answer =>
    rw [WorkerProcess.step]
    cases hs : w.stopPromise with
    | none => exact ⟨h, fun hh => hh.resolve_right id⟩
    | some r =>
      obtain ⟨hok, hhalted, hrest⟩ := h.resume (h.stop r hs) answer
      have hhalted := hhalted (h.stopped (by rw [hs]; rfl))
      refine ⟨⟨hok.fatal, fun _ => hhalted, hok.start, ?_⟩, fun _ => hhalted⟩
      rintro r' ⟨⟩
      exact hrest
  | terminate termination =>
    rw [WorkerProcess.step]
    split_ifs with hrunning
    · obtain ⟨hc, hl, q, hq, heq⟩ | ⟨hno, hq⟩ :=
        handleRunTermination_cases w.toProcess termination
      · rw [heq]
        have hfatal : q.Fatal := stable_fatal.quiet _ _ hq h.fatal
        exact ⟨h.onProcess (hfatal.handleUnexpectedConsumerTermination termination)
          fun _ => hfatal.halted termination, fun _ => hfatal.halted termination⟩
      · have hhalted := stable_halted.quiet _ _ hq
        refine ⟨h.onProcess (stable_fatal.quiet _ _ hq h.fatal) hhalted, ?_⟩
        rintro (hh | hh)
        · exact hhalted hh
        · exact absurd hh.2 hno
    · refine ⟨h, ?_⟩
      rintro (hh | hh)
      · exact hh
      · exact absurd hh.1 hrunning
  | consumerClosed =>
    rw [WorkerProcess.step]
    split_ifs
    · exact ⟨h.onProcess h.fatal fun hh => ⟨hh.cause, hh.notReady⟩,
        fun hh => ⟨(hh.resolve_right id).cause, (hh.resolve_right id).notReady⟩⟩
    · exact ⟨h, fun hh => hh.resolve_right id⟩
  | maintenance e =>
    obtain ⟨-, hready⟩ := Maintenance.step_ready WORKER_RECONCILE_INTERVAL_MS w.toMaintenance e
    have hhalted (hh : w.Halted) :
        (w.step WORKER_RECONCILE_INTERVAL_MS (.maintenance e)).Halted :=
      ⟨hh.cause, hready.trans hh.notReady⟩
    exact ⟨h.onProcess h.fatal hhalted, fun hh => hhalted (hh.resolve_right id)⟩

theorem Ok.run (h : w.Ok) (WORKER_RECONCILE_INTERVAL_MS : ℕ) (es : List LifecycleEvent) :
    (w.run WORKER_RECONCILE_INTERVAL_MS es).Ok ∧
      (w.Halted → (w.run WORKER_RECONCILE_INTERVAL_MS es).Halted) := by
  induction es generalizing w with
  | nil => exact ⟨h, id⟩
  | cons e es ih =>
    obtain ⟨hok, hhalted⟩ := h.step WORKER_RECONCILE_INTERVAL_MS e
    obtain ⟨hrun, hkept⟩ := ih hok
    exact ⟨hrun, fun hh => hkept (hhalted (.inl hh))⟩

/-- **A process that was stopped or has lost its consumer is never ready again**, whatever its boot,
its passes and its sweeps still do. -/
theorem not_ready_after_halt (WORKER_RECONCILE_INTERVAL_MS : ℕ) (before : List LifecycleEvent)
    (e : LifecycleEvent) (after : List LifecycleEvent)
    (h : (init.run WORKER_RECONCILE_INTERVAL_MS before).Halts e) (now : ℤ) :
    ((init.run WORKER_RECONCILE_INTERVAL_MS (before ++ e :: after)).readiness
      WORKER_RECONCILE_INTERVAL_MS now).1.status = .degraded := by
  obtain ⟨hok, -⟩ := Ok.init.run WORKER_RECONCILE_INTERVAL_MS before
  obtain ⟨hstep, hhalts⟩ := hok.step WORKER_RECONCILE_INTERVAL_MS e
  have hhalted := (hstep.run WORKER_RECONCILE_INTERVAL_MS after).2 (hhalts (.inr h))
  have hrun : init.run WORKER_RECONCILE_INTERVAL_MS (before ++ e :: after) =
      ((init.run WORKER_RECONCILE_INTERVAL_MS before).step WORKER_RECONCILE_INTERVAL_MS e).run
        WORKER_RECONCILE_INTERVAL_MS after := by simp [WorkerProcess.run]
  rw [hrun]
  exact Maintenance.status_of_not_ready hhalted.notReady now

/-- The answers of stores that are in reach, and of a clean boot pass. -/
def calm : (w : Wait) → Except Failure w.Answer
  | .tryLock | .unlock | .isRunning => .ok true
  | .isPaused => .ok false
  | .bootPass => .ok ⟨false, 0⟩
  | .allSettled => .ok []
  | .connect | .lockDelay | .release | .afterBootDiffBeforeConsumerStart
  | .prepareForBootstrapRecovery | .pauseQueue | .resumeQueue | .afterQueueResumeVerified
  | .closeConsumer | .delay _ => .ok ()

/-- A boot up to the flags of readiness. -/
def calmBoot : List LifecycleEvent := .start 1 1 :: List.replicate 9 (.boot calm)

/-- A pass that is still in flight when the consumer ends, and completes clean. -/
def cleanPass : List LifecycleEvent :=
  [.maintenance .triggerPass, .maintenance (.settlePass (.ok ⟨false, 0⟩)),
    .maintenance .resumePass]

/-- The worker is ready, its consumer ends, and a clean pass does not make it ready again. -/
theorem not_ready_after_halt_terminate :
    ((init.run 2000 calmBoot).readiness 2000 0).1.status = .ok ∧
      (init.run 2000 calmBoot).Halts (.terminate .resolved) ∧
      ((init.run 2000 (calmBoot ++ .terminate .resolved :: cleanPass)).readiness 2000 0).1.status =
        .degraded := by
  have hhalts : (init.run 2000 calmBoot).Halts (.terminate .resolved) := by
    refine ⟨?_, ?_, ?_⟩
    all_goals decide +kernel
  exact ⟨by decide +kernel, hhalts, not_ready_after_halt 2000 calmBoot _ cleanPass hhalts 0⟩

end WorkerProcess

end FlashSale
