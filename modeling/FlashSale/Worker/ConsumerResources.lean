import FlashSale.Lib.Collection
import FlashSale.Lib.Machine
import FlashSale.Lib.Table
import FlashSale.Worker.Lifecycle

/-!
# The resources of the consumer

`OrdersConsumer` makes two Redis clients, a BullMQ worker and its events before the boot pass, lets
the worker run after it, and closes what it made: when a preparation fails, and for good in `close`.
Any of these can overtake another at an `await`.

The code between two `await`s is one event, and so is what settles outside. Of a resource only its
life is kept: what it has been asked for, and `misused` once it was asked for something out of turn.
-/

namespace FlashSale

/-! ## Resources -/

/-- The fields a preparation fills. -/
inductive ResourceKind where
  | redis
  | eventsRedis
  | worker
  | events
  deriving DecidableEq, Repr

/-- A resource, named by the preparation that made it. -/
structure ConsumerResource where
  kind : ResourceKind
  preparation : ℕ
  deriving DecidableEq, Repr

/-- What a resource has been asked for last. -/
inductive ResourceLife where
  | absent
  | opened
  | started
  | paused
  | closed
  | misused
  deriving DecidableEq, Repr

namespace ResourceLife

/-- The constructor. -/
def create : ResourceLife → ResourceLife
  | .absent => .opened
  | _ => .misused

/-- It stands in the way of nothing. -/
def startStalledCheckTimer : ResourceLife → ResourceLife
  | .opened => .opened
  | _ => .misused

/-- A worker is asked to run once. Its loop can end by itself, which is not seen here. -/
def run : ResourceLife → ResourceLife
  | .opened => .started
  | _ => .misused

/-- A worker that was asked to run is paused once. -/
def pause : ResourceLife → ResourceLife
  | .started => .paused
  | _ => .misused

/-- `close`, which is `quit` for a client. A worker that was asked to run is paused first. -/
def close : ResourceLife → ResourceLife
  | .opened | .paused => .closed
  | _ => .misused

/-- A client is disconnected only behind its `quit`. -/
def disconnect : ResourceLife → ResourceLife
  | .closed => .closed
  | _ => .misused

end ResourceLife

/-- The life of every resource ever made. -/
abbrev Lives : Type := ConsumerResource → ResourceLife

/-- A call on one resource. -/
def Lives.call (l : Lives) (r : ConsumerResource) (f : ResourceLife → ResourceLife) : Lives :=
  Function.update l r (f (l r))

/-- The four fields of `ConsumerResources`. -/
abbrev ConsumerResources : Type := ResourceKind → Option ℕ

namespace ConsumerResources

/-- Empty hands. -/
def none : ConsumerResources := fun _ => Option.none

/-- The field of its kind holds this resource. -/
def Has (R : ConsumerResources) (r : ConsumerResource) : Prop := R r.kind = some r.preparation

instance (R : ConsumerResources) (r : ConsumerResource) : Decidable (R.Has r) :=
  inferInstanceAs (Decidable (_ = _))

end ConsumerResources

/-! ## `closeOwnedResources` -/

/-- `hard` says whether the timer beside a `quit` is still set. -/
inductive QuitState where
  | absent
  | pending (hard : Bool)
  | settled (result : Except Failure Unit)

/-- The events it can still take. -/
def QuitState.rank : QuitState → ℕ
  | .pending true => 2
  | .pending false => 1
  | _ => 0

/-- What `closeOwnedResources` waits for. -/
inductive CleanupStage where
  | pause
  | closeWorker
  | closeEvents
  | quit (quits : ResourceKind → QuitState)

/-- A call of `closeOwnedResources`, with the errors so far. -/
structure ResourceCleanup where
  resources : ConsumerResources
  errors : List Failure
  stage : CleanupStage

/-- It is one of the two Redis clients. -/
def ResourceKind.isClient : ResourceKind → Bool
  | .redis | .eventsRedis => true
  | _ => false

/-- What a `catch` adds to the errors. -/
def failuresOf : Except Failure Unit → List Failure
  | .ok _ => []
  | .error e => [e]

namespace ResourceCleanup

/-- Both clients are asked to quit at once. -/
def quitClients (R : ConsumerResources) (errors : List Failure) (l : Lives) :
    ResourceCleanup × Lives :=
  (⟨R, errors, .quit fun kind =>
      if kind.isClient && (R kind).isSome then .pending true else .absent⟩,
    fun r => if r.kind.isClient = true ∧ R.Has r then (l r).close else l r)

/-- `closeOwnedResources` from the close of the events on. -/
def closeEvents (R : ConsumerResources) (errors : List Failure) (l : Lives) :
    ResourceCleanup × Lives :=
  match R .events with
  | some p => (⟨R, errors, .closeEvents⟩, l.call ⟨.events, p⟩ .close)
  | none => quitClients R errors l

/-- `closeOwnedResources` from the close of the worker on. -/
def closeWorker (R : ConsumerResources) (errors : List Failure) (l : Lives) :
    ResourceCleanup × Lives :=
  match R .worker with
  | some p => (⟨R, errors, .closeWorker⟩, l.call ⟨.worker, p⟩ .close)
  | none => closeEvents R errors l

/-- `closeOwnedResources` up to its first wait. -/
def closeOwnedResources (R : ConsumerResources) (processing : Bool) (l : Lives) :
    ResourceCleanup × Lives :=
  match R .worker, processing with
  | some p, true => (⟨R, [], .pause⟩, l.call ⟨.worker, p⟩ .pause)
  | _, _ => closeWorker R [] l

/-- What settles: `pause` and `close` of the worker, `close` of the events, each `close` with what
`removeAllListeners` did after it, and `quit` of a client; `hard` is the timer beside a quit. -/
inductive Event where
  | paused (result : Except Failure Unit)
  | workerClosed (result removeAllListeners : Except Failure Unit)
  | eventsClosed (result removeAllListeners : Except Failure Unit)
  | quit (kind : ResourceKind) (result : Except Failure Unit)
  | hard (kind : ResourceKind)

/-- `redis.disconnect(false)`. -/
def disconnect (c : ResourceCleanup) (kind : ResourceKind) (l : Lives) : Lives :=
  match c.resources kind with
  | some p => l.call ⟨kind, p⟩ .disconnect
  | none => l

/-- What follows when something settles. -/
def step (c : ResourceCleanup) (l : Lives) : Event → Option (ResourceCleanup × Lives)
  | .paused result =>
    match c.stage with
    | .pause => some (closeWorker c.resources (c.errors ++ failuresOf result) l)
    | _ => none
  | .workerClosed result removeAllListeners =>
    match c.stage with
    | .closeWorker => some (closeEvents c.resources
        (c.errors ++ failuresOf result ++ failuresOf removeAllListeners) l)
    | _ => none
  | .eventsClosed result removeAllListeners =>
    match c.stage with
    | .closeEvents => some (quitClients c.resources
        (c.errors ++ failuresOf result ++ failuresOf removeAllListeners) l)
    | _ => none
  | .quit kind result =>
    match c.stage with
    | .quit quits =>
      match quits kind with
      | .pending _ =>
        some ({ c with stage := .quit (Function.update quits kind (.settled result)) },
          match result with
          | .ok _ => l
          | .error _ => c.disconnect kind l)
      | _ => none
    | _ => none
  | .hard kind =>
    match c.stage with
    | .quit quits =>
      match quits kind with
      | .pending true =>
        some ({ c with stage := .quit (Function.update quits kind (.pending false)) },
          c.disconnect kind l)
      | _ => none
    | _ => none

/-- The errors it returns, once both quits are over. -/
def result (c : ResourceCleanup) : Option (List Failure) :=
  match c.stage with
  | .quit quits =>
    match quits .redis, quits .eventsRedis with
    | .pending _, _ | _, .pending _ => none
    | redis, eventsRedis => some (c.errors ++ quitErrors redis ++ quitErrors eventsRedis)
  | _ => none
where
  quitErrors : QuitState → List Failure
    | .settled result => failuresOf result
    | _ => []

end ResourceCleanup

/-! ## What a cleanup leaves -/

/-- After `n` preparations the resources `R`, all of one of them, stand where `stand` says, and
every other one is closed or was never made. -/
structure Kept (n : ℕ) (R : ConsumerResources) (stand : ResourceKind → ResourceLife) (l : Lives) :
    Prop where
  held : ∀ r, R.Has r → l r = stand r.kind
  rest : ∀ r, ¬ R.Has r → l r = .absent ∨ l r = .closed
  together : ∀ {k k' p p'}, R k = some p → R k' = some p' → p = p'
  known : ∀ {k p}, R k = some p → p < n
  fresh : ∀ r, n ≤ r.preparation → l r = .absent

/-- Where resources stand that are in the fields, the worker asked to run or not. -/
def fieldLife (started : Bool) : ResourceKind → ResourceLife
  | .worker => if started then .started else .opened
  | _ => .opened

/-- Where the resources of a cleanup stand at a stage of it. -/
def cleanupLife : CleanupStage → ResourceKind → ResourceLife
  | .pause, .worker => .paused
  | .closeWorker, .worker => .closed
  | .closeEvents, .worker => .closed
  | .closeEvents, .events => .closed
  | .quit _, _ => .closed
  | _, _ => .opened

section

variable {n : ℕ} {R : ConsumerResources} {stand stand' : ResourceKind → ResourceLife} {l l' : Lives}

theorem Kept.congr (h : Kept n R stand l) (hstand : ∀ k p, R k = some p → stand' k = stand k) :
    Kept n R stand' l :=
  ⟨fun r hr => by rw [h.held r hr, hstand _ _ hr], h.rest, h.together, h.known, h.fresh⟩

theorem Kept.call (h : Kept n R stand l) {k : ResourceKind} {p : ℕ} (hR : R k = some p)
    (f : ResourceLife → ResourceLife) :
    Kept n R (Function.update stand k (f (stand k))) (l.call ⟨k, p⟩ f) := by
  refine ⟨fun r hr => ?_, fun r hr => ?_, h.together, h.known, fun r hr => ?_⟩
  · unfold Lives.call
    by_cases hk : r.kind = k
    · have hp : r.preparation = p := by
        have hr' : R r.kind = some r.preparation := hr
        rw [hk, hR] at hr'
        exact (Option.some.inj hr').symm
      obtain ⟨kind, preparation⟩ := r
      obtain rfl : kind = k := hk
      obtain rfl : preparation = p := hp
      rw [Function.update_self, Function.update_self, h.held _ hr]
    · rw [Function.update_of_ne hk, Function.update_of_ne (fun e => hk (by rw [e])), h.held r hr]
  · have hne : r ≠ ⟨k, p⟩ := by
      rintro rfl
      exact hr hR
    unfold Lives.call
    rw [Function.update_of_ne hne]
    exact h.rest r hr
  · have hne : r ≠ ⟨k, p⟩ := by
      rintro rfl
      exact absurd (h.known hR) (Nat.not_lt.2 hr)
    unfold Lives.call
    rw [Function.update_of_ne hne]
    exact h.fresh r hr

/-- Nothing is left open. -/
theorem kept_none (hrest : ∀ r, l r = .absent ∨ l r = .closed)
    (hfresh : ∀ r, n ≤ r.preparation → l r = .absent) : Kept n .none stand l :=
  ⟨fun r hr => (by cases hr), fun r _ => hrest r, fun hk => (by cases hk), fun hk => (by cases hk),
    hfresh⟩

theorem Kept.of_none (h : Kept n .none stand l) (r : ConsumerResource) :
    l r = .absent ∨ l r = .closed :=
  h.rest r (by simp [ConsumerResources.Has, ConsumerResources.none])

theorem Kept.misused_ne (h : Kept n R stand l) (hstand : ∀ k, stand k ≠ .misused)
    (r : ConsumerResource) : l r ≠ .misused := by
  by_cases hr : R.Has r
  · rw [h.held r hr]
    exact hstand _
  · rcases h.rest r hr with e | e
    · rw [e]; simp
    · rw [e]; simp

namespace ResourceCleanup

variable {c c' : ResourceCleanup} {e : Event}

theorem kept_quitClients (errors : List Failure) (h : Kept n R (cleanupLife .closeEvents) l) :
    (quitClients R errors l).1.resources = R ∧
    Kept n R (cleanupLife (quitClients R errors l).1.stage) (quitClients R errors l).2 := by
  refine ⟨rfl, fun r hr => ?_, fun r hr => ?_, h.together, h.known, fun r hr => ?_⟩
  · show (if r.kind.isClient = true ∧ R.Has r then (l r).close else l r) = .closed
    rw [h.held r hr]
    obtain ⟨kind, p⟩ := r
    cases kind <;> simp [ResourceKind.isClient, hr, cleanupLife, ResourceLife.close]
  · show (if r.kind.isClient = true ∧ R.Has r then (l r).close else l r) = .absent ∨
      (if r.kind.isClient = true ∧ R.Has r then (l r).close else l r) = .closed
    rw [if_neg fun hc => hr hc.2]
    exact h.rest r hr
  · show (if r.kind.isClient = true ∧ R.Has r then (l r).close else l r) = .absent
    rw [if_neg fun hc => absurd (h.known hc.2) (Nat.not_lt.2 hr)]
    exact h.fresh r hr

theorem kept_closeEvents (errors : List Failure) (h : Kept n R (cleanupLife .closeWorker) l) :
    (closeEvents R errors l).1.resources = R ∧
    Kept n R (cleanupLife (closeEvents R errors l).1.stage) (closeEvents R errors l).2 := by
  unfold closeEvents
  cases hR : R .events with
  | some p =>
    refine ⟨rfl, (h.call hR .close).congr fun k _ _ => ?_⟩
    cases k <;> rfl
  | none =>
    refine kept_quitClients errors (h.congr fun k p hk => ?_)
    cases k
    case events =>
      rw [hR] at hk
      cases hk
    all_goals rfl

/-- `stand` is how resources stand before the worker is closed. -/
theorem kept_closeWorker (errors : List Failure) (h : Kept n R stand l)
    (hworker : R .worker ≠ none → stand .worker = .opened ∨ stand .worker = .paused)
    (hstand : ∀ k, k ≠ .worker → stand k = .opened) :
    (closeWorker R errors l).1.resources = R ∧
    Kept n R (cleanupLife (closeWorker R errors l).1.stage) (closeWorker R errors l).2 := by
  unfold closeWorker
  cases hR : R .worker with
  | some p =>
    refine ⟨rfl, (h.call hR .close).congr fun k _ _ => ?_⟩
    by_cases hk : k = .worker
    · subst hk
      rw [Function.update_self]
      rcases hworker (by simp [hR]) with e | e
      · rw [e]; rfl
      · rw [e]; rfl
    · rw [Function.update_of_ne hk, hstand k hk]
      cases k
      case worker => exact absurd rfl hk
      all_goals rfl
  | none =>
    refine kept_closeEvents errors (h.congr fun k p hk => ?_)
    have hne : k ≠ .worker := by
      rintro rfl
      rw [hR] at hk
      cases hk
    rw [hstand k hne]
    cases k
    case worker => exact absurd rfl hne
    all_goals rfl

theorem kept_closeOwnedResources {processing : Bool} (h : Kept n R (fieldLife processing) l) :
    (closeOwnedResources R processing l).1.resources = R ∧
    Kept n R (cleanupLife (closeOwnedResources R processing l).1.stage)
      (closeOwnedResources R processing l).2 := by
  have hothers : ∀ k, k ≠ .worker → fieldLife processing k = .opened := by
    intro k hk
    cases k
    case worker => exact absurd rfl hk
    all_goals rfl
  unfold closeOwnedResources
  cases hR : R .worker with
  | none => exact kept_closeWorker [] h (fun hne => absurd hR hne) hothers
  | some p =>
    cases processing with
    | false => exact kept_closeWorker [] h (fun _ => .inl rfl) hothers
    | true =>
      refine ⟨rfl, (h.call hR .pause).congr fun k _ _ => ?_⟩
      cases k <;> rfl

/-- A client that was asked to quit stays closed. -/
theorem disconnect_eq {quits : ResourceKind → QuitState} {kind : ResourceKind}
    (h : Kept n c.resources (cleanupLife (.quit quits)) l) : c.disconnect kind l = l := by
  unfold disconnect
  cases hR : c.resources kind with
  | none => rfl
  | some p =>
    have hclosed : l ⟨kind, p⟩ = .closed := h.held ⟨kind, p⟩ hR
    show Function.update l _ _ = l
    rw [hclosed]
    exact Function.update_eq_self_iff.2 hclosed.symm

/-- A step of a cleanup begins the next stage, or a quit gets on. -/
theorem step_cases (hstep : c.step l e = some (c', l')) :
    (∃ errors, c.stage = .pause ∧ closeWorker c.resources errors l = (c', l')) ∨
    (∃ errors, c.stage = .closeWorker ∧ closeEvents c.resources errors l = (c', l')) ∨
    (∃ errors, c.stage = .closeEvents ∧ quitClients c.resources errors l = (c', l')) ∨
    ∃ quits kind Q, c.stage = .quit quits ∧
      c' = { c with stage := .quit (Function.update quits kind Q) } ∧
      Q.rank < (quits kind).rank ∧ (l' = l ∨ l' = c.disconnect kind l) := by
  obtain ⟨R, errors, stage⟩ := c
  cases e with
  | paused result =>
    cases stage with
    | pause => exact .inl ⟨_, rfl, Option.some.inj hstep⟩
    | _ => cases hstep
  | workerClosed result removeAllListeners =>
    cases stage with
    | closeWorker => exact .inr (.inl ⟨_, rfl, Option.some.inj hstep⟩)
    | _ => cases hstep
  | eventsClosed result removeAllListeners =>
    cases stage with
    | closeEvents => exact .inr (.inr (.inl ⟨_, rfl, Option.some.inj hstep⟩))
    | _ => cases hstep
  | quit kind result =>
    cases stage with
    | quit quits =>
      cases hquit : quits kind with
      | pending hard =>
        have hrank : (QuitState.settled result).rank < (quits kind).rank := by
          cases hard <;> simp [hquit, QuitState.rank]
        cases result with
        | ok _ =>
          simp only [step, hquit, Option.some.injEq, Prod.mk.injEq] at hstep
          exact .inr (.inr (.inr ⟨quits, kind, .settled _, rfl, hstep.1.symm, hrank,
            .inl hstep.2.symm⟩))
        | error _ =>
          simp only [step, hquit, Option.some.injEq, Prod.mk.injEq] at hstep
          exact .inr (.inr (.inr ⟨quits, kind, .settled _, rfl, hstep.1.symm, hrank,
            .inr hstep.2.symm⟩))
      | _ => simp [step, hquit] at hstep
    | _ => cases hstep
  | hard kind =>
    cases stage with
    | quit quits =>
      cases hquit : quits kind with
      | pending hard =>
        cases hard with
        | true =>
          simp only [step, hquit, Option.some.injEq, Prod.mk.injEq] at hstep
          exact .inr (.inr (.inr ⟨quits, kind, .pending false, rfl, hstep.1.symm,
            by simp [hquit, QuitState.rank], .inr hstep.2.symm⟩))
        | false => simp [step, hquit] at hstep
      | _ => simp [step, hquit] at hstep
    | _ => cases hstep

theorem kept_step (h : Kept n c.resources (cleanupLife c.stage) l)
    (hstep : c.step l e = some (c', l')) :
    c'.resources = c.resources ∧ Kept n c.resources (cleanupLife c'.stage) l' := by
  rcases step_cases hstep with ⟨errors, hstage, heq⟩ | ⟨errors, hstage, heq⟩ |
    ⟨errors, hstage, heq⟩ | ⟨quits, kind, Q, hstage, rfl, -, hl⟩
  · rw [hstage] at h
    have hkept := kept_closeWorker errors h (fun _ => .inr rfl) fun k hk => by
      cases k
      case worker => exact absurd rfl hk
      all_goals rfl
    rw [heq] at hkept
    exact hkept
  · rw [hstage] at h
    have hkept := kept_closeEvents errors h
    rw [heq] at hkept
    exact hkept
  · rw [hstage] at h
    have hkept := kept_quitClients errors h
    rw [heq] at hkept
    exact hkept
  · rw [hstage] at h
    have hsame : l' = l := by
      rcases hl with rfl | rfl
      · rfl
      · exact disconnect_eq h
    rw [hsame]
    exact ⟨rfl, h⟩

/-- When it returns, everything is closed. -/
theorem kept_result (h : Kept n c.resources (cleanupLife c.stage) l) {errors : List Failure}
    (hresult : c.result = some errors) : Kept n .none stand l := by
  obtain ⟨R, errors', stage⟩ := c
  cases stage with
  | quit quits =>
    refine kept_none (fun r => ?_) h.fresh
    by_cases hr : R.Has r
    · exact .inr (h.held r hr)
    · exact h.rest r hr
  | _ => cases hresult

/-- With empty hands a cleanup asks for nothing. -/
theorem quitClients_none (errors : List Failure) (l : Lives) :
    (quitClients .none errors l).1.resources = .none ∧ (quitClients .none errors l).2 = l := by
  refine ⟨rfl, funext fun r => if_neg ?_⟩
  rintro ⟨-, hr⟩
  cases hr

theorem closeOwnedResources_none (processing : Bool) (l : Lives) :
    (closeOwnedResources .none processing l).1.resources = .none ∧
    (closeOwnedResources .none processing l).2 = l := quitClients_none [] l

theorem step_none (hnone : c.resources = .none) (hstep : c.step l e = some (c', l')) :
    c'.resources = .none ∧ l' = l := by
  have hquit : ∀ errors, quitClients .none errors l = (c', l') →
      c'.resources = .none ∧ l' = l := fun errors heq => by
    have h := quitClients_none errors l
    rw [heq] at h
    exact h
  rcases step_cases hstep with ⟨errors, -, heq⟩ | ⟨errors, -, heq⟩ | ⟨errors, -, heq⟩ |
    ⟨quits, kind, Q, -, rfl, -, hl⟩
  · rw [hnone] at heq
    exact hquit errors heq
  · rw [hnone] at heq
    exact hquit errors heq
  · rw [hnone] at heq
    exact hquit errors heq
  · refine ⟨hnone, ?_⟩
    rcases hl with rfl | rfl
    · rfl
    · unfold disconnect
      rw [hnone]
      rfl

end ResourceCleanup

end

/-! ## The consumer -/

/-- Where a preparation stands; `rejected` is before the handler of its rejection. -/
inductive Preparation where
  | waitUntilReady
  | startStalledCheckTimer
  | rejected (error : Failure)
  | cleaning (error : Failure) (cleanup : ResourceCleanup)
  | settled (outcome : Except Failure Unit)

/-- Its promise has not settled. -/
def Preparation.isOpen : Preparation → Bool
  | .settled _ => false
  | _ => true

/-- A call of `startProcessing`, with the preparation it waits for or its rejection. -/
inductive StartCall where
  | awaiting (preparation : Except Failure ℕ)
  | settled (outcome : Except Failure Unit)

/-- A call of `worker.run()`; `handled` is behind `handleRunTermination`. -/
inductive RunLoop where
  | running
  | ended (termination : ConsumerRunTermination)
  | handled

/-- Where `closeResources` stands: in its cleanup, in its wait for what it found, or settled. -/
inductive ConsumerClosing where
  | cleaning (cleanup : ResourceCleanup)
  | awaiting (errors : List Failure)
  | settled (outcome : Except Failure Unit)

/-- The call of `closeResources`, with the promises it found. -/
structure ConsumerClose where
  preparation : Option ℕ
  run : Option ℕ
  phase : ConsumerClosing

/-- Preparations, starts and runs are never forgotten; `notified` is every call of a listener. -/
structure OrdersConsumer where
  resources : ConsumerResources
  preparationPromise : Option ℕ
  startPromise : Option ℕ
  runPromise : Option ℕ
  closePromise : Option ConsumerClose
  processingReady : Bool
  closing : Bool
  terminationListeners : JsSet ℕ
  preparations : List Preparation
  starts : List StartCall
  runs : List RunLoop
  notified : List ℕ
  life : Lives

namespace OrdersConsumer

/-- The consumer as it is constructed. -/
def initial : OrdersConsumer :=
  ⟨.none, none, none, none, none, false, false, .empty, [], [], [], [],
    fun _ => .absent⟩

/-- The constructors of `prepareResources` in their order. -/
def CONSTRUCTED : List ResourceKind := [.redis, .eventsRedis, .worker, .events]

/-- `prepareResources` up to its first wait. With a fault `(n, error)` it throws `error` after `n`
constructors have returned. -/
def prepareResources (s : OrdersConsumer) (fault : Option (ℕ × Failure)) : OrdersConsumer :=
  let made := match fault with
    | some (n, _) => CONSTRUCTED.take n
    | none => CONSTRUCTED
  { s with
    resources := fun kind => if kind ∈ made then some s.preparations.length else s.resources kind
    life := fun r =>
      if r.preparation = s.preparations.length ∧ r.kind ∈ made then (s.life r).create else s.life r
    preparations := s.preparations ++ [match fault with
      | some (_, error) => .rejected error
      | none => .waitUntilReady] }

/-- The preparation whose promise the caller gets, or the rejection. -/
def prepareForBootstrapRecovery (s : OrdersConsumer) (fault : Option (ℕ × Failure)) :
    Except Failure ℕ × OrdersConsumer :=
  match s.preparationPromise with
  | some p => (.ok p, s)
  | none =>
    if s.closing then (.error (.error "orders consumer is closing"), s)
    else (.ok s.preparations.length,
      { s.prepareResources fault with preparationPromise := some s.preparations.length })

/-- `start`, up to the wait of `startProcessing`. -/
def start (s : OrdersConsumer) (fault : Option (ℕ × Failure)) : OrdersConsumer :=
  match s.startPromise with
  | some _ => s
  | none =>
    let prepared := s.prepareForBootstrapRecovery fault
    { prepared.2 with
      startPromise := some s.starts.length
      starts := s.starts ++ [.awaiting prepared.1] }

/-- The preparations once this one has got on. -/
def withPreparation (s : OrdersConsumer) (p : ℕ) (P : Preparation) : List Preparation :=
  s.preparations.modify p fun _ => P

/-- A preparation gets on. -/
def setPreparation (s : OrdersConsumer) (p : ℕ) (P : Preparation) : OrdersConsumer :=
  { s with preparations := s.withPreparation p P }

/-- The starts once this one has settled. -/
def withStart (s : OrdersConsumer) (i : ℕ) (outcome : Except Failure Unit) : List StartCall :=
  s.starts.modify i fun _ => .settled outcome

/-- A start settles. -/
def setStart (s : OrdersConsumer) (i : ℕ) (outcome : Except Failure Unit) : OrdersConsumer :=
  { s with starts := s.withStart i outcome }

/-- The runs once this one has got on. -/
def withRun (s : OrdersConsumer) (i : ℕ) (R : RunLoop) : List RunLoop := s.runs.modify i fun _ => R

/-- What `prepareResources` throws behind either of its waits. -/
def closedDuringPreparation : Failure := .error "orders consumer closed during preparation"

/-- The worker and its events are ready, or one of them is not. -/
def ready (s : OrdersConsumer) (p : ℕ) (result : Except Failure Unit) : Option OrdersConsumer :=
  match s.preparations[p]? with
  | some .waitUntilReady =>
    match result with
    | .error e => some (s.setPreparation p (.rejected e))
    | .ok _ =>
      if s.closing then some (s.setPreparation p (.rejected closedDuringPreparation))
      else some { s with
        preparations := s.withPreparation p .startStalledCheckTimer
        life := s.life.call ⟨.worker, p⟩ .startStalledCheckTimer }
  | _ => none

/-- The end of `prepareResources`. -/
def timerStarted (s : OrdersConsumer) (p : ℕ) (result : Except Failure Unit) :
    Option OrdersConsumer :=
  match s.preparations[p]? with
  | some .startStalledCheckTimer =>
    match result with
    | .error e => some (s.setPreparation p (.rejected e))
    | .ok _ =>
      if s.closing then some (s.setPreparation p (.rejected closedDuringPreparation))
      else some (s.setPreparation p (.settled (.ok ())))
  | _ => none

/-- The handler of a failed preparation takes the resources and begins to close them. -/
def catchPreparation (s : OrdersConsumer) (p : ℕ) : Option OrdersConsumer :=
  match s.preparations[p]? with
  | some (.rejected e) =>
    let begun := ResourceCleanup.closeOwnedResources s.resources false s.life
    some { s with
      preparations := s.withPreparation p (.cleaning e begun.1)
      resources := .none
      life := begun.2 }
  | _ => none

/-- The handler has closed the resources and rejects. -/
def failPreparation (s : OrdersConsumer) (p : ℕ) : Option OrdersConsumer :=
  match s.preparations[p]? with
  | some (.cleaning e c) => c.result.map fun errors =>
    { s with
      preparations := s.withPreparation p (.settled (.error (if errors.isEmpty then e
        else .aggregate (e :: errors) "orders consumer preparation and cleanup failed")))
      preparationPromise := none }
  | _ => none

/-- What settles in the cleanup of a preparation, or in that of `close`. -/
def cleanup (s : OrdersConsumer) (owner : Option ℕ) (e : ResourceCleanup.Event) :
    Option OrdersConsumer :=
  match owner with
  | some p =>
    match s.preparations[p]? with
    | some (.cleaning error c) => (c.step s.life e).map fun next =>
      { s with preparations := s.withPreparation p (.cleaning error next.1), life := next.2 }
    | _ => none
  | none =>
    match s.closePromise with
    | some ⟨preparation, run, .cleaning c⟩ => (c.step s.life e).map fun next =>
      { s with closePromise := some ⟨preparation, run, .cleaning next.1⟩, life := next.2 }
    | _ => none

/-- `startProcessing` behind its wait: `isRunning` is what the worker says after `run`. -/
def resumeStart (s : OrdersConsumer) (i : ℕ) (isRunning : Bool) : Option OrdersConsumer :=
  match s.starts[i]? with
  | some (.awaiting (.error e)) => some (s.setStart i (.error e))
  | some (.awaiting (.ok p)) =>
    match s.preparations[p]? with
    | some (.settled (.error e)) => some (s.setStart i (.error e))
    | some (.settled (.ok _)) =>
      if s.closing then some (s.setStart i (.error (.error "orders consumer is closing")))
      else match s.resources .worker with
        | none => some (s.setStart i
            (.error (.error "orders consumer preparation completed without a Worker")))
        | some q =>
          -- when the loop did not start, the consumer is as ready as before
          some { s with
            life := s.life.call ⟨.worker, q⟩ .run
            runPromise := some s.runs.length
            runs := s.runs ++ [.running]
            processingReady := isRunning || s.processingReady
            starts := s.withStart i (if isRunning then .ok ()
              else .error (.error "orders consumer run loop did not start")) }
    | _ => none
  | _ => none

/-- The promise of `worker.run()` settles. -/
def runEnds (s : OrdersConsumer) (i : ℕ) (termination : ConsumerRunTermination) :
    Option OrdersConsumer :=
  match s.runs[i]? with
  | some .running => some { s with runs := s.withRun i (.ended termination) }
  | _ => none

/-- A listener that throws is only logged, so each of them is called. -/
def handleRunTermination (s : OrdersConsumer) (i : ℕ) : Option OrdersConsumer :=
  match s.runs[i]? with
  | some (.ended _) =>
    if s.closing then some { s with runs := s.withRun i .handled }
    else some { s with
      runs := s.withRun i .handled
      processingReady := false
      notified := s.notified ++ s.terminationListeners.values }
  | _ => none

/-- `closeResources` up to its first wait. -/
def close (s : OrdersConsumer) : OrdersConsumer :=
  match s.closePromise with
  | some _ => s
  | none =>
    let begun := ResourceCleanup.closeOwnedResources s.resources s.runPromise.isSome s.life
    { s with
      closing := true
      processingReady := false
      resources := .none
      life := begun.2
      closePromise := some ⟨s.preparationPromise, s.runPromise, .cleaning begun.1⟩ }

/-- The preparation `close` found has settled. -/
def preparationOver (s : OrdersConsumer) : Option ℕ → Bool
  | none => true
  | some p => s.preparations[p]?.any fun P => !P.isOpen

/-- The run `close` found has settled and is handled. -/
def runOver (s : OrdersConsumer) : Option ℕ → Bool
  | none => true
  | some i => match s.runs[i]? with
    | some .handled => true
    | _ => false

/-- The next piece of `closeResources`. -/
def resumeClose (s : OrdersConsumer) : Option OrdersConsumer :=
  match s.closePromise with
  | some ⟨preparation, run, .cleaning c⟩ => c.result.map fun errors =>
    { s with closePromise := some ⟨preparation, run, .awaiting errors⟩ }
  | some ⟨preparation, run, .awaiting errors⟩ =>
    if s.preparationOver preparation && s.runOver run then
      some { s with
        preparationPromise := none
        startPromise := none
        runPromise := none
        terminationListeners := .empty
        closePromise := some ⟨preparation, run, .settled (if errors.isEmpty then .ok ()
          else .error (.aggregate errors "orders consumer shutdown failed"))⟩ }
    else none
  | _ => none

/-- A call, the next piece of one, or what settles outside. -/
inductive Event where
  | prepare (fault : Option (ℕ × Failure))
  | start (fault : Option (ℕ × Failure))
  | close
  | subscribe (listener : ℕ)
  | unsubscribe (listener : ℕ)
  | ready (p : ℕ) (result : Except Failure Unit)
  | timerStarted (p : ℕ) (result : Except Failure Unit)
  | catchPreparation (p : ℕ)
  | failPreparation (p : ℕ)
  | cleanup (owner : Option ℕ) (e : ResourceCleanup.Event)
  | resumeStart (i : ℕ) (isRunning : Bool)
  | runEnds (i : ℕ) (termination : ConsumerRunTermination)
  | handleRunTermination (i : ℕ)
  | resumeClose

/-- One event; `none` if it cannot happen. -/
def step (s : OrdersConsumer) : Event → Option OrdersConsumer
  | .prepare fault => some (s.prepareForBootstrapRecovery fault).2
  | .start fault => some (s.start fault)
  | .close => some s.close
  | .subscribe listener => some { s with
      terminationListeners := s.terminationListeners.add listener }
  | .unsubscribe listener => some { s with
      terminationListeners := s.terminationListeners.delete listener }
  | .ready p result => s.ready p result
  | .timerStarted p result => s.timerStarted p result
  | .catchPreparation p => s.catchPreparation p
  | .failPreparation p => s.failPreparation p
  | .cleanup owner e => s.cleanup owner e
  | .resumeStart i isRunning => s.resumeStart i isRunning
  | .runEnds i termination => s.runEnds i termination
  | .handleRunTermination i => s.handleRunTermination i
  | .resumeClose => s.resumeClose

end OrdersConsumer

end FlashSale
