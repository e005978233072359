import FlashSale.Worker.ConsumerInvariant

/-!
# The consumer over whole runs

A run is any order of the calls and of what they wait for. No resource is ever asked for something
out of turn (`resources_in_turn`), a `close` that has returned is final (`closed_for_good`), and it
does return: each call makes a few events possible, and when none is left nobody waits (`nobody_waits`).
-/

namespace FlashSale

/-- It was made and has not been asked to close. -/
def ResourceLife.isOpen : ResourceLife → Bool
  | .absent | .closed => false
  | _ => true

theorem ResourceLife.isOpen_iff {life : ResourceLife} :
    life.isOpen = false ↔ life = .absent ∨ life = .closed := by
  cases life <;> simp [isOpen]

/-! ## What an event gets on with -/

/-- The events it can still take, at most. -/
def CleanupStage.rank : CleanupStage → ℕ
  | .pause => 7
  | .closeWorker => 6
  | .closeEvents => 5
  | .quit quits => (quits .redis).rank + (quits .eventsRedis).rank + (quits .worker).rank +
      (quits .events).rank

def Preparation.rank : Preparation → ℕ
  | .waitUntilReady => 11
  | .startStalledCheckTimer => 10
  | .rejected _ => 9
  | .cleaning _ c => c.stage.rank + 1
  | .settled _ => 0

/-- A start counts for the run it may begin. -/
def StartCall.rank : StartCall → ℕ
  | .awaiting _ => 3
  | .settled _ => 0

def RunLoop.rank : RunLoop → ℕ
  | .running => 2
  | .ended _ => 1
  | .handled => 0

def ConsumerClosing.rank : ConsumerClosing → ℕ
  | .cleaning c => c.stage.rank + 2
  | .awaiting _ => 1
  | .settled _ => 0

namespace ResourceCleanup

variable {c c' : ResourceCleanup} {e : Event} {l l' : Lives}

theorem rank_quitClients (R : ConsumerResources) (errors : List Failure) (l : Lives) :
    (quitClients R errors l).1.stage.rank ≤ 4 := by
  have hquit : ∀ kind : ResourceKind,
      (if kind.isClient && (R kind).isSome then QuitState.pending true else .absent).rank ≤ 2 := by
    intro kind
    split_ifs <;> simp [QuitState.rank]
  have h := hquit .redis
  have h' := hquit .eventsRedis
  simp only [quitClients, CleanupStage.rank, QuitState.rank, ResourceKind.isClient] at h h' ⊢
  simp only [Bool.false_and, Bool.false_eq_true, if_false]
  omega

theorem rank_closeEvents (R : ConsumerResources) (errors : List Failure) (l : Lives) :
    (closeEvents R errors l).1.stage.rank ≤ 5 := by
  unfold closeEvents
  split
  · exact le_rfl
  · exact (rank_quitClients R errors l).trans (by omega)

theorem rank_closeWorker (R : ConsumerResources) (errors : List Failure) (l : Lives) :
    (closeWorker R errors l).1.stage.rank ≤ 6 := by
  unfold closeWorker
  split
  · exact le_rfl
  · exact (rank_closeEvents R errors l).trans (by omega)

theorem rank_closeOwnedResources (R : ConsumerResources) (processing : Bool) (l : Lives) :
    (closeOwnedResources R processing l).1.stage.rank ≤ 7 := by
  unfold closeOwnedResources
  split
  · exact le_rfl
  · exact (rank_closeWorker R [] l).trans (by omega)

theorem rank_step (hstep : c.step l e = some (c', l')) : c'.stage.rank < c.stage.rank := by
  rcases step_cases hstep with ⟨errors, hstage, heq⟩ | ⟨errors, hstage, heq⟩ |
    ⟨errors, hstage, heq⟩ | ⟨quits, kind, Q, hstage, rfl, hrank, -⟩
  · have hle := rank_closeWorker c.resources errors l
    rw [heq] at hle
    rw [hstage]
    exact Nat.lt_succ_of_le hle
  · have hle := rank_closeEvents c.resources errors l
    rw [heq] at hle
    rw [hstage]
    exact Nat.lt_succ_of_le hle
  · have hle := rank_quitClients c.resources errors l
    rw [heq] at hle
    rw [hstage]
    exact Nat.lt_succ_of_le hle
  · rw [hstage]
    have hother : ∀ {k : ResourceKind}, k ≠ kind → Function.update quits kind Q k = quits k :=
      fun hk => Function.update_of_ne hk ..
    simp only [CleanupStage.rank]
    cases kind
    all_goals
      simp only [Function.update_self, ne_eq, reduceCtorEq, not_false_eq_true, hother]
      omega

/-- A cleanup that has not returned has something under way. -/
theorem step_of_result (hresult : c.result = none) (l : Lives) :
    ∃ e, c.step l e ≠ none := by
  obtain ⟨R, errors, stage⟩ := c
  cases stage with
  | pause => exact ⟨.paused (.ok ()), by simp [step]⟩
  | closeWorker => exact ⟨.workerClosed (.ok ()) (.ok ()), by simp [step]⟩
  | closeEvents => exact ⟨.eventsClosed (.ok ()) (.ok ()), by simp [step]⟩
  | quit quits =>
    have hquit : ∀ {kind hard}, quits kind = .pending hard →
        ∃ e, step ⟨R, errors, .quit quits⟩ l e ≠ none := fun {kind hard} hk =>
      ⟨.quit kind (.ok ()), by simp [step, hk]⟩
    cases hredis : quits .redis with
    | pending hard => exact hquit hredis
    | absent =>
      cases hevents : quits .eventsRedis with
      | pending hard => exact hquit hevents
      | _ => simp [result, hredis, hevents] at hresult
    | settled o =>
      cases hevents : quits .eventsRedis with
      | pending hard => exact hquit hevents
      | _ => simp [result, hredis, hevents] at hresult

end ResourceCleanup

namespace OrdersConsumer

variable {s s' : OrdersConsumer} {p : ℕ} {P P' : Preparation} {es fs : List Event}

/-! ## In turn -/

theorem fieldLife_ne (started : Bool) (k : ResourceKind) : fieldLife started k ≠ .misused := by
  cases started <;> cases k <;> simp [fieldLife]

theorem cleanupLife_ne (stage : CleanupStage) (k : ResourceKind) :
    cleanupLife stage k ≠ .misused := by
  cases stage <;> cases k <;> simp [cleanupLife]

/-- Whoever has the resources, none of them is misused and all are of one preparation. -/
theorem Inv.kept (h : s.Inv) : ∃ R stand, Kept s.preparations.length R stand s.life ∧
    ∀ k, stand k ≠ .misused := by
  rcases h.custody with ⟨hk, -, -⟩ | ⟨q, e, c, -, hk, -⟩ | ⟨a, b, c, -, hk, -⟩
  · exact ⟨_, _, hk, fieldLife_ne _⟩
  · exact ⟨_, _, hk, cleanupLife_ne _⟩
  · exact ⟨_, _, hk, cleanupLife_ne _⟩

theorem Inv.open_together (h : s.Inv) {r r' : ConsumerResource} (hr : (s.life r).isOpen = true)
    (hr' : (s.life r').isOpen = true) : r.preparation = r'.preparation := by
  obtain ⟨R, stand, hk, -⟩ := h.kept
  have hhas : ∀ r, (s.life r).isOpen = true → R.Has r := by
    intro r hr
    by_contra hn
    rw [ResourceLife.isOpen_iff.2 (hk.rest r hn)] at hr
    cases hr
  exact hk.together (hhas r hr) (hhas r' hr')

/-- Empty fields that nobody took mean that nothing is open. -/
theorem Inv.closed_of_unprepared (h : s.Inv) (hp : s.preparationPromise = none)
    (hc : s.closing = false) (r : ConsumerResource) : (s.life r).isOpen = false := by
  rw [ResourceLife.isOpen_iff]
  rcases h.custody with ⟨hk, -, -⟩ | ⟨q, e, c, hq, -, -⟩ | ⟨a, b, c, hC, -, -⟩
  · rw [h.unprepared hp] at hk
    exact hk.of_none r
  · have hopened := (h.opened q _ hq rfl).1
    rw [hp] at hopened
    cases hopened
  · rw [h.closePromise_none hc] at hC
    cases hC

/-- A consumer that says it is ready has a worker that was asked to run and whose run has not been
seen to end, and no `close` has begun. -/
theorem Inv.started_of_ready (h : s.Inv) (hready : s.processingReady = true) :
    s.closing = false ∧
    (∃ p, s.resources .worker = some p ∧ s.life ⟨.worker, p⟩ = .started) ∧
    ∃ R, s.runs = [R] ∧ R ≠ .handled := by
  obtain ⟨hrun, ⟨p, hp⟩, hlive⟩ := h.ready hready
  have hC : s.closePromise = none := by
    cases hC : s.closePromise with
    | none => rfl
    | some C =>
      have hfalse := (h.stopped (by rw [hC]; rfl)).2.2
      rw [hready] at hfalse
      cases hfalse
  refine ⟨h.going hC, ⟨p, hp, ?_⟩, ?_⟩
  · rcases h.custody with ⟨hk, -, -⟩ | ⟨q, e, c, hq, -, -⟩ | ⟨a, b, c, hC', -, -⟩
    · rw [hk.held ⟨.worker, p⟩ hp, hrun]
      rfl
    · rw [h.cleaning q e c hq] at hp
      cases hp
    · rw [hC] at hC'
      cases hC'
  · obtain ⟨i, hi⟩ := Option.isSome_iff_exists.1 hrun
    have hlt := (h.run i hi).1
    have hsingle := h.single
    obtain ⟨R, hruns⟩ := List.length_eq_one_iff.1 (by omega : s.runs.length = 1)
    exact ⟨R, hruns, hlive 0 R (by rw [hruns]; rfl)⟩

/-- In every run each resource is asked in turn: made once, asked to run at most once, paused only
once it was asked to run, closed once, disconnected only behind its `quit`. What is open is of one
preparation, and a failed preparation leaves nothing open to the next one. A consumer that is ready
has asked its worker to run, and has not handled the end of that run. There is at most one run, so
that each listener hears of at most one end. -/
theorem resources_in_turn (hrun : Machine.run OrdersConsumer.step initial es = some s) :
    (∀ r, s.life r ≠ .misused) ∧
    (∀ r r', (s.life r).isOpen = true → (s.life r').isOpen = true →
      r.preparation = r'.preparation) ∧
    (s.preparationPromise = none → s.closing = false → ∀ r, (s.life r).isOpen = false) ∧
    (s.processingReady = true → s.closing = false ∧
      (∃ p, s.resources .worker = some p ∧ s.life ⟨.worker, p⟩ = .started) ∧
      ∃ R, s.runs = [R] ∧ R ≠ .handled) ∧
    s.runs.length ≤ 1 ∧ s.notified.Nodup := by
  have h := inv_run hrun
  obtain ⟨R, stand, hk, hstand⟩ := h.kept
  exact ⟨hk.misused_ne hstand, fun _ _ => h.open_together, h.closed_of_unprepared,
    h.started_of_ready, h.single, h.notified.1⟩

/-- The last constructor of a preparation throws and so does a `quit` of its cleanup; the start
after it prepares once more. -/
def preparedTwice : List Event :=
  [.prepare (some (3, .upstream)), .catchPreparation 0,
    .cleanup (some 0) (.workerClosed (.ok ()) (.ok ())), .cleanup (some 0) (.hard .redis),
    .cleanup (some 0) (.quit .redis (.error .upstream)),
    .cleanup (some 0) (.quit .eventsRedis (.ok ())), .failPreparation 0, .subscribe 7,
    .start none, .ready 1 (.ok ()), .timerStarted 1 (.ok ()), .resumeStart 0 true]

theorem resources_in_turn_preparedTwice : ∃ s,
    Machine.run OrdersConsumer.step initial preparedTwice = some s ∧
    (s.life ⟨.worker, 0⟩ = .closed ∧ s.life ⟨.redis, 0⟩ ≠ .misused) ∧
    s.processingReady = true ∧ s.closing = false :=
  have h := resources_in_turn
    (show Machine.run OrdersConsumer.step initial preparedTwice = some _ from rfl)
  ⟨_, rfl, ⟨rfl, h.1 _⟩, rfl, (h.2.2.2.1 rfl).1⟩

def Event.isCall : Event → Bool
  | .prepare _ | .start _ | .close | .subscribe _ | .unsubscribe _ => true
  | _ => false

/-- What one of the other events gets on with: an open preparation, a start that waits, a run, or
`close`. -/
inductive Advance (s s' : OrdersConsumer) : Prop where
  | preparation {p : ℕ} {P : Preparation} (P' : Preparation) (hP : s.preparations[p]? = some P)
      (hopen : P.isOpen = true) (hrank : P'.rank < P.rank)
      (hpreparations : s'.preparations = s.withPreparation p P') (hstarts : s'.starts = s.starts)
      (hruns : s'.runs = s.runs) (hclose : s'.closePromise = s.closePromise)
  | start {i : ℕ} {q : Except Failure ℕ} {outcome : Except Failure Unit}
      (hi : s.starts[i]? = some (.awaiting q)) (hset : s' = s.setStart i outcome)
  | begin {i : ℕ} {q : Except Failure ℕ} {outcome : Except Failure Unit}
      (hi : s.starts[i]? = some (.awaiting q)) (hclosing : s.closing = false)
      (hpreparations : s'.preparations = s.preparations)
      (hstarts : s'.starts = s.withStart i outcome) (hruns : s'.runs = s.runs ++ [.running])
      (hclose : s'.closePromise = s.closePromise)
  | run {i : ℕ} {R : RunLoop} (R' : RunLoop) (hR : s.runs[i]? = some R) (hne : R ≠ .handled)
      (hrank : R'.rank < R.rank) (hpreparations : s'.preparations = s.preparations)
      (hstarts : s'.starts = s.starts) (hruns : s'.runs = s.withRun i R')
      (hclose : s'.closePromise = s.closePromise)
  | close {C : ConsumerClose} (C' : ConsumerClose) (hC : s.closePromise = some C)
      (hrank : C'.phase.rank < C.phase.rank) (hpreparations : s'.preparations = s.preparations)
      (hstarts : s'.starts = s.starts) (hruns : s'.runs = s.runs)
      (hclose : s'.closePromise = some C')

theorem Advance.setPreparation (hP : s.preparations[p]? = some P) (hopen : P.isOpen = true)
    (hrank : P'.rank < P.rank) : s.Advance (s.setPreparation p P') :=
  .preparation P' hP hopen hrank rfl rfl rfl rfl

theorem advance_ready {result : Except Failure Unit} (hstep : s.ready p result = some s') :
    s.Advance s' := by
  unfold OrdersConsumer.ready at hstep
  split at hstep
  next hP =>
    split at hstep
    · obtain rfl := Option.some.inj hstep
      exact .setPreparation hP rfl (by simp [Preparation.rank])
    · split_ifs at hstep
      · obtain rfl := Option.some.inj hstep
        exact .setPreparation hP rfl (by simp [Preparation.rank])
      · obtain rfl := Option.some.inj hstep
        exact .preparation .startStalledCheckTimer hP rfl (by simp [Preparation.rank]) rfl rfl rfl
          rfl
  · cases hstep

theorem advance_timerStarted {result : Except Failure Unit}
    (hstep : s.timerStarted p result = some s') : s.Advance s' := by
  unfold OrdersConsumer.timerStarted at hstep
  split at hstep
  next hP =>
    split at hstep
    · obtain rfl := Option.some.inj hstep
      exact .setPreparation hP rfl (by simp [Preparation.rank])
    · split_ifs at hstep
      · obtain rfl := Option.some.inj hstep
        exact .setPreparation hP rfl (by simp [Preparation.rank])
      · obtain rfl := Option.some.inj hstep
        exact .setPreparation hP rfl (by simp [Preparation.rank])
  · cases hstep

theorem advance_catchPreparation (hstep : s.catchPreparation p = some s') : s.Advance s' := by
  unfold OrdersConsumer.catchPreparation at hstep
  split at hstep
  next e hP =>
    obtain rfl := Option.some.inj hstep
    refine .preparation _ hP rfl ?_ rfl rfl rfl rfl
    have hle := ResourceCleanup.rank_closeOwnedResources s.resources false s.life
    show (ResourceCleanup.closeOwnedResources s.resources false s.life).1.stage.rank + 1 < 9
    omega
  · cases hstep

theorem advance_failPreparation (hstep : s.failPreparation p = some s') : s.Advance s' := by
  unfold OrdersConsumer.failPreparation at hstep
  split at hstep
  next e c hP =>
    obtain ⟨errors, -, rfl⟩ := Option.map_eq_some_iff.1 hstep
    refine .preparation _ hP rfl ?_ rfl rfl rfl rfl
    exact Nat.succ_pos _
  · cases hstep

theorem advance_cleanup {owner : Option ℕ} {e : ResourceCleanup.Event}
    (hstep : s.cleanup owner e = some s') : s.Advance s' := by
  unfold OrdersConsumer.cleanup at hstep
  cases owner with
  | some p =>
    dsimp only at hstep
    split at hstep
    next error c hP =>
      obtain ⟨⟨c', l⟩, hc', rfl⟩ := Option.map_eq_some_iff.1 hstep
      exact .preparation (.cleaning error c') hP rfl
        (Nat.succ_lt_succ (ResourceCleanup.rank_step hc')) rfl rfl rfl rfl
    · cases hstep
  | none =>
    dsimp only at hstep
    split at hstep
    next a b c hC =>
      obtain ⟨⟨c', l⟩, hc', rfl⟩ := Option.map_eq_some_iff.1 hstep
      exact .close ⟨a, b, .cleaning c'⟩ hC
        (Nat.add_lt_add_right (ResourceCleanup.rank_step hc') 2) rfl rfl rfl rfl
    · cases hstep

theorem advance_resumeStart {i : ℕ} {isRunning : Bool}
    (hstep : s.resumeStart i isRunning = some s') : s.Advance s' := by
  unfold OrdersConsumer.resumeStart at hstep
  split at hstep
  next hi =>
    obtain rfl := Option.some.inj hstep
    exact .start hi rfl
  next p hi =>
    split at hstep
    · obtain rfl := Option.some.inj hstep
      exact .start hi rfl
    · by_cases hclosing : s.closing = true
      · rw [if_pos hclosing] at hstep
        obtain rfl := Option.some.inj hstep
        exact .start hi rfl
      · rw [if_neg hclosing] at hstep
        split at hstep
        · obtain rfl := Option.some.inj hstep
          exact .start hi rfl
        · obtain rfl := Option.some.inj hstep
          exact .begin hi (by simpa using hclosing) rfl rfl rfl rfl
    · cases hstep
  · cases hstep

theorem advance_runEnds {i : ℕ} {termination : ConsumerRunTermination}
    (hstep : s.runEnds i termination = some s') : s.Advance s' := by
  unfold OrdersConsumer.runEnds at hstep
  split at hstep
  next hR =>
    obtain rfl := Option.some.inj hstep
    exact .run (.ended termination) hR (by simp) (by simp [RunLoop.rank]) rfl rfl rfl rfl
  · cases hstep

theorem advance_handleRunTermination {i : ℕ} (hstep : s.handleRunTermination i = some s') :
    s.Advance s' := by
  unfold OrdersConsumer.handleRunTermination at hstep
  split at hstep
  next t hR =>
    split_ifs at hstep
    · obtain rfl := Option.some.inj hstep
      exact .run .handled hR (by simp) (by simp [RunLoop.rank]) rfl rfl rfl rfl
    · obtain rfl := Option.some.inj hstep
      exact .run .handled hR (by simp) (by simp [RunLoop.rank]) rfl rfl rfl rfl
  · cases hstep

theorem advance_resumeClose (hstep : s.resumeClose = some s') : s.Advance s' := by
  unfold OrdersConsumer.resumeClose at hstep
  split at hstep
  next a b c hC =>
    obtain ⟨errors, -, rfl⟩ := Option.map_eq_some_iff.1 hstep
    refine .close ⟨a, b, .awaiting errors⟩ hC ?_ rfl rfl rfl rfl
    show 1 < c.stage.rank + 2
    omega
  next a b errors hC =>
    by_cases hover : (s.preparationOver a && s.runOver b) = true
    · rw [if_pos hover] at hstep
      obtain rfl := Option.some.inj hstep
      refine .close _ hC ?_ rfl rfl rfl rfl
      exact Nat.zero_lt_one
    · rw [if_neg hover] at hstep
      cases hstep
  · cases hstep

theorem advance {e : Event} (he : e.isCall = false) (hstep : s.step e = some s') :
    s.Advance s' := by
  cases e with
  | ready p result => exact advance_ready hstep
  | timerStarted p result => exact advance_timerStarted hstep
  | catchPreparation p => exact advance_catchPreparation hstep
  | failPreparation p => exact advance_failPreparation hstep
  | cleanup owner e => exact advance_cleanup hstep
  | resumeStart i isRunning => exact advance_resumeStart hstep
  | runEnds i termination => exact advance_runEnds hstep
  | handleRunTermination i => exact advance_handleRunTermination hstep
  | resumeClose => exact advance_resumeClose hstep
  | _ => cases he

/-! ## After `close` -/

/-- No more than calls of `start` and listeners are written down. -/
def Frozen (s s' : OrdersConsumer) : Prop :=
  ∃ promise starts listeners,
    s' = { s with startPromise := promise, starts := starts, terminationListeners := listeners }

theorem Frozen.refl (s : OrdersConsumer) : Frozen s s := ⟨_, _, _, rfl⟩

theorem Frozen.trans {s'' : OrdersConsumer} (h : Frozen s s') (h' : Frozen s' s'') :
    Frozen s s'' := by
  obtain ⟨_, _, _, rfl⟩ := h
  obtain ⟨_, _, _, rfl⟩ := h'
  exact ⟨_, _, _, rfl⟩

theorem Inv.closed_of_idle (h : s.Inv) {a b : Option ℕ} {o : Except Failure Unit}
    (hC : s.closePromise = some ⟨a, b, .settled o⟩) (r : ConsumerResource) :
    (s.life r).isOpen = false := by
  rw [ResourceLife.isOpen_iff]
  rcases h.custody with ⟨hk, -, -⟩ | ⟨q, e, c, hq, -, -⟩ | ⟨a', b', c, hC', -, -⟩
  · rw [(h.stopped (by rw [hC]; rfl)).2.1] at hk
    exact hk.of_none r
  · cases (h.idle a b o hC).2.1 q _ hq
  · rw [hC] at hC'
    cases hC'

theorem Inv.frozen_step (h : s.Inv) {a b : Option ℕ} {o : Except Failure Unit}
    (hC : s.closePromise = some ⟨a, b, .settled o⟩) {e : Event} (hstep : s.step e = some s') :
    Frozen s s' := by
  obtain ⟨hprepared, hclosed, hhandled⟩ := h.idle a b o hC
  have hclosing := (h.stopped (by rw [hC]; rfl)).1
  cases he : e.isCall with
  | false =>
    cases advance he hstep with
    | preparation P' hP hopen =>
      rw [hclosed _ _ hP] at hopen
      cases hopen
    | start hi hset => exact ⟨_, _, _, hset⟩
    | begin hi hgoing =>
      rw [hclosing] at hgoing
      cases hgoing
    | run R' hR hne => exact absurd (hhandled _ _ hR) hne
    | close C' hC' hrank =>
      rw [hC] at hC'
      obtain rfl := Option.some.inj hC'
      cases hrank
  | true =>
    have hprepare : ∀ fault, (s.prepareForBootstrapRecovery fault).2 = s := fun fault => by
      unfold prepareForBootstrapRecovery
      rw [hprepared, hclosing]
      rfl
    cases e with
    | prepare fault =>
      obtain rfl := Option.some.inj hstep
      rw [hprepare]
      exact .refl s
    | start fault =>
      obtain rfl := Option.some.inj hstep
      unfold OrdersConsumer.start
      cases s.startPromise with
      | some i => exact .refl s
      | none =>
        dsimp only
        rw [hprepare]
        exact ⟨_, _, _, rfl⟩
    | close =>
      obtain rfl := Option.some.inj hstep
      unfold OrdersConsumer.close
      rw [hC]
      exact .refl s
    | subscribe listener =>
      obtain rfl := Option.some.inj hstep
      exact ⟨_, _, _, rfl⟩
    | unsubscribe listener =>
      obtain rfl := Option.some.inj hstep
      exact ⟨_, _, _, rfl⟩
    | _ => cases he

/-- Once `close` has returned, everything the consumer made was asked to close, no preparation and no
run goes on, and whatever still happens only adds calls of `start` and listeners: no resource is made
or asked for anything, no listener is called, and the consumer is never ready again. -/
theorem closed_for_good {a b : Option ℕ} {o : Except Failure Unit}
    (hrun : Machine.run OrdersConsumer.step initial es = some s)
    (hC : s.closePromise = some ⟨a, b, .settled o⟩)
    (hrest : Machine.run OrdersConsumer.step s fs = some s') :
    (∀ r, (s.life r).isOpen = false) ∧
    (∀ (p : ℕ) P, s.preparations[p]? = some P → P.isOpen = false) ∧
    (∀ (i : ℕ) R, s.runs[i]? = some R → R = .handled) ∧
    s'.processingReady = false ∧
    ∃ promise starts listeners, s' = { s with
      startPromise := promise, starts := starts, terminationListeners := listeners } := by
  have h := inv_run hrun
  obtain ⟨-, hclosed, hhandled⟩ := h.idle a b o hC
  obtain ⟨-, hfrozen⟩ := Machine.invariant
    (I := fun t => t.Inv ∧ Frozen s t)
    (fun t e t' ht hstep => by
      obtain ⟨hinv, hfrozen⟩ := ht
      refine ⟨hinv.step hstep, hfrozen.trans ?_⟩
      obtain ⟨_, _, _, rfl⟩ := hfrozen
      exact hinv.frozen_step hC hstep) ⟨h, .refl s⟩ hrest
  refine ⟨h.closed_of_idle hC, hclosed, hhandled, ?_, hfrozen⟩
  obtain ⟨_, _, _, rfl⟩ := hfrozen
  exact (h.stopped (by rw [hC]; rfl)).2.2

/-- The consumer of `preparedTwice` is closed while its worker runs. -/
def closedRunning : List Event :=
  preparedTwice ++ [.close, .cleanup none (.paused (.ok ())), .runEnds 0 .resolved,
    .handleRunTermination 0, .cleanup none (.workerClosed (.error .upstream) (.ok ())),
    .cleanup none (.eventsClosed (.ok ()) (.ok ())), .cleanup none (.quit .eventsRedis (.ok ())),
    .cleanup none (.quit .redis (.ok ())), .resumeClose, .resumeClose]

theorem closed_for_good_closedRunning : ∃ s a b o,
    Machine.run OrdersConsumer.step initial closedRunning = some s ∧
    s.closePromise = some ⟨a, b, .settled o⟩ ∧ ∃ s',
      Machine.run OrdersConsumer.step s [.start none, .resumeStart 1 true] = some s' ∧
      s.life ⟨.worker, 1⟩ = .closed ∧ s'.processingReady = false :=
  have h := closed_for_good
    (show Machine.run OrdersConsumer.step initial closedRunning = some _ from rfl) rfl
    (show Machine.run OrdersConsumer.step _ [.start none, .resumeStart 1 true] = some _ from rfl)
  ⟨_, _, _, _, rfl, rfl, _, rfl, rfl, h.2.2.2.1⟩

/-! ## What is left -/

/-- What the consumer can still do without a new call, at most. -/
def rank (s : OrdersConsumer) : ℕ :=
  (s.preparations.map Preparation.rank).sum + (s.starts.map StartCall.rank).sum +
    (s.runs.map RunLoop.rank).sum + s.closePromise.elim 0 fun C => C.phase.rank

/-- A call adds the events it can lead to. -/
theorem rank_call {e : Event} (he : e.isCall = true) (hstep : s.step e = some s') :
    s'.rank ≤ s.rank + 14 := by
  have hprepare : ∀ fault, (s.prepareForBootstrapRecovery fault).2.rank ≤ s.rank + 11 := by
    intro fault
    unfold prepareForBootstrapRecovery
    cases s.preparationPromise with
    | some p => exact Nat.le_add_right ..
    | none =>
      dsimp only
      split_ifs
      · exact Nat.le_add_right ..
      · cases fault with
        | none =>
          simp only [rank, prepareResources, List.map_append, List.sum_append, List.map_singleton,
            List.sum_singleton, Preparation.rank]
          omega
        | some f =>
          simp only [rank, prepareResources, List.map_append, List.sum_append, List.map_singleton,
            List.sum_singleton, Preparation.rank]
          omega
  cases e with
  | prepare fault =>
    obtain rfl := Option.some.inj hstep
    exact (hprepare fault).trans (by omega)
  | start fault =>
    obtain rfl := Option.some.inj hstep
    unfold OrdersConsumer.start
    cases s.startPromise with
    | some i => exact Nat.le_add_right ..
    | none =>
      have h := hprepare fault
      unfold rank at h
      rw [(prepare_frame s fault).1] at h
      simp only [rank, List.map_append, List.sum_append, List.map_singleton, List.sum_singleton,
        StartCall.rank]
      omega
  | close =>
    obtain rfl := Option.some.inj hstep
    unfold OrdersConsumer.close
    cases hC : s.closePromise with
    | some C => exact Nat.le_add_right ..
    | none =>
      have hle := ResourceCleanup.rank_closeOwnedResources s.resources s.runPromise.isSome s.life
      simp only [rank, hC, Option.elim, ConsumerClosing.rank]
      omega
  | subscribe listener =>
    obtain rfl := Option.some.inj hstep
    exact Nat.le_add_right ..
  | unsubscribe listener =>
    obtain rfl := Option.some.inj hstep
    exact Nat.le_add_right ..
  | _ => cases he

theorem rank_withStart {i : ℕ} {q : Except Failure ℕ} (hi : s.starts[i]? = some (.awaiting q))
    (outcome : Except Failure Unit) :
    ((s.withStart i outcome).map StartCall.rank).sum + 3 = (s.starts.map StartCall.rank).sum :=
  Table.sum_map_modify StartCall.rank hi

theorem Advance.rank_lt (h : s.Advance s') : s'.rank < s.rank := by
  cases h with
  | preparation P' hP hopen hrank hpreparations hstarts hruns hclose =>
    have hsum := Table.sum_map_modify (f := fun _ => P') Preparation.rank hP
    unfold rank
    rw [hpreparations, hstarts, hruns, hclose]
    unfold withPreparation
    omega
  | @start i q outcome hi hset =>
    have hsum := rank_withStart hi outcome
    rw [hset]
    unfold rank setStart
    dsimp only
    omega
  | @begin i q outcome hi hclosing hpreparations hstarts hruns hclose =>
    have hsum := rank_withStart hi outcome
    unfold rank
    rw [hpreparations, hstarts, hruns, hclose, List.map_append, List.sum_append]
    simp only [List.map_singleton, List.sum_singleton, RunLoop.rank]
    omega
  | run R' hR hne hrank hpreparations hstarts hruns hclose =>
    have hsum := Table.sum_map_modify (f := fun _ => R') RunLoop.rank hR
    unfold rank
    rw [hpreparations, hstarts, hruns, hclose]
    unfold withRun
    omega
  | close C' hC hrank hpreparations hstarts hruns hclose =>
    unfold rank
    rw [hpreparations, hstarts, hruns, hclose, hC]
    simp only [Option.elim]
    omega

/-! ## When nothing is left -/

/-- An open preparation goes on by itself. -/
theorem enabled_of_open (hP : s.preparations[p]? = some P) (hopen : P.isOpen = true) :
    ∃ e : Event, e.isCall = false ∧ s.step e ≠ none := by
  cases P with
  | waitUntilReady =>
    exact ⟨.ready p (.error .upstream), rfl, by
      simp [OrdersConsumer.step, OrdersConsumer.ready, hP]⟩
  | startStalledCheckTimer =>
    exact ⟨.timerStarted p (.error .upstream), rfl, by
      simp [OrdersConsumer.step, OrdersConsumer.timerStarted, hP]⟩
  | rejected error =>
    exact ⟨.catchPreparation p, rfl, by
      simp [OrdersConsumer.step, OrdersConsumer.catchPreparation, hP]⟩
  | cleaning error c =>
    cases hresult : c.result with
    | some errors =>
      exact ⟨.failPreparation p, rfl, by
        simp [OrdersConsumer.step, OrdersConsumer.failPreparation, hP, hresult]⟩
    | none =>
      obtain ⟨e, hnext⟩ := ResourceCleanup.step_of_result hresult s.life
      exact ⟨.cleanup (some p) e, rfl, by
        simp [OrdersConsumer.step, OrdersConsumer.cleanup, hP, hnext]⟩
  | settled outcome => cases hopen

/-- A start goes on once its preparation is over. -/
theorem Inv.enabled_of_start (h : s.Inv) {i : ℕ} {q : Except Failure ℕ}
    (hi : s.starts[i]? = some (.awaiting q))
    (hclosed : ∀ (p : ℕ) P, s.preparations[p]? = some P → P.isOpen = false) :
    ∃ e : Event, e.isCall = false ∧ s.step e ≠ none := by
  refine ⟨.resumeStart i true, rfl, ?_⟩
  show s.resumeStart i true ≠ none
  unfold OrdersConsumer.resumeStart
  cases q with
  | error e => simp [hi]
  | ok p =>
    have hlt := (h.awaited i p hi).1
    have hP : s.preparations[p]? = some s.preparations[p] := List.getElem?_eq_getElem hlt
    have hover := hclosed p _ hP
    cases hsettled : s.preparations[p] with
    | settled outcome =>
      rw [hi]
      dsimp only
      rw [hP, hsettled]
      cases outcome with
      | error e => simp
      | ok _ =>
        dsimp only
        by_cases hclosing : s.closing = true
        · rw [if_pos hclosing]
          simp
        · rw [if_neg hclosing]
          split <;> simp
    | _ =>
      rw [hsettled] at hover
      cases hover

theorem enabled_of_run {i : ℕ} {R : RunLoop} (hR : s.runs[i]? = some R) (hne : R ≠ .handled) :
    ∃ e : Event, e.isCall = false ∧ s.step e ≠ none := by
  cases R with
  | running =>
    exact ⟨.runEnds i .resolved, rfl, by
      simp [OrdersConsumer.step, OrdersConsumer.runEnds, hR]⟩
  | ended t =>
    refine ⟨.handleRunTermination i, rfl, ?_⟩
    show s.handleRunTermination i ≠ none
    unfold OrdersConsumer.handleRunTermination
    rw [hR]
    dsimp only
    split_ifs <;> simp
  | handled => exact absurd rfl hne

/-- `close` waits for nothing that does not end. -/
theorem Inv.enabled_of_close (h : s.Inv) {C : ConsumerClose} (hC : s.closePromise = some C)
    (hphase : ∀ o, C.phase ≠ .settled o)
    (hclosed : ∀ (p : ℕ) P, s.preparations[p]? = some P → P.isOpen = false)
    (hhandled : ∀ (i : ℕ) R, s.runs[i]? = some R → R = .handled) :
    ∃ e : Event, e.isCall = false ∧ s.step e ≠ none := by
  obtain ⟨a, b, phase⟩ := C
  cases phase with
  | cleaning c =>
    cases hresult : c.result with
    | some errors =>
      exact ⟨.resumeClose, rfl, by
        simp [OrdersConsumer.step, OrdersConsumer.resumeClose, hC, hresult]⟩
    | none =>
      obtain ⟨e, hnext⟩ := ResourceCleanup.step_of_result hresult s.life
      exact ⟨.cleanup none e, rfl, by
        simp [OrdersConsumer.step, OrdersConsumer.cleanup, hC, hnext]⟩
  | awaiting errors =>
    obtain ⟨hpreparation, hrun⟩ := h.valid _ hC
    have hpover : s.preparationOver a = true := by
      cases a with
      | none => rfl
      | some p =>
        have hP := List.getElem?_eq_getElem (hpreparation p rfl)
        simp [preparationOver, hP, hclosed p _ hP]
    have hrover : s.runOver b = true := by
      cases b with
      | none => rfl
      | some i =>
        have hR := List.getElem?_eq_getElem (hrun i rfl)
        simp [runOver, hR, hhandled i _ hR]
    exact ⟨.resumeClose, rfl, by
      simp [OrdersConsumer.step, OrdersConsumer.resumeClose, hC, hpover, hrover]⟩
  | settled o => exact absurd rfl (hphase o)

/-! ## Every wait ends -/

theorem rank_run (hrun : Machine.run OrdersConsumer.step s es = some s') :
    s'.rank + (es.filter fun e => !e.isCall).length ≤
      s.rank + 14 * (es.filter fun e => e.isCall).length := by
  induction es generalizing s with
  | nil =>
    obtain rfl := Option.some.inj hrun
    simp
  | cons e es ih =>
    obtain ⟨t, hstep, hrest⟩ := Machine.run_cons hrun
    have hle := ih hrest
    cases he : e.isCall with
    | true =>
      have hcall := rank_call he hstep
      simp only [List.filter_cons, he, Bool.not_true, Bool.false_eq_true, if_false, if_true,
        List.length_cons]
      omega
    | false =>
      have hlt := (advance he hstep).rank_lt
      simp only [List.filter_cons, he, Bool.not_false, Bool.false_eq_true, if_false, if_true,
        List.length_cons]
      omega

/-- In every run a call leads to at most fourteen other events. When none of them can happen any
more, every preparation and every start has settled, no run is left unheard of, and a `close` that
was called has returned. -/
theorem nobody_waits (hrun : Machine.run OrdersConsumer.step initial es = some s) :
    (es.filter fun e => !e.isCall).length ≤ 14 * (es.filter fun e => e.isCall).length ∧
    ((∀ e : Event, e.isCall = false → s.step e = none) →
      (∀ (p : ℕ) P, s.preparations[p]? = some P → P.isOpen = false) ∧
      (∀ (i : ℕ) S, s.starts[i]? = some S → ∃ o, S = .settled o) ∧
      (∀ (i : ℕ) R, s.runs[i]? = some R → R = .handled) ∧
      ∀ C, s.closePromise = some C → ∃ o, C.phase = .settled o) := by
  have h := inv_run hrun
  refine ⟨?_, fun hrest => ?_⟩
  · have hle := rank_run hrun
    have hzero : initial.rank = 0 := rfl
    omega
  · have hstuck : ¬ ∃ e : Event, e.isCall = false ∧ s.step e ≠ none := by
      rintro ⟨e, he, hne⟩
      exact hne (hrest e he)
    have hclosed : ∀ (p : ℕ) P, s.preparations[p]? = some P → P.isOpen = false := by
      intro p P hP
      by_contra hopen
      exact hstuck (enabled_of_open hP (by simpa using hopen))
    have hhandled : ∀ (i : ℕ) R, s.runs[i]? = some R → R = .handled := by
      intro i R hR
      by_contra hne
      exact hstuck (enabled_of_run hR hne)
    refine ⟨hclosed, fun i S hi => ?_, hhandled, fun C hC => ?_⟩
    · cases S with
      | settled o => exact ⟨o, rfl⟩
      | awaiting q => exact absurd (h.enabled_of_start hi hclosed) hstuck
    · by_contra hphase
      exact hstuck (h.enabled_of_close hC (fun o ho => hphase ⟨o, ho⟩) hclosed hhandled)

/-- Then nothing happens without a new call. -/
theorem step_eq_none (hpreparations : ∀ P ∈ s.preparations, P.isOpen = false)
    (hstarts : ∀ S ∈ s.starts, ∃ o, S = .settled o) (hruns : ∀ R ∈ s.runs, R = .handled)
    (hclose : ∀ C, s.closePromise = some C → ∃ o, C.phase = .settled o) {e : Event}
    (he : e.isCall = false) : s.step e = none := by
  by_contra hne
  obtain ⟨s', hstep⟩ := Option.ne_none_iff_exists'.1 hne
  cases advance he hstep with
  | preparation P' hP hopen =>
    rw [hpreparations _ (List.mem_of_getElem? hP)] at hopen
    cases hopen
  | start hi => cases (hstarts _ (List.mem_of_getElem? hi)).choose_spec
  | begin hi => cases (hstarts _ (List.mem_of_getElem? hi)).choose_spec
  | run R' hR hne => exact hne (hruns _ (List.mem_of_getElem? hR))
  | close C' hC hrank =>
    obtain ⟨o, ho⟩ := hclose _ hC
    rw [ho] at hrank
    cases hrank

theorem nobody_waits_closedRunning : ∃ s,
    Machine.run OrdersConsumer.step initial closedRunning = some s ∧
    18 ≤ 14 * (closedRunning.filter fun e => e.isCall).length ∧
    (∀ e : Event, e.isCall = false → s.step e = none) ∧
    (∀ (i : ℕ) R, s.runs[i]? = some R → R = .handled) ∧
    ∀ C, s.closePromise = some C → ∃ o, C.phase = .settled o := by
  obtain ⟨s, hrun, ⟨o, o', hpreparations⟩, ⟨o₁, hstarts⟩, hruns, a, b, o₂, hclose⟩ : ∃ s,
      Machine.run OrdersConsumer.step initial closedRunning = some s ∧
      (∃ o o', s.preparations = [.settled o, .settled o']) ∧
      (∃ o₁, s.starts = [.settled o₁]) ∧ s.runs = [.handled] ∧
      ∃ a b o₂, s.closePromise = some ⟨a, b, .settled o₂⟩ :=
    ⟨_, rfl, ⟨_, _, rfl⟩, ⟨_, rfl⟩, rfl, _, _, _, rfl⟩
  have hrest : ∀ e : Event, e.isCall = false → s.step e = none := fun e he => by
    refine step_eq_none ?_ ?_ ?_ (fun C hC => ?_) he
    · rw [hpreparations]
      rintro P hP
      rcases List.mem_pair.1 hP with rfl | rfl
      · rfl
      · rfl
    · rw [hstarts]
      rintro S hS
      exact ⟨o₁, List.mem_singleton.1 hS⟩
    · rw [hruns]
      exact fun R hR => List.mem_singleton.1 hR
    · obtain rfl := Option.some.inj (hclose.symm.trans hC)
      exact ⟨o₂, rfl⟩
  obtain ⟨hcount, hquiet⟩ := nobody_waits hrun
  obtain ⟨-, -, hhandled, hsettled⟩ := hquiet hrest
  exact ⟨s, hrun, hcount, hrest, hhandled, hsettled⟩

end OrdersConsumer

end FlashSale
