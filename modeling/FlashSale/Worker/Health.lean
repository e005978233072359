import FlashSale.Worker.Reconciliation

/-!
# Passes, sweeps and the readiness of the worker

Passes and sweeps share one queue, `maintenanceTail`, and at most one of each is in flight. A pass
reads `reconciliationHealthy` when it is triggered and writes the two health flags when its work has
settled; a sweep writes them when it has kept an unsafe entry; `fail` writes them at any time.

`HealthService` reports a failure at once when it is confirmed, and after a grace period otherwise.
A pass that was triggered while the worker was healthy and completes degraded takes the confirmation
back, also that of a failure that came in between (`lateRun`).
-/

namespace FlashSale

/-! ## State -/

/-- The fields of `ReconciliationState` that the readiness of the worker depends on. -/
structure ReconciliationState where
  bootstrapReconciled : Bool
  consumerReady : Bool
  reconciliationHealthy : Bool
  reconciliationFailureConfirmed : Bool
  retainedQueueEntries : ℕ
  deriving DecidableEq, Repr

/-- `createReconciliationState`. -/
def createReconciliationState : ReconciliationState := ⟨false, false, false, false, 0⟩

/-- Work scheduled on `maintenanceTail`. -/
inductive Work where
  | pass
  | sweep
  deriving DecidableEq, Repr

/-- A pass in flight: its work waits or runs, has settled, or its `finally` is left. -/
inductive PassStage where
  | scheduled (wasHealthy : Bool)
  | settled (wasHealthy : Bool) (result : Except Failure ReconciliationPassResult)
  | finishing

/-- A sweep in flight. -/
inductive SweepStage where
  | scheduled
  | settled (result : Except Failure DlqSweepResult)
  | finishing

/-- The memory of `ReconciliationService` and `HealthService`. -/
structure Maintenance where
  state : ReconciliationState
  closing : Bool
  passPromise : Option PassStage
  passCoalesced : Bool
  dlqPromise : Option SweepStage
  /-- The work that has not settled; the first one runs. -/
  maintenanceTail : List Work
  unhealthySinceMs : Option ℤ

/-- What happens to passes and sweeps; code between two awaits is one event. -/
inductive MaintenanceEvent where
  | triggerPass
  | triggerDlqSweep
  /-- The work of the pass ends. -/
  | settlePass (result : Except Failure ReconciliationPassResult)
  | settleSweep (result : Except Failure DlqSweepResult)
  /-- `runContinuousPass` goes on after its work. -/
  | resumePass
  /-- The `finally` of `triggerPass`. -/
  | finallyPass
  /-- The `then` of `triggerDlqSweep`. -/
  | resumeSweep
  | finallySweep
  /-- `fail`; a rejected sweep is one reason. -/
  | fail
  | readiness (now : ℤ)

namespace Maintenance

/-- `fail`. -/
def fail (m : Maintenance) : Maintenance :=
  { m with state := { m.state with
      reconciliationHealthy := false
      reconciliationFailureConfirmed := true } }

/-- `triggerPass`, with the first part of `runContinuousPass`. -/
def triggerPass (m : Maintenance) : Maintenance :=
  if m.closing then m
  else if m.passPromise.isSome then { m with passCoalesced := true }
  else { m with
    passPromise := some (.scheduled m.state.reconciliationHealthy)
    maintenanceTail := m.maintenanceTail ++ [.pass] }

/-- `triggerDlqSweep`. -/
def triggerDlqSweep (m : Maintenance) : Maintenance :=
  if m.closing then m
  else if m.dlqPromise.isSome then m
  else { m with
    dlqPromise := some .scheduled
    maintenanceTail := m.maintenanceTail ++ [.sweep] }

def settlePass (m : Maintenance) (result : Except Failure ReconciliationPassResult) : Maintenance :=
  match m.maintenanceTail, m.passPromise with
  | .pass :: tail, some (.scheduled wasHealthy) =>
    { m with maintenanceTail := tail, passPromise := some (.settled wasHealthy result) }
  | _, _ => m

def settleSweep (m : Maintenance) (result : Except Failure DlqSweepResult) : Maintenance :=
  match m.maintenanceTail, m.dlqPromise with
  | .sweep :: tail, some .scheduled =>
    { m with maintenanceTail := tail, dlqPromise := some (.settled result) }
  | _, _ => m

/-- The flags `runContinuousPass` writes after a pass that returned. -/
def recordPass (m : Maintenance) (wasHealthy : Bool) (result : ReconciliationPassResult) :
    Maintenance :=
  { m with state := { m.state with
      retainedQueueEntries := result.queueIssueCount
      reconciliationHealthy := !result.degraded
      -- recovered, or a fresh flip from healthy
      reconciliationFailureConfirmed :=
        if !result.degraded || wasHealthy then false
        else m.state.reconciliationFailureConfirmed } }

/-- The rest of `runContinuousPass`. -/
def resumePass (m : Maintenance) : Maintenance :=
  match m.passPromise with
  | some (.settled wasHealthy (.ok result)) =>
    { m.recordPass wasHealthy result with passPromise := some .finishing }
  | some (.settled _ (.error _)) => { m.fail with passPromise := some .finishing }
  | _ => m

/-- The `finally` of `triggerPass`: a coalesced trigger starts the next pass. -/
def finallyPass (m : Maintenance) : Maintenance :=
  match m.passPromise with
  | some .finishing =>
    let m := { m with passPromise := none }
    if m.passCoalesced && !m.closing then triggerPass { m with passCoalesced := false } else m
  | _ => m

/-- The flags `triggerDlqSweep` writes after a sweep that returned. -/
def recordSweep (m : Maintenance) (result : DlqSweepResult) : Maintenance :=
  if 0 < result.retainedUnsafeCount then
    { m with state := { m.state with
        retainedQueueEntries := max m.state.retainedQueueEntries result.retainedUnsafeCount
        reconciliationHealthy := false
        reconciliationFailureConfirmed := true } }
  else m

def resumeSweep (m : Maintenance) : Maintenance :=
  match m.dlqPromise with
  | some (.settled (.ok result)) => { m.recordSweep result with dlqPromise := some .finishing }
  | some (.settled (.error _)) => { m with dlqPromise := some .finishing }
  | _ => m

def finallySweep (m : Maintenance) : Maintenance :=
  match m.dlqPromise with
  | some .finishing => { m with dlqPromise := none }
  | _ => m

end Maintenance

/-! ## Readiness -/

def RECONCILIATION_STALL_GRACE_CYCLES : ℕ := 5

inductive ReadinessStatus where
  | ok
  | degraded
  deriving DecidableEq, Repr

/-- The fields of `WorkerReadinessResponse` that are not constants or the uptime. -/
structure WorkerReadiness where
  status : ReadinessStatus
  checks : ReconciliationState
  deriving DecidableEq, Repr

section

variable (WORKER_RECONCILE_INTERVAL_MS : ℕ)

/-- `isReconciliationHealthy`. -/
def Maintenance.isReconciliationHealthy (now : ℤ) (m : Maintenance) : Bool × Maintenance :=
  if m.state.reconciliationHealthy then (true, { m with unhealthySinceMs := none })
  else if m.state.reconciliationFailureConfirmed then (false, { m with unhealthySinceMs := none })
  else
    let since := m.unhealthySinceMs.getD now
    let staleBudgetMs := WORKER_RECONCILE_INTERVAL_MS * RECONCILIATION_STALL_GRACE_CYCLES
    (decide (now - since ≤ staleBudgetMs), { m with unhealthySinceMs := some since })

/-- `HealthService.readiness`. -/
def Maintenance.readiness (now : ℤ) (m : Maintenance) : WorkerReadiness × Maintenance :=
  let (reconciliationHealthy, m) := m.isReconciliationHealthy WORKER_RECONCILE_INTERVAL_MS now
  let healthy := m.state.bootstrapReconciled && m.state.consumerReady && reconciliationHealthy
  (⟨if healthy then .ok else .degraded, { m.state with reconciliationHealthy }⟩, m)

/-- One event; an event that is not possible changes nothing. -/
def Maintenance.step (m : Maintenance) : MaintenanceEvent → Maintenance
  | .triggerPass => m.triggerPass
  | .triggerDlqSweep => m.triggerDlqSweep
  | .settlePass result => m.settlePass result
  | .settleSweep result => m.settleSweep result
  | .resumePass => m.resumePass
  | .finallyPass => m.finallyPass
  | .resumeSweep => m.resumeSweep
  | .finallySweep => m.finallySweep
  | .fail => m.fail
  | .readiness now => (m.readiness WORKER_RECONCILE_INTERVAL_MS now).2

/-- The flags the boot sets at its end, whatever is in flight then. -/
def Maintenance.booted (m : Maintenance) (bootResult : ReconciliationPassResult) : Maintenance :=
  { m with state := { m.state with
      bootstrapReconciled := true
      consumerReady := true
      reconciliationHealthy := !bootResult.degraded
      reconciliationFailureConfirmed := bootResult.degraded } }

end

/-! ## What an event does to the flags -/

namespace Maintenance

/-- The event is a confirmed failure: a call of `fail`, or a sweep that kept an unsafe entry. -/
def confirms (m : Maintenance) : MaintenanceEvent → Bool
  | .fail => true
  | .resumePass =>
    match m.passPromise with
    | some (.settled _ (.error _)) => true
    | _ => false
  | .resumeSweep =>
    match m.dlqPromise with
    | some (.settled (.ok result)) => decide (0 < result.retainedUnsafeCount)
    | _ => false
  | _ => false

/-- A pass that returned completes. -/
def completes (m : Maintenance) (e : MaintenanceEvent) (wasHealthy : Bool)
    (result : ReconciliationPassResult) : Prop :=
  e = .resumePass ∧ m.passPromise = some (.settled wasHealthy (.ok result))

variable {WORKER_RECONCILE_INTERVAL_MS : ℕ} {m : Maintenance} {e : MaintenanceEvent}

@[simp] theorem state_triggerPass (m : Maintenance) : m.triggerPass.state = m.state := by
  unfold triggerPass
  split_ifs
  all_goals rfl

@[simp] theorem state_triggerDlqSweep (m : Maintenance) : m.triggerDlqSweep.state = m.state := by
  unfold triggerDlqSweep
  split_ifs
  all_goals rfl

@[simp] theorem state_settlePass (m : Maintenance)
    (result : Except Failure ReconciliationPassResult) : (m.settlePass result).state = m.state := by
  unfold settlePass
  split
  all_goals rfl

@[simp] theorem state_settleSweep (m : Maintenance) (result : Except Failure DlqSweepResult) :
    (m.settleSweep result).state = m.state := by
  unfold settleSweep
  split
  all_goals rfl

@[simp] theorem state_finallyPass (m : Maintenance) : m.finallyPass.state = m.state := by
  unfold finallyPass
  split
  · dsimp only
    split_ifs
    · rw [state_triggerPass]
    · rfl
  · rfl

@[simp] theorem state_finallySweep (m : Maintenance) : m.finallySweep.state = m.state := by
  unfold finallySweep
  split
  all_goals rfl

@[simp] theorem state_readiness (now : ℤ) (m : Maintenance) :
    (m.readiness WORKER_RECONCILE_INTERVAL_MS now).2.state = m.state := by
  unfold readiness isReconciliationHealthy
  split_ifs
  all_goals rfl

/-- An event confirms a failure, completes a pass or leaves the flags alone. -/
theorem step_cases (WORKER_RECONCILE_INTERVAL_MS : ℕ) (m : Maintenance) (e : MaintenanceEvent) :
    (m.confirms e = true ∧ ∃ retained, (m.step WORKER_RECONCILE_INTERVAL_MS e).state =
      { m.state with
        reconciliationHealthy := false
        reconciliationFailureConfirmed := true
        retainedQueueEntries := retained }) ∨
    m.confirms e = false ∧
      ((∃ wasHealthy result, m.completes e wasHealthy result ∧
        (m.step WORKER_RECONCILE_INTERVAL_MS e).state = (m.recordPass wasHealthy result).state) ∨
      (∀ wasHealthy result, ¬m.completes e wasHealthy result) ∧
        (m.step WORKER_RECONCILE_INTERVAL_MS e).state = m.state) := by
  cases e with
  | fail => exact .inl ⟨rfl, m.state.retainedQueueEntries, rfl⟩
  | resumePass =>
    match hp : m.passPromise with
    | some (.settled wasHealthy (.ok result)) =>
      refine .inr ⟨by simp [confirms, hp], .inl ⟨wasHealthy, result, ⟨rfl, hp⟩, ?_⟩⟩
      simp [step, resumePass, hp]
    | some (.settled wasHealthy (.error error)) =>
      refine .inl ⟨by simp [confirms, hp], m.state.retainedQueueEntries, ?_⟩
      simp [step, resumePass, hp, fail]
    | none | some (.scheduled _) | some .finishing =>
      refine .inr ⟨by simp [confirms, hp], .inr ⟨?_, ?_⟩⟩
      · simp [completes, hp]
      · simp [step, resumePass, hp]
  | resumeSweep =>
    have hno : ∀ wasHealthy result, ¬m.completes .resumeSweep wasHealthy result := by
      intro wasHealthy result h
      cases h.1
    match hp : m.dlqPromise with
    | some (.settled (.ok result)) =>
      by_cases hpos : 0 < result.retainedUnsafeCount
      · refine .inl ⟨by simp [confirms, hp, hpos],
          max m.state.retainedQueueEntries result.retainedUnsafeCount, ?_⟩
        simp [step, resumeSweep, hp, recordSweep, hpos]
      · refine .inr ⟨by simp [confirms, hp, hpos], .inr ⟨hno, ?_⟩⟩
        simp [step, resumeSweep, hp, recordSweep, hpos]
    | none | some .scheduled | some .finishing | some (.settled (.error _)) =>
      refine .inr ⟨by simp [confirms, hp], .inr ⟨hno, ?_⟩⟩
      simp [step, resumeSweep, hp]
  | triggerPass | triggerDlqSweep | settlePass _ | settleSweep _ | finallyPass | finallySweep
  | readiness _ =>
    refine .inr ⟨rfl, .inr ⟨fun _ _ h => ?_, ?_⟩⟩
    · cases h.1
    · simp [step]

/-- No event touches the flags of the boot. -/
theorem step_ready (WORKER_RECONCILE_INTERVAL_MS : ℕ) (m : Maintenance) (e : MaintenanceEvent) :
    (m.step WORKER_RECONCILE_INTERVAL_MS e).state.bootstrapReconciled =
        m.state.bootstrapReconciled ∧
      (m.step WORKER_RECONCILE_INTERVAL_MS e).state.consumerReady = m.state.consumerReady := by
  obtain ⟨-, retained, h⟩ | ⟨-, ⟨wasHealthy, result, -, h⟩ | ⟨-, h⟩⟩ :=
    step_cases WORKER_RECONCILE_INTERVAL_MS m e
  · rw [h]
    exact ⟨rfl, rfl⟩
  · rw [h]
    exact ⟨rfl, rfl⟩
  · rw [h]
    exact ⟨rfl, rfl⟩

/-- A pass that completes clean. -/
def recovers (m : Maintenance) : MaintenanceEvent → Bool
  | .resumePass =>
    match m.passPromise with
    | some (.settled _ (.ok result)) => !result.degraded
    | _ => false
  | _ => false

theorem recovers_eq {wasHealthy : Bool} {result : ReconciliationPassResult}
    (h : m.completes e wasHealthy result) : m.recovers e = !result.degraded := by
  obtain ⟨rfl, hp⟩ := h
  simp [recovers, hp]

theorem not_recovers (h : ∀ wasHealthy result, ¬m.completes e wasHealthy result) :
    m.recovers e = false := by
  unfold recovers
  split
  · split
    · next hp => exact absurd ⟨rfl, hp⟩ (h _ _)
    · rfl
  · rfl

/-- A confirmed failure is reported at once. -/
theorem status_of_confirmed (h : m.state.reconciliationHealthy = false)
    (hc : m.state.reconciliationFailureConfirmed = true) (now : ℤ) :
    (m.readiness WORKER_RECONCILE_INTERVAL_MS now).1.status = .degraded := by
  simp [readiness, isReconciliationHealthy, h, hc]

/-- Without a consumer the worker is degraded. -/
theorem status_of_not_ready (h : m.state.consumerReady = false) (now : ℤ) :
    (m.readiness WORKER_RECONCILE_INTERVAL_MS now).1.status = .degraded := by
  unfold readiness isReconciliationHealthy
  split_ifs
  all_goals simp [h]

/-- Any other failure has its grace period. -/
theorem status_of_not_confirmed (hb : m.state.bootstrapReconciled = true)
    (hr : m.state.consumerReady = true) (hc : m.state.reconciliationFailureConfirmed = false) :
    ∃ now, (m.readiness WORKER_RECONCILE_INTERVAL_MS now).1.status = .ok := by
  refine ⟨m.unhealthySinceMs.getD 0, ?_⟩
  have hsince : m.unhealthySinceMs.getD (m.unhealthySinceMs.getD 0) =
      m.unhealthySinceMs.getD 0 := by cases m.unhealthySinceMs <;> rfl
  cases h : m.state.reconciliationHealthy with
  | true => simp [readiness, isReconciliationHealthy, h, hb, hr]
  | false =>
    simp [readiness, isReconciliationHealthy, h, hc, hb, hr, hsince]
    positivity

end Maintenance

/-! ## Confirmed failures over runs -/

/-- The memory, and whether a confirmed failure stands: one has occurred and no pass has completed
clean since. -/
structure Watched extends Maintenance where
  failing : Bool

namespace Watched

def step (WORKER_RECONCILE_INTERVAL_MS : ℕ) (w : Watched) (e : MaintenanceEvent) : Watched where
  toMaintenance := w.toMaintenance.step WORKER_RECONCILE_INTERVAL_MS e
  failing := if w.confirms e then true else if w.recovers e then false else w.failing

def run (WORKER_RECONCILE_INTERVAL_MS : ℕ) (w : Watched) (es : List MaintenanceEvent) : Watched :=
  es.foldl (step WORKER_RECONCILE_INTERVAL_MS) w

/-- Every probe reports a confirmed failure that stands. -/
def Reported (WORKER_RECONCILE_INTERVAL_MS : ℕ) (w : Watched) : Prop :=
  w.failing = true →
    ∀ now, (w.readiness WORKER_RECONCILE_INTERVAL_MS now).1.status = .degraded

/-- A pass that was triggered while the worker was healthy completes degraded, and a confirmed
failure has come in between. -/
def Late (w : Watched) (e : MaintenanceEvent) : Prop :=
  w.failing = true ∧ ∃ result, w.completes e true result ∧ result.degraded = true

/-- The worker has booted, and the flags show a confirmed failure that stands. -/
structure Ok (w : Watched) : Prop where
  bootstrapReconciled : w.state.bootstrapReconciled = true
  consumerReady : w.state.consumerReady = true
  failing : w.failing = true →
    w.state.reconciliationHealthy = false ∧ w.state.reconciliationFailureConfirmed = true

variable {WORKER_RECONCILE_INTERVAL_MS : ℕ} {w : Watched} {e : MaintenanceEvent}

theorem Ok.reported (h : w.Ok) : w.Reported WORKER_RECONCILE_INTERVAL_MS := by
  intro hfailing now
  obtain ⟨hh, hc⟩ := h.failing hfailing
  exact Maintenance.status_of_confirmed hh hc now

theorem Ok.step (h : w.Ok) (hlate : ¬w.Late e) : (w.step WORKER_RECONCILE_INTERVAL_MS e).Ok := by
  obtain ⟨hb, hr⟩ := Maintenance.step_ready WORKER_RECONCILE_INTERVAL_MS w.toMaintenance e
  refine ⟨hb.trans h.bootstrapReconciled, hr.trans h.consumerReady, ?_⟩
  intro hfailing
  unfold Watched.step at hfailing ⊢
  dsimp only at hfailing ⊢
  obtain ⟨-, retained, hs⟩ | ⟨hc, ⟨wasHealthy, result, hp, hs⟩ | ⟨hp, hs⟩⟩ :=
    Maintenance.step_cases WORKER_RECONCILE_INTERVAL_MS w.toMaintenance e
  · rw [hs]
    exact ⟨rfl, rfl⟩
  · -- a pass that does not recover was not healthy when it was triggered
    rw [hc, Maintenance.recovers_eq hp] at hfailing
    rw [hs]
    cases hd : result.degraded with
    | false => simp [hd] at hfailing
    | true =>
      simp only [hd, Bool.not_true, Bool.false_eq_true, if_false] at hfailing
      have hwas : wasHealthy = false := by
        by_contra hne
        obtain rfl := Bool.eq_true_of_not_eq_false hne
        exact hlate ⟨hfailing, result, hp, hd⟩
      simp [Maintenance.recordPass, hd, hwas, (h.failing hfailing).2]
  · rw [hc, Maintenance.not_recovers hp] at hfailing
    rw [hs]
    exact h.failing hfailing

/-- After a late completion a probe in the grace period finds the worker ready. -/
theorem Ok.late (h : w.Ok) (hlate : w.Late e) :
    ¬(w.step WORKER_RECONCILE_INTERVAL_MS e).Reported WORKER_RECONCILE_INTERVAL_MS := by
  obtain ⟨hfailing, result, hp, hd⟩ := hlate
  obtain ⟨rfl, hstage⟩ := hp
  have hstate : (w.step WORKER_RECONCILE_INTERVAL_MS .resumePass).state =
      (w.recordPass true result).state := by
    simp [Watched.step, Maintenance.step, Maintenance.resumePass, hstage]
  have hstill : (w.step WORKER_RECONCILE_INTERVAL_MS .resumePass).failing = true := by
    simp [Watched.step, Maintenance.confirms, Maintenance.recovers, hstage, hd, hfailing]
  obtain ⟨now, hnow⟩ := Maintenance.status_of_not_confirmed
    (m := (w.step WORKER_RECONCILE_INTERVAL_MS .resumePass).toMaintenance)
    (by rw [hstate]; exact h.bootstrapReconciled) (by rw [hstate]; exact h.consumerReady)
    (by rw [hstate]; simp [Maintenance.recordPass])
  intro hreported
  rw [hreported hstill now] at hnow
  cases hnow

theorem Ok.run (h : w.Ok) (es : List MaintenanceEvent)
    (hes : ∀ before e after, es = before ++ e :: after →
      ¬(w.run WORKER_RECONCILE_INTERVAL_MS before).Late e) :
    (w.run WORKER_RECONCILE_INTERVAL_MS es).Ok := by
  induction es generalizing w with
  | nil => exact h
  | cons e es ih =>
    refine ih (h.step (hes [] e es rfl)) ?_
    intro before e' after heq
    exact hes (e :: before) e' after (by rw [heq]; rfl)

/-- A run whose failures are all reported has no late completion. -/
theorem Ok.not_late (h : w.Ok) {es : List MaintenanceEvent}
    (hes : ∀ before after, es = before ++ after →
      (w.run WORKER_RECONCILE_INTERVAL_MS before).Reported WORKER_RECONCILE_INTERVAL_MS) :
    ∀ before e after, es = before ++ e :: after →
      ¬(w.run WORKER_RECONCILE_INTERVAL_MS before).Late e := by
  intro before
  induction before generalizing w es with
  | nil =>
    rintro e after rfl hlate
    exact h.late hlate (hes [e] after rfl)
  | cons e before ih =>
    rintro e' after rfl
    have hlate : ¬w.Late e := fun hl => h.late hl (hes [e] _ rfl)
    refine ih (h.step hlate) ?_ e' after rfl
    intro before' after' heq
    exact hes (e :: before') after' (by rw [List.cons_append, heq]; rfl)

/-- A worker at the end of its boot, with whatever is in flight. -/
def atBoot (m : Maintenance) (bootResult : ReconciliationPassResult) : Watched :=
  ⟨m.booted bootResult, false⟩

theorem Ok.atBoot (m : Maintenance) (bootResult : ReconciliationPassResult) :
    (Watched.atBoot m bootResult).Ok := by
  refine ⟨rfl, rfl, ?_⟩
  intro h
  cases h

/-- **Confirmed failures are reported** in every state of a run after a boot exactly when no late
completion is among its events. -/
theorem failure_reported_iff (WORKER_RECONCILE_INTERVAL_MS : ℕ) (m : Maintenance)
    (bootResult : ReconciliationPassResult) (es : List MaintenanceEvent) :
    (∀ before after, es = before ++ after →
      ((atBoot m bootResult).run WORKER_RECONCILE_INTERVAL_MS before).Reported
        WORKER_RECONCILE_INTERVAL_MS) ↔
    ∀ before e after, es = before ++ e :: after →
      ¬((atBoot m bootResult).run WORKER_RECONCILE_INTERVAL_MS before).Late e := by
  constructor
  · exact (Ok.atBoot m bootResult).not_late
  · rintro hes before after rfl
    refine ((Ok.atBoot m bootResult).run before ?_).reported
    rintro before' e after' rfl
    exact hes before' e (after' ++ after) (by simp)

/-- A worker with nothing in flight. -/
def idle : Maintenance := ⟨createReconciliationState, false, none, false, none, [], none⟩

/-- A pass waits behind a sweep. The sweep keeps an unsafe entry, and the pass finds it too. -/
def lateRun : List MaintenanceEvent :=
  [.triggerDlqSweep, .triggerPass, .settleSweep (.ok ⟨1, 0⟩), .resumeSweep, .finallySweep,
    .settlePass (.ok ⟨true, 1⟩), .resumePass]

/-- The confirmed failure of the sweep stands, and the probe finds the worker ready. -/
theorem lateRun_masks :
    ((atBoot idle ⟨false, 0⟩).run 2000 lateRun).failing = true ∧
      (((atBoot idle ⟨false, 0⟩).run 2000 lateRun).readiness 2000 0).1.status = .ok := by
  decide

end Watched

end FlashSale
