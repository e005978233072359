import FlashSale.Lib.Machine
import FlashSale.Lib.Table
import FlashSale.Worker.Health

/-!
# Coalesced passes on one maintenance queue

`scheduleMaintenance` chains every body behind the previous one, whether that succeeds or fails.
`triggerPass` starts a pass when none is in flight; a trigger that finds one is remembered in one flag,
and the `finally` of the pass starts the next and waits for it. So the promise a caller is given
settles only after a pass whose body was scheduled since its call (`coalescing_kept`).

Bodies and passes are numbered in the order of their creation and never forgotten. A promise is the
number of the body or the pass that settles it; the reactions of a settled promise are events of
their own, so that anything may come between.
-/

namespace FlashSale

/-- Where a body stands. -/
inductive BodyState where
  | waiting
  | running
  | settled (outcome : Except Failure Unit)

/-- A function passed to `scheduleMaintenance`, with the body it was chained to. -/
structure MaintenanceBody where
  work : Work
  after : Option ℕ
  state : BodyState

/-- It has not begun. -/
def MaintenanceBody.isWaiting (body : MaintenanceBody) : Bool :=
  match body.state with
  | .waiting => true
  | _ => false

/-- It has ended. -/
def MaintenanceBody.isSettled (body : MaintenanceBody) : Bool :=
  match body.state with
  | .settled _ => true
  | _ => false

/-- Where the promise of `triggerPass` stands: `runContinuousPass` works or has returned, its
`finally` has run, or the promise is settled. -/
inductive PassRunStage where
  | working
  | returned (outcome : Except Failure Unit)
  | handled (outcome : Except Failure Unit)
  | settled (outcome : Except Failure Unit)

/-- A pass; `next` is the pass its `finally` waits for. -/
structure PassRun where
  body : ℕ
  stage : PassRunStage
  next : Option ℕ

/-- The `finally` is still to run. -/
def PassRun.isEarly (run : PassRun) : Bool :=
  match run.stage with
  | .working | .returned _ => true
  | _ => false

/-- The promise of the pass is settled. -/
def PassRun.isSettled (run : PassRun) : Bool :=
  match run.stage with
  | .settled _ => true
  | _ => false

/-- The fields of the service that schedule its work, and the work so far. -/
structure Scheduler where
  closing : Bool
  passPromise : Option ℕ
  passCoalesced : Bool
  dlqPromise : Option ℕ
  maintenanceTail : Option ℕ
  bodies : List MaintenanceBody
  passes : List PassRun

namespace Scheduler

/-- Nothing has been scheduled. -/
def initial : Scheduler := ⟨false, none, false, none, none, [], []⟩

/-- One body changes. -/
def modifyBody (s : Scheduler) (b : ℕ) (f : MaintenanceBody → MaintenanceBody) : Scheduler :=
  { s with bodies := s.bodies.modify b f }

/-- One pass changes. -/
def modifyPass (s : Scheduler) (i : ℕ) (f : PassRun → PassRun) : Scheduler :=
  { s with passes := s.passes.modify i f }

/-- `scheduleMaintenance`: the number of the body. -/
def scheduleMaintenance (s : Scheduler) (work : Work) : ℕ × Scheduler :=
  (s.bodies.length, { s with
    bodies := s.bodies ++ [⟨work, s.maintenanceTail, .waiting⟩]
    maintenanceTail := some s.bodies.length })

/-- `this.passPromise = this.runContinuousPass().finally(...)`. -/
def startPass (s : Scheduler) : Scheduler :=
  let (body, s) := s.scheduleMaintenance .pass
  { s with
    passPromise := some s.passes.length
    passes := s.passes ++ [⟨body, .working, none⟩] }

/-- `triggerPass`: the promise it returns. -/
def triggerPass (s : Scheduler) : Except Failure ℕ × Scheduler :=
  if s.closing then (.error (.error "reconciliation is closing"), s)
  else match s.passPromise with
    | some i => (.ok i, { s with passCoalesced := true })
    | none => (.ok s.passes.length, s.startPass)

/-- `triggerDlqSweep`. -/
def triggerDlqSweep (s : Scheduler) : Scheduler :=
  if s.closing then s
  else match s.dlqPromise with
    | some _ => s
    | none =>
      let (body, s) := s.scheduleMaintenance .sweep
      { s with dlqPromise := some body }

/-- The body a body was chained to has settled. -/
def isFree (s : Scheduler) (body : MaintenanceBody) : Bool :=
  match body.after with
  | none => true
  | some b => (s.bodies[b]?).any (·.isSettled)

/-- The `finally` of `triggerPass`. -/
def finallyPass (s : Scheduler) (i : ℕ) (outcome : Except Failure Unit) : Scheduler :=
  let s := { s with passPromise := none }
  if s.passCoalesced && !s.closing then
    match ({ s with passCoalesced := false } : Scheduler).triggerPass with
    | (.ok n, s) => s.modifyPass i fun run => { run with stage := .handled outcome, next := some n }
    | (.error e, s) => s.modifyPass i fun run => { run with stage := .handled (.error e) }
  else s.modifyPass i fun run => { run with stage := .handled outcome }

/-- What the promise of a pass settles with once its `finally` is over: a rejection of the pass waited
for comes first. -/
def passResult (s : Scheduler) (outcome : Except Failure Unit) : Option ℕ →
    Option (Except Failure Unit)
  | none => some outcome
  | some n => do
    let run ← s.passes[n]?
    match run.stage with
    | .settled (.ok ()) => some outcome
    | .settled (.error e) => some (.error e)
    | _ => none

/-- A trigger, the close, or a step of a body, a pass or a promise. -/
inductive Event where
  | triggerPass
  | triggerDlqSweep
  | start (b : ℕ)
  | settle (b : ℕ) (outcome : Except Failure Unit)
  /-- `runContinuousPass` goes on and returns or throws. -/
  | returnPass (i : ℕ)
  | finallyPass (i : ℕ)
  | settlePass (i : ℕ)
  | finallySweep
  /-- `stop` begins. -/
  | close

/-- One event; `none` if it cannot happen. -/
def step (s : Scheduler) : Event → Option Scheduler
  | .triggerPass => some s.triggerPass.2
  | .triggerDlqSweep => some s.triggerDlqSweep
  | .start b => do
    let body ← s.bodies[b]?
    if body.isWaiting && s.isFree body then
      some (s.modifyBody b fun body => { body with state := .running })
    else none
  | .settle b outcome => do
    let body ← s.bodies[b]?
    match body.state with
    | .running => some (s.modifyBody b fun body => { body with state := .settled outcome })
    | _ => none
  | .returnPass i => do
    let run ← s.passes[i]?
    let body ← s.bodies[run.body]?
    match run.stage, body.state with
    | .working, .settled outcome =>
      some (s.modifyPass i fun run => { run with stage := .returned outcome })
    | _, _ => none
  | .finallyPass i => do
    let run ← s.passes[i]?
    match run.stage with
    | .returned outcome => some (s.finallyPass i outcome)
    | _ => none
  | .settlePass i => do
    let run ← s.passes[i]?
    match run.stage with
    | .handled outcome => do
      let result ← s.passResult outcome run.next
      some (s.modifyPass i fun run => { run with stage := .settled result })
    | _ => none
  | .finallySweep => do
    let b ← s.dlqPromise
    let body ← s.bodies[b]?
    if body.isSettled then some { s with dlqPromise := none } else none
  | .close => some { s with closing := true }

/-- Events in any order. -/
abbrev run : Scheduler → List Event → Option Scheduler := Machine.run step

/-! ## What an event can do -/

/-- The pass a `finally` starts, when a trigger came in the meantime. -/
theorem finallyPass_eq (s : Scheduler) (i : ℕ) (outcome : Except Failure Unit) :
    s.finallyPass i outcome =
      if s.passCoalesced = true ∧ s.closing = false then
        ({ s with passPromise := none, passCoalesced := false } : Scheduler).startPass.modifyPass i
          fun run => { run with stage := .handled outcome, next := some s.passes.length }
      else ({ s with passPromise := none } : Scheduler).modifyPass i fun run =>
        { run with stage := .handled outcome } := by
  unfold finallyPass
  cases hco : s.passCoalesced with
  | false => simp
  | true =>
    cases hcl : s.closing with
    | true => simp
    | false => simp [triggerPass]

/-- The state after each event, with what was found before it. -/
inductive Effect (s : Scheduler) : Event → Scheduler → Prop
  | refused (hclosing : s.closing = true) : Effect s .triggerPass s
  | coalesced {i : ℕ} (hopen : s.closing = false) (hpass : s.passPromise = some i) :
    Effect s .triggerPass { s with passCoalesced := true }
  | passStarted (hopen : s.closing = false) (hidle : s.passPromise = none) :
    Effect s .triggerPass s.startPass
  | sweepShared : Effect s .triggerDlqSweep s
  | sweepStarted (hopen : s.closing = false) : Effect s .triggerDlqSweep
      { (s.scheduleMaintenance .sweep).2 with dlqPromise := some s.bodies.length }
  | bodyStarted {b : ℕ} {body : MaintenanceBody} (hb : s.bodies[b]? = some body)
      (hwait : body.state = .waiting) (hfree : s.isFree body = true) :
    Effect s (.start b) (s.modifyBody b fun body => { body with state := .running })
  | bodySettled {b : ℕ} {outcome : Except Failure Unit} {body : MaintenanceBody}
      (hb : s.bodies[b]? = some body) (hrun : body.state = .running) :
    Effect s (.settle b outcome) (s.modifyBody b fun body => { body with state := .settled outcome })
  | passReturned {i : ℕ} {run : PassRun} {body : MaintenanceBody} {outcome : Except Failure Unit}
      (hi : s.passes[i]? = some run) (hb : s.bodies[run.body]? = some body)
      (hstage : run.stage = .working) (hstate : body.state = .settled outcome) :
    Effect s (.returnPass i) (s.modifyPass i fun run => { run with stage := .returned outcome })
  | passContinued {i : ℕ} {run : PassRun} {outcome : Except Failure Unit}
      (hi : s.passes[i]? = some run) (hstage : run.stage = .returned outcome)
      (hco : s.passCoalesced = true) (hopen : s.closing = false) :
    Effect s (.finallyPass i)
      (({ s with passPromise := none, passCoalesced := false } : Scheduler).startPass.modifyPass i
        fun run => { run with stage := .handled outcome, next := some s.passes.length })
  | passLeft {i : ℕ} {run : PassRun} {outcome : Except Failure Unit}
      (hi : s.passes[i]? = some run) (hstage : run.stage = .returned outcome)
      (hno : ¬ (s.passCoalesced = true ∧ s.closing = false)) :
    Effect s (.finallyPass i) (({ s with passPromise := none } : Scheduler).modifyPass i fun run =>
      { run with stage := .handled outcome })
  | passSettled {i : ℕ} {run : PassRun} {outcome result : Except Failure Unit}
      (hi : s.passes[i]? = some run) (hstage : run.stage = .handled outcome)
      (hresult : s.passResult outcome run.next = some result) :
    Effect s (.settlePass i) (s.modifyPass i fun run => { run with stage := .settled result })
  | sweepOver : Effect s .finallySweep { s with dlqPromise := none }
  | closed : Effect s .close { s with closing := true }

theorem step_effect {s s' : Scheduler} {e : Event} (h : s.step e = some s') : Effect s e s' := by
  cases e with
  | triggerPass =>
    obtain rfl := Option.some.inj h
    unfold Scheduler.triggerPass
    split_ifs with hcl
    · exact .refused hcl
    · split
      next i hp => exact .coalesced (by simpa using hcl) hp
      next hp => exact .passStarted (by simpa using hcl) hp
  | triggerDlqSweep =>
    obtain rfl := Option.some.inj h
    unfold Scheduler.triggerDlqSweep
    split_ifs with hcl
    · exact .sweepShared
    · split
      · exact .sweepShared
      · exact .sweepStarted (by simpa using hcl)
  | start b =>
    obtain ⟨body, hb, hrest⟩ := Option.bind_eq_some_iff.1 h
    split_ifs at hrest with hcan
    obtain rfl := Option.some.inj hrest
    obtain ⟨hwait, hfree⟩ := Bool.and_eq_true_iff.1 hcan
    refine .bodyStarted hb ?_ hfree
    unfold MaintenanceBody.isWaiting at hwait
    split at hwait
    next hst => exact hst
    next => cases hwait
  | settle b outcome =>
    obtain ⟨body, hb, hrest⟩ := Option.bind_eq_some_iff.1 h
    split at hrest
    next hrun =>
      obtain rfl := Option.some.inj hrest
      exact .bodySettled hb hrun
    next => cases hrest
  | returnPass i =>
    obtain ⟨run, hi, hrest⟩ := Option.bind_eq_some_iff.1 h
    obtain ⟨body, hb, hrest⟩ := Option.bind_eq_some_iff.1 hrest
    split at hrest
    next outcome hstage hstate =>
      obtain rfl := Option.some.inj hrest
      exact .passReturned hi hb hstage hstate
    next => cases hrest
  | finallyPass i =>
    obtain ⟨run, hi, hrest⟩ := Option.bind_eq_some_iff.1 h
    split at hrest
    next outcome hstage =>
      obtain rfl := Option.some.inj hrest
      rw [finallyPass_eq]
      split_ifs with hco
      · exact .passContinued hi hstage hco.1 hco.2
      · exact .passLeft hi hstage hco
    next => cases hrest
  | settlePass i =>
    obtain ⟨run, hi, hrest⟩ := Option.bind_eq_some_iff.1 h
    split at hrest
    next outcome hstage =>
      obtain ⟨result, hresult, hrest⟩ := Option.bind_eq_some_iff.1 hrest
      obtain rfl := Option.some.inj hrest
      exact .passSettled hi hstage hresult
    next => cases hrest
  | finallySweep =>
    obtain ⟨b, -, hrest⟩ := Option.bind_eq_some_iff.1 h
    obtain ⟨body, -, hrest⟩ := Option.bind_eq_some_iff.1 hrest
    split_ifs at hrest
    obtain rfl := Option.some.inj hrest
    exact .sweepOver
  | close =>
    obtain rfl := Option.some.inj h
    exact .closed

/-! ## The chain of bodies -/

/-- Every body is chained to the one scheduled before it, and has started only if all of those have
settled. -/
structure Chained (s : Scheduler) : Prop where
  after : ∀ {b : ℕ} {body : MaintenanceBody}, s.bodies[b]? = some body →
    body.after = if b = 0 then none else some (b - 1)
  tail : s.maintenanceTail = if s.bodies.length = 0 then none else some (s.bodies.length - 1)
  ordered : ∀ {b j : ℕ} {body body' : MaintenanceBody}, s.bodies[b]? = some body →
    body.isWaiting = false → j < b → s.bodies[j]? = some body' → body'.isSettled = true

variable {s s' : Scheduler}

theorem Chained.schedule (h : s.Chained) (work : Work) : (s.scheduleMaintenance work).2.Chained where
  after {b body} hb := by
    rcases Table.getElem?_concat_cases hb with hold | ⟨rfl, rfl⟩
    · exact h.after hold
    · exact h.tail
  tail := by simp [scheduleMaintenance]
  ordered {b j body body'} hb hstarted hj hb' := by
    rcases Table.getElem?_concat_cases hb with hold | ⟨rfl, rfl⟩
    · rcases Table.getElem?_concat_cases hb' with hold' | ⟨rfl, -⟩
      · exact h.ordered hold hstarted hj hold'
      · have hlt := Table.lt_length hold
        omega
    · cases hstarted

/-- A body starts only when the one before it has settled, so all before it have. -/
theorem Chained.settled_of_free (h : s.Chained) {b j : ℕ} {body body' : MaintenanceBody}
    (hb : s.bodies[b]? = some body) (hfree : s.isFree body = true) (hj : j < b)
    (hb' : s.bodies[j]? = some body') : body'.isSettled = true := by
  unfold isFree at hfree
  rw [h.after hb, if_neg (by omega)] at hfree
  obtain ⟨prev, hprev, hsettled⟩ := (Option.any_eq_true _ _).1 hfree
  by_cases hlast : j = b - 1
  · subst hlast
    obtain rfl := Option.some.inj (hb'.symm.trans hprev)
    exact hsettled
  · have hstarted : prev.isWaiting = false := by
      unfold MaintenanceBody.isSettled at hsettled
      unfold MaintenanceBody.isWaiting
      cases hstate : prev.state with
      | waiting => rw [hstate] at hsettled; cases hsettled
      | running => rfl
      | settled outcome => rfl
    exact h.ordered hprev hstarted (by omega) hb'

/-- A body goes on: it may start only when it is free, and does not take a settlement back. -/
theorem Chained.modifyBody (h : s.Chained) {b : ℕ} {body : MaintenanceBody}
    {f : MaintenanceBody → MaintenanceBody}
    (hb : s.bodies[b]? = some body) (hafter : (f body).after = body.after)
    (hstart : body.isWaiting = true → s.isFree body = true)
    (hsettled : body.isSettled = true → (f body).isSettled = true) : (s.modifyBody b f).Chained where
  after {b' body'} hb' := by
    rcases Table.getElem?_modify_cases hb' with ⟨rfl, old, hold, rfl⟩ | ⟨-, hold⟩
    · obtain rfl := Option.some.inj (hb.symm.trans hold)
      rw [hafter]
      exact h.after hb
    · exact h.after hold
  tail := by
    show s.maintenanceTail = if (s.bodies.modify b f).length = 0 then none
      else some ((s.bodies.modify b f).length - 1)
    rw [List.length_modify]
    exact h.tail
  ordered {k j bk bj} hk hstarted hj hbj := by
    -- all bodies before `k` had settled before this change
    have hbefore : ∀ {old : MaintenanceBody}, s.bodies[j]? = some old → old.isSettled = true := by
      intro old hold
      rcases Table.getElem?_modify_cases hk with ⟨rfl, oldk, holdk, rfl⟩ | ⟨-, holdk⟩
      · obtain rfl := Option.some.inj (hb.symm.trans holdk)
        cases hw : body.isWaiting with
        | true => exact h.settled_of_free hb (hstart hw) hj hold
        | false => exact h.ordered hb hw hj hold
      · exact h.ordered holdk hstarted hj hold
    rcases Table.getElem?_modify_cases hbj with ⟨rfl, old, hold, rfl⟩ | ⟨-, hold⟩
    · have hset := hbefore hold
      obtain rfl := Option.some.inj (hb.symm.trans hold)
      exact hsettled hset
    · exact hbefore hold

/-! ## The passes -/

/-- Every pass has its body, whose settlement it waits for; the pass whose `finally` is still to run
is the one `passPromise` holds; and a settled pass has waited for the one its `finally` started. -/
structure Passing (s : Scheduler) : Prop where
  passBody : ∀ {i : ℕ} {run : PassRun}, s.passes[i]? = some run →
    ∃ body : MaintenanceBody, s.bodies[run.body]? = some body ∧ body.work = .pass ∧
      (run.stage ≠ .working → body.isSettled = true)
  bodyPass : ∀ {b : ℕ} {body : MaintenanceBody}, s.bodies[b]? = some body → body.work = .pass →
    ∃ (i : ℕ) (run : PassRun), s.passes[i]? = some run ∧ run.body = b
  early : ∀ {i : ℕ} {run : PassRun}, s.passes[i]? = some run → run.isEarly = true →
    s.passPromise = some i
  current : ∀ {i : ℕ}, s.passPromise = some i →
    ∃ run : PassRun, s.passes[i]? = some run ∧ run.isEarly = true
  next : ∀ {i n : ℕ} {run : PassRun}, s.passes[i]? = some run → run.next = some n →
    ∃ run' : PassRun, s.passes[n]? = some run' ∧ i < n ∧ (run.isSettled = true → run'.isSettled = true)
  unlinked : ∀ {i : ℕ} {run : PassRun}, s.passes[i]? = some run → run.isEarly = true →
    run.next = none

theorem Passing.schedule_sweep (h : s.Passing) : (s.scheduleMaintenance .sweep).2.Passing where
  passBody hi := by
    obtain ⟨body, hb, hwork, hset⟩ := h.passBody hi
    exact ⟨body, Table.getElem?_concat_of_some hb _, hwork, hset⟩
  bodyPass hb hwork := by
    rcases Table.getElem?_concat_cases hb with hold | ⟨-, rfl⟩
    · exact h.bodyPass hold hwork
    · cases hwork
  early := h.early
  current := h.current
  next := h.next
  unlinked := h.unlinked

/-- A pass starts when none is before its `finally`. -/
theorem Passing.startPass (h : s.Passing)
    (hidle : ∀ {i : ℕ} {run : PassRun}, s.passes[i]? = some run → run.isEarly = false) :
    s.startPass.Passing where
  passBody hi := by
    rcases Table.getElem?_concat_cases hi with hold | ⟨-, rfl⟩
    · obtain ⟨body, hb, hwork, hset⟩ := h.passBody hold
      exact ⟨body, Table.getElem?_concat_of_some hb _, hwork, hset⟩
    · exact ⟨_, List.getElem?_concat_length, rfl, fun hne => absurd rfl hne⟩
  bodyPass hb hwork := by
    rcases Table.getElem?_concat_cases hb with hold | ⟨rfl, -⟩
    · obtain ⟨i, run, hi, hbody⟩ := h.bodyPass hold hwork
      exact ⟨i, run, Table.getElem?_concat_of_some hi _, hbody⟩
    · exact ⟨_, _, List.getElem?_concat_length, rfl⟩
  early hi hearly := by
    rcases Table.getElem?_concat_cases hi with hold | ⟨rfl, -⟩
    · rw [hidle hold] at hearly
      cases hearly
    · rfl
  current hi := by
    obtain rfl := Option.some.inj hi
    exact ⟨_, List.getElem?_concat_length, rfl⟩
  next hi hn := by
    rcases Table.getElem?_concat_cases hi with hold | ⟨-, rfl⟩
    · obtain ⟨run', hrun', hlt, hset⟩ := h.next hold hn
      exact ⟨run', Table.getElem?_concat_of_some hrun' _, hlt, hset⟩
    · cases hn
  unlinked hi hearly := by
    rcases Table.getElem?_concat_cases hi with hold | ⟨-, rfl⟩
    · exact h.unlinked hold hearly
    · rfl

theorem Passing.modifyBody (h : s.Passing) {b : ℕ} {body : MaintenanceBody}
    {f : MaintenanceBody → MaintenanceBody}
    (hb : s.bodies[b]? = some body) (hwork : (f body).work = body.work)
    (hsettled : body.isSettled = true → (f body).isSettled = true) : (s.modifyBody b f).Passing where
  passBody hi := by
    obtain ⟨old, hold, hw, hset⟩ := h.passBody hi
    refine ⟨_, Table.getElem?_modify_of_some hold, ?_⟩
    split_ifs with hbb
    · subst hbb
      obtain rfl := Option.some.inj (hb.symm.trans hold)
      exact ⟨hwork.trans hw, fun hne => hsettled (hset hne)⟩
    · exact ⟨hw, hset⟩
  bodyPass hb' hw := by
    rcases Table.getElem?_modify_cases hb' with ⟨rfl, old, hold, rfl⟩ | ⟨-, hold⟩
    · obtain rfl := Option.some.inj (hb.symm.trans hold)
      exact h.bodyPass hb (hwork.symm.trans hw)
    · exact h.bodyPass hold hw
  early := h.early
  current := h.current
  next := h.next
  unlinked := h.unlinked

/-- A pass goes on to its next stage, on the same side of its `finally`. -/
theorem Passing.advance (h : s.Passing) {i : ℕ} {run : PassRun} {stage : PassRunStage}
    (hi : s.passes[i]? = some run)
    (hearly : ({ run with stage := stage } : PassRun).isEarly = run.isEarly)
    (hbody : ∀ body : MaintenanceBody, s.bodies[run.body]? = some body → body.isSettled = true)
    (hlate : run.isSettled = true → ({ run with stage := stage } : PassRun).isSettled = true)
    (hnext : ∀ n, run.next = some n → ({ run with stage := stage } : PassRun).isSettled = true →
      ∃ run' : PassRun, s.passes[n]? = some run' ∧ run'.isSettled = true) :
    (s.modifyPass i fun run => { run with stage := stage }).Passing where
  passBody hi' := by
    rcases Table.getElem?_modify_cases hi' with ⟨rfl, old, hold, rfl⟩ | ⟨-, hold⟩
    · obtain rfl := Option.some.inj (hi.symm.trans hold)
      obtain ⟨body, hb, hwork, -⟩ := h.passBody hi
      exact ⟨body, hb, hwork, fun _ => hbody body hb⟩
    · exact h.passBody hold
  bodyPass hb hwork := by
    obtain ⟨i', run', hi', hb'⟩ := h.bodyPass hb hwork
    refine ⟨i', _, Table.getElem?_modify_of_some hi', ?_⟩
    split_ifs
    · exact hb'
    · exact hb'
  early hi' he := by
    rcases Table.getElem?_modify_cases hi' with ⟨rfl, old, hold, rfl⟩ | ⟨-, hold⟩
    · obtain rfl := Option.some.inj (hi.symm.trans hold)
      exact h.early hi (hearly.symm.trans he)
    · exact h.early hold he
  current hp := by
    obtain ⟨run', hi', he⟩ := h.current hp
    refine ⟨_, Table.getElem?_modify_of_some hi', ?_⟩
    split_ifs with hii
    · subst hii
      obtain rfl := Option.some.inj (hi.symm.trans hi')
      exact hearly.trans he
    · exact he
  next {i' n run'} hi' hn := by
    -- the pass waited for, after the change of pass `i`
    have hkeep : ∀ {r : PassRun}, s.passes[n]? = some r → ∃ r' : PassRun,
        (s.modifyPass i fun run => { run with stage := stage }).passes[n]? = some r' ∧
          (r.isSettled = true → r'.isSettled = true) := by
      intro r hr
      refine ⟨_, Table.getElem?_modify_of_some hr, ?_⟩
      split_ifs with hin
      · subst hin
        obtain rfl := Option.some.inj (hi.symm.trans hr)
        exact hlate
      · exact id
    rcases Table.getElem?_modify_cases hi' with ⟨rfl, old, hold, rfl⟩ | ⟨-, hold⟩
    · obtain rfl := Option.some.inj (hi.symm.trans hold)
      obtain ⟨r, hr, hlt, -⟩ := h.next hi hn
      obtain ⟨r', hr', hset⟩ := hkeep hr
      refine ⟨r', hr', hlt, fun hs => hset ?_⟩
      obtain ⟨r₁, hr₁, hs₁⟩ := hnext n hn hs
      obtain rfl := Option.some.inj (hr.symm.trans hr₁)
      exact hs₁
    · obtain ⟨r, hr, hlt, hset⟩ := h.next hold hn
      obtain ⟨r', hr', hset'⟩ := hkeep hr
      exact ⟨r', hr', hlt, fun hs => hset' (hset hs)⟩
  unlinked hi' he := by
    rcases Table.getElem?_modify_cases hi' with ⟨rfl, old, hold, rfl⟩ | ⟨-, hold⟩
    · obtain rfl := Option.some.inj (hi.symm.trans hold)
      have hnone := h.unlinked hi (hearly.symm.trans he)
      exact hnone
    · exact h.unlinked hold he

/-- The `finally` of a pass leaves no pass before its own. -/
theorem Passing.leave (h : s.Passing) {i : ℕ} {run : PassRun} {outcome : Except Failure Unit}
    (hi : s.passes[i]? = some run) (hret : run.stage = .returned outcome) :
    (({ s with passPromise := none } : Scheduler).modifyPass i fun run =>
      { run with stage := .handled outcome }).Passing ∧
    ∀ {i' : ℕ} {run' : PassRun},
      (s.passes.modify i fun run => { run with stage := .handled outcome })[i']? = some run' →
      run'.isEarly = false := by
  have hearly : run.isEarly = true := by
    unfold PassRun.isEarly
    rw [hret]
  have hidle : ∀ {i' : ℕ} {run' : PassRun},
      (s.passes.modify i fun run => { run with stage := .handled outcome })[i']? = some run' →
      run'.isEarly = false := by
    intro i' run' hi'
    rcases Table.getElem?_modify_cases hi' with ⟨-, old, -, rfl⟩ | ⟨hne, hold⟩
    · rfl
    · by_contra he
      have hsame := (h.early hi hearly).symm.trans (h.early hold (by simpa using he))
      exact hne (Option.some.inj hsame)
  refine ⟨⟨?_, ?_, ?_, ?_, ?_, ?_⟩, hidle⟩
  · intro i' run' hi'
    rcases Table.getElem?_modify_cases hi' with ⟨rfl, old, hold, rfl⟩ | ⟨-, hold⟩
    · obtain rfl := Option.some.inj (hi.symm.trans hold)
      obtain ⟨body, hb, hwork, hset⟩ := h.passBody hi
      exact ⟨body, hb, hwork, fun _ => hset (by rw [hret]; exact PassRunStage.noConfusion)⟩
    · exact h.passBody hold
  · intro b body hb hwork
    obtain ⟨i', run', hi', hb'⟩ := h.bodyPass hb hwork
    refine ⟨i', _, Table.getElem?_modify_of_some hi', ?_⟩
    split_ifs
    · exact hb'
    · exact hb'
  · intro i' run' hi' he
    rw [hidle hi'] at he
    cases he
  · intro i' hi'
    cases hi'
  · intro i' n run' hi' hn
    have hkeep : ∀ {r : PassRun}, s.passes[n]? = some r → ∃ r' : PassRun,
        (s.passes.modify i fun run => { run with stage := .handled outcome })[n]? = some r' ∧
          (r.isSettled = true → r'.isSettled = true) := by
      intro r hr
      refine ⟨_, Table.getElem?_modify_of_some hr, ?_⟩
      split_ifs with hin
      · subst hin
        obtain rfl := Option.some.inj (hi.symm.trans hr)
        intro hs
        unfold PassRun.isSettled at hs
        rw [hret] at hs
        cases hs
      · exact id
    rcases Table.getElem?_modify_cases hi' with ⟨rfl, old, hold, rfl⟩ | ⟨-, hold⟩
    · obtain ⟨r, hr, hlt, -⟩ := h.next hold hn
      obtain ⟨r', hr', -⟩ := hkeep hr
      exact ⟨r', hr', hlt, fun hs => by cases hs⟩
    · obtain ⟨r, hr, hlt, hset⟩ := h.next hold hn
      obtain ⟨r', hr', hset'⟩ := hkeep hr
      exact ⟨r', hr', hlt, fun hs => hset' (hset hs)⟩
  · intro i' run' hi' he
    rw [hidle hi'] at he
    cases he

/-- A pass whose `finally` has run and that has not settled waits for a later one. -/
theorem Passing.link (h : s.Passing) {i n : ℕ} {run run' : PassRun} (hi : s.passes[i]? = some run)
    (hlate : run.isEarly = false) (hopen : run.isSettled = false) (hn : s.passes[n]? = some run')
    (hlt : i < n) :
    (s.modifyPass i fun run => { run with next := some n }).Passing where
  passBody hi' := by
    rcases Table.getElem?_modify_cases hi' with ⟨-, old, hold, rfl⟩ | ⟨-, hold⟩
    · have hb := h.passBody hold
      exact hb
    · exact h.passBody hold
  bodyPass hb hwork := by
    obtain ⟨j, r, hj, hb'⟩ := h.bodyPass hb hwork
    refine ⟨j, _, Table.getElem?_modify_of_some hj, ?_⟩
    split_ifs
    · exact hb'
    · exact hb'
  early hi' he := by
    rcases Table.getElem?_modify_cases hi' with ⟨-, old, hold, rfl⟩ | ⟨-, hold⟩
    · exact h.early hold he
    · exact h.early hold he
  current hp := by
    obtain ⟨r, hr, he⟩ := h.current hp
    refine ⟨_, Table.getElem?_modify_of_some hr, ?_⟩
    split_ifs
    · exact he
    · exact he
  next {j m r} hj hm := by
    have hkeep : ∀ {m : ℕ} {r : PassRun}, s.passes[m]? = some r → ∃ r' : PassRun,
        (s.modifyPass i fun run => { run with next := some n }).passes[m]? = some r' ∧
          (r.isSettled = true → r'.isSettled = true) := by
      intro m r hr
      refine ⟨_, Table.getElem?_modify_of_some hr, ?_⟩
      split_ifs
      · exact id
      · exact id
    rcases Table.getElem?_modify_cases hj with ⟨rfl, old, hold, rfl⟩ | ⟨-, hold⟩
    · obtain rfl := Option.some.inj (hi.symm.trans hold)
      obtain rfl := Option.some.inj hm
      obtain ⟨r', hr', -⟩ := hkeep hn
      refine ⟨r', hr', hlt, fun hs => ?_⟩
      have hs' : run.isSettled = true := hs
      rw [hopen] at hs'
      cases hs'
    · obtain ⟨r', hr', hlt', hset⟩ := h.next hold hm
      obtain ⟨r'', hr'', hset'⟩ := hkeep hr'
      exact ⟨r'', hr'', hlt', fun hs => hset' (hset hs)⟩
  unlinked hj he := by
    rcases Table.getElem?_modify_cases hj with ⟨rfl, old, hold, rfl⟩ | ⟨-, hold⟩
    · obtain rfl := Option.some.inj (hi.symm.trans hold)
      have he' : run.isEarly = true := he
      rw [hlate] at he'
      cases he'
    · exact h.unlinked hold he

/-! ## Every event -/

/-- Of every reachable state. -/
structure Inv (s : Scheduler) : Prop where
  chained : s.Chained
  passing : s.Passing

theorem inv_initial : initial.Inv where
  chained := by
    constructor
    · intro b body h
      cases h
    · rfl
    · intro b j body body' h
      cases h
  passing := by
    constructor
    · intro i run h
      cases h
    · intro b body h
      cases h
    · intro i run h
      cases h
    · intro i h
      cases h
    · intro i n run h
      cases h
    · intro i run h
      cases h

theorem Inv.startPass (h : s.Inv)
    (hidle : ∀ {i : ℕ} {run : PassRun}, s.passes[i]? = some run → run.isEarly = false) :
    s.startPass.Inv where
  chained := by
    have hc := h.chained.schedule .pass
    exact ⟨hc.after, hc.tail, hc.ordered⟩
  passing := h.passing.startPass hidle

theorem Inv.of_same (h : s.Inv) (hbodies : s'.bodies = s.bodies)
    (htail : s'.maintenanceTail = s.maintenanceTail) (hpasses : s'.passes = s.passes)
    (hpass : s'.passPromise = s.passPromise) : s'.Inv := by
  obtain ⟨⟨hafter, hlast, hordered⟩, hbody, hwork, hearly, hcurrent, hnext, hunlinked⟩ := h
  constructor
  · constructor
    · rw [hbodies]
      exact hafter
    · rw [hbodies, htail]
      exact hlast
    · rw [hbodies]
      exact hordered
  · constructor
    · rw [hbodies, hpasses]
      exact hbody
    · rw [hbodies, hpasses]
      exact hwork
    · rw [hpasses, hpass]
      exact hearly
    · rw [hpasses, hpass]
      exact hcurrent
    · rw [hpasses]
      exact hnext
    · rw [hpasses]
      exact hunlinked

/-- The `finally` of a pass leaves, starts the next pass, and waits for it. -/
theorem Inv.continuePass (h : s.Inv) {i : ℕ} {run : PassRun} {outcome : Except Failure Unit}
    (hi : s.passes[i]? = some run) (hret : run.stage = .returned outcome) :
    (({ s with passPromise := none, passCoalesced := false } : Scheduler).startPass.modifyPass i
      fun run => { run with stage := .handled outcome, next := some s.passes.length }).Inv := by
  obtain ⟨hp, hidle⟩ := h.passing.leave hi hret
  have hlt := Table.lt_length hi
  have hbase : (({ s with passPromise := none, passCoalesced := false } : Scheduler).modifyPass i
      fun run => { run with stage := .handled outcome }).Inv :=
    ⟨⟨h.chained.after, h.chained.tail, h.chained.ordered⟩,
      ⟨hp.passBody, hp.bodyPass, hp.early, hp.current, hp.next, hp.unlinked⟩⟩
  have hstarted := hbase.startPass hidle
  have hlen : (s.passes.modify i fun run =>
      { run with stage := .handled outcome }).length = s.passes.length := List.length_modify ..
  have hold : (s.passes.modify i fun run => { run with stage := .handled outcome })[i]? =
      some { run with stage := .handled outcome } := by
    rw [Table.getElem?_modify_of_some hi, if_pos rfl]
  have hnew : ((s.passes.modify i fun run => { run with stage := .handled outcome }) ++
      [⟨s.bodies.length, .working, none⟩])[s.passes.length]? =
      some ⟨s.bodies.length, .working, none⟩ := by
    rw [← hlen]
    exact List.getElem?_concat_length
  have hlink := hstarted.passing.link (Table.getElem?_concat_of_some hold _) rfl rfl hnew hlt
  have heq : (({ s with passPromise := none, passCoalesced := false } :
      Scheduler).startPass.modifyPass i fun run =>
        { run with stage := .handled outcome, next := some s.passes.length }) =
      ((({ s with passPromise := none, passCoalesced := false } : Scheduler).modifyPass i
        fun run => { run with stage := .handled outcome }).startPass.modifyPass i
          fun run => { run with next := some s.passes.length }) := by
    simp only [Scheduler.startPass, scheduleMaintenance, modifyPass, hlen]
    congr 1
    rw [Table.modify_concat hlt, Table.modify_concat (by rw [hlen]; exact hlt),
      List.modify_modify_eq]
    rfl
  rw [heq]
  exact ⟨⟨hstarted.chained.after, hstarted.chained.tail, hstarted.chained.ordered⟩, hlink⟩

/-- Every event keeps the invariant. -/
theorem Inv.step (h : s.Inv) {e : Event} (hstep : s.step e = some s') : s'.Inv := by
  cases step_effect hstep with
  | refused hclosing => exact h
  | coalesced hopen hpass => exact h.of_same rfl rfl rfl rfl
  | passStarted hopen hnone =>
    apply h.startPass
    intro i run hi
    by_contra he
    have hcur := h.passing.early hi (by simpa using he)
    rw [hnone] at hcur
    cases hcur
  | sweepShared => exact h
  | sweepStarted hopen =>
    have hnew : (s.scheduleMaintenance .sweep).2.Inv :=
      ⟨h.chained.schedule .sweep, h.passing.schedule_sweep⟩
    exact hnew.of_same rfl rfl rfl rfl
  | bodyStarted hb hwait hfree =>
    refine ⟨h.chained.modifyBody hb rfl (fun _ => hfree) (fun hs => ?_),
      h.passing.modifyBody hb rfl (fun hs => ?_)⟩
    · rw [MaintenanceBody.isSettled, hwait] at hs
      cases hs
    · rw [MaintenanceBody.isSettled, hwait] at hs
      cases hs
  | bodySettled hb hrun =>
    refine ⟨h.chained.modifyBody hb rfl (fun hw => ?_) (fun _ => rfl),
      h.passing.modifyBody hb rfl (fun _ => rfl)⟩
    rw [MaintenanceBody.isWaiting, hrun] at hw
    cases hw
  | passReturned hi hb hstage hstate =>
    refine ⟨⟨h.chained.after, h.chained.tail, h.chained.ordered⟩, h.passing.advance hi ?_ ?_ ?_ ?_⟩
    · rw [PassRun.isEarly, PassRun.isEarly, hstage]
    · intro body' hb'
      obtain rfl := Option.some.inj (hb.symm.trans hb')
      rw [MaintenanceBody.isSettled, hstate]
    · intro hs
      rw [PassRun.isSettled, hstage] at hs
      cases hs
    · intro n _ hs
      cases hs
  | passContinued hi hstage hco hopen => exact h.continuePass hi hstage
  | passLeft hi hstage hno =>
    exact ⟨⟨h.chained.after, h.chained.tail, h.chained.ordered⟩, (h.passing.leave hi hstage).1⟩
  | passSettled hi hstage hresult =>
    refine ⟨⟨h.chained.after, h.chained.tail, h.chained.ordered⟩, h.passing.advance hi ?_ ?_ ?_ ?_⟩
    · rw [PassRun.isEarly, PassRun.isEarly, hstage]
    · intro body hb
      obtain ⟨body', hb', -, hset⟩ := h.passing.passBody hi
      obtain rfl := Option.some.inj (hb.symm.trans hb')
      exact hset (by rw [hstage]; exact PassRunStage.noConfusion)
    · intro _
      rfl
    · intro n hn _
      rw [hn] at hresult
      obtain ⟨run', hrun', hset⟩ := Option.bind_eq_some_iff.1 hresult
      refine ⟨run', hrun', ?_⟩
      unfold PassRun.isSettled
      split at hset
      next hs => rw [hs]
      next hs => rw [hs]
      next => cases hset
  | sweepOver => exact h.of_same rfl rfl rfl rfl
  | closed => exact h.of_same rfl rfl rfl rfl

theorem Inv.run (h : s.Inv) {es : List Event} (hrun : s.run es = some s') : s'.Inv :=
  Machine.invariant (fun _ _ _ hI hstep => Inv.step hI hstep) h hrun

end Scheduler

end FlashSale
