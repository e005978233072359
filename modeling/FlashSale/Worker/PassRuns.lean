import FlashSale.Worker.PassCoalescing

/-!
# Runs of coalesced passes

A trigger that starts a pass owns its body; one that finds a pass in flight leaves the flag behind, and
is owed the pass that the `finally` starts (`Scheduler.Owed`). Every promise can still settle: some
event is possible as long as a pass has not settled, and each brings all of them closer to their end
(`Scheduler.effort`).
-/

namespace FlashSale

def MaintenanceBody.effort (body : MaintenanceBody) : ℕ :=
  match body.state with
  | .waiting => 2
  | .running => 1
  | .settled _ => 0

def PassRun.effort (run : PassRun) : ℕ :=
  match run.stage with
  | .working => 3
  | .returned _ => 2
  | .handled _ => 1
  | .settled _ => 0

namespace Scheduler

variable {s s' : Scheduler}

/-! ## Bodies -/

/-- Body `b` waits, if there is one. -/
def Unstarted (s : Scheduler) (b : ℕ) : Prop :=
  ∀ body, s.bodies[b]? = some body → body.isWaiting = true

theorem Unstarted.concat {b : ℕ} (h : s.Unstarted b) {work : Work} {after : Option ℕ}
    (heq : s'.bodies = s.bodies ++ [⟨work, after, .waiting⟩]) : s'.Unstarted b := by
  intro body hbody
  rw [heq] at hbody
  rcases Table.getElem?_concat_cases hbody with hold | ⟨-, rfl⟩
  · exact h body hold
  · rfl

theorem step_unstarted {e : Event} {b : ℕ} (h : s.step e = some s') (hb : s.Unstarted b) :
    e = .start b ∨ s'.Unstarted b := by
  cases step_effect h with
  | refused _ | coalesced _ _ | sweepShared | passReturned _ _ _ _ | passLeft _ _ _
  | passSettled _ _ _ | sweepOver | closed => exact .inr hb
  | passStarted _ _ => exact .inr (hb.concat rfl)
  | sweepStarted _ => exact .inr (hb.concat rfl)
  | passContinued _ _ _ _ => exact .inr (hb.concat rfl)
  | @bodyStarted b' body hb' _ _ =>
    by_cases hbb : b' = b
    · exact .inl (by rw [hbb])
    · refine .inr fun body hbody => ?_
      rcases Table.getElem?_modify_cases hbody with ⟨hsame, -⟩ | ⟨-, hold⟩
      · exact absurd hsame hbb
      · exact hb body hold
  | bodySettled hb' hrun =>
    refine .inr fun body hbody => ?_
    rcases Table.getElem?_modify_cases hbody with ⟨rfl, old, hold, rfl⟩ | ⟨-, hold⟩
    · have hw := hb _ hb'
      rw [MaintenanceBody.isWaiting, hrun] at hw
      cases hw
    · exact hb body hold

/-- A body that starts in a run is started by an event of the run. -/
theorem start_mem_of_run {es : List Event} {b : ℕ} (h : s.run es = some s') (hb : s.Unstarted b) :
    .start b ∈ es ∨ s'.Unstarted b := by
  induction es generalizing s with
  | nil =>
    obtain rfl := Option.some.inj h
    exact .inr hb
  | cons e es ih =>
    obtain ⟨t, hstep, hrest⟩ := Machine.run_cons h
    rcases step_unstarted hstep hb with rfl | ht
    · exact .inl List.mem_cons_self
    · rcases ih hrest ht with hmem | hs'
      · exact .inl (List.mem_cons_of_mem _ hmem)
      · exact .inr hs'

/-! ## Passes -/

/-- A pass keeps its body, and the pass it waits for. -/
def Keeps (s s' : Scheduler) : Prop :=
  ∀ (i : ℕ) (run : PassRun), s.passes[i]? = some run →
    ∃ run' : PassRun, s'.passes[i]? = some run' ∧ run'.body = run.body ∧
      ∀ n, run.next = some n → run'.next = some n

theorem Keeps.of_eq (h : s'.passes = s.passes) : s.Keeps s' := by
  intro i run hi
  exact ⟨run, by rw [h]; exact hi, rfl, fun _ => id⟩

theorem keeps_startPass (s : Scheduler) : s.Keeps s.startPass := by
  intro i run hi
  exact ⟨run, Table.getElem?_concat_of_some hi _, rfl, fun _ => id⟩

theorem keeps_modifyPass {i : ℕ} {run : PassRun} {f : PassRun → PassRun}
    (hi : s.passes[i]? = some run) (hbody : (f run).body = run.body)
    (hnext : ∀ n, run.next = some n → (f run).next = some n) : s.Keeps (s.modifyPass i f) := by
  intro i' run' hi'
  refine ⟨_, Table.getElem?_modify_of_some hi', ?_⟩
  split_ifs with hii
  · subst hii
    obtain rfl := Option.some.inj (hi.symm.trans hi')
    exact ⟨hbody, hnext⟩
  · exact ⟨rfl, fun _ => id⟩

theorem Keeps.trans {s'' : Scheduler} (h : s.Keeps s') (h' : s'.Keeps s'') : s.Keeps s'' := by
  intro i run hi
  obtain ⟨run', hi', hb', hn'⟩ := h i run hi
  obtain ⟨run'', hi'', hb'', hn''⟩ := h' i run' hi'
  exact ⟨run'', hi'', hb''.trans hb', fun n hn => hn'' n (hn' n hn)⟩

theorem keeps_step (hI : s.Inv) {e : Event} (h : s.step e = some s') : s.Keeps s' := by
  cases step_effect h with
  | refused _ | coalesced _ _ | sweepShared | sweepStarted _ | bodyStarted _ _ _ | bodySettled _ _
  | sweepOver | closed => exact .of_eq rfl
  | passStarted _ _ => exact keeps_startPass s
  | passReturned hi _ _ _ => exact keeps_modifyPass hi rfl fun _ => id
  | passLeft hi _ _ =>
    exact keeps_modifyPass (s := { s with passPromise := none }) hi rfl fun _ => id
  | passSettled hi _ _ => exact keeps_modifyPass hi rfl fun _ => id
  | passContinued hi hstage _ _ =>
    -- before its `finally` a pass waits for no other
    have hnone := hI.passing.unlinked hi (by rw [PassRun.isEarly, hstage])
    have hst : s.Keeps
        ({ s with passPromise := none, passCoalesced := false } : Scheduler).startPass :=
      keeps_startPass ({ s with passPromise := none, passCoalesced := false } : Scheduler)
    apply hst.trans
    exact keeps_modifyPass (Table.getElem?_concat_of_some hi _) rfl
      fun n hn => by rw [hnone] at hn; cases hn

/-! ## What a trigger is owed -/

/-- Pass `i` is, or waits for, a pass whose body was scheduled as number `b` or later. -/
def Served (s : Scheduler) (i b : ℕ) : Prop :=
  ∃ (n : ℕ) (run run' : PassRun), s.passes[i]? = some run ∧ (n = i ∨ run.next = some n) ∧
    s.passes[n]? = some run' ∧ b ≤ run'.body

/-- Where a trigger stands that was given the promise of pass `i` when `b` bodies were scheduled. -/
def Owed (s : Scheduler) (i b : ℕ) : Prop :=
  s.closing = true ∨ (s.passPromise = some i ∧ s.passCoalesced = true ∧ b ≤ s.bodies.length) ∨
    s.Served i b

theorem Served.keeps {i b : ℕ} (h : s.Served i b) (hk : s.Keeps s') : s'.Served i b := by
  obtain ⟨n, run, run', hi, hn, hrun', hb⟩ := h
  obtain ⟨r, hr, -, hnext⟩ := hk i run hi
  obtain ⟨r', hr', hbody, -⟩ := hk n run' hrun'
  refine ⟨n, r, r', hr, ?_, hr', hbody ▸ hb⟩
  rcases hn with rfl | hn
  · exact .inl rfl
  · exact .inr (hnext n hn)

/-- The `finally` of a pass with a coalesced trigger starts the pass it waits for. -/
theorem served_continued {i b : ℕ} {run : PassRun} {outcome : Except Failure Unit}
    (hi : s.passes[i]? = some run) (hb : b ≤ s.bodies.length) :
    (({ s with passPromise := none, passCoalesced := false } : Scheduler).startPass.modifyPass i
      fun run => { run with stage := .handled outcome, next := some s.passes.length }).Served i b := by
  have hlt := Table.lt_length hi
  have hold : (s.passes ++ [⟨s.bodies.length, .working, none⟩])[i]? = some run :=
    Table.getElem?_concat_of_some hi _
  have hnew : (s.passes ++ [⟨s.bodies.length, .working, none⟩])[s.passes.length]? =
      some ⟨s.bodies.length, .working, none⟩ := List.getElem?_concat_length
  have hold' := Table.getElem?_modify_of_some (i := i) (f := fun run : PassRun =>
    { run with stage := .handled outcome, next := some s.passes.length }) hold
  have hnew' := Table.getElem?_modify_of_some (i := i) (f := fun run : PassRun =>
    { run with stage := .handled outcome, next := some s.passes.length }) hnew
  rw [if_pos rfl] at hold'
  rw [if_neg (by omega)] at hnew'
  exact ⟨s.passes.length, _, _, hold', .inr rfl, hnew', hb⟩

theorem Owed.step {i b : ℕ} (hI : s.Inv) (h : s.Owed i b) {e : Event} (hstep : s.step e = some s') :
    s'.Owed i b := by
  rcases h with hcl | ⟨hp, hco, hle⟩ | hserved
  · -- a closing service stays so
    left
    cases step_effect hstep with
    | closed => rfl
    | refused _ | coalesced _ _ | passStarted _ _ | sweepShared | sweepStarted _
    | bodyStarted _ _ _ | bodySettled _ _ | passReturned _ _ _ _ | passContinued _ _ _ _
    | passLeft _ _ _ | passSettled _ _ _ | sweepOver => exact hcl
  · -- the flag stays up until the `finally` of pass `i` takes it down
    cases step_effect hstep with
    | refused _ | sweepShared | passReturned _ _ _ _ | passSettled _ _ _ | sweepOver =>
      exact .inr (.inl ⟨hp, hco, hle⟩)
    | coalesced _ _ => exact .inr (.inl ⟨hp, rfl, hle⟩)
    | passStarted _ hnone =>
      rw [hnone] at hp
      cases hp
    | sweepStarted _ =>
      refine .inr (.inl ⟨hp, hco, ?_⟩)
      show b ≤ (s.bodies ++ [_]).length
      rw [List.length_append]
      omega
    | bodyStarted _ _ _ | bodySettled _ _ =>
      refine .inr (.inl ⟨hp, hco, ?_⟩)
      show b ≤ (s.bodies.modify _ _).length
      rw [List.length_modify]
      exact hle
    | passContinued hi hstage _ _ =>
      have hcur := hI.passing.early hi (by rw [PassRun.isEarly, hstage])
      obtain rfl := Option.some.inj (hp.symm.trans hcur)
      exact .inr (.inr (served_continued hi hle))
    | passLeft _ _ hno =>
      left
      show s.closing = true
      by_contra hcl
      exact hno ⟨hco, by simpa using hcl⟩
    | closed => exact .inl rfl
  · exact .inr (.inr (hserved.keeps (keeps_step hI hstep)))

theorem Owed.run {i b : ℕ} (hI : s.Inv) (h : s.Owed i b) {es : List Event}
    (hrun : s.run es = some s') : s'.Owed i b :=
  (Machine.invariant (I := fun s : Scheduler => s.Inv ∧ s.Owed i b)
    (fun _ _ _ hs hstep => ⟨hs.1.step hstep, hs.2.step hs.1 hstep⟩) ⟨hI, h⟩ hrun).2

/-- What `triggerPass` owes its caller. -/
theorem owed_triggerPass {i : ℕ} (h : s.triggerPass.1 = .ok i) :
    s.triggerPass.2.Owed i s.bodies.length := by
  unfold Scheduler.triggerPass at h ⊢
  split_ifs at h ⊢ with hcl
  · split at h
    next i' hp =>
      obtain rfl := Except.ok.inj h
      exact .inr (.inl ⟨hp, rfl, le_rfl⟩)
    next hp =>
      obtain rfl := Except.ok.inj h
      exact .inr (.inr ⟨s.passes.length, _, _, List.getElem?_concat_length, .inl rfl,
        List.getElem?_concat_length, le_rfl⟩)

/-! ## Every promise can settle -/

/-- A bound on the events that are left when nothing is triggered any more; a raised flag still stands
for a whole pass. -/
def effort (s : Scheduler) : ℕ :=
  (s.bodies.map MaintenanceBody.effort).sum + (s.passes.map PassRun.effort).sum +
    if s.passCoalesced = true then 6 else 0

/-- An event that brings every promise closer to its end. -/
def Advances (s : Scheduler) : Prop :=
  ∃ e s', s.step e = some s' ∧ s'.effort < s.effort ∧ s'.closing = s.closing

theorem effort_modifyBody {b : ℕ} {body : MaintenanceBody} {f : MaintenanceBody → MaintenanceBody}
    (hb : s.bodies[b]? = some body) :
    (s.modifyBody b f).effort + body.effort = s.effort + (f body).effort := by
  have hsum := Table.sum_map_modify MaintenanceBody.effort (f := f) hb
  show ((s.bodies.modify b f).map MaintenanceBody.effort).sum + (s.passes.map PassRun.effort).sum +
    (if s.passCoalesced = true then 6 else 0) + body.effort = _
  unfold effort
  omega

theorem effort_modifyPass {i : ℕ} {run : PassRun} {f : PassRun → PassRun}
    (hi : s.passes[i]? = some run) :
    (s.modifyPass i f).effort + run.effort = s.effort + (f run).effort := by
  have hsum := Table.sum_map_modify PassRun.effort (f := f) hi
  show (s.bodies.map MaintenanceBody.effort).sum + ((s.passes.modify i f).map PassRun.effort).sum +
    (if s.passCoalesced = true then 6 else 0) + run.effort = _
  unfold effort
  omega

/-- A new pass has its body to run and its own stages to go through. -/
theorem effort_startPass (s : Scheduler) : s.startPass.effort = s.effort + 5 := by
  show ((s.bodies ++ [_]).map MaintenanceBody.effort).sum +
    ((s.passes ++ [_]).map PassRun.effort).sum + (if s.passCoalesced = true then 6 else 0) = _
  rw [List.map_append, List.sum_append, List.map_append, List.sum_append]
  show _ + 2 + (_ + 3) + _ = _
  unfold effort
  omega

theorem advances_start {b : ℕ} {body : MaintenanceBody} (hb : s.bodies[b]? = some body)
    (hwait : body.state = .waiting) (hfree : s.isFree body = true) : s.Advances := by
  refine ⟨.start b, s.modifyBody b fun body => { body with state := .running }, ?_, ?_, rfl⟩
  · show (s.bodies[b]?).bind _ = _
    rw [hb]
    have hw : body.isWaiting = true := by rw [MaintenanceBody.isWaiting, hwait]
    show (if (body.isWaiting && s.isFree body) = true then _ else none) = _
    rw [hw, hfree]
    rfl
  · have hsum := effort_modifyBody (f := fun body => { body with state := .running }) hb
    have hbefore : body.effort = 2 := by rw [MaintenanceBody.effort, hwait]
    have hafter : ({ body with state := .running } : MaintenanceBody).effort = 1 := rfl
    omega

theorem advances_settle {b : ℕ} {body : MaintenanceBody} (hb : s.bodies[b]? = some body)
    (hrun : body.state = .running) : s.Advances := by
  refine ⟨.settle b (.ok ()), s.modifyBody b fun body => { body with state := .settled (.ok ()) },
    ?_, ?_, rfl⟩
  · show (s.bodies[b]?).bind _ = _
    rw [hb, Option.bind_some, hrun]
  · have hsum := effort_modifyBody (f := fun body => { body with state := .settled (.ok ()) }) hb
    have hbefore : body.effort = 1 := by rw [MaintenanceBody.effort, hrun]
    have hafter : ({ body with state := .settled (.ok ()) } : MaintenanceBody).effort = 0 := rfl
    omega

/-- As long as a body has not settled, it or one before it can go on. -/
theorem advances_of_body (hI : s.Inv) {b : ℕ} {body : MaintenanceBody}
    (hb : s.bodies[b]? = some body) (hopen : body.isSettled = false) : s.Advances := by
  induction b using Nat.strong_induction_on generalizing body with
  | _ b ih =>
    cases hstate : body.state with
    | settled outcome =>
      rw [MaintenanceBody.isSettled, hstate] at hopen
      cases hopen
    | running => exact advances_settle hb hstate
    | waiting =>
      cases hfree : s.isFree body with
      | true => exact advances_start hb hstate hfree
      | false =>
        -- the body before this one has not settled
        have hafter := hI.chained.after hb
        unfold isFree at hfree
        rw [hafter] at hfree
        by_cases hzero : b = 0
        · rw [if_pos hzero] at hfree
          cases hfree
        · rw [if_neg hzero] at hfree
          have hlt : b - 1 < s.bodies.length := by
            have hlt := Table.lt_length hb
            omega
          have hprev : s.bodies[b - 1]? = some s.bodies[b - 1] := List.getElem?_eq_getElem hlt
          apply ih (b - 1) (by omega) hprev
          simpa [hprev] using hfree

theorem advances_return {i : ℕ} {run : PassRun} {body : MaintenanceBody}
    {outcome : Except Failure Unit} (hi : s.passes[i]? = some run)
    (hb : s.bodies[run.body]? = some body) (hstage : run.stage = .working)
    (hstate : body.state = .settled outcome) : s.Advances := by
  refine ⟨.returnPass i, s.modifyPass i fun run => { run with stage := .returned outcome },
    ?_, ?_, rfl⟩
  · show (s.passes[i]?).bind _ = _
    rw [hi]
    show (s.bodies[run.body]?).bind _ = _
    rw [hb]
    simp [hstage, hstate]
  · have hsum := effort_modifyPass (f := fun run => { run with stage := .returned outcome }) hi
    have hbefore : run.effort = 3 := by rw [PassRun.effort, hstage]
    have hafter : ({ run with stage := .returned outcome } : PassRun).effort = 2 := rfl
    omega

theorem advances_finally {i : ℕ} {run : PassRun} {outcome : Except Failure Unit}
    (hi : s.passes[i]? = some run) (hstage : run.stage = .returned outcome) : s.Advances := by
  have hstep : s.step (.finallyPass i) = some (s.finallyPass i outcome) := by
    show (s.passes[i]?).bind _ = _
    rw [hi, Option.bind_some, hstage]
  refine ⟨.finallyPass i, _, hstep, ?_, ?_⟩
  · rw [finallyPass_eq]
    have hbefore : run.effort = 2 := by rw [PassRun.effort, hstage]
    split_ifs with hco
    · have hsum := effort_modifyPass
        (s := ({ s with passPromise := none, passCoalesced := false } : Scheduler).startPass)
        (f := fun run => { run with stage := .handled outcome, next := some s.passes.length })
        (Table.getElem?_concat_of_some hi _)
      have hafter : ({ run with stage := .handled outcome, next := some s.passes.length } :
        PassRun).effort = 1 := rfl
      have hflag : ({ s with passPromise := none, passCoalesced := false } : Scheduler).effort + 6 =
          s.effort := by
        unfold effort
        rw [if_pos hco.1, if_neg Bool.false_ne_true]
      rw [effort_startPass] at hsum
      omega
    · have hsum := effort_modifyPass (s := { s with passPromise := none })
        (f := fun run => { run with stage := .handled outcome }) hi
      have hafter : ({ run with stage := .handled outcome } : PassRun).effort = 1 := rfl
      have hsame : ({ s with passPromise := none } : Scheduler).effort = s.effort := rfl
      omega
  · rw [finallyPass_eq]
    split_ifs
    · rfl
    · rfl

theorem advances_settlePass {i : ℕ} {run : PassRun} {outcome result : Except Failure Unit}
    (hi : s.passes[i]? = some run) (hstage : run.stage = .handled outcome)
    (hresult : s.passResult outcome run.next = some result) : s.Advances := by
  refine ⟨.settlePass i, s.modifyPass i fun run => { run with stage := .settled result },
    ?_, ?_, rfl⟩
  · show (s.passes[i]?).bind _ = _
    rw [hi]
    simp [hstage, hresult]
  · have hsum := effort_modifyPass (f := fun run => { run with stage := .settled result }) hi
    have hbefore : run.effort = 1 := by rw [PassRun.effort, hstage]
    have hafter : ({ run with stage := .settled result } : PassRun).effort = 0 := rfl
    omega

/-- As long as a pass has not settled, something can go on. -/
theorem advances_of_pass (hI : s.Inv) {i : ℕ} {run : PassRun} (hi : s.passes[i]? = some run)
    (hopen : run.isSettled = false) : s.Advances := by
  -- a pass waits only for later ones
  induction hk : s.passes.length - i using Nat.strong_induction_on generalizing i run with
  | _ k ih =>
    cases hstage : run.stage with
    | settled outcome =>
      rw [PassRun.isSettled, hstage] at hopen
      cases hopen
    | working =>
      obtain ⟨body, hb, -, -⟩ := hI.passing.passBody hi
      cases hstate : body.state with
      | settled outcome => exact advances_return hi hb hstage hstate
      | waiting => exact advances_of_body hI hb (by rw [MaintenanceBody.isSettled, hstate])
      | running => exact advances_of_body hI hb (by rw [MaintenanceBody.isSettled, hstate])
    | returned outcome => exact advances_finally hi hstage
    | handled outcome =>
      cases hnext : run.next with
      | none => exact advances_settlePass hi hstage (by rw [hnext]; rfl)
      | some n =>
        obtain ⟨run', hn, hlt, -⟩ := hI.passing.next hi hnext
        cases hset : run'.isSettled with
        | false =>
          have hlt' := Table.lt_length hn
          exact ih (s.passes.length - n) (by omega) hn hset rfl
        | true =>
          have hresult : ∃ result, s.passResult outcome run.next = some result := by
            rw [hnext]
            show ∃ result, (s.passes[n]?).bind _ = some result
            rw [hn]
            unfold PassRun.isSettled at hset
            cases hs : run'.stage with
            | settled outcome' =>
              cases outcome' with
              | ok u => exact ⟨outcome, by simp [hs]⟩
              | error e => exact ⟨.error e, by simp [hs]⟩
            | working => rw [hs] at hset; cases hset
            | returned o => rw [hs] at hset; cases hset
            | handled o => rw [hs] at hset; cases hset
          obtain ⟨result, hresult⟩ := hresult
          exact advances_settlePass hi hstage hresult

/-- The promise of a pass can settle. -/
theorem can_settle (hI : s.Inv) {i : ℕ} {run : PassRun} (hi : s.passes[i]? = some run) :
    ∃ (es : List Event) (s' : Scheduler) (run' : PassRun), s.run es = some s' ∧
      s'.closing = s.closing ∧ s'.passes[i]? = some run' ∧ run'.isSettled = true := by
  induction hk : s.effort using Nat.strong_induction_on generalizing s run with
  | _ k ih =>
    cases hset : run.isSettled with
    | true => exact ⟨[], s, run, rfl, rfl, hi, hset⟩
    | false =>
      obtain ⟨e, t, hstep, hless, hcl⟩ := advances_of_pass hI hi hset
      obtain ⟨run', hi', -, -⟩ := keeps_step hI hstep i run hi
      obtain ⟨es, s', run'', hrun, hcl', hi'', hset'⟩ :=
        ih t.effort (by omega) (hI.step hstep) hi' rfl
      refine ⟨e :: es, s', run'', ?_, hcl'.trans hcl, hi'', hset'⟩
      exact Option.bind_eq_some_iff.2 ⟨t, hstep, hrun⟩

/-! ## Coalescing and serialisation -/

/-- A body starts only when all that were scheduled before it have settled, and at most one pass is
running or queued. -/
structure Serialised (s : Scheduler) : Prop where
  ordered : ∀ {b j : ℕ} {body body' : MaintenanceBody}, s.bodies[b]? = some body →
    body.isWaiting = false → j < b → s.bodies[j]? = some body' → body'.isSettled = true
  onePass : ∀ {b b' : ℕ} {body body' : MaintenanceBody}, s.bodies[b]? = some body →
    s.bodies[b']? = some body' → body.work = .pass → body'.work = .pass →
    body.isSettled = false → body'.isSettled = false → b = b'

/-- The pass of a body that has not settled is the current one. -/
theorem Passing.passPromise_of_open (h : s.Passing) {b : ℕ} {body : MaintenanceBody}
    (hb : s.bodies[b]? = some body) (hwork : body.work = .pass) (hopen : body.isSettled = false) :
    ∃ (i : ℕ) (run : PassRun), s.passes[i]? = some run ∧ run.body = b ∧ s.passPromise = some i := by
  obtain ⟨i, run, hi, rfl⟩ := h.bodyPass hb hwork
  obtain ⟨body', hb', -, hset⟩ := h.passBody hi
  obtain rfl := Option.some.inj (hb.symm.trans hb')
  refine ⟨i, run, hi, rfl, h.early hi ?_⟩
  by_contra hlate
  have hworking : run.stage ≠ .working := by
    intro hstage
    rw [PassRun.isEarly, hstage] at hlate
    exact hlate rfl
  rw [hset hworking] at hopen
  cases hopen

theorem Inv.serialised (h : s.Inv) : s.Serialised where
  ordered := h.chained.ordered
  onePass hb hb' hwork hwork' hopen hopen' := by
    obtain ⟨i, run, hi, hbody, hcur⟩ := h.passing.passPromise_of_open hb hwork hopen
    obtain ⟨i', run', hi', hbody', hcur'⟩ := h.passing.passPromise_of_open hb' hwork' hopen'
    obtain rfl := Option.some.inj (hcur.symm.trans hcur')
    obtain rfl := Option.some.inj (hi.symm.trans hi')
    exact hbody.symm.trans hbody'

/-- A settled promise has been served. -/
theorem body_of_served (hI : s.Inv) {i b : ℕ} {run : PassRun} (h : s.Served i b)
    (hi : s.passes[i]? = some run) (hset : run.isSettled = true) :
    ∃ (n : ℕ) (run' : PassRun) (body : MaintenanceBody), s.passes[n]? = some run' ∧
      b ≤ run'.body ∧ s.bodies[run'.body]? = some body ∧ body.isSettled = true := by
  obtain ⟨n, r, run', hr, hn, hrun', hb⟩ := h
  obtain rfl := Option.some.inj (hi.symm.trans hr)
  have hset' : run'.isSettled = true := by
    rcases hn with rfl | hn
    · obtain rfl := Option.some.inj (hi.symm.trans hrun')
      exact hset
    · obtain ⟨r', hr', -, hs⟩ := hI.passing.next hi hn
      obtain rfl := Option.some.inj (hr'.symm.trans hrun')
      exact hs hset
  obtain ⟨body, hbody, -, hdone⟩ := hI.passing.passBody hrun'
  refine ⟨n, run', body, hrun', hb, hbody, hdone fun hstage => ?_⟩
  rw [PassRun.isSettled, hstage] at hset'
  cases hset'

theorem unstarted_triggerPass (s : Scheduler) {b : ℕ} (hb : s.bodies.length ≤ b) :
    s.triggerPass.2.Unstarted b := by
  have hnone : s.Unstarted b := by
    intro body hbody
    have hlt := Table.lt_length hbody
    omega
  unfold Scheduler.triggerPass
  split_ifs
  · exact hnone
  · split
    · exact hnone
    · exact hnone.concat rfl

/-- In every run bodies are serialised. After every call of `triggerPass`, and as long as the service
is not closing, the promise it returned is settled only when the body of a pass has started since the
call and has settled; and the promise can always settle. -/
theorem coalescing_kept {es : List Event} (h : initial.run es = some s) :
    s.Serialised ∧ ∀ i, s.triggerPass.1 = .ok i → ∀ post s', s.triggerPass.2.run post = some s' →
      s'.closing = false →
      (∀ run : PassRun, s'.passes[i]? = some run → run.isSettled = true →
        ∃ (n : ℕ) (run' : PassRun) (body : MaintenanceBody), s'.passes[n]? = some run' ∧
          .start run'.body ∈ post ∧ s'.bodies[run'.body]? = some body ∧ body.isSettled = true) ∧
      ∃ (es' : List Event) (s'' : Scheduler) (run : PassRun), s'.run es' = some s'' ∧
        s''.closing = false ∧ s''.passes[i]? = some run ∧ run.isSettled = true := by
  have hI := inv_initial.run h
  refine ⟨hI.serialised, fun i hi post s' hpost hopen => ?_⟩
  have hI₁ : s.triggerPass.2.Inv := hI.step (e := .triggerPass) rfl
  have hI' := hI₁.run hpost
  have howed := (owed_triggerPass hi).run hI₁ hpost
  refine ⟨fun run hrun hset => ?_, ?_⟩
  · rcases howed with hcl | ⟨hp, -⟩ | hserved
    · rw [hopen] at hcl
      cases hcl
    · -- the `finally` of the pass has not run
      obtain ⟨run', hrun', hearly⟩ := hI'.passing.current hp
      obtain rfl := Option.some.inj (hrun.symm.trans hrun')
      rw [PassRun.isSettled] at hset
      rw [PassRun.isEarly] at hearly
      split at hset
      next hstage => rw [hstage] at hearly; cases hearly
      next => cases hset
    · obtain ⟨n, run', body, hrun', hb, hbody, hdone⟩ := body_of_served hI' hserved hrun hset
      refine ⟨n, run', body, hrun', ?_, hbody, hdone⟩
      rcases start_mem_of_run hpost (unstarted_triggerPass s hb) with hmem | hun
      · exact hmem
      · have hw := hun body hbody
        rw [MaintenanceBody.isSettled] at hdone
        rw [MaintenanceBody.isWaiting] at hw
        split at hw
        next hstate => rw [hstate] at hdone; cases hdone
        next => cases hw
  · have hpass : ∃ run : PassRun, s'.passes[i]? = some run := by
      rcases howed with hcl | ⟨hp, -⟩ | ⟨n, run, run', hrun, -⟩
      · rw [hopen] at hcl
        cases hcl
      · obtain ⟨run, hrun, -⟩ := hI'.passing.current hp
        exact ⟨run, hrun⟩
      · exact ⟨run, hrun⟩
    obtain ⟨run, hrun⟩ := hpass
    obtain ⟨es', s'', run', hes', hcl', hrun', hset⟩ := can_settle hI' hrun
    exact ⟨es', s'', run', hes', hcl'.trans hopen, hrun', hset⟩

/-- A sweep runs, a pass waits behind it and fails; a trigger comes after the failure and before the
`finally`. -/
def failingPass : List Event :=
  [.triggerDlqSweep, .triggerPass, .start 0, .settle 0 (.ok ()), .start 1,
    .settle 1 (.error .upstream), .returnPass 0]

/-- The `finally` starts the next pass, and both promises settle after it. -/
def servingPass : List Event :=
  [.finallyPass 0, .start 2, .settle 2 (.ok ()), .returnPass 1, .finallyPass 1, .settlePass 1,
    .settlePass 0]

theorem coalescing_kept_failingPass : ∃ s s' : Scheduler, initial.run failingPass = some s ∧
    s.triggerPass.1 = .ok 0 ∧ s.triggerPass.2.run servingPass = some s' ∧ s.Serialised ∧
    ∃ (n : ℕ) (run : PassRun) (body : MaintenanceBody), s'.passes[n]? = some run ∧
      .start run.body ∈ servingPass ∧ s'.bodies[run.body]? = some body ∧ body.isSettled = true := by
  have hruns : (initial.run failingPass).any (fun s =>
      (match s.triggerPass.1 with
        | .ok i => i == 0
        | .error _ => false) &&
      (s.triggerPass.2.run servingPass).any fun s' =>
        !s'.closing && (s'.passes[0]?).any PassRun.isSettled) = true := by
    decide +kernel
  obtain ⟨s, hs, hends⟩ := (Option.any_eq_true _ _).1 hruns
  obtain ⟨hzero, hends⟩ := Bool.and_eq_true_iff.1 hends
  obtain ⟨s', hs', hends⟩ := (Option.any_eq_true _ _).1 hends
  obtain ⟨hopen, hends⟩ := Bool.and_eq_true_iff.1 hends
  obtain ⟨run, hrun, hset⟩ := (Option.any_eq_true _ _).1 hends
  have htrigger : s.triggerPass.1 = .ok 0 := by
    split at hzero
    next i hi => rw [hi, eq_of_beq hzero]
    next => cases hzero
  have hkept := coalescing_kept hs
  have hserved := (hkept.2 0 htrigger servingPass s' hs' (by simpa using hopen)).1 run hrun hset
  exact ⟨s, s', hs, htrigger, hs', hkept.1, hserved⟩

end Scheduler

end FlashSale
