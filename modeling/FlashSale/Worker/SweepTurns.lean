import FlashSale.Lib.Erasure
import FlashSale.Worker.Reconciliation

/-!
# One sweep of the failed jobs, entry by entry

The page a sweep works on is whatever BullMQ returned: an entry is undefined when its job vanished
between the listing of the ids and the loading of the jobs. `Turn` says what a sweep owes one entry,
with the calls it makes for it, and `Turns` what it owes a page: each entry by itself, whatever
becomes of the others.

`sweepFailed` keeps to that on every page without an undefined entry. An undefined entry makes
`classifyQueueEntry` throw in front of the `try`, so the sweep ends there with a `TypeError`: the
entries behind it are not looked at and the offset stays. `scanJobs` skips such an entry.
-/

namespace FlashSale

/-- The failed jobs in the order of the queue. -/
def Stores.failed (s : Stores) : List StoredJob := s.queue.jobs.filter (·.state = .failed)

/-- The check in front of `resolveFailed`. -/
def Job.eligible (job : Job) (actualState : JobState) : Bool :=
  decide (actualState = .failed ∧ job.attempts = some ORDERS_JOB_ATTEMPTS ∧ job.exhausted = true)

/-- What an eligible entry is resolved by. -/
def resolution (payload : OrdersQueueJobPayload) : WorkerM ResolveFailedResult :=
  resolveFailed 0 payload (Store.compensate payload.saleId payload.userId payload.reservationId)

/-- The calls of a resolution: statements and compensations. -/
def Call.isResolving : Call → Bool
  | .sql _ _ | .compensate _ _ _ => true
  | _ => false

theorem callsIn_resolution (payload : OrdersQueueJobPayload) :
    (resolution payload).CallsIn fun o => o.isResolving = true := by
  have hsql (st : Statement) : (sql 0 st).CallsIn fun o => o.isResolving = true := .call rfl
  have hcomp : (Store.compensate payload.saleId payload.userId payload.reservationId).CallsIn
      fun o => o.isResolving = true := (Prog.CallsIn.ofExcept _).bind fun _ => .call rfl
  have hwork : (resolveFailedWork 0 payload
      (Store.compensate payload.saleId payload.userId payload.reservationId)).CallsIn
      fun o => o.isResolving = true := by
    refine (hsql _).bind fun _ => (hsql _).bind fun row => ?_
    cases row with
    | none => exact hcomp.bind fun _ => (hsql _).bind fun _ => trivial
    | some row =>
      dsimp only
      split_ifs
      · trivial
      · trivial
      · exact hcomp.bind fun _ => (hsql _).bind fun _ =>
          (Prog.CallsIn.throwIf _ _).bind fun _ => trivial
      · exact hcomp.bind fun _ => trivial
  refine Prog.CallsIn.bind (Prog.CallsIn.catchWith ((hsql _).bind fun _ => hwork.bind fun _ =>
    (hsql _).bind fun _ => trivial) fun _ => Prog.CallsIn.bind
      (Prog.CallsIn.catchWith (hsql _) fun _ => trivial) fun _ => trivial) fun r => ?_
  dsimp only
  split_ifs
  · exact hcomp.bind fun _ => trivial
  · trivial

/-- What becomes of an entry. -/
inductive Verdict where
  | skipped
  | retained
  | removed
  | failed (error : Failure)

namespace Verdict

def isRetained : Verdict → Bool
  | .retained => true
  | _ => false

def isRemoved : Verdict → Bool
  | .removed => true
  | _ => false

def error? : Verdict → Option Failure
  | .failed error => some error
  | _ => none

end Verdict

/-- The result of a sweep whose entries came to these verdicts. -/
def sweepOutcome (verdicts : List Verdict) : Except Failure DlqSweepResult :=
  let errors := verdicts.filterMap Verdict.error?
  if errors = [] then .ok ⟨verdicts.countP Verdict.isRetained, verdicts.countP Verdict.isRemoved⟩
  else .error (.aggregate errors "one or more terminal jobs failed resolution")

section

variable {S : Type} (perform : (o : Call) → S → Option (Except Failure o.Res × S))

/-- A turn of a sweep for one entry, from one state to another, with its calls: an entry that is
gone is skipped, one that is malformed or not eligible is retained, and an eligible one is resolved
once and removed if that succeeded. -/
inductive Turn : Option Job → S → List Call → Verdict → S → Prop where
  | vanished (s : S) : Turn none s [] .skipped s
  | malformed {job : Job} {issue : QueueEntryIssue} (s : S)
      (hc : classifyQueueEntry job .failed = .error issue) : Turn (some job) s [] .retained s
  | unread {job : Job} {item : ScannedJob} {s s₁ : S} {e : Failure}
      (hc : classifyQueueEntry job .failed = .ok item)
      (hs : perform (.getState job.id) s = some (.error e, s₁)) :
      Turn (some job) s [.getState job.id] (.failed e) s₁
  | ineligible {job : Job} {item : ScannedJob} {s s₁ : S} {state : JobState}
      (hc : classifyQueueEntry job .failed = .ok item)
      (hs : perform (.getState job.id) s = some (.ok state, s₁))
      (he : job.eligible state = false) : Turn (some job) s [.getState job.id] .retained s₁
  | unresolved {job : Job} {item : ScannedJob} {s s₁ s₂ : S} {state : JobState} {e : Failure}
      (hc : classifyQueueEntry job .failed = .ok item)
      (hs : perform (.getState job.id) s = some (.ok state, s₁)) (he : job.eligible state = true)
      (hr : (resolution item.payload).run perform s₁ = some (.error e, s₂)) :
      Turn (some job) s (.getState job.id :: (resolution item.payload).made perform s₁)
        (.failed e) s₂
  | unremoved {job : Job} {item : ScannedJob} {s s₁ s₂ s₃ : S} {state : JobState}
      {result : ResolveFailedResult} {e : Failure}
      (hc : classifyQueueEntry job .failed = .ok item)
      (hs : perform (.getState job.id) s = some (.ok state, s₁)) (he : job.eligible state = true)
      (hr : (resolution item.payload).run perform s₁ = some (.ok result, s₂))
      (hd : perform (.removeJob job) s₂ = some (.error e, s₃)) :
      Turn (some job) s
        (.getState job.id :: ((resolution item.payload).made perform s₁ ++ [.removeJob job]))
        (.failed e) s₃
  | removed {job : Job} {item : ScannedJob} {s s₁ s₂ s₃ : S} {state : JobState}
      {result : ResolveFailedResult}
      (hc : classifyQueueEntry job .failed = .ok item)
      (hs : perform (.getState job.id) s = some (.ok state, s₁)) (he : job.eligible state = true)
      (hr : (resolution item.payload).run perform s₁ = some (.ok result, s₂))
      (hd : perform (.removeJob job) s₂ = some (.ok (), s₃)) :
      Turn (some job) s
        (.getState job.id :: ((resolution item.payload).made perform s₁ ++ [.removeJob job]))
        .removed s₃

/-- The turns for the entries of a page, one after the other. -/
inductive Turns : List (Option Job) → S → List Call → List Verdict → S → Prop where
  | nil (s : S) : Turns [] s [] [] s
  | cons {entry : Option Job} {page : List (Option Job)} {s s₁ s₂ : S} {calls rest : List Call}
      {verdict : Verdict} {verdicts : List Verdict} (h : Turn perform entry s calls verdict s₁)
      (hrest : Turns page s₁ rest verdicts s₂) :
      Turns (entry :: page) s (calls ++ rest) (verdict :: verdicts) s₂

end

/-! ## Turns of the loop -/

/-- The counters after an entry. -/
def Sweep.record (acc : Sweep) : Verdict → Sweep
  | .skipped => acc
  | .retained => acc.retain
  | .removed => { acc with removedCount := acc.removedCount + 1 }
  | .failed error => { acc with operationalErrors := acc.operationalErrors ++ [error] }

theorem foldl_record (verdicts : List Verdict) (acc : Sweep) :
    verdicts.foldl Sweep.record acc =
      ⟨acc.retainedUnsafeCount + verdicts.countP Verdict.isRetained,
        acc.removedCount + verdicts.countP Verdict.isRemoved,
        acc.operationalErrors ++ verdicts.filterMap Verdict.error?⟩ := by
  induction verdicts generalizing acc with
  | nil => simp
  | cons v vs ih =>
    rw [List.foldl_cons, ih]
    cases v with
    | skipped => rfl
    | retained =>
      show (⟨acc.retainedUnsafeCount + 1 + _, _, _⟩ : Sweep) = _
      rw [List.countP_cons_of_pos rfl, List.countP_cons_of_neg (by decide)]
      simp only [Sweep.mk.injEq]
      exact ⟨by omega, rfl, rfl⟩
    | removed =>
      show (⟨_, acc.removedCount + 1 + _, _⟩ : Sweep) = _
      rw [List.countP_cons_of_neg (by decide), List.countP_cons_of_pos rfl]
      simp only [Sweep.mk.injEq]
      exact ⟨rfl, by omega, rfl⟩
    | failed error =>
      show (⟨_, _, acc.operationalErrors ++ [error] ++ _⟩ : Sweep) = _
      rw [List.append_assoc]
      rfl

section

variable {S : Type} {perform : (o : Call) → S → Option (Except Failure o.Res × S)}

/-- `resolveJob` in terms of `eligible` and `resolution`. -/
theorem resolveJob_eq (acc : Sweep) (job : Job) (payload : OrdersQueueJobPayload) :
    resolveJob acc job payload = (request (.getState job.id)).bind fun actualState =>
      if job.eligible actualState = false then .pure acc.retain
      else (resolution payload).bind fun _ => (request (.removeJob job)).bind fun _ =>
        .pure { acc with removedCount := acc.removedCount + 1 } := by
  unfold resolveJob
  show Prog.bind _ _ = Prog.bind _ _
  congr 1
  funext actualState
  have hiff : (actualState ≠ .failed ∨ job.attempts ≠ some ORDERS_JOB_ATTEMPTS ∨
      job.exhausted = false) ↔ job.eligible actualState = false := by
    unfold Job.eligible
    rw [decide_eq_false_iff_not, not_and_or, not_and_or, Bool.not_eq_true]
  by_cases h : job.eligible actualState = false
  · rw [if_pos (hiff.2 h), if_pos h]; rfl
  · rw [if_neg fun h' => h (hiff.1 h'), if_neg h]; rfl

/-- The counters after an attempt that ended so. -/
def Sweep.after (acc : Sweep) : Except Failure Sweep → Sweep
  | .ok acc' => acc'
  | .error e => acc.record (.failed e)

theorem sweepJob_of_ok {acc : Sweep} {job : Job} {item : ScannedJob} {s s' : S}
    {r : Except Failure Sweep} (hc : classifyQueueEntry job .failed = .ok item)
    (h : (resolveJob acc job item.payload).run perform s = some (r, s')) :
    (sweepJob acc (some job)).run perform s = some (.ok (acc.after r), s') ∧
      (sweepJob acc (some job)).made perform s =
        (resolveJob acc job item.payload).made perform s := by
  simp only [sweepJob, hc]
  show (Prog.catchWith _ _).run perform s = _ ∧ (Prog.catchWith _ _).made perform s = _
  rw [Prog.run_catchWith, Prog.made_catchWith, h]
  cases r with
  | ok acc => exact ⟨rfl, List.append_nil _⟩
  | error e => exact ⟨rfl, List.append_nil _⟩

/-- A turn of the loop for an entry that is there. -/
theorem Turn.run_sweepJob {job : Job} {s s' : S} {calls : List Call} {verdict : Verdict}
    (h : Turn perform (some job) s calls verdict s') (acc : Sweep) :
    (sweepJob acc (some job)).run perform s = some (.ok (acc.record verdict), s') ∧
      (sweepJob acc (some job)).made perform s = calls := by
  cases h with
  | malformed _ hc =>
    simp only [sweepJob, hc]
    exact ⟨rfl, rfl⟩
  | @unread _ item _ _ e hc hs =>
    have hrun : (resolveJob acc job item.payload).run perform s = some (.error e, s') := by
      rw [resolveJob_eq]
      exact Prog.run_bind_of_error (Prog.run_call hs) _
    obtain ⟨hr, hm⟩ := sweepJob_of_ok hc hrun
    refine ⟨hr, hm.trans ?_⟩
    rw [resolveJob_eq, request, Prog.made_bind_of_error (Prog.run_call hs), Prog.made_call]
  | @ineligible _ item _ _ state hc hs he =>
    have hrun : (resolveJob acc job item.payload).run perform s = some (.ok acc.retain, s') := by
      rw [resolveJob_eq, request, Prog.run_call_bind hs, if_pos he]
      rfl
    obtain ⟨hr, hm⟩ := sweepJob_of_ok hc hrun
    refine ⟨hr, hm.trans ?_⟩
    rw [resolveJob_eq, request, Prog.made_call_bind hs, if_pos he]
    rfl
  | @unresolved _ item _ s₁ _ state e hc hs he hres =>
    have hne : ¬ job.eligible state = false := by rw [he]; decide
    have hrun : (resolveJob acc job item.payload).run perform s = some (.error e, s') := by
      rw [resolveJob_eq, request, Prog.run_call_bind hs, if_neg hne]
      exact Prog.run_bind_of_error hres _
    obtain ⟨hr, hm⟩ := sweepJob_of_ok hc hrun
    refine ⟨hr, hm.trans ?_⟩
    rw [resolveJob_eq, request, Prog.made_call_bind hs, if_neg hne, Prog.made_bind_of_error hres]
  | @unremoved _ item _ s₁ s₂ _ state result e hc hs he hres hd =>
    have hne : ¬ job.eligible state = false := by rw [he]; decide
    have hrun : (resolveJob acc job item.payload).run perform s = some (.error e, s') := by
      rw [resolveJob_eq, request, Prog.run_call_bind hs, if_neg hne, Prog.run_bind_of_ok hres]
      exact Prog.run_bind_of_error (Prog.run_call hd) _
    obtain ⟨hr, hm⟩ := sweepJob_of_ok hc hrun
    refine ⟨hr, hm.trans ?_⟩
    rw [resolveJob_eq, request, Prog.made_call_bind hs, if_neg hne, Prog.made_bind_of_ok hres,
      request, Prog.made_bind_of_error (Prog.run_call hd), Prog.made_call]
  | @removed _ item _ s₁ s₂ _ state result hc hs he hres hd =>
    have hne : ¬ job.eligible state = false := by rw [he]; decide
    have hrun : (resolveJob acc job item.payload).run perform s =
        some (.ok (acc.record .removed), s') := by
      rw [resolveJob_eq, request, Prog.run_call_bind hs, if_neg hne, Prog.run_bind_of_ok hres,
        request, Prog.run_call_bind hd]
      rfl
    obtain ⟨hr, hm⟩ := sweepJob_of_ok hc hrun
    refine ⟨hr, hm.trans ?_⟩
    rw [resolveJob_eq, request, Prog.made_call_bind hs, if_neg hne, Prog.made_bind_of_ok hres,
      request, Prog.made_call_bind hd]
    rfl

/-- The loop over a page whose entries are all there. -/
theorem Turns.run_loop {page : List (Option Job)} {s s' : S} {calls : List Call}
    {verdicts : List Verdict} (h : Turns perform page s calls verdicts s') (hpage : none ∉ page)
    (acc : Sweep) :
    (Prog.forEach page acc sweepJob).run perform s =
        some (.ok (verdicts.foldl Sweep.record acc), s') ∧
      (Prog.forEach page acc sweepJob).made perform s = calls := by
  induction h generalizing acc with
  | nil s => exact ⟨rfl, rfl⟩
  | @cons entry page s s₁ s₂ calls rest verdict verdicts hturn hrest ih =>
    rw [List.mem_cons, not_or] at hpage
    cases entry with
    | none => exact absurd rfl hpage.1
    | some job =>
      obtain ⟨hrun, hmade⟩ := hturn.run_sweepJob acc
      obtain ⟨hrun', hmade'⟩ := ih hpage.2 (acc.record verdict)
      rw [Prog.forEach, Prog.run_bind_of_ok hrun, Prog.made_bind, hrun, hmade]
      exact ⟨hrun', congrArg _ hmade'⟩

/-! ## Environments that answer every call -/

theorem exists_run (htotal : ∀ o s, ∃ q, perform o s = some q) {α : Type} (p : WorkerM α) (s : S) :
    ∃ r s', p.run perform s = some (r, s') := by
  induction p generalizing s with
  | pure a => exact ⟨_, _, rfl⟩
  | throw e => exact ⟨_, _, rfl⟩
  | op o k ih =>
    obtain ⟨⟨r, s₁⟩, hq⟩ := htotal o s
    rw [Prog.run, hq]
    exact ih r s₁

/-- The loop stops at an entry, or gives it a turn. -/
theorem stops_or_turn (job : Job) (s : S) :
    (∀ acc, (sweepJob acc (some job)).run perform s = none) ∨
      ∃ calls verdict s', Turn perform (some job) s calls verdict s' := by
  cases hc : classifyQueueEntry job .failed with
  | error issue => exact .inr ⟨_, _, _, .malformed s hc⟩
  | ok item =>
    have hstops : (∀ acc, (resolveJob acc job item.payload).run perform s = none) →
        ∀ acc, (sweepJob acc (some job)).run perform s = none := by
      intro h acc
      simp only [sweepJob, hc]
      show (Prog.catchWith _ _).run perform s = none
      rw [Prog.run_catchWith, h acc]
      rfl
    simp only [resolveJob_eq, request, Prog.run_bind] at hstops
    cases hs : perform (.getState job.id) s with
    | none => exact .inl (hstops fun acc => by rw [Prog.call, Prog.run, hs]; rfl)
    | some q =>
      obtain ⟨r, s₁⟩ := q
      rw [Prog.run_call hs] at hstops
      cases r with
      | error e => exact .inr ⟨_, _, _, .unread hc hs⟩
      | ok state =>
        cases he : job.eligible state with
        | false => exact .inr ⟨_, _, _, .ineligible hc hs he⟩
        | true =>
          have hne : ¬ job.eligible state = false := by rw [he]; decide
          simp only [Option.bind_some, if_neg hne, Prog.run_bind] at hstops
          cases hr : (resolution item.payload).run perform s₁ with
          | none => exact .inl (hstops fun acc => by rw [hr]; rfl)
          | some q =>
            obtain ⟨r, s₂⟩ := q
            cases r with
            | error e => exact .inr ⟨_, _, _, .unresolved hc hs he hr⟩
            | ok result =>
              rw [hr] at hstops
              cases hd : perform (.removeJob job) s₂ with
              | none =>
                refine .inl (hstops fun acc => ?_)
                simp only [Option.bind_some, Prog.call, Prog.run, hd]
                rfl
              | some q =>
                obtain ⟨r, s₃⟩ := q
                cases r with
                | error e => exact .inr ⟨_, _, _, .unremoved hc hs he hr hd⟩
                | ok _ => exact .inr ⟨_, _, _, .removed hc hs he hr hd⟩

/-- What a sweep owes an entry is defined whatever happens. -/
theorem exists_turn (htotal : ∀ o s, ∃ q, perform o s = some q) (entry : Option Job) (s : S) :
    ∃ calls verdict s', Turn perform entry s calls verdict s' := by
  cases entry with
  | none => exact ⟨_, _, _, .vanished s⟩
  | some job =>
    refine (stops_or_turn job s).resolve_left fun hstops => ?_
    obtain ⟨r, s', hrun⟩ := exists_run htotal (sweepJob ⟨0, 0, []⟩ (some job)) s
    rw [hstops] at hrun
    cases hrun

theorem exists_turns (htotal : ∀ o s, ∃ q, perform o s = some q) (page : List (Option Job))
    (s : S) : ∃ calls verdicts s', Turns perform page s calls verdicts s' := by
  induction page generalizing s with
  | nil => exact ⟨_, _, _, .nil s⟩
  | cons entry page ih =>
    obtain ⟨calls, verdict, s₁, h⟩ := exists_turn htotal entry s
    obtain ⟨rest, verdicts, s₂, hrest⟩ := ih s₁
    exact ⟨_, _, _, .cons h hrest⟩

/-- An undefined entry ends the loop. -/
theorem run_loop_of_none (htotal : ∀ o s, ∃ q, perform o s = some q) {page : List (Option Job)}
    (hpage : none ∈ page) (acc : Sweep) (s : S) :
    ∃ s', (Prog.forEach page acc sweepJob).run perform s =
      some (.error (.typeError "Cannot read properties of undefined (reading 'name')"), s') := by
  induction page generalizing acc s with
  | nil => cases hpage
  | cons entry page ih =>
    cases entry with
    | none => exact ⟨s, rfl⟩
    | some job =>
      obtain ⟨calls, verdict, s₁, h⟩ := exists_turn htotal (some job) s
      rw [Prog.forEach, Prog.run_bind_of_ok (h.run_sweepJob acc).1]
      exact ih ((List.mem_cons.1 hpage).resolve_left (by simp)) _ s₁

/-! ## The sweep -/

/-- A sweep from `s` reads a page of failed jobs, from `start` on, with these calls. -/
structure PageRead (perform : (o : Call) → S → Option (Except Failure o.Res × S)) (env : WorkerEnv)
    (s : S) (calls : List Call) (start : ℕ) (page : List (Option Job)) (s' : S) : Prop where
  read : ∃ totalBefore offset s₁ s₂, totalBefore ≠ 0 ∧
    perform (.countJobs .failed) s = some (.ok totalBefore, s₁) ∧
    perform .getFailedScanOffset s₁ = some (.ok offset, s₂) ∧
    (sweepPage env (offset % totalBefore)).run perform s₂ = some (.ok (start, page), s') ∧
    calls = .countJobs .failed :: .getFailedScanOffset ::
      (sweepPage env (offset % totalBefore)).made perform s₂

/-- The rest of `sweepFailed` once it has its page. -/
def sweepRest (start : ℕ) (failed : List (Option Job)) : WorkerM DlqSweepResult := do
  let acc ← Prog.forEach failed ⟨0, 0, []⟩ sweepJob
  let totalAfter ← request (.countJobs .failed)
  request (.setFailedScanOffset (nextScanOffset start failed.length acc.removedCount totalAfter))
  Prog.throwIf (acc.operationalErrors.isEmpty = false)
    (.aggregate acc.operationalErrors "one or more terminal jobs failed resolution")
  return ⟨acc.retainedUnsafeCount, acc.removedCount⟩

theorem PageRead.run {env : WorkerEnv} {s s' : S} {calls : List Call} {start : ℕ}
    {page : List (Option Job)} (h : PageRead perform env s calls start page s') :
    (sweepFailed env).run perform s = (sweepRest start page).run perform s' ∧
      (sweepFailed env).made perform s = calls ++ (sweepRest start page).made perform s' := by
  obtain ⟨totalBefore, offset, s₁, s₂, hne, hcount, hoffset, hpage, rfl⟩ := h.read
  unfold sweepFailed
  show (Prog.bind _ _).run perform s = _ ∧ (Prog.bind _ _).made perform s = _
  rw [request, Prog.run_call_bind hcount, Prog.made_call_bind hcount, if_neg hne]
  show (Prog.bind _ _).run perform s₁ = _ ∧ _ :: (Prog.bind _ _).made perform s₁ = _
  rw [request, Prog.run_call_bind hoffset, Prog.made_call_bind hoffset]
  show (Prog.bind _ _).run perform s₂ = _ ∧ _ :: _ :: (Prog.bind _ _).made perform s₂ = _
  rw [Prog.run_bind_of_ok hpage, Prog.made_bind_of_ok hpage]
  exact ⟨rfl, rfl⟩

theorem sweepRest_of_turns (start : ℕ) {page : List (Option Job)} {s s₁ s₂ s₃ : S}
    {calls : List Call} {verdicts : List Verdict} {totalAfter : ℕ}
    (h : Turns perform page s calls verdicts s₁) (hpage : none ∉ page)
    (hcount : perform (.countJobs .failed) s₁ = some (.ok totalAfter, s₂))
    (hset : perform (.setFailedScanOffset (nextScanOffset start page.length
      (verdicts.countP Verdict.isRemoved) totalAfter)) s₂ = some (.ok (), s₃)) :
    (sweepRest start page).run perform s = some (sweepOutcome verdicts, s₃) ∧
      (sweepRest start page).made perform s = calls ++ [.countJobs .failed, .setFailedScanOffset
        (nextScanOffset start page.length (verdicts.countP Verdict.isRemoved) totalAfter)] := by
  obtain ⟨hrun, hmade⟩ := h.run_loop hpage ⟨0, 0, []⟩
  rw [foldl_record] at hrun
  simp only [Nat.zero_add, List.nil_append] at hrun
  unfold sweepRest
  show (Prog.bind _ _).run perform s = _ ∧ (Prog.bind _ _).made perform s = _
  rw [Prog.run_bind_of_ok hrun, Prog.made_bind_of_ok hrun, hmade]
  show (Prog.bind _ _).run perform s₁ = _ ∧ _ ++ (Prog.bind _ _).made perform s₁ = _
  rw [request, Prog.run_call_bind hcount, Prog.made_call_bind hcount]
  show (Prog.bind _ _).run perform s₂ = _ ∧ _ ++ _ :: (Prog.bind _ _).made perform s₂ = _
  rw [request, Prog.run_call_bind hset, Prog.made_call_bind hset]
  unfold sweepOutcome Prog.throwIf
  cases herr : verdicts.filterMap Verdict.error? with
  | nil => exact ⟨rfl, rfl⟩
  | cons e es => exact ⟨rfl, rfl⟩

end

/-! ## Isolation of the entries -/

/-- What stands around a sweep: the stores with all that others do to them, which answer each call as
they like, page by page and job by job. Only the counts do not fail. -/
structure Outside (W : Type) where
  answer : (o : Call) → W → Except Failure o.Res × W
  counts : ∀ w, ∃ n, (answer (.countJobs .failed) w).1 = .ok n

/-- The memory of the service is its own. -/
def Outside.perform {W : Type} (out : Outside W) (o : Call) (s : W × ℕ) :
    Option (Except Failure o.Res × (W × ℕ)) :=
  match o with
  | .getFailedScanOffset => some (.ok s.2, s)
  | .setFailedScanOffset offset => some (.ok (), (s.1, offset))
  | o => some ((out.answer o s.1).1, ((out.answer o s.1).2, s.2))

/-- The sweep gives every entry of its page a turn, and no other calls follow the reading of the page
but those that move the offset; it throws the errors of the turns, if any, and no other. -/
def SweepIsolates {W : Type} (out : Outside W) (env : WorkerEnv) (s : W × ℕ) (read : List Call)
    (start : ℕ) (page : List (Option Job)) (s₁ : W × ℕ) : Prop :=
  ∃ calls verdicts s₂ totalAfter w,
    Turns out.perform page s₁ calls verdicts s₂ ∧
    out.answer (.countJobs .failed) s₂.1 = (.ok totalAfter, w) ∧
    (sweepFailed env).run out.perform s = some (sweepOutcome verdicts, (w, nextScanOffset start
      page.length (verdicts.countP Verdict.isRemoved) totalAfter)) ∧
    (sweepFailed env).made out.perform s = read ++ (calls ++ [.countJobs .failed,
      .setFailedScanOffset (nextScanOffset start page.length
        (verdicts.countP Verdict.isRemoved) totalAfter)])

section

variable {W : Type} {out : Outside W} {env : WorkerEnv} {s s₁ : W × ℕ} {read : List Call} {start : ℕ}
  {page : List (Option Job)}

theorem Outside.perform_total (out : Outside W) (o : Call) (s : W × ℕ) :
    ∃ q, out.perform o s = some q := by
  cases o <;> exact ⟨_, rfl⟩

theorem sweepOutcome_ne_typeError (verdicts : List Verdict) (message : String) :
    sweepOutcome verdicts ≠ .error (.typeError message) := by
  unfold sweepOutcome
  dsimp only
  split_ifs
  · simp
  · simp

theorem sweepIsolates_of_present (h : PageRead out.perform env s read start page s₁)
    (hpage : none ∉ page) : SweepIsolates out env s read start page s₁ := by
  obtain ⟨calls, verdicts, s₂, hturns⟩ := exists_turns out.perform_total page s₁
  obtain ⟨totalAfter, hn⟩ := out.counts s₂.1
  have hcount : out.answer (.countJobs .failed) s₂.1 =
      (.ok totalAfter, (out.answer (.countJobs .failed) s₂.1).2) := Prod.ext hn rfl
  have hperform : out.perform (.countJobs .failed) s₂ =
      some (.ok totalAfter, ((out.answer (.countJobs .failed) s₂.1).2, s₂.2)) := by
    show some (_, _) = _
    rw [hn]
  obtain ⟨hrun, hmade⟩ := sweepRest_of_turns start hturns hpage hperform rfl
  refine ⟨calls, verdicts, s₂, totalAfter, _, hturns, hcount, ?_, ?_⟩
  · rw [h.run.1, hrun]
  · rw [h.run.2, hmade]

/-- A sweep that meets an undefined entry throws the `TypeError` of `classifyQueueEntry`. -/
theorem sweepFailed_of_vanished (h : PageRead out.perform env s read start page s₁)
    (hpage : none ∈ page) : ∃ s', (sweepFailed env).run out.perform s =
      some (.error (.typeError "Cannot read properties of undefined (reading 'name')"), s') := by
  obtain ⟨s', hloop⟩ := run_loop_of_none out.perform_total hpage ⟨0, 0, []⟩ s₁
  refine ⟨s', h.run.1.trans ?_⟩
  exact Prog.run_bind_of_error hloop _

theorem not_sweepIsolates_of_vanished (h : PageRead out.perform env s read start page s₁)
    (hpage : none ∈ page) : ¬ SweepIsolates out env s read start page s₁ := by
  rintro ⟨calls, verdicts, s₂, totalAfter, w, -, -, hrun, -⟩
  obtain ⟨s', herr⟩ := sweepFailed_of_vanished h hpage
  rw [herr] at hrun
  exact sweepOutcome_ne_typeError verdicts _ (Prod.mk.inj (Option.some.inj hrun)).1.symm

/-- **One bad entry.** Whatever page BullMQ returns, its entries are treated one by one if and only
if none of them is undefined. -/
theorem sweepFailed_isolates_iff (h : PageRead out.perform env s read start page s₁) :
    SweepIsolates out env s read start page s₁ ↔ none ∉ page := by
  constructor
  · intro hi hpage
    exact not_sweepIsolates_of_vanished h hpage hi
  · exact sweepIsolates_of_present h

end

/-- A queue that lists these ids as failed and loads these jobs for them, while every other store
is down. -/
def listing (entries : List (String × Option Job)) : Outside Unit where
  answer
    | .countJobs _, _ => (.ok entries.length, ())
    | .getRange _ _ _, _ => (.ok (entries.map Prod.fst), ())
    | .getJob id, _ => (.ok ((entries.lookup id).join), ())
    | .getState _, _ => (.ok .failed, ())
    | _, _ => (.error .upstream, ())
  counts := fun _ => ⟨entries.length, rfl⟩

/-- An order whose attempts are used up. -/
def failedOrder : OrdersQueueJobPayload :=
  ⟨"flash-2026", "bob", "0190aaaa-0000-7000-8000-000000000002", 1500, "req-2"⟩

def exhaustedJob : Job :=
  ⟨"flash-2026-bob", PERSIST_ORDER_JOB_NAME, failedOrder.toJs, some 5, 5, some "down", 0, 0⟩

def foreignJob : Job := ⟨"mail-1", "send-mail", .null, none, 3, none, 0, 1⟩

theorem exhaustedJob_eligible : classifyQueueEntry exhaustedJob .failed =
    .ok ⟨exhaustedJob, .failed, failedOrder⟩ ∧ exhaustedJob.eligible .failed = true := by
  have hdata : assertOrdersQueueJobPayload exhaustedJob.data = .ok failedOrder :=
    assertOrdersQueueJobPayload_toJs ⟨by decide +kernel, by decide +kernel, by decide +kernel,
      by decide +kernel, by decide +kernel⟩
  refine ⟨?_, by decide⟩
  unfold classifyQueueEntry
  rw [if_neg (by decide), hdata]
  dsimp only
  rw [if_neg (by decide +kernel), if_neg (by decide)]

theorem pageRead_listing (first : Option Job) :
    PageRead (listing [("first", first), ("flash-2026-bob", some exhaustedJob)]).perform oneUnitEnv
      ((), 0) [.countJobs .failed, .getFailedScanOffset, .getRange .failed 0 9, .getJob "first",
        .getJob "flash-2026-bob"] 0 [first, some exhaustedJob] ((), 0) :=
  ⟨2, 0, ((), 0), ((), 0), by decide, rfl, rfl, rfl, rfl⟩

theorem sweepFailed_isolates_iff_foreignJob :
    SweepIsolates (listing [("first", some foreignJob), ("flash-2026-bob", some exhaustedJob)])
      oneUnitEnv ((), 0) [.countJobs .failed, .getFailedScanOffset, .getRange .failed 0 9,
        .getJob "first", .getJob "flash-2026-bob"] 0 [some foreignJob, some exhaustedJob] ((), 0) ↔
    none ∉ [some foreignJob, some exhaustedJob] :=
  sweepFailed_isolates_iff (pageRead_listing (some foreignJob))

/-- The first of two failed jobs vanished between the listing and the loading: the sweep makes no
call for the second, which is eligible. -/
theorem vanishedEntry_stops_sweep :
    PageRead (listing [("first", none), ("flash-2026-bob", some exhaustedJob)]).perform oneUnitEnv
      ((), 0) [.countJobs .failed, .getFailedScanOffset, .getRange .failed 0 9, .getJob "first",
        .getJob "flash-2026-bob"] 0 [none, some exhaustedJob] ((), 0) ∧
    exhaustedJob.eligible .failed = true ∧
    (sweepFailed oneUnitEnv).made
        (listing [("first", none), ("flash-2026-bob", some exhaustedJob)]).perform ((), 0) =
      [.countJobs .failed, .getFailedScanOffset, .getRange .failed 0 9, .getJob "first",
        .getJob "flash-2026-bob"] ∧
    ¬ SweepIsolates (listing [("first", none), ("flash-2026-bob", some exhaustedJob)]) oneUnitEnv
      ((), 0) [.countJobs .failed, .getFailedScanOffset, .getRange .failed 0 9, .getJob "first",
        .getJob "flash-2026-bob"] 0 [none, some exhaustedJob] ((), 0) :=
  ⟨pageRead_listing none, exhaustedJob_eligible.2, rfl,
    not_sweepIsolates_of_vanished (pageRead_listing none) (by simp)⟩

end FlashSale
