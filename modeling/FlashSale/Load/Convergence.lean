import FlashSale.Lib.Prog
import FlashSale.Load.Fingerprint

/-!
# Waiting until the system has come to rest

`waitForConvergence` collects snapshots until the same converged state has been seen twice at least
250 ms apart and once more after that. A failed collection, a snapshot that is not converged and a
fingerprint that differs all give up the candidate.

The loop is a program with three calls: a reading of the clock, a collection and a pause. Its run is
logged; at the head of the loop a candidate is backed by the end of the log, which starts with the
candidate's collection and holds only collections that agree with it (`Streak`). Each turn keeps this
(`turn_spec`), and a turn that returns evidence extends the streak by two more collections.
-/

namespace FlashSale.Load

open Number Prog

/-! ## The loop -/

/-- What the loop asks of its caller. -/
inductive Call where
  | now
  | collect
  | delay (milliseconds : JsNumber)

/-- What a call answers. -/
@[reducible] def Call.Res : Call → Type
  | .now => JsNumber
  | .collect => Snapshot
  | .delay _ => Unit

/-- A program of the loop; its errors are texts. -/
abbrev Poll := Prog Call Call.Res String

/-- `dependencies.now()`. -/
def now : Poll JsNumber := call Call.now

/-- `dependencies.collect()`. -/
def collect : Poll Snapshot := call Call.collect

/-- `dependencies.sleep(milliseconds)`. -/
def delayFor (milliseconds : JsNumber) : Poll Unit := call (Call.delay milliseconds)

/-- What the wait returns. -/
structure ConvergenceEvidence where
  snapshot : Snapshot
  elapsedMs : JsNumber
  matchingSnapshots : ℕ
  stableIntervalMs : JsNumber
  finalLiveCollection : Bool
  successfulCollections : ℕ
  collectionFailures : ℕ

/-- The variables of the loop. -/
structure Polling where
  backoffMs : ℕ := 100
  candidateFingerprint : Option (List Char) := none
  candidateAt : Option JsNumber := none
  matchingSnapshots : ℕ := 0
  successfulCollections : ℕ := 0
  collectionFailures : ℕ := 0
  lastComplete : Option Snapshot := none
  lastCollectionError : Option String := none

/-- The candidate is given up. -/
def Polling.reset (p : Polling) : Polling :=
  { p with candidateFingerprint := none, candidateAt := none, matchingSnapshots := 0 }

/-- Both services are ready and no job of the queue is left or has failed. -/
def Snapshot.converged (s : Snapshot) : Bool :=
  s.apiReady && s.workerReady && s.queue.waiting.eq (.finite 0) && s.queue.active.eq (.finite 0) &&
    s.queue.delayed.eq (.finite 0) && s.queue.failed.eq (.finite 0)

/-- The text of an object with the given fields. -/
def objectText (fields : List (String × List Char)) : List Char :=
  '{' :: (List.intercalate [','] (fields.map fun f => Json.quote f.1 ++ ':' :: f.2) ++ ['}'])

/-- The text of an object of numbers. -/
def numbersText (names : List String) (numbers : List JsNumber) : List Char :=
  objectText (names.zip (numbers.map fun x => (Json.number x).stringify))

/-- The last snapshot in the error of an expired deadline. -/
def diagnostic : Option Snapshot → List Char
  | none => "null".toList
  | some s => objectText [("apiReady", (Json.bool s.apiReady).stringify),
      ("workerReady", (Json.bool s.workerReady).stringify),
      ("queue", numbersText ["waiting", "active", "delayed", "failed"] s.queue.numbers),
      ("postgres", numbersText ["totalStock", "persisted", "compensated", "reserved",
        "duplicateUsersGlobal", "duplicateUsersInSale", "outsideWindow"] s.postgres.numbers),
      ("redis", numbersText ["stock", "buyers", "reservations", "metricsConfirmed"]
        s.redis.numbers)]

/-- The error of an expired deadline. -/
def Polling.expiredText (p : Polling) : String :=
  "Convergence deadline expired; last=" ++ String.ofList (diagnostic p.lastComplete) ++
    "; lastCollectionError=" ++ p.lastCollectionError.getD "none"

/-- The variables after a collection. -/
def Polling.succeeded (p : Polling) (snapshot : Snapshot) : Polling :=
  { p with successfulCollections := p.successfulCollections + 1, lastComplete := some snapshot }

/-- The variables after a collection that failed. -/
def Polling.failed (p : Polling) (error : String) : Polling :=
  { p with
    collectionFailures := p.collectionFailures + 1
    lastCollectionError := some error }.reset

/-- A collection; a failure is noted and gives no snapshot. -/
def collectOne (redact : String → String) (p : Polling) : Poll (Option Snapshot × Polling) :=
  tryCatch (do
    let snapshot ← collect
    return (some snapshot, p.succeeded snapshot))
    fun error => return (none, p.failed (redact error))

section Loop

variable (redact : String → String) (deadlineMs startedAt : JsNumber)

/-- What is left of the deadline at the reading `t`. -/
def remainingAt (t : JsNumber) : JsNumber := deadlineMs.sub (t.sub startedAt)

/-- What is left of the deadline now. -/
def remaining : Poll JsNumber := do
  return remainingAt deadlineMs startedAt (← now)

/-- The pause before another turn, which is one and a half times as long the next time. -/
def sleepForRetry (p : Polling) : Poll Polling := do
  let left ← remaining deadlineMs startedAt
  let milliseconds := (JsNumber.finite p.backoffMs).min ((JsNumber.finite 0).max left)
  if (JsNumber.finite 0).lt milliseconds then
    delayFor milliseconds
  -- `Math.ceil(backoffMs * 1.5)`
  return { p with backoffMs := min 2000 ((3 * p.backoffMs + 1) / 2) }

/-- How a turn of the loop ends. -/
inductive Turn where
  | again (p : Polling)
  | expired (p : Polling)
  | returned (evidence : ConvergenceEvidence)

/-- The turn from the second matching snapshot on. -/
def confirm (p : Polling) (stableIntervalMs : JsNumber) : Poll Turn := do
  let left ← remaining deadlineMs startedAt
  if left.le (.finite 0) then return .expired p
  else
    let (finalSnapshot, p) ← collectOne redact p
    let left ← remaining deadlineMs startedAt
    if left.le (.finite 0) then return .expired p
    else match finalSnapshot with
      | none => return .again (← sleepForRetry deadlineMs startedAt p.reset)
      | some snapshot =>
        if snapshot.converged && p.candidateFingerprint == some snapshot.canonicalFingerprint then
          let t ← now
          return .returned
            { snapshot
              elapsedMs := t.sub startedAt
              matchingSnapshots := p.matchingSnapshots
              stableIntervalMs
              finalLiveCollection := true
              successfulCollections := p.successfulCollections
              collectionFailures := p.collectionFailures }
        else return .again (← sleepForRetry deadlineMs startedAt p.reset)

/-- The turn from a converged snapshot on. -/
def compareCandidate (p : Polling) (snapshot : Snapshot) : Poll Turn := do
  let completedAt ← now
  if p.candidateFingerprint != some snapshot.canonicalFingerprint then
    return .again (← sleepForRetry deadlineMs startedAt
      { p with
        candidateFingerprint := some snapshot.canonicalFingerprint
        candidateAt := some completedAt
        matchingSnapshots := 1 })
  else
    -- a number minus `undefined` is NaN
    let stableIntervalMs := completedAt.sub (p.candidateAt.getD .nan)
    if stableIntervalMs.lt (.finite 250) then
      return .again (← sleepForRetry deadlineMs startedAt p)
    else confirm redact deadlineMs startedAt { p with matchingSnapshots := 2 } stableIntervalMs

/-- One turn of the loop, its condition included. -/
def turn (p : Polling) : Poll Turn := do
  let left ← remaining deadlineMs startedAt
  if (JsNumber.finite 0).lt left then
    let (snapshot, p) ← collectOne redact p
    let left ← remaining deadlineMs startedAt
    if left.le (.finite 0) then return .expired p
    else match snapshot with
      | none => return .again (← sleepForRetry deadlineMs startedAt p)
      | some snapshot =>
        if snapshot.converged then compareCandidate redact deadlineMs startedAt p snapshot
        else return .again (← sleepForRetry deadlineMs startedAt p.reset)
  else return .expired p

/-- The first turns of the loop; `none` when it is still waiting after them. -/
def loop : ℕ → Polling → Poll (Option ConvergenceEvidence)
  | 0, _ => return none
  | turns + 1, p => do
    match ← turn redact deadlineMs startedAt p with
    | .again p => loop turns p
    | .expired p => .throw p.expiredText
    | .returned evidence => return some evidence

end Loop

/-- The wait, for as many turns at most. -/
def waitForConvergence (redact : String → String) (deadlineMs : JsNumber) (turns : ℕ) :
    Poll (Option ConvergenceEvidence) := do
  let startedAt ← now
  loop redact deadlineMs startedAt turns {}

/-! ## Runs -/

/-- The readings of a clock and the results of `collect`, in order. -/
structure World where
  now : ℕ → ℚ
  collect : ℕ → Except String Snapshot

/-- What happens in a run. -/
inductive Event where
  | read (t : ℚ)
  | collected (result : Except String Snapshot)
  | slept (milliseconds : JsNumber)

/-- How often the clock was read and `collect` called, and everything that happened. -/
structure Observed where
  reads : ℕ := 0
  calls : ℕ := 0
  log : List Event := []

namespace Observed

variable (w : World) (s : Observed)

/-- The clock is read. -/
def read : Observed :=
  { s with reads := s.reads + 1, log := s.log ++ [.read (w.now s.reads)] }

/-- A snapshot is collected. -/
def collect : Observed :=
  { s with calls := s.calls + 1, log := s.log ++ [.collected (w.collect s.calls)] }

/-- The loop pauses. -/
def sleep (milliseconds : JsNumber) : Observed := { s with log := s.log ++ [.slept milliseconds] }

end Observed

/-- The world answers a call and the run is logged. -/
def World.perform (w : World) : (o : Call) → Observed → Option (Except String o.Res × Observed)
  | .now, s => some (.ok (.finite (w.now s.reads)), s.read w)
  | .collect, s => some (w.collect s.calls, s.collect w)
  | .delay milliseconds, s => some (.ok (), s.sleep milliseconds)

section

variable {w : World} {redact : String → String} {deadlineMs startedAt : JsNumber} {β : Type}

theorem run_now (f : JsNumber → Poll β) (s : Observed) :
    (now.bind f).run w.perform s = (f (.finite (w.now s.reads))).run w.perform (s.read w) :=
  rfl

theorem run_remaining (f : JsNumber → Poll β) (s : Observed) :
    ((remaining deadlineMs startedAt).bind f).run w.perform s =
      (f (remainingAt deadlineMs startedAt (.finite (w.now s.reads)))).run w.perform (s.read w) :=
  rfl

theorem run_collectOne_ok {snapshot : Snapshot} {s : Observed}
    (h : w.collect s.calls = .ok snapshot) (p : Polling)
    (f : Option Snapshot × Polling → Poll β) :
    ((collectOne redact p).bind f).run w.perform s =
      (f (some snapshot, p.succeeded snapshot)).run w.perform (s.collect w) := by
  have hcall : collect.run w.perform s = some (.ok snapshot, s.collect w) := by
    rw [← h]
    exact run_call (o := Call.collect) rfl
  refine run_bind_of_ok ?_ f
  unfold collectOne
  simp only [tryCatch_eq, bind_eq, pure_eq, run_catchWith]
  rw [run_bind_of_ok hcall]
  rfl

theorem run_collectOne_error {error : String} {s : Observed}
    (h : w.collect s.calls = .error error) (p : Polling)
    (f : Option Snapshot × Polling → Poll β) :
    ((collectOne redact p).bind f).run w.perform s =
      (f (none, p.failed (redact error))).run w.perform (s.collect w) := by
  have hcall : collect.run w.perform s = some (.error error, s.collect w) := by
    rw [← h]
    exact run_call (o := Call.collect) rfl
  refine run_bind_of_ok ?_ f
  unfold collectOne
  simp only [tryCatch_eq, bind_eq, pure_eq, run_catchWith]
  rw [run_bind_of_error hcall]
  rfl

/-- What passes without a collection. -/
structure Observed.Quiet (s s' : Observed) : Prop where
  calls : s'.calls = s.calls
  log : ∃ events, s'.log = s.log ++ events ∧ ∀ result, Event.collected result ∉ events

theorem Observed.quiet_read (s : Observed) : s.Quiet (s.read w) :=
  ⟨rfl, _, rfl, by simp⟩

theorem Observed.quiet_sleep (s : Observed) (milliseconds : JsNumber) :
    s.Quiet (s.sleep milliseconds) :=
  ⟨rfl, _, rfl, by simp⟩

theorem Observed.Quiet.trans {s t u : Observed} (h : s.Quiet t) (h' : t.Quiet u) : s.Quiet u := by
  obtain ⟨events, hlog, hevents⟩ := h.log
  obtain ⟨events', hlog', hevents'⟩ := h'.log
  refine ⟨h'.calls.trans h.calls, events ++ events', ?_, ?_⟩
  · rw [hlog', hlog, List.append_assoc]
  · intro result hmem
    exact (List.mem_append.1 hmem).elim (hevents result) (hevents' result)

/-- A pause changes the back-off only. -/
def Polling.slept (p : Polling) : Polling :=
  { p with backoffMs := min 2000 ((3 * p.backoffMs + 1) / 2) }

theorem run_sleepForRetry (p : Polling) (f : Polling → Poll β) (s : Observed) :
    ∃ s', ((sleepForRetry deadlineMs startedAt p).bind f).run w.perform s =
        (f p.slept).run w.perform s' ∧ s.Quiet s' := by
  obtain ⟨s', hrun, hquiet⟩ : ∃ s', (sleepForRetry deadlineMs startedAt p).run w.perform s =
      some (.ok p.slept, s') ∧ s.Quiet s' := by
    unfold sleepForRetry
    simp only [bind_eq, pure_eq]
    rw [run_remaining]
    split
    · exact ⟨_, rfl, s.quiet_read.trans (Observed.quiet_sleep _ _)⟩
    · exact ⟨_, rfl, s.quiet_read⟩
  exact ⟨s', run_bind_of_ok hrun f, hquiet⟩

/-! ## Streaks -/

/-- A result that agrees with the fingerprint. -/
def Agrees (fingerprint : List Char) (result : Except String Snapshot) : Prop :=
  ∃ snapshot, result = .ok snapshot ∧ snapshot.converged = true ∧
    snapshot.canonicalFingerprint = fingerprint

/-- The log ends with the collection of a candidate, completed at `completedAt`, and nothing but
results that agree with it. -/
def Streak (fingerprint : List Char) (completedAt : ℚ) (log : List Event) : Prop :=
  ∃ before candidate t after,
    log = before ++ .collected (.ok candidate) :: .read t :: .read completedAt :: after ∧
    ∀ result, Event.collected result ∈
      .collected (.ok candidate) :: .read t :: .read completedAt :: after →
      Agrees fingerprint result

theorem Streak.append {fingerprint : List Char} {completedAt : ℚ} {log events : List Event}
    (h : Streak fingerprint completedAt log)
    (hevents : ∀ result, .collected result ∈ events → Agrees fingerprint result) :
    Streak fingerprint completedAt (log ++ events) := by
  obtain ⟨before, candidate, t, after, rfl, hafter⟩ := h
  refine ⟨before, candidate, t, after ++ events, by simp, ?_⟩
  intro result hmem
  rw [← List.cons_append, ← List.cons_append, ← List.cons_append] at hmem
  exact (List.mem_append.1 hmem).elim (hafter result) (hevents result)

/-- What holds at the head of the loop. -/
structure Inv (p : Polling) (s : Observed) : Prop where
  counted : p.successfulCollections + p.collectionFailures = s.calls
  streak : ∀ fingerprint, p.candidateFingerprint = some fingerprint →
    ∃ completedAt, p.candidateAt = some (.finite completedAt) ∧
      Streak fingerprint completedAt s.log

theorem Inv.quiet {p : Polling} {s s' : Observed} (h : Inv p s) (hquiet : s.Quiet s') : Inv p s' := by
  obtain ⟨events, hlog, hevents⟩ := hquiet.log
  refine ⟨h.counted.trans hquiet.calls.symm, fun fingerprint hf => ?_⟩
  obtain ⟨completedAt, hat, hstreak⟩ := h.streak fingerprint hf
  refine ⟨completedAt, hat, ?_⟩
  rw [hlog]
  exact hstreak.append fun result hmem => absurd hmem (hevents result)

theorem Inv.slept {p : Polling} {s : Observed} (h : Inv p s) : Inv p.slept s := ⟨h.counted, h.streak⟩

/-- Giving up the candidate. -/
theorem Inv.reset {p : Polling} {s : Observed}
    (h : p.successfulCollections + p.collectionFailures = s.calls) : Inv p.reset s :=
  ⟨h, fun _ hf => by cases hf⟩

theorem Inv.failed {p : Polling} {s : Observed} {error : String}
    (h : p.successfulCollections + p.collectionFailures = s.calls) :
    Inv (p.failed error) (s.collect w) := by
  refine Inv.reset ?_
  show p.successfulCollections + (p.collectionFailures + 1) = s.calls + 1
  omega

/-! ## Evidence -/

/-- What returned evidence rests on: the log ends with a candidate and nothing but results that agree
with it; the last collection but one completed 250 ms or more after the candidate (as doubles, and
exactly when the readings are multiples of `2 ^ -45` ms apart), and the last one was made after that
and before the deadline. -/
def Evidenced (deadlineMs : JsNumber) (startedAt : ℚ) (evidence : ConvergenceEvidence)
    (s : Observed) : Prop :=
  ∃ before candidate t₀ candidateAt between matching t₁ completedAt t₂ t₃ t₄,
    let suffix := .collected (.ok candidate) :: .read t₀ :: .read candidateAt ::
      (between ++ [.collected (.ok matching), .read t₁, .read completedAt, .read t₂,
        .collected (.ok evidence.snapshot), .read t₃, .read t₄])
    s.log = before ++ suffix ∧
    (∀ result, .collected result ∈ suffix →
      Agrees evidence.snapshot.canonicalFingerprint result) ∧
    evidence.stableIntervalMs = (JsNumber.finite completedAt).sub (.finite candidateAt) ∧
    (JsNumber.finite 250).le evidence.stableIntervalMs = true ∧
    ((∃ m : ℤ, completedAt - candidateAt = m / 2 ^ 45) → 250 ≤ completedAt - candidateAt) ∧
    completedAt ≤ t₂ ∧ t₂ ≤ t₃ ∧
    ((JsNumber.finite 0).lt (remainingAt deadlineMs (.finite startedAt) (.finite t₃)) = true ∨
      deadlineMs = .infinite false) ∧
    evidence.successfulCollections + evidence.collectionFailures = s.calls

/-- What a turn leaves behind. -/
def Post (deadlineMs : JsNumber) (startedAt : ℚ) : Turn → Observed → Prop
  | .again p, s => Inv p s
  | .expired _, _ => True
  | .returned evidence, s => Evidenced deadlineMs startedAt evidence s

/-- While the loop runs, a deadline that has not passed lies ahead. -/
theorem before_deadline {startedAt t₀ t : ℚ}
    (hloop : (JsNumber.finite 0).lt (remainingAt deadlineMs (.finite startedAt) (.finite t₀)) = true)
    (h : (remainingAt deadlineMs (.finite startedAt) (.finite t)).le (.finite 0) = false) :
    (JsNumber.finite 0).lt (remainingAt deadlineMs (.finite startedAt) (.finite t)) = true ∨
      deadlineMs = .infinite false := by
  have helapsed : ∀ t : ℚ, (JsNumber.finite t).sub (.finite startedAt) ≠ .nan :=
    fun t => JsNumber.finite_sub_ne_nan (by simp)
  cases deadlineMs with
  | finite d => exact .inl (JsNumber.lt_of_not_le (JsNumber.finite_sub_ne_nan (helapsed t)) (by simp) h)
  | infinite negative =>
    cases negative with
    | false => exact .inr rfl
    | true =>
      exfalso
      unfold remainingAt at hloop
      generalize (JsNumber.finite t₀).sub (.finite startedAt) = x at hloop
      cases x with
      | finite q => cases hloop
      | infinite negative => cases negative <;> cases hloop
      | nan => cases hloop
  | nan => cases hloop

theorem run_again {p : Polling} {s s' : Observed} {startedAt : ℚ} {r : Except String Turn}
    (h : Inv p s)
    (hrun : ((sleepForRetry deadlineMs (.finite startedAt) p).bind fun p =>
      (Prog.pure (Turn.again p) : Poll Turn)).run w.perform s = some (r, s')) :
    ∃ t, r = .ok t ∧ Post deadlineMs startedAt t s' := by
  obtain ⟨s₁, hs₁, hquiet⟩ := run_sleepForRetry (w := w) p
    (fun p => (Prog.pure (Turn.again p) : Poll Turn)) s
  rw [hs₁] at hrun
  obtain ⟨rfl, rfl⟩ := Prod.mk.inj (Option.some.inj hrun)
  exact ⟨_, rfl, h.slept.quiet hquiet⟩

theorem run_expired {p : Polling} {s s' : Observed} {startedAt : ℚ} {r : Except String Turn}
    (hrun : (Prog.pure (Turn.expired p) : Poll Turn).run w.perform s = some (r, s')) :
    ∃ t, r = .ok t ∧ Post deadlineMs startedAt t s' := by
  obtain ⟨rfl, rfl⟩ := Prod.mk.inj (Option.some.inj hrun)
  exact ⟨_, rfl, trivial⟩

/-- The turn from the second matching snapshot on. -/
theorem confirm_spec (hclock : Monotone w.now) {p : Polling} {s s' : Observed} {startedAt t : ℚ}
    {fingerprint : List Char} {candidateAt t₁ completedAt : ℚ} {log : List Event}
    {matching : Snapshot} {stableIntervalMs : JsNumber} {r : Except String Turn}
    (hloop : (JsNumber.finite 0).lt (remainingAt deadlineMs (.finite startedAt) (.finite t)) = true)
    (hcounted : p.successfulCollections + p.collectionFailures = s.calls)
    (hcandidate : p.candidateFingerprint = some fingerprint)
    (hlog : s.log = log ++ [.collected (.ok matching), .read t₁, .read completedAt])
    (hstreak : Streak fingerprint candidateAt log) (hmatching : Agrees fingerprint (.ok matching))
    (hcompleted : completedAt ≤ w.now s.reads)
    (hinterval : stableIntervalMs = (JsNumber.finite completedAt).sub (.finite candidateAt))
    (hstable : stableIntervalMs.lt (.finite 250) = false)
    (hrun : (confirm redact deadlineMs (.finite startedAt) p stableIntervalMs).run w.perform s =
      some (r, s')) :
    ∃ t, r = .ok t ∧ Post deadlineMs startedAt t s' := by
  unfold confirm at hrun
  simp only [bind_eq, pure_eq] at hrun
  rw [run_remaining] at hrun
  split at hrun
  · exact run_expired hrun
  cases hresult : w.collect (s.read w).calls with
  | error error =>
    rw [run_collectOne_error hresult, run_remaining] at hrun
    split at hrun
    · exact run_expired hrun
    · have hinv : Inv (p.failed (redact error)).reset (((s.read w).collect w).read w) :=
        Inv.reset (Inv.failed (w := w) (s := s.read w) hcounted).counted
      exact run_again hinv hrun
  | ok snapshot =>
    rw [run_collectOne_ok hresult, run_remaining] at hrun
    have hcounted' : p.successfulCollections + 1 + p.collectionFailures = s.calls + 1 := by omega
    split at hrun
    · exact run_expired hrun
    rename_i hbefore
    by_cases hagrees : (snapshot.converged &&
        (p.succeeded snapshot).candidateFingerprint == some snapshot.canonicalFingerprint) = true
    · dsimp only at hrun
      rw [if_pos hagrees, run_now] at hrun
      obtain ⟨rfl, rfl⟩ := Prod.mk.inj (Option.some.inj hrun)
      rw [Bool.and_eq_true, beq_iff_eq] at hagrees
      obtain ⟨hconverged, hsame⟩ := hagrees
      obtain rfl : fingerprint = snapshot.canonicalFingerprint :=
        Option.some.inj (hcandidate.symm.trans hsame)
      have hnan : stableIntervalMs ≠ .nan := by
        rw [hinterval]
        exact JsNumber.finite_sub_ne_nan (x := .finite candidateAt) (by simp)
      have hlate := JsNumber.le_of_not_lt hnan (by simp) hstable
      obtain ⟨before, candidate, t₀, after, rfl, hafter⟩ := hstreak
      refine ⟨_, rfl, before, candidate, t₀, candidateAt, after, matching, t₁, completedAt,
        w.now s.reads, w.now (s.reads + 1), w.now (s.reads + 2), ?_, ?_, hinterval, hlate, ?_,
        hcompleted, hclock (Nat.le_succ _), ?_, hcounted'⟩
      · simp [Observed.read, Observed.collect, hlog, ← hresult]
      · intro result hmem
        rw [← List.cons_append, ← List.cons_append, ← List.cons_append, List.mem_append] at hmem
        rcases hmem with hmem | hmem
        · exact hafter result hmem
        · simp only [List.mem_cons, Event.collected.injEq, reduceCtorEq, false_or, List.not_mem_nil,
            or_false] at hmem
          rcases hmem with rfl | rfl
          · exact hmatching
          · exact ⟨snapshot, rfl, hconverged, rfl⟩
      · rintro ⟨m, hm⟩
        rw [hinterval] at hlate
        rw [sub_eq_add_neg] at hm ⊢
        exact JsNumber.le_of_le_ofRat hm hlate
      · exact before_deadline hloop (Bool.eq_false_iff.2 hbefore)
    · dsimp only at hrun
      rw [if_neg hagrees] at hrun
      have hinv : Inv (p.succeeded snapshot).reset (((s.read w).collect w).read w) :=
        Inv.reset hcounted'
      exact run_again hinv hrun

/-- The turn from a converged snapshot on. -/
theorem compareCandidate_spec (hclock : Monotone w.now) {p : Polling} {s s' : Observed}
    {startedAt t : ℚ} {snapshot : Snapshot} {r : Except String Turn}
    (hloop : (JsNumber.finite 0).lt (remainingAt deadlineMs (.finite startedAt) (.finite t)) = true)
    (hinv : Inv p s) (hresult : w.collect s.calls = .ok snapshot)
    (hconverged : snapshot.converged = true)
    (hrun : (compareCandidate redact deadlineMs (.finite startedAt) (p.succeeded snapshot)
      snapshot).run w.perform ((s.collect w).read w) = some (r, s')) :
    ∃ t, r = .ok t ∧ Post deadlineMs startedAt t s' := by
  have hagrees : Agrees snapshot.canonicalFingerprint (.ok snapshot) := ⟨snapshot, rfl, hconverged, rfl⟩
  have hcounted : p.successfulCollections + 1 + p.collectionFailures = s.calls + 1 := by
    have := hinv.counted
    omega
  have hlog : (((s.collect w).read w).read w).log = s.log ++
      [.collected (.ok snapshot), .read (w.now s.reads), .read (w.now (s.reads + 1))] := by
    simp [Observed.read, Observed.collect, hresult]
  unfold compareCandidate at hrun
  simp only [bind_eq, pure_eq] at hrun
  rw [run_now] at hrun
  split at hrun
  · -- a new candidate
    refine run_again ⟨hcounted, ?_⟩ hrun
    rintro fingerprint hf
    obtain rfl := Option.some.inj hf
    refine ⟨w.now (s.reads + 1), rfl, s.log, snapshot, w.now s.reads, [], hlog, ?_⟩
    intro result hmem
    simp only [List.mem_cons, Event.collected.injEq, reduceCtorEq, List.not_mem_nil,
      or_false] at hmem
    rw [hmem]
    exact hagrees
  · rename_i hsame
    have hcandidate : p.candidateFingerprint = some snapshot.canonicalFingerprint := by
      simpa [Polling.succeeded] using hsame
    obtain ⟨candidateAt, hat, hstreak⟩ := hinv.streak _ hcandidate
    have hat' : (p.succeeded snapshot).candidateAt.getD .nan = .finite candidateAt := by
      show p.candidateAt.getD .nan = _
      rw [hat]
      rfl
    rw [hat'] at hrun
    split at hrun
    · -- too early: the streak goes on
      refine run_again ⟨hcounted, ?_⟩ hrun
      rintro fingerprint hf
      obtain rfl := Option.some.inj (hcandidate.symm.trans hf)
      refine ⟨candidateAt, hat, ?_⟩
      rw [hlog]
      refine hstreak.append fun result hmem => ?_
      simp only [List.mem_cons, Event.collected.injEq, reduceCtorEq, List.not_mem_nil,
        or_false] at hmem
      rw [hmem]
      exact hagrees
    · rename_i hlate
      exact confirm_spec (p := { p.succeeded snapshot with matchingSnapshots := 2 })
        (s := ((s.collect w).read w).read w) hclock hloop hcounted hcandidate hlog hstreak hagrees
        (hclock (Nat.le_succ _)) rfl (Bool.eq_false_iff.2 hlate) hrun

/-- **One turn keeps the invariant, and returns evidence only for a streak.** -/
theorem turn_spec (hclock : Monotone w.now) {p : Polling} {s s' : Observed} {startedAt : ℚ}
    {r : Except String Turn} (hinv : Inv p s)
    (hrun : (turn redact deadlineMs (.finite startedAt) p).run w.perform s = some (r, s')) :
    ∃ t, r = .ok t ∧ Post deadlineMs startedAt t s' := by
  unfold turn at hrun
  simp only [bind_eq, pure_eq] at hrun
  rw [run_remaining] at hrun
  split at hrun
  · rename_i hloop
    have hinv' : Inv p (s.read w) := hinv.quiet s.quiet_read
    cases hresult : w.collect (s.read w).calls with
    | error error =>
      rw [run_collectOne_error hresult, run_remaining] at hrun
      split at hrun
      · exact run_expired hrun
      · have hfailed : Inv (p.failed (redact error)) (((s.read w).collect w).read w) :=
          (Inv.failed hinv'.counted).quiet (Observed.quiet_read _)
        exact run_again hfailed hrun
    | ok snapshot =>
      rw [run_collectOne_ok hresult, run_remaining] at hrun
      split at hrun
      · exact run_expired hrun
      · dsimp only at hrun
        split at hrun
        · rename_i hconverged
          exact compareCandidate_spec hclock hloop hinv' hresult hconverged hrun
        · have hreset : Inv (p.succeeded snapshot).reset (((s.read w).collect w).read w) := by
            refine Inv.reset ?_
            show p.successfulCollections + 1 + p.collectionFailures = s.calls + 1
            have := hinv.counted
            omega
          exact run_again hreset hrun
  · exact run_expired hrun

/-- The whole loop. -/
theorem loop_spec (hclock : Monotone w.now) {startedAt : ℚ} {evidence : ConvergenceEvidence}
    {turns : ℕ} {p : Polling} {s s' : Observed} (hinv : Inv p s)
    (hrun : (loop redact deadlineMs (.finite startedAt) turns p).run w.perform s =
      some (.ok (some evidence), s')) :
    Evidenced deadlineMs startedAt evidence s' := by
  induction turns generalizing p s with
  | zero => cases hrun
  | succ turns ih =>
    rw [loop, bind_eq, run_bind] at hrun
    cases hturn : (turn redact deadlineMs (.finite startedAt) p).run w.perform s with
    | none =>
      rw [hturn] at hrun
      cases hrun
    | some q =>
      obtain ⟨r, s₁⟩ := q
      obtain ⟨t, rfl, hpost⟩ := turn_spec hclock hinv hturn
      rw [hturn] at hrun
      cases t with
      | again p' => exact ih hpost hrun
      | expired p' => cases hrun
      | returned e =>
        obtain ⟨he, rfl⟩ := Prod.mk.inj (Option.some.inj hrun)
        obtain rfl := Option.some.inj (Except.ok.inj he)
        exact hpost

end

/-- **Convergence evidence is sound**, and the fingerprint it rests on tells snapshots apart up to the
order of their collections. -/
theorem waitForConvergence_sound :
    (∀ (w : World) (redact : String → String) (deadlineMs : JsNumber) (turns : ℕ)
      (evidence : ConvergenceEvidence) (s : Observed), Monotone w.now →
      (waitForConvergence redact deadlineMs turns).run w.perform {} =
        some (.ok (some evidence), s) →
      Evidenced deadlineMs (w.now 0) evidence s) ∧
    ∀ s t : Snapshot, s.Finite → t.Finite →
      (s.canonicalFingerprint = t.canonicalFingerprint ↔ s.SameUpToOrder t) := by
  refine ⟨?_, fun s t hs ht => Snapshot.fingerprint_eq_iff hs ht⟩
  intro w redact deadlineMs turns evidence s hclock hrun
  unfold waitForConvergence at hrun
  rw [bind_eq, run_now] at hrun
  exact loop_spec hclock ⟨rfl, fun _ hf => by cases hf⟩ hrun

/-- A system at rest after two sales. -/
def restingSnapshot (orders : List AuditOrder) : Snapshot :=
  let sale : SaleConfig := ⟨"flash", "Flash", .finite 2, .finite 1000, .finite 2000⟩
  { apiReady := true
    workerReady := true
    queue := ⟨.finite 0, .finite 0, .finite 0, .finite 0⟩
    sale
    apiSale := sale
    redisSale := sale
    postgres := ⟨.finite 2, .finite 2, .finite 0, .finite 0, .finite 0, .finite 0, .finite 0⟩
    redis := ⟨.finite 0, .finite 2, .finite 2, .finite 2⟩
    orders
    buyers := ⟨["u0", "u1"], by decide⟩
    reservations := ⟨[("u0", ⟨"r0", .finite 1500⟩), ("u1", ⟨"r1", .finite 1501⟩)], by decide⟩
    ledgerErrors := [] }

def order₀ : AuditOrder := ⟨"r0", "u0", .persisted, .finite 1500⟩

def order₁ : AuditOrder := ⟨"r1", "u1", .persisted, .finite 1501⟩

/-- The resting system, read by a clock that advances 100 ms with every reading. -/
def restingWorld : World where
  now i := 100 * i
  collect _ := .ok (restingSnapshot [order₀, order₁])

theorem waitForConvergence_sound_resting :
    (∃ evidence s, (waitForConvergence id (.finite 10000) 2).run restingWorld.perform {} =
        some (.ok (some evidence), s) ∧
      Evidenced (.finite 10000) (restingWorld.now 0) evidence s) ∧
    (restingSnapshot [order₀, order₁]).canonicalFingerprint =
      (restingSnapshot [order₁, order₀]).canonicalFingerprint := by
  have hclock : Monotone restingWorld.now := by
    intro i j hij
    show (100 : ℚ) * i ≤ 100 * j
    gcongr
  have hreturned : (((waitForConvergence id (.finite 10000) 2).run restingWorld.perform {}).bind
      fun r => r.1.toOption.join).isSome := by
    decide +kernel
  have hfinite : (restingSnapshot [order₀, order₁]).Finite ∧
      (restingSnapshot [order₁, order₀]).Finite := by
    unfold Snapshot.Finite
    decide +kernel
  constructor
  · obtain ⟨evidence, hevidence⟩ := Option.isSome_iff_exists.1 hreturned
    obtain ⟨⟨result, s⟩, hrun, hresult⟩ := Option.bind_eq_some_iff.1 hevidence
    have hok : result = .ok (some evidence) := by
      cases result with
      | error e => cases hresult
      | ok found => rw [show found = some evidence from hresult]
    rw [hok] at hrun
    exact ⟨evidence, s, hrun, waitForConvergence_sound.1 _ _ _ _ _ _ hclock hrun⟩
  · exact (waitForConvergence_sound.2 _ _ hfinite.1 hfinite.2).2
      ⟨rfl, rfl, rfl, rfl, rfl, rfl, rfl, rfl, List.Perm.swap _ _ _, .refl _, .refl _, .refl _⟩

end FlashSale.Load
