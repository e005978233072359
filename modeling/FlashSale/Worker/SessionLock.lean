import FlashSale.Shared.Queue

/-!
# The session lock of reconciliation

`withSessionReconciliationLock` polls `pg_try_advisory_lock` on one session of the pool, runs its
work and unlocks. A session-level lock outlives the call: it counts how often its session took it,
and goes only when that session gives it back as often. A query is answered, or rejected by the
client, before or after the server ran it, while the session stays alive.

The call returns its session to the pool whatever became of these queries, so a rejected query can
leave a pooled session with the lock; `keepsLock` is exactly when.
-/

namespace FlashSale

/-! ## The server -/

/-- The session that holds the advisory lock, and how often it took it again. -/
abbrev AdvisoryLock : Type := Option (ℕ × ℕ)

/-- The session holds the lock. -/
def AdvisoryLock.HeldBy (lock : AdvisoryLock) (session : ℕ) : Prop :=
  ∃ again, lock = some (session, again)

/-- `pg_try_advisory_lock`. -/
def pgTryAdvisoryLock (session : ℕ) : AdvisoryLock → Bool × AdvisoryLock
  | none => (true, some (session, 0))
  | some (holder, again) =>
    if holder = session then (true, some (session, again + 1)) else (false, some (holder, again))

/-- `pg_advisory_unlock`. -/
def pgAdvisoryUnlock (session : ℕ) : AdvisoryLock → Bool × AdvisoryLock
  | none => (false, none)
  | some (holder, again) =>
    if holder = session then (true, if again = 0 then none else some (session, again - 1))
    else (false, some (holder, again))

/-- What becomes of a query. -/
inductive QueryFate where
  | answered
  | rejectedBefore
  | rejectedAfter
  deriving DecidableEq, Repr

/-- A query with its fate: the client's view and the lock. -/
def query (fate : QueryFate) (lock : AdvisoryLock) (r : Bool × AdvisoryLock) :
    Except Failure Bool × AdvisoryLock :=
  match fate with
  | .answered => (.ok r.1, r.2)
  | .rejectedBefore => (.error .upstream, lock)
  | .rejectedAfter => (.error .upstream, r.2)

/-! ## The call -/

/-- One turn of the polling loop: whether the signal is aborted when it starts and during its delay,
the call in progress that holds the lock, if any, and the fate of the query. -/
structure LockPoll where
  aborted : Bool
  holder : Option ℕ
  fate : QueryFate
  abortedInDelay : Bool
  deriving DecidableEq, Repr

/-- What a call of `withSessionReconciliationLock` meets. Other calls run on other sessions. -/
structure LockRun (α : Type) where
  session : ℕ
  polls : List LockPoll
  /-- The signal is aborted once the lock is acquired. -/
  aborted : Bool
  work : Except Failure α
  unlock : QueryFate
  /-- `client.release()` throws. -/
  releaseFails : Bool
  others : ∀ p ∈ polls, p.holder ≠ some session

/-- `signal.reason`. -/
def abortReason : Failure := .error "worker lifecycle stopped"

/-- The lock when a query runs: other calls come and go, but take it from no session. -/
def contend (session : ℕ) (holder : Option ℕ) : AdvisoryLock → AdvisoryLock
  | some (s, again) =>
    if s = session then some (s, again) else holder.map fun holder => (holder, 0)
  | none => holder.map fun holder => (holder, 0)

/-- The polling loop; `none` while it goes on. -/
def acquireLock (session : ℕ) : List LockPoll → AdvisoryLock →
    Option (Except Failure Unit × AdvisoryLock)
  | [], _ => none
  | p :: polls, lock =>
    if p.aborted then some (.error abortReason, lock)
    else
      let lock := contend session p.holder lock
      match query p.fate lock (pgTryAdvisoryLock session lock) with
      | (.error e, lock) => some (.error e, lock)
      | (.ok true, lock) => some (.ok (), lock)
      | (.ok false, lock) =>
        if p.abortedInDelay then some (.error abortReason, lock) else acquireLock session polls lock

/-- What a call leaves: its outcome, the lock, and whether its session is back in the pool. -/
structure LockSettled (α : Type) where
  outcome : Except Failure α
  lock : AdvisoryLock
  pooled : Bool

/-- The errors of the cleanup in one error. -/
def cleanupOutcome {α : Type} (primary : Except Failure α) (cleanupErrors : List Failure) :
    Except Failure α :=
  match primary, cleanupErrors with
  | .error e, [] => .error e
  | .error e, errors =>
    .error (.aggregate (e :: errors) "reconciliation work and session-lock cleanup failed")
  | .ok a, [] => .ok a
  | .ok _, errors => .error (.aggregate errors "reconciliation session-lock cleanup failed")

/-- The unlock of the `finally` block, with its errors. -/
def unlockSession (session : ℕ) (fate : QueryFate) (lock : AdvisoryLock) :
    List Failure × AdvisoryLock :=
  match query fate lock (pgAdvisoryUnlock session lock) with
  | (.ok true, lock) => ([], lock)
  | (.ok false, lock) => ([.error "Postgres reconciliation advisory lock was not released"], lock)
  | (.error e, lock) => ([e], lock)

/-- The `finally` block and what follows it. -/
def LockRun.settle {α : Type} (run : LockRun α) (acquired : Bool) (primary : Except Failure α)
    (lock : AdvisoryLock) : LockSettled α :=
  let (unlockErrors, lock) :=
    if acquired then unlockSession run.session run.unlock lock else ([], lock)
  let releaseErrors := if run.releaseFails then [Failure.error "release failed"] else []
  ⟨cleanupOutcome primary (unlockErrors ++ releaseErrors), lock, !run.releaseFails⟩

/-- `OrderRepository.withSessionReconciliationLock`. -/
def withSessionReconciliationLock {α : Type} (run : LockRun α) (lock : AdvisoryLock) :
    Option (LockSettled α) :=
  match acquireLock run.session run.polls lock with
  | none => none
  | some (.error e, lock) => some (run.settle false (.error e) lock)
  | some (.ok (), lock) =>
    some (run.settle true (if run.aborted then .error abortReason else run.work) lock)

/-! ## Leaks -/

/-- The poll answers that the lock is taken and the loop goes on. -/
def LockPoll.goesOn (p : LockPoll) : Bool :=
  !p.aborted && p.holder.isSome && decide (p.fate = .answered) && !p.abortedInDelay

/-- The poll at which the loop ends. -/
def lastPoll (polls : List LockPoll) : Option LockPoll := polls.find? fun p => !p.goesOn

/-- The last poll finds the lock free. The server grants it and the client never learns, or the
client learns and its unlock never reaches the server. -/
def LockRun.keepsLock {α : Type} (run : LockRun α) : Prop :=
  ∃ p, lastPoll run.polls = some p ∧ p.aborted = false ∧ p.holder = none ∧
    (p.fate = .rejectedAfter ∨ p.fate = .answered ∧ run.unlock = .rejectedBefore)

section

variable {session : ℕ} {polls : List LockPoll} {lock lock' : AdvisoryLock}

theorem contend_of_not_heldBy (h : ¬ lock.HeldBy session) (holder : Option ℕ) :
    contend session holder lock = holder.map fun holder => (holder, 0) := by
  cases lock with
  | none => rfl
  | some l =>
    obtain ⟨s, again⟩ := l
    refine if_neg ?_
    rintro rfl
    exact h ⟨again, rfl⟩

/-- Every turn the loop goes on leaves the lock with another call. -/
theorem acquireLock_cons_goesOn {p : LockPoll} (hp : p.goesOn = true)
    (hother : p.holder ≠ some session) (hfree : ¬ lock.HeldBy session) :
    ∃ holder, p.holder = some holder ∧
      acquireLock session (p :: polls) lock = acquireLock session polls (some (holder, 0)) := by
  unfold LockPoll.goesOn at hp
  simp only [Bool.and_eq_true, Bool.not_eq_true', decide_eq_true_eq] at hp
  obtain ⟨⟨⟨haborted, hholder⟩, hfate⟩, hdelay⟩ := hp
  obtain ⟨holder, hh⟩ := Option.isSome_iff_exists.1 hholder
  have hne : holder ≠ session := by
    rintro rfl
    exact hother hh
  refine ⟨holder, hh, ?_⟩
  rw [acquireLock, contend_of_not_heldBy hfree, haborted, hh, hfate]
  simp [query, pgTryAdvisoryLock, hne, hdelay]

/-- How the loop ends: at its last poll, with the lock of its session or without. -/
theorem acquireLock_some {r : Except Failure Unit}
    (hothers : ∀ p ∈ polls, p.holder ≠ some session) (hfree : ¬ lock.HeldBy session)
    (h : acquireLock session polls lock = some (r, lock')) :
    ∃ p, lastPoll polls = some p ∧
      (r = .ok () ∧ lock' = some (session, 0) ∧ p.aborted = false ∧ p.holder = none ∧
          p.fate = .answered ∨
        (∃ e, r = .error e) ∧ ¬ (p.aborted = false ∧ p.holder = none ∧ p.fate = .answered) ∧
          (lock'.HeldBy session ↔
            p.aborted = false ∧ p.holder = none ∧ p.fate = .rejectedAfter)) := by
  induction polls generalizing lock with
  | nil => cases h
  | cons p polls ih =>
    by_cases hp : p.goesOn = true
    · obtain ⟨holder, hh, he⟩ := acquireLock_cons_goesOn hp
        (hothers p List.mem_cons_self) hfree
      rw [he] at h
      have hlast : lastPoll (p :: polls) = lastPoll polls := by
        unfold lastPoll
        rw [List.find?_cons_of_neg (by simp [hp])]
      rw [hlast]
      refine ih (fun q hq => hothers q (List.mem_cons_of_mem _ hq)) ?_ h
      rintro ⟨again, hd⟩
      obtain ⟨rfl, -⟩ := Prod.mk.inj (Option.some.inj hd)
      exact hothers p List.mem_cons_self hh
    · refine ⟨p, ?_, ?_⟩
      · unfold lastPoll
        rw [List.find?_cons_of_pos (by simpa using hp)]
      have hother := hothers p List.mem_cons_self
      rw [acquireLock, contend_of_not_heldBy hfree] at h
      obtain ⟨aborted, holder, fate, abortedInDelay⟩ := p
      dsimp only at h hother ⊢
      by_cases ha : aborted = true
      · -- the signal was aborted before the query
        rw [if_pos ha] at h
        obtain ⟨rfl, rfl⟩ := Prod.mk.inj (Option.some.inj h)
        exact .inr ⟨⟨_, rfl⟩, by simp [ha], by simp [ha, hfree]⟩
      rw [if_neg ha] at h
      have ha : aborted = false := by simpa using ha
      cases holder with
      | none =>
        cases fate with
        | answered =>
          obtain ⟨rfl, rfl⟩ := Prod.mk.inj (Option.some.inj h)
          exact .inl ⟨rfl, rfl, ha, rfl, rfl⟩
        | rejectedBefore =>
          obtain ⟨rfl, rfl⟩ := Prod.mk.inj (Option.some.inj h)
          exact .inr ⟨⟨_, rfl⟩, by simp, by simp [AdvisoryLock.HeldBy]⟩
        | rejectedAfter =>
          obtain ⟨rfl, rfl⟩ := Prod.mk.inj (Option.some.inj h)
          refine .inr ⟨⟨_, rfl⟩, by simp, ?_⟩
          simp [AdvisoryLock.HeldBy, ha, pgTryAdvisoryLock]
      | some other =>
        have hne : other ≠ session := fun e => hother (by rw [e])
        have hheld : ¬ AdvisoryLock.HeldBy (some (other, 0)) session := by
          rintro ⟨again, hd⟩
          exact hne (Prod.mk.inj (Option.some.inj hd)).1
        simp only [Option.map_some, pgTryAdvisoryLock, if_neg hne] at h
        cases fate with
        | answered =>
          by_cases hdelay : abortedInDelay = true
          · simp only [query, hdelay, if_true] at h
            obtain ⟨rfl, rfl⟩ := Prod.mk.inj (Option.some.inj h)
            exact .inr ⟨⟨_, rfl⟩, by simp, by simp [hheld]⟩
          · exact absurd (by simp [LockPoll.goesOn, ha, hdelay]) hp
        | rejectedBefore =>
          obtain ⟨rfl, rfl⟩ := Prod.mk.inj (Option.some.inj h)
          exact .inr ⟨⟨_, rfl⟩, by simp, by simp [hheld]⟩
        | rejectedAfter =>
          obtain ⟨rfl, rfl⟩ := Prod.mk.inj (Option.some.inj h)
          exact .inr ⟨⟨_, rfl⟩, by simp, by simp [hheld]⟩

/-- A session that holds the lock goes on holding it through the loop, once more if it acquires. -/
theorem acquireLock_heldBy {r : Except Failure Unit} {again : ℕ}
    (h : acquireLock session polls (some (session, again)) = some (r, lock')) :
    (r = .ok () ∧ lock' = some (session, again + 1)) ∨
      ∃ e, r = .error e ∧ lock'.HeldBy session := by
  cases polls with
  | nil => cases h
  | cons p polls =>
    obtain ⟨aborted, holder, fate, abortedInDelay⟩ := p
    have hcontend : contend session holder (some (session, again)) = some (session, again) :=
      if_pos rfl
    rw [acquireLock, hcontend] at h
    simp only [pgTryAdvisoryLock, if_true] at h
    by_cases ha : aborted = true
    · rw [if_pos ha] at h
      obtain ⟨rfl, rfl⟩ := Prod.mk.inj (Option.some.inj h)
      exact .inr ⟨_, rfl, again, rfl⟩
    rw [if_neg ha] at h
    cases fate with
    | answered =>
      obtain ⟨rfl, rfl⟩ := Prod.mk.inj (Option.some.inj h)
      exact .inl ⟨rfl, rfl⟩
    | rejectedBefore =>
      obtain ⟨rfl, rfl⟩ := Prod.mk.inj (Option.some.inj h)
      exact .inr ⟨_, rfl, again, rfl⟩
    | rejectedAfter =>
      obtain ⟨rfl, rfl⟩ := Prod.mk.inj (Option.some.inj h)
      exact .inr ⟨_, rfl, again + 1, rfl⟩

/-- One unlock does not free a lock taken again. -/
theorem unlockSession_heldBy (session : ℕ) (fate : QueryFate) (again : ℕ) :
    (unlockSession session fate (some (session, again + 1))).2.HeldBy session := by
  cases fate with
  | answered => simp [unlockSession, query, pgAdvisoryUnlock, AdvisoryLock.HeldBy]
  | rejectedBefore => simp [unlockSession, query, AdvisoryLock.HeldBy]
  | rejectedAfter => simp [unlockSession, query, pgAdvisoryUnlock, AdvisoryLock.HeldBy]

/-- The unlock after an acquisition fails to free the lock only if it never reaches the server. -/
theorem unlockSession_acquired (session : ℕ) (fate : QueryFate) :
    (unlockSession session fate (some (session, 0))).2.HeldBy session ↔ fate = .rejectedBefore := by
  cases fate with
  | answered => simp [unlockSession, query, pgAdvisoryUnlock, AdvisoryLock.HeldBy]
  | rejectedBefore => simp [unlockSession, query, AdvisoryLock.HeldBy]
  | rejectedAfter => simp [unlockSession, query, pgAdvisoryUnlock, AdvisoryLock.HeldBy]

end

section

variable {α : Type} {run : LockRun α} {lock : AdvisoryLock} {settled : LockSettled α}

theorem withSessionReconciliationLock_pooled
    (h : withSessionReconciliationLock run lock = some settled) :
    settled.pooled = !run.releaseFails := by
  unfold withSessionReconciliationLock at h
  split at h
  · cases h
  · obtain rfl := Option.some.inj h
    rfl
  · obtain rfl := Option.some.inj h
    rfl

/-- A lock its session held before the call is held after it: the unlock only undoes the call's own
acquisition. -/
theorem withSessionReconciliationLock_heldBy (hheld : lock.HeldBy run.session)
    (h : withSessionReconciliationLock run lock = some settled) :
    settled.lock.HeldBy run.session := by
  obtain ⟨again, rfl⟩ := hheld
  unfold withSessionReconciliationLock at h
  cases ha : acquireLock run.session run.polls (some (run.session, again)) with
  | none => rw [ha] at h; cases h
  | some r =>
    obtain ⟨r, lock'⟩ := r
    rw [ha] at h
    obtain ⟨rfl, rfl⟩ | ⟨e, rfl, hheld⟩ := acquireLock_heldBy ha
    · obtain rfl := Option.some.inj h
      exact unlockSession_heldBy run.session run.unlock again
    · obtain rfl := Option.some.inj h
      exact hheld

theorem withSessionReconciliationLock_free (hfree : ¬ lock.HeldBy run.session)
    (h : withSessionReconciliationLock run lock = some settled) :
    settled.lock.HeldBy run.session ↔ run.keepsLock := by
  unfold withSessionReconciliationLock at h
  cases ha : acquireLock run.session run.polls lock with
  | none => rw [ha] at h; cases h
  | some r =>
    obtain ⟨r, lock'⟩ := r
    obtain ⟨p, hp, hend⟩ := acquireLock_some run.others hfree ha
    rw [ha] at h
    have hkeeps : run.keepsLock ↔ p.aborted = false ∧ p.holder = none ∧
        (p.fate = .rejectedAfter ∨ p.fate = .answered ∧ run.unlock = .rejectedBefore) := by
      unfold LockRun.keepsLock
      constructor
      · rintro ⟨q, hq, hrest⟩
        obtain rfl := Option.some.inj (hp.symm.trans hq)
        exact hrest
      · exact fun hrest => ⟨p, hp, hrest⟩
    rw [hkeeps]
    rcases hend with ⟨rfl, rfl, hab, hho, hfate⟩ | ⟨⟨e, rfl⟩, hnot, hheld⟩
    · obtain rfl := Option.some.inj h
      refine (unlockSession_acquired run.session run.unlock).trans ?_
      simp [hab, hho, hfate]
    · obtain rfl := Option.some.inj h
      refine hheld.trans ?_
      constructor
      · rintro ⟨hab, hho, hfate⟩
        exact ⟨hab, hho, .inl hfate⟩
      · rintro ⟨hab, hho, hfate | ⟨hfate, -⟩⟩
        · exact ⟨hab, hho, hfate⟩
        · exact absurd ⟨hab, hho, hfate⟩ hnot

end

/-- **The session lock.** A call that settles leaves no pooled session with the lock exactly when
its session came from the pool without the lock and `keepsLock` fails, or does not go back. -/
theorem sessionLock_kept_iff {α : Type} (run : LockRun α) (lock : AdvisoryLock)
    (settled : LockSettled α) (h : withSessionReconciliationLock run lock = some settled) :
    ¬ (settled.pooled = true ∧ settled.lock.HeldBy run.session) ↔
      run.releaseFails = true ∨ (¬ lock.HeldBy run.session ∧ ¬ run.keepsLock) := by
  have hiff : settled.lock.HeldBy run.session ↔ lock.HeldBy run.session ∨ run.keepsLock := by
    by_cases hfree : lock.HeldBy run.session
    · exact ⟨fun _ => .inl hfree, fun _ => withSessionReconciliationLock_heldBy hfree h⟩
    · rw [withSessionReconciliationLock_free hfree h]
      exact ⟨.inr, fun hor => hor.resolve_left hfree⟩
  rw [withSessionReconciliationLock_pooled h, hiff, ← not_or]
  cases run.releaseFails with
  | true => simp
  | false => simp

/-- The lock is free, the work succeeds and the unlock is cancelled before it runs. -/
def cancelledUnlock : LockRun Unit where
  session := 0
  polls := [⟨false, none, .answered, false⟩]
  aborted := false
  work := .ok ()
  unlock := .rejectedBefore
  releaseFails := false
  others := by simp

/-- The same run with an answered unlock, after a turn that finds the lock taken. -/
def answeredUnlock : LockRun Unit where
  session := 0
  polls := [⟨false, some 1, .answered, false⟩, ⟨false, none, .answered, false⟩]
  aborted := false
  work := .ok ()
  unlock := .answered
  releaseFails := false
  others := by simp

theorem sessionLock_kept_iff_answered :
    ¬ AdvisoryLock.HeldBy none answeredUnlock.session ∧ ¬ answeredUnlock.keepsLock ∧
      ∃ settled, withSessionReconciliationLock answeredUnlock none = some settled ∧
        ¬ (settled.pooled = true ∧ settled.lock.HeldBy answeredUnlock.session) := by
  have hfree : ¬ AdvisoryLock.HeldBy none answeredUnlock.session := by
    simp [AdvisoryLock.HeldBy]
  have hkeeps : ¬ answeredUnlock.keepsLock := by
    rintro ⟨p, hp, -, -, hfate⟩
    obtain rfl := Option.some.inj hp
    simp [answeredUnlock] at hfate
  exact ⟨hfree, hkeeps, _, rfl,
    (sessionLock_kept_iff answeredUnlock none _ rfl).2 (.inr ⟨hfree, hkeeps⟩)⟩

/-- The cancelled unlock leaves the lock with a pooled session: every later call of another session
finds it taken. -/
theorem cancelledUnlock_leaks :
    ∃ settled, withSessionReconciliationLock cancelledUnlock none = some settled ∧
      settled.pooled = true ∧ settled.lock.HeldBy cancelledUnlock.session ∧
      (pgTryAdvisoryLock 1 settled.lock).1 = false :=
  ⟨_, rfl, rfl, ⟨0, rfl⟩, rfl⟩

end FlashSale
