import FlashSale.Shared.Queue
import Mathlib.Data.List.Perm.Basic

/-!
# The orders queue in BullMQ

A job id is stored at most once: `add` with an id that exists does nothing. Jobs move between states,
failed jobs stay until someone removes them, the newest `REMOVE_ON_COMPLETE_COUNT` completed jobs
are kept, and a job whose lock is held by a worker cannot be removed. Everything the worker does
with a `Job` it has loaded goes by the id, so a job that was removed and added again meanwhile is
not told apart; `seq` numbers the stored jobs only to let statements speak about that.
-/

namespace FlashSale

def ORDERS_MAX_STALLED_COUNT : ℕ := 2
def BULLMQ_MAX_STALLED_FAILED_REASON : String := "job stalled more than allowable limit"

/-- The `count` of the option `removeOnComplete` every producer passes. -/
def REMOVE_ON_COMPLETE_COUNT : ℕ := 1000

inductive JobState where
  | waiting
  | active
  | delayed
  | failed
  | completed
  | prioritized
  | waitingChildren
  | unknown
  deriving DecidableEq, Repr

/-- `['waiting', 'active', 'delayed', 'failed'].includes(state)`. -/
def JobState.isLive : JobState → Bool
  | .waiting | .active | .delayed | .failed => true
  | _ => false

/-- A job as loaded from the queue. `attempts` is `opts.attempts`. -/
structure Job where
  id : String
  name : String
  data : JsValue
  attempts : Option ℕ
  attemptsMade : ℕ
  failedReason : Option String
  stalledCounter : ℕ
  seq : ℕ

/-- A job in the queue: its state and the token of the worker that holds its lock. -/
structure StoredJob where
  job : Job
  state : JobState
  lock : Option ℕ

/-- The jobs, in the order in which each state's list or set returns them. -/
structure JobQueue where
  jobs : List StoredJob
  paused : Bool
  nextSeq : ℕ

namespace JobQueue

def empty : JobQueue := ⟨[], false, 0⟩

/-- The job stored under an id. -/
def find (q : JobQueue) (id : String) : Option StoredJob := q.jobs.find? fun s => s.job.id == id

/-- `Queue.getJob`. -/
def getJob (q : JobQueue) (id : String) : Option Job := (q.find id).map (·.job)

/-- `Job.getState`. -/
def getState (q : JobQueue) (id : String) : JobState := ((q.find id).map (·.state)).getD .unknown

/-- The ids `Queue.getJobs([state], start, stop, true)` loads, both ends included. -/
def getRange (q : JobQueue) (state : JobState) (start stop : ℕ) : List String :=
  (((q.jobs.filter (·.state = state)).drop start).take (stop + 1 - start)).map (·.job.id)

/-- `Queue.getFailedCount`, `getActiveCount` and `getJobCounts`. -/
def count (q : JobQueue) (state : JobState) : ℕ := q.jobs.countP (·.state = state)

/-- The job `Queue.add` stores. -/
def newJob (q : JobQueue) (id name : String) (data : JsValue) (attempts : ℕ) : Job :=
  ⟨id, name, data, some attempts, 0, none, 0, q.nextSeq⟩

/-- `Queue.add` with a job id; a taken id is a no-op. -/
def add (q : JobQueue) (id name : String) (data : JsValue) (attempts : ℕ) : JobQueue :=
  if (q.find id).isSome then q
  else { q with
    jobs := q.jobs ++ [⟨q.newJob id name data attempts, .waiting, none⟩]
    nextSeq := q.nextSeq + 1 }

/-- The job leaves the queue. -/
def erase (q : JobQueue) (id : String) : JobQueue :=
  { q with jobs := q.jobs.filter fun s => s.job.id != id }

/-- The job takes its place at the end of another state's list. -/
def move (q : JobQueue) (s : StoredJob) : JobQueue :=
  { q with jobs := (q.erase s.job.id).jobs ++ [s] }

/-- `Job.remove`: by id, refused while a worker holds the lock. -/
def remove (q : JobQueue) (id : String) : Except Failure Unit × JobQueue :=
  match q.find id with
  | none => (.ok (), q)
  | some s =>
    if s.lock.isSome then
      (.error (.error
        ("Job " ++ id ++ " could not be removed because it is locked by another worker")), q)
    else (.ok (), q.erase id)

/-- The first `n` completed jobs are dropped. -/
def dropCompleted : ℕ → List StoredJob → List StoredJob
  | 0, jobs => jobs
  | _, [] => []
  | n + 1, s :: jobs =>
    if s.state = .completed then dropCompleted n jobs else s :: dropCompleted (n + 1) jobs

/-- The trimming of `removeOnComplete` when a job completes. -/
def trim (q : JobQueue) : JobQueue :=
  { q with jobs := dropCompleted (q.count .completed - REMOVE_ON_COMPLETE_COUNT) q.jobs }

/-- A worker takes a waiting job and locks it with a fresh token. -/
def deliver (q : JobQueue) (id : String) (token : ℕ) : Option (Job × JobQueue) :=
  match q.find id with
  | none => none
  | some s =>
    if q.paused ∨ s.state ≠ .waiting then none
    else some (s.job, q.move { s with state := .active, lock := some token })

/-- The job a token still holds the lock of. -/
def lockedBy (q : JobQueue) (id : String) (token : ℕ) : Option StoredJob :=
  (q.find id).filter fun s => decide (s.state = .active ∧ s.lock = some token)

/-- `process()` resolved: the job completes, if the worker still holds its lock. -/
def complete (q : JobQueue) (id : String) (token : ℕ) : JobQueue :=
  match q.lockedBy id token with
  | none => q
  | some s => (q.move { s with state := .completed, lock := none }).trim

/-- `process()` was rejected: a retry later, or a failed job once the attempts are used up. -/
def fail (q : JobQueue) (id : String) (token : ℕ) (reason : String) : JobQueue :=
  match q.lockedBy id token with
  | none => q
  | some s =>
    let job := { s.job with attemptsMade := s.job.attemptsMade + 1, failedReason := some reason }
    if s.job.attempts.getD 1 ≤ job.attemptsMade then q.move ⟨job, .failed, none⟩
    else q.move ⟨job, .delayed, none⟩

/-- The stalled check: the lock of an active job expired. -/
def stall (q : JobQueue) (id : String) : JobQueue :=
  match q.find id with
  | none => q
  | some s =>
    if s.state ≠ .active then q
    else
      let job := { s.job with stalledCounter := s.job.stalledCounter + 1 }
      if ORDERS_MAX_STALLED_COUNT < job.stalledCounter then
        q.move ⟨{ job with failedReason := some BULLMQ_MAX_STALLED_FAILED_REASON }, .failed, none⟩
      else q.move ⟨job, .waiting, none⟩

/-- The delay of a job is over. -/
def promote (q : JobQueue) (id : String) : JobQueue :=
  match q.find id with
  | none => q
  | some s => if s.state ≠ .delayed then q else q.move { s with state := .waiting }

/-! ## Slots -/

/-- No two stored jobs share an id. -/
def Distinct (q : JobQueue) : Prop := (q.jobs.map (·.job.id)).Nodup

variable {q : JobQueue} {id : String} {s : StoredJob}

theorem find_some (h : q.find id = some s) : s ∈ q.jobs ∧ s.job.id = id :=
  ⟨List.mem_of_find?_eq_some h, by simpa using List.find?_some h⟩

theorem find_of_mem (hq : q.Distinct) (hs : s ∈ q.jobs) : q.find s.job.id = some s := by
  obtain ⟨jobs, paused, nextSeq⟩ := q
  unfold find Distinct at *
  induction jobs with
  | nil => cases hs
  | cons t ts ih =>
    rw [List.map_cons, List.nodup_cons] at hq
    rcases List.mem_cons.1 hs with rfl | hs
    · simp
    · have hne : t.job.id ≠ s.job.id := by
        intro e
        exact hq.1 (List.mem_map.2 ⟨s, hs, e.symm⟩)
      rw [List.find?_cons_of_neg (by simpa using hne)]
      exact ih hq.2 hs

theorem find_eq_none : q.find id = none ↔ ∀ s ∈ q.jobs, s.job.id ≠ id := by
  unfold find; simp

theorem distinct_empty : empty.Distinct := List.nodup_nil

theorem find_add (q : JobQueue) (id name : String) (data : JsValue) (attempts : ℕ)
    (id' : String) : (q.add id name data attempts).find id' =
      if id' = id ∧ q.find id = none then some ⟨q.newJob id name data attempts, .waiting, none⟩
      else q.find id' := by
  unfold add
  cases hf : q.find id with
  | some s => simp
  | none =>
    rw [if_neg (by simp)]
    unfold find at hf ⊢
    rw [List.find?_append]
    by_cases e : id' = id
    · subst e
      simp [hf, newJob]
    · have hne : id ≠ id' := fun h => e h.symm
      simp [e, newJob, hne]

theorem Distinct.add (hq : q.Distinct) (id name : String) (data : JsValue) (attempts : ℕ) :
    (q.add id name data attempts).Distinct := by
  unfold JobQueue.add
  split_ifs with hf
  · exact hq
  · have hn : q.find id = none := by simpa using hf
    unfold Distinct at *
    rw [List.map_append, List.nodup_append]
    refine ⟨hq, by simp, ?_⟩
    intro a ha b hb
    obtain ⟨t, ht, rfl⟩ := List.mem_map.1 ha
    have hb' : b = id := by simpa [newJob] using hb
    rw [hb']
    exact find_eq_none.1 hn t ht

theorem find_erase (q : JobQueue) (id id' : String) :
    (q.erase id).find id' = if id' = id then none else q.find id' := by
  split_ifs with e
  · subst e
    rw [find_eq_none]
    intro s hs
    simpa using (List.mem_filter.1 hs).2
  · unfold find erase
    rw [List.find?_filter]
    congr 1
    funext s
    by_cases h : s.job.id = id'
    · simp [h, e]
    · simp [h]

theorem Distinct.erase (hq : q.Distinct) (id : String) : (q.erase id).Distinct :=
  hq.sublist (List.Sublist.map _ List.filter_sublist)

theorem find_move (q : JobQueue) (s : StoredJob) (id : String) :
    (q.move s).find id = if id = s.job.id then some s else q.find id := by
  have he := find_erase q s.job.id id
  unfold move find at *
  rw [List.find?_append, he]
  split_ifs with e
  · simp [e]
  · have hne : s.job.id ≠ id := fun h => e h.symm
    simp [hne]

theorem Distinct.move (hq : q.Distinct) (s : StoredJob) : (q.move s).Distinct := by
  have he := hq.erase s.job.id
  unfold Distinct JobQueue.move at *
  rw [List.map_append, List.nodup_append]
  refine ⟨he, by simp, ?_⟩
  intro a ha b hb
  obtain ⟨t, ht, rfl⟩ := List.mem_map.1 ha
  have hb' : b = s.job.id := by simpa using hb
  rw [hb']
  simpa using (List.mem_filter.1 ht).2

theorem dropCompleted_sublist (n : ℕ) (jobs : List StoredJob) :
    (dropCompleted n jobs).Sublist jobs := by
  induction jobs generalizing n with
  | nil => cases n <;> exact List.Sublist.slnil
  | cons s jobs ih =>
    cases n with
    | zero => exact List.Sublist.refl _
    | succ n =>
      rw [dropCompleted]
      split_ifs
      · exact (ih n).cons s
      · exact (ih (n + 1)).cons_cons s

theorem mem_dropCompleted {n : ℕ} {jobs : List StoredJob} (hs : s ∈ jobs)
    (hstate : s.state ≠ .completed) : s ∈ dropCompleted n jobs := by
  induction jobs generalizing n with
  | nil => cases hs
  | cons t jobs ih =>
    cases n with
    | zero => exact hs
    | succ n =>
      rw [dropCompleted]
      rcases List.mem_cons.1 hs with rfl | hs
      · rw [if_neg hstate]; exact List.mem_cons_self
      · split_ifs
        · exact ih hs
        · exact List.mem_cons_of_mem _ (ih hs)

theorem trim_sublist (q : JobQueue) : q.trim.jobs.Sublist q.jobs := by
  unfold trim
  generalize q.count .completed - REMOVE_ON_COMPLETE_COUNT = n
  exact dropCompleted_sublist n q.jobs

theorem mem_trim (hs : s ∈ q.jobs) (hstate : s.state ≠ .completed) : s ∈ q.trim.jobs := by
  unfold trim
  generalize q.count .completed - REMOVE_ON_COMPLETE_COUNT = n
  exact mem_dropCompleted hs hstate

theorem Distinct.trim (hq : q.Distinct) : q.trim.Distinct := by
  have h := q.trim_sublist
  unfold Distinct at *
  exact hq.sublist (h.map _)

/-- The trimming drops completed jobs only. -/
theorem find_trim (hq : q.Distinct) (id : String) :
    q.trim.find id = q.find id ∨
      q.trim.find id = none ∧ ∃ s, q.find id = some s ∧ s.state = .completed := by
  cases hf : q.trim.find id with
  | some s =>
    obtain ⟨hm, rfl⟩ := find_some hf
    exact .inl (find_of_mem hq (q.trim_sublist.subset hm)).symm
  | none =>
    cases hf' : q.find id with
    | none => exact .inl rfl
    | some s =>
      refine .inr ⟨rfl, s, rfl, ?_⟩
      obtain ⟨hm, rfl⟩ := find_some hf'
      by_contra hne
      exact find_eq_none.1 hf s (mem_trim hm hne) rfl

theorem getRange_mem (hq : q.Distinct) {state : JobState} {start stop : ℕ}
    (h : id ∈ q.getRange state start stop) : ∃ s, q.find id = some s ∧ s.state = state := by
  obtain ⟨s, hs, rfl⟩ := List.mem_map.1 h
  have hm := List.mem_filter.1 (List.mem_of_mem_drop (List.mem_of_mem_take hs))
  exact ⟨s, find_of_mem hq hm.1, by simpa using hm.2⟩

/-- The jobs loaded by their ids are the jobs listed. -/
theorem map_getRange (hq : q.Distinct) (state : JobState) (start : ℕ) {count : ℕ}
    (hc : 0 < count) : (q.getRange state start (start + count - 1)).map q.getJob =
      (((q.jobs.filter (·.state = state)).drop start).take count).map fun s => some s.job := by
  unfold getRange
  rw [show start + count - 1 + 1 - start = count by omega, List.map_map]
  refine List.map_congr_left fun s hs => ?_
  have hm := (List.mem_filter.1 (List.mem_of_mem_drop (List.mem_of_mem_take hs))).1
  show q.getJob s.job.id = _
  unfold getJob
  rw [find_of_mem hq hm]
  rfl

theorem getRange_nodup (hq : q.Distinct) (state : JobState) (start stop : ℕ) :
    (q.getRange state start stop).Nodup :=
  hq.sublist ((List.take_sublist _ _).trans ((List.drop_sublist _ _).trans
    List.filter_sublist) |>.map _)

/-- `Job.remove` empties the slot of its id or is refused. -/
theorem remove_cases (q : JobQueue) (id : String) :
    (q.remove id).2 = q ∨ (∃ s, q.find id = some s ∧ s.lock = none) ∧
      q.remove id = (.ok (), q.erase id) := by
  unfold remove
  cases hf : q.find id with
  | none => exact .inl rfl
  | some s =>
    dsimp only
    split_ifs with hl
    · exact .inl rfl
    · exact .inr ⟨⟨s, rfl, by simpa using hl⟩, rfl⟩

/-! ## Deliveries and settlements -/

end JobQueue

/-- The same job in another state. -/
structure StoredJob.Continues (s s' : StoredJob) : Prop where
  id : s'.job.id = s.job.id
  name : s'.job.name = s.job.name
  data : s'.job.data = s.job.data
  attempts : s'.job.attempts = s.job.attempts
  seq : s'.job.seq = s.job.seq

theorem StoredJob.Continues.refl (s : StoredJob) : s.Continues s := ⟨rfl, rfl, rfl, rfl, rfl⟩

theorem StoredJob.Continues.trans {s t u : StoredJob} (h : s.Continues t) (h' : t.Continues u) :
    s.Continues u :=
  ⟨h'.id.trans h.id, h'.name.trans h.name, h'.data.trans h.data, h'.attempts.trans h.attempts,
    h'.seq.trans h.seq⟩

namespace JobQueue

theorem deliver_cases {q q' : JobQueue} {id : String} {token : ℕ} {job : Job}
    (h : q.deliver id token = some (job, q')) : ∃ s, q.find id = some s ∧ s.state = .waiting ∧
      job = s.job ∧ q' = q.move { s with state := .active, lock := some token } := by
  unfold deliver at h
  cases hf : q.find id with
  | none => rw [hf] at h; cases h
  | some s =>
    simp only [hf] at h
    split_ifs at h with hc
    obtain ⟨rfl, rfl⟩ := Prod.mk.inj (Option.some.inj h)
    rw [not_or, not_not] at hc
    exact ⟨s, rfl, hc.2, rfl, rfl⟩

theorem lockedBy_some {q : JobQueue} {id : String} {token : ℕ} {s : StoredJob}
    (h : q.lockedBy id token = some s) :
    q.find id = some s ∧ s.state = .active ∧ s.lock = some token := by
  unfold lockedBy at h
  rw [Option.filter_eq_some_iff] at h
  exact ⟨h.1, by simpa using h.2⟩

theorem complete_cases (q : JobQueue) (id : String) (token : ℕ) :
    q.complete id token = q ∨ ∃ s, q.find id = some s ∧ s.state = .active ∧
      s.lock = some token ∧
      q.complete id token = (q.move { s with state := .completed, lock := none }).trim := by
  unfold complete
  cases hl : q.lockedBy id token with
  | none => exact .inl rfl
  | some s =>
    obtain ⟨hf, ha, hlock⟩ := lockedBy_some hl
    exact .inr ⟨s, hf, ha, hlock, rfl⟩

theorem fail_cases (q : JobQueue) (id : String) (token : ℕ) (reason : String) :
    q.fail id token reason = q ∨ ∃ s s', q.find id = some s ∧ s.state = .active ∧
      s.Continues s' ∧ s'.state.isLive = true ∧ s'.lock = none ∧
      q.fail id token reason = q.move s' := by
  unfold fail
  cases hl : q.lockedBy id token with
  | none => exact .inl rfl
  | some s =>
    obtain ⟨hf, ha, -⟩ := lockedBy_some hl
    refine .inr ⟨s, ?_⟩
    dsimp only
    split_ifs
    · refine ⟨_, hf, ha, ?_, ?_, ?_, rfl⟩
      · exact ⟨rfl, rfl, rfl, rfl, rfl⟩
      · rfl
      · rfl
    · refine ⟨_, hf, ha, ?_, ?_, ?_, rfl⟩
      · exact ⟨rfl, rfl, rfl, rfl, rfl⟩
      · rfl
      · rfl

theorem stall_cases (q : JobQueue) (id : String) :
    q.stall id = q ∨ ∃ s s', q.find id = some s ∧ s.state = .active ∧ s.Continues s' ∧
      s'.state.isLive = true ∧ s'.lock = none ∧ q.stall id = q.move s' := by
  unfold stall
  cases hf : q.find id with
  | none => exact .inl rfl
  | some s =>
    dsimp only
    by_cases ha : s.state = .active
    · rw [if_neg (by simpa using ha)]
      refine .inr ⟨s, ?_⟩
      split_ifs
      · refine ⟨_, rfl, ha, ?_, ?_, ?_, rfl⟩
        · exact ⟨rfl, rfl, rfl, rfl, rfl⟩
        · rfl
        · rfl
      · refine ⟨_, rfl, ha, ?_, ?_, ?_, rfl⟩
        · exact ⟨rfl, rfl, rfl, rfl, rfl⟩
        · rfl
        · rfl
    · exact .inl (if_pos ha)

theorem promote_cases (q : JobQueue) (id : String) :
    q.promote id = q ∨ ∃ s, q.find id = some s ∧ s.state = .delayed ∧
      q.promote id = q.move { s with state := .waiting } := by
  unfold promote
  cases hf : q.find id with
  | none => exact .inl rfl
  | some s =>
    dsimp only
    by_cases hd : s.state = .delayed
    · exact .inr ⟨s, rfl, hd, if_neg (by simpa using hd)⟩
    · exact .inl (if_pos hd)

/-! ## What a step does to the slots -/

/-- Only an active job is locked. -/
def Locked (q : JobQueue) : Prop :=
  ∀ id s c, q.find id = some s → s.lock = some c → s.state = .active

/-- The slots of `q'` after a step on `q`: a stored job was there before or is `New`, a completed job
stays completed, `token` is the only lock that can be new, and a failed job stays as it is unless
its id is `Gone`. -/
structure Turn (q q' : JobQueue) (token : Option ℕ) (Gone : String → Prop)
    (New : StoredJob → Prop) : Prop where
  distinct : q'.Distinct
  seq : q.nextSeq ≤ q'.nextSeq
  origin : ∀ id s', q'.find id = some s' → (∃ s, q.find id = some s ∧ s.Continues s' ∧
    (s.state = .completed → s'.state = .completed) ∧
    ∀ c, s'.lock = some c → s'.state = .active ∧ (token = some c ∨ s.lock = some c)) ∨ New s'
  failed : ∀ id s, q.find id = some s → s.state = .failed → ¬ Gone id → q'.find id = some s

section Turn

variable {q q' : JobQueue} {token : Option ℕ} {Gone : String → Prop} {New : StoredJob → Prop}

theorem Locked.origin (hl : q.Locked) {id : String} {s : StoredJob} (hs : q.find id = some s) :
    ∃ t, q.find id = some t ∧ t.Continues s ∧ (t.state = .completed → s.state = .completed) ∧
      ∀ c, s.lock = some c → s.state = .active ∧ (token = some c ∨ t.lock = some c) :=
  ⟨s, hs, .refl s, fun h => h, fun c hc => ⟨hl id s c hs hc, .inr hc⟩⟩

theorem Turn.refl (hq : q.Distinct) (hl : q.Locked) : q.Turn q token Gone New where
  distinct := hq
  seq := le_rfl
  origin _ _ hs := .inl (hl.origin hs)
  failed _ _ hs _ _ := hs

/-- One job that is neither failed nor completed moves on. -/
theorem Turn.move (hq : q.Distinct) (hl : q.Locked) {s s' : StoredJob}
    (hs : q.find s.job.id = some s) (hc : s.Continues s') (hf : s.state ≠ .failed)
    (hd : s.state ≠ .completed)
    (hlock : ∀ c, s'.lock = some c → s'.state = .active ∧ (token = some c ∨ s.lock = some c)) :
    q.Turn (q.move s') token Gone New := by
  refine ⟨hq.move s', le_rfl, fun id t' ht' => .inl ?_, fun id t ht hstate _ => ?_⟩
  · rw [find_move] at ht'
    split_ifs at ht' with e
    · obtain rfl := Option.some.inj ht'
      exact ⟨s, by rw [e, hc.id]; exact hs, hc, fun h => absurd h hd, hlock⟩
    · exact hl.origin ht'
  · rw [find_move, if_neg]
    · exact ht
    · rintro rfl
      rw [hc.id, hs] at ht
      obtain rfl := Option.some.inj ht
      exact hf hstate

theorem Turn.deliver (hq : q.Distinct) (hl : q.Locked) {id : String} {token : ℕ} {job : Job}
    (h : q.deliver id token = some (job, q')) : q.Turn q' (some token) Gone New := by
  obtain ⟨s, hs, hw, -, rfl⟩ := deliver_cases h
  obtain ⟨-, rfl⟩ := find_some hs
  refine .move hq hl (s := s) hs ⟨rfl, rfl, rfl, rfl, rfl⟩ (by rw [hw]; decide)
    (by rw [hw]; decide) ?_
  rintro c ⟨⟩
  exact ⟨rfl, .inl rfl⟩

theorem Turn.complete (hq : q.Distinct) (hl : q.Locked) (id : String) (c : ℕ) :
    q.Turn (q.complete id c) token Gone New := by
  rcases q.complete_cases id c with e | ⟨s, hs, ha, -, e⟩
  · rw [e]; exact .refl hq hl
  obtain ⟨-, rfl⟩ := find_some hs
  have hm : q.Turn (q.move { s with state := .completed, lock := none }) token Gone New :=
    .move hq hl hs ⟨rfl, rfl, rfl, rfl, rfl⟩ (by rw [ha]; decide) (by rw [ha]; decide) (by simp)
  rw [e]
  -- the trimming only drops completed jobs
  refine ⟨hm.distinct.trim, hm.seq, fun id s' hs' => ?_, fun id t ht hf hg => ?_⟩
  · rcases find_trim hm.distinct id with e | ⟨e, -⟩
    · exact hm.origin id s' (e ▸ hs')
    · rw [e] at hs'; cases hs'
  · have hkept := hm.failed id t ht hf hg
    rcases find_trim hm.distinct id with e | ⟨-, t', ht', hd⟩
    · rw [e]; exact hkept
    · obtain rfl := Option.some.inj (hkept.symm.trans ht')
      rw [hf] at hd
      cases hd

theorem Turn.fail (hq : q.Distinct) (hl : q.Locked) (id : String) (c : ℕ) (reason : String) :
    q.Turn (q.fail id c reason) token Gone New := by
  rcases q.fail_cases id c reason with e | ⟨s, s', hs, ha, hc, -, hlock, e⟩
  · rw [e]; exact .refl hq hl
  · obtain ⟨-, rfl⟩ := find_some hs
    rw [e]
    exact .move hq hl hs hc (by rw [ha]; decide) (by rw [ha]; decide) (by simp [hlock])

theorem Turn.stall (hq : q.Distinct) (hl : q.Locked) (id : String) :
    q.Turn (q.stall id) token Gone New := by
  rcases q.stall_cases id with e | ⟨s, s', hs, ha, hc, -, hlock, e⟩
  · rw [e]; exact .refl hq hl
  · obtain ⟨-, rfl⟩ := find_some hs
    rw [e]
    exact .move hq hl hs hc (by rw [ha]; decide) (by rw [ha]; decide) (by simp [hlock])

theorem Turn.promote (hq : q.Distinct) (hl : q.Locked) (id : String) :
    q.Turn (q.promote id) token Gone New := by
  rcases q.promote_cases id with e | ⟨s, hs, hd, e⟩
  · rw [e]; exact .refl hq hl
  · obtain ⟨-, rfl⟩ := find_some hs
    rw [e]
    refine .move hq hl (s := s) hs ⟨rfl, rfl, rfl, rfl, rfl⟩ (by rw [hd]; decide)
      (by rw [hd]; decide) fun c hc => ?_
    -- a delayed job is not locked
    have ha := hl s.job.id s c hs hc
    rw [hd] at ha
    cases ha

theorem Turn.add (hq : q.Distinct) (hl : q.Locked) (id name : String) (data : JsValue)
    (attempts : ℕ)
    (hnew : q.find id = none → New ⟨q.newJob id name data attempts, .waiting, none⟩) :
    q.Turn (q.add id name data attempts) token Gone New := by
  refine ⟨hq.add id name data attempts, ?_, fun id' s' hs' => ?_, fun id' s hs hf _ => ?_⟩
  · unfold JobQueue.add
    split_ifs
    · exact le_rfl
    · exact Nat.le_succ _
  · rw [find_add] at hs'
    split_ifs at hs' with h
    · obtain rfl := Option.some.inj hs'
      exact .inr (hnew h.2)
    · exact .inl (hl.origin hs')
  · rw [find_add, if_neg]
    · exact hs
    · rintro ⟨rfl, hn⟩
      rw [hs] at hn
      cases hn

theorem Turn.remove (hq : q.Distinct) (hl : q.Locked) (id : String) :
    q.Turn (q.remove id).2 token (· = id) New := by
  rcases q.remove_cases id with e | ⟨-, e⟩
  · rw [e]; exact .refl hq hl
  · rw [e]
    refine ⟨hq.erase id, le_rfl, fun id' s' hs' => ?_, fun id' s hs _ hg => ?_⟩
    · rw [find_erase] at hs'
      split_ifs at hs'
      exact .inl (hl.origin hs')
    · rw [find_erase, if_neg hg]
      exact hs

theorem Turn.pause (hq : q.Distinct) (hl : q.Locked) (paused : Bool) :
    q.Turn { q with paused } token Gone New :=
  ⟨hq, le_rfl, fun _ _ hs => .inl (hl.origin hs), fun _ _ hs _ _ => hs⟩

end Turn

end JobQueue

end FlashSale
