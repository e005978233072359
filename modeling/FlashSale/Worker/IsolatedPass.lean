import FlashSale.Worker.Isolation
import FlashSale.Worker.PassScans
import FlashSale.Worker.SweepTurns

/-!
# Sale isolation of a pass

A pass of the sale `SALE_ID` run alone. `Isolated` says that the jobs and rows of other sales stay
out of its way; then the pass does the same to the data of the sale as if they were not there, it
restores identities only from rows and jobs of the sale, and it enqueues only reservations of the
sale.

The loop over the queue restores the identity of every live job without a look at its sale, so one
live job of another sale is enough to put a foreign reservation into the ledger (`strayPass`). The
conditions of `Isolated` are about the places where the pass does not look at the sale: that loop,
the slots of the users it looks for, the page of the sweep, and the rows a resolution reads.

1. `Pass` is what holds throughout: which jobs and ledger values are new, and whose rows are there.
2. Each call is blind to the other sales (`Unseen`) under `Pass`, with what it keeps of it.
3. The programs follow the structure of `runDiff`: scans, recovery, buyers, sweep.
-/

namespace FlashSale

/-! ## Sources -/

/-- The reservation stands in a row of the sale or in the payload of a job of the sale. -/
def Source (env : WorkerEnv) (s : Stores) (userId reservationId : String) : Prop :=
  (∃ row ∈ s.db.orders, row.saleId = env.SALE_ID ∧ row.userId = userId ∧ row.id = reservationId) ∨
    ∃ st ∈ s.queue.jobs, ∃ p, assertOrdersQueueJobPayload st.job.data = .ok p ∧
      p.saleId = env.SALE_ID ∧ p.userId = userId ∧ p.reservationId = reservationId

/-- The reservation is one of the sale. -/
def Known (env : WorkerEnv) (s : Stores) (userId reservationId : String) : Prop :=
  Listed env s userId reservationId ∨ Source env s userId reservationId

/-- An identity presented for restoration has a source, and an enqueued reservation is one of the
sale. -/
def Origin (env : WorkerEnv) (s : Stores) : Call → Prop
  | .compareRestore saleId u r _ => saleId = env.SALE_ID ∧ Source env s u r
  | .addJob id _ data _ => ∃ p, data = OrdersQueueJobPayload.toJs p ∧ p.saleId = env.SALE_ID ∧
      id = env.jobId p.userId ∧ Known env s p.userId p.reservationId
  | _ => True

/-! ## The condition -/

/-- A row of the sale has this order of the user in this status. -/
def Recorded (env : WorkerEnv) (s : Stores) (status : DurableOrderStatus)
    (userId reservationId : String) : Prop :=
  ∃ row ∈ s.db.orders, row.saleId = env.SALE_ID ∧ row.userId = userId ∧ row.status = status ∧
    row.id = reservationId

/-- The loop over the queue presents the payload of the job for restoration: the scan reports the
job, it is live, and no row of the sale has its reservation as compensated. -/
def Presents (env : WorkerEnv) (s : Stores) (st : StoredJob) (p : OrdersQueueJobPayload) : Prop :=
  st.verdict = .ok ⟨st.job, st.state, p⟩ ∧ st.state.isLive = true ∧
    ¬ Recorded env s .compensated p.userId p.reservationId

/-- The pass looks for the job of the user: for an entry that is not the order of a persisted row, or
for a user without an entry and without a persisted row, who is a buyer or has a job of the sale. -/
inductive LooksUp (env : WorkerEnv) (s : Stores) (userId : String) : Prop
  | entry {value : String}
      (hentry : (s.sales env.SALE_ID).reservations.hget userId = some value)
      (hrow : ¬ Recorded env s .persisted userId (ledgerIdentity value))
  | noEntry (hnone : (s.sales env.SALE_ID).reservations.hget userId = none)
      (hrow : ∀ r, ¬ Recorded env s .persisted userId r)
      (hseen : (s.sales env.SALE_ID).buyers.sismember userId = true ∨ ∃ st ∈ s.queue.jobs, ∃ p,
        Presents env s st p ∧ p.saleId = env.SALE_ID ∧ p.userId = userId)

/-- A sweep resolves the failed job: it is well formed and its attempts are used up. -/
def Job.terminallyEligible (job : Job) : Bool :=
  (classifyQueueEntry job .failed).isOk && job.exhausted

/-- The payload of a failed job of the sale that a sweep resolves. -/
def FailedPayload (env : WorkerEnv) (s : Stores) (p : OrdersQueueJobPayload) : Prop :=
  p.saleId = env.SALE_ID ∧ ∃ st ∈ s.queue.jobs, st.state = .failed ∧
    st.job.terminallyEligible = true ∧ assertOrdersQueueJobPayload st.job.data = .ok p

/-- **The condition.** No job of another sale is presented for restoration, is failed and resolved by
a sweep, or is stored under the id of a user the pass looks for; failed jobs of other sales do not push
a job of the sale that a sweep resolves off its page; and no row of another sale is that of the user of
such a job, or has the id under which its marker is written. -/
structure Isolated (env : WorkerEnv) (s : Stores) : Prop where
  recovery : ∀ st ∈ s.queue.jobs, st.job.ofSale env.SALE_ID = false → ∀ p, ¬ Presents env s st p
  sweep : ∀ st ∈ s.queue.jobs, st.job.ofSale env.SALE_ID = false → st.state = .failed →
    st.job.terminallyEligible = false
  page : (∀ st ∈ s.failed, st.job.ofSale env.SALE_ID = true) ∨
    ∀ st ∈ s.failed, st.job.ofSale env.SALE_ID = true →
      st.job.terminallyEligible = true →
      s.failedScanOffset = 0 ∧ st ∈ s.failed.take env.WORKER_DLQ_SCAN_COUNT
  ids : ∀ st ∈ s.queue.jobs, st.job.ofSale env.SALE_ID = false →
    ∀ u, isUserId u = true → LooksUp env s u → st.job.id ≠ env.jobId u
  users : ∀ p, FailedPayload env s p → s.db.OwnsUser env.SALE_ID p.userId
  markers : ∀ p, FailedPayload env s p → (∃ r, Recorded env s .persisted p.userId r) ∨
    s.db.OwnsId env.SALE_ID (pgUuid p.reservationId)

/-- The stores a pass starts from: every job has its own id, the tables keep their constraints, the
connection of the pass has no transaction open, and `fuel` is enough for the jobs of the queue. -/
structure Ready (fuel : ℕ) (s : Stores) : Prop where
  distinct : s.queue.Distinct
  tables : s.db.WF
  sorted : s.db.Sorted
  idle : s.db.tx? 0 = none
  fuel : s.queue.jobs.length < fuel

/-! ## The invariant of a pass -/

/-- A job that the pass has added. -/
def Added (env : WorkerEnv) (s₀ : Stores) (st : StoredJob) : Prop :=
  st.state = .waiting ∧ ∃ p, classifyQueueEntry st.job .waiting = .ok ⟨st.job, .waiting, p⟩ ∧
    p.saleId = env.SALE_ID ∧ Known env s₀ p.userId p.reservationId

/-- What holds throughout a pass from `s₀`. -/
structure Pass (env : WorkerEnv) (s₀ s : Stores) : Prop where
  jobs : ∀ st ∈ s.queue.jobs, st ∈ s₀.queue.jobs ∨ Added env s₀ st
  distinct : s.queue.Distinct
  failed : s.failed.Sublist s₀.failed
  ledger : ∀ u v, (s.sales env.SALE_ID).reservations.hget u = some v →
    (s₀.sales env.SALE_ID).reservations.hget u = some v ∨ Source env s₀ u (ledgerIdentity v)
  evolves : s₀.db.Evolves s.db
  rows : ∀ row ∈ s.db.orders, row.saleId ≠ env.SALE_ID → row ∈ s₀.db.orders
  tables : s.db.WF
  sorted : s.db.Sorted
  pending : ∀ w, s.db.pending 0 = some w → s.db.Owned env.SALE_ID w

/-- An entry with this identity is accounted for: it is the order of a persisted row, or the pass
looks for the job of its user. -/
def Accounted (env : WorkerEnv) (s₀ : Stores) (userId reservationId : String) : Prop :=
  Recorded env s₀ .persisted userId reservationId ∨ LooksUp env s₀ userId

/-- Until the sweep the rows are those of the start, every entry is accounted for, and the users of
`D` have one. -/
structure Recovering (env : WorkerEnv) (s₀ : Stores) (D : String → Prop) (s : Stores) : Prop where
  pass : Pass env s₀ s
  db : s.db = s₀.db
  offset : s.failedScanOffset = s₀.failedScanOffset
  accounted : ∀ u v, (s.sales env.SALE_ID).reservations.hget u = some v →
    Accounted env s₀ u (ledgerIdentity v)
  buyers : ∀ u, (s.sales env.SALE_ID).buyers.sismember u = true →
    (s₀.sales env.SALE_ID).buyers.sismember u = true ∨
      (s.sales env.SALE_ID).reservations.hexists u = true
  kept : ∀ u, D u → (s.sales env.SALE_ID).reservations.hexists u = true

section

variable {env : WorkerEnv} {fuel : ℕ} {D E : String → Prop} {s₀ s : Stores}

theorem Ready.pass (h : Ready fuel s) : Pass env s s where
  jobs _ hst := .inl hst
  distinct := h.distinct
  failed := .refl _
  ledger _ _ hv := .inl hv
  evolves := .refl _
  rows _ hrow _ := hrow
  tables := h.tables
  sorted := h.sorted
  pending w hw := by
    unfold Db.pending at hw
    rw [h.idle] at hw
    cases hw

theorem Ready.recovering (h : Ready fuel s) :
    Recovering env s (fun u => (s.sales env.SALE_ID).reservations.hexists u = true) s where
  pass := h.pass
  db := rfl
  offset := rfl
  accounted u v hv := by
    by_cases hrow : Recorded env s .persisted u (ledgerIdentity v)
    · exact .inl hrow
    · exact .inr (.entry hv hrow)
  buyers _ hu := .inl hu
  kept _ hu := hu

theorem Recovering.mono (h : Recovering env s₀ D s) (hE : ∀ u, E u → D u) :
    Recovering env s₀ E s :=
  ⟨h.pass, h.db, h.offset, h.accounted, h.buyers, fun u hu => h.kept u (hE u hu)⟩

/-- A user had one row at most when the pass began. -/
theorem Recovering.rowsNodup (h : Recovering env s₀ D s) :
    (s₀.db.orders.map (·.userId)).Nodup := by
  rw [← h.db]
  exact h.pass.tables.users

/-- A ledger value of the pass is one of the sale. -/
theorem Pass.known (h : Pass env s₀ s) {u v : String}
    (hv : (s.sales env.SALE_ID).reservations.hget u = some v) : Known env s₀ u (ledgerIdentity v) := by
  rcases h.ledger u v hv with hv | hv
  · exact .inl ⟨v, hv, rfl⟩
  · exact .inr hv

/-- A job of another sale was there from the start. -/
theorem Pass.foreign (h : Pass env s₀ s) {st : StoredJob} (hst : st ∈ s.queue.jobs)
    (hs : st.job.ofSale env.SALE_ID = false) : st ∈ s₀.queue.jobs := by
  rcases h.jobs st hst with hst | ⟨-, p, hp, hsale, -⟩
  · exact hst
  · have hown : st.job.ofSale env.SALE_ID = true :=
      Job.ofSale_iff.2 ⟨p, (classifyQueueEntry_ok hp).2.1, hsale⟩
    rw [hs] at hown
    cases hown

theorem Pass.owns (h : Pass env s₀ s) (hi : Isolated env s₀) {u : String} (hu : isUserId u = true)
    (hl : LooksUp env s₀ u) : s.queue.Owns env.SALE_ID (env.jobId u) := by
  intro st hst hid
  by_contra hs
  have hs := Bool.eq_false_of_not_eq_true hs
  exact hi.ids st (h.foreign hst hs) hs u hu hl hid

/-- A job of the sale keeps its slot from the jobs of other sales. -/
theorem Pass.owns_stored (h : Pass env s₀ s) (hd : s₀.queue.Distinct) {st : StoredJob}
    (hst : st ∈ s₀.queue.jobs) (hs : st.job.ofSale env.SALE_ID = true) :
    s.queue.Owns env.SALE_ID st.job.id := by
  intro st' hst' hid
  by_contra hs'
  have hold := h.foreign hst' (Bool.eq_false_of_not_eq_true hs')
  have hsame : st' = st := List.inj_on_of_nodup_map hd hold hst hid
  exact hs' (hsame ▸ hs)

theorem Pass.ownsUser (h : Pass env s₀ s) {u : String} (hown : s₀.db.OwnsUser env.SALE_ID u) :
    s.db.OwnsUser env.SALE_ID u := by
  intro row hrow hu
  by_contra hs
  exact hs (hown row (h.rows row hrow hs) hu)

theorem Pass.ownsId (h : Pass env s₀ s) {id : String} (hown : s₀.db.OwnsId env.SALE_ID id) :
    s.db.OwnsId env.SALE_ID id := by
  intro row hrow hid
  by_contra hs
  exact hs (hown row (h.rows row hrow hs) hid)

end

/-! ## Calls -/

/-- A program of a pass from `s₀` that does not see the other sales, keeps `I` and returns values in
`P`. -/
abbrev Unseen (env : WorkerEnv) (s₀ : Stores) (I : Stores → Prop) {α : Type} (p : WorkerM α)
    (P : α → Prop) (s : Stores) : Prop :=
  Prog.Yields Stores.answer (Stores.only env.SALE_ID) (Origin env s₀) I p P s

namespace Stores

variable {s : Stores} {saleId : String}

theorem sales_only : (s.only saleId).sales saleId = s.sales saleId := if_pos rfl

theorem setSale_only (sale : Sale) :
    (s.only saleId).setSale saleId sale = (s.setSale saleId sale).only saleId := by
  unfold setSale only
  dsimp only
  congr 1
  funext id
  by_cases h : id = saleId
  · subst h; simp
  · simp [h]

end Stores

section

variable {env : WorkerEnv} {fuel : ℕ} {D : String → Prop} {s₀ s : Stores} {I : Stores → Prop}

/-- A call that reads data of the sale only. -/
theorem unseen_read {o : Call} {a : o.Res} {P : o.Res → Prop} (hG : Origin env s₀ o)
    (h : Stores.answer o s = some (.ok a, s))
    (h' : Stores.answer o (s.only env.SALE_ID) = some (.ok a, s.only env.SALE_ID)) (ha : P a) :
    Unseen env s₀ (· = s) (request o) P s := by
  refine .call hG (by rw [h, h']; rfl) fun r s' hr => ?_
  obtain ⟨rfl, rfl⟩ := Prod.mk.inj (Option.some.inj (h.symm.trans hr))
  refine ⟨rfl, fun b hb => ?_⟩
  obtain rfl := Except.ok.inj hb
  exact ha

/-- A script on the keys of the sale. -/
theorem unseen_script {o : Call} {f : Sale → o.Res × Sale} {P : o.Res → Prop}
    (hG : Origin env s₀ o)
    (h : ∀ s : Stores, Stores.answer o s = s.script env.SALE_ID (f (s.sales env.SALE_ID)))
    (hI : I (s.setSale env.SALE_ID (f (s.sales env.SALE_ID)).2))
    (hP : P (f (s.sales env.SALE_ID)).1) : Unseen env s₀ I (request o) P s := by
  refine .call hG ?_ fun r s' hr => ?_
  · rw [h, h, Stores.sales_only]
    unfold Stores.script
    rw [Stores.setSale_only]
    rfl
  · rw [h] at hr
    obtain ⟨rfl, rfl⟩ := Prod.mk.inj (Option.some.inj hr)
    refine ⟨hI, fun b hb => ?_⟩
    obtain rfl := Except.ok.inj hb
    exact hP

theorem unseen_getJob {id : String} (hown : s.queue.Owns env.SALE_ID id)
    {P : Option Job → Prop} (hP : P (s.queue.getJob id)) :
    Unseen env s₀ (· = s) (request (.getJob id)) P s := by
  refine unseen_read (a := s.queue.getJob id) trivial rfl ?_ hP
  show some (Except.ok ((s.queue.only env.SALE_ID).getJob id), _) = _
  unfold JobQueue.getJob
  rw [JobQueue.find_only hown]

theorem unseen_getState {id : String} (hown : s.queue.Owns env.SALE_ID id)
    {P : JobState → Prop} (hP : P (s.queue.getState id)) :
    Unseen env s₀ (· = s) (request (.getState id)) P s := by
  refine unseen_read (a := s.queue.getState id) trivial rfl ?_ hP
  show some (Except.ok ((s.queue.only env.SALE_ID).getState id), _) = _
  unfold JobQueue.getState
  rw [JobQueue.find_only hown]

theorem unseen_addJob {p : OrdersQueueJobPayload} {jobId name : String} {attempts : ℕ}
    (hown : s.queue.Owns env.SALE_ID jobId) (hid : jobId = env.jobId p.userId)
    (hp : assertOrdersQueueJobPayload p.toJs = .ok p) (hsale : p.saleId = env.SALE_ID)
    (hknown : Known env s₀ p.userId p.reservationId)
    (hI : I { s with queue := s.queue.add jobId name p.toJs attempts }) :
    Unseen env s₀ I (request (.addJob jobId name p.toJs attempts)) (fun _ => True) s := by
  have hnew : (s.queue.newJob jobId name p.toJs attempts).ofSale env.SALE_ID = true :=
    Job.ofSale_iff.2 ⟨p, hp, hsale⟩
  refine .call ⟨p, rfl, hsale, hid, hknown⟩ ?_ fun r s' hr => ?_
  · show some (_, ({ s.only env.SALE_ID with
      queue := (s.queue.only env.SALE_ID).add jobId name p.toJs attempts } : Stores)) = _
    rw [← JobQueue.add_only hown hnew]
    rfl
  · obtain ⟨rfl, rfl⟩ := Prod.mk.inj (Option.some.inj hr)
    exact ⟨hI, fun _ _ => trivial⟩

theorem unseen_removeJob {job : Job} (hown : s.queue.Owns env.SALE_ID job.id)
    (hI : I { s with queue := (s.queue.remove job.id).2 }) :
    Unseen env s₀ I (request (.removeJob job)) (fun _ => True) s := by
  refine .call trivial ?_ fun r s' hr => ?_
  · show some (((s.queue.only env.SALE_ID).remove job.id).1, ({ s.only env.SALE_ID with
      queue := ((s.queue.only env.SALE_ID).remove job.id).2 } : Stores)) = _
    rw [JobQueue.remove_only hown]
    rfl
  · obtain ⟨rfl, rfl⟩ := Prod.mk.inj (Option.some.inj hr)
    exact ⟨hI, fun _ _ => trivial⟩

/-! ## What calls keep -/

theorem Pass.setSale (h : Pass env s₀ s) {sale : Sale}
    (hl : ∀ u v, sale.reservations.hget u = some v →
      (s.sales env.SALE_ID).reservations.hget u = some v ∨ Source env s₀ u (ledgerIdentity v)) :
    Pass env s₀ (s.setSale env.SALE_ID sale) := by
  refine ⟨h.jobs, h.distinct, h.failed, fun u v hv => ?_, h.evolves, h.rows, h.tables, h.sorted,
    h.pending⟩
  have hv' : sale.reservations.hget u = some v := by simpa [Stores.setSale] using hv
  rcases hl u v hv' with hv | hv
  · exact h.ledger u v hv
  · exact .inr hv

theorem Recovering.setSale (h : Recovering env s₀ D s) {sale : Sale}
    (hl : ∀ u v, sale.reservations.hget u = some v →
      (s.sales env.SALE_ID).reservations.hget u = some v ∨
        Source env s₀ u (ledgerIdentity v) ∧ Accounted env s₀ u (ledgerIdentity v))
    (hk : ∀ u, (s.sales env.SALE_ID).reservations.hexists u = true →
      sale.reservations.hexists u = true)
    (hb : ∀ u, sale.buyers.sismember u = true →
      (s.sales env.SALE_ID).buyers.sismember u = true ∨ sale.reservations.hexists u = true) :
    Recovering env s₀ D (s.setSale env.SALE_ID sale) := by
  have hsale : (s.setSale env.SALE_ID sale).sales env.SALE_ID = sale := by simp [Stores.setSale]
  refine ⟨h.pass.setSale fun u v hv => (hl u v hv).imp_right And.left, h.db, h.offset,
    fun u v hv => ?_, fun u hu => ?_, fun u hu => ?_⟩
  · rw [hsale] at hv
    rcases hl u v hv with hv | ⟨-, hacc⟩
    · exact h.accounted u v hv
    · exact hacc
  · rw [hsale] at hu ⊢
    rcases hb u hu with hu | hu
    · exact (h.buyers u hu).imp_right (hk u)
    · exact .inr hu
  · rw [hsale]
    exact hk u (h.kept u hu)

/-- A script that leaves the ledger alone. -/
theorem Recovering.sameLedger (h : Recovering env s₀ D s) {sale : Sale}
    (hl : sale.reservations = (s.sales env.SALE_ID).reservations)
    (hb : ∀ u, sale.buyers.sismember u = true →
      (s.sales env.SALE_ID).buyers.sismember u = true ∨
        (s.sales env.SALE_ID).reservations.hexists u = true) :
    Recovering env s₀ D (s.setSale env.SALE_ID sale) :=
  h.setSale (fun _ _ hv => .inl (hl ▸ hv)) (fun _ hu => hl ▸ hu) fun u hu => hl ▸ hb u hu

/-- A user who has an entry joins `D`. -/
theorem Recovering.enter (h : Recovering env s₀ D s) {u : String}
    (hu : (s.sales env.SALE_ID).reservations.hexists u = true) :
    Recovering env s₀ (fun v => D v ∨ v = u) s := by
  refine ⟨h.pass, h.db, h.offset, h.accounted, h.buyers, fun v hv => ?_⟩
  rcases hv with hv | rfl
  · exact h.kept v hv
  · exact hu

theorem Pass.queue (h : Pass env s₀ s) {q : JobQueue} (hd : q.Distinct)
    (hq : ∀ st ∈ q.jobs, st ∈ s.queue.jobs ∨ Added env s₀ st)
    (hf : (q.jobs.filter (·.state = .failed)).Sublist s.failed) :
    Pass env s₀ { s with queue := q } := by
  refine ⟨fun st hst => ?_, hd, hf.trans h.failed, h.ledger, h.evolves, h.rows, h.tables, h.sorted,
    h.pending⟩
  rcases hq st hst with hst | hst
  · exact h.jobs st hst
  · exact .inr hst

theorem Pass.add (h : Pass env s₀ s) {id name : String} {data : JsValue} {attempts : ℕ}
    (hnew : Added env s₀ ⟨s.queue.newJob id name data attempts, .waiting, none⟩) :
    Pass env s₀ { s with queue := s.queue.add id name data attempts } := by
  refine h.queue (h.distinct.add id name data attempts) (fun st hst => ?_) ?_
  · unfold JobQueue.add at hst
    split_ifs at hst
    · exact .inl hst
    · rcases List.mem_append.1 hst with hst | hst
      · exact .inl hst
      · obtain rfl := List.mem_singleton.1 hst
        exact .inr hnew
  · unfold JobQueue.add
    split_ifs
    · exact .refl _
    · rw [List.filter_append, List.filter_cons_of_neg (by simp), List.filter_nil, List.append_nil]
      exact .refl _

theorem Pass.remove (h : Pass env s₀ s) (id : String) :
    Pass env s₀ { s with queue := (s.queue.remove id).2 } := by
  rcases s.queue.remove_cases id with e | ⟨-, e⟩
  · rw [e]; exact h
  · rw [e]
    refine h.queue (h.distinct.erase id) (fun st hst => .inl (List.mem_filter.1 hst).1) ?_
    exact List.filter_sublist.filter _

theorem Recovering.queue (h : Recovering env s₀ D s) {q : JobQueue}
    (hq : Pass env s₀ { s with queue := q }) : Recovering env s₀ D { s with queue := q } :=
  ⟨hq, h.db, h.offset, h.accounted, h.buyers, h.kept⟩

/-! ## Queue repair -/

/-- The job stood in the queue at some time of the pass. -/
def JobFrom (env : WorkerEnv) (s₀ : Stores) (job : Job) : Prop :=
  ∃ st : StoredJob, (st ∈ s₀.queue.jobs ∨ Added env s₀ st) ∧ st.job = job

theorem Pass.jobFrom (h : Pass env s₀ s) {id : String} {job : Job}
    (hj : s.queue.getJob id = some job) : job.id = id ∧ JobFrom env s₀ job := by
  unfold JobQueue.getJob at hj
  obtain ⟨st, hst, rfl⟩ := Option.map_eq_some_iff.1 hj
  obtain ⟨hm, hid⟩ := JobQueue.find_some hst
  exact ⟨hid, st, h.jobs st hm, rfl⟩

/-- The reservation in a job of the sale is one of the sale. -/
theorem JobFrom.known {job : Job} (h : JobFrom env s₀ job) {state : JobState} {sj : ScannedJob}
    (hsj : classifyQueueEntry job state = .ok sj) (hs : sj.payload.saleId = env.SALE_ID) :
    Known env s₀ sj.payload.userId sj.payload.reservationId := by
  obtain ⟨-, hdata, -⟩ := classifyQueueEntry_ok hsj
  obtain ⟨st, hst | ⟨-, p, hp, -, hknown⟩, rfl⟩ := h
  · exact .inr (.inr ⟨st, hst, _, hdata, hs, rfl, rfl⟩)
  · have hdata' := (classifyQueueEntry_ok hp).2.1
    rw [hdata] at hdata'
    obtain rfl := Except.ok.inj hdata'
    exact hknown

section Repair

variable (hi : Isolated env s₀)

include hi

theorem unseen_enqueueLiveReservation {live : ReservationEntry} {jobId : String}
    (hid : buildOrdersJobId env.SALE_ID live.userId = .ok jobId)
    (hl : LooksUp env s₀ live.userId)
    (hlive : Known env s₀ live.userId live.reservationId) (h : Recovering env s₀ D s) :
    Unseen env s₀ (Recovering env s₀ D) (enqueueLiveReservation env live jobId) (fun _ => True) s := by
  obtain ⟨hu, hjobId⟩ := buildOrdersJobId_ok hid
  unfold enqueueLiveReservation
  cases hp : assertOrdersQueueJobPayload (repairPayload env live).toJs with
  | error e => exact .throw h
  | ok p =>
    obtain ⟨rfl, hclass⟩ := classify_repair hp hid s.queue
    have hown : s.queue.Owns env.SALE_ID jobId := by
      rw [hjobId]
      exact h.pass.owns hi hu hl
    show Unseen env s₀ _ ((request (.addJob jobId PERSIST_ORDER_JOB_NAME
      (repairPayload env live).toJs ORDERS_JOB_ATTEMPTS)).bind _) _ s
    refine .bind (unseen_addJob (p := repairPayload env live) hown hjobId hp rfl hlive
      (h.queue (h.pass.add ⟨rfl, _, hclass, rfl, hlive⟩))) fun job t ht _ => ?_
    cases classifyQueueEntry job .waiting with
    | error e => exact .pure ht trivial
    | ok sj => exact .pure ht trivial

theorem unseen_enqueueAfterRemoval {live : ReservationEntry} {jobId : String}
    (hid : buildOrdersJobId env.SALE_ID live.userId = .ok jobId)
    (hl : LooksUp env s₀ live.userId)
    (hlive : Known env s₀ live.userId live.reservationId) (h : Recovering env s₀ D s) :
    Unseen env s₀ (Recovering env s₀ D) (enqueueAfterRemoval env live jobId) (fun _ => True) s := by
  obtain ⟨hu, hjobId⟩ := buildOrdersJobId_ok hid
  have hown : s.queue.Owns env.SALE_ID jobId := by
    rw [hjobId]
    exact h.pass.owns hi hu hl
  unfold enqueueAfterRemoval
  refine .bind_read (unseen_getJob hown (P := fun r => ∀ job, r = some job → job.id = jobId)
    fun job hj => (h.pass.jobFrom hj).1) h fun found hfound => ?_
  cases found with
  | none => exact unseen_enqueueLiveReservation hi hid hl hlive h
  | some raced =>
    rw [← hfound raced rfl] at hown
    refine .bind_read (unseen_getState hown (P := fun _ => True) trivial) h fun state _ => ?_
    cases classifyQueueEntry raced state with
    | error e => exact .pure h trivial
    | ok sj => exact .pure h trivial

/-- A removal and the second chance of the live reservation. -/
theorem unseen_replace {live : ReservationEntry} {jobId : String} {job : Job}
    {targetedJob : Option (Option Job)}
    (hid : buildOrdersJobId env.SALE_ID live.userId = .ok jobId) (hjob : job.id = jobId)
    (hl : LooksUp env s₀ live.userId)
    (hlive : Known env s₀ live.userId live.reservationId) (h : Recovering env s₀ D s) :
    Unseen env s₀ (Recovering env s₀ D)
      ((request (.removeJob job)).bind fun _ => enqueueAgain env live jobId targetedJob)
      (fun _ => True) s := by
  obtain ⟨hu, hjobId⟩ := buildOrdersJobId_ok hid
  have hown : s.queue.Owns env.SALE_ID job.id := by
    rw [hjob, hjobId]
    exact h.pass.owns hi hu hl
  refine .bind (unseen_removeJob hown (h.queue (h.pass.remove job.id))) fun _ t ht _ => ?_
  unfold enqueueAgain
  split_ifs
  · exact unseen_enqueueAfterRemoval hi hid hl hlive ht
  · exact unseen_enqueueLiveReservation hi hid hl hlive ht

/-- A targeted job is the one of the user. -/
def Targets (env : WorkerEnv) (userId : String) (targetedJob : Option (Option Job)) : Prop :=
  ∀ job, targetedJob = some (some job) → job.id = env.jobId userId

theorem unseen_ensureLiveReservationQueued {live : ReservationEntry}
    {durable : Option DurableOrder} {targetedJob : Option (Option Job)}
    (ht : Targets env live.userId targetedJob)
    (hl : LooksUp env s₀ live.userId)
    (hlive : Known env s₀ live.userId live.reservationId) (h : Recovering env s₀ D s) :
    Unseen env s₀ (Recovering env s₀ D) (ensureLiveReservationQueued env live durable targetedJob)
      (fun _ => True) s := by
  unfold ensureLiveReservationQueued
  cases hid : buildOrdersJobId env.SALE_ID live.userId with
  | error e => exact .throw h
  | ok jobId =>
    obtain ⟨hu, hjobId⟩ := buildOrdersJobId_ok hid
    have hown : s.queue.Owns env.SALE_ID jobId := by
      rw [hjobId]
      exact h.pass.owns hi hu hl
    have hlookup : Unseen env s₀ (· = s) (lookupJob jobId targetedJob)
        (fun r => ∀ job, r = some job → job.id = jobId) s := by
      cases targetedJob with
      | none => exact unseen_getJob hown fun job hj => (h.pass.jobFrom hj).1
      | some job =>
        refine .pure rfl fun job' e => ?_
        rw [hjobId]
        exact ht job' (by rw [e])
    show Unseen env s₀ _ ((lookupJob jobId targetedJob).bind _) _ s
    refine .bind_read hlookup h fun found hfound => ?_
    cases found with
    | none => exact unseen_enqueueLiveReservation hi hid hl hlive h
    | some current =>
      have hcurrent := hfound current rfl
      rw [← hcurrent] at hown
      refine .bind_read (unseen_getState hown (P := fun _ => True) trivial) h fun state _ => ?_
      cases classifyQueueEntry current state with
      | error e => exact .pure h trivial
      | ok sj =>
        show Unseen env s₀ _ (adjudicateQueued env live durable targetedJob jobId current sj) _ s
        unfold adjudicateQueued
        dsimp only
        split_ifs
        · exact .pure h trivial
        · exact .pure h trivial
        · exact .pure h trivial
        · exact unseen_replace hi hid hcurrent hl hlive h
        · exact .pure h trivial
        · exact unseen_replace hi hid hcurrent hl hlive h

end Repair

end

end FlashSale
