import FlashSale.Worker.ColdInvariant
import FlashSale.Worker.Redelivery

/-!
# A whole order

What the system does with one order while nothing else moves: a confirmed purchase, its add, the
delivery of its job, the calls of the attempt and the settlement. `Resting.order` says that the
order goes through, and what it leaves: the row, the entry, one unit less and a completed job.
-/

namespace FlashSale

open Redis
open Shared

/-! ## An attempt on its own -/

namespace System

variable {env : WorkerEnv} {w : System} {c : ℕ}

theorem run_append (w : System) (es es' : List Event) :
    w.run env (es ++ es') = (w.run env es).run env es' := List.foldl_append

theorem setAttempt_setAttempt (w : System) (c : ℕ) (a b : Attempt) :
    (w.setAttempt c a).setAttempt c b = w.setAttempt c b := by
  unfold setAttempt
  dsimp only
  rw [Function.update_idem]

theorem setAttempt_self {a : Attempt} (h : w.attempts c = some a) : w.setAttempt c a = w := by
  unfold setAttempt
  rw [← h, Function.update_eq_self]

/-- A call of an attempt leaves the history alone. -/
theorem note_of_attemptPre {s : Shared} {o : Call} (hc : c ≠ 0) (h : AttemptPre env c o s) :
    s.note o = s := by
  cases o <;> try exact h.elim
  case hget sid u => rfl
  case sql d stm =>
    obtain ⟨rfl, -⟩ := h
    obtain ⟨release, e, ⟨⟨h0, -⟩, -⟩ | ⟨-, hr⟩⟩ := s.note_sql d stm
    · exact absurd h0 hc
    · rw [e, hr]

/-- The steps of an attempt that nobody interrupts are the run of its program. -/
theorem Ok.run_attempt (h : w.Ok env False) {job : Job} {m : WorkerM Unit}
    (ha : w.attempts c = some ⟨job, m⟩) {r : Except Failure Unit} {t : Stores}
    (hrun : m.run Stores.answer w.stores = some (r, t)) :
    ∃ n, w.run env (List.replicate n (.attemptStep c .none)) =
      (w.onShared { w.toShared with stores := t }).setAttempt c ⟨job, .ofExcept r⟩ := by
  induction m generalizing w with
  | pure a =>
    obtain ⟨rfl, rfl⟩ := Prod.mk.inj (Option.some.inj hrun)
    exact ⟨0, (setAttempt_self ha).symm⟩
  | throw e =>
    obtain ⟨rfl, rfl⟩ := Prod.mk.inj (Option.some.inj hrun)
    exact ⟨0, (setAttempt_self ha).symm⟩
  | op o k ih =>
    rw [Prog.run] at hrun
    cases hp : w.stores.perform o with
    | none =>
      rw [Stores.answer, hp] at hrun
      cases hrun
    | some q =>
      obtain ⟨r', t'⟩ := q
      rw [Stores.answer, hp] at hrun
      obtain ⟨p, hattempt⟩ := h.attempts c _ ha
      obtain ⟨hpre, -⟩ := hattempt.rest w.toShared (.refl env c p _)
        ⟨h.inv, hattempt.good.payload⟩
      have hcall : w.call .none o = some (r', { w.toShared with stores := t' }) := by
        show (w.stores.perform o).map _ = _
        rw [hp]
        show some (r', { w.toShared.note o with stores := t' }) = _
        rw [note_of_attemptPre hattempt.client hpre]
      have hstep : w.step env (.attemptStep c .none) =
          (w.onShared { w.toShared with stores := t' }).setAttempt c ⟨job, k r'⟩ := by
        rw [System.step, ha]
        dsimp only
        rw [hcall]
      obtain ⟨n, hn⟩ := ih r' (h.attemptStep ha hcall) (Function.update_self ..) hrun
      refine ⟨n + 1, ?_⟩
      show (w.step env (.attemptStep c .none)).run env (List.replicate n _) = _
      rw [hstep, hn]
      exact setAttempt_setAttempt (w.onShared { w.toShared with stores := t }) c _ _

end System

/-- The first delivery of an order runs without a fault. -/
theorem run_process_new {env : WorkerEnv} {confirmed : List Confirmation} {s : Stores} {job : Job}
    {p : OrdersQueueJobPayload} (hjob : GoodJob env confirmed job p) (h : s.db.txs = ∅)
    (hrow : s.db.row? p.userId = none) (hid : s.db.idTaken (p.toRow .persisted) = false)
    (hsale : s.db.saleExists p.saleId = true) (c : ℕ) :
    (process c job).run Stores.answer s =
      some (.ok (), { s with db := s.db.apply (.insert (p.toRow .persisted)) }) := by
  have hjobId : buildOrdersJobId p.saleId p.userId = .ok job.id := by
    unfold buildOrdersJobId assertSaleId assertUserId
    rw [if_pos hjob.payload.valid.saleId, if_pos hjob.payload.valid.userId, hjob.payload.sale,
      hjob.id]
    rfl
  unfold process Prog.throwIf
  rw [if_neg (not_not.2 hjob.name), hjob.data,
    assertOrdersQueueJobPayload_toJs hjob.payload.valid]
  show (Prog.bind (Prog.ofExcept (buildOrdersJobId p.saleId p.userId)) _).run _ s = _
  rw [hjobId]
  show (Prog.bind (if job.id ≠ job.id then _ else _) _).run _ s = _
  rw [if_neg (not_not.2 rfl), if_neg (not_not.2 hjob.attempts)]
  exact Prog.run_bind_of_ok
    (run_persist_new h hjob.payload.valid.rowAllowed hrow hid hsale c) _

/-! ## A whole order -/

namespace JobQueue

variable {q : JobQueue} {t t' : StoredJob} {id : String}

theorem trim_paused (q : JobQueue) : q.trim.paused = q.paused := by
  unfold trim
  generalize dropCompleted _ _ = jobs
  rfl

theorem dropCompleted_all {jobs : List StoredJob} (h : ∀ t ∈ jobs, t.state = .completed) (n : ℕ) :
    dropCompleted n jobs = jobs.drop n := by
  induction jobs generalizing n with
  | nil => cases n <;> rfl
  | cons t jobs ih =>
    cases n with
    | zero => rfl
    | succ n =>
      rw [dropCompleted, if_pos (h t List.mem_cons_self), List.drop_succ_cons]
      exact ih (fun t ht => h t (List.mem_cons_of_mem _ ht)) n

/-- Of a queue of completed jobs the last `REMOVE_ON_COMPLETE_COUNT` stay. -/
theorem trim_all {n : ℕ} (h : ∀ t ∈ q.jobs, t.state = .completed)
    (hn : q.jobs.length - REMOVE_ON_COMPLETE_COUNT = n) : q.trim.jobs = q.jobs.drop n := by
  have hcount : q.count .completed = q.jobs.length :=
    List.countP_eq_length.2 fun t ht => by simpa using h t ht
  unfold trim
  rw [hcount, hn]
  exact dropCompleted_all h n

/-- The last job of the queue moves to the end of its new state. -/
theorem move_last (hfree : q.find t'.job.id = none) (hid : t.job.id = t'.job.id) :
    ({ q with jobs := q.jobs ++ [t] } : JobQueue).move t' = { q with jobs := q.jobs ++ [t'] } := by
  have hother := find_eq_none.1 hfree
  unfold move erase
  congr 1
  rw [List.filter_append, List.filter_eq_self.2, List.filter_cons_of_neg]
  · simp
  · simp [hid]
  · intro s hs
    simpa using hother s hs

/-- The queue after a whole job under a free id. -/
theorem whole_job (hfree : q.find id = none) (hrun : q.paused = false) (name : String)
    (data : JsValue) (attempts token : ℕ) :
    ∃ q', (q.add id name data attempts).deliver id token =
        some (q.newJob id name data attempts, q') ∧
      q'.complete id token = ({ q with
        jobs := q.jobs ++ [⟨q.newJob id name data attempts, .completed, none⟩]
        nextSeq := q.nextSeq + 1 } : JobQueue).trim := by
  have hadd : q.add id name data attempts =
      { q with
        jobs := q.jobs ++ [⟨q.newJob id name data attempts, .waiting, none⟩]
        nextSeq := q.nextSeq + 1 } := by
    unfold add
    rw [hfree, if_neg (by decide)]
  have hfind : ∀ st : StoredJob, st.job.id = id →
      ({ q with jobs := q.jobs ++ [st], nextSeq := q.nextSeq + 1 } : JobQueue).find id = some st := by
    intro st hst
    unfold find at hfree ⊢
    rw [List.find?_append, hfree, List.find?_cons_of_pos (by simpa using hst)]
    rfl
  have hmove : ∀ t t' : StoredJob, t.job.id = id → t'.job.id = id →
      ({ q with jobs := q.jobs ++ [t], nextSeq := q.nextSeq + 1 } : JobQueue).move t' =
        { q with jobs := q.jobs ++ [t'], nextSeq := q.nextSeq + 1 } := by
    intro t t' ht ht'
    exact move_last (q := { q with nextSeq := q.nextSeq + 1 }) (ht' ▸ hfree) (ht.trans ht'.symm)
  rw [hadd]
  refine ⟨{ q with
    jobs := q.jobs ++ [⟨q.newJob id name data attempts, .active, some token⟩]
    nextSeq := q.nextSeq + 1 }, ?_, ?_⟩
  · unfold deliver
    rw [hfind _ rfl]
    dsimp only
    rw [if_neg (by simp [hrun]), hmove _ _ rfl rfl]
  · unfold complete lockedBy
    rw [hfind _ rfl, Option.filter_some, if_pos (by simp)]
    dsimp only
    rw [hmove _ _ rfl rfl]

end JobQueue

/-- The add of a valid order reaches the queue. -/
theorem Shared.enqueue_valid {env : WorkerEnv} {s : Shared} {p : OrdersQueueJobPayload}
    (hp : p.Valid) (hsale : p.saleId = env.SALE_ID) :
    s.enqueue p = s.setQueue (s.stores.queue.add (env.jobId p.userId) PERSIST_ORDER_JOB_NAME p.toJs
      ORDERS_JOB_ATTEMPTS) := by
  have hid : buildOrdersJobId p.saleId p.userId = .ok (env.jobId p.userId) := by
    unfold buildOrdersJobId assertSaleId assertUserId
    rw [if_pos hp.saleId, if_pos hp.userId, hsale]
    rfl
  unfold enqueue
  rw [assertOrdersQueueJobPayload_toJs hp, hid]

namespace System

variable {env : WorkerEnv} {w w' : System} {u id : String}

/-- No transaction is open, the queue is running and the sale has its row. -/
structure Resting (env : WorkerEnv) (w : System) : Prop where
  ok : w.Ok env False
  txs : w.stores.db.txs = ∅
  running : w.stores.queue.paused = false
  sale : w.stores.db.saleExists env.SALE_ID = true

/-- `w'` is `w` after the whole order `id` of `u`: its purchase, its job and its row. -/
structure Ordered (env : WorkerEnv) (w w' : System) (u id : String) : Prop where
  resting : w'.Resting env
  maintenance : w'.maintenance = w.maintenance
  adds : w'.adds = w.adds
  time : w'.stores.time = w.stores.time
  confirmed : w'.confirmed = ⟨u, id, w.stores.time.nowMs⟩ :: w.confirmed
  config : (w'.sale env).config = (w.sale env).config
  stock : (w'.sale env).stock = some ((w.sale env).stock.getD 0 - 1)
  entry : w'.ledger env u = some id
  ledger : ∀ v, v ≠ u → w'.ledger env v = w.ledger env v
  row : w'.stores.db.RowIs u id .persisted
  rows : ∀ v, v ≠ u → w'.stores.db.row? v = w.stores.db.row? v
  queue : ∃ st : StoredJob, st.state = .completed ∧ st.job.id = env.jobId u ∧
    w'.stores.queue = ({ w.stores.queue with
      jobs := w.stores.queue.jobs ++ [st]
      nextSeq := w.stores.queue.nextSeq + 1 } : JobQueue).trim

theorem step_deliver {jobId : String} {job : Job} {q : JobQueue}
    (h : w.stores.queue.deliver jobId w.nextToken = some (job, q)) :
    w.step env (.deliver jobId) =
      (w.onShared { w.setQueue q with nextToken := w.nextToken + 1 }).setAttempt w.nextToken
        ⟨job, process w.nextToken job⟩ := by
  rw [System.step, h]

theorem step_settle {c : ℕ} {job : Job} {a : Unit} (h : w.attempts c = some ⟨job, .pure a⟩) :
    w.step env (.settle c) =
      (w.onShared (w.setQueue (w.stores.queue.complete job.id c))).dropAttempt c := by
  rw [System.step, h]

theorem dropAttempt_setAttempt (w : System) (c : ℕ) (a : Attempt) :
    (w.setAttempt c a).dropAttempt c = w.dropAttempt c := by
  unfold setAttempt dropAttempt
  dsimp only
  rw [Function.update_idem]

/-- A job is delivered, processed without a fault and completed. -/
theorem Ok.run_job (h : w.Ok env False) {jobId : String} {job : Job} {q : JobQueue} {t : Stores}
    (hdeliver : w.stores.queue.deliver jobId w.nextToken = some (job, q))
    (hrun : (process w.nextToken job).run Stores.answer { w.stores with queue := q } =
      some (.ok (), t)) :
    ∃ es, w.run env es = (w.onShared { w.toShared with
      stores := { t with queue := t.queue.complete job.id w.nextToken }
      nextToken := w.nextToken + 1 }).dropAttempt w.nextToken := by
  have hok := h.step (e := .deliver jobId) fun hf => hf.elim
  rw [step_deliver hdeliver] at hok
  obtain ⟨n, hn⟩ := hok.run_attempt (Function.update_self ..) hrun
  refine ⟨.deliver jobId :: (List.replicate n (.attemptStep w.nextToken .none) ++
    [.settle w.nextToken]), ?_⟩
  show ((w.step env (.deliver jobId)).run env _) = _
  rw [step_deliver hdeliver, run_append, hn]
  show System.step env _ (.settle w.nextToken) = _
  refine (step_settle (a := ()) (Function.update_self ..)).trans ?_
  exact (dropAttempt_setAttempt _ w.nextToken _).trans (dropAttempt_setAttempt (w.onShared
    { w.toShared with
      stores := { t with queue := t.queue.complete job.id w.nextToken }
      nextToken := w.nextToken + 1 }) w.nextToken _)

/-- A whole order goes through without a fault. -/
theorem Resting.order (h : w.Resting env) (requestId : String) (hbuys : w.Buys env u id)
    (hu : isUserId u = true) (hreq : isRequestId requestId = true)
    (hms : w.stores.time.nowMs ≤ MAX_SAFE_INTEGER)
    (hnew : ∀ c ∈ w.confirmed, c.userId ≠ u) : ∃ es, w.Ordered env (w.run env es) u id := by
  obtain ⟨-, x, hx, hconf⟩ := (purchase_buys env w.toShared u id requestId).resolve_left
    fun hnot => hnot.1 hbuys
  have hinv := h.ok.inv.1
  let p : OrdersQueueJobPayload := ⟨env.SALE_ID, u, id, w.stores.time.nowMs, requestId⟩
  have hvalid : p.Valid := ⟨env.saleId_valid, hu, hbuys.fresh.1, hms, hreq⟩
  let s₁ : Shared := { w.confirm env x u id requestId with adds := w.adds }
  have hgood : GoodPayload env s₁.confirmed p := ⟨hvalid, rfl, List.mem_cons_self⟩
  have hrow : w.stores.db.row? u = none := by
    refine Db.row?_eq_none.2 fun row hmem hru => ?_
    exact hnew _ (hinv.rows row hmem).2 hru
  have hfree : w.stores.queue.find (env.jobId u) = none := by
    refine JobQueue.find_eq_none.2 fun st hst hid => ?_
    obtain ⟨-, q, hq⟩ := hinv.jobs st hst
    exact hnew _ hq.payload.confirmed (WorkerEnv.jobId_inj (hq.id.symm.trans hid))
  have hidTaken : w.stores.db.idTaken (p.toRow .persisted) = false := by
    unfold Db.idTaken
    rw [List.any_eq_false]
    intro old hold
    have hne : old.id ≠ (p.toRow .persisted).id := by
      show old.id ≠ pgUuid id
      rw [hbuys.fresh.2.1]
      exact hbuys.fresh.2.2 _ (hinv.rows old hold).2
    simp [hne]
  obtain ⟨q, hdeliver, hcomplete⟩ := JobQueue.whole_job hfree h.running PERSIST_ORDER_JOB_NAME
    p.toJs ORDERS_JOB_ATTEMPTS w.nextToken
  let job := w.stores.queue.newJob (env.jobId u) PERSIST_ORDER_JOB_NAME p.toJs ORDERS_JOB_ATTEMPTS
  -- the purchase and its add
  have hadded : w.run env [.purchase u id requestId, .apiAdd 0, .apiDrop 0] =
      w.onShared (s₁.setQueue (w.stores.queue.add (env.jobId u) PERSIST_ORDER_JOB_NAME p.toJs
        ORDERS_JOB_ATTEMPTS)) := by
    have hpurchase : w.step env (.purchase u id requestId) =
        w.onShared (w.confirm env x u id requestId) := by
      rw [System.step, hx]
    have hadd : (w.onShared (w.confirm env x u id requestId)).step env (.apiAdd 0) =
        w.onShared { (w.confirm env x u id requestId).enqueue p with adds := p :: w.adds } := rfl
    show ((w.step env (.purchase u id requestId)).step env (.apiAdd 0)).step env (.apiDrop 0) = _
    rw [hpurchase, hadd, Shared.enqueue_valid hvalid rfl]
    rfl
  have hok := h.ok.run [.purchase u id requestId, .apiAdd 0, .apiDrop 0] fun hf => hf.elim
  rw [hadded] at hok
  -- its delivery
  have hjob : GoodJob env s₁.confirmed job p := ⟨rfl, rfl, rfl, rfl, hgood⟩
  obtain ⟨es, hes⟩ := hok.run_job hdeliver
    (run_process_new (s := (s₁.setQueue q).stores) hjob h.txs hrow hidTaken h.sale w.nextToken)
  refine ⟨[.purchase u id requestId, .apiAdd 0, .apiDrop 0] ++ es, ?_⟩
  have hok' := h.ok.run ([.purchase u id requestId, .apiAdd 0, .apiDrop 0] ++ es) fun hf => hf.elim
  rw [run_append, hadded, hes] at hok' ⊢
  generalize hw' : System.dropAttempt _ _ = w' at hok' ⊢
  have hdb : w'.stores.db = w.stores.db.apply (.insert (p.toRow .persisted)) := by
    rw [← hw']
    rfl
  have hqueue := hcomplete
  rw [show q.complete (env.jobId u) w.nextToken = w'.stores.queue by rw [← hw']; rfl] at hqueue
  have hsale : w'.sale env = x := by
    rw [← hw']
    exact sale_setSale w.toShared x
  have hledger : ∀ v, w'.ledger env v = if v = u then some id else w.ledger env v := by
    intro v
    have hsame : w'.sale env = (w.confirm env x u id requestId).sale env :=
      hsale.trans (sale_setSale w.toShared x).symm
    unfold Shared.ledger
    rw [hsame]
    exact ledger_confirm hbuys.fresh.1 hconf v
  have hrows : ∀ v, w'.stores.db.row? v =
      if v = u then some (p.toRow .persisted) else w.stores.db.row? v := by
    intro v
    rw [hdb]
    exact Db.row?_apply_insert hrow v
  exact
    { resting := ⟨hok', by rw [hdb]; exact h.txs, by rw [hqueue, JobQueue.trim_paused]; exact h.running,
        by rw [hdb]; exact h.sale⟩
      maintenance := by rw [← hw']; rfl
      adds := by rw [← hw']; rfl
      time := by rw [← hw']; rfl
      confirmed := by rw [← hw']; rfl
      config := by rw [hsale, hconf.keys]
      stock := by rw [hsale, hconf.keys]
      entry := (hledger u).trans (if_pos rfl)
      ledger := fun v hv => (hledger v).trans (if_neg hv)
      row := ⟨p.toRow .persisted, (hrows u).trans (if_pos rfl), hbuys.fresh.2.1, rfl⟩
      rows := fun v hv => (hrows v).trans (if_neg hv)
      queue := ⟨⟨job, .completed, none⟩, rfl, rfl, hqueue⟩ }

end System

end FlashSale
