import FlashSale.Worker.PassScans

/-!
# What a healthy pass leaves behind

`runDiff` alone on stores that have drifted apart in any way. A pass that reports no incident and no
queue issue has met no conflict, so each of its phases has done what it is for: every persisted row
and every live job is in the ledger, every entry is covered by a persisted row or a live job, and
the buyers are the users of the ledger. `acc.incidents = []` at the end of a phase says that there
was none before.
-/

namespace FlashSale

open Redis

/-- The stores a pass starts from: whatever they hold, no other transaction is open, a user has one
row, job ids are unique, every job with a payload is one of the sale, and a seeded total is one the
environment schemas take. -/
structure Drifted (env : WorkerEnv) (s : Stores) : Prop where
  distinct : s.queue.Distinct
  own : ∀ st ∈ s.queue.jobs, ∀ p, assertOrdersQueueJobPayload st.job.data = .ok p →
    p.saleId = env.SALE_ID
  users : (s.db.orders.map (·.userId)).Nodup
  idle : s.db.txs = ∅
  total : ∀ cfg, (s.sales env.SALE_ID).config = some cfg →
    0 ≤ cfg.totalStock ∧ cfg.totalStock ≤ Number.MAX_SAFE_INTEGER

section

variable {env : WorkerEnv} {s s' : Stores}

theorem Stores.setSale_self (s : Stores) (saleId : String) :
    s.setSale saleId (s.sales saleId) = s := by
  unfold setSale
  rw [Function.update_eq_self]

theorem Stores.sales_setSale (s : Stores) (saleId : String) (sale : Sale) :
    (s.setSale saleId sale).sales saleId = sale := by
  simp [setSale]

theorem Drifted.setSale (h : Drifted env s) {sale : Sale}
    (hconfig : sale.config = (s.sales env.SALE_ID).config) :
    Drifted env (s.setSale env.SALE_ID sale) := by
  refine ⟨h.distinct, h.own, h.users, h.idle, ?_⟩
  rw [Stores.sales_setSale, hconfig]
  exact h.total

theorem Listed.unique {u r r' : String} (h : Listed env s u r) (h' : Listed env s u r') :
    r = r' := by
  obtain ⟨v, hv, rfl⟩ := h
  obtain ⟨v', hv', rfl⟩ := h'
  rw [hv] at hv'
  rw [Option.some.inj hv']

theorem listed_of_hget {u v : String} (h : (s.sales env.SALE_ID).reservations.hget u = some v) :
    Listed env s u (ledgerIdentity v) :=
  ⟨v, h, rfl⟩

theorem Listed.hexists {u r : String} (h : Listed env s u r) :
    (s.sales env.SALE_ID).reservations.hexists u = true := by
  obtain ⟨v, hv, -⟩ := h
  unfold Hash.hexists
  rw [hv]
  rfl

theorem listed_of_hexists {u : String}
    (h : (s.sales env.SALE_ID).reservations.hexists u = true) : ∃ r, Listed env s u r := by
  obtain ⟨v, hv⟩ := Option.isSome_iff_exists.1 h
  exact ⟨_, listed_of_hget hv⟩

/-! ## Restorations -/

/-- The keys after `compare-restore-reservation.lua` for a candidate. -/
def restoredSale (env : WorkerEnv) (s : Stores) (c : Store.CompareRestoreReservationInput) : Sale :=
  (compareRestoreReservation (s.sales env.SALE_ID) c.userId c.reservationId c.reservedAtMs).2

theorem isUuid_of_candidate {c : Store.CompareRestoreReservationInput}
    (h : Store.assertCompareRestoreReservationInput c = .ok ()) : isUuid c.reservationId = true := by
  unfold Store.assertCompareRestoreReservationInput at h
  split_ifs at h with h1 h2
  simpa using h2

theorem ends_compareAndRestoreReservation (c : Store.CompareRestoreReservationInput) :
    Ends (Store.compareAndRestoreReservation env.SALE_ID c) (fun a s' =>
      Store.assertCompareRestoreReservationInput c = .ok () ∧
        s' = s.setSale env.SALE_ID (restoredSale env s c) ∧
        a.1 = (compareRestoreReservation (s.sales env.SALE_ID) c.userId c.reservationId
          c.reservedAtMs).1.1) s := by
  unfold Store.compareAndRestoreReservation
  rw [assertSaleId_env]
  show Ends (Prog.bind (Prog.ofExcept (Store.assertCompareRestoreReservationInput c)) _) _ s
  refine .bind (.ofExcept (P := fun _ t => Store.assertCompareRestoreReservationInput c = .ok () ∧
    t = s) fun _ h => ⟨h, rfl⟩) fun _ t ht => ?_
  obtain ⟨hc, rfl⟩ := ht
  refine .bind_of_ok (Prog.run_call (o := Call.compareRestore env.SALE_ID c.userId c.reservationId
    c.reservedAtMs) rfl) ?_
  exact .bind (.ofExcept fun _ _ => rfl) fun _ t' ht => .pure ⟨hc, Eq.symm ht, rfl⟩

/-- A script of a pass has written: ledger entries are kept, rows and jobs are untouched. -/
structure Grown (env : WorkerEnv) (s s' : Stores) : Prop where
  db : s'.db = s.db
  queue : s'.queue = s.queue
  config : (s'.sales env.SALE_ID).config = (s.sales env.SALE_ID).config
  kept : ∀ u r, Listed env s u r → Listed env s' u r

theorem Grown.refl (env : WorkerEnv) (s : Stores) : Grown env s s :=
  ⟨rfl, rfl, rfl, fun _ _ h => h⟩

theorem Grown.trans {s'' : Stores} (h : Grown env s s') (h' : Grown env s' s'') : Grown env s s'' :=
  ⟨h'.db.trans h.db, h'.queue.trans h.queue, h'.config.trans h.config,
    fun u r hl => h'.kept u r (h.kept u r hl)⟩

/-- A restoration without a conflict leaves the candidate in the ledger. -/
theorem grown_restoredSale {c : Store.CompareRestoreReservationInput}
    (hc : isUuid c.reservationId = true)
    (h : (compareRestoreReservation (s.sales env.SALE_ID) c.userId c.reservationId
      c.reservedAtMs).1.1 ≠ .conflict) :
    Grown env s (s.setSale env.SALE_ID (restoredSale env s c)) ∧
      Listed env (s.setSale env.SALE_ID (restoredSale env s c)) c.userId c.reservationId := by
  unfold restoredSale Listed
  rcases compareRestoreReservation_cases (s.sales env.SALE_ID) c.userId c.reservationId
    c.reservedAtMs with ⟨hnone, e⟩ | ⟨v, hv, ⟨hid, e⟩ | ⟨-, e⟩⟩
  · rw [e]
    refine ⟨⟨rfl, rfl, by rw [Stores.sales_setSale]; rfl, fun u r hl => ?_⟩, ?_⟩
    · obtain ⟨v, hv, hr⟩ := hl
      refine ⟨v, ?_, hr⟩
      rw [Stores.sales_setSale]
      show ((s.sales env.SALE_ID).reservations.hset _ _).hget u = some v
      rw [Hash.hget_hset_of_ne, hv]
      rintro rfl
      rw [hnone] at hv
      cases hv
    · rw [Stores.sales_setSale]
      exact ⟨_, Hash.hget_hset_self,
        ledgerIdentity_ledgerValue _ (colon_notMem_of_isUuid hc)⟩
  · rw [e]
    refine ⟨⟨rfl, rfl, by rw [Stores.sales_setSale], fun u r hl => ?_⟩, ?_⟩
    · obtain ⟨w, hw, hr⟩ := hl
      exact ⟨w, by rw [Stores.sales_setSale]; exact hw, hr⟩
    · rw [Stores.sales_setSale]
      exact ⟨v, hv, hid⟩
  · rw [e] at h
    exact absurd rfl h

/-- The row the pass has read for the user is a marker of the reservation. -/
def Recovery.Marks (acc : Recovery) (userId reservationId : String) : Prop :=
  ∃ row, acc.byUser userId = some row ∧ row.status = .compensated ∧ row.id = reservationId

theorem Recovery.marks_iff {acc : Recovery} {u r : String} :
    (acc.byUser u).any (fun row => row.status = .compensated && row.id = r) = true ↔
      acc.Marks u r := by
  unfold Recovery.Marks
  cases acc.byUser u with
  | none => simp
  | some row => simp

theorem Recovery.push_incidents (acc : Recovery) (incident : String) :
    (acc.push incident).incidents ≠ [] := by
  simp [Recovery.push]

/-- A recovery without an incident has restored its candidate or skipped a marked job. -/
theorem ends_applyRecoveryCandidate (c : Store.CompareRestoreReservationInput)
    (source : RecoverySource) (acc : Recovery) (targetedJob : Option (Option Job)) :
    Ends (applyRecoveryCandidate env c source acc targetedJob) (fun acc' s' =>
      acc'.incidents = [] → acc' = acc ∧
        Store.assertCompareRestoreReservationInput c = .ok () ∧ Grown env s s' ∧
        s' = s.setSale env.SALE_ID (restoredSale env s c) ∧
        (Listed env s' c.userId c.reservationId ∨
          source = .queue ∧ acc.Marks c.userId c.reservationId)) s := by
  unfold applyRecoveryCandidate
  refine .bind (ends_compareAndRestoreReservation c) fun a t ha => ?_
  obtain ⟨outcome, current⟩ := a
  obtain ⟨hc, rfl, houtcome⟩ := ha
  dsimp only at houtcome ⊢
  by_cases hconflict : outcome = .conflict
  · have hsame : s.setSale env.SALE_ID (restoredSale env s c) = s := by
      unfold restoredSale
      rcases compareRestoreReservation_cases (s.sales env.SALE_ID) c.userId c.reservationId
        c.reservedAtMs with ⟨-, e⟩ | ⟨v, -, ⟨-, e⟩ | ⟨-, e⟩⟩
      · rw [hconflict, e] at houtcome
        cases houtcome
      · rw [hconflict, e] at houtcome
        cases houtcome
      · rw [e]
        exact s.setSale_self _
    rw [if_neg (not_not.2 hconflict)]
    cases source with
    | queue =>
      refine .pure fun hnone => ?_
      split_ifs at hnone ⊢ with hmark
      · refine ⟨rfl, hc, ?_, rfl, .inr ⟨rfl, Recovery.marks_iff.1 hmark⟩⟩
        rw [hsame]
        exact .refl env s
      · exact absurd hnone (Recovery.push_incidents _ _)
    | persisted =>
      dsimp only
      split_ifs
      · exact .pure fun hnone => absurd hnone (Recovery.push_incidents _ _)
      · exact .bind (P := fun _ _ => True) (fun _ _ _ => trivial) fun _ _ _ =>
          .pure fun hnone => absurd hnone (Recovery.push_incidents _ _)
  · rw [if_pos hconflict]
    obtain ⟨hgrown, hlisted⟩ := grown_restoredSale (isUuid_of_candidate hc)
      (fun h => hconflict (houtcome.trans h))
    exact .pure fun _ => ⟨rfl, hc, hgrown, rfl, .inl hlisted⟩

/-! ## Loops of a healthy pass -/

/-- A loop of a pass whose turns keep `I` unless they report an incident. -/
theorem ends_healthyLoop {γ : Type} {body : Recovery → γ → WorkerM Recovery}
    (I : List γ → Recovery → Stores → Prop)
    (hkept : ∀ x acc s, Ends (body acc x) (fun acc' _ => acc'.incidents = [] →
      acc.incidents = []) s)
    (hbody : ∀ x xs acc s, I (x :: xs) acc s →
      Ends (body acc x) (fun acc' s' => acc'.incidents = [] → I xs acc' s') s)
    {xs : List γ} {acc : Recovery} (h : acc.incidents = [] → I xs acc s) :
    Ends (Prog.forEach xs acc body) (fun acc' s' => acc'.incidents = [] → I [] acc' s') s := by
  refine .forEach (fun xs acc s => acc.incidents = [] → I xs acc s) (fun x xs acc s h => ?_) h
  by_cases hnone : acc.incidents = []
  · exact hbody x xs acc s (h hnone)
  · exact (hkept x acc s).mono fun acc' s' hkept hnone' => absurd (hkept hnone') hnone


/-- A loop each of whose turns restores what `P` says, unless it reports an incident. -/
theorem ends_recoveryLoop {γ : Type} {body : Recovery → γ → WorkerM Recovery}
    (P : Recovery → γ → Stores → Prop)
    (hP : ∀ acc x s s', Grown env s s' → P acc x s → P acc x s')
    (hbody : ∀ acc x s, Ends (body acc x) (fun acc' s' => acc'.incidents = [] → acc' = acc ∧
      Grown env s s' ∧ P acc x s') s) (xs : List γ) (acc : Recovery) (s : Stores) :
    Ends (Prog.forEach xs acc body) (fun acc' s' => acc'.incidents = [] → acc' = acc ∧
      Grown env s s' ∧ ∀ x ∈ xs, P acc x s') s := by
  induction xs generalizing acc s with
  | nil => exact .pure fun _ => ⟨rfl, .refl env s, by simp⟩
  | cons x xs ih =>
    refine .bind (hbody acc x s) fun acc₁ s₁ h₁ => (ih acc₁ s₁).mono fun acc₂ s₂ h₂ hnone => ?_
    obtain ⟨rfl, hgrown₂, hrest⟩ := h₂ hnone
    obtain ⟨rfl, hgrown₁, hx⟩ := h₁ hnone
    refine ⟨rfl, hgrown₁.trans hgrown₂, fun y hy => ?_⟩
    rcases List.mem_cons.1 hy with rfl | hy
    · exact hP _ y s₁ s₂ hgrown₂ hx
    · exact hrest y hy

/-- The candidate of a row. -/
def DurableOrder.candidate (row : DurableOrder) : Store.CompareRestoreReservationInput :=
  ⟨row.userId, row.id, row.createdAtMs⟩

theorem ends_recoverRows (orders : List DurableOrder) (acc : Recovery) :
    Ends (Prog.forEach orders acc (recoverRow env)) (fun acc' s' => acc'.incidents = [] →
      acc' = acc ∧ Grown env s s' ∧ ∀ row ∈ orders, row.status = .persisted →
        Store.assertCompareRestoreReservationInput row.candidate = .ok () ∧
          Listed env s' row.userId row.id) s := by
  refine ends_recoveryLoop (fun _ row s => row.status = .persisted →
    Store.assertCompareRestoreReservationInput row.candidate = .ok () ∧
      Listed env s row.userId row.id) (fun _ row s s' hg h hst => ?_) (fun acc row s => ?_)
    orders acc s
  · exact ⟨(h hst).1, hg.kept _ _ (h hst).2⟩
  · unfold recoverRow
    split_ifs with hst
    · exact .pure fun _ => ⟨rfl, .refl env s, fun hst' => absurd hst' hst⟩
    · refine (ends_applyRecoveryCandidate row.candidate .persisted acc none).mono
        fun acc' s' h hnone => ?_
      obtain ⟨rfl, hc, hgrown, -, hlisted⟩ := h hnone
      refine ⟨rfl, hgrown, fun _ => ⟨hc, ?_⟩⟩
      rcases hlisted with hlisted | ⟨hsource, -⟩
      · exact hlisted
      · cases hsource

theorem ends_recoverJobs (items : List ScannedJob) (acc : Recovery) :
    Ends (Prog.forEach items acc (recoverJob env)) (fun acc' s' => acc'.incidents = [] →
      acc' = acc ∧ Grown env s s' ∧ ∀ item ∈ items, item.state.isLive = true →
        Listed env s' item.payload.userId item.payload.reservationId ∨
          acc.Marks item.payload.userId item.payload.reservationId) s := by
  refine ends_recoveryLoop (fun acc item s => item.state.isLive = true →
    Listed env s item.payload.userId item.payload.reservationId ∨
      acc.Marks item.payload.userId item.payload.reservationId)
    (fun _ item s s' hg h hl => ?_) (fun acc item s => ?_) items acc s
  · rcases h hl with h | h
    · exact .inl (hg.kept _ _ h)
    · exact .inr h
  · unfold recoverJob
    split_ifs with hdead hmark
    · exact .pure fun _ => ⟨rfl, .refl env s, fun hl => by simp [hl] at hdead⟩
    · exact .pure fun _ => ⟨rfl, .refl env s, fun _ => .inr (Recovery.marks_iff.1 hmark)⟩
    · refine (ends_applyRecoveryCandidate _ .queue acc none).mono fun acc' s' h hnone => ?_
      obtain ⟨rfl, -, hgrown, -, hlisted⟩ := h hnone
      exact ⟨rfl, hgrown, fun _ => hlisted.imp (fun h => h) fun h => h.2⟩

/-! ## Queue repair -/

/-- A job that was added for the entry. -/
def Fresh (env : WorkerEnv) (live : ReservationEntry) (st : StoredJob) : Prop :=
  st.state = .waiting ∧
    classifyQueueEntry st.job .waiting = .ok ⟨st.job, .waiting, repairPayload env live⟩

/-- A repair changes the slot of its entry only, and puts nothing there but a fresh job. -/
structure SlotRepaired (env : WorkerEnv) (live : ReservationEntry) (q q' : JobQueue) : Prop where
  others : ∀ id, id ≠ env.jobId live.userId → q'.find id = q.find id
  distinct : q'.Distinct
  jobs : ∀ st ∈ q'.jobs, st ∈ q.jobs ∨ Fresh env live st

/-- The stores after a repair of the slot. -/
def Repairs (env : WorkerEnv) (live : ReservationEntry) (s s' : Stores) : Prop :=
  ∃ q, s' = { s with queue := q } ∧ SlotRepaired env live s.queue q

variable {live : ReservationEntry} {durable : Option DurableOrder}

theorem Repairs.refl (hd : s.queue.Distinct) : Repairs env live s s :=
  ⟨s.queue, rfl, fun _ _ => rfl, hd, fun _ hst => .inl hst⟩

theorem JobQueue.mem_add {q : JobQueue} {id name : String} {data : JsValue} {attempts : ℕ}
    {st : StoredJob} (h : st ∈ (q.add id name data attempts).jobs) :
    st ∈ q.jobs ∨ st = ⟨q.newJob id name data attempts, .waiting, none⟩ := by
  unfold JobQueue.add at h
  split_ifs at h
  · exact .inl h
  · simpa using h

/-- A removal that returns has emptied the slot. -/
theorem JobQueue.remove_ok {q : JobQueue} {id : String} {x : Unit}
    (h : (q.remove id).1 = .ok x) : (q.remove id).2 = q.erase id := by
  unfold JobQueue.remove at h ⊢
  cases hf : q.find id with
  | none =>
    have hjobs : q.jobs.filter (fun st => st.job.id != id) = q.jobs :=
      List.filter_eq_self.2 fun st hst => by simpa using JobQueue.find_eq_none.1 hf st hst
    unfold JobQueue.erase
    rw [hjobs]
  | some st =>
    rw [hf] at h
    dsimp only at h ⊢
    split_ifs at h ⊢
    rfl

theorem ends_enqueueLiveReservation {jobId : String} (hd : s.queue.Distinct)
    (hid : buildOrdersJobId env.SALE_ID live.userId = .ok jobId)
    (hfree : s.queue.find jobId = none) :
    Ends (enqueueLiveReservation env live jobId) (fun r s' => Repairs env live s s' ∧
      (r = .retainedCollision ∨ s'.queue.Covers jobId live.reservationId)) s := by
  unfold enqueueLiveReservation
  cases hp : assertOrdersQueueJobPayload (repairPayload env live).toJs with
  | error e => exact .throw
  | ok p =>
    obtain ⟨rfl, hclass⟩ := classify_repair hp hid s.queue
    show Ends (Prog.bind (request (.addJob jobId PERSIST_ORDER_JOB_NAME
      (repairPayload env live).toJs ORDERS_JOB_ATTEMPTS)) _) _ s
    refine .bind_of_ok (Prog.run_call (o := Call.addJob jobId PERSIST_ORDER_JOB_NAME
      (repairPayload env live).toJs ORDERS_JOB_ATTEMPTS) rfl) ?_
    rw [hclass]
    refine .pure ⟨⟨_, rfl, fun id hne => ?_, hd.add _ _ _ _, fun st hst => ?_⟩, .inr ?_⟩
    · rw [← buildOrdersJobId_env hid] at hne
      rw [JobQueue.find_add, if_neg fun h => hne h.1]
    · rcases JobQueue.mem_add hst with hst | rfl
      · exact .inl hst
      · exact .inr ⟨rfl, hclass⟩
    · refine ⟨⟨s.queue.newJob jobId PERSIST_ORDER_JOB_NAME (repairPayload env live).toJs
        ORDERS_JOB_ATTEMPTS, .waiting, none⟩, ?_, rfl, _, hp, rfl⟩
      rw [JobQueue.find_add, if_pos ⟨rfl, hfree⟩]

/-- The job in the slot makes way for the entry. -/
theorem ends_replace {jobId : String} {job : Job} (hd : s.queue.Distinct)
    (hid : buildOrdersJobId env.SALE_ID live.userId = .ok jobId) (hjob : job.id = jobId)
    (targetedJob : Option (Option Job)) :
    Ends ((request (.removeJob job)).bind fun _ => enqueueAgain env live jobId targetedJob)
      (fun r s' => Repairs env live s s' ∧
        (r = .retainedCollision ∨ s'.queue.Covers jobId live.reservationId)) s := by
  have herase : SlotRepaired env live s.queue (s.queue.erase jobId) := by
    refine ⟨fun id hne => ?_, hd.erase _, fun st hst => .inl (List.mem_of_mem_filter hst)⟩
    rw [← buildOrdersJobId_env hid] at hne
    rw [JobQueue.find_erase, if_neg hne]
  have hfree : (s.queue.erase jobId).find jobId = none := by
    rw [JobQueue.find_erase, if_pos rfl]
  refine .bind (P := fun _ t => t = { s with queue := s.queue.erase jobId })
    (.call fun _ t ht => ?_) fun _ t ht => ?_
  · obtain ⟨hok, rfl⟩ := Prod.mk.inj (Option.some.inj ht)
    rw [JobQueue.remove_ok hok, hjob]
  · subst ht
    have hnext : Ends (enqueueLiveReservation env live jobId) _
        { s with queue := s.queue.erase jobId } :=
      ends_enqueueLiveReservation herase.distinct hid hfree
    have hcompose : Ends (enqueueLiveReservation env live jobId) (fun r s' =>
        Repairs env live s s' ∧ (r = .retainedCollision ∨
          s'.queue.Covers jobId live.reservationId)) { s with queue := s.queue.erase jobId } := by
      refine hnext.mono fun r s' h => ⟨?_, h.2⟩
      obtain ⟨⟨q, rfl, hq⟩, -⟩ := h
      refine ⟨q, rfl, fun id hne => (hq.others id hne).trans (herase.others id hne), hq.distinct,
        fun st hst => ?_⟩
      rcases hq.jobs st hst with hst | hst
      · exact herase.jobs st hst
      · exact .inr hst
    unfold enqueueAgain
    split_ifs
    · unfold enqueueAfterRemoval
      have hnone : Stores.answer (.getJob jobId) { s with queue := s.queue.erase jobId } =
          some (.ok none, { s with queue := s.queue.erase jobId }) := by
        show some (Except.ok ((s.queue.erase jobId).getJob jobId), _) = _
        unfold JobQueue.getJob
        rw [hfree]
        rfl
      exact .bind_of_ok (Prog.run_call hnone) hcompose
    · exact hcompose

/-- The slot of a stored job answers with it. -/
theorem getState_of_find {id : String} {st : StoredJob} (h : s.queue.find id = some st) :
    s.queue.getState st.job.id = st.state := by
  unfold JobQueue.getState
  rw [(JobQueue.find_some h).2, h]
  rfl

/-- A slot whose job the entry has to share or replace. -/
theorem ends_adjudicateQueued {jobId : String} {st : StoredJob} {scanned : ScannedJob}
    (hd : s.queue.Distinct) (hid : buildOrdersJobId env.SALE_ID live.userId = .ok jobId)
    (hst : s.queue.find jobId = some st)
    (hclass : classifyQueueEntry st.job st.state = .ok scanned)
    (targetedJob : Option (Option Job)) :
    Ends (adjudicateQueued env live durable targetedJob jobId st.job scanned) (fun r s' =>
      Repairs env live s s' ∧ (r = .retainedCollision ∨ PersistedAs durable live.reservationId ∨
        s'.queue.Covers jobId live.reservationId)) s := by
  obtain ⟨hscanned, hdata, -⟩ := classifyQueueEntry_ok hclass
  have hstate : scanned.state = st.state := by rw [hscanned]
  have hjob := (JobQueue.find_some hst).2
  unfold adjudicateQueued
  dsimp only
  rw [hstate]
  split_ifs with hsame hlive hsat
  · exact .pure ⟨.refl hd, .inr (.inr ⟨st, hst, hlive, _, hdata, hsame⟩)⟩
  · refine .pure ⟨.refl hd, .inr (.inl ?_)⟩
    obtain ⟨row, hrow, hsat⟩ := (Option.any_eq_true _ _).1 hsat
    simp only [Bool.and_eq_true, decide_eq_true_eq] at hsat
    exact ⟨row, hrow, hsat.1, hsat.2⟩
  · exact .pure ⟨.refl hd, .inl rfl⟩
  · exact (ends_replace hd hid hjob targetedJob).mono fun r s' h => ⟨h.1, h.2.imp_right .inr⟩
  · exact .pure ⟨.refl hd, .inl rfl⟩
  · exact (ends_replace hd hid hjob targetedJob).mono fun r s' h => ⟨h.1, h.2.imp_right .inr⟩

theorem run_lookupJob (jobId : String) {targetedJob : Option (Option Job)}
    (h : targetedJob = none ∨ targetedJob = some (s.queue.getJob jobId)) :
    (lookupJob jobId targetedJob).run Stores.answer s = some (.ok (s.queue.getJob jobId), s) := by
  rcases h with rfl | rfl
  · exact Prog.run_call rfl
  · rfl

/-- A repair without a collision leaves its entry covered. -/
theorem ends_ensureLiveReservationQueued (hd : s.queue.Distinct)
    {targetedJob : Option (Option Job)} (htargeted : targetedJob = none ∨
      targetedJob = some (s.queue.getJob (env.jobId live.userId))) :
    Ends (ensureLiveReservationQueued env live durable targetedJob) (fun r s' =>
      Repairs env live s s' ∧ (r = .retainedCollision ∨ PersistedAs durable live.reservationId ∨
        s'.queue.Covers (env.jobId live.userId) live.reservationId)) s := by
  unfold ensureLiveReservationQueued
  cases hid : buildOrdersJobId env.SALE_ID live.userId with
  | error e => exact .throw
  | ok jobId =>
    obtain rfl := buildOrdersJobId_env hid
    show Ends (Prog.bind (lookupJob (env.jobId live.userId) targetedJob) _) _ s
    refine .bind_of_ok (run_lookupJob _ htargeted) ?_
    cases hst : s.queue.find (env.jobId live.userId) with
    | none =>
      have hjob : s.queue.getJob (env.jobId live.userId) = none := by
        unfold JobQueue.getJob
        rw [hst]
        rfl
      rw [hjob]
      exact (ends_enqueueLiveReservation hd hid hst).mono fun r s' h =>
        ⟨h.1, h.2.imp_right .inr⟩
    | some st =>
      have hjob : s.queue.getJob (env.jobId live.userId) = some st.job := by
        unfold JobQueue.getJob
        rw [hst]
        rfl
      rw [hjob]
      refine .bind_of_ok (Prog.run_call (o := Call.getState st.job.id) rfl) ?_
      rw [getState_of_find hst]
      cases hclass : classifyQueueEntry st.job st.state with
      | error issue => exact .pure ⟨.refl hd, .inl rfl⟩
      | ok scanned => exact ends_adjudicateQueued hd hid hst hclass targetedJob

/-- An entry whose live job is in its slot is found covered. -/
theorem run_ensureLiveReservationQueued_covered {st : StoredJob} {scanned : ScannedJob}
    (hid : buildOrdersJobId env.SALE_ID live.userId = .ok (env.jobId live.userId))
    (hst : s.queue.find (env.jobId live.userId) = some st)
    (hclass : classifyQueueEntry st.job st.state = .ok scanned) (hlive : st.state.isLive = true)
    (hsame : scanned.payload.reservationId = live.reservationId)
    {targetedJob : Option (Option Job)} (htargeted : targetedJob = none ∨
      targetedJob = some (s.queue.getJob (env.jobId live.userId))) :
    (ensureLiveReservationQueued env live durable targetedJob).run Stores.answer s =
      some (.ok .alreadyCovered, s) := by
  have hjob : s.queue.getJob (env.jobId live.userId) = some st.job := by
    unfold JobQueue.getJob
    rw [hst]
    rfl
  have hstate : scanned.state = st.state := by rw [(classifyQueueEntry_ok hclass).1]
  unfold ensureLiveReservationQueued
  rw [hid]
  show Prog.run _ (Prog.bind (lookupJob (env.jobId live.userId) targetedJob) _) s = _
  rw [Prog.run_bind_of_ok (run_lookupJob _ htargeted), hjob]
  refine (Prog.run_call_bind (o := Call.getState st.job.id) rfl _).trans ?_
  rw [getState_of_find hst, hclass]
  unfold adjudicateQueued
  dsimp only
  rw [if_pos hsame, hstate, if_pos hlive]
  rfl

/-! ## Repaired stores -/

/-- The row of the user says that the reservation is persisted. -/
def Db.Records (db : Db) (userId reservationId : String) : Prop :=
  ∃ row, db.row? userId = some row ∧ row.id = reservationId ∧ row.status = .persisted

/-- A row of the sale is the marker of the reservation. -/
def Marked (env : WorkerEnv) (s : Stores) (userId reservationId : String) : Prop :=
  ∃ row, s.db.row? userId = some row ∧ row.saleId = env.SALE_ID ∧ row.status = .compensated ∧
    row.id = reservationId

/-- A ledger entry is covered by a persisted row or by a live job. -/
def Covered (env : WorkerEnv) (s : Stores) (userId reservationId : String) : Prop :=
  s.db.Records userId reservationId ∨ s.queue.Covers (env.jobId userId) reservationId

/-- A job that `scanJobs` sees is well formed, exhausted if it failed, and its reservation is in the
ledger or marked if it is live. -/
def JobFits (env : WorkerEnv) (s : Stores) (st : StoredJob) : Prop :=
  st.state ∈ QUEUE_STATES → ∃ p, classifyQueueEntry st.job st.state = .ok ⟨st.job, st.state, p⟩ ∧
    p.saleId = env.SALE_ID ∧ (st.state = .failed → st.job.exhausted = true) ∧
    (st.state.isLive = true → Listed env s p.userId p.reservationId ∨
      Marked env s p.userId p.reservationId)

/-- What the phases up to the ledger loop of a healthy pass establish and the rest of it keeps. -/
structure Repaired (env : WorkerEnv) (s : Stores) : Prop where
  drifted : Drifted env s
  jobs : ∀ st ∈ s.queue.jobs, JobFits env s st
  parses : LedgerParses env s
  covered : ∀ u r, Listed env s u r → Covered env s u r
  rows : ∀ row ∈ s.db.orders, row.saleId = env.SALE_ID → row.status = .persisted →
    Store.assertCompareRestoreReservationInput row.candidate = .ok () ∧
      Listed env s row.userId row.id
  buyers : ∀ u r, Listed env s u r → (s.sales env.SALE_ID).buyers.sismember u = true

/-- Two stores with the same ledger, the same configuration and the same rows. -/
structure SameEntries (env : WorkerEnv) (s s' : Stores) : Prop where
  db : s'.db = s.db
  ledger : (s'.sales env.SALE_ID).reservations = (s.sales env.SALE_ID).reservations
  config : (s'.sales env.SALE_ID).config = (s.sales env.SALE_ID).config

theorem SameEntries.refl (env : WorkerEnv) (s : Stores) : SameEntries env s s := ⟨rfl, rfl, rfl⟩

theorem SameEntries.trans {s'' : Stores} (h : SameEntries env s s')
    (h' : SameEntries env s' s'') : SameEntries env s s'' :=
  ⟨h'.db.trans h.db, h'.ledger.trans h.ledger, h'.config.trans h.config⟩

theorem SameEntries.listed (h : SameEntries env s s') {u r : String} :
    Listed env s' u r ↔ Listed env s u r := by
  unfold Listed
  rw [h.ledger]

theorem SameEntries.jobFits (h : SameEntries env s s') {st : StoredJob} (hst : JobFits env s st) :
    JobFits env s' st := by
  intro hstate
  obtain ⟨p, hp, hsale, hfailed, hlive⟩ := hst hstate
  refine ⟨p, hp, hsale, hfailed, fun hl => ?_⟩
  unfold Marked
  rw [h.listed, h.db]
  exact hlive hl

theorem jobFits_fresh {st : StoredJob} (h : Fresh env live st)
    (hlisted : Listed env s live.userId live.reservationId) : JobFits env s st := by
  obtain ⟨hstate, hclass⟩ := h
  refine fun _ => ⟨repairPayload env live, by rw [hstate]; exact hclass, rfl, fun hf => ?_,
    fun _ => .inl hlisted⟩
  rw [hstate] at hf
  cases hf

theorem Fresh.own {st : StoredJob} (h : Fresh env live st) {p : OrdersQueueJobPayload}
    (hp : assertOrdersQueueJobPayload st.job.data = .ok p) : p.saleId = env.SALE_ID := by
  have hdata := (classifyQueueEntry_ok h.2).2.1
  rw [hp] at hdata
  obtain rfl := Except.ok.inj hdata
  rfl

/-! ## The loop over the ledger -/

theorem run_reconcileBuyerMembership (s : Stores) (u : String) :
    (Store.reconcileBuyerMembership env.SALE_ID u).run Stores.answer s =
      some (.ok (reconcileMembership (s.sales env.SALE_ID) u).1,
        s.setSale env.SALE_ID (reconcileMembership (s.sales env.SALE_ID) u).2) := by
  unfold Store.reconcileBuyerMembership
  rw [assertSaleId_env]
  exact Prog.run_call (o := Call.reconcileMembership env.SALE_ID u) rfl

/-- The stores after a turn of the ledger loop: a repaired slot and a membership. -/
def entryCovered (env : WorkerEnv) (s : Stores) (u : String) (q : JobQueue) : Stores :=
  ({ s with queue := q } : Stores).setSale env.SALE_ID
    (reconcileMembership (s.sales env.SALE_ID) u).2

/-- A turn of the ledger loop without an incident covers its entry. -/
theorem ends_coverEntry (hd : s.queue.Distinct) (acc : Recovery) (entry : ReservationEntry) :
    Ends (coverEntry env acc entry) (fun acc' s' => acc'.incidents = [] → acc' = acc ∧
      ∃ q, SlotRepaired env entry s.queue q ∧ s' = entryCovered env s entry.userId q ∧
        (PersistedAs (acc.byUser entry.userId) entry.reservationId ∨
          q.Covers (env.jobId entry.userId) entry.reservationId)) s := by
  unfold coverEntry
  dsimp only
  split_ifs with hrow
  · refine .bind_of_ok (run_reconcileBuyerMembership s entry.userId) (.pure fun _ => ?_)
    refine ⟨rfl, s.queue, ⟨fun _ _ => rfl, hd, fun _ hst => .inl hst⟩, rfl, .inl ?_⟩
    obtain ⟨row, hbyUser, hrow⟩ := (Option.any_eq_true _ _).1 hrow
    simp only [Bool.and_eq_true, decide_eq_true_eq] at hrow
    exact ⟨row, hbyUser, hrow.2, hrow.1⟩
  · refine .bind (ends_ensureLiveReservationQueued hd (.inl rfl)) fun coverage t ht => ?_
    obtain ⟨⟨q, rfl, hq⟩, hcoverage⟩ := ht
    refine .bind_of_ok (run_reconcileBuyerMembership _ entry.userId) (.pure fun hnone => ?_)
    unfold Recovery.pushCollision at hnone ⊢
    split_ifs at hnone ⊢ with hretained
    · exact absurd hnone (Recovery.push_incidents _ _)
    · refine ⟨rfl, q, hq, rfl, ?_⟩
      rcases hcoverage with hcoverage | hcoverage
      · exact absurd hcoverage hretained
      · exact hcoverage

theorem kept_pushCollision {acc : Recovery} {coverage : EnsureLiveQueueResult} {u : String}
    (h : (acc.pushCollision coverage u).incidents = []) : acc.incidents = [] := by
  unfold Recovery.pushCollision at h
  split_ifs at h
  · exact absurd h (Recovery.push_incidents _ _)
  · exact h

theorem kept_coverEntry (acc : Recovery) (entry : ReservationEntry) :
    Ends (coverEntry env acc entry) (fun acc' _ => acc'.incidents = [] → acc.incidents = []) s := by
  unfold coverEntry
  dsimp only
  split_ifs
  · exact .bind (P := fun _ _ => True) (fun _ _ _ => trivial) fun _ _ _ => .pure fun h => h
  · refine .bind (P := fun _ _ => True) (fun _ _ _ => trivial) fun _ _ _ => ?_
    exact .bind (P := fun _ _ => True) (fun _ _ _ => trivial) fun _ _ _ => .pure kept_pushCollision

section LedgerLoop

variable {s₁ : Stores} {ledger todo : List ReservationEntry} {acc₀ acc : Recovery}

/-- The entries of a scanned ledger with one user are one entry. -/
theorem LedgerScanned.eq_of_userId (h : LedgerScanned env s ledger) {e e' : ReservationEntry}
    (he : e ∈ ledger) (he' : e' ∈ ledger) (hu : e.userId = e'.userId) : e = e' := by
  obtain ⟨u, v, hv, hp⟩ := h.sound e he
  obtain ⟨u', v', hv', hp'⟩ := h.sound e' he'
  obtain rfl : u = u' := by
    rw [← (parseReservationEntry_ok hp).1, ← (parseReservationEntry_ok hp').1, hu]
  rw [hv] at hv'
  obtain rfl := Option.some.inj hv'
  rw [hp] at hp'
  exact Except.ok.inj hp'

theorem OnLedger.listed {e : ReservationEntry} (h : OnLedger env s e) :
    Listed env s e.userId e.reservationId := by
  obtain ⟨u, v, hv, hp⟩ := h
  obtain ⟨rfl, hr⟩ := parseReservationEntry_ok hp
  exact ⟨v, hv, hr.symm⟩

/-- What holds in the ledger loop of a pass without incidents: `todo` is left of `ledger`. -/
structure Covering (env : WorkerEnv) (s₁ : Stores) (acc₀ : Recovery)
    (ledger todo : List ReservationEntry) (acc : Recovery) (s : Stores) : Prop where
  carried : acc = acc₀
  byUser : ∀ u row, acc.byUser u = some row → s.db.row? u = some row
  same : SameEntries env s₁ s
  distinct : s.queue.Distinct
  own : ∀ st ∈ s.queue.jobs, ∀ p, assertOrdersQueueJobPayload st.job.data = .ok p →
    p.saleId = env.SALE_ID
  jobs : ∀ st ∈ s.queue.jobs, JobFits env s st
  part : ∀ e ∈ todo, e ∈ ledger
  done : ∀ e ∈ ledger, e ∈ todo ∨ Covered env s e.userId e.reservationId ∧
    (s.sales env.SALE_ID).buyers.sismember e.userId = true

theorem sameEntries_entryCovered (env : WorkerEnv) (s : Stores) (u : String) (q : JobQueue) :
    SameEntries env s (entryCovered env s u q) := by
  refine ⟨rfl, ?_, ?_⟩
  all_goals
    unfold entryCovered
    rw [Stores.sales_setSale]
  · exact (reconcileMembership_keys _ u).1
  · exact (reconcileMembership_keys _ u).2

/-- The membership of a user of the ledger is added, and no other changes. -/
theorem sismember_entryCovered {u r : String} (h : Listed env s u r) (q : JobQueue) (v : String) :
    ((entryCovered env s u q).sales env.SALE_ID).buyers.sismember v =
      (decide (v = u) || (s.sales env.SALE_ID).buyers.sismember v) := by
  unfold entryCovered
  rw [Stores.sales_setSale]
  unfold reconcileMembership
  rw [if_pos h.hexists]
  exact KeySet.sismember_sadd

/-- A repair of another slot keeps an entry covered. -/
theorem Covered.repaired {u r : String} {q : JobQueue} (h : Covered env s u r)
    (hq : SlotRepaired env live s.queue q) (hne : u ≠ live.userId)
    (hqueue : s'.queue = q) (hdb : s'.db = s.db) : Covered env s' u r := by
  rcases h with h | ⟨st, hst, hcov⟩
  · exact .inl (hdb ▸ h)
  · refine .inr ⟨st, ?_, hcov⟩
    rw [hqueue, hq.others _ fun e => hne (WorkerEnv.jobId_inj e), hst]

theorem Covering.turn (h : Covering env s₁ acc₀ ledger (live :: todo) acc s)
    (hscan : LedgerScanned env s₁ ledger) :
    Ends (coverEntry env acc live) (fun acc' s' => acc'.incidents = [] →
      Covering env s₁ acc₀ ledger todo acc' s') s := by
  refine (ends_coverEntry h.distinct acc live).mono fun acc' s' hturn hnone => ?_
  obtain ⟨rfl, q, hq, rfl, hcovered⟩ := hturn hnone
  have hlive : live ∈ ledger := h.part live (by simp)
  have hlisted : Listed env s live.userId live.reservationId :=
    h.same.listed.2 (hscan.sound live hlive).listed
  have hsame := sameEntries_entryCovered env s live.userId q
  have hnew : Covered env (entryCovered env s live.userId q) live.userId live.reservationId := by
    rcases hcovered with ⟨row, hrow, hid, hst⟩ | hcovered
    · refine .inl ⟨row, ?_, hid, hst⟩
      rw [hsame.db]
      exact h.byUser _ _ hrow
    · exact .inr hcovered
  refine ⟨h.carried, fun u row hrow => h.byUser u row hrow, h.same.trans hsame, hq.distinct,
    fun st hst p hp => ?_, fun st hst => ?_, fun e he => h.part e (by simp [he]), fun e he => ?_⟩
  · rcases hq.jobs st hst with hst | hst
    · exact h.own st hst p hp
    · exact hst.own hp
  · rcases hq.jobs st hst with hst | hst
    · exact hsame.jobFits (h.jobs st hst)
    · exact hsame.jobFits (jobFits_fresh hst hlisted)
  · rw [sismember_entryCovered hlisted]
    by_cases hu : e.userId = live.userId
    · obtain rfl := hscan.eq_of_userId he hlive hu
      exact .inr ⟨hnew, by simp⟩
    · rcases h.done e he with htodo | ⟨hcov, hbuyer⟩
      · rcases List.mem_cons.1 htodo with rfl | htodo
        · exact absurd rfl hu
        · exact .inl htodo
      · exact .inr ⟨hcov.repaired hq hu rfl hsame.db, by simp [hbuyer]⟩

/-- The ledger loop without an incident covers every entry. -/
theorem ends_coverEntries (hscan : LedgerScanned env s₁ ledger)
    (h : acc.incidents = [] → Covering env s₁ acc₀ ledger ledger acc s) :
    Ends (Prog.forEach ledger acc (coverEntry env)) (fun acc' s' => acc'.incidents = [] →
      Covering env s₁ acc₀ ledger [] acc' s') s :=
  ends_healthyLoop (Covering env s₁ acc₀ ledger) (fun live acc _ => kept_coverEntry acc live)
    (fun _ _ _ _ h => h.turn hscan) h

end LedgerLoop

end

end FlashSale
