import FlashSale.Worker.SystemPrograms

/-!
# Runs of the order pipeline

`System.Ok` is the invariant of the whole system: that of the stores, and for every running program
that the rest of it meets its guarantees. `Ok.step` says that every event keeps it, and `Ok.run`
that every run does. With `clean := False` it is the invariant of all runs, with `clean := True`
that of the runs whose events are `Event.Clean`.
-/

namespace FlashSale

open Redis
open Shared

/-! ## Clean events -/

/-- The next call rolls back the transaction of `resolveFailed`. -/
def rollsBack : Option (WorkerM Unit) → Bool
  | some (.op (.sql 0 .rollback) _) => true
  | _ => false

/-- The event ends no transaction of `resolveFailed` that has released a reservation without
committing it, and adds no job of the API for a user who is neither in the ledger nor marked with
the reservation of the job. -/
def Event.Clean (env : WorkerEnv) (w : System) : Event → Prop
  | .maintain _ => rollsBack w.maintenance = true → w.pendingRelease = none
  | .abandon => w.pendingRelease = none
  | .apiAdd i => ∀ p ∈ w.adds[i]?, w.slot env p.userId = none →
    (w.ledger env p.userId).isSome ∨ w.stores.db.RowIs p.userId p.reservationId .compensated
  | _ => True

instance (env : WorkerEnv) (w : System) (e : Event) : Decidable (e.Clean env w) :=
  match e with
  | .maintain _ => inferInstanceAs (Decidable (_ → _ = _))
  | .abandon => inferInstanceAs (Decidable (_ = _))
  | .apiAdd i => inferInstanceAs (Decidable (∀ p ∈ w.adds[i]?, w.slot env p.userId = none →
      (w.ledger env p.userId).isSome ∨ w.stores.db.RowIs p.userId p.reservationId .compensated))
  | .tick _ | .rehash _ _ | .seed | .purchase _ _ _ | .apiDrop _ | .deliver _ | .attemptStep _ _
  | .settle _ | .crash _ | .stall _ | .promote _ | .resume | .startPass _ | .startSweep
  | .startBoot _ _ | .finish => isTrue trivial

namespace System

variable {env : WorkerEnv} {clean : Prop} {w w' : System} {s s' : Shared} {c : ℕ}

/-- An attempt that is under way: the job is that of an order, the slot the attempt has locked holds
it, and the rest of the attempt meets its guarantees. -/
structure AttemptOk (env : WorkerEnv) (clean : Prop) (c : ℕ) (a : Attempt)
    (p : OrdersQueueJobPayload) (s : Shared) : Prop where
  client : c ≠ 0
  token : c < s.nextToken
  good : GoodJob env s.confirmed a.job p
  slot : ∀ st, s.slot env p.userId = some st → st.lock = some c → st.job.data = a.job.data
  rest : a.rest.wp (attemptLogic env clean c p)
    (Prog.post (fun _ => AttemptDone env c p) fun _ _ => True) s

/-- The invariant of the system. -/
structure Ok (env : WorkerEnv) (clean : Prop) (w : System) : Prop where
  inv : w.SysInv env clean
  tokens : 0 < w.nextToken
  fresh : ∀ c, w.nextToken ≤ c → w.stores.db.tx? c = none
  attempts : ∀ c a, w.attempts c = some a → ∃ p, AttemptOk env clean c a p w.toShared
  maintenance : ∀ m, w.maintenance = some m →
    m.wp (passLogic env clean) (fun _ s => s.stores.db.tx? 0 = none) w.toShared
  idle : w.maintenance = none → w.stores.db.tx? 0 = none

theorem AttemptOk.rely {a : Attempt} {p : OrdersQueueJobPayload}
    (h : AttemptOk env clean c a p s) (hr : AttemptRely env c p s s')
    (hn : s.nextToken ≤ s'.nextToken) : AttemptOk env clean c a p s' where
  client := h.client
  token := lt_of_lt_of_le h.token hn
  good := h.good.mono hr.confirmed
  slot st' hst' hl' := by
    obtain ⟨st, hst, hl, hc⟩ := hr.locks st' hst' hl'
    rw [hc.data]
    exact h.slot st hst hl
  rest := Prog.wp_rely h.rest hr

/-- The attempts of others after a step of `c`. -/
theorem Ok.others (h : w.Ok env clean) (hh : Harmless env clean c w.toShared s')
    (hn : w.nextToken ≤ s'.nextToken) :
    ∀ d a, d ≠ c → w.attempts d = some a → ∃ p, AttemptOk env clean d a p s' := by
  intro d a hd ha
  obtain ⟨p, hp⟩ := h.attempts d a ha
  exact ⟨p, hp.rely (hh.attempts d p hd hp.client hp.token hp.good.payload) hn⟩

/-- A step of nobody's program. -/
theorem Ok.outside (h : w.Ok env clean) (hh : Harmless env clean 0 w.toShared s')
    (hr : PassRely env w.toShared s') (hn : s'.nextToken = w.nextToken)
    (htx : ∀ c, s'.stores.db.tx? c = w.stores.db.tx? c) : (w.onShared s').Ok env clean where
  inv := hh.inv
  tokens := by
    show 0 < s'.nextToken
    rw [hn]
    exact h.tokens
  fresh c hc := (htx c).trans (h.fresh c (hn ▸ hc))
  attempts d a ha := by
    obtain ⟨p, hp⟩ := h.attempts d a ha
    exact h.others hh hn.ge d a hp.client ha
  maintenance m hm := Prog.wp_rely (h.maintenance m hm) hr
  idle hm := (htx 0).trans (h.idle hm)

/-- A turn of the queue by nobody's program. -/
theorem Ok.turn (h : w.Ok env clean) {q : JobQueue} {New : StoredJob → Prop}
    (ht : w.stores.queue.Turn q none (fun _ => False) New)
    (hnew : ∀ st, New st → NewJob env clean w.toShared q st ∧
      w.stores.queue.nextSeq ≤ st.job.seq) : (w.onShared (w.setQueue q)).Ok env clean :=
  h.outside (.turn h.inv ht (fun _ hg => hg.elim) fun st hst => (hnew st hst).1)
    (.turn w.nextToken ht fun st hst => (hnew st hst).2) rfl fun _ => rfl

theorem attempts_dropAttempt (w : System) (c d : ℕ) :
    (w.dropAttempt c).attempts d = if d = c then none else w.attempts d :=
  Function.update_apply ..

theorem attempts_setAttempt (w : System) (c d : ℕ) (a : Attempt) :
    (w.setAttempt c a).attempts d = if d = c then some a else w.attempts d :=
  Function.update_apply ..

/-- The end of an attempt. -/
theorem Ok.dropAttempt (h : w.Ok env clean) (c : ℕ) : (w.dropAttempt c).Ok env clean := by
  refine ⟨h.inv, h.tokens, h.fresh, fun d a ha => ?_, h.maintenance, h.idle⟩
  rw [attempts_dropAttempt] at ha
  split_ifs at ha
  exact h.attempts d a ha

theorem Ok.start (h : w.Ok env clean) {α : Type} {program : WorkerM α}
    (hp : w.stores.db.tx? 0 = none → program.wp (passLogic env clean)
      (fun _ s => s.stores.db.tx? 0 = none) w.toShared) : (w.start program).Ok env clean := by
  unfold System.start
  cases hm : w.maintenance with
  | some m => exact h
  | none =>
    refine ⟨h.inv, h.tokens, h.fresh, h.attempts, fun m hm' => ?_, fun hn => ?_⟩
    · obtain rfl := Option.some.inj hm'
      refine Prog.wp_bind (Prog.wp_mono (hp (h.idle hm)) ?_)
      rintro (e | a) s - htx
      · exact htx
      · exact fun s' hr _ => hr.db.tx.trans htx
    · cases hn

theorem Ok.deliver (h : w.Ok env clean) {jobId : String} {job : Job} {q : JobQueue}
    (hq : w.stores.queue.deliver jobId w.nextToken = some (job, q)) :
    ((w.onShared { w.setQueue q with nextToken := w.nextToken + 1 }).setAttempt w.nextToken
      ⟨job, process w.nextToken job⟩).Ok env clean := by
  have ht : w.stores.queue.Turn q (some w.nextToken) (fun _ => False) (fun _ => False) :=
    .deliver h.inv.1.distinct h.inv.1.locked hq
  obtain ⟨st, hst, -, rfl, rfl⟩ := JobQueue.deliver_cases hq
  obtain ⟨hmem, hid⟩ := JobQueue.find_some hst
  obtain ⟨-, p, hp⟩ := h.inv.1.jobs st hmem
  have hinv := h.inv.turn (w.nextToken + 1) ht (Nat.le_succ _)
    (by rintro c ⟨⟩; exact Nat.lt_succ_self _) (fun _ hg => hg.elim) fun _ hn => hn.elim
  refine ⟨hinv, Nat.succ_pos _, fun c hc => h.fresh c (Nat.le_of_succ_le hc), fun d a ha => ?_,
    fun m hm => Prog.wp_rely (h.maintenance m hm) (.turn _ ht fun _ hn => hn.elim), h.idle⟩
  rw [attempts_setAttempt] at ha
  split_ifs at ha with hd
  · obtain rfl := Option.some.inj ha
    subst hd
    refine ⟨p, h.tokens.ne', Nat.lt_succ_self _, hp, fun st' hst' hl' => ?_, ?_⟩
    · have hfind := JobQueue.find_move w.stores.queue
        { st with state := .active, lock := some w.nextToken } (env.jobId p.userId)
      rw [if_pos hp.id.symm] at hfind
      obtain rfl := Option.some.inj (hfind.symm.trans hst')
      rfl
    · exact wp_process h.tokens.ne' hinv.1 hp (h.fresh _ le_rfl)
  · obtain ⟨p', hp'⟩ := h.attempts d a ha
    refine ⟨p', hp'.rely (.turn _ ht ?_ fun _ hn => hn.elim) (Nat.le_succ _)⟩
    rintro ⟨⟩
    exact hd rfl

/-- A step of the client `c`, without its attempt. -/
theorem Ok.client (h : w.Ok env clean) (hc : c ≠ 0) (hh : Harmless env clean c w.toShared s')
    (hr : PassRely env w.toShared s') (hn : s'.nextToken = w.nextToken)
    (htx : ∀ d, d ≠ c → s'.stores.db.tx? d = w.stores.db.tx? d)
    (hfresh : s'.nextToken ≤ c → s'.stores.db.tx? c = none) :
    ((w.onShared s').dropAttempt c).Ok env clean := by
  refine ⟨hh.inv, ?_, fun d hd => ?_, fun d a ha => ?_,
    fun m hm => Prog.wp_rely (h.maintenance m hm) hr, fun hm => (htx 0 hc.symm).trans (h.idle hm)⟩
  · show 0 < s'.nextToken
    rw [hn]
    exact h.tokens
  · by_cases hdc : d = c
    · subst hdc
      exact hfresh hd
    · exact (htx d hdc).trans (h.fresh d (hn ▸ hd))
  · rw [attempts_dropAttempt] at ha
    split_ifs at ha with hdc
    exact h.others hh hn.ge d a hdc ha

theorem Ok.setAttempt {a : Attempt} {p : OrdersQueueJobPayload}
    (h : (w.dropAttempt c).Ok env clean) (ha : AttemptOk env clean c a p w.toShared) :
    (w.setAttempt c a).Ok env clean := by
  refine ⟨h.inv, h.tokens, h.fresh, fun d b hb => ?_, h.maintenance, h.idle⟩
  rw [attempts_setAttempt] at hb
  split_ifs at hb with hd
  · obtain rfl := Option.some.inj hb
    subst hd
    exact ⟨p, ha⟩
  · refine h.attempts d b ?_
    rw [attempts_dropAttempt, if_neg hd]
    exact hb

theorem Ok.attemptStep (h : w.Ok env clean) {fault : Fault} {job : Job} {o : Call}
    {k : Except Failure o.Res → WorkerM Unit} (ha : w.attempts c = some ⟨job, .op o k⟩)
    {r : Except Failure o.Res} (hcall : w.call fault o = some (r, s')) :
    ((w.onShared s').setAttempt c ⟨job, k r⟩).Ok env clean := by
  obtain ⟨p, hp⟩ := h.attempts c _ ha
  obtain ⟨hpre, hk⟩ := hp.rest w.toShared (.refl env c p _) ⟨h.inv, hp.good.payload⟩
  obtain ⟨hh, hr⟩ := attempt_call h.inv hp.client hpre hcall
  have hn : s'.nextToken = w.nextToken := nextToken_call hcall
  have hgood := hp.good.mono hr.confirmed
  have hqueue := hpre.queue hcall
  refine (h.client hp.client hh hr hn (fun d hd => tx?_call hcall ?_) fun hle => ?_).setAttempt
    ⟨hp.client, ?_, hgood, fun st hst hl => hp.slot st ?_ hl,
      hk r s' ⟨fault, hcall⟩ ⟨hh.inv, hgood.payload⟩⟩
  · rintro stm rfl
    exact hd hpre.1
  · exact absurd hp.token (Nat.not_lt.2 (hn ▸ hle))
  · show c < s'.nextToken
    rw [hn]
    exact hp.token
  · unfold Shared.slot at *
    rw [← hqueue]
    exact hst

/-- A worker dies: its transaction is rolled back. -/
theorem Ok.crash (h : w.Ok env clean) (hc : c ≠ 0) :
    ((w.onShared { w.toShared with
      stores := { w.stores with db := w.stores.db.endTx c } }).dropAttempt c).Ok env clean := by
  have hcall : w.call .none (.sql c .rollback) = some (.ok (), { w.toShared with
      stores := { w.stores with db := w.stores.db.endTx c } }) := by
    obtain ⟨c, rfl⟩ := Nat.exists_eq_succ_of_ne_zero hc
    rfl
  have hpre : AttemptPre env c (.sql c .rollback) w.toShared :=
    ⟨rfl, trivial, by simp [Statement.payload?], by simp, by simp⟩
  obtain ⟨hh, hr⟩ := attempt_call h.inv hc hpre hcall
  exact h.client hc hh hr rfl (fun d hd => tx?_call hcall (by simp [Ne.symm hd]))
    fun _ => Db.tx?_endTx_self

theorem Ok.maintain (h : w.Ok env clean) {fault : Fault} {o : Call}
    {k : Except Failure o.Res → WorkerM Unit} (hm : w.maintenance = some (.op o k))
    {r : Except Failure o.Res} (hcall : w.call fault o = some (r, s'))
    (hroll : clean → o = .sql 0 .rollback → w.pendingRelease = none) :
    Ok env clean { w.onShared s' with maintenance := some (k r) } := by
  obtain ⟨hpre, hk⟩ := h.maintenance _ hm w.toShared (.refl env _) h.inv
  have hh := pass_call h.inv hpre hcall hroll
  have hn : s'.nextToken = w.nextToken := nextToken_call hcall
  refine ⟨hh.inv, ?_, fun c hc => ?_, fun d a ha => ?_, fun m' hm' => ?_, fun hm' => ?_⟩
  · show 0 < s'.nextToken
    rw [hn]
    exact h.tokens
  · replace hc : w.nextToken ≤ c := hn ▸ hc
    refine (tx?_call hcall ?_).trans (h.fresh c hc)
    rintro stm rfl
    obtain rfl := hpre.1
    exact absurd h.tokens (Nat.not_lt.2 hc)
  · obtain ⟨p, hp⟩ := h.attempts d a ha
    exact h.others hh hn.ge d a hp.client ha
  · obtain rfl := Option.some.inj hm'
    exact hk r s' ⟨⟨fault, hcall⟩, hroll⟩ hh.inv
  · cases hm'

/-- The program under the session lock stops where it is: its transaction is rolled back. -/
theorem Ok.abandon (h : w.Ok env clean) (hrel : clean → w.pendingRelease = none) :
    (w.step env .abandon).Ok env clean := by
  have hguard : SqlGuard env w.toShared 0 .rollback :=
    ⟨trivial, by simp [Statement.payload?], by simp, by simp⟩
  have hh : Harmless env clean 0 w.toShared
      ((w.toShared.note (.sql 0 .rollback)).setDb (w.stores.db.endTx 0)) :=
    .sql h.inv hguard (fun _ e => by cases e) (fun hcl _ => hrel hcl) (r := .ok ()) rfl
  refine ⟨hh.inv, h.tokens, fun c hc => ?_, fun d a ha => ?_, fun m hm => ?_,
    fun _ => Db.tx?_endTx_self⟩
  · have hc : w.nextToken ≤ c := hc
    refine (Db.tx?_endTx_of_ne ?_).trans (h.fresh c hc)
    rintro rfl
    exact absurd h.tokens (Nat.not_lt.2 hc)
  · obtain ⟨p, hp⟩ := h.attempts d a ha
    exact h.others hh le_rfl d a hp.client ha
  · cases hm

theorem Ok.finish (h : w.Ok env clean) : (w.step env .finish).Ok env clean := by
  have hdone : w.stores.db.tx? 0 = none → Ok env clean { w with maintenance := none } := by
    intro h0
    refine ⟨h.inv, h.tokens, h.fresh, h.attempts, fun m hm => ?_, fun _ => h0⟩
    cases hm
  have hm := h.maintenance
  rw [System.step]
  cases he : w.maintenance with
  | none => exact hdone (h.idle he)
  | some m =>
    cases m with
    | op o k => exact h
    | pure a => exact hdone (hm _ he w.toShared (.refl env _) h.inv)
    | throw e => exact hdone (hm _ he w.toShared (.refl env _) h.inv)

theorem Ok.settle (h : w.Ok env clean) (c : ℕ) : (w.step env (.settle c)).Ok env clean := by
  rw [System.step]
  cases ha : w.attempts c with
  | none => exact h
  | some a =>
    obtain ⟨job, rest⟩ := a
    cases rest with
    | op o k => exact h
    | pure a =>
      exact (h.turn (.complete h.inv.1.distinct h.inv.1.locked job.id c)
        fun _ hn => False.elim hn).dropAttempt c
    | throw e =>
      exact (h.turn (.fail h.inv.1.distinct h.inv.1.locked job.id c e.message)
        fun _ hn => False.elim hn).dropAttempt c

theorem Ok.purchase (h : w.Ok env clean) (u id requestId : String) :
    (w.step env (.purchase u id requestId)).Ok env clean := by
  have hinv := h.inv.purchase u id requestId
  rw [System.step]
  rcases w.toShared.purchase_inv env u id requestId with
    ⟨x, e, hx⟩ | ⟨x, -, e, hp, hid, -, hfresh⟩
  · have hres : x.reservations = (w.sale env).reservations := by
      rcases hx with rfl | ⟨-, rfl⟩
      · rfl
      · rfl
    rw [e] at hinv ⊢
    exact h.outside (.same_entries hinv hres)
      (.of_frame (.refl 0 _) (by rw [sale_setSale]; exact hres) rfl rfl rfl) rfl fun _ => rfl
  · rw [e] at hinv ⊢
    exact h.outside ⟨hinv, fun d p _ _ _ hp' => .confirm hp' hid hp hfresh⟩
      (.confirm hid hp hfresh) rfl fun _ => rfl

theorem Ok.seed (h : w.Ok env clean) : (w.step env .seed).Ok env clean := by
  have hres : (FlashSale.seed (w.sale env) env.sale env.sale.totalStock).2.reservations =
      (w.sale env).reservations := by
    rcases seed_cases (w.sale env) env.sale env.sale.totalStock with ⟨-, -, e⟩ | ⟨-, -, e⟩
    · rw [e]
    · rw [e]
  exact h.outside (.same_entries h.inv.seed hres)
    (.of_frame (.refl 0 _) (by rw [sale_setSale]; exact hres) rfl rfl rfl) rfl fun _ => rfl

theorem Ok.aside (h : w.Ok env clean) (time : RedisTime) (ledgerBucket buyerBucket : String → ℕ)
    {adds : List OrdersQueueJobPayload} (hadds : ∀ q ∈ adds, q ∈ w.adds) :
    (w.onShared (w.toShared.aside time ledgerBucket buyerBucket w.stores.failedScanOffset
      w.stores.db.sales adds)).Ok env clean := by
  obtain ⟨hh, hr⟩ := harmless_aside h.inv time ledgerBucket buyerBucket
    w.stores.failedScanOffset w.stores.db.sales hadds
  exact h.outside hh hr rfl fun _ => rfl

theorem Ok.apiAdd (h : w.Ok env clean) {i : ℕ} (hcl : clean → (Event.apiAdd i).Clean env w) :
    (w.step env (.apiAdd i)).Ok env clean := by
  rw [System.step]
  cases hp : w.adds[i]? with
  | none => exact h
  | some p =>
    have herase : ∀ q ∈ w.adds.eraseIdx i, q ∈ w.adds := fun q hq => List.mem_of_mem_eraseIdx hq
    have hadd : (w.onShared (w.toShared.enqueue p)).Ok env clean ∧
        (w.toShared.enqueue p).adds = w.adds := by
      unfold Shared.enqueue
      split
      case h_2 => exact ⟨h, rfl⟩
      case h_1 q id hq hid =>
        refine ⟨?_, rfl⟩
        obtain ⟨hv, rfl⟩ := assertOrdersQueueJobPayload_toJs_ok hq
        obtain ⟨-, rfl⟩ := buildOrdersJobId_ok hid
        obtain ⟨hsale, hconf⟩ := h.inv.1.adds q (List.mem_of_getElem? hp)
        rw [hsale]
        have ht : w.stores.queue.Turn (w.stores.queue.add (env.jobId q.userId)
            PERSIST_ORDER_JOB_NAME q.toJs ORDERS_JOB_ATTEMPTS) none (fun _ => False)
            (fun st => NewJob env clean w.toShared _ st ∧
              w.stores.queue.nextSeq ≤ st.job.seq) :=
          .add h.inv.1.distinct h.inv.1.locked _ _ _ _ fun hfree =>
            ⟨.add ⟨hv, hsale, hconf⟩ hfree fun hc => hcl hc q hp hfree, le_rfl⟩
        exact h.turn ht fun _ hn => hn
    exact hadd.1.aside (w.toShared.enqueue p).stores.time
      (w.toShared.enqueue p).stores.ledgerBucket (w.toShared.enqueue p).stores.buyerBucket
      (hadd.2 ▸ herase)

theorem Ok.startBoot (h : w.Ok env clean) (polls fuel : ℕ) :
    (w.start (bootPass env polls fuel)).Ok env clean := by
  refine h.start fun htx => Prog.wp_mono (passLogic_boot.wp_bootPass polls fuel htx) ?_
  rintro (e | a) s - hs
  · exact hs
  · exact hs

theorem Ok.startPass (h : w.Ok env clean) (fuel : ℕ) :
    (w.start (runDiff env fuel)).Ok env clean := by
  refine h.start fun htx => Prog.wp_mono (passLogic_sweep.wp_runDiff fuel h.inv htx) ?_
  rintro (e | a) s - hs
  · exact hs
  · exact hs

/-- **The step lemma.** Every event keeps the invariant, and a clean event that of clean runs. -/
theorem Ok.step (h : w.Ok env clean) {e : Event} (he : clean → e.Clean env w) :
    (w.step env e).Ok env clean := by
  have hnone : ∀ {q : JobQueue}, w.stores.queue.Turn q none (fun _ => False) (fun _ => False) →
      (w.onShared (w.setQueue q)).Ok env clean := fun ht => h.turn ht fun _ hn => hn.elim
  have hd := h.inv.1.distinct
  have hl := h.inv.1.locked
  cases e with
  | tick time => exact h.aside time _ _ fun _ hq => hq
  | rehash ledgerBucket buyerBucket => exact h.aside _ _ _ fun _ hq => hq
  | seed => exact h.seed
  | purchase u id requestId => exact h.purchase u id requestId
  | apiAdd i => exact h.apiAdd he
  | apiDrop i => exact h.aside _ _ _ fun _ hq => List.mem_of_mem_eraseIdx hq
  | deliver jobId =>
    rw [System.step]
    cases hq : w.stores.queue.deliver jobId w.nextToken with
    | none => exact h
    | some r => exact h.deliver hq
  | attemptStep c fault =>
    rw [System.step]
    split
    case h_2 => exact h
    case h_1 job o k ha =>
      cases hcall : w.call fault o with
      | none => exact h
      | some r => exact h.attemptStep ha hcall
  | settle c => exact h.settle c
  | crash c =>
    rw [System.step]
    split_ifs with hc
    · exact h
    · exact h.crash hc
  | stall jobId => exact hnone (.stall hd hl jobId)
  | promote jobId => exact hnone (.promote hd hl jobId)
  | resume => exact hnone (.pause hd hl false)
  | startPass fuel => exact h.startPass fuel
  | startSweep => exact h.start fun htx => passLogic_sweep.wp_sweepFailed h.inv htx
  | startBoot polls fuel => exact h.startBoot polls fuel
  | maintain fault =>
    rw [System.step]
    split
    case h_2 => exact h
    case h_1 o k hm =>
      cases hcall : w.call fault o with
      | none => exact h
      | some r =>
        refine h.maintain hm hcall fun hc e => ?_
        subst e
        exact he hc (by rw [hm]; rfl)
  | finish => exact h.finish
  | abandon => exact h.abandon he

/-! ## Runs -/

/-- Every event of the run is clean where it happens. -/
def CleanRun (env : WorkerEnv) : System → List Event → Prop
  | _, [] => True
  | w, e :: es => e.Clean env w ∧ CleanRun env (w.step env e) es

instance (env : WorkerEnv) : (w : System) → (es : List Event) → Decidable (CleanRun env w es)
  | _, [] => isTrue trivial
  | w, e :: es =>
    have := instDecidableCleanRun env (w.step env e) es
    inferInstanceAs (Decidable (e.Clean env w ∧ CleanRun env (w.step env e) es))

theorem Ok.run (h : w.Ok env clean) (es : List Event) (hes : clean → CleanRun env w es) :
    (w.run env es).Ok env clean := by
  induction es generalizing w with
  | nil => exact h
  | cons e es ih => exact ih (h.step fun hc => (hes hc).1) fun hc => (hes hc).2

theorem Ok.empty (env : WorkerEnv) (clean : Prop) (time : RedisTime)
    (ledgerBucket buyerBucket : String → ℕ) (hashtext : String → ℕ) :
    (System.empty time ledgerBucket buyerBucket hashtext).Ok env clean := by
  have htx : ∀ c, (System.empty time ledgerBucket buyerBucket hashtext).stores.db.tx? c = none :=
    fun c => rfl
  have hpend : ∀ c w,
      (System.empty time ledgerBucket buyerBucket hashtext).stores.db.pending c ≠ some w := by
    intro c w hw
    rw [Db.pending_none (htx c)] at hw
    cases hw
  have hrow : ∀ u id st,
      ¬ (System.empty time ledgerBucket buyerBucket hashtext).stores.db.RowIs u id st := by
    rintro u id st ⟨row, hrow, -⟩
    cases hrow
  have hconf : ∀ c, c ∉ (System.empty time ledgerBucket buyerBucket hashtext).confirmed :=
    fun _ => List.not_mem_nil
  refine ⟨⟨⟨.idle List.nodup_nil htx, ?_, ?_, ?_, ?_, ?_, ?_, ?_, JobQueue.distinct_empty, ?_, ?_, ?_,
    ?_, ?_, ?_, ?_⟩, fun _ => ⟨?_, ?_, ?_, ?_, ?_, ?_, conserved_empty⟩⟩, Nat.one_pos,
    fun c _ => htx c, ?_, ?_, fun _ => htx 0⟩
  · exact fun c hc => absurd hc (hconf c)
  · exact fun c hc => absurd hc (hconf c)
  · exact fun c hc => absurd hc (hconf c)
  · intro cfg h; cases h
  · intro u; rfl
  · intro u v h; cases h
  · intro p h; cases h
  · intro st h; cases h
  · intro st h; cases h
  · intro row h; cases h
  · exact fun c w hw => absurd hw (hpend c w)
  · exact fun u id h => absurd h (hrow u id _)
  · exact fun w hw => absurd hw (hpend 0 w)
  · exact fun c row _ hw => absurd hw (hpend c _)
  · exact fun c hc => absurd hc (hconf c)
  · intro u id h; cases h
  · intro u id h; cases h
  · intro u st id h; cases h
  · exact fun u id h => absurd h (hrow u id _)
  · exact fun c w _ hw => absurd hw (hpend c w)
  · intro c a h; cases h
  · intro m h; cases h

end System
end FlashSale
