import FlashSale.Worker.ReconciliationLogic

/-!
# The proof outline of the sweep, of the pass and of the boot pass

A failed job stays in its slot until the program under the session lock removes it, so a page of
failed jobs is still what it was when the sweep comes to it; `swept jobs` says so of the jobs that
are left. After the sweep the outline of `runDiff` is complete, and `bootPass` is one that first
makes sure the sale is seeded.
-/

namespace FlashSale

open Prog (Logic)

variable {S : Type} {env : WorkerEnv} {L : Logic Call Call.Res Failure S} {stores : S → Stores}
  {O : Outline S} {s : S} {α β : Type}

/-! ## The sweep -/

/-- What a system gives the sweep, beside what it gives the comparison. -/
structure SweepLogic (env : WorkerEnv) (L : Logic Call Call.Res Failure S) (stores : S → Stores)
    (O : Outline S) : Prop extends DiffLogic env L stores O where
  distinct : ∀ s, L.inv s → (stores s).queue.Distinct
  failedKept : ∀ s s' id st, L.rely s s' → L.inv s' → (stores s).queue.find id = some st →
    st.state = .failed → (stores s').queue.find id = some st
  sweptNil : ∀ s, L.inv s → O.ok s → O.swept [] s
  sweptOk : ∀ s jobs, O.swept jobs s → O.ok s
  sweptTail : ∀ s job jobs, O.swept (job :: jobs) s → O.swept jobs s
  sweptRely : ∀ jobs, L.Kept (O.swept jobs)
  sweptRead : ∀ jobs o s r s', (o.isRead = true ∨ ∃ n, o = .setFailedScanOffset n) → L.inv s →
    O.swept jobs s → L.step o s r s' → L.inv s' → O.swept jobs s'
  sweptLook : ∀ s jobs st, L.inv s → O.swept jobs s → st.state = .failed →
    (stores s).queue.find st.job.id = some st → (∀ job ∈ jobs, job.id ≠ st.job.id) →
    O.swept (jobs ++ [st.job]) s
  offsetPre : ∀ s n, L.inv s → L.pre (.setFailedScanOffset n) s
  resolve : ∀ s job jobs sj, L.inv s → O.swept (job :: jobs) s →
    classifyQueueEntry job .failed = .ok sj →
    (resolveFailed 0 sj.payload (Store.compensate sj.payload.saleId sj.payload.userId
      sj.payload.reservationId)).wp L
      (Prog.post (fun _ s => O.swept (job :: jobs) s ∧ O.removable job s)
        fun _ => O.swept (job :: jobs)) s
  removableRely : ∀ job, L.Kept (O.removable job)
  sweepRemove : ∀ s job jobs, L.inv s → O.swept (job :: jobs) s → O.removable job s →
    L.pre (.removeJob job) s ∧
      ∀ r s', L.step (.removeJob job) s r s' → L.inv s' → O.swept jobs s'

namespace SweepLogic

/-- A read of the sweep, or a write of its scan offset. -/
theorem wp_local (hL : SweepLogic env L stores O) {o : Call} {f : o.Res → WorkerM α}
    {Q : Except Failure α → S → Prop} {jobs : List Job} (A : S → Prop) (hA : L.Kept A)
    (ho : o.isRead = true ∨ ∃ n, o = .setFailedScanOffset n) (h : O.swept jobs s) (hs : A s)
    (herr : ∀ e s, O.swept jobs s → Q (.error e) s)
    (hok : ∀ a s s', L.inv s → A s → L.step o s (.ok a) s' → L.inv s' → O.swept jobs s' →
      (f a).wp L Q s') :
    ((request o).bind f).wp L Q s := by
  refine Prog.wp_call_bind (fun s => O.swept jobs s ∧ A s) ⟨h, hs⟩
    (fun s s' h hr hi => ⟨hL.sweptRely jobs s s' h.1 hr hi, hA s s' h.2 hr hi⟩) ?_
  rintro s hi ⟨h, hs⟩
  have hpre : L.pre o s := by
    rcases ho with ho | ⟨n, rfl⟩
    · exact hL.readPre o s ho hi
    · exact hL.offsetPre s n hi
  refine ⟨hpre, fun r s' hstep hi' => ?_⟩
  have h' := hL.sweptRead jobs o s r s' ho hi h hstep hi'
  cases r with
  | error e => exact fun s'' hr hi'' => herr e s'' (hL.sweptRely jobs s' s'' h' hr hi'')
  | ok a => exact hok a s s' hi hs hstep hi' h'

/-- A read leaves the stores as they are. -/
theorem read_stores (hL : SweepLogic env L stores O) {o : Call} (ho : o.isRead = true) {s s' : S}
    {a : o.Res} (hstep : L.step o s (.ok a) s') :
    stores s' = stores s ∧ (stores s).perform o = some (.ok a, stores s) := by
  obtain ⟨fault, hf⟩ := hL.step hstep
  obtain ⟨b, hb⟩ := (stores s).perform_read ho
  obtain ⟨hs, hr⟩ := Stores.performWith_read hb hf
  rcases hr with hr | hr
  · obtain rfl := Except.ok.inj hr
    exact ⟨hs, hb⟩
  · cases hr

/-- The ids are those of failed jobs. -/
def FailedIds (stores : S → Stores) (ids : List String) (s : S) : Prop :=
  ∀ id, id ∈ ids → ∃ st, (stores s).queue.find id = some st ∧ st.state = .failed

theorem failedIds_kept (hL : SweepLogic env L stores O) (ids : List String) :
    L.Kept (FailedIds stores ids) := by
  intro s s' h hr hi id hid
  obtain ⟨st, hst, hf⟩ := h id hid
  exact ⟨st, hL.failedKept s s' id st hr hi hst hf, hf⟩

/-- The page of failed jobs: every slot still holds its job, failed. -/
theorem wp_getFailedJobs (hL : SweepLogic env L stores O) (start stop : ℕ) (h : O.swept [] s) :
    (getJobs .failed start stop).wp L
      (Prog.post (fun found s => ∃ jobs : List Job, found = jobs.map some ∧ O.swept jobs s)
        fun _ => O.ok) s := by
  refine hL.wp_local (fun _ => True) (fun _ _ _ _ _ => trivial) (.inl rfl) h trivial
    (fun e s h => hL.sweptOk s [] h) fun ids s s' hi _ hstep hi' h => ?_
  obtain ⟨hstores, hread⟩ := hL.read_stores rfl hstep
  have hids : (stores s').queue.getRange .failed start stop = ids := by
    rw [hstores]
    simpa [Stores.perform, Stores.read] using hread
  have hdist := hL.distinct s' hi'
  have hnodup : ids.Nodup := by
    rw [← hids]
    exact JobQueue.getRange_nodup hdist _ _ _
  have hfailed : FailedIds stores ids s' := by
    intro id hid
    rw [← hids] at hid
    exact JobQueue.getRange_mem hdist hid
  -- the jobs loaded so far have ids that are not among those still to load
  refine Prog.wp_forEach (fun ids found s => ∃ jobs : List Job, found = jobs.map some ∧
    O.swept jobs s ∧ FailedIds stores ids s ∧ ids.Nodup ∧ ∀ job ∈ jobs, job.id ∉ ids) ?_ ?_ ?_
    ⟨[], rfl, h, hfailed, hnodup, by simp⟩
  · rintro ids found s s' ⟨jobs, rfl, h, hf, hn, hd⟩ hr hi
    exact ⟨jobs, rfl, hL.sweptRely jobs s s' h hr hi, hL.failedIds_kept ids s s' hf hr hi, hn, hd⟩
  · rintro id ids found s hi ⟨jobs, rfl, h, hf, hn, hd⟩
    refine hL.wp_local (FailedIds stores (id :: ids)) (hL.failedIds_kept _) (.inl rfl) h hf
      (fun e s h => hL.sweptOk s jobs h) fun job s s' hi hf hstep hi' h => ?_
    obtain ⟨hstores, hread⟩ := hL.read_stores rfl hstep
    obtain ⟨st, hst, hstate⟩ := hf id List.mem_cons_self
    have hjob : job = some st.job := by
      have hg : (stores s).queue.getJob id = job := by
        simpa [Stores.perform, Stores.read] using hread
      rw [← hg, JobQueue.getJob, hst]
      rfl
    have hid := (JobQueue.find_some hst).2
    have hlook : O.swept (jobs ++ [st.job]) s' := by
      refine hL.sweptLook s' jobs st hi' h hstate (by rw [hstores, hid]; exact hst) ?_
      intro j hj e
      exact hd j hj (by rw [e, hid]; exact List.mem_cons_self)
    have hrest : FailedIds stores ids s' := by
      intro id' hid'
      rw [show stores s' = stores s from hstores]
      exact hf id' (List.mem_cons_of_mem _ hid')
    rw [List.nodup_cons] at hn
    intro s'' hr hi''
    refine ⟨jobs ++ [st.job], by rw [hjob]; simp, hL.sweptRely _ s' s'' hlook hr hi'',
      hL.failedIds_kept ids s' s'' hrest hr hi'', hn.2, ?_⟩
    intro j hj
    rcases List.mem_append.1 hj with hj | hj
    · exact fun hmem => hd j hj (List.mem_cons_of_mem _ hmem)
    · rw [List.mem_singleton.1 hj, hid]
      exact hn.1
  · rintro found s - ⟨jobs, rfl, h, -⟩
    exact ⟨jobs, rfl, h⟩

theorem wp_resolveJob (hL : SweepLogic env L stores O) (acc : Sweep) {job : Job} {jobs : List Job}
    {sj : ScannedJob} (h : O.swept (job :: jobs) s)
    (hc : classifyQueueEntry job .failed = .ok sj) :
    (resolveJob acc job sj.payload).wp L (fun _ => O.swept jobs) s := by
  have htail : ∀ s, O.swept (job :: jobs) s → O.swept jobs s := fun s => hL.sweptTail s job jobs
  refine hL.wp_local (fun _ => True) (fun _ _ _ _ _ => trivial) (.inl rfl) h trivial
    (fun e => htail) fun state _ s _ _ _ hi h => ?_
  split_ifs
  · exact fun s' hr hi' => htail s' (hL.sweptRely _ s s' h hr hi')
  · refine Prog.wp_bind (Prog.wp_mono (hL.resolve s job jobs sj hi h hc) ?_)
    rintro (e | outcome) s hi h
    · exact htail s h
    · refine Prog.wp_call_bind (fun s => O.swept (job :: jobs) s ∧ O.removable job s) h
        (fun s s' h hr hi => ⟨hL.sweptRely _ s s' h.1 hr hi, hL.removableRely job s s' h.2 hr hi⟩) ?_
      rintro s hi ⟨h, hrem⟩
      obtain ⟨hpre, hstep⟩ := hL.sweepRemove s job jobs hi h hrem
      refine ⟨hpre, fun r s' hs hi' => ?_⟩
      have h' := hstep r s' hs hi'
      cases r with
      | error e => exact fun s'' hr hi'' => hL.sweptRely jobs s' s'' h' hr hi''
      | ok _ => exact fun s'' hr hi'' => hL.sweptRely jobs s' s'' h' hr hi''

theorem wp_sweepJob (hL : SweepLogic env L stores O) (acc : Sweep) {job : Job} {jobs : List Job}
    (h : O.swept (job :: jobs) s) :
    (sweepJob acc (some job)).wp L (fun _ => O.swept jobs) s := by
  dsimp only [sweepJob]
  cases hc : classifyQueueEntry job .failed with
  | error issue =>
    exact fun s' hr hi => hL.sweptTail s' job jobs (hL.sweptRely _ s s' h hr hi)
  | ok sj =>
    refine Prog.wp_catchWith (Prog.wp_mono (hL.wp_resolveJob acc h hc) ?_)
    rintro (e | acc') s - h
    · exact fun s' hr hi => hL.sweptRely jobs s s' h hr hi
    · exact h

theorem wp_sweepPage (hL : SweepLogic env L stores O) (start : ℕ) (h : O.swept [] s) :
    (sweepPage env start).wp L
      (Prog.post (fun page s => ∃ jobs : List Job, page.2 = jobs.map some ∧ O.swept jobs s)
        fun _ => O.ok) s := by
  refine Prog.wp_bind (Prog.wp_mono (hL.wp_getFailedJobs start _ h) ?_)
  rintro (e | found) s hi hfound
  · exact hfound
  obtain ⟨jobs, rfl, h⟩ := hfound
  show Prog.wp L (if (jobs.map some).isEmpty then _ else _) _ s
  split_ifs with hempty
  · refine Prog.wp_bind (Prog.wp_mono (hL.wp_getFailedJobs 0 _
      (hL.sweptNil s hi (hL.sweptOk s jobs h))) ?_)
    rintro (e | found) s hi hfound
    · exact hfound
    obtain ⟨jobs, rfl, h⟩ := hfound
    exact fun s' hr hi => ⟨jobs, rfl, hL.sweptRely jobs s s' h hr hi⟩
  · exact fun s' hr hi => ⟨jobs, rfl, hL.sweptRely jobs s s' h hr hi⟩

/-- **The sweep.** -/
theorem wp_sweepFailed (hL : SweepLogic env L stores O) (hi : L.inv s) (hok : O.ok s) :
    (sweepFailed env).wp L (fun _ => O.ok) s := by
  have herr : ∀ (e : Failure) s, O.swept [] s → O.ok s := fun _ s h => hL.sweptOk s [] h
  refine hL.wp_local (fun _ => True) (fun _ _ _ _ _ => trivial) (.inl rfl)
    (hL.sweptNil s hi hok) trivial herr fun totalBefore _ s _ _ _ _ h => ?_
  split_ifs
  · refine hL.wp_local (fun _ => True) (fun _ _ _ _ _ => trivial) (.inr ⟨0, rfl⟩) h trivial herr
      fun _ _ s _ _ _ _ h => ?_
    exact fun s' hr hi => hL.sweptOk s' [] (hL.sweptRely _ s s' h hr hi)
  · refine hL.wp_local (fun _ => True) (fun _ _ _ _ _ => trivial) (.inl rfl) h trivial herr
      fun offset _ s _ _ _ _ h => ?_
    refine Prog.wp_bind (Prog.wp_mono (hL.wp_sweepPage _ h) ?_)
    rintro (e | ⟨start, failed⟩) s hi hpage
    · exact hpage
    obtain ⟨jobs, hjobs, h⟩ := hpage
    dsimp only at hjobs
    subst hjobs
    refine Prog.wp_bind (Prog.wp_forEach (fun rest (_ : Sweep) s =>
      ∃ jobs : List Job, rest = jobs.map some ∧ O.swept jobs s) ?_ ?_ ?_ ⟨jobs, rfl, h⟩)
    · rintro rest acc s s' ⟨jobs, rfl, h⟩ hr hi
      exact ⟨jobs, rfl, hL.sweptRely jobs s s' h hr hi⟩
    · rintro found rest acc s hi ⟨jobs, hjobs, h⟩
      obtain ⟨job, jobs, rfl⟩ := List.exists_cons_of_ne_nil (l := jobs) (by rintro rfl; cases hjobs)
      obtain ⟨rfl, rfl⟩ := List.cons.inj hjobs
      refine Prog.wp_mono (hL.wp_sweepJob acc h) ?_
      rintro (e | acc') s' - h'
      · exact hL.sweptOk s' jobs h'
      · exact ⟨jobs, rfl, h'⟩
    · rintro acc s hi ⟨jobs', -, h⟩
      refine hL.wp_local (fun _ => True) (fun _ _ _ _ _ => trivial) (.inl rfl) h trivial
        (fun e s h => hL.sweptOk s jobs' h) fun totalAfter _ s _ _ _ _ h => ?_
      refine hL.wp_local (fun _ => True) (fun _ _ _ _ _ => trivial) (.inr ⟨_, rfl⟩) h trivial
        (fun e s h => hL.sweptOk s jobs' h) fun _ _ s _ _ _ _ h => ?_
      have hend : ∀ s', L.rely s s' → L.inv s' → O.ok s' := fun s' hr hi =>
        hL.sweptOk s' jobs' (hL.sweptRely _ s s' h hr hi)
      exact Prog.wp_throwIf (fun _ => hend) fun _ => hend

/-! ## The pass -/

theorem wp_finishDiff (hL : SweepLogic env L stores O) {rows : List DurableOrder} (issues : ℕ)
    (acc : Recovery) (hok : O.ok s) (hrows : O.rows rows s)
    (hled : RowsInLedger env stores rows s) :
    (finishDiff env issues acc).wp L (fun _ => O.ok) s := by
  have hcount : ∀ {β : Type} {o : Call} {f : o.Res → WorkerM β} {s : S}, o.isRead = true →
      O.ok s → L.inv s → (∀ a s, O.ok s → L.inv s → (f a).wp L (fun _ => O.ok) s) →
      ((request o).bind f).wp L (fun _ => O.ok) s := by
    intro β o f s ho hok hi hf
    refine hL.wp_local (fun _ => True) (fun _ _ _ _ _ => trivial) (.inl ho)
      (hL.sweptNil s hi hok) trivial (fun _ s h => hL.sweptOk s [] h) ?_
    exact fun a _ s _ _ _ hi h => hf a s (hL.sweptOk s [] h) hi
  have hstock : (Store.reconcileStockFromReservations env.SALE_ID).wp (O.logic env L)
      (returns fun _ _ => True) s :=
    DiffLogic.wp_check fun _ _ => hL.wp_last _
      ((hL.rowsMono rows).and (hL.rowsInLedgerMono rows)) ⟨hrows, hled⟩ hok
      .reconcileState fun s hi hok h => hL.statePre s rows hi hok h.1 h.2
  refine Prog.wp_mono (hL.wp_then (fun _ => True) (O.mono_const _) trivial hok hstock
    fun stock s hi hok _ _ => ?_) (Q := Prog.post (fun _ => O.ok) fun _ => O.ok) ?_
  · refine Prog.wp_throwIf (fun _ s' hr hi' => ?_) fun _ => ?_
    · exact hL.okMono s s' hok (hL.growRely hr hi') hi'
    · refine Prog.wp_bind (Prog.wp_mono (hL.wp_sweepFailed hi hok) ?_)
      rintro (e | dlq) s hi hok
      · exact hok
      refine Prog.wp_mono (hcount rfl hok hi fun _ s hok hi => hcount rfl hok hi
        fun _ s hok hi s' hr hi' => hL.okMono s s' hok (hL.growRely hr hi') hi') ?_
      rintro (e | a) s - hok
      · exact hok
      · exact hok
  · rintro (e | a) s - hok
    · exact hok
    · exact hok

/-- **The pass.** -/
theorem wp_runDiff (hL : SweepLogic env L stores O) (fuel : ℕ) (hi : L.inv s) (hok : O.ok s) :
    (runDiff env fuel).wp L (Prog.post (fun _ => O.ok) fun _ => O.ok) s := by
  refine hL.wp_then (fun _ => True) (O.mono_const _) trivial hok
    (hL.wp_scanOrders fuel hok (hL.scanStart s hi hok)) fun rows s hi hok _ hrows => ?_
  refine hL.wp_then _ (hL.rowsMono rows) hrows hok (hL.wp_scanJobs fuel hok)
    fun scan s hi hok hrows hjobs => ?_
  refine hL.wp_then _ ((hL.rowsMono rows).and (hL.jobsMono scan)) ⟨hrows, hjobs⟩ hok
    (hL.wp_recoverRows hok hrows) fun acc s hi hok hframe hacc => ?_
  have hmono := (hL.rowsMono rows).and (hL.rowsInLedgerMono rows)
  refine hL.wp_then _ hmono ⟨hframe.1, hacc.2⟩ hok
    (hL.wp_recoverJobs hok hframe.1 hacc.1 hframe.2) fun acc s hi hok hframe _ => ?_
  refine hL.wp_then _ hmono hframe hok (hL.wp_scanLedger fuel hok (by simp))
    fun ledger s hi hok hframe hledger => ?_
  refine hL.wp_then _ hmono hframe hok (hL.wp_coverLedger hok hledger)
    fun acc s hi hok hframe _ => ?_
  refine hL.wp_then _ hmono hframe hok (hL.wp_checkBuyers fuel hok)
    fun acc s hi hok hframe _ => ?_
  refine Prog.wp_mono (hL.wp_finishDiff _ acc hok hframe.1 hframe.2) ?_
  rintro (e | a) s - hok
  · exact hok
  · exact hok

end SweepLogic

/-! ## Boot -/

/-- The calls of `bootPass` before its comparison. -/
inductive BootCall (env : WorkerEnv) : Call → Prop where
  | read {o : Call} (h : o.isRead = true) : BootCall env o
  | pause : BootCall env .pause
  | insertSale : BootCall env (.insertSale (saleRow env.sale))
  | seed : BootCall env (.seed env.SALE_ID env.sale env.sale.totalStock)

/-- What a system gives the boot pass, beside what it gives a pass. -/
structure BootLogic (env : WorkerEnv) (L : Logic Call Call.Res Failure S) (stores : S → Stores)
    (O : Outline S) : Prop extends SweepLogic env L stores O where
  bootKept : L.Kept O.boot
  bootPre : ∀ o s, BootCall env o → L.inv s → O.boot s → L.pre o s
  bootStep : ∀ o s r s', BootCall env o → L.inv s → O.boot s → L.step o s r s' → L.inv s' →
    O.boot s'
  bootReady : ∀ s, L.inv s → O.boot s → ((stores s).sales env.SALE_ID).config.isSome → O.ok s
  okBoot : ∀ s, O.ok s → O.boot s

namespace BootLogic

/-- The rule of a call before the comparison. -/
theorem wp_call (hL : BootLogic env L stores O) {o : Call} {f : o.Res → WorkerM α}
    {P : α → S → Prop} (ho : BootCall env o) (h : O.boot s)
    (hok : ∀ a s s', L.inv s → L.step o s (.ok a) s' → L.inv s' → O.boot s' →
      (f a).wp L (Prog.post P fun _ => O.boot) s') :
    ((request o).bind f).wp L (Prog.post P fun _ => O.boot) s := by
  refine Prog.wp_call_bind O.boot h hL.bootKept fun s hi h =>
    ⟨hL.bootPre o s ho hi h, fun r s' hstep hi' => ?_⟩
  have h' := hL.bootStep o s r s' ho hi h hstep hi'
  cases r with
  | error e => exact fun s'' hr hi'' => hL.bootKept s' s'' h' hr hi''
  | ok a => exact hok a s s' hi hstep hi' h'

theorem wp_throwIf (hL : BootLogic env L stores O) {P : Prop} [Decidable P] {e : Failure}
    {f : Unit → WorkerM α} {R : α → S → Prop} (h : O.boot s)
    (hf : ¬ P → (f ()).wp L (Prog.post R fun _ => O.boot) s) :
    ((Prog.throwIf P e).bind f).wp L (Prog.post R fun _ => O.boot) s :=
  Prog.wp_throwIf (fun _ s' hr hi => hL.bootKept s s' h hr hi) hf

/-- The rule of a sequence before the comparison. -/
theorem wp_seq {p : WorkerM α} {f : α → WorkerM β} {P : α → S → Prop}
    {Q : β → S → Prop} (hp : p.wp L (Prog.post P fun _ => O.boot) s)
    (hf : ∀ a s, L.inv s → P a s → (f a).wp L (Prog.post Q fun _ => O.boot) s) :
    (p.bind f).wp L (Prog.post Q fun _ => O.boot) s := by
  refine Prog.wp_bind (Prog.wp_mono hp ?_)
  rintro (e | a) s hi h
  · exact h
  · exact hf a s hi h

theorem wp_drainActive (hL : BootLogic env L stores O) (polls : ℕ) (h : O.boot s) :
    (drainActive polls).wp L (Prog.post (fun _ => O.boot) fun _ => O.boot) s := by
  induction polls generalizing s with
  | zero => exact fun s' hr hi => hL.bootKept s s' h hr hi
  | succ polls ih =>
    refine hL.wp_call (.read rfl) h fun active _ s _ _ _ h => ?_
    split_ifs
    · exact fun s' hr hi => hL.bootKept s s' h hr hi
    · exact ih h

theorem wp_ensureSale (hL : BootLogic env L stores O) (h : O.boot s) :
    (ensureSale env).wp L (Prog.post (fun _ => O.boot) fun _ => O.boot) s := by
  refine hL.wp_call .insertSale h fun _ _ s _ _ _ h => ?_
  refine hL.wp_call (.read rfl) h fun row _ s _ _ _ h => ?_
  unfold Prog.throwIf
  split_ifs
  · exact fun s' hr hi => hL.bootKept s s' h hr hi
  · exact fun s' hr hi => hL.bootKept s s' h hr hi

/-- The status of an initialised sale makes the pass ready to go on. -/
theorem wp_status (hL : BootLogic env L stores O) (h : O.boot s) :
    (Store.status env.SALE_ID).wp L (Prog.post (fun snapshot s => O.boot s ∧
      (snapshot.initialized = true → O.ok s)) fun _ => O.boot) s := by
  unfold Store.status
  rw [assertSaleId_env]
  refine hL.wp_call (.read rfl) h fun raw s s' _ hstep hi' h' => ?_
  obtain ⟨hstores, hread⟩ := hL.read_stores rfl hstep
  have hraw : statusScript ((stores s).sales env.SALE_ID) (stores s).time = raw := by
    simpa [Stores.perform, Stores.read] using hread
  refine Prog.wp_ofExcept fun s'' hr hi'' => ?_
  have h'' := hL.bootKept s' s'' h' hr hi''
  cases hd : decodeStatus raw with
  | error e => exact h''
  | ok snapshot =>
    refine ⟨h'', fun hinit => ?_⟩
    have hstatus : ((stores s).sales env.SALE_ID).status (stores s).time = .ok snapshot := by
      unfold Sale.status; rw [hraw]; exact hd
    obtain ⟨cfg, hcfg, -⟩ := (status_ok hstatus).2 hinit
    have hok : O.ok s' := hL.bootReady s' hi' h' (by rw [hstores, hcfg]; rfl)
    exact hL.okMono s' s'' hok (hL.growRely hr hi'') hi''

/-- The sale is seeded by this call or was before. -/
theorem wp_seed (hL : BootLogic env L stores O) (h : O.boot s) :
    (Store.seed env.sale).wp L (Prog.post (fun _ => O.ok) fun _ => O.boot) s := by
  unfold Store.seed
  rw [assertSaleId_env]
  refine hL.wp_throwIf h fun _ => ?_
  refine Prog.wp_call O.boot h hL.bootKept fun s hi h =>
    ⟨hL.bootPre _ s .seed hi h, fun r s' hstep hi' s'' hr hi'' => ?_⟩
  have h' := hL.bootStep _ s r s' .seed hi h hstep hi'
  cases r with
  | error e => exact hL.bootKept s' s'' h' hr hi''
  | ok reply =>
    have hok : O.ok s' := by
      refine hL.bootReady s' hi' h' ?_
      obtain ⟨fault, hp⟩ := hL.step hstep
      obtain ⟨-, hs'⟩ := Prod.mk.inj (Option.some.inj (Stores.performWith_ok hp))
      rw [← hs']
      simp only [Stores.setSale, Function.update_self]
      rcases seed_cases ((stores s).sales env.SALE_ID) env.sale env.sale.totalStock with
        ⟨-, -, e⟩ | ⟨hc, -, e⟩
      · rw [e]; rfl
      · rw [e]; exact hc
    exact hL.okMono s' s'' hok (hL.growRely hr hi'') hi''

theorem wp_seedOrCompare (hL : BootLogic env L stores O) {snapshot : SaleSnapshot}
    (h : O.boot s) (hinit : snapshot.initialized = true → O.ok s) :
    (seedOrCompare env snapshot).wp L (Prog.post (fun _ => O.ok) fun _ => O.boot) s := by
  have hkept : ∀ {s}, O.ok s → ∀ s', L.rely s s' → L.inv s' → O.ok s' :=
    fun hok s' hr hi => hL.okMono _ s' hok (hL.growRely hr hi) hi
  have hthrow : ∀ {P : Prop} [Decidable P] {e : Failure} {s}, O.ok s →
      (Prog.throwIf P e : WorkerM Unit).wp L (Prog.post (fun _ => O.ok) fun _ => O.boot) s := by
    intro P _ e s hok
    unfold Prog.throwIf
    split_ifs
    · exact fun s' hr hi => hL.okBoot s' (hkept hok s' hr hi)
    · exact hkept hok
  unfold seedOrCompare
  split_ifs with hs
  · exact wp_seq (hL.wp_seed h) fun _ s _ hok => hthrow hok
  · exact hthrow (hinit (by simpa using hs))

/-- **The boot pass.** -/
theorem wp_bootPass (hL : BootLogic env L stores O) (polls fuel : ℕ) (h : O.boot s) :
    (bootPass env polls fuel).wp L (Prog.post (fun _ => O.boot) fun _ => O.boot) s := by
  refine hL.wp_call .pause h fun _ _ s _ _ _ h => ?_
  refine hL.wp_call (.read rfl) h fun paused _ s _ _ _ h => hL.wp_throwIf h fun _ => ?_
  refine wp_seq (hL.wp_drainActive polls h) fun _ s _ h => ?_
  refine wp_seq (hL.wp_ensureSale h) fun _ s _ h => ?_
  refine wp_seq (hL.wp_status h) fun snapshot s _ h => ?_
  refine wp_seq (hL.wp_seedOrCompare h.1 h.2) fun _ s hi hok => ?_
  refine Prog.wp_mono (hL.wp_runDiff fuel hi hok) ?_
  rintro (e | r) s - hok
  · exact hL.okBoot s hok
  · exact hL.okBoot s hok

end BootLogic

end FlashSale
