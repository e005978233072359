import FlashSale.Worker.HealthySweep

/-!
# A healthy pass and the one after it

A pass that returns without a finding has put the stores in order: `Balanced` holds of what it
leaves. On balanced stores without a failed job a pass finds every row, job, entry and buyer as it
should be, so the next one returns and changes nothing.
-/

namespace FlashSale

open Redis

section

variable {env : WorkerEnv} {s s' : Stores} {acc : Recovery}

/-! ## The phases of a healthy pass -/

/-- The recovery that the loop over the rows starts with. -/
def startRecovery (env : WorkerEnv) (s : Stores) : Recovery :=
  ⟨mapOf (·.userId) (saleRows env s), fun _ => none, []⟩

/-- The recovery that the loop over the ledger starts with. -/
def ledgerRecovery (env : WorkerEnv) (s : Stores) (ledger : List ReservationEntry) : Recovery :=
  { startRecovery env s with ledgerByUser := mapOf (·.userId) ledger }

theorem startRecovery_marks (husers : (s.db.orders.map (·.userId)).Nodup) {u r : String} :
    (startRecovery env s).Marks u r ↔ Marked env s u r := by
  constructor
  · rintro ⟨row, hrow, hst, hid⟩
    obtain ⟨hrow, hsale⟩ := (mapOf_saleRows husers).1 hrow
    exact ⟨row, hrow, hsale, hst, hid⟩
  · rintro ⟨row, hrow, hsale, hst, hid⟩
    exact ⟨row, (mapOf_saleRows husers).2 ⟨hrow, hsale⟩, hst, hid⟩

/-- What the two recovery loops leave when neither they nor the scan of the queue found fault. -/
structure Recovered (env : WorkerEnv) (s s₁ : Stores) : Prop where
  grown : Grown env s s₁
  issues : (scannedQueue s.queue).issues = []
  rows : ∀ row ∈ saleRows env s, row.status = .persisted →
    Store.assertCompareRestoreReservationInput row.candidate = .ok () ∧
      Listed env s₁ row.userId row.id
  jobs : ∀ item ∈ (scannedQueue s.queue).jobs, item.state.isLive = true →
    Listed env s₁ item.payload.userId item.payload.reservationId ∨
      (startRecovery env s).Marks item.payload.userId item.payload.reservationId

variable {s₁ : Stores} {ledger : List ReservationEntry}

theorem Recovered.jobFits (h : Recovered env s s₁) (hd : Drifted env s) {st : StoredJob}
    (hst : st ∈ s₁.queue.jobs) : JobFits env s₁ st := by
  intro hstate
  rw [h.grown.queue] at hst
  obtain ⟨item, hitem, hverdict⟩ := (reports_scannedQueue s.queue).all h.issues st ⟨hst, hstate⟩
  obtain ⟨hclass, hfailed⟩ := StoredJob.verdict_ok hverdict
  obtain ⟨heq, hdata, -⟩ := classifyQueueEntry_ok hclass
  refine ⟨item.payload, by rw [hclass, ← heq], hd.own st hst _ hdata, hfailed, fun hl => ?_⟩
  have hlive : item.state.isLive = true := by
    rw [heq]
    exact hl
  refine (h.jobs item hitem hlive).imp_right fun hm => ?_
  unfold Marked
  rw [h.grown.db]
  exact (startRecovery_marks hd.users).1 hm

theorem Recovered.covering (h : Recovered env s s₁) (hd : Drifted env s) :
    Covering env s₁ (ledgerRecovery env s ledger) ledger ledger (ledgerRecovery env s ledger) s₁
    where
  carried := rfl
  byUser u row hrow := by
    rw [h.grown.db]
    exact ((mapOf_saleRows hd.users).1 hrow).1
  same := .refl env s₁
  distinct := by
    rw [h.grown.queue]
    exact hd.distinct
  own st hst := hd.own st (h.grown.queue ▸ hst)
  jobs _ hst := h.jobFits hd hst
  part _ he := he
  done _ he := .inl he

theorem mem_of_mapOf {α : Type} {key : α → String} {items : List α} {k : String} {item : α}
    (h : mapOf key items k = some item) : item ∈ items ∧ key item = k := by
  have hm := List.mem_of_find?_eq_some h
  have hk := List.find?_some h
  exact ⟨by simpa using hm, by simpa using hk⟩

/-- The users of a scanned ledger are those that have an entry. -/
theorem LedgerScanned.isSome_mapOf (h : LedgerScanned env s ledger) (u : String) :
    (mapOf (·.userId) ledger u).isSome = (s.sales env.SALE_ID).reservations.hexists u := by
  rw [Bool.eq_iff_iff]
  constructor
  · intro hsome
    obtain ⟨e, he⟩ := Option.isSome_iff_exists.1 hsome
    obtain ⟨hm, rfl⟩ := mem_of_mapOf he
    exact (h.sound e hm).listed.hexists
  · intro hex
    obtain ⟨v, hv⟩ := Option.isSome_iff_exists.1 hex
    obtain ⟨e, he, hp⟩ := h.complete u v hv
    by_contra hnone
    exact mapOf_eq_none.1 (Option.not_isSome_iff_eq_none.1 hnone) e he (parseReservationEntry_ok hp).1

/-- After the loop over the ledger the stores are repaired. -/
theorem Covering.repaired {acc₀ : Recovery} {s₂ : Stores}
    (h : Covering env s₁ acc₀ ledger [] acc s₂) (hr : Recovered env s s₁) (hd : Drifted env s)
    (hscan : LedgerScanned env s₁ ledger) : Repaired env s₂ := by
  have hdone : ∀ u r, Listed env s₂ u r → Covered env s₂ u r ∧
      (s₂.sales env.SALE_ID).buyers.sismember u = true := by
    intro u r hl
    obtain ⟨v, hv, hr⟩ := h.same.listed.1 hl
    obtain ⟨e, he, hp⟩ := hscan.complete u v hv
    obtain ⟨heu, her⟩ := parseReservationEntry_ok hp
    rcases h.done e he with hnil | hdone
    · cases hnil
    · rw [heu, her, hr] at hdone
      exact hdone
  have hdb : s₂.db = s.db := h.same.db.trans hr.grown.db
  refine ⟨⟨h.distinct, h.own, by rw [hdb]; exact hd.users, by rw [hdb]; exact hd.idle,
    by rw [h.same.config, hr.grown.config]; exact hd.total⟩, h.jobs,
    fun u v hv => ?_, fun u r hl => (hdone u r hl).1, fun row hrow hsale hst => ?_,
    fun u r hl => (hdone u r hl).2⟩
  · rw [h.same.ledger] at hv
    obtain ⟨e, -, hp⟩ := hscan.complete u v hv
    exact ⟨e, hp⟩
  · rw [hdb] at hrow
    obtain ⟨hc, hl⟩ := hr.rows row (mem_saleRows.2 ⟨hrow, hsale⟩) hst
    exact ⟨hc, h.same.listed.2 hl⟩

/-- The check of the buyers starts with nobody checked. -/
theorem Covering.checking {s₂ : Stores}
    (h : Covering env s₁ (ledgerRecovery env s ledger) ledger [] acc s₂)
    (hr : Recovered env s s₁) (hd : Drifted env s) (hscan : LedgerScanned env s₁ ledger) :
    Checking env s₂.buyerBucket (fun v => 0 ≤ s₂.buyerBucket v) acc s₂ where
  repaired := h.repaired hr hd hscan
  bucket := rfl
  ledgerByUser u := by
    rw [h.carried, h.same.ledger]
    exact hscan.isSome_mapOf u
  byUser := h.byUser
  left v _ := .inr (Nat.zero_le _)

/-- With every buyer checked the buyers are the users of the ledger. -/
theorem Checking.members {bucket : String → ℕ} (h : Checking env bucket (fun _ => False) acc s)
    (u : String) : (s.sales env.SALE_ID).buyers.sismember u =
      (s.sales env.SALE_ID).reservations.hexists u := by
  rw [Bool.eq_iff_iff]
  constructor
  · intro hu
    exact (h.left u hu).resolve_right fun h => h
  · intro hu
    obtain ⟨r, hl⟩ := listed_of_hexists hu
    exact h.repaired.buyers u r hl

/-! ## The stock -/

theorem run_reconcileStock (s : Stores) :
    (Store.reconcileStockFromReservations env.SALE_ID).run Stores.answer s =
      some (.ok (reconcileState (s.sales env.SALE_ID)).1,
        s.setSale env.SALE_ID (reconcileState (s.sales env.SALE_ID)).2) := by
  unfold Store.reconcileStockFromReservations
  rw [assertSaleId_env]
  exact Prog.run_call (o := Call.reconcileState env.SALE_ID) rfl

/-- `reconcile-state.lua` derives the stock of a sale that is not overcommitted. -/
theorem reconcileState_reconciled {x : Sale} (h : (reconcileState x).1.outcome = .reconciled)
    (htotal : ∀ cfg, x.config = some cfg →
      0 ≤ cfg.totalStock ∧ cfg.totalStock ≤ Number.MAX_SAFE_INTEGER) :
    ∃ cfg, x.config = some cfg ∧ (x.reservations.hlen : ℤ) ≤ cfg.totalStock ∧
      (reconcileState x).2 = { x with stock := some (cfg.totalStock - x.reservations.hlen) } := by
  cases hcfg : x.config with
  | none =>
    unfold reconcileState at h
    rw [hcfg] at h
    cases h
  | some cfg =>
    obtain ⟨h0, hsafe⟩ := htotal cfg hcfg
    rw [reconcileState_of_safe hcfg h0 hsafe] at h ⊢
    split_ifs at h ⊢ with hover
    exact ⟨cfg, rfl, by omega, by rw [hcfg]⟩

/-- Stores with the same ledger, rows, jobs and buyers are repaired alike. -/
theorem Repaired.same (h : Repaired env s) (hsame : SameEntries env s s')
    (hqueue : s'.queue = s.queue)
    (hbuyers : (s'.sales env.SALE_ID).buyers = (s.sales env.SALE_ID).buyers) : Repaired env s' := by
  have hd := h.drifted
  refine ⟨⟨by rw [hqueue]; exact hd.distinct, by rw [hqueue]; exact hd.own,
    by rw [hsame.db]; exact hd.users, by rw [hsame.db]; exact hd.idle,
    by rw [hsame.config]; exact hd.total⟩, fun st hst => ?_,
    fun u v hv => h.parses u v (hsame.ledger ▸ hv), fun u r hl => ?_, fun row hrow hsale hst => ?_,
    fun u r hl => ?_⟩
  · exact hsame.jobFits (h.jobs st (hqueue ▸ hst))
  · unfold Covered
    rw [hsame.db, hqueue]
    exact h.covered u r (hsame.listed.1 hl)
  · rw [hsame.db] at hrow
    exact ⟨(h.rows row hrow hsale hst).1, hsame.listed.2 (h.rows row hrow hsale hst).2⟩
  · rw [hbuyers]
    exact h.buyers u r (hsame.listed.1 hl)

/-- Repaired stores with the derived stock are balanced. -/
theorem Repaired.balanced (h : Repaired env s)
    (hmembers : ∀ u, (s.sales env.SALE_ID).buyers.sismember u =
      (s.sales env.SALE_ID).reservations.hexists u) {cfg : SaleConfig}
    (hcfg : (s.sales env.SALE_ID).config = some cfg)
    (hle : ((s.sales env.SALE_ID).reservations.hlen : ℤ) ≤ cfg.totalStock) :
    Balanced env (s.setSale env.SALE_ID { s.sales env.SALE_ID with
      stock := some (cfg.totalStock - (s.sales env.SALE_ID).reservations.hlen) }) := by
  have hsame : SameEntries env s (s.setSale env.SALE_ID { s.sales env.SALE_ID with
      stock := some (cfg.totalStock - (s.sales env.SALE_ID).reservations.hlen) }) := by
    refine ⟨rfl, ?_, ?_⟩
    all_goals rw [Stores.sales_setSale]
  refine ⟨h.same hsame rfl ?_, fun u => ?_, cfg, ?_, ?_, ?_⟩
  all_goals rw [Stores.sales_setSale]
  · exact hmembers u
  · exact hcfg
  · exact hle

/-- The end of a pass whose earlier phases found no fault. -/
theorem ends_finishDiff {issues : ℕ} (h : issues = 0 → acc.incidents = [] → Repaired env s ∧
      ∀ u, (s.sales env.SALE_ID).buyers.sismember u =
        (s.sales env.SALE_ID).reservations.hexists u) :
    Ends (finishDiff env issues acc) (fun res s' => res.degraded = false → Balanced env s') s := by
  unfold finishDiff
  refine .bind_of_ok (run_reconcileStock s) (.throwIf fun hok => ?_)
  by_cases hclean : issues = 0 ∧ acc.incidents = []
  · obtain ⟨hrepaired, hmembers⟩ := h hclean.1 hclean.2
    obtain ⟨cfg, hcfg, hle, hstate⟩ :=
      reconcileState_reconciled (not_not.1 hok) hrepaired.drifted.total
    rw [hstate]
    refine .bind (ends_sweepFailed (hrepaired.balanced hmembers hcfg hle)) fun dlq t ht => ?_
    refine .bind_of_ok (Prog.run_call (o := Call.countJobs .active) rfl) ?_
    exact .bind_of_ok (Prog.run_call (o := Call.countJobs .failed) rfl) (.pure fun _ => ht)
  · refine .bind (ends_trivial _) fun dlq t _ => .bind (ends_trivial _) fun _ t _ => ?_
    refine .bind (ends_trivial _) fun _ t _ => .pure fun hres => absurd ?_ hclean
    simp only [Bool.or_eq_false_iff, decide_eq_false_iff_not, Bool.not_eq_false'] at hres
    exact ⟨by omega, by simpa using hres.2⟩

theorem kept_coverEntries (entries : List ReservationEntry) (acc : Recovery) :
    Keeps acc (Prog.forEach entries acc (coverEntry env)) s := by
  refine .forEach (fun _ (acc' : Recovery) _ => acc'.incidents = [] → acc.incidents = [])
    (fun entry _ acc' s' h => ?_) fun h => h
  exact (kept_coverEntry acc' entry).mono fun _ _ h' hnone => h (h' hnone)

/-- A pass that returns without a finding leaves the stores balanced. -/
theorem ends_runDiff (h : Drifted env s) (fuel : ℕ) :
    Ends (runDiff env fuel) (fun res s' => res.degraded = false → Balanced env s') s := by
  unfold runDiff
  refine .bind (ends_scanOrders fuel) fun rows t ht => ?_
  obtain ⟨rfl, rfl⟩ := ht
  refine .bind (ends_scanJobs h.distinct fuel) fun scan s₀ ht => ?_
  obtain ⟨rfl, rfl⟩ := ht
  refine .bind (ends_recoverRows _ (startRecovery env s₀)) fun acc₁ s₁ hrows => ?_
  refine .bind (ends_recoverJobs _ acc₁) fun acc₂ s₂ hjobs => ?_
  refine .bind (ends_scanLedger fuel) fun ledger s₃ hs₃ => ?_
  obtain ⟨hscan, rfl⟩ := hs₃
  by_cases hclean : (scannedQueue s₀.queue).issues = [] ∧ acc₂.incidents = []
  · obtain ⟨hissues, hinc⟩ := hclean
    obtain ⟨rfl, hgrown₂, hjobs⟩ := hjobs hinc
    obtain ⟨rfl, hgrown₁, hrows⟩ := hrows hinc
    have hr : Recovered env s₀ s₃ := ⟨hgrown₁.trans hgrown₂, hissues, fun row hrow hst =>
      ⟨(hrows row hrow hst).1, hgrown₂.kept _ _ (hrows row hrow hst).2⟩, hjobs⟩
    refine .bind (ends_coverEntries hscan fun _ => hr.covering h) fun acc₄ s₄ hcovered => ?_
    have hstart : acc₄.incidents = [] → Checking env s₄.buyerBucket
        (fun v => 0 ≤ s₄.buyerBucket v) acc₄ s₄ :=
      fun hinc => (hcovered hinc).checking hr h hscan
    refine .bind (ends_checkBuyers fuel hstart) fun acc₅ s₅ hchecked => ?_
    exact ends_finishDiff fun _ hinc => ⟨(hchecked hinc).repaired, (hchecked hinc).members⟩
  · -- a finding of the first phases stays
    refine .bind (kept_coverEntries ledger _) fun acc₄ s₄ h₄ => ?_
    refine .bind (kept_checkBuyers fuel 0 acc₄) fun acc₅ s₅ h₅ => ?_
    exact ends_finishDiff fun hissues hinc =>
      absurd ⟨List.length_eq_zero_iff.1 hissues, h₄ (h₅ hinc)⟩ hclean

/-! ## A pass on balanced stores -/

/-- Balanced stores without a failed job, each entry of which has a live job or a persisted row of
the sale itself. -/
structure InOrder (env : WorkerEnv) (s : Stores) : Prop where
  balanced : Balanced env s
  failed : ∀ st ∈ s.queue.jobs, st.state ≠ .failed
  covered : ∀ u r, Listed env s u r →
    (∃ row, s.db.row? u = some row ∧ row.saleId = env.SALE_ID ∧ row.id = r ∧
      row.status = .persisted) ∨ s.queue.Covers (env.jobId u) r

theorem setSale_sadd {u : String} (h : (s.sales env.SALE_ID).buyers.sismember u = true) :
    s.setSale env.SALE_ID { s.sales env.SALE_ID with
      buyers := (s.sales env.SALE_ID).buyers.sadd u } = s := by
  rw [KeySet.sadd_of_sismember h]
  exact s.setSale_self _

/-- A candidate that is in the ledger is found there. -/
theorem run_applyRecoveryCandidate_listed (h : Repaired env s)
    {c : Store.CompareRestoreReservationInput}
    (hc : Store.assertCompareRestoreReservationInput c = .ok ())
    (hl : Listed env s c.userId c.reservationId) (source : RecoverySource) (acc : Recovery)
    (targetedJob : Option (Option Job)) :
    (applyRecoveryCandidate env c source acc targetedJob).run Stores.answer s =
      some (.ok acc, s) := by
  have hbuyer := h.buyers _ _ hl
  obtain ⟨v, hv, hid⟩ := hl
  obtain ⟨entry, hentry⟩ := h.parses _ _ hv
  have hscript : compareRestoreReservation (s.sales env.SALE_ID) c.userId c.reservationId
      c.reservedAtMs = ((.alreadyMatched, v), { s.sales env.SALE_ID with
        buyers := (s.sales env.SALE_ID).buyers.sadd c.userId }) := by
    unfold compareRestoreReservation
    rw [hv]
    exact if_pos hid
  have hcall : Stores.answer (.compareRestore env.SALE_ID c.userId c.reservationId c.reservedAtMs)
      s = some (.ok (.alreadyMatched, v), s) := by
    show s.script env.SALE_ID (compareRestoreReservation _ _ _ _) = _
    rw [hscript]
    exact congrArg (fun t => some (Except.ok _, t)) (setSale_sadd hbuyer)
  have hrun : (Store.compareAndRestoreReservation env.SALE_ID c).run Stores.answer s =
      some (.ok (.alreadyMatched, entry), s) := by
    unfold Store.compareAndRestoreReservation
    rw [assertSaleId_env, hc]
    refine (Prog.run_call_bind hcall _).trans ?_
    show Prog.run _ (Prog.bind (Prog.ofExcept (parseReservationEntry c.userId v)) _) s = _
    rw [hentry]
    rfl
  unfold applyRecoveryCandidate
  exact (Prog.run_bind_of_ok hrun _).trans rfl

theorem run_recoverRow (h : Repaired env s) {row : DurableOrder} (hrow : row ∈ saleRows env s)
    (acc : Recovery) : (recoverRow env acc row).run Stores.answer s = some (.ok acc, s) := by
  unfold recoverRow
  split_ifs with hst
  · rfl
  · obtain ⟨hm, hsale⟩ := mem_saleRows.1 hrow
    obtain ⟨hc, hl⟩ := h.rows row hm hsale (not_not.1 hst)
    exact run_applyRecoveryCandidate_listed h hc hl .persisted acc none

theorem run_recoverJob (h : Repaired env s) {item : ScannedJob}
    (hitem : item ∈ (scannedQueue s.queue).jobs) :
    (recoverJob env (startRecovery env s) item).run Stores.answer s =
      some (.ok (startRecovery env s), s) := by
  obtain ⟨st, ⟨hst, hstate⟩, hverdict⟩ := (reports_scannedQueue s.queue).source item hitem
  obtain ⟨p, hclass, -, -, hlive⟩ := h.jobs st hst hstate
  rw [(StoredJob.verdict_ok hverdict).1] at hclass
  obtain rfl := Except.ok.inj hclass
  obtain ⟨-, hdata, -⟩ := classifyQueueEntry_ok (StoredJob.verdict_ok hverdict).1
  unfold recoverJob
  split_ifs with hdead hmark
  · rfl
  · rfl
  · rcases hlive (by simpa using hdead) with hl | hm
    · refine run_applyRecoveryCandidate_listed h ?_ hl .queue _ none
      have hvalid := (assertOrdersQueueJobPayload_ok hdata).1
      unfold Store.assertCompareRestoreReservationInput
      rw [hvalid.userId, hvalid.reservationId, if_neg (Nat.not_lt.2 hvalid.reservedAtMs)]
      rfl
    · exact absurd (Recovery.marks_iff.2 ((startRecovery_marks h.drifted.users).2 hm)) hmark

theorem run_reconcileBuyerMembership_present {u r : String} (h : Repaired env s)
    (hl : Listed env s u r) :
    (Store.reconcileBuyerMembership env.SALE_ID u).run Stores.answer s =
      some (.ok .present, s) := by
  rw [run_reconcileBuyerMembership]
  unfold reconcileMembership
  rw [if_pos hl.hexists, setSale_sadd (h.buyers u r hl)]

/-- A covered entry stays as it is. -/
theorem run_coverEntry (h : InOrder env s) {ledger : List ReservationEntry}
    {entry : ReservationEntry} (hentry : OnLedger env s entry) :
    (coverEntry env (ledgerRecovery env s ledger) entry).run Stores.answer s =
      some (.ok (ledgerRecovery env s ledger), s) := by
  have hr := h.balanced.repaired
  have hl := hentry.listed
  have hmember := run_reconcileBuyerMembership_present hr hl
  unfold coverEntry
  dsimp only
  split_ifs with hrow
  · exact (Prog.run_bind_of_ok hmember _).trans rfl
  · rcases h.covered _ _ hl with ⟨row, hfound, hsale, hid, hst⟩ | ⟨st, hst, hlive, p, hp, hid⟩
    · have hbyUser : (ledgerRecovery env s ledger).byUser entry.userId = some row :=
        (mapOf_saleRows hr.drifted.users).2 ⟨hfound, hsale⟩
      rw [hbyUser] at hrow
      simp [hid, hst] at hrow
    · obtain ⟨hm, hslot⟩ := JobQueue.find_some hst
      have hstate : st.state ∈ QUEUE_STATES := by
        revert hlive
        cases st.state with
        | _ => decide
      obtain ⟨p', hclass, hsale, -⟩ := hr.jobs st hm hstate
      obtain ⟨-, hdata, hbuild⟩ := classifyQueueEntry_ok hclass
      rw [hp] at hdata
      obtain rfl := Except.ok.inj hdata
      obtain ⟨-, huser⟩ := accepted_id hclass hsale
      rw [hslot] at huser hbuild
      rw [hsale, ← WorkerEnv.jobId_inj huser] at hbuild
      refine (Prog.run_bind_of_ok (run_ensureLiveReservationQueued_covered hbuild hst hclass hlive
        hid (.inl rfl)) _).trans ?_
      exact (Prog.run_bind_of_ok hmember _).trans rfl

/-- Every buyer is known from the ledger. -/
theorem run_checkBuyers_known (hknown : ∀ u, (s.sales env.SALE_ID).buyers.sismember u = true →
      (acc.ledgerByUser u).isSome = true) {bound : ℕ}
    (hb : ∀ u ∈ (s.sales env.SALE_ID).buyers.keys, s.buyerBucket u < bound) (fuel : ℕ) {cursor : ℕ}
    (hcursor : cursor ≤ bound) (hfuel : bound < cursor + fuel) :
    (checkBuyers env fuel cursor acc).run Stores.answer s = some (.ok acc, s) := by
  have hcount := env.reconcilePage_pos
  induction fuel generalizing cursor with
  | zero => omega
  | succ fuel ih =>
    have hcontinues : (scanPage s.buyerBucket (s.sales env.SALE_ID).buyers.keys cursor
        env.WORKER_RECONCILE_SCAN_COUNT).1 ≠ 0 → _ := scanPage_continues
    have hmem : ∀ u ∈ (scanPage s.buyerBucket (s.sales env.SALE_ID).buyers.keys cursor
        env.WORKER_RECONCILE_SCAN_COUNT).2, (acc.ledgerByUser u).isSome = true := fun u hu =>
      hknown u (KeySet.sismember_iff_mem_keys.2 (List.mem_of_mem_filter hu))
    unfold checkBuyers
    rw [Prog.bind_eq, Prog.run_bind_of_ok (run_scanBuyers cursor _)]
    generalize scanPage s.buyerBucket (s.sales env.SALE_ID).buyers.keys cursor
      env.WORKER_RECONCILE_SCAN_COUNT = page at hcontinues hmem ⊢
    obtain ⟨next, userIds⟩ := page
    have hpage : (Prog.forEach userIds acc (checkBuyer env)).run Stores.answer s =
        some (.ok acc, s) := by
      refine Prog.run_forEach_idle fun u hu => ?_
      unfold checkBuyer
      rw [if_pos (hmem u hu)]
      rfl
    refine (Prog.run_bind_of_ok hpage _).trans ?_
    split_ifs with hlast
    · rfl
    · obtain ⟨hnext, u, hu, hle⟩ := hcontinues hlast
      obtain rfl : next = cursor + env.WORKER_RECONCILE_SCAN_COUNT := hnext
      have hlt := hb u hu
      exact ih (by omega) (by omega)

theorem Balanced.setSale_reconcileState (h : Balanced env s) :
    (reconcileState (s.sales env.SALE_ID)).1.outcome = .reconciled ∧
      s.setSale env.SALE_ID (reconcileState (s.sales env.SALE_ID)).2 = s := by
  obtain ⟨cfg, hcfg, hstock, hle⟩ := h.stock
  obtain ⟨h0, hsafe⟩ := h.repaired.drifted.total cfg hcfg
  have hstate : (reconcileState (s.sales env.SALE_ID)).1.outcome = .reconciled ∧
      (reconcileState (s.sales env.SALE_ID)).2 = s.sales env.SALE_ID := by
    rw [reconcileState_of_safe hcfg h0 hsafe, if_neg (not_lt.2 hle), ← hstock]
    exact ⟨rfl, rfl⟩
  refine ⟨hstate.1, ?_⟩
  rw [hstate.2]
  exact s.setSale_self _

/-- Without a failed job the end of a pass only starts the sweep over. -/
theorem run_finishDiff_settled (h : InOrder env s) (issues : ℕ) (acc : Recovery) :
    ∃ res, (finishDiff env issues acc).run Stores.answer s =
      some (.ok res, { s with failedScanOffset := 0 }) := by
  obtain ⟨hok, hsame⟩ := h.balanced.setSale_reconcileState
  have hcount : s.queue.count .failed = 0 := by
    unfold JobQueue.count
    exact List.countP_eq_zero.2 fun st hst => by simpa using h.failed st hst
  have hsweep : (sweepFailed env).run Stores.answer s =
      some (.ok ⟨0, 0⟩, { s with failedScanOffset := 0 }) := by
    unfold sweepFailed
    refine (Prog.run_call_bind (o := Call.countJobs .failed) rfl _).trans ?_
    rw [hcount, if_pos rfl]
    exact (Prog.run_call_bind (o := Call.setFailedScanOffset 0) rfl _).trans rfl
  have hstock : (Store.reconcileStockFromReservations env.SALE_ID).run Stores.answer s = _ :=
    run_reconcileStock s
  rw [hsame] at hstock
  refine ⟨⟨decide (0 < issues + 0) || !acc.incidents.isEmpty, issues + 0⟩, ?_⟩
  unfold finishDiff
  refine (Prog.run_bind_of_ok hstock _).trans ?_
  unfold Prog.throwIf
  rw [if_neg (not_not.2 hok)]
  refine (Prog.run_bind_of_ok hsweep _).trans ?_
  refine (Prog.run_call_bind (o := Call.countJobs .active) rfl _).trans ?_
  exact (Prog.run_call_bind (o := Call.countJobs .failed) rfl _).trans rfl

theorem exists_bucket_bound (bucket : String → ℕ) (keys : List String) :
    ∃ bound, ∀ u ∈ keys, bucket u < bound := by
  induction keys with
  | nil => exact ⟨0, by simp⟩
  | cons k keys ih =>
    obtain ⟨bound, hbound⟩ := ih
    refine ⟨max bound (bucket k + 1), fun u hu => ?_⟩
    rcases List.mem_cons.1 hu with rfl | hu
    · omega
    · have := hbound u hu
      omega

/-- **The fixpoint.** On stores in order a pass returns and changes nothing but the offset of the
sweep. -/
theorem run_runDiff_settled (h : InOrder env s) : ∃ enough, ∀ fuel, enough ≤ fuel →
    ∃ res, (runDiff env fuel).run Stores.answer s =
      some (.ok res, { s with failedScanOffset := 0 }) := by
  have hr := h.balanced.repaired
  obtain ⟨ledgerBound, hledger⟩ := exists_bucket_bound s.ledgerBucket
    (s.sales env.SALE_ID).reservations.keys
  obtain ⟨buyerBound, hbuyer⟩ := exists_bucket_bound s.buyerBucket
    (s.sales env.SALE_ID).buyers.keys
  refine ⟨(saleRows env s).length + s.queue.jobs.length + ledgerBound + buyerBound + 1,
    fun fuel hfuel => ?_⟩
  obtain ⟨ledger, hscan⟩ := run_scanLedger_enough hr.parses hledger fuel (Nat.zero_le _)
    (by omega) []
  have hentries := (ends_scanLedger fuel ledger s hscan).1
  have hknown : ∀ u, (s.sales env.SALE_ID).buyers.sismember u = true →
      ((ledgerRecovery env s ledger).ledgerByUser u).isSome = true := by
    intro u hu
    rw [h.balanced.members] at hu
    exact (hentries.isSome_mapOf u).trans hu
  obtain ⟨res, hfinish⟩ := run_finishDiff_settled h (scannedQueue s.queue).issues.length
    (ledgerRecovery env s ledger)
  refine ⟨res, ?_⟩
  unfold runDiff
  refine (Prog.run_bind_of_ok (run_scanOrders_enough (by omega)) _).trans ?_
  refine (Prog.run_bind_of_ok (run_scanJobs_enough hr.drifted.distinct (by omega)) _).trans ?_
  refine (Prog.run_bind_of_ok (Prog.run_forEach_idle fun row hrow =>
    run_recoverRow hr hrow (startRecovery env s)) _).trans ?_
  refine (Prog.run_bind_of_ok (Prog.run_forEach_idle fun item hitem =>
    run_recoverJob hr hitem) _).trans ?_
  refine (Prog.run_bind_of_ok hscan _).trans ?_
  refine (Prog.run_bind_of_ok (Prog.run_forEach_idle fun entry hentry =>
    run_coverEntry h (hentries.sound entry hentry)) _).trans ?_
  refine (Prog.run_bind_of_ok (run_checkBuyers_known hknown hbuyer fuel (Nat.zero_le _)
    (by omega)) _).trans ?_
  exact hfinish

/-! ## The two results -/

/-- What the stores of a sale look like when nothing is missing, doubled or left over. -/
structure Healthy (env : WorkerEnv) (s : Stores) : Prop where
  covered : ∀ u r, Listed env s u r → Covered env s u r
  rows : ∀ row ∈ s.db.orders, row.saleId = env.SALE_ID → row.status = .persisted →
    Listed env s row.userId row.id
  members : ∀ u, (s.sales env.SALE_ID).buyers.sismember u =
    (s.sales env.SALE_ID).reservations.hexists u
  stock : ∃ cfg, (s.sales env.SALE_ID).config = some cfg ∧
    (s.sales env.SALE_ID).stock =
      some (cfg.totalStock - (s.sales env.SALE_ID).reservations.hlen) ∧
    ((s.sales env.SALE_ID).reservations.hlen : ℤ) ≤ cfg.totalStock

/-- **A healthy pass.** Alone on stores that have drifted apart in any way, a pass that returns
without a finding leaves every ledger entry covered by a persisted row or a live job, every
persisted row of the sale in the ledger, the users of the ledger as buyers and the derived stock. -/
theorem runDiff_healthy (h : Drifted env s) {fuel : ℕ} {res : ReconciliationPassResult}
    (hrun : (runDiff env fuel).run Stores.answer s = some (.ok res, s'))
    (hok : res.degraded = false) : Healthy env s' := by
  have hb := ends_runDiff h fuel res s' hrun hok
  exact ⟨hb.repaired.covered, fun row hrow hsale hst => (hb.repaired.rows row hrow hsale hst).2,
    hb.members, hb.stock⟩

/-- **The pass after a healthy one.** If no failed job is left that a sweep could resolve, and
every entry without a live job has its persisted row in the sale itself, the next pass returns and
changes nothing. -/
theorem runDiff_fixpoint (h : Drifted env s) {fuel : ℕ} {res : ReconciliationPassResult}
    (hrun : (runDiff env fuel).run Stores.answer s = some (.ok res, s'))
    (hok : res.degraded = false)
    (hfailed : ∀ st ∈ s'.queue.jobs, st.state = .failed → st.verdict.isOk = false)
    (hown : ∀ u r, Listed env s' u r → (∃ row, s'.db.row? u = some row ∧
      row.saleId = env.SALE_ID ∧ row.id = r ∧ row.status = .persisted) ∨
        s'.queue.Covers (env.jobId u) r) :
    ∃ enough, ∀ fuel', enough ≤ fuel' → ∃ res', (runDiff env fuel').run Stores.answer s' =
      some (.ok res', { s' with failedScanOffset := 0 }) := by
  have hb := ends_runDiff h fuel res s' hrun hok
  refine run_runDiff_settled ⟨hb, fun st hst hstate => ?_, hown⟩
  -- a failed job that fits is one a sweep could resolve
  obtain ⟨p, hclass, -, hexhausted, -⟩ := hb.repaired.jobs st hst (by rw [hstate]; decide)
  have hverdict := hfailed st hst hstate
  unfold StoredJob.verdict at hverdict
  rw [hclass] at hverdict
  dsimp only at hverdict
  rw [if_neg (by simp [hexhausted hstate])] at hverdict
  cases hverdict

end

/-! ## Two orders that Redis lost -/

/-- Alice has bought the only unit and Bob's order was compensated. -/
def lostRows : List DurableOrder :=
  [⟨"0190aaaa-0000-7000-8000-000000000001", "alice", "flash-2026", .persisted, 1500, "req-1"⟩,
    ⟨"0190aaaa-0000-7000-8000-000000000002", "bob", "flash-2026", .compensated, 1400, "req-2"⟩]

/-- Redis has lost Alice's purchase and has not seen Bob's compensation through. -/
def lostUnit : Stores :=
  { openUnit with
    sales := fun _ => ⟨some oneUnitEnv.sale, some 0, KeySet.sadd ∅ "bob", ∅⟩
    db := ⟨lostRows, [saleRow oneUnitEnv.sale], ∅, String.length⟩ }

theorem drifted_lostUnit : Drifted oneUnitEnv lostUnit where
  distinct := List.nodup_nil
  own st hst := by cases hst
  users := by decide
  idle := rfl
  total cfg h := by
    obtain rfl := Option.some.inj h
    decide

/-- What the stores hold of the sale of one unit. -/
structure UnitView where
  buyers : List String
  ledger : List (String × String)
  stock : Option ℤ
  jobs : List StoredJob
  rows : List DurableOrder

def unitView (s : Stores) : UnitView where
  buyers := (s.sales oneUnitEnv.SALE_ID).buyers.keys
  ledger := (s.sales oneUnitEnv.SALE_ID).reservations.entries.map fun e => (e.1, e.2)
  stock := (s.sales oneUnitEnv.SALE_ID).stock
  jobs := s.queue.jobs
  rows := s.db.orders

/-- The pass restores Alice's entry and removes Bob's membership. -/
theorem run_lostUnit : ((runDiff oneUnitEnv 4).run Stores.answer lostUnit).map
    (fun q => (q.1.toOption.map (·.degraded), unitView q.2)) =
      some (some false, ⟨["alice"],
        [("alice", ledgerValue "0190aaaa-0000-7000-8000-000000000001" "1500")], some 0, [],
          lostRows⟩) := by
  rfl

theorem lostUnit_ends : ∃ res s', (runDiff oneUnitEnv 4).run Stores.answer lostUnit =
    some (.ok res, s') ∧ res.degraded = false ∧ unitView s' = ⟨["alice"],
      [("alice", ledgerValue "0190aaaa-0000-7000-8000-000000000001" "1500")], some 0, [],
        lostRows⟩ := by
  obtain ⟨⟨r, s'⟩, hrun, e⟩ := Option.map_eq_some_iff.1 run_lostUnit
  obtain ⟨hres, hview⟩ := Prod.mk.inj e
  cases r with
  | error e => cases hres
  | ok res => exact ⟨res, s', hrun, Option.some.inj hres, hview⟩

theorem runDiff_healthy_lostUnit : ∃ res s', (runDiff oneUnitEnv 4).run Stores.answer lostUnit =
    some (.ok res, s') ∧ Healthy oneUnitEnv s' := by
  obtain ⟨res, s', hrun, hok, -⟩ := lostUnit_ends
  exact ⟨res, s', hrun, runDiff_healthy drifted_lostUnit hrun hok⟩

theorem runDiff_fixpoint_lostUnit : ∃ res s', (runDiff oneUnitEnv 4).run Stores.answer lostUnit =
    some (.ok res, s') ∧ ∃ enough, ∀ fuel, enough ≤ fuel → ∃ res',
      (runDiff oneUnitEnv fuel).run Stores.answer s' =
        some (.ok res', { s' with failedScanOffset := 0 }) := by
  obtain ⟨res, s', hrun, hok, hview⟩ := lostUnit_ends
  have hjobs : s'.queue.jobs = [] := congrArg UnitView.jobs hview
  have hrows : s'.db.orders = lostRows := congrArg UnitView.rows hview
  have hledger : ∀ u v, (s'.sales oneUnitEnv.SALE_ID).reservations.hget u = some v →
      u = "alice" ∧ v = ledgerValue "0190aaaa-0000-7000-8000-000000000001" "1500" := by
    intro u v hv
    have hm : (u, v) ∈ (unitView s').ledger :=
      List.mem_map_of_mem (f := fun e => (e.1, e.2)) (AList.mem_lookup_iff.1 hv)
    rw [hview] at hm
    exact Prod.mk.inj (List.mem_singleton.1 hm)
  refine ⟨res, s', hrun, runDiff_fixpoint drifted_lostUnit hrun hok (by simp [hjobs]) ?_⟩
  rintro u r ⟨v, hv, rfl⟩
  obtain ⟨rfl, rfl⟩ := hledger u v hv
  refine .inl ⟨⟨"0190aaaa-0000-7000-8000-000000000001", "alice", "flash-2026", .persisted, 1500,
    "req-1"⟩, ?_, rfl, rfl, rfl⟩
  unfold Db.row?
  rw [hrows]
  rfl

end FlashSale
