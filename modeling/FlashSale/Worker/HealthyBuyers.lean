import FlashSale.Worker.HealthyPass

/-!
# The buyers of a healthy pass

A buyer without a ledger entry either comes back into the ledger, from a live job whose marker is
there already, or loses the membership; any other finding ends the pass. After the last page of
buyers everyone in the set has an entry.
-/

namespace FlashSale

open Redis

section

variable {env : WorkerEnv} {s s' : Stores} {u : String} {acc : Recovery}

/-! ## Incidents stay -/

/-- An incident is never taken back. -/
abbrev Keeps (acc : Recovery) (p : WorkerM Recovery) (s : Stores) : Prop :=
  Ends p (fun acc' _ => acc'.incidents = [] → acc.incidents = []) s

theorem ends_trivial {α : Type} (p : WorkerM α) : Ends p (fun _ _ => True) s :=
  fun _ _ _ => trivial

theorem kept_applyRecoveryCandidate (c : Store.CompareRestoreReservationInput)
    (source : RecoverySource) (acc : Recovery) (targetedJob : Option (Option Job)) :
    Keeps acc (applyRecoveryCandidate env c source acc targetedJob) s :=
  (ends_applyRecoveryCandidate c source acc targetedJob).mono fun _ _ h hnone =>
    (h hnone).1 ▸ hnone

theorem kept_resolveBuyerInspection (u : String) (found : Store.ReservationMembershipInspection)
    (durable : Option DurableOrder) (acc : Recovery) (targetedJob : Option (Option Job)) :
    Keeps acc (resolveBuyerInspection env u found durable acc targetedJob) s := by
  unfold resolveBuyerInspection
  have hsome : ∀ (outcome : MembershipInspection) (entry : ReservationEntry), Keeps acc (do
      let coverage ← ensureLiveReservationQueued env entry durable targetedJob
      Prog.throwIf (coverage = .retainedCollision ∧ targetedJob.isSome) (buyerOnlyFailure u)
      if outcome = .reservationOnly then do
        let membership ← Store.reconcileBuyerMembership env.SALE_ID u
        Prog.throwIf (membership ≠ .present)
          (.error ("buyer membership repair failed for " ++ u))
        return (acc.pushCollision coverage u).setLedger u entry
      else return (acc.pushCollision coverage u).setLedger u entry) s := by
    intro outcome entry
    refine .bind (ends_trivial _) fun coverage t _ => .throwIf fun _ => ?_
    split_ifs
    · exact .bind (ends_trivial _) fun _ _ _ => .throwIf fun _ => .pure kept_pushCollision
    · exact .pure kept_pushCollision
  cases found.outcome with
  | neither => exact .pure fun h => h
  | buyerOnly => exact .throw
  | both =>
    cases found.reservation with
    | none => exact .throw
    | some entry => exact hsome .both entry
  | reservationOnly =>
    cases found.reservation with
    | none => exact .throw
    | some entry => exact hsome .reservationOnly entry

theorem kept_recoverBuyer (u : String) (row : Option DurableOrder) (targeted : Option Job)
    (candidate : Option ScannedJob) (acc : Recovery) :
    Keeps acc (recoverBuyer env u row targeted candidate acc) s := by
  unfold recoverBuyer
  cases row.filter fun row => row.saleId = env.SALE_ID with
  | none =>
    cases candidate with
    | none => exact .throw
    | some item => exact kept_applyRecoveryCandidate _ _ _ _
  | some row =>
    dsimp only
    split_ifs
    · exact .throwIf fun _ => kept_applyRecoveryCandidate _ _ (acc.setRow u row) _
    · cases candidate with
      | none => exact .bind (ends_trivial _) fun _ _ _ => .throwIf fun _ => .pure fun h => h
      | some item => exact kept_applyRecoveryCandidate _ _ (acc.setRow u row) _

theorem kept_checkBuyer (acc : Recovery) (u : String) : Keeps acc (checkBuyer env acc u) s := by
  unfold checkBuyer
  split_ifs
  · exact .pure fun h => h
  · refine .bind (ends_trivial _) fun found t _ => ?_
    split_ifs
    · exact kept_resolveBuyerInspection _ _ _ _ _
    · unfold adjudicateBuyerOnly
      refine .bind (ends_trivial _) fun row t _ => .bind (ends_trivial _) fun jobId t _ => ?_
      refine .bind (ends_trivial _) fun targeted t _ => .bind (ends_trivial _) fun item t _ => ?_
      refine .bind (kept_recoverBuyer _ _ _ _ _) fun acc' t h => ?_
      refine .bind (ends_trivial _) fun found t _ => ?_
      exact (kept_resolveBuyerInspection _ _ _ _ _).mono fun _ _ h' hnone => h (h' hnone)

/-! ## One buyer -/

theorem ends_inspectReservationMembership (u : String) :
    Ends (Store.inspectReservationMembership env.SALE_ID u) (fun found s' => s' = s ∧
      Store.decodeReservationMembershipInspection u (inspectMembership (s.sales env.SALE_ID) u) =
        .ok found) s := by
  unfold Store.inspectReservationMembership
  rw [assertSaleId_env]
  show Ends (Prog.bind (Prog.throwIf (isUserId u = false) _) _) _ s
  refine .throwIf fun _ => ?_
  refine .bind_of_ok (Prog.run_call (o := Call.inspect env.SALE_ID u) rfl) ?_
  exact .ofExcept fun found h => ⟨rfl, h⟩

theorem inspectMembership_of_none (h : (s.sales env.SALE_ID).reservations.hget u = none) :
    inspectMembership (s.sales env.SALE_ID) u =
      (if (s.sales env.SALE_ID).buyers.sismember u then .buyerOnly else .neither, "") := by
  unfold inspectMembership
  rw [h]
  cases (s.sales env.SALE_ID).buyers.sismember u with
  | true => rfl
  | false => rfl

/-- What is known while the buyers are checked: those who may lack an entry are `open`. -/
structure Checking (env : WorkerEnv) (bucket : String → ℕ) (unchecked : String → Prop)
    (acc : Recovery) (s : Stores) : Prop where
  repaired : Repaired env s
  bucket : s.buyerBucket = bucket
  ledgerByUser : ∀ u, (acc.ledgerByUser u).isSome =
    (s.sales env.SALE_ID).reservations.hexists u
  byUser : ∀ u row, acc.byUser u = some row → s.db.row? u = some row
  left : ∀ u, (s.sales env.SALE_ID).buyers.sismember u = true →
    (s.sales env.SALE_ID).reservations.hexists u = true ∨ unchecked u

/-- Rows read for a user agree with the table. -/
theorem byUser_setRow {row : DurableOrder}
    (h : ∀ u row, acc.byUser u = some row → s.db.row? u = some row)
    (hrow : s.db.row? u = some row) :
    ∀ v row', (acc.setRow u row).byUser v = some row' → s.db.row? v = some row' := by
  intro v row' hv
  unfold Recovery.setRow at hv
  by_cases e : v = u
  · subst e
    rw [hrow]
    simpa using hv
  · exact h v row' (by simpa [Function.update_of_ne e] using hv)

/-- What adjudication reads about a buyer: the row of the user in the sale, the job in the slot and
whether that job can stand for the buyer. -/
structure BuyerRead (env : WorkerEnv) (s : Stores) (u : String) (targeted : Option Job)
    (candidate : Option ScannedJob) : Prop where
  user : buildOrdersJobId env.SALE_ID u = .ok (env.jobId u)
  loaded : targeted = s.queue.getJob (env.jobId u)
  candidate : ∀ item, candidate = some item → ∃ st, s.queue.find (env.jobId u) = some st ∧
    classifyQueueEntry st.job st.state = .ok item ∧ st.state.isLive = true ∧
      item.payload.userId = u ∧ targeted = some st.job

theorem ends_classifyTargeted (u : String) (targeted : Option Job) :
    Ends (classifyTargeted u targeted) (fun classified s' => s' = s ∧
      ∀ item, classified = some item → ∃ job, targeted = some job ∧
        classifyQueueEntry job (s.queue.getState job.id) = .ok item) s := by
  unfold classifyTargeted
  cases targeted with
  | none => exact .pure ⟨rfl, by simp⟩
  | some job =>
    refine .bind_of_ok (Prog.run_call (o := Call.getState job.id) rfl) ?_
    cases hc : classifyQueueEntry job (s.queue.getState job.id) with
    | error issue => exact .throw
    | ok scanned =>
      refine .pure ⟨rfl, fun item hitem => ⟨job, rfl, ?_⟩⟩
      rw [hc, Option.some.inj hitem]

theorem buyerRead {classified : Option ScannedJob}
    (hid : buildOrdersJobId env.SALE_ID u = .ok (env.jobId u))
    (h : ∀ item, classified = some item → ∃ job, s.queue.getJob (env.jobId u) = some job ∧
      classifyQueueEntry job (s.queue.getState job.id) = .ok item) :
    BuyerRead env s u (s.queue.getJob (env.jobId u)) (classified.filter fun item =>
      item.state.isLive && item.payload.saleId = env.SALE_ID && item.payload.userId = u) := by
  refine ⟨hid, rfl, fun item hitem => ?_⟩
  obtain ⟨hitem, hlive⟩ := Option.filter_eq_some_iff.1 hitem
  simp only [Bool.and_eq_true, decide_eq_true_eq] at hlive
  obtain ⟨job, hjob, hclass⟩ := h item hitem
  unfold JobQueue.getJob at hjob
  obtain ⟨st, hst, rfl⟩ := Option.map_eq_some_iff.1 hjob
  rw [getState_of_find hst] at hclass
  refine ⟨st, hst, hclass, ?_, hlive.2, by unfold JobQueue.getJob; rw [hst]; rfl⟩
  rw [(classifyQueueEntry_ok hclass).1] at hlive
  exact hlive.1.1

/-- The recovery is the one before, perhaps with the row of the user read again. -/
def RowRead (s : Stores) (u : String) (acc acc' : Recovery) : Prop :=
  acc' = acc ∨ ∃ row, s.db.row? u = some row ∧ acc' = acc.setRow u row

theorem RowRead.ledgerByUser {acc' : Recovery} (h : RowRead s u acc acc') :
    acc'.ledgerByUser = acc.ledgerByUser := by
  rcases h with rfl | ⟨row, -, rfl⟩
  · rfl
  · rfl

theorem RowRead.incidents {acc' : Recovery} (h : RowRead s u acc acc') :
    acc'.incidents = acc.incidents := by
  rcases h with rfl | ⟨row, -, rfl⟩
  · rfl
  · rfl

theorem RowRead.byUser {acc' : Recovery} (h : RowRead s u acc acc')
    (hacc : ∀ u row, acc.byUser u = some row → s.db.row? u = some row) :
    ∀ v row, acc'.byUser v = some row → s.db.row? v = some row := by
  rcases h with rfl | ⟨row, hrow, rfl⟩
  · exact hacc
  · exact byUser_setRow hacc hrow

/-- The candidate of a job. -/
def ScannedJob.candidate (item : ScannedJob) (u : String) : Store.CompareRestoreReservationInput :=
  ⟨u, item.payload.reservationId, item.payload.reservedAtMs⟩

/-- How a buyer without an entry is settled: restored from a live job or removed. -/
def BuyerSettled (env : WorkerEnv) (s : Stores) (u : String) (candidate : Option ScannedJob)
    (s' : Stores) : Prop :=
  (∃ item, candidate = some item ∧
      Store.assertCompareRestoreReservationInput (item.candidate u) = .ok () ∧
      s' = s.setSale env.SALE_ID (restoredSale env s (item.candidate u))) ∨
    s' = s.setSale env.SALE_ID (reconcileMembership (s.sales env.SALE_ID) u).2

/-- A persisted row of the sale would have its entry, so it is not the one of a buyer without. -/
theorem ends_recoverBuyer (h : Repaired env s)
    (hnone : (s.sales env.SALE_ID).reservations.hget u = none) (targeted : Option Job)
    (candidate : Option ScannedJob) (acc : Recovery) :
    Ends (recoverBuyer env u (s.db.row? u) targeted candidate acc) (fun acc' s' =>
      acc'.incidents = [] → RowRead s u acc acc' ∧ BuyerSettled env s u candidate s') s := by
  unfold recoverBuyer
  cases hrow : (s.db.row? u).filter fun row => row.saleId = env.SALE_ID with
  | none =>
    cases candidate with
    | none => exact .throw
    | some item =>
      refine (ends_applyRecoveryCandidate (item.candidate u) .queue acc none).mono
        fun acc' s' hend hinc => ?_
      obtain ⟨rfl, hc, -, hs', -⟩ := hend hinc
      exact ⟨.inl rfl, .inl ⟨item, rfl, hc, hs'⟩⟩
  | some row =>
    obtain ⟨hrow, hsale⟩ := Option.filter_eq_some_iff.1 hrow
    have hu := Db.row?_userId hrow
    dsimp only
    by_cases hst : row.status = .persisted
    · obtain ⟨-, v, hv, -⟩ := h.rows row (Db.mem_orders_of_row? hrow) (by simpa using hsale) hst
      rw [hu, hnone] at hv
      cases hv
    · rw [if_neg hst]
      cases candidate with
      | none =>
        refine .bind_of_ok (run_reconcileBuyerMembership s u) ?_
        exact .throwIf fun _ => .pure fun _ => ⟨.inr ⟨row, hrow, rfl⟩, .inr rfl⟩
      | some item =>
        refine (ends_applyRecoveryCandidate (item.candidate u) .queue (acc.setRow u row)
          none).mono fun acc' s' hend hinc => ?_
        obtain ⟨rfl, hc, -, hs', -⟩ := hend hinc
        exact ⟨.inr ⟨row, hrow, rfl⟩, .inl ⟨item, rfl, hc, hs'⟩⟩

/-- The keys after a missing entry was restored. -/
theorem restoredSale_of_none {c : Store.CompareRestoreReservationInput}
    (h : (s.sales env.SALE_ID).reservations.hget c.userId = none) : restoredSale env s c =
      (s.sales env.SALE_ID).restore c.userId c.reservationId c.reservedAtMs := by
  unfold restoredSale compareRestoreReservation
  rw [h]
  rfl

/-- A restored entry is covered by the job it comes from, and nothing else has changed. -/
theorem Repaired.restore (h : Repaired env s)
    (hnone : (s.sales env.SALE_ID).reservations.hget u = none) {r : String} {t : ℕ}
    (hr : isUuid r = true) (hcov : s.queue.Covers (env.jobId u) r)
    (hparse : ∃ entry, parseReservationEntry u (ledgerValue r (toString t)) = .ok entry) :
    Repaired env (s.setSale env.SALE_ID ((s.sales env.SALE_ID).restore u r t)) := by
  have hkeys : ∀ v, ((s.setSale env.SALE_ID ((s.sales env.SALE_ID).restore u r t)).sales
      env.SALE_ID).reservations.hget v = if v = u then some (ledgerValue r (toString t))
        else (s.sales env.SALE_ID).reservations.hget v := by
    intro v
    rw [Stores.sales_setSale]
    exact Hash.hget_hset _ _ _ _
  have hold : ∀ v r', Listed env s v r' →
      Listed env (s.setSale env.SALE_ID ((s.sales env.SALE_ID).restore u r t)) v r' := by
    rintro v r' ⟨w, hw, hr'⟩
    refine ⟨w, ?_, hr'⟩
    rw [hkeys, if_neg, hw]
    rintro rfl
    rw [hnone] at hw
    cases hw
  have hnew : ∀ v r', Listed env (s.setSale env.SALE_ID ((s.sales env.SALE_ID).restore u r t)) v r' →
      v = u ∧ r' = r ∨ Listed env s v r' := by
    rintro v r' ⟨w, hw, hr'⟩
    rw [hkeys] at hw
    split_ifs at hw with hv
    · refine .inl ⟨hv, ?_⟩
      rw [← hr', ← Option.some.inj hw]
      exact ledgerIdentity_ledgerValue _ (colon_notMem_of_isUuid hr)
    · exact .inr ⟨w, hw, hr'⟩
  refine ⟨h.drifted.setSale rfl,
    fun st hst hstate => ?_, fun v w hw => ?_, fun v r' hl => ?_, fun row hrow hsale hst => ?_,
    fun v r' hl => ?_⟩
  · obtain ⟨p, hp, hsale, hfailed, hlive⟩ := h.jobs st hst hstate
    exact ⟨p, hp, hsale, hfailed, fun hl => (hlive hl).imp (hold _ _) fun hm => hm⟩
  · rw [hkeys] at hw
    split_ifs at hw with hv
    · rw [hv, ← Option.some.inj hw]
      exact hparse
    · exact h.parses v w hw
  · rcases hnew v r' hl with ⟨rfl, rfl⟩ | hl
    · exact .inr hcov
    · exact h.covered v r' hl
  · exact ⟨(h.rows row hrow hsale hst).1, hold _ _ (h.rows row hrow hsale hst).2⟩
  · rw [Stores.sales_setSale]
    show ((s.sales env.SALE_ID).buyers.sadd u).sismember v = true
    rw [KeySet.sismember_sadd]
    rcases hnew v r' hl with ⟨rfl, -⟩ | hl
    · simp
    · rw [h.buyers v r' hl, Bool.or_true]

/-- The membership of a buyer without an entry goes, and nothing else has changed. -/
theorem Repaired.removeBuyer (h : Repaired env s)
    (hnone : (s.sales env.SALE_ID).reservations.hget u = none) :
    Repaired env (s.setSale env.SALE_ID (reconcileMembership (s.sales env.SALE_ID) u).2) := by
  have hsame : SameEntries env s
      (s.setSale env.SALE_ID (reconcileMembership (s.sales env.SALE_ID) u).2) := by
    refine ⟨rfl, ?_, ?_⟩
    all_goals rw [Stores.sales_setSale]
    · exact (reconcileMembership_keys _ u).1
    · exact (reconcileMembership_keys _ u).2
  refine ⟨h.drifted.setSale (reconcileMembership_keys _ u).2,
    fun st hst => hsame.jobFits (h.jobs st hst), fun v w hw => h.parses v w (hsame.ledger ▸ hw),
    fun v r hl => h.covered v r (hsame.listed.1 hl), fun row hrow hsale hst => ?_,
    fun v r hl => ?_⟩
  · exact ⟨(h.rows row hrow hsale hst).1, hsame.listed.2 (h.rows row hrow hsale hst).2⟩
  · have hold : Listed env s v r := hsame.listed.1 hl
    have hv : v ≠ u := by
      rintro rfl
      obtain ⟨w, hw, -⟩ := hold
      rw [hnone] at hw
      cases hw
    rw [Stores.sales_setSale]
    unfold reconcileMembership
    rw [if_neg (by simp [Hash.hexists, hnone])]
    show ((s.sales env.SALE_ID).buyers.srem u).sismember v = true
    rw [KeySet.sismember_srem, h.buyers v r hold]
    simpa using hv

variable {bucket : String → ℕ} {later : String → Prop}

theorem sismember_restore (s : Sale) (u r : String) (t : ℕ) (v : String) :
    (s.restore u r t).buyers.sismember v = (decide (v = u) || s.buyers.sismember v) :=
  KeySet.sismember_sadd

theorem hexists_restore (s : Sale) (u r : String) (t : ℕ) (v : String) :
    (s.restore u r t).reservations.hexists v = (decide (v = u) || s.reservations.hexists v) := by
  unfold Hash.hexists Sale.restore
  dsimp only
  rw [Hash.hget_hset]
  split_ifs with e
  · simp [e]
  · simp [e]

/-- The final inspection of a restored buyer records the entry. -/
theorem Checking.restored (h : Checking env bucket (fun v => v = u ∨ later v) acc s)
    (hnone : (s.sales env.SALE_ID).reservations.hget u = none) {targeted : Option Job}
    {candidate : Option ScannedJob} (hread : BuyerRead env s u targeted candidate)
    {item : ScannedJob} (hitem : candidate = some item)
    (hc : Store.assertCompareRestoreReservationInput (item.candidate u) = .ok ())
    {acc' : Recovery} (hrow : RowRead s u acc acc')
    {found : Store.ReservationMembershipInspection}
    (hs' : s' = s.setSale env.SALE_ID (restoredSale env s (item.candidate u)))
    (hfound : Store.decodeReservationMembershipInspection u
      (inspectMembership (s'.sales env.SALE_ID) u) = .ok found) :
    Ends (resolveBuyerInspection env u found (acc'.byUser u) acc' (targeted.map some))
      (fun acc'' s'' => Checking env bucket later acc'' s'') s' := by
  obtain ⟨st, hst, hclass, hlive, huser, htargeted⟩ := hread.candidate item hitem
  have huuid : isUuid item.payload.reservationId = true := isUuid_of_candidate hc
  have hsale : restoredSale env s (item.candidate u) = (s.sales env.SALE_ID).restore u
      item.payload.reservationId item.payload.reservedAtMs := restoredSale_of_none hnone
  rw [hsale] at hs'
  have hkeys : s'.sales env.SALE_ID = (s.sales env.SALE_ID).restore u
      item.payload.reservationId item.payload.reservedAtMs := by
    rw [hs', Stores.sales_setSale]
  have hinspect : inspectMembership (s'.sales env.SALE_ID) u =
      (.both, ledgerValue item.payload.reservationId (toString item.payload.reservedAtMs)) := by
    have hget : (s'.sales env.SALE_ID).reservations.hget u =
        some (ledgerValue item.payload.reservationId (toString item.payload.reservedAtMs)) := by
      rw [hkeys]
      exact Hash.hget_hset_self
    unfold inspectMembership
    rw [hget, hkeys, sismember_restore]
    simp
  rw [hinspect] at hfound
  obtain ⟨houtcome, hentry⟩ := Store.decodeInspection_ok hfound
  obtain ⟨outcome, reservation⟩ := found
  obtain rfl : outcome = .both := houtcome
  unfold resolveBuyerInspection
  dsimp only at hentry ⊢
  cases reservation with
  | none => exact .throw
  | some entry =>
    obtain ⟨-, hparse⟩ := hentry entry rfl
    obtain ⟨heu, her⟩ := parseReservationEntry_ok hparse
    rw [ledgerIdentity_ledgerValue _ (colon_notMem_of_isUuid huuid)] at her
    have hqueue : s'.queue = s.queue := by rw [hs']; rfl
    have hensure : (ensureLiveReservationQueued env entry (acc'.byUser u)
        (targeted.map some)).run Stores.answer s' = some (.ok .alreadyCovered, s') :=
      run_ensureLiveReservationQueued_covered (by rw [heu]; exact hread.user)
        (by rw [heu, hqueue]; exact hst) hclass hlive her.symm
        (.inr (by rw [heu, hqueue, ← hread.loaded, htargeted]; rfl))
    dsimp only
    refine .bind_of_ok hensure (.throwIf fun _ => ?_)
    rw [if_neg (by decide)]
    have hcov : s.queue.Covers (env.jobId u) item.payload.reservationId :=
      ⟨st, hst, hlive, _, (classifyQueueEntry_ok hclass).2.1, rfl⟩
    refine .pure ⟨?_, by rw [hs']; exact h.bucket, fun v => ?_, fun v row hv => ?_,
      fun v hv => ?_⟩
    · rw [hs']
      exact h.repaired.restore hnone huuid hcov ⟨entry, hparse⟩
    · rw [hkeys, hexists_restore]
      show (Function.update acc'.ledgerByUser u (some entry) v).isSome = _
      by_cases e : v = u
      · subst e
        simp
      · rw [Function.update_of_ne e, hrow.ledgerByUser, h.ledgerByUser]
        simp [e]
    · rw [hs']
      exact hrow.byUser h.byUser v row hv
    · rw [hkeys, sismember_restore] at hv
      rw [hkeys, hexists_restore]
      by_cases e : v = u
      · exact .inl (by simp [e])
      · have hv : (s.sales env.SALE_ID).buyers.sismember v = true := by simpa [e] using hv
        rcases h.left v hv with hex | rfl | hlater
        · exact .inl (by simp [hex])
        · exact absurd rfl e
        · exact .inr hlater

/-- A user without an entry and without a membership needs no more. -/
theorem Checking.settled (h : Checking env bucket (fun v => v = u ∨ later v) acc s)
    (hu : (s.sales env.SALE_ID).buyers.sismember u = true →
      (s.sales env.SALE_ID).reservations.hexists u = true) : Checking env bucket later acc s := by
  refine ⟨h.repaired, h.bucket, h.ledgerByUser, h.byUser, fun v hv => ?_⟩
  rcases h.left v hv with hex | rfl | hlater
  · exact .inl hex
  · exact .inl (hu hv)
  · exact .inr hlater

/-- The final inspection of a removed buyer finds nothing. -/
theorem Checking.removed (h : Checking env bucket (fun v => v = u ∨ later v) acc s)
    (hnone : (s.sales env.SALE_ID).reservations.hget u = none) {targeted : Option (Option Job)}
    {acc' : Recovery} (hrow : RowRead s u acc acc')
    {found : Store.ReservationMembershipInspection}
    (hs' : s' = s.setSale env.SALE_ID (reconcileMembership (s.sales env.SALE_ID) u).2)
    (hfound : Store.decodeReservationMembershipInspection u
      (inspectMembership (s'.sales env.SALE_ID) u) = .ok found) :
    Ends (resolveBuyerInspection env u found (acc'.byUser u) acc' targeted)
      (fun acc'' s'' => Checking env bucket later acc'' s'') s' := by
  have hkeys : s'.sales env.SALE_ID = { s.sales env.SALE_ID with
      buyers := (s.sales env.SALE_ID).buyers.srem u } := by
    rw [hs', Stores.sales_setSale]
    unfold reconcileMembership
    rw [if_neg (by simp [Hash.hexists, hnone])]
  have hinspect : inspectMembership (s'.sales env.SALE_ID) u = (.neither, "") := by
    rw [inspectMembership_of_none (by rw [hkeys]; exact hnone), hkeys, if_neg (by simp)]
  rw [hinspect] at hfound
  have houtcome : found.outcome = .neither := (Store.decodeInspection_ok hfound).1
  unfold resolveBuyerInspection
  rw [houtcome]
  refine .pure ⟨by rw [hs']; exact h.repaired.removeBuyer hnone, by rw [hs']; exact h.bucket,
    fun v => ?_, fun v row hv => ?_, fun v hv => ?_⟩
  · rw [hrow.ledgerByUser, h.ledgerByUser, hkeys]
  · rw [hs']
    exact hrow.byUser h.byUser v row hv
  · rw [hkeys, KeySet.sismember_srem] at hv
    rw [hkeys]
    simp only [Bool.and_eq_true, Bool.not_eq_true', decide_eq_false_iff_not] at hv
    rcases h.left v hv.2 with hex | rfl | hlater
    · exact .inl hex
    · exact absurd rfl hv.1
    · exact .inr hlater

/-- The adjudication of a buyer without an entry. -/
theorem Checking.adjudicate (h : Checking env bucket (fun v => v = u ∨ later v) acc s)
    (hnone : (s.sales env.SALE_ID).reservations.hget u = none) :
    Ends (adjudicateBuyerOnly env u acc) (fun acc' s' => acc'.incidents = [] →
      Checking env bucket later acc' s') s := by
  unfold adjudicateBuyerOnly
  refine .bind_of_ok (Prog.run_call (o := Call.getByUser u) rfl) ?_
  cases hid : buildOrdersJobId env.SALE_ID u with
  | error e => exact .throw
  | ok jobId =>
    obtain rfl : jobId = env.jobId u := (buildOrdersJobId_ok hid).2
    show Ends (Prog.bind (request (.getJob (env.jobId u))) _) _ s
    refine .bind_of_ok (Prog.run_call (o := Call.getJob (env.jobId u)) rfl) ?_
    refine .bind (ends_classifyTargeted u _) fun classified t ht => ?_
    obtain ⟨rfl, hclassified⟩ := ht
    have hread := buyerRead hid hclassified
    refine .bind (ends_recoverBuyer h.repaired hnone _ _ acc) fun acc' s' hend => ?_
    refine .bind (ends_inspectReservationMembership u) fun found t' ht => ?_
    obtain ⟨rfl, hfound⟩ := ht
    by_cases hinc : acc'.incidents = []
    · obtain ⟨hrow, ⟨item, hitem, hc, hs'⟩ | hs'⟩ := hend hinc
      · exact (h.restored hnone hread hitem hc hrow hs' hfound).mono fun _ _ h' _ => h'
      · exact (h.removed hnone hrow hs' hfound).mono fun _ _ h' _ => h'
    · exact (kept_resolveBuyerInspection _ _ _ _ _).mono fun _ _ h' hnone' =>
        absurd (h' hnone') hinc

/-- A buyer is checked. -/
theorem Checking.turn (h : Checking env bucket (fun v => v = u ∨ later v) acc s) :
    Ends (checkBuyer env acc u) (fun acc' s' => acc'.incidents = [] →
      Checking env bucket later acc' s') s := by
  unfold checkBuyer
  split_ifs with hentry
  · refine .pure fun _ => h.settled fun _ => ?_
    rw [← h.ledgerByUser u, hentry]
  · have hnone : (s.sales env.SALE_ID).reservations.hget u = none := by
      rw [h.ledgerByUser u] at hentry
      simpa [Hash.hexists] using hentry
    refine .bind (ends_inspectReservationMembership u) fun found t ht => ?_
    obtain ⟨rfl, hfound⟩ := ht
    rw [inspectMembership_of_none hnone] at hfound
    have houtcome := (Store.decodeInspection_ok hfound).1
    dsimp only at houtcome
    split_ifs at houtcome with hbuyer
    · rw [if_neg (by simp [houtcome])]
      exact h.adjudicate hnone
    · rw [if_pos (by simp [houtcome])]
      unfold resolveBuyerInspection
      rw [houtcome]
      exact .pure fun _ => h.settled fun hb => absurd hb hbuyer

/-! ## All buyers -/

theorem Checking.mono {unchecked unchecked' : String → Prop}
    (h : Checking env bucket unchecked acc s)
    (hu : ∀ v, (s.sales env.SALE_ID).buyers.sismember v = true → unchecked v → unchecked' v) :
    Checking env bucket unchecked' acc s :=
  ⟨h.repaired, h.bucket, h.ledgerByUser, h.byUser, fun v hv => (h.left v hv).imp_right (hu v hv)⟩

theorem run_scanBuyers (cursor count : ℕ) :
    (Store.scanBuyers env.SALE_ID cursor count).run Stores.answer s =
      some (.ok (scanPage s.buyerBucket (s.sales env.SALE_ID).buyers.keys cursor count), s) := by
  unfold Store.scanBuyers
  rw [assertSaleId_env]
  exact Prog.run_call (o := Call.sscan env.SALE_ID cursor count) rfl

theorem kept_checkPage (userIds : List String) (acc : Recovery) :
    Keeps acc (Prog.forEach userIds acc (checkBuyer env)) s := by
  refine .forEach (fun _ (acc' : Recovery) _ => acc'.incidents = [] → acc.incidents = [])
    (fun u _ acc' s' h => ?_) fun h => h
  exact (kept_checkBuyer acc' u).mono fun _ _ h' hnone => h (h' hnone)

theorem kept_checkBuyers (fuel cursor : ℕ) (acc : Recovery) :
    Keeps acc (checkBuyers env fuel cursor acc) s := by
  induction fuel generalizing cursor acc s with
  | zero => exact .throw
  | succ fuel ih =>
    unfold checkBuyers
    refine .bind_of_ok (run_scanBuyers cursor _) ?_
    generalize scanPage s.buyerBucket (s.sales env.SALE_ID).buyers.keys cursor
      env.WORKER_RECONCILE_SCAN_COUNT = page
    obtain ⟨next, userIds⟩ := page
    refine .bind (kept_checkPage userIds acc) fun acc' t ht => ?_
    split_ifs
    · exact .pure ht
    · exact (ih next acc').mono fun _ _ h hnone => ht (h hnone)

/-- The loop over the buyers without an incident leaves nobody without an entry. -/
theorem ends_checkBuyers (fuel : ℕ) {cursor : ℕ}
    (h : acc.incidents = [] → Checking env bucket (fun v => cursor ≤ bucket v) acc s) :
    Ends (checkBuyers env fuel cursor acc) (fun acc' s' => acc'.incidents = [] →
      Checking env bucket (fun _ => False) acc' s') s := by
  induction fuel generalizing cursor acc s with
  | zero => exact .throw
  | succ fuel ih =>
    let keys := (s.sales env.SALE_ID).buyers.keys
    let count := env.WORKER_RECONCILE_SCAN_COUNT
    by_cases hinc : acc.incidents = []
    · unfold checkBuyers
      refine .bind_of_ok (run_scanBuyers cursor _) ?_
      -- the page splits those who may lack an entry into its own and those behind it
      have h := h hinc
      have hopen : Checking env bucket (fun v => v ∈ (scanPage s.buyerBucket keys cursor count).2 ∨
          v ∈ keys ∧ cursor + count ≤ bucket v) acc s := by
        refine h.mono fun v hv hlo => ?_
        have hm : v ∈ keys := KeySet.sismember_iff_mem_keys.1 hv
        by_cases hhi : bucket v < cursor + count
        · refine .inl (List.mem_filter.2 ⟨hm, ?_⟩)
          rw [h.bucket]
          simp [hlo, hhi]
        · exact .inr ⟨hm, by omega⟩
      have hpage : Ends (Prog.forEach (scanPage s.buyerBucket keys cursor count).2 acc
          (checkBuyer env)) (fun acc' s' => acc'.incidents = [] → Checking env bucket
            (fun v => v ∈ [] ∨ v ∈ keys ∧ cursor + count ≤ bucket v) acc' s') s :=
        ends_healthyLoop (fun todo acc s => Checking env bucket
            (fun v => v ∈ todo ∨ v ∈ keys ∧ cursor + count ≤ bucket v) acc s)
          (fun u acc _ => kept_checkBuyer acc u)
          (fun u todo acc s h => (h.mono fun v _ hv => by simpa [or_assoc] using hv).turn)
          fun _ => hopen
      refine .bind hpage fun acc' t ht => ?_
      show Ends (if (scanPage s.buyerBucket keys cursor count).1 = 0 then .pure acc'
        else checkBuyers env fuel (scanPage s.buyerBucket keys cursor count).1 acc') _ t
      by_cases hlast : (scanPage s.buyerBucket keys cursor count).1 = 0
      · rw [if_pos hlast]
        refine .pure fun hnone => (ht hnone).mono fun v _ hv => ?_
        obtain hv | ⟨hm, hhi⟩ := hv
        · cases hv
        have hnext : (scanPage s.buyerBucket keys cursor count).1 = cursor + count := by
          refine if_pos (List.any_eq_true.2 ⟨v, hm, ?_⟩)
          rw [h.bucket]
          simpa using hhi
        have hcount : 0 < count := env.reconcilePage_pos
        omega
      · rw [if_neg hlast]
        refine ih fun hnone => (ht hnone).mono fun v _ hv => ?_
        obtain hv | ⟨-, hhi⟩ := hv
        · cases hv
        rw [(scanPage_continues hlast).1]
        exact hhi
    · exact (kept_checkBuyers (fuel + 1) cursor acc).mono fun _ _ h hnone => absurd (h hnone) hinc

end

end FlashSale
