import FlashSale.Worker.IsolatedPass

/-!
# The recovery of a pass, blind to the other sales

The scans, the two recovery loops, the loop over the ledger and the buyers. The scan of the queue
reports the jobs of all sales, but the loop over it does nothing for a job it does not present
(`forEach_recoverJob`). After the rows every user of a persisted row has an entry, so a job restores
the identity of a user without a persisted row only (`unseen_recoverRows`).
-/

namespace FlashSale

section

variable {env : WorkerEnv} {fuel : ℕ} {D : String → Prop} {s₀ s : Stores} {I : Stores → Prop}

/-! ## Scans -/

theorem ordersPage_only (offset limit : ℕ) :
    (s.only env.SALE_ID).ordersPage env.SALE_ID offset limit =
      s.ordersPage env.SALE_ID offset limit := by
  unfold Stores.ordersPage Stores.only Db.only
  dsimp only
  rw [List.filter_filter]
  congr 3
  funext row
  simp

theorem unseen_scanOrders (fuel : ℕ) {offset : ℕ} {rows : List DurableOrder} :
    Unseen env s₀ (· = s) (scanOrders env fuel offset rows) (fun _ => True) s := by
  induction fuel generalizing offset rows with
  | zero => exact .throw rfl
  | succ fuel ih =>
    unfold scanOrders
    refine .bind_read (unseen_read (P := fun _ => True) trivial rfl
      (congrArg (fun page => some (Except.ok page, _))
        (ordersPage_only offset env.WORKER_RECONCILE_SCAN_COUNT)) trivial) rfl fun page _ => ?_
    split_ifs
    · exact .pure rfl trivial
    · exact ih

/-- The scanned jobs, state by state. -/
theorem jobs_foldl_add (sts : List StoredJob) (scan : QueueScanResult) :
    (sts.foldl QueueScanResult.add scan).jobs =
      scan.jobs ++ sts.filterMap fun st => st.verdict.toOption := by
  induction sts generalizing scan with
  | nil => simp
  | cons st sts ih =>
    rw [List.foldl_cons, ih]
    unfold QueueScanResult.add
    cases hv : st.verdict with
    | error issue => rw [List.filterMap_cons_none (by rw [hv]; rfl)]
    | ok item =>
      rw [List.filterMap_cons_some (by rw [hv]; rfl)]
      simp

theorem scannedQueue_jobs (q : JobQueue) : (scannedQueue q).jobs =
    QUEUE_STATES.flatMap fun state =>
      (q.jobs.filter (·.state = state)).filterMap fun st => st.verdict.toOption := by
  have hstates : ∀ (states : List JobState) (scan : QueueScanResult),
      (states.foldl (fun scan state =>
        (q.jobs.filter (·.state = state)).foldl QueueScanResult.add scan) scan).jobs =
      scan.jobs ++ states.flatMap fun state =>
        (q.jobs.filter (·.state = state)).filterMap fun st => st.verdict.toOption := by
    intro states
    induction states with
    | nil => intro scan; simp
    | cons state states ih =>
      intro scan
      rw [List.foldl_cons, ih, jobs_foldl_add, List.flatMap_cons, List.append_assoc]
  exact hstates QUEUE_STATES ⟨[], []⟩

/-- The scan of the queue of one sale reports the jobs of the sale. -/
theorem scannedQueue_only (q : JobQueue) (saleId : String) : (scannedQueue (q.only saleId)).jobs =
    (scannedQueue q).jobs.filter (·.job.ofSale saleId) := by
  have hlist : ∀ sts : List StoredJob, (sts.filterMap fun st => st.verdict.toOption).filter
      (·.job.ofSale saleId) =
        (sts.filter (·.job.ofSale saleId)).filterMap fun st => st.verdict.toOption := by
    intro sts
    rw [List.filter_filterMap, List.filterMap_filter]
    refine List.filterMap_congr fun st _ => ?_
    cases hv : st.verdict with
    | error issue => simp [Except.toOption]
    | ok item =>
      have hjob : item.job = st.job := by rw [(classifyQueueEntry_ok (st.verdict_ok hv).1).1]
      simp [Except.toOption, Option.filter, hjob]
  rw [scannedQueue_jobs, scannedQueue_jobs, List.filter_flatMap]
  congr 1
  funext state
  rw [hlist, List.filter_filter]
  show (((q.jobs.filter _).filter _).filterMap _) = _
  rw [List.filter_filter]
  congr 2
  funext st
  exact Bool.and_comm _ _

/-! ## The rows of the sale -/

/-- The row the pass has on file for the user is the row of the sale. -/
theorem recorded_iff (hone : (s.db.orders.map (·.userId)).Nodup) {status : DurableOrderStatus}
    {u r : String} : Recorded env s status u r ↔ ∃ row,
      mapOf (·.userId) (saleRows env s) u = some row ∧ row.status = status ∧ row.id = r := by
  constructor
  · rintro ⟨row, hrow, hsale, rfl, hstatus, hid⟩
    exact ⟨row, (mapOf_saleRows hone).2 ⟨Db.row?_of_mem_orders hone hrow, hsale⟩, hstatus, hid⟩
  · rintro ⟨row, hrow, hstatus, hid⟩
    obtain ⟨hrow, hsale⟩ := (mapOf_saleRows hone).1 hrow
    exact ⟨row, Db.mem_orders_of_row? hrow, hsale, Db.row?_userId hrow, hstatus, hid⟩

/-- A user has one row, so one order on record. -/
theorem Recorded.inj (hone : (s.db.orders.map (·.userId)).Nodup) {status status' : DurableOrderStatus}
    {u r r' : String} (h : Recorded env s status u r) (h' : Recorded env s status' u r') :
    r = r' := by
  obtain ⟨row, hrow, -, rfl⟩ := (recorded_iff hone).1 h
  obtain ⟨row', hrow', -, rfl⟩ := (recorded_iff hone).1 h'
  rw [Option.some.inj (hrow.symm.trans hrow')]

/-- Users with an entry at the start or with a persisted row. -/
def Ordered (env : WorkerEnv) (s : Stores) (u : String) : Prop :=
  (s.sales env.SALE_ID).reservations.hexists u = true ∨ ∃ r, Recorded env s .persisted u r

/-- What holds after the loop over the rows. -/
abbrev RowsRecovered (env : WorkerEnv) (s₀ : Stores) : Stores → Prop :=
  Recovering env s₀ (Ordered env s₀)

/-! ## What the loops do to the maps -/

/-- The maps are the same, whatever incidents were added. -/
def Recovery.SameMaps (acc acc' : Recovery) : Prop :=
  acc'.byUser = acc.byUser ∧ acc'.ledgerByUser = acc.ledgerByUser

theorem Recovery.sameMaps_pushCollision (acc : Recovery) (coverage : EnsureLiveQueueResult)
    (u : String) : acc.SameMaps (acc.pushCollision coverage u) := by
  unfold pushCollision
  split_ifs
  · exact ⟨rfl, rfl⟩
  · exact ⟨rfl, rfl⟩

theorem valuesIn_applyRecoveryCandidate (candidate : Store.CompareRestoreReservationInput)
    (source : RecoverySource) (acc : Recovery) (targetedJob : Option (Option Job)) :
    (applyRecoveryCandidate env candidate source acc targetedJob).ValuesIn acc.SameMaps := by
  unfold applyRecoveryCandidate
  refine .bind fun a => ?_
  obtain ⟨outcome, current⟩ := a
  dsimp only
  by_cases hconflict : outcome ≠ .conflict
  · rw [if_pos hconflict]
    exact ⟨rfl, rfl⟩
  rw [if_neg hconflict]
  cases source with
  | queue =>
    dsimp only
    split_ifs
    · exact ⟨rfl, rfl⟩
    · exact ⟨rfl, rfl⟩
  | persisted =>
    dsimp only
    split_ifs
    · exact ⟨rfl, rfl⟩
    · exact .bind fun coverage => acc.sameMaps_pushCollision coverage candidate.userId

theorem valuesIn_recoverRow (acc : Recovery) (order : DurableOrder) :
    (recoverRow env acc order).ValuesIn acc.SameMaps := by
  unfold recoverRow
  split_ifs
  · exact ⟨rfl, rfl⟩
  · exact valuesIn_applyRecoveryCandidate _ _ _ _

theorem valuesIn_recoverJob (acc : Recovery) (item : ScannedJob) :
    (recoverJob env acc item).ValuesIn acc.SameMaps := by
  unfold recoverJob
  split_ifs
  · exact ⟨rfl, rfl⟩
  · exact ⟨rfl, rfl⟩
  · exact valuesIn_applyRecoveryCandidate _ _ _ _

theorem valuesIn_coverEntry (acc : Recovery) (entry : ReservationEntry) :
    (coverEntry env acc entry).ValuesIn acc.SameMaps := by
  unfold coverEntry
  dsimp only
  split_ifs
  · exact .bind fun _ => ⟨rfl, rfl⟩
  · exact .bind fun coverage => .bind fun _ => acc.sameMaps_pushCollision coverage entry.userId

/-- A loop whose turns keep the maps keeps what is known of them. -/
theorem valuesIn_loop {γ : Type} {body : Recovery → γ → WorkerM Recovery}
    (h : ∀ acc x, (body acc x).ValuesIn acc.SameMaps) (xs : List γ) (acc : Recovery) :
    (Prog.forEach xs acc body).ValuesIn acc.SameMaps := by
  refine .forEach (fun acc' x hacc' => ?_) xs ⟨rfl, rfl⟩
  refine (h acc' x).mono fun acc'' hacc'' => ?_
  exact ⟨hacc''.1.trans hacc'.1, hacc''.2.trans hacc'.2⟩

/-- The users the loop over the ledger has seen stay seen. -/
def Recovery.Extends (acc acc' : Recovery) : Prop :=
  ∀ u, (acc.ledgerByUser u).isSome = true → (acc'.ledgerByUser u).isSome = true

theorem Recovery.SameMaps.extends {acc acc' : Recovery} (h : acc.SameMaps acc') :
    acc.Extends acc' := by
  intro u hu
  rw [h.2]
  exact hu

theorem Recovery.Extends.setLedger {acc acc' : Recovery} (h : acc.Extends acc') (u : String)
    (entry : ReservationEntry) : acc.Extends (acc'.setLedger u entry) := by
  intro v hv
  show (Function.update acc'.ledgerByUser u (some entry) v).isSome = true
  by_cases e : v = u
  · subst e
    simp
  · rw [Function.update_of_ne e]
    exact h v hv

theorem valuesIn_resolveBuyerInspection (u : String)
    (inspection : Store.ReservationMembershipInspection) (durable : Option DurableOrder)
    (acc : Recovery) (targetedJob : Option (Option Job)) :
    (resolveBuyerInspection env u inspection durable acc targetedJob).ValuesIn acc.Extends := by
  have hbearing (entry : ReservationEntry) : Prog.ValuesIn acc.Extends (do
      let coverage ← ensureLiveReservationQueued env entry durable targetedJob
      Prog.throwIf (coverage = .retainedCollision ∧ targetedJob.isSome) (buyerOnlyFailure u)
      if inspection.outcome = .reservationOnly then do
        let membership ← Store.reconcileBuyerMembership env.SALE_ID u
        Prog.throwIf (membership ≠ .present)
          (.error ("buyer membership repair failed for " ++ u))
        return (acc.pushCollision coverage u).setLedger u entry
      else return (acc.pushCollision coverage u).setLedger u entry) := by
    refine .bind fun coverage => .bind fun _ => ?_
    have hset := (acc.sameMaps_pushCollision coverage u).extends.setLedger u entry
    split_ifs
    · exact .bind fun _ => .bind fun _ => hset
    · exact hset
  have hself : acc.Extends acc := fun _ hu => hu
  unfold resolveBuyerInspection
  cases hout : inspection.outcome with
  | neither => exact hself
  | buyerOnly => trivial
  | both =>
    rw [hout] at hbearing
    cases inspection.reservation with
    | none => trivial
    | some entry => exact hbearing entry
  | reservationOnly =>
    rw [hout] at hbearing
    cases inspection.reservation with
    | none => trivial
    | some entry => exact hbearing entry

theorem valuesIn_recoverBuyer (u : String) (row : Option DurableOrder) (targeted : Option Job)
    (candidate : Option ScannedJob) (acc : Recovery) :
    (recoverBuyer env u row targeted candidate acc).ValuesIn acc.Extends := by
  have hcandidate (c : Store.CompareRestoreReservationInput) (source : RecoverySource)
      (acc' : Recovery) (j : Option (Option Job)) (he : acc.Extends acc') :
      (applyRecoveryCandidate env c source acc' j).ValuesIn acc.Extends :=
    (valuesIn_applyRecoveryCandidate c source acc' j).mono fun _ h v hv => h.extends v (he v hv)
  have hself : acc.Extends acc := fun _ hu => hu
  unfold recoverBuyer
  cases row.filter fun row => row.saleId = env.SALE_ID with
  | none =>
    cases candidate with
    | none => trivial
    | some item => exact hcandidate _ _ _ _ hself
  | some r =>
    dsimp only
    split_ifs
    · exact .bind fun _ => hcandidate _ _ _ _ fun _ hv => hv
    · cases candidate with
      | some item => exact hcandidate _ _ _ _ fun _ hv => hv
      | none => exact .bind fun _ => .bind fun _ => fun _ hv => hv

theorem valuesIn_adjudicateBuyerOnly (u : String) (acc : Recovery) :
    (adjudicateBuyerOnly env u acc).ValuesIn acc.Extends := by
  unfold adjudicateBuyerOnly
  refine .bind fun row => .bind fun jobId => .bind fun targeted => .bind fun classified => ?_
  refine (valuesIn_recoverBuyer u row targeted _ acc).seq fun acc' hacc' => .bind fun inspection => ?_
  exact (valuesIn_resolveBuyerInspection _ _ _ _ _).mono fun _ h v hv => h v (hacc' v hv)

theorem valuesIn_checkBuyer (acc : Recovery) (u : String) :
    (checkBuyer env acc u).ValuesIn acc.Extends := by
  unfold checkBuyer
  split_ifs
  · exact fun _ hv => hv
  · refine .bind fun inspection => ?_
    split_ifs
    · exact valuesIn_resolveBuyerInspection _ _ _ _ _
    · exact valuesIn_adjudicateBuyerOnly _ _


/-! ## Candidates -/

theorem Recovering.compareRestore (h : Recovering env s₀ D s) {u r : String} (t : ℕ)
    (hr : isUuid r = true) (hsource : Source env s₀ u r)
    (hacc : (s.sales env.SALE_ID).reservations.hget u = none → Accounted env s₀ u r) :
    Recovering env s₀ (fun v => D v ∨ v = u) (s.setSale env.SALE_ID
      (compareRestoreReservation (s.sales env.SALE_ID) u r t).2) := by
  have henter : ((compareRestoreReservation (s.sales env.SALE_ID) u r t).2).reservations.hexists u =
      true := by
    unfold Redis.Hash.hexists
    rw [hget_compareRestoreReservation]
    rfl
  have hkeep : Recovering env s₀ D (s.setSale env.SALE_ID
      (compareRestoreReservation (s.sales env.SALE_ID) u r t).2) := by
    rcases compareRestoreReservation_cases (s.sales env.SALE_ID) u r t with
      ⟨hnone, e⟩ | ⟨v, hv, ⟨-, e⟩ | ⟨-, e⟩⟩
    · rw [e]
      refine h.setSale (fun u' v hv => ?_) (fun u' hu' => ?_) fun u' hu' => ?_
      · have hv : ((s.sales env.SALE_ID).reservations.hset u
            (ledgerValue r (toString t))).hget u' = some v := hv
        rw [Redis.Hash.hget_hset] at hv
        split_ifs at hv with hu
        · obtain rfl := Option.some.inj hv
          rw [hu, ledgerIdentity_ledgerValue _ (colon_notMem_of_isUuid hr)]
          exact .inr ⟨hsource, hacc hnone⟩
        · exact .inl hv
      · show ((s.sales env.SALE_ID).reservations.hset u _).hexists u' = true
        unfold Redis.Hash.hexists at *
        rw [Redis.Hash.hget_hset]
        split_ifs
        · rfl
        · exact hu'
      · have hu' : ((s.sales env.SALE_ID).buyers.sadd u).sismember u' = true := hu'
        rw [Redis.KeySet.sismember_sadd, Bool.or_eq_true, decide_eq_true_eq] at hu'
        rcases hu' with rfl | hu'
        · right
          show ((s.sales env.SALE_ID).reservations.hset u' _).hexists u' = true
          unfold Redis.Hash.hexists
          rw [Redis.Hash.hget_hset_self]
          rfl
        · exact .inl hu'
    · rw [e]
      refine h.sameLedger rfl fun u' hu' => ?_
      have hu' : ((s.sales env.SALE_ID).buyers.sadd u).sismember u' = true := hu'
      rw [Redis.KeySet.sismember_sadd, Bool.or_eq_true, decide_eq_true_eq] at hu'
      rcases hu' with rfl | hu'
      · right
        unfold Redis.Hash.hexists
        rw [hv]
        rfl
      · exact .inl hu'
    · rw [e]
      exact h.sameLedger rfl fun u' hu' => .inl hu'
  refine hkeep.enter ?_
  simpa [Stores.setSale] using henter

/-- What `compareAndRestoreReservation` tells of the entry on file. -/
structure OnFile (env : WorkerEnv) (s₀ : Stores) (u r : String)
    (a : CompareRestoreOutcome × ReservationEntry) : Prop where
  user : a.2.userId = u
  known : Known env s₀ u a.2.reservationId
  accounted : Accounted env s₀ u a.2.reservationId
  conflict : a.1 = .conflict → a.2.reservationId ≠ r

theorem blind_compareAndRestoreReservation {input : Store.CompareRestoreReservationInput}
    (hsource : Source env s₀ input.userId input.reservationId)
    (hacc : (s.sales env.SALE_ID).reservations.hget input.userId = none →
      Accounted env s₀ input.userId input.reservationId) (h : Recovering env s₀ D s) :
    Prog.Blind Stores.answer (Stores.only env.SALE_ID) (Origin env s₀)
      (Store.compareAndRestoreReservation env.SALE_ID input)
      (Prog.post (fun a t => Recovering env s₀ (fun v => D v ∨ v = input.userId) t ∧
        OnFile env s₀ input.userId input.reservationId a) fun _ => Recovering env s₀ D) s := by
  unfold Store.compareAndRestoreReservation
  rw [assertSaleId_env]
  show Prog.Blind _ _ _ ((Prog.ofExcept
    (Store.assertCompareRestoreReservationInput input)).bind _) _ s
  cases hin : Store.assertCompareRestoreReservationInput input with
  | error e => exact .throw h
  | ok _ =>
    have huuid : isUuid input.reservationId = true := by
      unfold Store.assertCompareRestoreReservationInput at hin
      split_ifs at hin with h1 h2
      simpa using h2
    have hnext := h.compareRestore input.reservedAtMs huuid hsource hacc
    have hfile : ((s.setSale env.SALE_ID (compareRestoreReservation (s.sales env.SALE_ID)
        input.userId input.reservationId input.reservedAtMs).2).sales
          env.SALE_ID).reservations.hget input.userId = some (compareRestoreReservation
            (s.sales env.SALE_ID) input.userId input.reservationId input.reservedAtMs).1.2 := by
      rw [← hget_compareRestoreReservation]
      simp [Stores.setSale]
    have hscript := unseen_script (s := s) (o := .compareRestore env.SALE_ID input.userId
      input.reservationId input.reservedAtMs) (f := fun sale => compareRestoreReservation sale
      input.userId input.reservationId input.reservedAtMs) ⟨rfl, hsource⟩ (fun _ => rfl) hnext
      (P := fun a => Known env s₀ input.userId (ledgerIdentity a.2) ∧
        Accounted env s₀ input.userId (ledgerIdentity a.2) ∧
        (a.1 = .conflict → ledgerIdentity a.2 ≠ input.reservationId))
      ⟨hnext.pass.known hfile, hnext.accounted _ _ hfile, compareRestoreReservation_conflict⟩
    show Prog.Blind _ _ _ ((request (.compareRestore env.SALE_ID input.userId input.reservationId
      input.reservedAtMs)).bind _) _ s
    refine .seq hscript (fun _ t ht => ht.mono fun v hv => .inl hv) fun a t ha => ?_
    obtain ⟨ht, hknown, hacc, hconflict⟩ := ha
    obtain ⟨outcome, value⟩ := a
    show Prog.Blind _ _ _ ((Prog.ofExcept (parseReservationEntry input.userId value)).bind _) _ t
    cases hp : parseReservationEntry input.userId value with
    | error e => exact .throw (ht.mono fun v hv => .inl hv)
    | ok entry =>
      obtain ⟨hu, hid⟩ := parseReservationEntry_ok hp
      refine .pure ⟨ht, hu, ?_, ?_, ?_⟩
      · rw [hid]; exact hknown
      · rw [hid]; exact hacc
      · rw [hid]; exact hconflict

theorem unseen_reconcileBuyerMembership (h : Recovering env s₀ D s) (u : String) :
    Unseen env s₀ (Recovering env s₀ D) (Store.reconcileBuyerMembership env.SALE_ID u)
      (fun _ => True) s := by
  unfold Store.reconcileBuyerMembership
  rw [assertSaleId_env]
  refine unseen_script (o := .reconcileMembership env.SALE_ID u)
    (f := fun sale => reconcileMembership sale u) trivial (fun _ => rfl)
    (h.sameLedger (reconcileMembership_keys _ u).1 fun u' hu' => ?_) trivial
  unfold reconcileMembership at hu'
  split_ifs at hu' with hu
  · have hu' : ((s.sales env.SALE_ID).buyers.sadd u).sismember u' = true := hu'
    rw [Redis.KeySet.sismember_sadd, Bool.or_eq_true, decide_eq_true_eq] at hu'
    rcases hu' with rfl | hu'
    · exact .inr hu
    · exact .inl hu'
  · have hu' : ((s.sales env.SALE_ID).buyers.srem u).sismember u' = true := hu'
    rw [Redis.KeySet.sismember_srem, Bool.and_eq_true] at hu'
    exact .inl hu'.2

section Recovery

variable (hi : Isolated env s₀)

include hi

/-- A candidate with a source. In a conflict with a row the pass looks for the job of the user. -/
theorem blind_applyRecoveryCandidate {candidate : Store.CompareRestoreReservationInput}
    {source : RecoverySource} {acc : Recovery} {targetedJob : Option (Option Job)}
    (hsource : Source env s₀ candidate.userId candidate.reservationId)
    (hacc : (s.sales env.SALE_ID).reservations.hget candidate.userId = none →
      Accounted env s₀ candidate.userId candidate.reservationId)
    (hlook : source = .persisted → ∀ r, Accounted env s₀ candidate.userId r →
      r ≠ candidate.reservationId → LooksUp env s₀ candidate.userId)
    (htarget : Targets env candidate.userId targetedJob) (h : Recovering env s₀ D s) :
    Prog.Blind Stores.answer (Stores.only env.SALE_ID) (Origin env s₀)
      (applyRecoveryCandidate env candidate source acc targetedJob)
      (Prog.post (fun _ => Recovering env s₀ fun v => D v ∨ v = candidate.userId)
        fun _ => Recovering env s₀ D) s := by
  unfold applyRecoveryCandidate
  refine .seq (blind_compareAndRestoreReservation hsource hacc h) (fun _ _ ht => ht) fun a t ht => ?_
  obtain ⟨hrec, hfile⟩ := ht
  obtain ⟨outcome, current⟩ := a
  dsimp only
  by_cases hconflict : outcome ≠ .conflict
  · rw [if_pos hconflict]
    exact .pure hrec
  rw [if_neg hconflict]
  cases source with
  | queue => exact .pure hrec
  | persisted =>
    dsimp only
    split_ifs
    · exact .pure hrec
    · have hu : current.userId = candidate.userId := hfile.user
      have hl : LooksUp env s₀ current.userId := by
        rw [hu]
        exact hlook rfl _ hfile.accounted (hfile.conflict (not_not.1 hconflict))
      have hknown : Known env s₀ current.userId current.reservationId := by
        rw [hu]
        exact hfile.known
      rw [← hu] at htarget
      exact .seq (unseen_ensureLiveReservationQueued hi htarget hl hknown hrec)
        (fun _ t ht => ht.mono fun v hv => .inl hv) fun _ t ht => .pure ht.1

theorem unseen_applyRecoveryCandidate {candidate : Store.CompareRestoreReservationInput}
    {source : RecoverySource} {acc : Recovery} {targetedJob : Option (Option Job)}
    (hsource : Source env s₀ candidate.userId candidate.reservationId)
    (hacc : (s.sales env.SALE_ID).reservations.hget candidate.userId = none →
      Accounted env s₀ candidate.userId candidate.reservationId)
    (hlook : source = .persisted → ∀ r, Accounted env s₀ candidate.userId r →
      r ≠ candidate.reservationId → LooksUp env s₀ candidate.userId)
    (ht : Targets env candidate.userId targetedJob) (h : Recovering env s₀ D s) :
    Unseen env s₀ (Recovering env s₀ D)
      (applyRecoveryCandidate env candidate source acc targetedJob) (fun _ => True) s := by
  refine Prog.Blind.mono (blind_applyRecoveryCandidate hi hsource hacc hlook ht h) fun r t hr => ?_
  cases r with
  | error e => exact hr
  | ok _ => exact ⟨(show Recovering _ _ _ t from hr).mono fun v hv => .inl hv, trivial⟩

/-- After the loop over the rows every user of a persisted row has an entry. -/
theorem blind_recoverRows {acc : Recovery} (h : Recovering env s₀ D s) :
    Prog.Blind Stores.answer (Stores.only env.SALE_ID) (Origin env s₀)
      (Prog.forEach (saleRows env s₀) acc (recoverRow env))
      (Prog.post (fun _ => Recovering env s₀ fun u => D u ∨ ∃ r, Recorded env s₀ .persisted u r)
        fun _ => Recovering env s₀ D) s := by
  refine Prog.Blind.mono (Prog.Blind.forEach
    (fun todo _ t => (∀ row ∈ todo, row ∈ saleRows env s₀) ∧ Recovering env s₀ (fun u => D u ∨
      ∃ row ∈ saleRows env s₀, row.status = .persisted ∧ row.userId = u ∧ row ∉ todo) t)
    (E := fun _ => Recovering env s₀ D) (fun order todo acc t ht => ?_)
    ⟨fun _ hrow => hrow, ?_⟩) fun r t hr => ?_
  · obtain ⟨hsub, ht⟩ := ht
    have hsub' : ∀ row ∈ todo, row ∈ saleRows env s₀ := fun row hrow => hsub row (by simp [hrow])
    unfold recoverRow
    split_ifs with hstatus
    · refine .pure ⟨hsub', ht.mono fun u hu => hu.imp_right ?_⟩
      rintro ⟨row, hrow, hp, hu, hnot⟩
      refine ⟨row, hrow, hp, hu, fun hmem => ?_⟩
      rcases List.mem_cons.1 hmem with rfl | hmem
      · exact hstatus hp
      · exact hnot hmem
    · have hstatus := not_not.1 hstatus
      obtain ⟨hrow, hsale⟩ := mem_saleRows.1 (hsub order (by simp))
      have hrec : Recorded env s₀ .persisted order.userId order.id :=
        ⟨order, hrow, hsale, rfl, hstatus, rfl⟩
      refine Prog.Blind.mono (blind_applyRecoveryCandidate hi (.inl ⟨order, hrow, hsale, rfl, rfl⟩)
        (fun _ => .inl hrec) (fun _ r hr hne => ?_) (fun _ e => by cases e) ht) fun r t hr => ?_
      · rcases hr with hr | hr
        · exact absurd (hr.inj h.rowsNodup hrec) hne
        · exact hr
      · cases r with
        | error e => exact (show Recovering _ _ _ t from hr).mono fun u hu => .inl hu
        | ok _ =>
          refine ⟨hsub', (show Recovering _ _ _ t from hr).mono fun u hu => ?_⟩
          rcases hu with hu | ⟨row, hrow', hp, hu, hnot⟩
          · exact .inl (.inl hu)
          · by_cases e : row = order
            · subst e
              exact .inr hu.symm
            · exact .inl (.inr ⟨row, hrow', hp, hu, by simp [e, hnot]⟩)
  · refine h.mono fun u hu => ?_
    rcases hu with hu | ⟨row, hrow, -, -, hnot⟩
    · exact hu
    · exact absurd hrow hnot
  · cases r with
    | error e => exact hr
    | ok _ =>
      refine hr.2.mono fun u hu => hu.imp_right ?_
      rintro ⟨r, row, hrow, hsale, hu, hstatus, -⟩
      exact ⟨row, mem_saleRows.2 ⟨hrow, hsale⟩, hstatus, hu, by simp⟩

/-- A job of the sale. The users of persisted rows have an entry by now. -/
theorem unseen_recoverJob {item : ScannedJob} {acc : Recovery}
    (hb : acc.byUser = mapOf (·.userId) (saleRows env s₀))
    (hitem : ∃ st ∈ s₀.queue.jobs, st.verdict = .ok item)
    (hown : item.job.ofSale env.SALE_ID = true) (h : RowsRecovered env s₀ s) :
    Unseen env s₀ (RowsRecovered env s₀) (recoverJob env acc item)
      (fun _ => True) s := by
  obtain ⟨st, hst, hv⟩ := hitem
  obtain ⟨hitem, hdata, -⟩ := classifyQueueEntry_ok (st.verdict_ok hv).1
  have hjob : item.job = st.job := by rw [hitem]
  have hstate : item.state = st.state := by rw [hitem]
  have hsale : item.payload.saleId = env.SALE_ID := by
    obtain ⟨p, hp, hsale⟩ := Job.ofSale_iff.1 hown
    rw [hjob, hdata] at hp
    rw [Except.ok.inj hp]
    exact hsale
  unfold recoverJob
  split_ifs with hl hmark
  · exact .pure h trivial
  · exact .pure h trivial
  · refine unseen_applyRecoveryCandidate hi (.inr ⟨st, hst, _, hdata, hsale, rfl, rfl⟩)
      (fun hnone => .inr ?_) (fun e => by cases e) (fun _ e => by cases e) h
    have hout : ¬ Ordered env s₀ item.payload.userId := by
      intro hord
      have hex := h.kept _ hord
      unfold Redis.Hash.hexists at hex
      rw [hnone] at hex
      cases hex
    refine .noEntry ?_ (fun r hr => hout (.inr ⟨r, hr⟩)) (.inr ⟨st, hst, item.payload, ⟨?_, ?_, ?_⟩,
      hsale, rfl⟩)
    · by_contra hsome
      exact hout (.inl (Option.isSome_iff_ne_none.2 hsome))
    · rw [hv, hitem]
    · rw [← hstate]
      simpa using hl
    · intro hrec
      obtain ⟨row, hrow, hstatus, hid⟩ := (recorded_iff h.rowsNodup).1 hrec
      exact hmark (by rw [hb, hrow]; simp [hstatus, hid])

theorem unseen_coverEntry {entry : ReservationEntry} {acc : Recovery}
    (hb : acc.byUser = mapOf (·.userId) (saleRows env s₀))
    (hknown : Known env s₀ entry.userId entry.reservationId)
    (hacc : Accounted env s₀ entry.userId entry.reservationId) (h : Recovering env s₀ D s) :
    Unseen env s₀ (Recovering env s₀ D) (coverEntry env acc entry) (fun _ => True) s := by
  unfold coverEntry
  dsimp only
  split_ifs with hrow
  · exact .bind (unseen_reconcileBuyerMembership h entry.userId) fun _ t ht _ => .pure ht trivial
  · have hl : LooksUp env s₀ entry.userId := by
      rcases hacc with hrec | hl
      · obtain ⟨row, hrow', hstatus, hid⟩ := (recorded_iff h.rowsNodup).1 hrec
        exact absurd (by rw [hb, hrow']; simp [hstatus, hid]) hrow
      · exact hl
    refine .bind (unseen_ensureLiveReservationQueued hi (fun _ e => by cases e) hl hknown h)
      fun coverage t ht _ => ?_
    exact .bind (unseen_reconcileBuyerMembership ht entry.userId) fun _ t ht _ => .pure ht trivial

end Recovery

theorem unseen_scanLedger (fuel : ℕ) {cursor : ℕ} {entries : List ReservationEntry} :
    Unseen env s₀ (· = s) (scanLedger env fuel cursor entries) (fun _ => True) s := by
  induction fuel generalizing cursor entries with
  | zero => exact .throw rfl
  | succ fuel ih =>
    have hpage : Unseen env s₀ (· = s)
        (Store.scanReservations env.SALE_ID cursor env.WORKER_RECONCILE_SCAN_COUNT)
        (fun _ => True) s := by
      unfold Store.scanReservations
      rw [assertSaleId_env]
      show Unseen env s₀ _ ((request (.hscan env.SALE_ID cursor _)).bind _) _ s
      refine .bind_read (unseen_read (o := .hscan env.SALE_ID cursor env.WORKER_RECONCILE_SCAN_COUNT)
        (P := fun _ => True) trivial rfl ?_ trivial) rfl fun a _ => ?_
      · show some (Except.ok (Stores.hscanPage _ _ _ _), _) = _
        unfold Stores.hscanPage
        rw [Stores.sales_only]
        rfl
      · exact .bind_read (.ofExcept rfl fun _ _ => trivial) rfl fun page _ => .pure rfl trivial
    unfold scanLedger
    refine .bind_read hpage rfl fun a _ => ?_
    obtain ⟨next, page⟩ := a
    dsimp only
    split_ifs
    · exact .pure rfl trivial
    · exact ih

/-- What the pass knows of an entry it has read. -/
theorem Recovering.scanned (h : Recovering env s₀ D s) {entries : List ReservationEntry}
    (hscan : LedgerScanned env s entries) {entry : ReservationEntry} (hentry : entry ∈ entries) :
    Known env s₀ entry.userId entry.reservationId ∧
      Accounted env s₀ entry.userId entry.reservationId := by
  obtain ⟨u, v, hv, hp⟩ := hscan.sound entry hentry
  obtain ⟨hu, hid⟩ := parseReservationEntry_ok hp
  rw [hu, hid]
  exact ⟨h.pass.known hv, h.accounted u v hv⟩

/-- The users of persisted rows are among those whose entries were read. -/
theorem Recovering.mapOf_scanned (h : RowsRecovered env s₀ s)
    {entries : List ReservationEntry} (hscan : LedgerScanned env s entries) {u : String}
    (hu : ∃ r, Recorded env s₀ .persisted u r) : (mapOf (·.userId) entries u).isSome = true := by
  have hex := h.kept u (.inr hu)
  obtain ⟨v, hv⟩ := Option.isSome_iff_exists.1 hex
  obtain ⟨entry, hentry, hp⟩ := hscan.complete u v hv
  by_contra hnone
  rw [Bool.not_eq_true, Option.isSome_eq_false_iff, Option.isNone_iff_eq_none] at hnone
  exact mapOf_eq_none.1 hnone entry hentry (parseReservationEntry_ok hp).1

/-! ## Buyers -/

/-- What an inspection of the user tells. -/
structure Inspected (env : WorkerEnv) (s₀ : Stores) (u : String)
    (inspection : Store.ReservationMembershipInspection) : Prop where
  entry : ∀ e, inspection.reservation = some e → e.userId = u ∧ Known env s₀ u e.reservationId
  buyerOnly : inspection.outcome = .buyerOnly →
    (s₀.sales env.SALE_ID).reservations.hexists u = false

theorem unseen_inspectReservationMembership (h : RowsRecovered env s₀ s) (u : String) :
    Unseen env s₀ (· = s) (Store.inspectReservationMembership env.SALE_ID u)
      (Inspected env s₀ u) s := by
  unfold Store.inspectReservationMembership
  rw [assertSaleId_env]
  refine .throwIf_bind rfl fun _ => ?_
  refine .bind_read (unseen_read (o := .inspect env.SALE_ID u)
    (a := inspectMembership (s.sales env.SALE_ID) u)
    (P := fun raw => raw = inspectMembership (s.sales env.SALE_ID) u) trivial rfl ?_ rfl) rfl
    fun raw hraw => .ofExcept rfl fun inspection hdec => ?_
  · show some (Except.ok (inspectMembership _ u), _) = _
    rw [Stores.sales_only]
  subst hraw
  obtain ⟨hout, hres⟩ := Store.decodeInspection_ok hdec
  refine ⟨fun e he => ?_, fun hb => ?_⟩
  · obtain ⟨hne, hparse⟩ := hres e he
    obtain ⟨hu, hid⟩ := parseReservationEntry_ok hparse
    rw [hid]
    exact ⟨hu, h.pass.known (inspectMembership_value rfl hne)⟩
  · -- an entry of the start would still be there
    have hnone := inspectMembership_buyerOnly (hout.symm.trans hb)
    by_contra hex
    have hex := h.kept u (.inl (Bool.eq_true_of_not_eq_false hex))
    unfold Redis.Hash.hexists at hex
    rw [hnone] at hex
    cases hex

theorem recoverBuyer_filter (u : String) (row : Option DurableOrder) :
    recoverBuyer env u (row.filter fun row => row.saleId = env.SALE_ID) = recoverBuyer env u row := by
  funext targeted candidate acc
  unfold recoverBuyer
  rw [Option.filter_filter]
  simp only [Bool.and_self]

section Buyers

variable (hi : Isolated env s₀)

include hi

theorem unseen_resolveBuyerInspection {u : String}
    {inspection : Store.ReservationMembershipInspection} {durable : Option DurableOrder}
    {acc : Recovery} {targetedJob : Option (Option Job)} (hinsp : Inspected env s₀ u inspection)
    (hl : LooksUp env s₀ u) (ht : Targets env u targetedJob) (h : RowsRecovered env s₀ s) :
    Unseen env s₀ (RowsRecovered env s₀)
      (resolveBuyerInspection env u inspection durable acc targetedJob) (fun _ => True) s := by
  have hbearing (entry : ReservationEntry) (he : inspection.reservation = some entry) :
      Unseen env s₀ (RowsRecovered env s₀) (do
        let coverage ← ensureLiveReservationQueued env entry durable targetedJob
        Prog.throwIf (coverage = .retainedCollision ∧ targetedJob.isSome) (buyerOnlyFailure u)
        if inspection.outcome = .reservationOnly then do
          let membership ← Store.reconcileBuyerMembership env.SALE_ID u
          Prog.throwIf (membership ≠ .present)
            (.error ("buyer membership repair failed for " ++ u))
          return (acc.pushCollision coverage u).setLedger u entry
        else return (acc.pushCollision coverage u).setLedger u entry) (fun _ => True) s := by
    obtain ⟨hu, hknown⟩ := hinsp.entry entry he
    rw [← hu] at ht hknown hl
    refine .bind (unseen_ensureLiveReservationQueued hi ht hl hknown h) fun coverage t hrec _ => ?_
    refine .throwIf_bind hrec fun _ => ?_
    split_ifs
    · refine .bind (unseen_reconcileBuyerMembership hrec u) fun membership t hrec _ => ?_
      exact .throwIf_bind hrec fun _ => .pure hrec trivial
    · exact .pure hrec trivial
  unfold resolveBuyerInspection
  cases he : inspection.reservation with
  | none =>
    cases inspection.outcome with
    | neither => exact .pure h trivial
    | buyerOnly => exact .throw h
    | both => exact .throw h
    | reservationOnly => exact .throw h
  | some entry =>
    have hbearing := hbearing entry he
    cases hout : inspection.outcome with
    | neither => exact .pure h trivial
    | buyerOnly => exact .throw h
    | both => rw [hout] at hbearing; exact hbearing
    | reservationOnly => rw [hout] at hbearing; exact hbearing

theorem unseen_recoverBuyer {u : String} {row : Option DurableOrder} {targeted : Option Job}
    {candidate : Option ScannedJob} {acc : Recovery}
    (hrow : ∀ r, row = some r → r ∈ s₀.db.orders ∧ r.userId = u)
    (hcandidate : ∀ item, candidate = some item → Source env s₀ u item.payload.reservationId)
    (hl : LooksUp env s₀ u) (ht : Targets env u (targeted.map some)) (h : RowsRecovered env s₀ s) :
    Unseen env s₀ (RowsRecovered env s₀) (recoverBuyer env u row targeted candidate acc)
      (fun _ => True) s := by
  have hqueue : ∀ item acc, candidate = some item → Unseen env s₀ (RowsRecovered env s₀)
      (applyRecoveryCandidate env ⟨u, item.payload.reservationId, item.payload.reservedAtMs⟩ .queue
        acc none) (fun _ => True) s := fun item acc e =>
    unseen_applyRecoveryCandidate hi (hcandidate item e) (fun _ => .inr hl) (fun e => by cases e)
      (fun _ e => by cases e) h
  unfold recoverBuyer
  cases hf : row.filter fun row => row.saleId = env.SALE_ID with
  | none =>
    cases hc : candidate with
    | none => exact .throw h
    | some item => exact hqueue item acc hc
  | some r =>
    rw [Option.filter_eq_some_iff] at hf
    obtain ⟨hm, hu⟩ := hrow r hf.1
    dsimp only
    split_ifs
    · refine .throwIf_bind h fun _ => ?_
      refine unseen_applyRecoveryCandidate hi (.inl ⟨r, hm, ?_, hu, rfl⟩) (fun _ => .inr hl)
        (fun _ _ _ _ => hl) ht h
      simpa using hf.2
    · cases hc : candidate with
      | some item => exact hqueue item _ hc
      | none =>
        refine .bind (unseen_reconcileBuyerMembership h u) fun membership t hrec _ => ?_
        exact .throwIf_bind hrec fun _ => .pure hrec trivial

/-- The candidate of the queue, if any, has a source: the user had no entry at the start, so a job
that the pass added does not count. -/
theorem unseen_classifyTargeted {u : String} {targeted : Option Job} (hu : isUserId u = true)
    (htargeted : ∀ job, targeted = some job → job.id = env.jobId u ∧ JobFrom env s₀ job)
    (hl : LooksUp env s₀ u)
    (hnone : (s₀.sales env.SALE_ID).reservations.hexists u = false) (h : RowsRecovered env s₀ s) :
    Unseen env s₀ (· = s) (classifyTargeted u targeted) (fun found => ∀ item, found = some item →
      item.payload.saleId = env.SALE_ID → item.payload.userId = u →
        Source env s₀ u item.payload.reservationId) s := by
  unfold classifyTargeted
  cases targeted with
  | none => exact .pure rfl fun _ e => by cases e
  | some job =>
    obtain ⟨hid, hfrom⟩ := htargeted job rfl
    have hown := h.pass.owns hi hu hl
    rw [← hid] at hown
    refine .bind_read (unseen_getState hown (P := fun _ => True) trivial) rfl fun state _ => ?_
    cases hc : classifyQueueEntry job state with
    | error e => exact .throw rfl
    | ok item =>
      refine .pure rfl fun item' e hsale huser => ?_
      obtain rfl := Option.some.inj e
      rcases hfrom.known hc hsale with ⟨v, hv, -⟩ | hsource
      · rw [huser] at hv
        unfold Redis.Hash.hexists at hnone
        rw [hv] at hnone
        cases hnone
      · exact huser ▸ hsource

theorem unseen_adjudicateBuyerOnly {u : String} {acc : Recovery} (hl : LooksUp env s₀ u)
    (hnone : (s₀.sales env.SALE_ID).reservations.hexists u = false) (h : RowsRecovered env s₀ s) :
    Unseen env s₀ (RowsRecovered env s₀) (adjudicateBuyerOnly env u acc) (fun _ => True) s := by
  unfold adjudicateBuyerOnly
  have herase : (request (.getByUser u)).run Stores.answer (s.only env.SALE_ID) =
      some (.ok ((s.db.row? u).filter fun row => row.saleId = env.SALE_ID),
        s.only env.SALE_ID) := by
    refine Prog.run_call ?_
    rw [← Db.row?_only_eq_filter h.pass.tables.users]
    rfl
  refine Prog.Blind.bind_of_runs (Prog.run_call (o := Call.getByUser u) rfl) herase ?_
    (Prog.CallsIn.made (.call trivial) _ _) ?_
  · simp only [recoverBuyer_filter]
  cases hid : buildOrdersJobId env.SALE_ID u with
  | error e => exact .throw h
  | ok jobId =>
    obtain ⟨hu, hjobId⟩ := buildOrdersJobId_ok hid
    have hown : s.queue.Owns env.SALE_ID jobId := by
      rw [hjobId]
      exact h.pass.owns hi hu hl
    show Unseen env s₀ _ ((request (.getJob jobId)).bind _) _ s
    refine .bind_read (unseen_getJob hown (P := fun r => ∀ job, r = some job →
      job.id = env.jobId u ∧ JobFrom env s₀ job) fun job hj => ?_) h fun targeted htargeted => ?_
    · obtain ⟨hjob, hfrom⟩ := h.pass.jobFrom hj
      exact ⟨hjob.trans hjobId, hfrom⟩
    have hts : Targets env u (targeted.map some) := by
      rintro job e
      obtain ⟨job', hjob, hsame⟩ := Option.map_eq_some_iff.1 e
      exact (htargeted job (hjob.trans hsame)).1
    refine .bind_read (unseen_classifyTargeted hi hu htargeted hl hnone h) h fun found hfound => ?_
    dsimp only
    refine .bind (unseen_recoverBuyer hi (fun r hrow => ?_) (fun item hitem => ?_) hl hts h)
      fun acc t hrec _ => ?_
    · have hm := Db.mem_orders_of_row? hrow
      rw [h.db] at hm
      exact ⟨hm, Db.row?_userId hrow⟩
    · rw [Option.filter_eq_some_iff] at hitem
      have hb := hitem.2
      simp only [Bool.and_eq_true, decide_eq_true_eq] at hb
      exact hfound item hitem.1 hb.1.2 hb.2
    · refine .bind_read (unseen_inspectReservationMembership hrec u) hrec fun inspection hinsp => ?_
      exact unseen_resolveBuyerInspection hi hinsp hl hts hrec

/-- A buyer without an entry among those that were read. -/
theorem unseen_checkBuyer {u : String} {acc : Recovery}
    (hseen : ∀ v, (∃ r, Recorded env s₀ .persisted v r) → (acc.ledgerByUser v).isSome = true)
    (hbuyer : (∃ r, Accounted env s₀ u r) ∨
      (s₀.sales env.SALE_ID).buyers.sismember u = true) (h : RowsRecovered env s₀ s) :
    Unseen env s₀ (RowsRecovered env s₀) (checkBuyer env acc u) (fun _ => True) s := by
  unfold checkBuyer
  split_ifs with hread
  · exact .pure h trivial
  · have hrow : ∀ r, ¬ Recorded env s₀ .persisted u r := fun r hr => hread (hseen u ⟨r, hr⟩)
    have hl : LooksUp env s₀ u := by
      rcases hbuyer with ⟨r, hr | hl⟩ | hbuyer
      · exact absurd hr (hrow r)
      · exact hl
      · cases hv : (s₀.sales env.SALE_ID).reservations.hget u with
        | none => exact .noEntry hv hrow (.inl hbuyer)
        | some v => exact .entry hv (hrow _)
    refine .bind_read (unseen_inspectReservationMembership h u) h fun inspection hinsp => ?_
    split_ifs with hb
    · exact unseen_resolveBuyerInspection hi hinsp hl (fun _ e => by cases e) h
    · exact unseen_adjudicateBuyerOnly hi hl (hinsp.buyerOnly (not_not.1 hb)) h

theorem unseen_checkBuyers (n : ℕ) {cursor : ℕ} {acc : Recovery}
    (hseen : ∀ v, (∃ r, Recorded env s₀ .persisted v r) → (acc.ledgerByUser v).isSome = true)
    (h : RowsRecovered env s₀ s) :
    Unseen env s₀ (RowsRecovered env s₀) (checkBuyers env n cursor acc) (fun _ => True) s := by
  induction n generalizing cursor acc s with
  | zero => exact .throw h
  | succ n ih =>
    unfold checkBuyers
    have hpage : Unseen env s₀ (· = s)
        (Store.scanBuyers env.SALE_ID cursor env.WORKER_RECONCILE_SCAN_COUNT)
        (fun page => ∀ u ∈ page.2, (s.sales env.SALE_ID).buyers.sismember u = true) s := by
      unfold Store.scanBuyers
      rw [assertSaleId_env]
      refine unseen_read (o := .sscan env.SALE_ID cursor env.WORKER_RECONCILE_SCAN_COUNT) trivial
        rfl ?_ fun u hu => ?_
      · show some (Except.ok (Redis.scanPage _ _ _ _), _) = _
        rw [Stores.sales_only]
        rfl
      · exact Redis.KeySet.sismember_iff_mem_keys.2 (List.mem_filter.1 hu).1
    refine .bind_read hpage h fun page hpage => ?_
    obtain ⟨next, userIds⟩ := page
    have hbuyers : ∀ u ∈ userIds, (∃ r, Accounted env s₀ u r) ∨
        (s₀.sales env.SALE_ID).buyers.sismember u = true := by
      intro u hu
      rcases h.buyers u (hpage u hu) with hold | hex
      · exact .inr hold
      · obtain ⟨v, hv⟩ := Option.isSome_iff_exists.1 hex
        exact .inl ⟨_, h.accounted u v hv⟩
    refine .bind (.forEach (R := fun acc => ∀ v, (∃ r, Recorded env s₀ .persisted v r) →
      (acc.ledgerByUser v).isSome = true) (fun u hu acc t ht hacc => ?_) h hseen)
      fun acc t ht hacc => ?_
    · refine .weaken (.returns (unseen_checkBuyer hi hacc (hbuyers u hu) ht)
        ((valuesIn_checkBuyer acc u).returns _ _)) fun acc' hacc' v hv => hacc'.2 v (hacc v hv)
    · split_ifs
      · exact .pure ht trivial
      · exact ih hacc ht

end Buyers

end

end FlashSale
