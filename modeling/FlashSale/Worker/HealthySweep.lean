import FlashSale.Worker.HealthyBuyers
import FlashSale.Worker.Redelivery

/-!
# The sweep of a healthy pass

Once the stock is derived the stores are balanced. The sweep resolves failed jobs and removes them:
a reservation that is not persisted leaves the ledger together with its buyer and gives its unit
back, one that is persisted stays. Either way the stores are balanced again.
-/

namespace FlashSale

open Redis

section

variable {env : WorkerEnv} {s s' : Stores} {p : OrdersQueueJobPayload}

/-! ## A resolution that returns -/

theorem ends_sql {c : ℕ} {st : Statement} {P : st.Res → Stores → Prop}
    (h : ∀ a db, s.db.exec c st = some (.ok a, db) → P a { s with db := db }) :
    Ends (sql c st) P s := by
  refine .call fun a t ht => ?_
  obtain ⟨q, hq, e⟩ := Option.map_eq_some_iff.1 ht
  obtain ⟨ha, rfl⟩ := Prod.mk.inj e
  exact h a q.2 (by rw [hq, ← ha])

/-- A transaction returns what its work returned, and with it the work was committed. -/
theorem ends_transaction {α : Type} {c : ℕ} {work : WorkerM α} {P : α → Stores → Prop}
    (hidle : s.db.tx? c = none)
    (hwork : Ends work (fun a t => ∀ db, t.db.exec c .commit = some (.ok (), db) →
      P a { t with db := db }) { s with db := s.db.setTx c .start }) :
    Ends (transaction c work) P s := by
  unfold transaction
  refine .catchWith ?_ fun e t => .bind (ends_trivial _) fun _ _ _ => .throw
  have hbegin : s.db.exec c .begin = some (.ok (), s.db.setTx c .start) := by
    unfold Db.exec
    rw [hidle]
  refine .bind_of_ok (Prog.run_call (answer_sql hbegin)) (.bind hwork fun a t ht => ?_)
  exact .bind (ends_sql (P := fun _ u => P a u) fun x db hdb => ht db hdb) fun _ _ h => .pure h

/-- The rows after a resolution: at most a marker of the user is new. -/
structure MarkerLeft (p : OrdersQueueJobPayload) (db db' : Db) : Prop where
  idle : db'.txs = ∅
  users : (db'.orders.map (·.userId)).Nodup
  others : ∀ v, v ≠ p.userId → db'.row? v = db.row? v
  own : ∀ row, row.status = .persisted →
    (db'.row? p.userId = some row ↔ db.row? p.userId = some row)

variable {db : Db}

theorem MarkerLeft.refl (hidle : db.txs = ∅) (husers : (db.orders.map (·.userId)).Nodup) :
    MarkerLeft p db db :=
  ⟨hidle, husers, fun _ _ => rfl, fun _ _ => .rfl⟩

theorem MarkerLeft.update (hidle : db.txs = ∅) (husers : (db.orders.map (·.userId)).Nodup)
    {old : DurableOrder} (hold : db.row? p.userId = some old) (hst : old.status = .compensated) :
    MarkerLeft p db (db.apply (.update (p.toRow .compensated))) := by
  have hrow : ∀ v, (db.apply (.update (p.toRow .compensated))).row? v =
      if v = p.userId then some (p.toRow .compensated) else db.row? v :=
    Db.row?_apply_update (by rw [show (p.toRow .compensated).userId = p.userId from rfl, hold]; rfl)
  refine ⟨hidle, by rw [Db.users_apply_update]; exact husers, fun v hv => ?_, fun row hrow' => ?_⟩
  · rw [hrow, if_neg hv]
  · rw [hrow, if_pos rfl, hold]
    constructor
    · rintro ⟨⟩
      cases hrow'
    · rintro ⟨⟩
      rw [hst] at hrow'
      cases hrow'

theorem MarkerLeft.insert (hidle : db.txs = ∅) (husers : (db.orders.map (·.userId)).Nodup)
    (hnone : db.row? p.userId = none) :
    MarkerLeft p db (db.apply (.insert (p.toRow .compensated))) := by
  have hrow : ∀ v, (db.apply (.insert (p.toRow .compensated))).row? v =
      if v = p.userId then some (p.toRow .compensated) else db.row? v :=
    Db.row?_apply_insert hnone
  refine ⟨hidle, ?_, fun v hv => ?_, fun row hrow' => ?_⟩
  · rw [Db.users_apply_insert, (List.perm_orderedInsert _ _ _).nodup_iff, List.nodup_cons]
    refine ⟨fun hm => ?_, husers⟩
    obtain ⟨old, hold, e⟩ := List.mem_map.1 hm
    exact Db.row?_eq_none.1 hnone old hold e
  · rw [hrow, if_neg hv]
  · rw [hrow, if_pos rfl, hnone]
    constructor
    · rintro ⟨⟩
      cases hrow'
    · rintro ⟨⟩

/-- What a resolution that returns has done: nothing to a persisted order, else a compensation. -/
def Resolved (env : WorkerEnv) (p : OrdersQueueJobPayload) (s s' : Stores) : Prop :=
  s.db.Records p.userId p.reservationId ∧ s' = s ∨
    ¬ s.db.Records p.userId p.reservationId ∧ ∃ db, MarkerLeft p s.db db ∧
      s' = { s.setSale env.SALE_ID
        (compensate (s.sales env.SALE_ID) p.userId p.reservationId).2 with db := db }

theorem run_compensate (s : Stores) (u r : String) :
    (Store.compensate env.SALE_ID u r).run Stores.answer s =
      some (.ok (compensate (s.sales env.SALE_ID) u r).1,
        s.setSale env.SALE_ID (compensate (s.sales env.SALE_ID) u r).2) := by
  unfold Store.compensate
  rw [assertSaleId_env]
  exact Prog.run_call (o := Call.compensate env.SALE_ID u r) rfl

/-- A commit of the only transaction. -/
theorem commit_eq {tx : Tx} {db' : Db} (hidle : db.txs = ∅)
    (h : (db.setTx 0 tx).exec 0 .commit = some (.ok (), db')) : db' = tx.write.elim db db.apply := by
  obtain ⟨-, ⟨hnone, -⟩ | ⟨tx', htx, rfl⟩⟩ := Db.exec_commit h
  · rw [Db.tx?_setTx_self] at hnone
    cases hnone
  · rw [Db.tx?_setTx_self] at htx
    obtain rfl := Option.some.inj htx
    cases tx.write with
    | none => exact Db.endTx_setTx hidle
    | some w =>
      have hend : ((db.apply w).setTx 0 tx).endTx 0 = db.apply w := by
        refine Db.endTx_setTx ?_
        cases w <;> exact hidle
      cases w <;> exact hend

/-- What the work of a resolution owes its commit: a compensation that is still to come, or the
resolution. -/
def WorkDone (env : WorkerEnv) (p : OrdersQueueJobPayload) (s : Stores)
    (a : ResolveFailedResult × Bool) (t : Stores) : Prop :=
  ∀ db, t.db.exec 0 .commit = some (.ok (), db) →
    if a.2 then ¬ s.db.Records p.userId p.reservationId ∧ { t with db := db } = s
    else Resolved env p s { t with db := db }

theorem not_records_of_row {row : DurableOrder} (hrow : s.db.row? p.userId = some row)
    (h : row.id ≠ p.reservationId ∨ row.status = .compensated) :
    ¬ s.db.Records p.userId p.reservationId := by
  rintro ⟨row', hrow', hid, hst⟩
  rw [hrow] at hrow'
  obtain rfl := Option.some.inj hrow'
  rcases h with h | h
  · exact h hid
  · rw [h] at hst
    cases hst

/-- The stores after the compensation, with the transaction still open. -/
abbrev compensatedWithin (env : WorkerEnv) (p : OrdersQueueJobPayload) (s : Stores) (tx : Tx) :
    Stores :=
  { s.setSale env.SALE_ID (compensate (s.sales env.SALE_ID) p.userId p.reservationId).2 with
    db := s.db.setTx 0 tx }

theorem ends_resolveFailedWork (hidle : s.db.txs = ∅)
    (husers : (s.db.orders.map (·.userId)).Nodup) (hsale : p.saleId = env.SALE_ID) :
    Ends (resolveFailedWork 0 p (Store.compensate p.saleId p.userId p.reservationId))
      (WorkDone env p s) (s.within 0 .start) := by
  unfold resolveFailedWork
  rw [hsale]
  refine .bind_of_ok (Prog.run_call (answer_sql
    (Db.lockReservation_alone hidle .start p.reservationId))) ?_
  show Ends _ _ (s.within 0 ⟨[s.db.hashtext p.reservationId], [], none⟩)
  cases hrow : s.db.row? p.userId with
  | none =>
    have hnone : ¬ s.db.Records p.userId p.reservationId := by
      rintro ⟨row, hrow', -⟩
      rw [hrow] at hrow'
      cases hrow'
    have hselect (tx : Tx) : (s.db.setTx 0 tx).exec 0 (.selectUserForUpdate p.userId) =
        some (.ok none, s.db.setTx 0 tx) := by
      unfold Db.exec
      rw [Db.tx?_setTx_self]
      dsimp only
      rw [Db.row?_setTx, hrow]
    refine .bind_of_ok (Prog.run_call (answer_sql (hselect _))) ?_
    refine .bind_of_ok (run_compensate _ p.userId p.reservationId) ?_
    show Ends _ _ (compensatedWithin env p s ⟨[s.db.hashtext p.reservationId], [], none⟩)
    refine .bind (ends_sql (P := fun _ t => ∃ tx, tx.write = some (.insert (p.toRow .compensated)) ∧
      t = compensatedWithin env p s tx) fun x db hdb => ?_) fun x t ht => .pure fun db hdb => ?_
    · rcases Db.exec_insertMarker hdb with ⟨hbad, -⟩ | ⟨tx, -, -, -, -, -, -, rfl⟩
      · cases hbad
      · exact ⟨_, rfl, congrArg (fun db => { compensatedWithin env p s tx with db := db })
          Db.setTx_setTx⟩
    · obtain ⟨tx, hwrite, rfl⟩ := ht
      rw [commit_eq hidle hdb, hwrite]
      exact .inr ⟨hnone, _, .insert hidle husers hrow, rfl⟩
  | some row =>
    refine .bind_of_ok (Prog.run_call (answer_sql
      (Db.selectUserForUpdate_alone hidle _ hrow))) ?_
    show Ends _ _ (s.within 0 ⟨[s.db.hashtext p.reservationId], [p.userId], none⟩)
    dsimp only
    by_cases hid : row.id = p.reservationId
    · rw [if_pos hid]
      by_cases hst : row.status = .persisted
      · rw [if_pos hst]
        refine .pure fun db hdb => ?_
        rw [commit_eq hidle hdb]
        exact .inl ⟨⟨row, hrow, hid, hst⟩, rfl⟩
      · rw [if_neg hst]
        refine .pure fun db hdb => ?_
        rw [commit_eq hidle hdb]
        refine ⟨not_records_of_row hrow (.inr ?_), rfl⟩
        cases hstatus : row.status with
        | persisted => exact absurd hstatus hst
        | compensated => rfl
    · rw [if_neg hid]
      have hnone := not_records_of_row hrow (.inl hid)
      refine .bind_of_ok (run_compensate _ p.userId p.reservationId) ?_
      show Ends _ _ (compensatedWithin env p s ⟨[s.db.hashtext p.reservationId], [p.userId], none⟩)
      by_cases hst : row.status = .compensated
      · rw [if_pos hst]
        refine .bind (ends_sql (P := fun n t => n = 1 → ∃ tx,
          tx.write = some (.update (p.toRow .compensated)) ∧ t = compensatedWithin env p s tx)
            fun n db hdb hn => ?_)
          fun n t ht => .throwIf fun hn => .pure fun db hdb => ?_
        · rcases Db.exec_updateMarker hdb with ⟨hbad | hbad, -⟩ |
            ⟨tx, old, -, -, -, -, -, -, -, -, -, rfl⟩
          · cases hbad
          · rw [hn] at hbad
            cases hbad
          · exact ⟨_, rfl, congrArg (fun db => { compensatedWithin env p s tx with db := db })
              Db.setTx_setTx⟩
        · obtain ⟨tx, hwrite, rfl⟩ := ht (not_not.1 hn)
          rw [commit_eq hidle hdb, hwrite]
          exact .inr ⟨hnone, _, .update hidle husers hrow hst, rfl⟩
      · rw [if_neg hst]
        refine .pure fun db hdb => ?_
        rw [commit_eq hidle hdb]
        exact .inr ⟨hnone, _, .refl hidle husers, rfl⟩

/-- What a resolution that returns has done. -/
theorem ends_resolveFailed (hidle : s.db.txs = ∅)
    (husers : (s.db.orders.map (·.userId)).Nodup) (hsale : p.saleId = env.SALE_ID) :
    Ends (resolveFailed 0 p (Store.compensate p.saleId p.userId p.reservationId))
      (fun _ s' => Resolved env p s s') s := by
  unfold resolveFailed
  refine .bind (ends_transaction (Db.tx?_of_empty hidle 0)
    (P := fun a t => if a.2 then ¬ s.db.Records p.userId p.reservationId ∧ t = s
      else Resolved env p s t) ?_) fun a t ht => ?_
  · exact ends_resolveFailedWork hidle husers hsale
  · obtain ⟨result, after⟩ := a
    cases after with
    | false => exact .pure ht
    | true =>
      obtain ⟨hnone, rfl⟩ : _ ∧ t = s := ht
      rw [hsale]
      refine .bind_of_ok (run_compensate t p.userId p.reservationId) (.pure ?_)
      exact .inr ⟨hnone, t.db, .refl hidle husers, rfl⟩

/-! ## Balanced stores -/

/-- Repaired stores whose buyers are the users of the ledger and whose stock is what the ledger
leaves of the total. -/
structure Balanced (env : WorkerEnv) (s : Stores) : Prop where
  repaired : Repaired env s
  members : ∀ u, (s.sales env.SALE_ID).buyers.sismember u =
    (s.sales env.SALE_ID).reservations.hexists u
  stock : ∃ cfg, (s.sales env.SALE_ID).config = some cfg ∧
    (s.sales env.SALE_ID).stock =
      some (cfg.totalStock - (s.sales env.SALE_ID).reservations.hlen) ∧
    ((s.sales env.SALE_ID).reservations.hlen : ℤ) ≤ cfg.totalStock

/-- The reservation `(u, r)` has left the ledger, perhaps, and every other entry is as before. -/
structure EntryDropped (env : WorkerEnv) (u r : String) (s s' : Stores) : Prop where
  old : ∀ v w, (s'.sales env.SALE_ID).reservations.hget v = some w →
    (s.sales env.SALE_ID).reservations.hget v = some w
  gone : ¬ Listed env s' u r
  config : (s'.sales env.SALE_ID).config = (s.sales env.SALE_ID).config
  kept : ∀ v r', Listed env s v r' → (v ≠ u ∨ r' ≠ r) → Listed env s' v r'

theorem EntryDropped.listed {u r v r' : String} (h : EntryDropped env u r s s')
    (hl : Listed env s' v r') : Listed env s v r' := by
  obtain ⟨w, hw, e⟩ := hl
  exact ⟨w, h.old v w hw, e⟩

/-- The job that a sweep resolves. -/
structure FailedJob (env : WorkerEnv) (p : OrdersQueueJobPayload) (s : Stores) (st : StoredJob) :
    Prop where
  mem : st ∈ s.queue.jobs
  sale : p.saleId = env.SALE_ID
  payload : assertOrdersQueueJobPayload st.job.data = .ok p
  id : st.job.id = env.jobId p.userId

variable {st : StoredJob}

theorem FailedJob.carries (h : FailedJob env p s st) {r : String} (hr : st.job.Carries r) :
    p.reservationId = r := by
  obtain ⟨p', hp', rfl⟩ := hr
  rw [h.payload] at hp'
  rw [Except.ok.inj hp']

/-- A slot other than that of the removed job is as before. -/
theorem find_erase_job (h : FailedJob env p s st) {v : String} (hv : v ≠ p.userId) :
    (s.queue.erase st.job.id).find (env.jobId v) = s.queue.find (env.jobId v) := by
  rw [JobQueue.find_erase, if_neg]
  rw [h.id]
  exact fun e => hv (WorkerEnv.jobId_inj e)

/-- What is left covers the entries that are left: the removed job carried the reservation that is
persisted or gone. -/
theorem covered_erase (h : FailedJob env p s st) (hd : s.queue.Distinct) {v r : String}
    (hcov : Covered env s v r) (hdb : s.db.Records v r → s'.db.Records v r)
    (hqueue : s'.queue = s.queue.erase st.job.id)
    (hsafe : v = p.userId → r = p.reservationId → s'.db.Records v r) : Covered env s' v r := by
  rcases hcov with hcov | ⟨st', hst', hlive, hcarries⟩
  · exact .inl (hdb hcov)
  · by_cases hv : v = p.userId
    · subst hv
      have hst : st' = st := by
        rw [← h.id, JobQueue.find_of_mem hd h.mem] at hst'
        exact (Option.some.inj hst').symm
      subst hst
      exact .inl (hsafe rfl (h.carries hcarries).symm)
    · exact .inr ⟨st', by rw [hqueue, find_erase_job h hv, hst'], hlive, hcarries⟩

/-- A job that stays belongs to another user. -/
theorem other_of_mem_erase (h : FailedJob env p s st) {st' : StoredJob}
    (hst' : st' ∈ (s.queue.erase st.job.id).jobs) {p' : OrdersQueueJobPayload}
    (hclass : classifyQueueEntry st'.job st'.state = .ok ⟨st'.job, st'.state, p'⟩)
    (hsale : p'.saleId = env.SALE_ID) : p'.userId ≠ p.userId := by
  have hid := (accepted_id hclass hsale).2
  have hne : st'.job.id ≠ st.job.id := by simpa using (List.mem_filter.1 hst').2
  intro e
  rw [e, ← h.id] at hid
  exact hne hid

/-- The job of a persisted order is removed. -/
theorem Balanced.removePersisted (h : Balanced env s) (hjob : FailedJob env p s st)
    (hrec : s.db.Records p.userId p.reservationId) :
    Balanced env { s with queue := s.queue.erase st.job.id } := by
  have hr := h.repaired
  have hsame : SameEntries env s { s with queue := s.queue.erase st.job.id } :=
    ⟨rfl, rfl, rfl⟩
  have hmem : ∀ st' ∈ (s.queue.erase st.job.id).jobs, st' ∈ s.queue.jobs :=
    fun st' hst' => List.mem_of_mem_filter hst'
  refine ⟨⟨⟨hr.drifted.distinct.erase _, fun st' hst' => hr.drifted.own st' (hmem st' hst'),
    hr.drifted.users, hr.drifted.idle, hr.drifted.total⟩,
    fun st' hst' => hsame.jobFits (hr.jobs st' (hmem st' hst')), hr.parses,
    fun v r hl => ?_, hr.rows, hr.buyers⟩, h.members, h.stock⟩
  refine covered_erase hjob hr.drifted.distinct (hr.covered v r hl) (fun hrec => hrec) rfl ?_
  rintro rfl rfl
  exact hrec

/-- The job of an order that is not persisted is removed after its reservation. -/
theorem Repaired.release (h : Repaired env s) (hjob : FailedJob env p s st)
    (hrec : ¬ s.db.Records p.userId p.reservationId)
    (hdrop : EntryDropped env p.userId p.reservationId s s')
    (hdb : MarkerLeft p s.db s'.db) (hqueue : s'.queue = s.queue.erase st.job.id)
    (hbuyers : ∀ u r, Listed env s' u r → (s'.sales env.SALE_ID).buyers.sismember u = true) :
    Repaired env s' := by
  have hmem : ∀ st' ∈ s'.queue.jobs, st' ∈ s.queue.jobs := by
    rw [hqueue]
    exact fun st' hst' => List.mem_of_mem_filter hst'
  have hrow : ∀ v row, row.status = .persisted →
      (s'.db.row? v = some row ↔ s.db.row? v = some row) := by
    intro v row hst
    by_cases hv : v = p.userId
    · rw [hv]
      exact hdb.own row hst
    · rw [hdb.others v hv]
  refine ⟨⟨?_, fun st' hst' => h.drifted.own st' (hmem st' hst'), hdb.users, hdb.idle,
    fun cfg hc => h.drifted.total cfg (hdrop.config ▸ hc)⟩,
    fun st' hst' hstate => ?_, fun v w hw => h.parses v w (hdrop.old v w hw), fun v r hl => ?_,
    fun row hm hsale hst => ?_, hbuyers⟩
  · rw [hqueue]
    exact h.drifted.distinct.erase _
  · obtain ⟨p', hp', hsale, hfailed, hlive⟩ := h.jobs st' (hmem st' hst') hstate
    have hother := other_of_mem_erase hjob (hqueue ▸ hst') hp' hsale
    refine ⟨p', hp', hsale, hfailed, fun hl => (hlive hl).imp (fun hl => ?_) fun hm => ?_⟩
    · exact hdrop.kept _ _ hl (.inl hother)
    · unfold Marked
      rw [hdb.others _ hother]
      exact hm
  · refine covered_erase hjob h.drifted.distinct (h.covered v r (hdrop.listed hl)) ?_ hqueue ?_
    · rintro ⟨row, hr, hid, hst⟩
      exact ⟨row, (hrow v row hst).2 hr, hid, hst⟩
    · rintro rfl rfl
      exact absurd hl hdrop.gone
  · have hr := (hrow _ row hst).1 (Db.row?_of_mem_orders hdb.users hm)
    obtain ⟨hc, hl⟩ := h.rows row (Db.mem_orders_of_row? hr) hsale hst
    refine ⟨hc, hdrop.kept _ _ hl ?_⟩
    by_contra hboth
    rw [not_or, not_not, not_not] at hboth
    exact hrec ⟨row, hboth.1 ▸ hr, hboth.2, hst⟩

/-- The keys of the sale after a compensation of balanced stores: as before, or without the entry
and with one unit more. -/
theorem Balanced.compensate_cases (h : Balanced env s) (u r : String) :
    ((compensate (s.sales env.SALE_ID) u r).2 = s.sales env.SALE_ID ∧ ¬ Listed env s u r) ∨
    (Listed env s u r ∧ ∃ cfg, (s.sales env.SALE_ID).config = some cfg ∧
      (compensate (s.sales env.SALE_ID) u r).2 = { (s.sales env.SALE_ID).drop u with
        stock := some (cfg.totalStock - ((s.sales env.SALE_ID).reservations.hdel u).hlen) }) := by
  obtain ⟨cfg, hcfg, hstock, hle⟩ := h.stock
  obtain ⟨h0, hsafe⟩ := h.repaired.drifted.total cfg hcfg
  rcases FlashSale.compensate_cases (s.sales env.SALE_ID) u r with ⟨e, hother⟩ | ⟨v, hv, hid, hcase⟩
  · refine .inl ⟨by rw [e], ?_⟩
    rintro ⟨v, hv, hid⟩
    exact hother v hv hid
  · have hlen := Hash.hlen_hdel_of_some (h := (s.sales env.SALE_ID).reservations) (k := u)
      (by rw [hv]; rfl)
    have hmember : (s.sales env.SALE_ID).buyers.sismember u = true := by
      rw [h.members, Hash.hexists, hv]
      rfl
    refine .inr ⟨⟨v, hv, hid⟩, cfg, hcfg, ?_⟩
    rcases hcase with ⟨hno, -⟩ | ⟨-, ⟨cfg', hcfg', hcap⟩, -⟩ | ⟨-, -, e⟩
    · rw [hmember] at hno
      cases hno
    · rw [hcfg] at hcfg'
      obtain rfl := Option.some.inj hcfg'
      rw [hstock, Option.getD_some, Number.ofInt_of_nonneg h0 hsafe,
        Number.ofInt_of_nonneg (by omega) (by omega)] at hcap
      omega
    · have hunit : cfg.totalStock - ((s.sales env.SALE_ID).reservations.hlen : ℤ) + 1 =
          cfg.totalStock - ((s.sales env.SALE_ID).reservations.hdel u).hlen := by omega
      rw [e, hstock, Option.getD_some, hunit]

/-- A released reservation, its removed job and perhaps a marker leave the stores balanced. -/
theorem Balanced.release (h : Balanced env s) (hjob : FailedJob env p s st)
    (hrec : ¬ s.db.Records p.userId p.reservationId) (hdb : MarkerLeft p s.db db) :
    Balanced env { s.setSale env.SALE_ID
      (compensate (s.sales env.SALE_ID) p.userId p.reservationId).2 with
        db := db, queue := s.queue.erase st.job.id } := by
  generalize hs' : ({ s.setSale env.SALE_ID
    (compensate (s.sales env.SALE_ID) p.userId p.reservationId).2 with
      db := db, queue := s.queue.erase st.job.id } : Stores) = s'
  have hqueue : s'.queue = s.queue.erase st.job.id := by rw [← hs']
  have hdb' : MarkerLeft p s.db s'.db := by
    rw [← hs']
    exact hdb
  have hkeys : s'.sales env.SALE_ID =
      (compensate (s.sales env.SALE_ID) p.userId p.reservationId).2 := by
    rw [← hs']
    exact Stores.sales_setSale _ _ _
  rcases h.compensate_cases p.userId p.reservationId with ⟨e, hno⟩ | ⟨hlisted, cfg, hcfg, e⟩
  · rw [e] at hkeys
    have hsame : ∀ v r, Listed env s' v r ↔ Listed env s v r := fun v r => by
      unfold Listed
      rw [hkeys]
    refine ⟨h.repaired.release hjob hrec ⟨fun v w hw => hkeys ▸ hw, ?_, by rw [hkeys],
      fun v r hl _ => ?_⟩ hdb' hqueue fun v r hl => ?_, ?_, ?_⟩
    · rwa [hsame]
    · rwa [hsame]
    · rw [hkeys]
      exact h.repaired.buyers v r ((hsame v r).1 hl)
    · rw [hkeys]
      exact h.members
    · rw [hkeys]
      exact h.stock
  · rw [e] at hkeys
    have hget : ∀ v, (s'.sales env.SALE_ID).reservations.hget v =
        if v = p.userId then none else (s.sales env.SALE_ID).reservations.hget v := by
      intro v
      rw [hkeys]
      exact Hash.hget_hdel _ _ _
    have hmembers : ∀ v, (s'.sales env.SALE_ID).buyers.sismember v =
        (s'.sales env.SALE_ID).reservations.hexists v := by
      intro v
      have hsrem : (s'.sales env.SALE_ID).buyers.sismember v =
          (!decide (v = p.userId) && (s.sales env.SALE_ID).buyers.sismember v) := by
        rw [hkeys]
        exact KeySet.sismember_srem
      rw [hsrem, h.members, Hash.hexists, Hash.hexists, hget]
      by_cases hv : v = p.userId
      · simp [hv]
      · simp [hv]
    refine ⟨h.repaired.release hjob hrec ⟨fun v w hw => ?_, ?_, by rw [hkeys]; rfl,
      fun v r hl hv => ?_⟩ hdb' hqueue fun v r hl => ?_, hmembers, cfg, ?_, ?_, ?_⟩
    · rw [hget] at hw
      split_ifs at hw
      exact hw
    · rintro ⟨w, hw, -⟩
      rw [hget, if_pos rfl] at hw
      cases hw
    · obtain ⟨w, hw, hid⟩ := hl
      refine ⟨w, ?_, hid⟩
      rw [hget, if_neg, hw]
      rintro rfl
      rcases hv with hv | hv
      · exact hv rfl
      · exact hv (Listed.unique ⟨w, hw, hid⟩ hlisted)
    · rw [hmembers]
      exact hl.hexists
    · rw [hkeys]
      exact hcfg
    · rw [hkeys]
      rfl
    · obtain ⟨cfg', hcfg', -, hle⟩ := h.stock
      rw [hcfg] at hcfg'
      obtain rfl := Option.some.inj hcfg'
      obtain ⟨v, hv, -⟩ := hlisted
      have hlen := Hash.hlen_hdel_of_some (h := (s.sales env.SALE_ID).reservations)
        (k := p.userId) (by rw [hv]; rfl)
      rw [hkeys]
      show (((s.sales env.SALE_ID).reservations.hdel p.userId).hlen : ℤ) ≤ cfg.totalStock
      omega

/-! ## The sweep -/

/-- What holds in a sweep without errors: `todo` is left of a page of jobs of the queue `q₀`, which
only loses jobs. -/
structure Sweeping (env : WorkerEnv) (q₀ : JobQueue) (todo : List (Option Job)) (s : Stores) :
    Prop where
  balanced : Balanced env s
  jobs : ∀ st ∈ s.queue.jobs, st ∈ q₀.jobs
  page : ∀ job, some job ∈ todo → ∃ st ∈ q₀.jobs, st.job = job

variable {q₀ : JobQueue} {todo : List (Option Job)} {job : Job} {acc : Sweep}

theorem Sweeping.tail {found : Option Job} (h : Sweeping env q₀ (found :: todo) s) :
    Sweeping env q₀ todo s :=
  ⟨h.balanced, h.jobs, fun job hjob => h.page job (List.mem_cons_of_mem _ hjob)⟩

/-- A failed job under the id of a job of the page is that job. -/
theorem Sweeping.stored (h : Sweeping env q₀ (some job :: todo) s) (hd : q₀.Distinct)
    (hstate : s.queue.getState job.id = .failed) : ∃ st ∈ s.queue.jobs, st.job = job := by
  unfold JobQueue.getState at hstate
  cases hf : s.queue.find job.id with
  | none => rw [hf] at hstate; cases hstate
  | some st =>
    obtain ⟨hst, hid⟩ := JobQueue.find_some hf
    obtain ⟨st', hst', rfl⟩ := h.page job (by simp)
    have hfind := JobQueue.find_of_mem hd hst'
    rw [← hid, JobQueue.find_of_mem hd (h.jobs st hst)] at hfind
    obtain rfl := Option.some.inj hfind
    exact ⟨st, hst, rfl⟩

theorem Sweeping.resolved (h : Sweeping env q₀ (some job :: todo) s) {st : StoredJob}
    (hjob : FailedJob env p s st) {t : Stores} (ht : Resolved env p s t) {x : Unit}
    (hx : (t.queue.remove st.job.id).1 = .ok x) :
    Sweeping env q₀ todo { t with queue := (t.queue.remove st.job.id).2 } := by
  have hmem : ∀ st' ∈ (s.queue.erase st.job.id).jobs, st' ∈ q₀.jobs :=
    fun st' hst' => h.jobs st' (List.mem_of_mem_filter hst')
  have hpage := h.tail.page
  rw [JobQueue.remove_ok hx]
  rcases ht with ⟨hrec, rfl⟩ | ⟨hrec, db, hdb, rfl⟩
  · exact ⟨h.balanced.removePersisted hjob hrec, hmem, hpage⟩
  · exact ⟨h.balanced.release hjob hrec hdb, hmem, hpage⟩

theorem ends_resolveJob (h : Sweeping env q₀ (some job :: todo) s) (hd : q₀.Distinct)
    {scanned : ScannedJob} (hclass : classifyQueueEntry job .failed = .ok scanned) :
    Ends (resolveJob acc job scanned.payload) (fun acc' s' =>
      acc'.operationalErrors = acc.operationalErrors ∧ Sweeping env q₀ todo s') s := by
  obtain ⟨-, hdata, -⟩ := classifyQueueEntry_ok hclass
  unfold resolveJob
  refine .bind_of_ok (Prog.run_call (o := Call.getState job.id) rfl) ?_
  by_cases hskip : s.queue.getState job.id ≠ .failed ∨ job.attempts ≠ some ORDERS_JOB_ATTEMPTS ∨
      job.exhausted = false
  · rw [if_pos hskip]
    exact .pure ⟨rfl, h.tail⟩
  · rw [if_neg hskip]
    simp only [not_or, not_not] at hskip
    obtain ⟨st, hst, rfl⟩ := h.stored hd hskip.1
    have hsale := h.balanced.repaired.drifted.own st hst _ hdata
    have hjob : FailedJob env scanned.payload s st :=
      ⟨hst, hsale, hdata, (accepted_id hclass hsale).2⟩
    refine .bind (ends_resolveFailed h.balanced.repaired.drifted.idle
      h.balanced.repaired.drifted.users hsale) fun _ t ht => ?_
    refine .bind (P := fun _ u => Sweeping env q₀ todo u) (.call fun x u hu => ?_)
      fun _ u hu => .pure ⟨rfl, hu⟩
    obtain ⟨hx, rfl⟩ := Prod.mk.inj (Option.some.inj hu)
    exact h.resolved hjob ht hx

/-- A turn of the sweep without an error keeps the stores balanced. -/
theorem ends_sweepJob (hd : q₀.Distinct) (found : Option Job)
    (h : acc.operationalErrors = [] → Sweeping env q₀ (found :: todo) s) :
    Ends (sweepJob acc found) (fun acc' s' => acc'.operationalErrors = [] →
      Sweeping env q₀ todo s') s := by
  unfold sweepJob
  cases found with
  | none => exact .throw
  | some job =>
    dsimp only
    cases hclass : classifyQueueEntry job .failed with
    | error issue => exact .pure fun hnone => (h hnone).tail
    | ok scanned =>
      refine .catchWith ?_ fun e t => .pure fun hnone => by simp at hnone
      by_cases hnone : acc.operationalErrors = []
      · exact (ends_resolveJob (h hnone) hd hclass).mono fun acc' s' h' _ => h'.2
      · -- the errors of earlier turns stay
        unfold resolveJob
        refine .bind (ends_trivial _) fun state t _ => ?_
        by_cases hskip : state ≠ .failed ∨ job.attempts ≠ some ORDERS_JOB_ATTEMPTS ∨
            job.exhausted = false
        · rw [if_pos hskip]
          exact .pure fun h' => absurd h' hnone
        · rw [if_neg hskip]
          exact .bind (ends_trivial _) fun _ _ _ => .bind (ends_trivial _) fun _ _ _ =>
            .pure fun h' => absurd h' hnone

theorem Balanced.setOffset (h : Balanced env s) (n : ℕ) :
    Balanced env { s with failedScanOffset := n } := by
  have hr := h.repaired
  have hsame : SameEntries env s { s with failedScanOffset := n } := ⟨rfl, rfl, rfl⟩
  exact ⟨⟨⟨hr.drifted.distinct, hr.drifted.own, hr.drifted.users, hr.drifted.idle,
    hr.drifted.total⟩,
    fun st hst => hsame.jobFits (hr.jobs st hst), hr.parses, hr.covered, hr.rows, hr.buyers⟩,
    h.members, h.stock⟩

/-- The page of a sweep holds jobs of the queue. -/
theorem ends_sweepPage (hd : s.queue.Distinct) (start : ℕ) :
    Ends (sweepPage env start) (fun a s' => s' = s ∧
      ∀ job, some job ∈ a.2 → ∃ st ∈ s.queue.jobs, st.job = job) s := by
  have hloaded : ∀ start stop job, some job ∈
      (s.queue.getRange .failed start stop).map s.queue.getJob → ∃ st ∈ s.queue.jobs,
        st.job = job := by
    intro start stop job hjob
    obtain ⟨id, hid, hjob⟩ := List.mem_map.1 hjob
    obtain ⟨st, hst, -⟩ := JobQueue.getRange_mem hd hid
    unfold JobQueue.getJob at hjob
    rw [hst] at hjob
    exact ⟨st, (JobQueue.find_some hst).1, Option.some.inj hjob⟩
  unfold sweepPage
  refine .bind_of_ok (run_getJobs s .failed _ _) ?_
  split_ifs
  · exact .bind_of_ok (run_getJobs s .failed _ _) (.pure ⟨rfl, hloaded _ _⟩)
  · exact .pure ⟨rfl, hloaded _ _⟩

/-- A sweep that returns leaves the stores balanced. -/
theorem ends_sweepFailed (h : Balanced env s) :
    Ends (sweepFailed env) (fun _ s' => Balanced env s') s := by
  have hd := h.repaired.drifted.distinct
  unfold sweepFailed
  refine .bind_of_ok (Prog.run_call (o := Call.countJobs .failed) rfl) ?_
  split_ifs
  · exact .bind_of_ok (Prog.run_call (o := Call.setFailedScanOffset 0) rfl) (.pure (h.setOffset 0))
  · refine .bind_of_ok (Prog.run_call (o := Call.getFailedScanOffset) rfl) ?_
    refine .bind (ends_sweepPage hd _) fun a t ht => ?_
    obtain ⟨start, failed⟩ := a
    obtain ⟨rfl, hpage⟩ := ht
    refine .bind (.forEach (fun todo acc u => acc.operationalErrors = [] →
      Sweeping env t.queue todo u) (fun found todo acc u h' => ends_sweepJob hd found h')
      fun _ => ⟨h, fun _ hst => hst, hpage⟩) fun acc u hu => ?_
    refine .bind_of_ok (Prog.run_call (o := Call.countJobs .failed) rfl) ?_
    refine .bind_of_ok (Prog.run_call (o := Call.setFailedScanOffset _) rfl) (.throwIf fun hok => ?_)
    have hnone : acc.operationalErrors = [] := by simpa using hok
    exact .pure ((hu hnone).balanced.setOffset _)

end

end FlashSale
